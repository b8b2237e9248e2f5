import Mathlib.Data.List.Forall2
import Mathlib.Tactic.IntervalCases
import TouchTarget.Css.Escape
import TouchTarget.Json

/-!
# The texts of a document of data

A document is a row of tokens, and a text of the document spells these tokens one after the other,
with blanks around them as one likes. A character of a string is spelled by itself or by an escape,
of which there may be several; a number has no leading zeros. An escape with a code names one
character, so characters beyond sixteen bits are spelled by themselves only.

The grammar knows nothing of lines and levels. A rendered document is one of its texts.
-/

namespace TouchTarget.Json

open Css (hexDigit?)

inductive Token
  | openArray
  | closeArray
  | openObject
  | closeObject
  | comma
  | colon
  | string (value : String)
  | number (value : Nat)
deriving DecidableEq, Repr, Inhabited

mutual

/-- The tokens of a document, from left to right. -/
def tokens : Json → List Token
  | number value => [.number value]
  | string value => [.string value]
  | array elements =>
    match elements with
    | [] => [.openArray, .closeArray]
    | first :: others => .openArray :: tokens first ++ elementTokens others ++ [.closeArray]
  | object members =>
    match members with
    | [] => [.openObject, .closeObject]
    | (name, value) :: others =>
      .openObject :: .string name :: .colon :: tokens value ++ memberTokens others ++
        [.closeObject]

/-- The tokens of the elements behind the first one. -/
def elementTokens : List Json → List Token
  | [] => []
  | element :: others => .comma :: tokens element ++ elementTokens others

/-- The tokens of the members behind the first one. -/
def memberTokens : List (String × Json) → List Token
  | [] => []
  | (name, value) :: others =>
    .comma :: .string name :: .colon :: tokens value ++ memberTokens others

end

/-! ## The grammar -/

def isSpace (c : Char) : Bool :=
  c == ' ' || c == '\t' || c == '\n' || c == '\r'

/-- The token that is one character. -/
def symbol? : Char → Option Token
  | '[' => some .openArray
  | ']' => some .closeArray
  | '\x7b' => some .openObject
  | '\x7d' => some .closeObject
  | ',' => some .comma
  | ':' => some .colon
  | _ => none

/-- What a letter behind a backslash stands for. -/
def unescape? : Char → Option Char
  | '\x22' => some '\x22'
  | '\\' => some '\\'
  | '/' => some '/'
  | 'b' => some '\x08'
  | 'f' => some '\x0c'
  | 'n' => some '\n'
  | 'r' => some '\r'
  | 't' => some '\t'
  | _ => none

/-- The ways to spell a character of a string. -/
inductive Spells : Char → List Char → Prop
  | plain {c : Char} (hcontrol : 0x20 ≤ c.toNat) (hquote : c ≠ '\x22') (hbackslash : c ≠ '\\') :
    Spells c [c]
  | letter {c letter : Char} (h : unescape? letter = some c) : Spells c ['\\', letter]
  | code {c c₁ c₂ c₃ c₄ : Char} {d₁ d₂ d₃ d₄ : Nat} (h₁ : hexDigit? c₁ = some d₁)
    (h₂ : hexDigit? c₂ = some d₂) (h₃ : hexDigit? c₃ = some d₃) (h₄ : hexDigit? c₄ = some d₄)
    (hc : c.toNat = ((d₁ * 16 + d₂) * 16 + d₃) * 16 + d₄) : Spells c ['\\', 'u', c₁, c₂, c₃, c₄]

/-- The digits of a number. -/
structure IsNumeral (value : Nat) (digits : List Char) : Prop where
  ne_nil : digits ≠ []
  isDigit : ∀ c ∈ digits, c.isDigit
  eq_zero_of_leading_zero : digits.head? = some '0' → digits = ['0']
  value_eq : Nat.ofDigitChars 10 digits 0 = value

/-- A number may end in front of the text. -/
def EndsNumeral (text : List Char) : Prop :=
  ∀ c ∈ text.head?, ¬ c.isDigit

/-- The text spells the tokens. -/
inductive IsLayout : List Token → List Char → Prop
  | nil : IsLayout [] []
  | space {c : Char} {tokens : List Token} {text : List Char} (hc : isSpace c)
    (htext : IsLayout tokens text) : IsLayout tokens (c :: text)
  | symbol {c : Char} {token : Token} {tokens : List Token} {text : List Char}
    (hc : symbol? c = some token) (htext : IsLayout tokens text) :
    IsLayout (token :: tokens) (c :: text)
  | string {value : String} {pieces : List (List Char)} {tokens : List Token} {text : List Char}
    (hpieces : List.Forall₂ Spells value.toList pieces) (htext : IsLayout tokens text) :
    IsLayout (.string value :: tokens) ('\x22' :: pieces.flatten ++ '\x22' :: text)
  | number {value : Nat} {digits : List Char} {tokens : List Token} {text : List Char}
    (hdigits : IsNumeral value digits) (hend : EndsNumeral text) (htext : IsLayout tokens text) :
    IsLayout (.number value :: tokens) (digits ++ text)

/-- The text is one of those of the document. -/
def IsTextOf (text : String) (json : Json) : Prop :=
  IsLayout json.tokens text.toList

/-! ## Characters and numbers as they are rendered -/

theorem hexDigit?_hexDigit {d : Nat} (h : d < 16) : hexDigit? (hexDigit d) = some d := by
  interval_cases d <;> decide

theorem spells_escape (c : Char) : Spells c (escape c) := by
  unfold escape
  split
  case h_8 hquote hbackslash _ _ _ _ _ =>
    split
    case isTrue hcontrol =>
      have hzero : hexDigit? '0' = some 0 := by decide
      apply Spells.code hzero hzero (hexDigit?_hexDigit (by omega)) (hexDigit?_hexDigit (by omega))
      omega
    case isFalse hcontrol => exact .plain (by omega) hquote hbackslash
  all_goals exact .letter rfl

theorem toDigits_eq_of_head?_eq_zero {value : Nat} (h : (Nat.toDigits 10 value).head? = some '0') :
    Nat.toDigits 10 value = ['0'] := by
  rcases Nat.lt_or_ge value 10 with hlt | hge
  · rw [Nat.toDigits_of_lt_base hlt] at h ⊢
    rw [Option.some.inj h]
  · -- The digits in front of the last one would be those of zero.
    have hfront : Nat.toDigits 10 (value / 10) = ['0'] := by
      apply toDigits_eq_of_head?_eq_zero
      rw [Nat.toDigits_of_base_le (by decide) hge,
        List.head?_append_of_ne_nil _ Nat.toDigits_ne_nil] at h
      exact h
    have hzero : value / 10 = 0 := by
      rw [← Nat.ofDigitChars_toDigits (n := value / 10) (by decide) (le_refl 10), hfront]
      rfl
    omega
termination_by value

theorem isNumeral_toDigits (value : Nat) : IsNumeral value (Nat.toDigits 10 value) where
  ne_nil := Nat.toDigits_ne_nil
  isDigit _ := Nat.isDigit_of_mem_toDigits (by decide) (le_refl 10)
  eq_zero_of_leading_zero := toDigits_eq_of_head?_eq_zero
  value_eq := Nat.ofDigitChars_toDigits (by decide) (le_refl 10)

/-! ## Rendered documents -/

namespace IsLayout

variable {rest : List Token} {text : List Char}

theorem newline (level : Nat) (htext : IsLayout rest text) :
    IsLayout rest (newline level ++ text) := by
  apply space (by decide)
  induction 2 * level with
  | zero => exact htext
  | succ count ih => exact ih.space (by decide)

theorem quoted (value : String) (htext : IsLayout rest text) :
    IsLayout (.string value :: rest) (quoted value ++ text) := by
  have hpieces : List.Forall₂ Spells value.toList (value.toList.map escape) := by
    rw [List.forall₂_map_right_iff, List.forall₂_same]
    intro c _
    exact spells_escape c
  simpa [Json.quoted, List.flatMap_def] using string hpieces htext

theorem name (name : String) (htext : IsLayout rest text) :
    IsLayout (.string name :: .colon :: rest) (Json.quoted name ++ ':' :: ' ' :: text) := by
  apply quoted
  apply symbol rfl
  exact htext.space (by decide)

end IsLayout

theorem endsNumeral_cons {c : Char} (hc : ¬ c.isDigit) (text : List Char) :
    EndsNumeral (c :: text) := by
  simpa [EndsNumeral] using hc

theorem endsNumeral_newline (level : Nat) (text : List Char) :
    EndsNumeral (newline level ++ text) :=
  endsNumeral_cons (by decide) _

theorem endsNumeral_renderElements {text : List Char} (level : Nat) (elements : List Json)
    (h : EndsNumeral text) : EndsNumeral (renderElements level elements ++ text) := by
  cases elements with
  | nil => simpa [renderElements] using h
  | cons element others => exact endsNumeral_cons (by decide) _

theorem endsNumeral_renderMembers {text : List Char} (level : Nat) (members : List (String × Json))
    (h : EndsNumeral text) : EndsNumeral (renderMembers level members ++ text) := by
  cases members with
  | nil => simpa [renderMembers] using h
  | cons member others => exact endsNumeral_cons (by decide) _

mutual

/-- A rendered value is spelled in front of whatever comes behind it. -/
theorem isLayout_renderAt {rest : List Token} {text : List Char} (level : Nat) (json : Json)
    (hend : EndsNumeral text) (htext : IsLayout rest text) :
    IsLayout (json.tokens ++ rest) (json.renderAt level ++ text) := by
  match json with
  | number value => exact .number (isNumeral_toDigits value) hend htext
  | string value => exact htext.quoted value
  | array [] => exact .symbol rfl (.symbol rfl htext)
  | array (first :: others) =>
    have hclose : IsLayout (.closeArray :: rest) (newline level ++ ']' :: text) :=
      (IsLayout.symbol rfl htext).newline level
    have hothers := isLayout_renderElements (level + 1) others (endsNumeral_newline _ _) hclose
    have hfirst := isLayout_renderAt (level + 1) first
      (endsNumeral_renderElements _ _ (endsNumeral_newline _ _)) hothers
    have hopen : symbol? '[' = some .openArray := rfl
    simpa [tokens, renderAt] using IsLayout.symbol hopen (hfirst.newline (level + 1))
  | object [] => exact .symbol rfl (.symbol rfl htext)
  | object ((name, value) :: others) =>
    have hclose : IsLayout (.closeObject :: rest) (newline level ++ '\x7d' :: text) :=
      (IsLayout.symbol rfl htext).newline level
    have hothers := isLayout_renderMembers (level + 1) others (endsNumeral_newline _ _) hclose
    have hvalue := isLayout_renderAt (level + 1) value
      (endsNumeral_renderMembers _ _ (endsNumeral_newline _ _)) hothers
    have hopen : symbol? '\x7b' = some .openObject := rfl
    simpa [tokens, renderAt] using IsLayout.symbol hopen ((hvalue.name name).newline (level + 1))

theorem isLayout_renderElements {rest : List Token} {text : List Char} (level : Nat)
    (elements : List Json) (hend : EndsNumeral text) (htext : IsLayout rest text) :
    IsLayout (elementTokens elements ++ rest) (renderElements level elements ++ text) := by
  match elements with
  | [] => exact htext
  | element :: others =>
    have hothers := isLayout_renderElements level others hend htext
    have helement := isLayout_renderAt level element
      (endsNumeral_renderElements level others hend) hothers
    have hcomma : symbol? ',' = some .comma := rfl
    simpa [elementTokens, renderElements] using
      IsLayout.symbol hcomma (helement.newline level)

theorem isLayout_renderMembers {rest : List Token} {text : List Char} (level : Nat)
    (members : List (String × Json)) (hend : EndsNumeral text) (htext : IsLayout rest text) :
    IsLayout (memberTokens members ++ rest) (renderMembers level members ++ text) := by
  match members with
  | [] => exact htext
  | (name, value) :: others =>
    have hothers := isLayout_renderMembers level others hend htext
    have hvalue := isLayout_renderAt level value
      (endsNumeral_renderMembers level others hend) hothers
    have hcomma : symbol? ',' = some .comma := rfl
    simpa [memberTokens, renderMembers] using
      IsLayout.symbol hcomma ((hvalue.name name).newline level)

end

/-- A rendered document is a text of it. -/
theorem isTextOf_render (json : Json) : IsTextOf json.render json := by
  have hend : EndsNumeral [] := by simp [EndsNumeral]
  simpa [IsTextOf, render] using isLayout_renderAt 0 json hend .nil

end TouchTarget.Json
