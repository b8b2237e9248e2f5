import TouchTarget.Proofs.Json.Layout

/-!
# A reader of documents of data

The reader takes a text in one pass. An automaton gives out the tokens, and a second one keeps the
lists and objects that are not closed yet on a stack. Members keep their order, and a name that
comes again is kept as well.

It reads every text of a document as that document. So no text belongs to two documents.
-/

namespace TouchTarget.Json

open Css (digit hexDigit?)

/-! ## From characters to tokens -/

/-- Where in a token the reader is. -/
inductive Mode
  | between
  /-- In a string, of which some characters have been read. -/
  | string (before : List Char)
  /-- Behind a backslash. -/
  | escape (before : List Char)
  /-- In the digits of a code. -/
  | code (before : List Char) (count value : Nat)
  | numeral (value : Nat)
deriving DecidableEq, Repr, Inhabited

namespace Mode

/-- What the mode and the next character give: the tokens that are complete, and the next mode. -/
abbrev Step : Type :=
  Option (List Token × Mode)

def stepBetween (c : Char) : Step :=
  if isSpace c then some ([], between)
  else if c == '\x22' then some ([], string [])
  else if c.isDigit then some ([], numeral (digit c))
  else (symbol? c).map fun token ↦ ([token], between)

def stepString (before : List Char) (c : Char) : Step :=
  if c == '\x22' then some ([.string (.ofList before)], between)
  else if c == '\\' then some ([], escape before)
  else if c.toNat < 0x20 then none
  else some ([], string (before ++ [c]))

def stepEscape (before : List Char) (c : Char) : Step :=
  if c == 'u' then some ([], code before 0 0)
  else (unescape? c).map fun value ↦ ([], string (before ++ [value]))

/-- Codes have four digits. -/
def stepCode (before : List Char) (count value : Nat) (c : Char) : Step := do
  let value := value * 16 + (← hexDigit? c)
  if count < 3 then some ([], code before (count + 1) value)
  else if value.isValidChar then some ([], string (before ++ [.ofNat value]))
  else none

def stepNumeral (value : Nat) (c : Char) : Step :=
  if c.isDigit then
    if value = 0 then none else some ([], numeral (10 * value + digit c))
  else (stepBetween c).map fun (tokens, mode) ↦ (.number value :: tokens, mode)

def step : Mode → Char → Step
  | between, c => stepBetween c
  | string before, c => stepString before c
  | escape before, c => stepEscape before c
  | code before count value, c => stepCode before count value c
  | numeral value, c => stepNumeral value c

/-- The tokens that the end of the text completes. -/
def finish : Mode → Option (List Token)
  | between => some []
  | numeral value => some [.number value]
  | _ => none

/-- The tokens of a text behind the mode. -/
def read (mode : Mode) : List Char → Option (List Token)
  | [] => mode.finish
  | c :: rest => do
    let (tokens, next) ← mode.step c
    let others ← next.read rest
    some (tokens ++ others)

end Mode

/-! ## From tokens to documents -/

/-- A list or an object that is not closed yet, with what has been read of it. -/
inductive Frame
  | array (before : List Json)
  | object (before : List (String × Json)) (name : String)

/-- Where in a document the reader is, and what is open there. -/
inductive Place
  | beforeValue (stack : List Frame)
  /-- A first element may follow or none. -/
  | behindBracket (stack : List Frame)
  /-- A first member may follow or none. -/
  | behindBrace (stack : List Frame)
  | beforeName (before : List (String × Json)) (stack : List Frame)
  | behindName (before : List (String × Json)) (name : String) (stack : List Frame)
  | behindValue (json : Json) (stack : List Frame)

namespace Place

/-- A value begins with the token. -/
def enter (stack : List Frame) : Token → Option Place
  | .openArray => some (behindBracket stack)
  | .openObject => some (behindBrace stack)
  | .string value => some (behindValue (.string value) stack)
  | .number value => some (behindValue (.number value) stack)
  | _ => none

def step : Place → Token → Option Place
  | beforeValue stack, token => enter stack token
  | behindBracket stack, .closeArray => some (behindValue (.array []) stack)
  | behindBracket stack, token => enter (.array [] :: stack) token
  | behindBrace stack, .closeObject => some (behindValue (.object []) stack)
  | behindBrace stack, .string name => some (behindName [] name stack)
  | beforeName before stack, .string name => some (behindName before name stack)
  | behindName before name stack, .colon => some (beforeValue (.object before name :: stack))
  | behindValue json (.array before :: stack), .comma =>
    some (beforeValue (.array (before ++ [json]) :: stack))
  | behindValue json (.array before :: stack), .closeArray =>
    some (behindValue (.array (before ++ [json])) stack)
  | behindValue json (.object before name :: stack), .comma =>
    some (beforeName (before ++ [(name, json)]) stack)
  | behindValue json (.object before name :: stack), .closeObject =>
    some (behindValue (.object (before ++ [(name, json)])) stack)
  | _, _ => none

/-- The place behind the tokens. -/
def read (place : Place) (tokens : List Token) : Option Place :=
  tokens.foldlM step place

/-- The value that ends at the place, if nothing is open there. -/
def document? : Place → Option Json
  | behindValue json [] => some json
  | _ => none

end Place

/-- The document that a text is read as. -/
def read? (text : String) : Option Json := do
  let tokens ← Mode.between.read text.toList
  let place ← (Place.beforeValue []).read tokens
  place.document?

/-! ## Tokens are read as they are spelled -/

namespace Mode

variable {c : Char} {text : List Char}

theorem read_cons_of_step_eq {mode next : Mode} {tokens : List Token}
    (h : mode.step c = some (tokens, next)) (text : List Char) :
    mode.read (c :: text) = (next.read text).map (tokens ++ ·) := by
  simp only [read, h, Option.bind_eq_bind, Option.bind_some]
  cases next.read text <;> rfl

theorem read_cons_of_silent {mode next : Mode} (h : mode.step c = some ([], next))
    (text : List Char) : mode.read (c :: text) = next.read text := by
  simp [read_cons_of_step_eq h]

theorem read_space (hc : isSpace c) (text : List Char) :
    between.read (c :: text) = between.read text := by
  apply read_cons_of_silent
  simp [step, stepBetween, hc]

/-- A symbol is neither a blank, a quote nor a digit. -/
theorem stepBetween_symbol {token : Token} (hc : symbol? c = some token) :
    stepBetween c = some ([token], between) := by
  have hclass : isSpace c = false ∧ (c == '\x22') = false ∧ c.isDigit = false := by
    unfold symbol? at hc
    split at hc
    case h_7 => cases hc
    all_goals decide
  simp [stepBetween, hclass, hc]

theorem read_symbol {token : Token} (hc : symbol? c = some token) (text : List Char) :
    between.read (c :: text) = (between.read text).map (token :: ·) := by
  have hstep : between.step c = some ([token], between) := stepBetween_symbol hc
  exact read_cons_of_step_eq hstep text

/-- A string takes in a character however it is spelled. -/
theorem read_string_spelled {letters : List Char} (before : List Char) (h : Spells c letters)
    (text : List Char) :
    (string before).read (letters ++ text) = (string (before ++ [c])).read text := by
  cases h with
  | plain hcontrol hquote hbackslash =>
    apply read_cons_of_silent
    simp [step, stepString, hquote, hbackslash, Nat.not_lt.2 hcontrol]
  | @letter letter hletter =>
    have hcode : letter ≠ 'u' := by
      intro h
      simp [h, unescape?] at hletter
    have hstep : (escape before).step letter = some ([], string (before ++ [c])) := by
      simp [step, stepEscape, hcode, hletter]
    calc
      (string before).read ('\\' :: letter :: text)
      _ = (escape before).read (letter :: text) := read_cons_of_silent rfl _
      _ = (string (before ++ [c])).read text := read_cons_of_silent hstep _
  | @code c₁ c₂ c₃ c₄ d₁ d₂ d₃ d₄ h₁ h₂ h₃ h₄ hc =>
    have hvalid : c.toNat.isValidChar := c.valid
    have hstep₁ : (code before 0 0).step c₁ = some ([], code before 1 d₁) := by
      simp [step, stepCode, h₁]
    have hstep₂ : (code before 1 d₁).step c₂ = some ([], code before 2 (d₁ * 16 + d₂)) := by
      simp [step, stepCode, h₂]
    have hstep₃ : (code before 2 (d₁ * 16 + d₂)).step c₃ =
        some ([], code before 3 ((d₁ * 16 + d₂) * 16 + d₃)) := by
      simp [step, stepCode, h₃]
    have hstep₄ : (code before 3 ((d₁ * 16 + d₂) * 16 + d₃)).step c₄ =
        some ([], string (before ++ [c])) := by
      simp [step, stepCode, h₄, hvalid, ← hc]
    calc
      (string before).read ('\\' :: 'u' :: c₁ :: c₂ :: c₃ :: c₄ :: text)
      _ = (escape before).read ('u' :: c₁ :: c₂ :: c₃ :: c₄ :: text) := read_cons_of_silent rfl _
      _ = (code before 0 0).read (c₁ :: c₂ :: c₃ :: c₄ :: text) := read_cons_of_silent rfl _
      _ = (code before 1 d₁).read (c₂ :: c₃ :: c₄ :: text) := read_cons_of_silent hstep₁ _
      _ = (code before 2 (d₁ * 16 + d₂)).read (c₃ :: c₄ :: text) := read_cons_of_silent hstep₂ _
      _ = (code before 3 ((d₁ * 16 + d₂) * 16 + d₃)).read (c₄ :: text) :=
        read_cons_of_silent hstep₃ _
      _ = (string (before ++ [c])).read text := read_cons_of_silent hstep₄ _

theorem read_string {chars : List Char} {pieces : List (List Char)} (before : List Char)
    (h : List.Forall₂ Spells chars pieces) (text : List Char) :
    (string before).read (pieces.flatten ++ '\x22' :: text) =
      (between.read text).map (.string (.ofList (before ++ chars)) :: ·) := by
  induction h generalizing before with
  | nil =>
    have hstep : (string before).step '\x22' = some ([.string (.ofList before)], between) := rfl
    rw [List.append_nil]
    exact read_cons_of_step_eq hstep text
  | @cons c letters chars pieces hc _ ih =>
    calc
      (string before).read ((letters :: pieces).flatten ++ '\x22' :: text)
      _ = (string before).read (letters ++ (pieces.flatten ++ '\x22' :: text)) := by simp
      _ = (string (before ++ [c])).read (pieces.flatten ++ '\x22' :: text) :=
        read_string_spelled before hc _
      _ = (between.read text).map (.string (.ofList (before ++ c :: chars)) :: ·) := by
        rw [ih, List.append_assoc, List.singleton_append]

/-- What ends a number is read as if it stood between tokens. -/
theorem read_numeral_of_endsNumeral (value : Nat) (h : EndsNumeral text) :
    (numeral value).read text = (between.read text).map (.number value :: ·) := by
  cases text with
  | nil => rfl
  | cons c rest =>
    have hc : ¬ c.isDigit := h c rfl
    simp only [read, step, stepNumeral, hc]
    cases stepBetween c with
    | none => rfl
    | some next => cases hrest : next.2.read rest <;> simp [hrest]

/-- A leading zero is the whole number. -/
theorem read_numeral {digits : List Char} (value : Nat) (hdigits : ∀ c ∈ digits, c.isDigit)
    (hzero : value = 0 → digits = []) (hend : EndsNumeral text) :
    (numeral value).read (digits ++ text) =
      (between.read text).map (.number (Nat.ofDigitChars 10 digits value) :: ·) := by
  induction digits generalizing value with
  | nil => exact read_numeral_of_endsNumeral value hend
  | cons c rest ih =>
    have hpos : value ≠ 0 := fun h ↦ List.cons_ne_nil c rest (hzero h)
    have hstep : (numeral value).step c = some ([], numeral (10 * value + digit c)) := by
      simp [step, stepNumeral, hdigits c List.mem_cons_self, hpos]
    calc
      (numeral value).read (c :: rest ++ text)
      _ = (numeral (10 * value + digit c)).read (rest ++ text) := read_cons_of_silent hstep _
      _ = (between.read text).map
          (.number (Nat.ofDigitChars 10 rest (10 * value + digit c)) :: ·) := by
        apply ih _ fun d hd ↦ hdigits d (List.mem_cons_of_mem c hd)
        omega

theorem stepBetween_digit (hc : c.isDigit) : stepBetween c = some ([], numeral (digit c)) := by
  have hne (other : Char) (hother : other.isDigit = false) : c ≠ other := by
    intro h
    rw [h, hother] at hc
    contradiction
  simp [stepBetween, isSpace, hc, hne ' ' rfl, hne '\t' rfl, hne '\n' rfl, hne '\r' rfl,
    hne '\x22' rfl]

theorem eq_zero_of_digit_eq_zero (hc : c.isDigit) (h : digit c = 0) : c = '0' := by
  have hle : '0'.toNat ≤ c.toNat := by
    simp only [Char.isDigit, Bool.and_eq_true, decide_eq_true_eq] at hc
    exact UInt32.le_iff_toNat_le.1 hc.1
  apply Char.toNat_inj.1
  rw [digit] at h
  omega

theorem read_number {value : Nat} {digits : List Char} (h : IsNumeral value digits)
    (hend : EndsNumeral text) :
    between.read (digits ++ text) = (between.read text).map (.number value :: ·) := by
  obtain ⟨hne, hdigits, hzero, rfl⟩ := h
  cases digits with
  | nil => contradiction
  | cons c rest =>
    have hc : c.isDigit := hdigits c List.mem_cons_self
    have hstep : between.step c = some ([], numeral (digit c)) := stepBetween_digit hc
    rw [List.cons_append, read_cons_of_silent hstep, read_numeral]
    · simp [Nat.ofDigitChars_cons, digit]
    · exact fun d hd ↦ hdigits d (List.mem_cons_of_mem c hd)
    · intro h
      have hc : c = '0' := eq_zero_of_digit_eq_zero hc h
      simpa [hc] using hzero
    · exact hend

theorem read_of_isLayout {tokens : List Token} (h : IsLayout tokens text) :
    between.read text = some tokens := by
  induction h with
  | nil => rfl
  | space hc _ ih => rw [read_space hc, ih]
  | symbol hc _ ih => rw [read_symbol hc, ih, Option.map_some]
  | @string value pieces tokens text hpieces _ ih =>
    have hstep : between.step '\x22' = some ([], .string []) := rfl
    rw [List.cons_append, read_cons_of_silent hstep, read_string [] hpieces, ih, Option.map_some,
      List.nil_append, String.ofList_toList]
  | number hdigits hend _ ih => rw [read_number hdigits hend, ih, Option.map_some]

end Mode

/-! ## Documents are read from their tokens -/

namespace Place

theorem read_cons_of_step_eq {place next : Place} {token : Token}
    (h : place.step token = some next) (rest : List Token) :
    place.read (token :: rest) = next.read rest := by
  simp [read, h]

/-- A first element is read like any other value. -/
theorem read_first_element (stack : List Frame) (first : Json) (rest : List Token) :
    (behindBracket stack).read (first.tokens ++ rest) =
      (beforeValue (.array [] :: stack)).read (first.tokens ++ rest) := by
  cases first with
  | array elements => cases elements <;> rfl
  | object members => cases members <;> rfl
  | _ => rfl

mutual

/-- A value is read whole, whatever is open around it. -/
theorem read_tokens (stack : List Frame) (json : Json) (rest : List Token) :
    (beforeValue stack).read (json.tokens ++ rest) = (behindValue json stack).read rest := by
  match json with
  | number value => rfl
  | string value => rfl
  | array [] => rfl
  | array (first :: others) =>
    calc
      (beforeValue stack).read ((array (first :: others)).tokens ++ rest)
      _ = (behindBracket stack).read
          (first.tokens ++ (elementTokens others ++ .closeArray :: rest)) := by
        simp only [tokens, List.append_assoc, List.cons_append, List.nil_append]
        exact read_cons_of_step_eq rfl _
      _ = (behindValue first (.array [] :: stack)).read
          (elementTokens others ++ .closeArray :: rest) := by
        rw [read_first_element, read_tokens]
      _ = (behindValue (.array (first :: others)) stack).read rest :=
        read_elementTokens stack [] first others rest
  | object [] => rfl
  | object ((name, value) :: others) =>
    calc
      (beforeValue stack).read ((object ((name, value) :: others)).tokens ++ rest)
      _ = (beforeValue (.object [] name :: stack)).read
          (value.tokens ++ (memberTokens others ++ .closeObject :: rest)) := by
        simp only [tokens, List.append_assoc, List.cons_append, List.nil_append]
        rw [read_cons_of_step_eq rfl, read_cons_of_step_eq rfl, read_cons_of_step_eq rfl]
      _ = (behindValue value (.object [] name :: stack)).read
          (memberTokens others ++ .closeObject :: rest) := read_tokens _ value _
      _ = (behindValue (.object ((name, value) :: others)) stack).read rest :=
        read_memberTokens stack [] name value others rest

/-- Elements join those in front of them until the list is closed. -/
theorem read_elementTokens (stack : List Frame) (before : List Json) (element : Json)
    (others : List Json) (rest : List Token) :
    (behindValue element (.array before :: stack)).read
        (elementTokens others ++ .closeArray :: rest) =
      (behindValue (.array (before ++ element :: others)) stack).read rest := by
  match others with
  | [] => rfl
  | next :: others =>
    calc
      (behindValue element (.array before :: stack)).read
          (elementTokens (next :: others) ++ .closeArray :: rest)
      _ = (beforeValue (.array (before ++ [element]) :: stack)).read
          (next.tokens ++ (elementTokens others ++ .closeArray :: rest)) := by
        simp only [elementTokens, List.append_assoc, List.cons_append]
        exact read_cons_of_step_eq rfl _
      _ = (behindValue next (.array (before ++ [element]) :: stack)).read
          (elementTokens others ++ .closeArray :: rest) := read_tokens _ next _
      _ = (behindValue (.array (before ++ element :: next :: others)) stack).read rest := by
        rw [read_elementTokens, List.append_assoc, List.singleton_append]

/-- Members join those in front of them until the object is closed. -/
theorem read_memberTokens (stack : List Frame) (before : List (String × Json)) (name : String)
    (value : Json) (others : List (String × Json)) (rest : List Token) :
    (behindValue value (.object before name :: stack)).read
        (memberTokens others ++ .closeObject :: rest) =
      (behindValue (.object (before ++ (name, value) :: others)) stack).read rest := by
  match others with
  | [] => rfl
  | (nextName, next) :: others =>
    calc
      (behindValue value (.object before name :: stack)).read
          (memberTokens ((nextName, next) :: others) ++ .closeObject :: rest)
      _ = (beforeValue (.object (before ++ [(name, value)]) nextName :: stack)).read
          (next.tokens ++ (memberTokens others ++ .closeObject :: rest)) := by
        simp only [memberTokens, List.append_assoc, List.cons_append]
        rw [read_cons_of_step_eq rfl, read_cons_of_step_eq rfl, read_cons_of_step_eq rfl]
      _ = (behindValue next (.object (before ++ [(name, value)]) nextName :: stack)).read
          (memberTokens others ++ .closeObject :: rest) := read_tokens _ next _
      _ = (behindValue (.object (before ++ (name, value) :: (nextName, next) :: others))
          stack).read rest := by
        rw [read_memberTokens, List.append_assoc, List.singleton_append]

end

end Place

/-- The reader reads every text of a document. -/
theorem read?_of_isTextOf {text : String} {json : Json} (h : IsTextOf text json) :
    read? text = some json := by
  have hplace : (Place.beforeValue []).read json.tokens = some (.behindValue json []) :=
    calc
      (Place.beforeValue []).read json.tokens
      _ = (Place.beforeValue []).read (json.tokens ++ []) := by rw [List.append_nil]
      _ = some (.behindValue json []) := Place.read_tokens [] json []
  simp [read?, Mode.read_of_isLayout h, hplace, Place.document?]

/-- Members of one name stay apart. -/
example : read? "\x7b\x22a\x22: 1, \x22\\u0061\x22: 2\x7d" =
    some (.object [("a", .number 1), ("a", .number 2)]) := by
  rfl

/-- A text belongs to one document at most. -/
theorem IsTextOf.eq {text : String} {json other : Json} (h : IsTextOf text json)
    (hother : IsTextOf text other) : other = json := by
  apply Option.some.inj
  rw [← read?_of_isTextOf h, read?_of_isTextOf hother]

end TouchTarget.Json
