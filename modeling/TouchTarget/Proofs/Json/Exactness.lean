import TouchTarget.Proofs.Json.Reader

/-!
# What the reader refuses

The reader gives a document only for a text of it. The automaton that gives out the tokens is taken
back token by token: a string or a number that it gives out stands in the text, spelled as the
grammar asks. The stack of open lists and objects keeps all tokens that were read, so a value with
nothing open around it is spelled by exactly these.

With this the reader decides which texts are texts of a document.
-/

namespace TouchTarget.Json

open Css (digit hexDigit?)

/-! ## The tokens of a text are spelled in it -/

namespace Mode

variable {c : Char} {text : List Char} {tokens : List Token}

theorem exists_of_read_cons {mode : Mode} (h : mode.read (c :: text) = some tokens) :
    ∃ emitted next others, mode.step c = some (emitted, next) ∧ next.read text = some others ∧
      tokens = emitted ++ others := by
  simp only [read, Option.bind_eq_bind, Option.bind_eq_some_iff, Option.some_inj] at h
  obtain ⟨⟨emitted, next⟩, hstep, others, hothers, htokens⟩ := h
  exact ⟨emitted, next, others, hstep, hothers, htokens.symm⟩

/-- A code goes on with a digit, and with the last one it stands for a character. -/
theorem exists_of_read_code {before : List Char} {count value : Nat}
    (h : (code before count value).read text = some tokens) :
    ∃ c d rest, text = c :: rest ∧ hexDigit? c = some d ∧
      if count < 3 then (code before (count + 1) (value * 16 + d)).read rest = some tokens
      else (value * 16 + d).isValidChar ∧
        (string (before ++ [.ofNat (value * 16 + d)])).read rest = some tokens := by
  cases text with
  | nil => cases h
  | cons c rest =>
    obtain ⟨emitted, next, others, hstep, hothers, rfl⟩ := exists_of_read_cons h
    simp only [step, stepCode, Option.bind_eq_bind, Option.bind_eq_some_iff] at hstep
    obtain ⟨d, hd, hnext⟩ := hstep
    refine ⟨c, d, rest, rfl, hd, ?_⟩
    split at hnext
    next hcount =>
      cases hnext
      rwa [if_pos hcount]
    next hcount =>
      rw [if_neg hcount]
      split at hnext
      next hvalid =>
        cases hnext
        exact ⟨hvalid, hothers⟩
      next => cases hnext

theorem toNat_ofNat {code : Nat} (h : code.isValidChar) : (Char.ofNat code).toNat = code :=
  calc
    (Char.ofNat code).toNat
    _ = (Char.ofNatAux code h).toNat := congrArg Char.toNat (dif_pos h)
    _ = code := rfl

/-- Behind a backslash, the text goes on with the spelling of a character. -/
theorem exists_of_read_escape {before : List Char}
    (h : (escape before).read text = some tokens) :
    ∃ c letters rest, text = letters ++ rest ∧ Spells c ('\\' :: letters) ∧
      (string (before ++ [c])).read rest = some tokens := by
  cases text with
  | nil => cases h
  | cons letter rest =>
    obtain ⟨emitted, next, others, hstep, hothers, rfl⟩ := exists_of_read_cons h
    simp only [step, stepEscape] at hstep
    split at hstep
    next hletter =>
      cases hstep
      obtain rfl := eq_of_beq hletter
      obtain ⟨c₁, d₁, rest₁, rfl, h₁, hread₁⟩ := exists_of_read_code hothers
      rw [if_pos (by decide), Nat.zero_mul, Nat.zero_add d₁] at hread₁
      obtain ⟨c₂, d₂, rest₂, rfl, h₂, hread₂⟩ := exists_of_read_code hread₁
      rw [if_pos (by decide)] at hread₂
      obtain ⟨c₃, d₃, rest₃, rfl, h₃, hread₃⟩ := exists_of_read_code hread₂
      rw [if_pos (by decide)] at hread₃
      obtain ⟨c₄, d₄, rest₄, rfl, h₄, hread₄⟩ := exists_of_read_code hread₃
      rw [if_neg (by decide)] at hread₄
      exact ⟨_, ['u', c₁, c₂, c₃, c₄], rest₄, rfl, .code h₁ h₂ h₃ h₄ (toNat_ofNat hread₄.1),
        hread₄.2⟩
    next =>
      obtain ⟨c, hc, hnext⟩ := Option.map_eq_some_iff.1 hstep
      cases hnext
      exact ⟨c, [letter], rest, rfl, .letter hc, hothers⟩

theorem stepString_cases {before : List Char} {emitted : List Token} {next : Mode}
    (h : stepString before c = some (emitted, next)) :
    (c = '\x22' ∧ emitted = [.string (.ofList before)] ∧ next = between) ∨
      (c = '\\' ∧ emitted = [] ∧ next = escape before) ∨
      (Spells c [c] ∧ emitted = [] ∧ next = string (before ++ [c])) := by
  simp only [stepString, beq_iff_eq] at h
  split at h
  next hquote =>
    cases h
    exact .inl ⟨hquote, rfl, rfl⟩
  next hquote =>
    split at h
    next hbackslash =>
      cases h
      exact .inr (.inl ⟨hbackslash, rfl, rfl⟩)
    next hbackslash =>
      split at h
      next => cases h
      next hcontrol =>
        cases h
        exact .inr (.inr ⟨.plain (Nat.le_of_not_lt hcontrol) hquote hbackslash, rfl, rfl⟩)

/-- What has been read of a string is the front of a string of the text. -/
theorem exists_of_read_string {before text : List Char} {tokens : List Token}
    (h : (string before).read text = some tokens) :
    ∃ chars pieces rest others, List.Forall₂ Spells chars pieces ∧
      text = pieces.flatten ++ '\x22' :: rest ∧ between.read rest = some others ∧
      tokens = .string (.ofList (before ++ chars)) :: others := by
  -- An escape takes several characters, so the recursion is on what is left behind it.
  match text with
  | [] => cases h
  | c :: rest =>
    obtain ⟨emitted, next, others, hstep, hothers, rfl⟩ := exists_of_read_cons h
    rcases stepString_cases hstep with ⟨rfl, rfl, rfl⟩ | ⟨rfl, rfl, rfl⟩ | ⟨hc, rfl, rfl⟩
    · exact ⟨[], [], rest, others, .nil, rfl, hothers, by rw [List.append_nil]; rfl⟩
    · obtain ⟨d, letters, rest, rfl, hd, hread⟩ := exists_of_read_escape hothers
      obtain ⟨chars, pieces, behind, others, hpieces, rfl, hbehind, rfl⟩ :=
        exists_of_read_string hread
      exact ⟨d :: chars, ('\\' :: letters) :: pieces, behind, others, .cons hd hpieces,
        by simp, hbehind, by simp⟩
    · obtain ⟨chars, pieces, behind, others, hpieces, rfl, hbehind, rfl⟩ :=
        exists_of_read_string hothers
      exact ⟨c :: chars, [c] :: pieces, behind, others, .cons hc hpieces, by simp, hbehind,
        by simp⟩
termination_by text.length

/-- What has been read of a number is the front of a number of the text. -/
theorem exists_of_read_numeral {value : Nat} (h : (numeral value).read text = some tokens) :
    ∃ digits rest others, (∀ c ∈ digits, c.isDigit) ∧ (value = 0 → digits = []) ∧
      EndsNumeral rest ∧ text = digits ++ rest ∧ between.read rest = some others ∧
      tokens = .number (Nat.ofDigitChars 10 digits value) :: others := by
  induction text generalizing value tokens with
  | nil =>
    cases h
    exact ⟨[], [], [], by simp, fun _ ↦ rfl, by simp [EndsNumeral], rfl, rfl, rfl⟩
  | cons c rest ih =>
    obtain ⟨emitted, next, others, hstep, hothers, rfl⟩ := exists_of_read_cons h
    simp only [step, stepNumeral] at hstep
    split at hstep
    next hdigit =>
      split at hstep
      next => cases hstep
      next hpos =>
        cases hstep
        obtain ⟨digits, behind, others, hdigits, -, hend, rfl, hbehind, rfl⟩ := ih hothers
        exact ⟨c :: digits, behind, others, List.forall_mem_cons.2 ⟨hdigit, hdigits⟩,
          fun hzero ↦ absurd hzero hpos, hend, rfl, hbehind, rfl⟩
    next hdigit =>
      obtain ⟨⟨emitted, next⟩, hbetween, hnext⟩ := Option.map_eq_some_iff.1 hstep
      cases hnext
      have hfirst : between.step c = some (emitted, next) := hbetween
      have hread : between.read (c :: rest) = some (emitted ++ others) := by
        rw [read_cons_of_step_eq hfirst, hothers, Option.map_some]
      exact ⟨[], c :: rest, emitted ++ others, by simp, fun _ ↦ rfl, endsNumeral_cons hdigit rest,
        rfl, hread, rfl⟩

theorem isNumeral_cons {digits : List Char} (hc : c.isDigit) (hdigits : ∀ c ∈ digits, c.isDigit)
    (hzero : digit c = 0 → digits = []) :
    IsNumeral (Nat.ofDigitChars 10 digits (digit c)) (c :: digits) where
  ne_nil := List.cons_ne_nil c digits
  isDigit := List.forall_mem_cons.2 ⟨hc, hdigits⟩
  eq_zero_of_leading_zero h := by
    obtain rfl : c = '0' := Option.some.inj h
    rw [hzero rfl]
  value_eq := by
    rw [Nat.ofDigitChars_cons, Nat.mul_zero, Nat.zero_add]
    rfl

theorem stepBetween_cases {emitted : List Token} {next : Mode}
    (h : stepBetween c = some (emitted, next)) :
    (isSpace c ∧ emitted = [] ∧ next = between) ∨
      (c = '\x22' ∧ emitted = [] ∧ next = string []) ∨
      (c.isDigit ∧ emitted = [] ∧ next = numeral (digit c)) ∨
      ∃ token, symbol? c = some token ∧ emitted = [token] ∧ next = between := by
  simp only [stepBetween, beq_iff_eq] at h
  split at h
  next hspace =>
    cases h
    exact .inl ⟨hspace, rfl, rfl⟩
  next =>
    split at h
    next hquote =>
      cases h
      exact .inr (.inl ⟨hquote, rfl, rfl⟩)
    next =>
      split at h
      next hdigit =>
        cases h
        exact .inr (.inr (.inl ⟨hdigit, rfl, rfl⟩))
      next =>
        obtain ⟨token, htoken, hnext⟩ := Option.map_eq_some_iff.1 h
        cases hnext
        exact .inr (.inr (.inr ⟨token, htoken, rfl, rfl⟩))

theorem isLayout_of_read {text : List Char} {tokens : List Token}
    (h : between.read text = some tokens) : IsLayout tokens text := by
  match text with
  | [] =>
    cases h
    exact .nil
  | c :: rest =>
    obtain ⟨emitted, next, others, hstep, hothers, rfl⟩ := exists_of_read_cons h
    rcases stepBetween_cases hstep with
      ⟨hspace, rfl, rfl⟩ | ⟨rfl, rfl, rfl⟩ | ⟨hdigit, rfl, rfl⟩ | ⟨token, htoken, rfl, rfl⟩
    · exact .space hspace (isLayout_of_read hothers)
    · obtain ⟨chars, pieces, behind, others, hpieces, rfl, hbehind, rfl⟩ :=
        exists_of_read_string hothers
      apply IsLayout.string _ (isLayout_of_read hbehind)
      rwa [List.nil_append, String.toList_ofList]
    · obtain ⟨digits, behind, others, hdigits, hzero, hend, rfl, hbehind, rfl⟩ :=
        exists_of_read_numeral hothers
      exact .number (isNumeral_cons hdigit hdigits hzero) hend (isLayout_of_read hbehind)
    · exact .symbol htoken (isLayout_of_read hothers)
termination_by text.length

end Mode

/-! ## The tokens of a document are those that were read -/

/-- The tokens of elements with a comma behind each. -/
def frontTokens (elements : List Json) : List Token :=
  elements.flatMap fun element ↦ element.tokens ++ [.comma]

/-- The tokens of members with a comma behind each. -/
def frontMemberTokens (members : List (String × Json)) : List Token :=
  members.flatMap fun (name, value) ↦ .string name :: .colon :: value.tokens ++ [.comma]

theorem frontTokens_concat (elements : List Json) (last : Json) :
    frontTokens (elements ++ [last]) = frontTokens elements ++ last.tokens ++ [.comma] := by
  simp [frontTokens]

theorem frontMemberTokens_concat (members : List (String × Json)) (name : String) (last : Json) :
    frontMemberTokens (members ++ [(name, last)]) =
      frontMemberTokens members ++ .string name :: .colon :: last.tokens ++ [.comma] := by
  simp [frontMemberTokens]

theorem tokens_append_elementTokens (first : Json) (others : List Json) (last : Json) :
    first.tokens ++ elementTokens (others ++ [last]) =
      frontTokens (first :: others) ++ last.tokens := by
  induction others generalizing first with
  | nil => simp [elementTokens, frontTokens]
  | cons next others ih => simp [elementTokens, ih, frontTokens]

theorem tokens_append_memberTokens (name : String) (first : Json) (others : List (String × Json))
    (lastName : String) (last : Json) :
    .string name :: .colon :: first.tokens ++ memberTokens (others ++ [(lastName, last)]) =
      frontMemberTokens ((name, first) :: others) ++ .string lastName :: .colon :: last.tokens := by
  induction others generalizing name first with
  | nil => simp [memberTokens, frontMemberTokens]
  | cons next others ih =>
    have hnext := ih next.1 next.2
    rw [List.cons_append, List.cons_append] at hnext
    simp [memberTokens, hnext, frontMemberTokens]

/-- A closed list is spelled by its front, its last element and the bracket. -/
theorem tokens_array_concat (before : List Json) (last : Json) :
    (array (before ++ [last])).tokens =
      .openArray :: frontTokens before ++ last.tokens ++ [.closeArray] := by
  cases before with
  | nil => simp [tokens, elementTokens, frontTokens]
  | cons first others =>
    rw [List.cons_append, List.cons_append, List.cons_append, ← tokens_append_elementTokens]
    rfl

/-- A closed object is spelled by its front, its last member and the brace. -/
theorem tokens_object_concat (before : List (String × Json)) (name : String) (last : Json) :
    (object (before ++ [(name, last)])).tokens =
      .openObject :: frontMemberTokens before ++ .string name :: .colon :: last.tokens ++
        [.closeObject] := by
  cases before with
  | nil => simp [tokens, memberTokens, frontMemberTokens]
  | cons first others =>
    rw [List.cons_append, List.cons_append, List.cons_append, ← tokens_append_memberTokens]
    rfl

/-- The tokens that were read of what is not closed yet. -/
def Frame.tokens : Frame → List Token
  | .array before => .openArray :: frontTokens before
  | .object before name => .openObject :: frontMemberTokens before ++ [.string name, .colon]

namespace Place

def stackTokens : List Frame → List Token
  | [] => []
  | frame :: stack => stackTokens stack ++ frame.tokens

/-- The tokens that were read on the way to the place. -/
def tokens : Place → List Token
  | beforeValue stack => stackTokens stack
  | behindBracket stack => stackTokens stack ++ [.openArray]
  | behindBrace stack => stackTokens stack ++ [.openObject]
  | beforeName before stack => stackTokens stack ++ .openObject :: frontMemberTokens before
  | behindName before name stack =>
    stackTokens stack ++ .openObject :: frontMemberTokens before ++ [.string name]
  | behindValue json stack => stackTokens stack ++ json.tokens

theorem tokens_of_enter {stack : List Frame} {token : Token} {next : Place}
    (h : enter stack token = some next) : next.tokens = stackTokens stack ++ [token] := by
  cases token <;> cases h <;> rfl

/-- A step adds the token that was read. -/
theorem tokens_of_step {place next : Place} {token : Token} (h : place.step token = some next) :
    next.tokens = place.tokens ++ [token] := by
  unfold step at h
  split at h
  case h_1 => exact tokens_of_enter h
  case h_3 => exact tokens_of_enter h
  -- A list or an object that is closed at once has no last value to split off.
  case h_2 | h_4 =>
    cases h
    rw [tokens, tokens, List.append_assoc]
    rfl
  case h_5 =>
    cases h
    rfl
  case h_12 => cases h
  all_goals
    cases h
    simp [tokens, stackTokens, Frame.tokens, frontTokens_concat, frontMemberTokens_concat,
      tokens_array_concat, tokens_object_concat]

theorem tokens_of_read {place next : Place} {tokens : List Token}
    (h : place.read tokens = some next) : next.tokens = place.tokens ++ tokens := by
  induction tokens generalizing place with
  | nil =>
    cases h
    exact (List.append_nil _).symm
  | cons token rest ih =>
    simp only [read, List.foldlM_cons, Option.bind_eq_bind, Option.bind_eq_some_iff] at h
    obtain ⟨place', hstep, hrest⟩ := h
    rw [ih hrest, tokens_of_step hstep, List.append_assoc, List.singleton_append]

theorem tokens_of_document? {place : Place} {json : Json} (h : place.document? = some json) :
    place.tokens = json.tokens := by
  unfold document? at h
  split at h <;> cases h
  rfl

end Place

/-- The reader gives a document for exactly the texts of that document. -/
theorem read?_eq_some_iff (text : String) (json : Json) :
    read? text = some json ↔ IsTextOf text json := by
  constructor
  · intro h
    simp only [read?, Option.bind_eq_bind, Option.bind_eq_some_iff] at h
    obtain ⟨tokens, htokens, place, hplace, hjson⟩ := h
    have hall : tokens = json.tokens :=
      calc
        tokens
        _ = (Place.beforeValue []).tokens ++ tokens := rfl
        _ = place.tokens := (Place.tokens_of_read hplace).symm
        _ = json.tokens := Place.tokens_of_document? hjson
    rw [IsTextOf, ← hall]
    exact Mode.isLayout_of_read htokens
  · exact read?_of_isTextOf

end TouchTarget.Json
