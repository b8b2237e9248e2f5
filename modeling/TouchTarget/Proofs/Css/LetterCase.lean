import TouchTarget.Css.Length
import TouchTarget.Proofs.Css.FirstLength
import TouchTarget.Proofs.Css.Spelling

/-!
# Letter case in style text

The case of ASCII letters makes no difference to a length, although the automaton looks at letters
itself: at those that begin an exponent, at the hexadecimal digits of an escape and at the name of an
address. Two texts that differ in letter case only lead it through states that differ in letter case
only, so that they are cut into lexemes at the same places. The letters of an escape may be letters of
a name: states are therefore compared in lower case, and not only the texts that lead to them.
-/

namespace TouchTarget

namespace Text

/-! ## Letters -/

def upperLetters : List Char :=
  "ABCDEFGHIJKLMNOPQRSTUVWXYZ".toList

theorem toLower_eq_self_or_mem (c : Char) : c.toLower = c ∨ c ∈ upperLetters := by
  by_cases h : 65 ≤ c.toNat ∧ c.toNat ≤ 90
  · have hall : ∀ n < 91, 65 ≤ n → Char.ofNat n ∈ upperLetters := by decide
    have hc := hall c.toNat (Nat.lt_succ_of_le h.2) h.1
    rw [Char.ofNat_toNat] at hc
    exact .inr hc
  · exact .inl (dif_neg h)

/-- What holds of each upper-case letter, by trying them all. -/
theorem of_mem_upperLetters {p : Char → Bool} (h : upperLetters.all p) {c : Char}
    (hmem : c ∈ upperLetters) : p c :=
  List.all_eq_true.1 h c hmem

/-- What does not tell the upper-case letters from the lower-case ones takes no notice of the case. -/
theorem apply_toLower {α : Type} [DecidableEq α] {f : Char → α}
    (h : upperLetters.all fun c ↦ f c.toLower = f c) (c : Char) : f c.toLower = f c := by
  rcases toLower_eq_self_or_mem c with hself | hmem
  · rw [hself]
  · exact of_decide_eq_true (of_mem_upperLetters h hmem)

@[simp] theorem toLower_toLower (c : Char) : c.toLower.toLower = c.toLower :=
  apply_toLower (f := Char.toLower) (by decide) c

theorem toLower_eq_iff {x : Char} (hx : x.isAlpha = false) (c : Char) : c.toLower = x ↔ c = x := by
  rcases toLower_eq_self_or_mem c with hself | hmem
  · rw [hself]
  · have halpha : c.isAlpha := of_mem_upperLetters (p := Char.isAlpha) (by decide) hmem
    have hlower : c.toLower.isAlpha :=
      of_mem_upperLetters (p := fun c ↦ c.toLower.isAlpha) (by decide) hmem
    constructor
    · rintro rfl
      rw [hlower] at hx
      cases hx
    · rintro rfl
      rw [halpha] at hx
      cases hx

@[simp] theorem isBlank_toLower (c : Char) : isBlank c.toLower = isBlank c :=
  apply_toLower (by decide) c

/-- Words are those of the text in lower case, in lower case. -/
theorem words_map_toLower (text : List Char) :
    words (text.map Char.toLower) = (words text).map (List.map Char.toLower) := by
  induction text with
  | nil => rfl
  | cons c rest ih =>
    have hhead : (rest.map Char.toLower).head?.all isBlank = rest.head?.all isBlank := by
      cases rest <;> simp
    rw [List.map_cons, words, words, ih, isBlank_toLower, hhead]
    split
    · rfl
    · split
      · rfl
      · cases words rest <;> rfl

theorem takeWhile_ne_map_toLower {x : Char} (hx : x.isAlpha = false) (text : List Char) :
    (text.map Char.toLower).takeWhile (· != x) = (text.takeWhile (· != x)).map Char.toLower := by
  induction text with
  | nil => rfl
  | cons c rest ih =>
    have hc : (c.toLower != x) = (c != x) := by
      rw [Bool.eq_iff_iff, bne_iff_ne, bne_iff_ne, ne_eq, toLower_eq_iff hx]
    rw [List.map_cons, List.takeWhile_cons, List.takeWhile_cons, hc, ih]
    split <;> rfl

end Text

namespace Css

open Text

/-! ## Classes of characters -/

@[simp] theorem isSpace_toLower (c : Char) : isSpace c.toLower = isSpace c :=
  apply_toLower (by decide) c

@[simp] theorem isNewline_toLower (c : Char) : isNewline c.toLower = isNewline c :=
  apply_toLower (by decide) c

@[simp] theorem isNameStart_toLower (c : Char) : isNameStart c.toLower = isNameStart c :=
  apply_toLower (by decide) c

@[simp] theorem isNameChar_toLower (c : Char) : isNameChar c.toLower = isNameChar c :=
  apply_toLower (by decide) c

@[simp] theorem isDigit_toLower (c : Char) : c.toLower.isDigit = c.isDigit :=
  apply_toLower (f := Char.isDigit) (by decide) c

@[simp] theorem hexDigit?_toLower (c : Char) : hexDigit? c.toLower = hexDigit? c :=
  apply_toLower (by decide) c

theorem toLower_of_isDigit {c : Char} (h : c.isDigit) : c.toLower = c := by
  rcases toLower_eq_self_or_mem c with hself | hmem
  · exact hself
  · have hletter : !c.isDigit := of_mem_upperLetters (p := fun c ↦ !c.isDigit) (by decide) hmem
    rw [h] at hletter
    cases hletter

@[simp] theorem isExponentMark_toLower (c : Char) :
    State.isExponentMark c.toLower = State.isExponentMark c :=
  apply_toLower (by decide) c

@[simp] theorem isBadInUrl_toLower (c : Char) : State.isBadInUrl c.toLower = State.isBadInUrl c :=
  apply_toLower (by decide) c

@[simp] theorem cleaned_toLower (c : Char) : cleaned c.toLower = (cleaned c).toLower := by
  have hnull : c.toLower = '\x00' ↔ c = '\x00' := toLower_eq_iff rfl c
  have hval (d : Char) : d.val = 0 ↔ d = '\x00' := ⟨fun h ↦ Char.ext h, fun h ↦ h ▸ rfl⟩
  simp only [cleaned, hval, hnull]
  split <;> rfl

@[simp] theorem toLower_comp_toLower : Char.toLower ∘ Char.toLower = Char.toLower :=
  funext toLower_toLower

/-! ## The automaton in lower case -/

namespace Token

/-- The token with its name in lower case. -/
def lowered : Token → Token
  | ident name => ident (name.map Char.toLower)
  | function name => function (name.map Char.toLower)
  | atKeyword name => atKeyword (name.map Char.toLower)
  | hash name => hash (name.map Char.toLower)
  | dimension value unit => dimension value (unit.map Char.toLower)
  | token => token

@[simp] theorem lowered_lowered (token : Token) : token.lowered.lowered = token.lowered := by
  cases token <;> simp [lowered]

end Token

namespace State

/-- The state with the letters that have been read in lower case. -/
def lowered : State → State
  | done token => done token.lowered
  | name role letters escape => name role (letters.map Char.toLower) escape
  | mark value letter => mark value letter.toLower
  | markMinus value letter => markMinus value letter.toLower
  | urlStart letters => urlStart (letters.map Char.toLower)
  | state => state

@[simp] theorem isUrlName_map_toLower (letters : List Char) :
    isUrlName (letters.map Char.toLower) = isUrlName letters := by
  simp [isUrlName, sameLetters]

theorem lowered_stepName (role : NameRole) (letters : List Char) (c : Char) :
    (stepName role (letters.map Char.toLower) c.toLower).map lowered =
      (stepName role letters c).map lowered := by
  simp (disch := decide) only [stepName, toLower_eq_iff, isNameChar_toLower, ← List.map_reverse,
    isUrlName_map_toLower]
  repeat' split
  all_goals simp [lowered, Token.lowered]

/-- The letter case of a character makes no difference to an escape, unless the escape stands for that
character. -/
theorem next_toLower (escape : Escape) (c : Char) :
    escape.next c.toLower = escape.next c ∨
      ∃ value, escape.next c = .endsAt value ∧ escape.next c.toLower = .endsAt value.toLower := by
  fun_cases escape.next c <;> simp (disch := decide) [Escape.next, toLower_eq_iff, *]

theorem lowered_stepNameEscape (role : NameRole) (letters : List Char) (escape : Escape) (c : Char) :
    (stepNameEscape role (letters.map Char.toLower) escape c.toLower).map lowered =
      (stepNameEscape role letters escape c).map lowered := by
  rw [stepNameEscape, stepNameEscape, isNewline_toLower]
  split
  · rfl
  · rcases next_toLower escape c with hsame | ⟨value, hvalue, hlower⟩
    · rw [hsame]
      cases escape.next c with
      | goesOn escape => simp [lowered]
      | endsAt value => simp [lowered]
      | endedBefore value =>
        have hletters := lowered_stepName role (value :: letters.map Char.toLower) c.toLower
        rw [List.map_cons, List.map_map, toLower_comp_toLower, toLower_toLower] at hletters
        exact hletters.symm.trans (lowered_stepName role (value :: letters) c)
    · rw [hvalue, hlower]
      simp [lowered]

theorem lowered_stepNameStart (role : NameRole) (letters : List Char) (c : Char) :
    (stepNameStart role (letters.map Char.toLower) c.toLower).map lowered =
      (stepNameStart role letters c).map lowered := by
  simp (disch := decide) only [stepNameStart, toLower_eq_iff, isNameStart_toLower]
  split
  · simp [lowered]
  · split
    · simp [lowered]
    · rfl

theorem stepString_toLower {quote : Char} (hquote : quote.isAlpha = false) (c : Char) :
    stepString quote c.toLower = stepString quote c := by
  simp (disch := first | decide | assumption) only [stepString, toLower_eq_iff, isNewline_toLower]

theorem stepStringEscape_toLower {quote : Char} (hquote : quote.isAlpha = false) (escape : Escape)
    (c : Char) : stepStringEscape quote escape c.toLower = stepStringEscape quote escape c := by
  simp (disch := decide) only [stepStringEscape, toLower_eq_iff, isNewline_toLower,
    stepString_toLower hquote]
  rcases next_toLower escape c with hsame | ⟨value, hvalue, hlower⟩
  · rw [hsame]
  · rw [hvalue, hlower]

theorem stepUrl_toLower (c : Char) : stepUrl c.toLower = stepUrl c := by
  simp (disch := decide) only [stepUrl, toLower_eq_iff, isSpace_toLower, isBadInUrl_toLower]

theorem stepUrlEscape_toLower (escape : Escape) (c : Char) :
    stepUrlEscape escape c.toLower = stepUrlEscape escape c := by
  rw [stepUrlEscape, stepUrlEscape, isNewline_toLower, stepUrl_toLower]
  rcases next_toLower escape c with hsame | ⟨value, hvalue, hlower⟩
  · rw [hsame]
  · rw [hvalue, hlower]

theorem stepUrlMargin_toLower (c : Char) : stepUrlMargin c.toLower = stepUrlMargin c := by
  simp (disch := decide) only [stepUrlMargin, toLower_eq_iff, isSpace_toLower, stepUrl_toLower]

theorem lowered_stepNumberEnd (value : Numeral) (c : Char) :
    (stepNumberEnd value c.toLower).map lowered = (stepNumberEnd value c).map lowered := by
  simp (disch := decide) only [stepNumberEnd, toLower_eq_iff]
  split
  · rfl
  · split
    · rfl
    · exact lowered_stepNameStart (.unit value) [] c

theorem lowered_stepStart (c : Char) : (stepStart c.toLower).lowered = (stepStart c).lowered :=
  apply_toLower (f := fun c ↦ (stepStart c).lowered) (by decide) c

/-- A digit has no letter case. -/
theorem lowered_digit_or {c : Char} (next : Char → State) {others otherwise : Option State}
    (h : others.map lowered = otherwise.map lowered) :
    (if c.toLower.isDigit then some (next c.toLower) else others).map lowered =
      (if c.isDigit then some (next c) else otherwise).map lowered := by
  rw [isDigit_toLower]
  split
  next hdigit => rw [toLower_of_isDigit hdigit]
  next => exact h

/-- The letter case of what has been read and of what comes next makes no difference to the next
state but for its letters. -/
theorem lowered_step {state : State} (h : state.isMisquoted = false) (c : Char) :
    (state.lowered.step c.toLower).map lowered = (state.step c).map lowered := by
  cases state with
  | start => exact congrArg some (lowered_stepStart c)
  | quoted quote escape? =>
    have hquote : quote.isAlpha = false := by
      rw [isMisquoted, Bool.and_eq_false_iff, bne_eq_false_iff_eq, bne_eq_false_iff_eq] at h
      rcases h with rfl | rfl <;> rfl
    cases escape? with
    | none => exact congrArg _ (stepString_toLower hquote c)
    | some escape => exact congrArg _ (stepStringEscape_toLower hquote escape c)
  | name role letters escape? =>
    cases escape? with
    | none => exact lowered_stepName role letters c
    | some escape => exact lowered_stepNameEscape role letters escape c
  | backslash => exact lowered_stepNameEscape .ident [] .opened c
  | url escape? =>
    cases escape? with
    | none => exact congrArg (some ·.lowered) (stepUrl_toLower c)
    | some escape => exact congrArg (some ·.lowered) (stepUrlEscape_toLower escape c)
  | urlStart | urlMargin => exact congrArg _ (stepUrlMargin_toLower c)
  | done | blank | slash | comment | commentStar | lessThan | markup | markupHyphen | operator
  | urlTail | badUrl | badUrlEscape =>
    simp (disch := decide) only [step, lowered, toLower_eq_iff, isSpace_toLower]
  | hyphens | atSign | atHyphen | unitHyphen =>
    simp (disch := decide) only [step, lowered, toLower_eq_iff]
    split
    · rfl
    · first
      | exact lowered_stepName _ ['-', '-'] c
      | exact lowered_stepNameStart _ [] c
      | exact lowered_stepNameStart _ ['-'] c
  | number value =>
    apply lowered_digit_or (fun c ↦ number (withDigit value c))
    simp (disch := decide) only [toLower_eq_iff, isExponentMark_toLower]
    repeat' split
    all_goals first | exact lowered_stepNumberEnd value c | simp [lowered]
  | fraction value =>
    apply lowered_digit_or (fun c ↦ fraction (withFractionDigit value c))
    simp (disch := decide) only [isExponentMark_toLower]
    split
    · simp [lowered]
    · exact lowered_stepNumberEnd value c
  | exponent value =>
    exact lowered_digit_or (fun c ↦ exponent (withExponentDigit value c))
      (lowered_stepNumberEnd value c)
  | mark value letter =>
    apply lowered_digit_or (fun c ↦ exponent (withExponentDigit value c))
    simp (disch := decide) only [toLower_eq_iff]
    repeat' split
    all_goals first | exact lowered_stepName (.unit value) [letter] c | simp [lowered]
  | markMinus value letter =>
    exact lowered_digit_or
      (fun c ↦ exponent (withExponentDigit { value with exponentNegative := true } c))
      (lowered_stepName (.unit value) ['-', letter] c)
  | minus =>
    apply lowered_digit_or (fun c ↦ number (withDigit { negative := true } c))
    simp (disch := decide) only [toLower_eq_iff]
    repeat' split
    all_goals first | exact lowered_stepNameStart .ident ['-'] c | rfl
  | plus =>
    apply lowered_digit_or (fun c ↦ number (withDigit default c))
    simp (disch := decide) only [toLower_eq_iff]
  | point value => exact lowered_digit_or (fun c ↦ fraction (withFractionDigit value c)) rfl
  | markPlus value => exact lowered_digit_or (fun c ↦ exponent (withExponentDigit value c)) rfl
  | dot => exact lowered_digit_or (fun c ↦ fraction (withFractionDigit default c)) rfl
  | hashSign =>
    simp (disch := decide) only [step, lowered, isDigit_toLower, toLower_eq_iff]
    split
    · simp [lowered]
    · exact lowered_stepNameStart .hash [] c

theorem lowered_token (role : NameRole) (letters : List Char) :
    (role.token (letters.map Char.toLower)).lowered = (role.token letters).lowered := by
  cases role <;> simp [NameRole.token, Token.lowered]

theorem lowered_token_cons (role : NameRole) (letter : Char) (letters : List Char) :
    (role.token (letter :: letters.map Char.toLower)).lowered =
      (role.token (letter :: letters)).lowered := by
  rw [← lowered_token role (letter :: letters), ← lowered_token]
  simp

theorem lowered_accept? (state : State) :
    state.lowered.accept?.map Token.lowered = state.accept?.map Token.lowered := by
  cases state with
  | done token => exact congrArg some token.lowered_lowered
  | name role letters escape? =>
    cases escape? with
    | none => exact congrArg some (lowered_token role letters)
    | some escape =>
      cases escape with
      | opened => rfl
      | hex | afterReturn => exact congrArg some (lowered_token_cons role _ letters)
  | mark | markMinus | urlStart => simp [lowered, accept?, Token.lowered]
  | _ => rfl

theorem lowered_finish? (state : State) :
    state.lowered.finish?.map Token.lowered = state.finish?.map Token.lowered := by
  have haccept := lowered_accept? state
  cases state with
  | name role letters escape? =>
    cases escape? with
    | none => exact haccept
    | some escape => exact congrArg some (lowered_token_cons role escape.value letters)
  | comment | commentStar | quoted | backslash | urlStart | urlMargin | url | urlTail | badUrl
  | badUrlEscape => rfl
  | _ => exact haccept

/-! ## Two runs of the automaton -/

variable {state other : State}

theorem isMisquoted_of_step {state next : State} {c : Char} (h : state.isMisquoted = false)
    (hstep : state.step c = some next) : next.isMisquoted = false := by
  by_cases hstart : state = start
  · subst hstart
    obtain rfl := Option.some.inj hstep
    exact isMisquoted_stepStart c
  · have hall := isMisquoted_step c hstart h
    rwa [hstep, Option.all_some, Bool.not_eq_true'] at hall

/-- What is read of a text, in lower case. -/
def loweredMunch (found : Token × List Char × List Char) : Token × List Char × List Char :=
  (found.1.lowered, found.2.1.map Char.toLower, found.2.2.map Char.toLower)

/-- Two texts that differ in letter case only are read in the same way. -/
theorem loweredMunch_congr (hstate : state.isMisquoted = false) (hother : other.isMisquoted = false)
    (h : state.lowered = other.lowered) {text spelling : List Char}
    (htext : text.map Char.toLower = spelling.map Char.toLower) :
    (state.munch text).map loweredMunch = (other.munch spelling).map loweredMunch := by
  induction text generalizing state other spelling with
  | nil =>
    obtain rfl : spelling = [] := List.map_eq_nil_iff.1 htext.symm
    have hfinish : state.finish?.map Token.lowered = other.finish?.map Token.lowered := by
      rw [← lowered_finish? state, h, lowered_finish? other]
    have hboth := congrArg (Option.map fun token ↦ (token, ([] : List Char), ([] : List Char))) hfinish
    simpa [munch, loweredMunch, Function.comp_def] using hboth
  | cons c text ih =>
    obtain ⟨d, spelling, rfl⟩ : ∃ d rest, spelling = d :: rest := by
      cases spelling with
      | nil => cases htext
      | cons d rest => exact ⟨d, rest, rfl⟩
    obtain ⟨hc, htext⟩ := List.cons.inj htext
    have hstep : (state.step c).map lowered = (other.step d).map lowered := by
      rw [← lowered_step hstate c, ← lowered_step hother d, h, hc]
    have haccept : state.accept?.map Token.lowered = other.accept?.map Token.lowered := by
      rw [← lowered_accept? state, h, lowered_accept? other]
    have hrest : ((state.step c).bind fun next ↦ next.munch text).map loweredMunch =
        ((other.step d).bind fun next ↦ next.munch spelling).map loweredMunch := by
      cases hnext : state.step c with
      | none =>
        rw [hnext, Option.map_none, eq_comm, Option.map_eq_none_iff] at hstep
        rw [hstep]
        rfl
      | some next =>
        rw [hnext, Option.map_some, eq_comm, Option.map_eq_some_iff] at hstep
        obtain ⟨otherNext, hotherNext, hlowered⟩ := hstep
        rw [hotherNext]
        exact ih (isMisquoted_of_step hstate hnext) (isMisquoted_of_step hother hotherNext)
          hlowered.symm htext
    rw [munch, munch]
    cases hfound : (state.step c).bind fun next ↦ next.munch text with
    | none =>
      rw [hfound, Option.map_none, eq_comm, Option.map_eq_none_iff] at hrest
      rw [hrest]
      have hboth := congrArg (Option.map fun token ↦
        (token, ([] : List Char), (d :: spelling).map Char.toLower)) haccept
      simpa [loweredMunch, Function.comp_def, hc, htext] using hboth
    | some found =>
      rw [hfound, Option.map_some, eq_comm, Option.map_eq_some_iff] at hrest
      obtain ⟨otherFound, hotherFound, hlowered⟩ := hrest
      rw [hotherFound]
      simp only [loweredMunch, Prod.mk.injEq] at hlowered
      simp [loweredMunch, hc, hlowered]

/-- The token is known from its text and from whether anything follows. -/
theorem run_of_munch_of_rest {state : State} {text taken rest : List Char} {token : Token}
    (h : state.munch text = some (token, taken, rest)) :
    ((state.run taken).bind fun last ↦ if rest = [] then last.finish? else last.accept?) =
      some token := by
  induction text generalizing state token taken with
  | nil =>
    obtain ⟨found, hfinish, heq⟩ := Option.map_eq_some_iff.1 h
    obtain ⟨rfl, rfl, rfl⟩ := Prod.mk.injEq .. ▸ heq
    exact hfinish
  | cons c text ih =>
    rw [munch] at h
    split at h
    next found taken' after hfound =>
      simp only [Option.some.injEq, Prod.mk.injEq] at h
      obtain ⟨rfl, rfl, rfl⟩ := h
      obtain ⟨next, hstep, hmunch⟩ := Option.bind_eq_some_iff.1 hfound
      rw [run, hstep, Option.bind_some]
      exact ih hmunch
    next =>
      obtain ⟨found, haccept, heq⟩ := Option.map_eq_some_iff.1 h
      obtain ⟨rfl, rfl, rfl⟩ := Prod.mk.injEq .. ▸ heq
      exact haccept

end State

/-! ## Lexemes -/

namespace Lexeme

/-- The lexeme in lower case. -/
def lowered (lexeme : Lexeme) : Lexeme :=
  ⟨lexeme.token.lowered, lexeme.text.map Char.toLower⟩

/-- A lexeme that differs in letter case only, and that is the same if its text is. -/
structure IsRecased (lexeme other : Lexeme) : Prop where
  lowered_eq : lexeme.lowered = other.lowered
  eq_of_text_eq (h : lexeme.text = other.text) : lexeme = other

/-- The first lexemes of two texts that differ in letter case only. -/
theorem isRecased_of_next? {text spelling : List Char}
    (h : text.map Char.toLower = spelling.map Char.toLower) {lexeme other : Lexeme}
    {rest otherRest : List Char} (hnext : next? text = some (lexeme, rest))
    (hother : next? spelling = some (other, otherRest)) :
    lexeme.IsRecased other ∧ rest.map Char.toLower = otherRest.map Char.toLower := by
  obtain ⟨⟨token, taken, after⟩, hmunch, heq⟩ := Option.map_eq_some_iff.1 hnext
  obtain ⟨rfl, rfl⟩ := Prod.mk.injEq .. ▸ heq
  obtain ⟨⟨otherToken, otherTaken, otherAfter⟩, hotherMunch, hotherEq⟩ :=
    Option.map_eq_some_iff.1 hother
  obtain ⟨rfl, rfl⟩ := Prod.mk.injEq .. ▸ hotherEq
  have hcongr : (State.start.munch text).map State.loweredMunch =
      (State.start.munch spelling).map State.loweredMunch := State.loweredMunch_congr rfl rfl rfl h
  rw [hmunch, hotherMunch] at hcongr
  simp only [Option.map_some, Option.some.injEq, State.loweredMunch, Prod.mk.injEq] at hcongr
  obtain ⟨htoken, htaken, hrest⟩ := hcongr
  refine ⟨⟨?_, ?_⟩, hrest⟩
  · rw [lowered, lowered, htoken, htaken]
  · rintro rfl
    have hend : after = [] ↔ otherAfter = [] := by
      rw [← List.map_eq_nil_iff (f := Char.toLower), hrest, List.map_eq_nil_iff]
    have hleft := State.run_of_munch_of_rest hmunch
    have hright := State.run_of_munch_of_rest hotherMunch
    simp only [hend] at hleft
    rw [Option.some.inj (hleft.symm.trans hright)]

end Lexeme

/-- Two texts that differ in letter case only have the same lexemes but for letter case. -/
theorem forall₂_lexemes {text spelling : List Char} 
    (h : text.map Char.toLower = spelling.map Char.toLower) :
    List.Forall₂ Lexeme.IsRecased (lexemes text) (lexemes spelling) := by
  obtain ⟨count, hcount⟩ : ∃ count, text.length = count := ⟨_, rfl⟩
  induction count using Nat.strongRecOn generalizing text spelling with
  | ind count ih =>
    cases text with
    | nil =>
      obtain rfl : spelling = [] := List.map_eq_nil_iff.1 h.symm
      exact .nil
    | cons c text =>
      obtain ⟨d, spelling, rfl⟩ : ∃ d rest, spelling = d :: rest := by
        cases spelling with
        | nil => cases h
        | cons d rest => exact ⟨d, rest, rfl⟩
      obtain ⟨token, taken, rest, hnext⟩ := Lexeme.next?_cons c text
      obtain ⟨otherToken, otherTaken, otherRest, hother⟩ := Lexeme.next?_cons d spelling
      obtain ⟨hlexeme, hrest⟩ := Lexeme.isRecased_of_next? h hnext hother
      rw [lexemes_of_next? hnext, lexemes_of_next? hother]
      have hlength := Lexeme.length_of_next? hnext
      exact .cons hlexeme (ih _ (by omega) hrest rfl)

/-! ## Lengths -/

namespace Token

variable (token : Token)

@[simp] theorem opens?_lowered : token.lowered.opens? = token.opens? := by
  cases token <;> rfl

@[simp] theorem pixels?_lowered : token.lowered.pixels? = token.pixels? := by
  cases token <;> simp [lowered, pixels?, sameLetters]

theorem nest_lowered (opened : List Bracket) : token.lowered.nest opened = token.nest opened := by
  cases token <;> rfl

end Token

theorem firstLength_congr {left right : List Lexeme} (h : List.Forall₂ Lexeme.IsRecased left right)
    (opened : List Bracket) : firstLength opened left = firstLength opened right := by
  induction h generalizing opened with
  | nil => rfl
  | @cons lexeme other _ _ hlexeme _ ih =>
    have htoken : lexeme.token.lowered = other.token.lowered :=
      congrArg Lexeme.token hlexeme.lowered_eq
    have hpixels : lexeme.token.pixels? = other.token.pixels? := by
      rw [← Token.pixels?_lowered, htoken, Token.pixels?_lowered]
    have hnest : lexeme.token.nest opened = other.token.nest opened := by
      rw [← Token.nest_lowered, htoken, Token.nest_lowered]
    rw [firstLength_cons, firstLength_cons, hpixels, hnest, ih]

theorem lengthOf?_congr {text spelling : List Char}
    (h : text.map Char.toLower = spelling.map Char.toLower) : lengthOf? text = lengthOf? spelling := by
  rw [lengthOf?, lengthOf?, components, components, Component.lengthIn?_ofLexemes,
    Component.lengthIn?_ofLexemes]
  exact firstLength_congr (forall₂_lexemes h) []

/-- The letter case of a value makes no difference to its length. -/
theorem length?_congr {raw other : String} (h : sameLetters raw.toList other.toList) :
    length? raw = length? other :=
  lengthOf?_congr (sameLetters_iff.1 h)

/-- The letter case of a value of the shorthand makes no difference to its sides. -/
theorem padding_congr {raw other : String} (h : sameLetters raw.toList other.toList) :
    padding raw = padding other := by
  have hvalue : (raw.toList.takeWhile (· != '!')).map Char.toLower =
      (other.toList.takeWhile (· != '!')).map Char.toLower := by
    rw [← takeWhile_ne_map_toLower rfl, sameLetters_iff.1 h, takeWhile_ne_map_toLower rfl]
  have hwords : (words (raw.toList.takeWhile (· != '!'))).map (List.map Char.toLower) =
      (words (other.toList.takeWhile (· != '!'))).map (List.map Char.toLower) := by
    rw [← words_map_toLower, hvalue, words_map_toLower]
  have hlength (word : List Char) : wordLength (word.map Char.toLower) = wordLength word := by
    have hlower : (word.map Char.toLower).map Char.toLower = word.map Char.toLower := by simp
    rw [wordLength, wordLength, lengthOf?_congr hlower]
  have hlengths := congrArg (List.map wordLength) hwords
  rw [List.map_map, List.map_map] at hlengths
  rw [padding, padding]
  have hcomp : wordLength ∘ List.map Char.toLower = wordLength := funext hlength
  rw [← hcomp, hlengths]

end Css

end TouchTarget
