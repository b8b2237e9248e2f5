import TouchTarget.Css.Automaton

/-!
# Cutting style text into lexemes

Each lexeme is the longest text from where the last one ended that the automaton takes for a
token. No character is lost or added: the texts of the lexemes make up the text again.
-/

namespace TouchTarget.Css

/-- The longest token from a state on: the token, its text and the rest. -/
def State.munch (state : State) : List Char → Option (Token × List Char × List Char)
  | [] => state.finish?.map fun token ↦ (token, [], [])
  | c :: rest =>
    match (state.step c).bind fun next ↦ next.munch rest with
    | some (token, text, after) => some (token, c :: text, after)
    | none => state.accept?.map fun token ↦ (token, [], c :: rest)

/-- The first lexeme of a text and what follows it. -/
def Lexeme.next? (text : List Char) : Option (Lexeme × List Char) :=
  (State.start.munch text).map fun (token, taken, rest) ↦ (⟨token, taken⟩, rest)

/-- At most `count` lexemes of a text. -/
def Lexeme.upTo : Nat → List Char → List Lexeme
  | 0, _ => []
  | count + 1, text =>
    match Lexeme.next? text with
    | none => []
    | some (lexeme, rest) => lexeme :: upTo count rest

/-- The lexemes of a text, of which there are at most as many as characters. -/
def lexemes (text : List Char) : List Lexeme :=
  Lexeme.upTo text.length text

/-! ## No character is lost -/

theorem State.text_of_munch {state : State} {text taken rest : List Char} {token : Token}
    (h : state.munch text = some (token, taken, rest)) : taken ++ rest = text := by
  induction text generalizing state token taken with
  | nil =>
    obtain ⟨_, _, heq⟩ := Option.map_eq_some_iff.1 h
    simp_all
  | cons c text ih =>
    rw [State.munch] at h
    split at h
    next next taken' after hnext =>
      obtain ⟨middle, _, hmunch⟩ := Option.bind_eq_some_iff.1 hnext
      simp only [Option.some.injEq, Prod.mk.injEq] at h
      obtain ⟨-, rfl, rfl⟩ := h
      simp [ih hmunch]
    next =>
      obtain ⟨_, _, heq⟩ := Option.map_eq_some_iff.1 h
      simp_all

theorem State.munch_isSome {state : State} (haccept : state.accept?.isSome)
    (hfinish : state.finish?.isSome) (text : List Char) : (state.munch text).isSome := by
  cases text with
  | nil => simpa [State.munch] using hfinish
  | cons c rest =>
    rw [State.munch]
    split
    · rfl
    · simpa using haccept

theorem State.accept?_stepStart (c : Char) : (State.stepStart c).accept?.isSome := by
  unfold State.stepStart
  repeat' split
  all_goals rfl

theorem State.finish?_stepStart (c : Char) : (State.stepStart c).finish?.isSome := by
  unfold State.stepStart
  repeat' split
  all_goals rfl

namespace Lexeme

theorem text_of_next? {text rest : List Char} {lexeme : Lexeme}
    (h : next? text = some (lexeme, rest)) : lexeme.text ++ rest = text := by
  obtain ⟨⟨token, taken, after⟩, hmunch, heq⟩ := Option.map_eq_some_iff.1 h
  simp only [Prod.mk.injEq] at heq
  obtain ⟨rfl, rfl⟩ := heq
  exact State.text_of_munch hmunch

/-- A text that is not empty has a first lexeme, and that lexeme is not empty. -/
theorem next?_cons (c : Char) (text : List Char) :
    ∃ token taken rest, next? (c :: text) = some (⟨token, c :: taken⟩, rest) := by
  have hsome := State.munch_isSome (State.accept?_stepStart c) (State.finish?_stepStart c) text
  obtain ⟨⟨token, taken, rest⟩, hmunch⟩ := Option.isSome_iff_exists.1 hsome
  exact ⟨token, taken, rest, by simp [next?, State.munch, State.step, hmunch]⟩

@[simp] theorem next?_nil : next? [] = none := rfl

theorem length_of_next? {text rest : List Char} {lexeme : Lexeme}
    (h : next? text = some (lexeme, rest)) : rest.length < text.length := by
  cases text with
  | nil => simp at h
  | cons c text =>
    obtain ⟨token, taken, after, hnext⟩ := next?_cons c text
    rw [hnext] at h
    obtain ⟨rfl, rfl⟩ := Prod.mk.injEq .. ▸ Option.some.inj h
    have hlength := congrArg List.length (text_of_next? hnext)
    simp only [List.length_append, List.length_cons] at hlength ⊢
    omega

theorem joined_upTo {count : Nat} {text : List Char} (h : text.length ≤ count) :
    joined (upTo count text) = text := by
  induction count generalizing text with
  | zero =>
    have hnil : text = [] := List.length_eq_zero_iff.1 (Nat.le_zero.1 h)
    simp [upTo, hnil]
  | succ count ih =>
    cases text with
    | nil => rfl
    | cons c text =>
      obtain ⟨token, taken, rest, hnext⟩ := next?_cons c text
      have hlength := length_of_next? hnext
      have hjoined : joined (upTo count rest) = rest := ih (by simp at h hlength; omega)
      simpa [upTo, hnext, hjoined] using text_of_next? hnext

/-- A bound on the number of lexemes does not matter if it is not less than the length. -/
theorem upTo_congr {count other : Nat} {text : List Char} (h : text.length ≤ count)
    (hother : text.length ≤ other) : upTo count text = upTo other text := by
  induction count generalizing other text with
  | zero =>
    have hnil : text = [] := List.length_eq_zero_iff.1 (Nat.le_zero.1 h)
    cases other <;> simp [upTo, hnil]
  | succ count ih =>
    cases text with
    | nil => cases other <;> simp [upTo]
    | cons c text =>
      obtain ⟨token, taken, rest, hnext⟩ := next?_cons c text
      have hlength := length_of_next? hnext
      simp only [List.length_cons] at h hother hlength
      cases other with
      | zero => omega
      | succ other =>
        have hrest : upTo count rest = upTo other rest := ih (by omega) (by omega)
        simp only [upTo, hnext, hrest]

end Lexeme

/-- The texts of the lexemes make up the text. -/
@[simp] theorem joined_lexemes (text : List Char) : Lexeme.joined (lexemes text) = text :=
  Lexeme.joined_upTo (Nat.le_refl _)

@[simp] theorem lexemes_nil : lexemes [] = [] := rfl

/-- The first lexeme is followed by those of the rest. -/
theorem lexemes_of_next? {text rest : List Char} {lexeme : Lexeme}
    (h : Lexeme.next? text = some (lexeme, rest)) : lexemes text = lexeme :: lexemes rest := by
  have hlength := Lexeme.length_of_next? h
  obtain ⟨count, hcount⟩ : ∃ count, text.length = count + 1 := ⟨text.length - 1, by omega⟩
  rw [lexemes, hcount, Lexeme.upTo, h]
  exact congrArg _ (Lexeme.upTo_congr (by omega) (Nat.le_refl _))

end TouchTarget.Css
