import TouchTarget.Css.Lexeme

/-!
# Where style text can be cut

The longest lexeme at a place depends on the text behind it, so that the lexemes of two texts put
together are in general not those of the first and then those of the second. They are at a
delimiter, which no token can take in unless it is a string, a comment, an address or an escape
that is still open: in front of one if nothing is open there, and behind one that is a token. What
is said of the place in front holds of any character that extends no token, such as a slash.
-/

namespace TouchTarget.Css

/-! ## Delimiters -/

/-- The characters that end a declaration and begin or end a block. -/
def isDelimiter (c : Char) : Bool :=
  c == ';' || c == '\x7b' || c == '\x7d'

theorem isDelimiter_iff {c : Char} :
    isDelimiter c = true ↔ c = ';' ∨ c = '\x7b' ∨ c = '\x7d' := by
  simp [isDelimiter, or_assoc]

/-- A delimiter has no part in a name, a number or a blank. -/
theorem isDelimiter_class {c : Char} (h : isDelimiter c) :
    isSpace c = false ∧ c.isDigit = false ∧ isNameStart c = false ∧ isNameChar c = false ∧
      hexDigit? c = none ∧ State.isExponentMark c = false := by
  rcases isDelimiter_iff.1 h with rfl | rfl | rfl <;> decide

/-- A character that is no blank and no digit ends an escape, except right behind the backslash. -/
theorem Escape.next_of_ne_opened {escape : Escape} {c : Char} (hspace : isSpace c = false)
    (hhex : hexDigit? c = none) (h : escape ≠ .opened) :
    ∃ value, escape.next c = .endedBefore value := by
  have hreturn : c ≠ '\r' ∧ c ≠ '\n' := by
    constructor <;>
    · rintro rfl
      cases hspace
  cases escape with
  | opened => exact absurd rfl h
  | hex count code => exact ⟨charOfCode code, by simp [next, hhex, hreturn, hspace]⟩
  | afterReturn value => exact ⟨value, by simp [next, hreturn]⟩

namespace State

/-- The end of the text would close something: a string, a comment, an address or an escape. -/
def isOpen : State → Bool
  | comment | commentStar | quoted .. | name _ _ (some .opened) | backslash | urlStart _
  | urlMargin | url _ | urlTail | badUrl | badUrlEscape => true
  | _ => false

theorem finish?_isSome {state : State} (h : state.isOpen) : state.finish?.isSome := by
  fun_cases isOpen state <;> grind [isOpen, finish?]

/-- Where nothing is open, the end of the text makes no difference. -/
theorem accept?_eq_finish? {state : State} (h : state.isOpen = false) :
    state.accept? = state.finish? := by
  fun_cases finish? state <;> grind [isOpen, accept?]

/-- The character extends no token in which nothing is open. -/
def ExtendsNone (c : Char) : Prop :=
  ∀ ⦃state : State⦄, state ≠ start → state.isOpen = false → state.step c = none

theorem stepNameEscape_eq_none {escape : Escape} {c : Char} (hspace : isSpace c = false)
    (hhex : hexDigit? c = none) (hstep : ∀ role letters, stepName role letters c = none)
    (h : escape ≠ .opened) (role : NameRole) (letters : List Char) :
    stepNameEscape role letters escape c = none := by
  obtain ⟨value, hvalue⟩ := Escape.next_of_ne_opened hspace hhex h
  simp only [stepNameEscape, h, hvalue, hstep, false_and, if_false]

/-- A character extends no token if it is no blank, belongs to no name and no number, and has no
meaning of its own behind another character. -/
theorem extendsNone_of_class {c : Char} (hspace : isSpace c = false) (hname : isNameChar c = false)
    (hhex : hexDigit? c = none) (hexponent : isExponentMark c = false)
    (hmark : c ∉ ['\\', '(', '*', '.', '%', '+', '>', '!', '=']) : ExtendsNone c := by
  have hchars : isNameStart c = false ∧ c.isDigit = false ∧ c ≠ '-' := by
    simpa [isNameChar, and_assoc] using hname
  obtain ⟨hnameStart, hdigit, hhyphen⟩ := hchars
  simp only [List.mem_cons, not_or] at hmark
  have hstepName (role : NameRole) (letters : List Char) : stepName role letters c = none := by
    simp [stepName, hname, hmark]
  intro state hstart hopen
  by_cases hescape : ∃ role letters escape, state = name role letters (some escape)
  · obtain ⟨role, letters, escape, rfl⟩ := hescape
    apply stepNameEscape_eq_none hspace hhex hstepName
    rintro rfl
    cases hopen
  · fun_cases state.step c <;>
      grind [isOpen, stepNameStart, stepString, stepUrlMargin, stepNumberEnd]

/-- A delimiter extends no token in which nothing is open. -/
theorem step_delimiter {c : Char} (hc : isDelimiter c) : ExtendsNone c := by
  rcases isDelimiter_iff.1 hc with rfl | rfl | rfl <;>
    exact extendsNone_of_class rfl rfl rfl rfl (by decide)

/-- What is open takes a delimiter in, and is a token if the text ends behind it. -/
theorem finish?_step_delimiter {state : State} {c : Char} (hc : isDelimiter c)
    (hopen : state.isOpen) : (state.step c).all (·.finish?.isSome) := by
  obtain ⟨hspace, hdigit, hnameStart, hname, hhex, hmark⟩ := isDelimiter_class hc
  have hchar := isDelimiter_iff.1 hc
  fun_cases state.step c <;>
    grind [isOpen, finish?, accept?, stepName, stepNameEscape, stepString, stepStringEscape,
      stepUrl, stepUrlMargin, stepUrlEscape]

theorem stepStart_ne_start (c : Char) : stepStart c ≠ start := by
  unfold stepStart
  grind

/-- No state leads back to the first one. -/
theorem step_ne_start (state : State) (c : Char) : state.step c ≠ some start := by
  fun_cases state.step c <;>
    grind [stepName, stepNameEscape, stepNameStart, stepString, stepStringEscape, stepUrl,
      stepUrlEscape, stepUrlMargin, stepNumberEnd, stepStart_ne_start]

/-! ## Reading across the end of a text -/

/-- The state behind a text, if the automaton can read all of it. -/
def run : State → List Char → Option State
  | state, [] => some state
  | state, c :: rest => (state.step c).bind fun next ↦ next.run rest

theorem run_append (state : State) (left right : List Char) :
    state.run (left ++ right) = (state.run left).bind fun middle ↦ middle.run right := by
  induction left generalizing state with
  | nil => rfl
  | cons c left ih =>
    rw [List.cons_append, run, run, Option.bind_assoc]
    congr 1
    funext next
    exact ih next

theorem run_concat_eq_some_iff {state last : State} {text : List Char} {c : Char} :
    state.run (text ++ [c]) = some last ↔
      ∃ middle, state.run text = some middle ∧ middle.step c = some last := by
  rw [run_append, Option.bind_eq_some_iff]
  simp only [run, Option.bind_fun_some]

theorem run_ne_start {state last : State} {text : List Char} (hstate : state ≠ start)
    (h : state.run text = some last) : last ≠ start := by
  induction text generalizing state with
  | nil =>
    obtain rfl := Option.some.inj h
    exact hstate
  | cons c text ih =>
    obtain ⟨next, hstep, hrun⟩ := Option.bind_eq_some_iff.1 h
    apply ih _ hrun
    rintro rfl
    exact step_ne_start state c hstep

/-- A text that may end in its last state is one token. -/
theorem munch_of_run {state last : State} {text : List Char} {token : Token}
    (hrun : state.run text = some last) (hfinish : last.finish? = some token) :
    state.munch text = some (token, text, []) := by
  induction text generalizing state with
  | nil =>
    obtain rfl := Option.some.inj hrun
    rw [munch, hfinish, Option.map_some]
  | cons c text ih =>
    obtain ⟨next, hstep, hrest⟩ := Option.bind_eq_some_iff.1 hrun
    rw [munch, hstep, Option.bind_some, ih hrest]

/-- What follows a text leaves its first token alone if it does so in the state behind the text. -/
theorem munch_append {state : State} {text more : List Char}
    (h : ∀ last, state.run text = some last →
      last.munch more = last.finish?.map fun token ↦ (token, [], more)) :
    state.munch (text ++ more) =
      (state.munch text).map fun (token, taken, rest) ↦ (token, taken, rest ++ more) := by
  induction text generalizing state with
  | nil =>
    rw [List.nil_append, h state rfl, munch, Option.map_map]
    rfl
  | cons c text ih =>
    rw [List.cons_append, munch, munch]
    cases hstep : state.step c with
    | none =>
      rw [Option.bind_none, Option.bind_none, Option.map_map]
      rfl
    | some next =>
      have hnext := ih fun last hrun ↦ h last (by rw [run, hstep, Option.bind_some, hrun])
      rw [Option.bind_some, Option.bind_some, hnext]
      cases next.munch text with
      | none =>
        rw [Option.map_none, Option.map_map]
        rfl
      | some found => rfl

/-- Nothing is read across a character that extends no token, if nothing is open. -/
theorem munch_of_extendsNone {state : State} {c : Char} (hc : ExtendsNone c) (hstart : state ≠ start)
    (hopen : state.isOpen = false) (more : List Char) :
    state.munch (c :: more) = state.finish?.map fun token ↦ (token, [], c :: more) := by
  rw [munch, hc hstart hopen, Option.bind_none, accept?_eq_finish? hopen]

theorem munch_done (token : Token) (more : List Char) :
    (done token).munch more = some (token, [], more) := by
  cases more <;> rfl

end State

/-! ## Lexemes of texts put together -/

/-- The end of the lexeme is inside a string, a comment, an address or an escape. -/
def Lexeme.endsInside (lexeme : Lexeme) : Bool :=
  (State.start.run lexeme.text).any State.isOpen

/-- Nothing inside a lexeme is open at the end of a text. -/
def EndsBetweenLexemes (text : List Char) : Prop :=
  ∀ lexeme ∈ (lexemes text).getLast?, lexeme.endsInside = false

/-- The last lexeme of a text is a delimiter. -/
def EndsWithDelimiter (text : List Char) : Prop :=
  ∃ lexeme ∈ (lexemes text).getLast?, ∃ c, isDelimiter c ∧ lexeme.text = [c]

namespace Lexeme

theorem next?_eq_whole {text : List Char} {last : State} (hrun : State.start.run text = some last)
    (hfinish : last.finish?.isSome) : ∃ token, next? text = some (⟨token, text⟩, []) := by
  obtain ⟨token, htoken⟩ := Option.isSome_iff_exists.1 hfinish
  exact ⟨token, by rw [next?, State.munch_of_run hrun htoken, Option.map_some]⟩

theorem next?_append {text more : List Char} {lexeme : Lexeme} {rest : List Char}
    (hnext : next? text = some (lexeme, rest))
    (h : ∀ last, State.start.run text = some last →
      last.munch more = last.finish?.map fun token ↦ (token, [], more)) :
    next? (text ++ more) = some (lexeme, rest ++ more) := by
  obtain ⟨⟨token, taken, after⟩, hmunch, heq⟩ := Option.map_eq_some_iff.1 hnext
  obtain ⟨rfl, rfl⟩ := Prod.mk.injEq .. ▸ heq
  rw [next?, State.munch_append h, hmunch]
  rfl

end Lexeme

theorem stepStart_delimiter {c : Char} (h : isDelimiter c) :
    ∃ token, State.stepStart c = .done token := by
  rcases isDelimiter_iff.1 h with rfl | rfl | rfl
  · exact ⟨.semicolon, rfl⟩
  · exact ⟨.opener .curly, rfl⟩
  · exact ⟨.closer .curly, rfl⟩

theorem lexemes_whole {text : List Char} {last : State} (hrun : State.start.run text = some last)
    (hfinish : last.finish?.isSome) : ∃ token, lexemes text = [⟨token, text⟩] := by
  obtain ⟨token, hnext⟩ := Lexeme.next?_eq_whole hrun hfinish
  exact ⟨token, by rw [lexemes_of_next? hnext, lexemes_nil]⟩

/-- A text is a lexeme if it leads to a state that takes it for a token and nothing of what follows
extends the token. -/
theorem lexemes_append_of_stuck {text more : List Char} {last : State} {token : Token}
    (hrun : State.start.run text = some last) (haccept : last.accept? = some token)
    (hfinish : last.finish? = some token) (hstuck : ∀ c ∈ more.head?, last.step c = none) :
    lexemes (text ++ more) = ⟨token, text⟩ :: lexemes more := by
  apply lexemes_of_next?
  have hnext : Lexeme.next? text = some (⟨token, text⟩, []) := by
    rw [Lexeme.next?, State.munch_of_run hrun hfinish, Option.map_some]
  apply Lexeme.next?_append hnext
  intro other hother
  obtain rfl := Option.some.inj (hrun.symm.trans hother)
  cases more with
  | nil => rfl
  | cons c more => rw [State.munch, hstuck c rfl, Option.bind_none, haccept, hfinish]

/-- A text that leads behind a token is a lexeme, whatever follows. -/
theorem lexemes_append_done {text : List Char} {token : Token}
    (hrun : State.start.run text = some (.done token)) (more : List Char) :
    lexemes (text ++ more) = ⟨token, text⟩ :: lexemes more :=
  lexemes_append_of_stuck hrun rfl rfl fun _ _ ↦ rfl

/-- A character that is a token whatever follows. -/
theorem lexemes_cons_done {c : Char} {token : Token} (h : State.stepStart c = .done token)
    (more : List Char) : lexemes (c :: more) = ⟨token, [c]⟩ :: lexemes more := by
  have hrun : State.start.run [c] = some (.done token) := congrArg some h
  exact lexemes_append_done hrun more

/-- Lexemes can be read one text after the other if, wherever the automaton starts a lexeme and
reads to the end of the first text, it takes in nothing of the second. -/
theorem lexemes_append {text more : List Char}
    (h : ∀ (read : List Lexeme) (unread : List Char), lexemes text = read ++ lexemes unread →
      unread ≠ [] → ∀ last, State.start.run unread = some last →
        last.munch more = last.finish?.map fun token ↦ (token, [], more)) :
    lexemes (text ++ more) = lexemes text ++ lexemes more := by
  induction hlength : text.length using Nat.strongRecOn generalizing text with
  | ind length ih =>
    cases text with
    | nil => rfl
    | cons c text =>
      obtain ⟨token, taken, rest, hnext⟩ := Lexeme.next?_cons c text
      have hlexemes := lexemes_of_next? hnext
      have happend : Lexeme.next? (c :: text ++ more) = some (⟨token, c :: taken⟩, rest ++ more) :=
        Lexeme.next?_append hnext (h [] (c :: text) rfl (List.cons_ne_nil c text))
      have hrest : lexemes (rest ++ more) = lexemes rest ++ lexemes more := by
        apply ih rest.length (hlength ▸ Lexeme.length_of_next? hnext) _ rfl
        intro read unread hread
        apply h (⟨token, c :: taken⟩ :: read)
        rw [hlexemes, hread, List.cons_append]
      rw [lexemes_of_next? happend, hlexemes, hrest, List.cons_append]

theorem run_start_ne_start {text : List Char} {last : State} (hne : text ≠ [])
    (h : State.start.run text = some last) : last ≠ .start := by
  cases text with
  | nil => exact absurd rfl hne
  | cons c text => exact State.run_ne_start (State.stepStart_ne_start c) h

/-- A character that extends no token begins a lexeme if nothing is open in front of it. -/
theorem lexemes_append_of_extendsNone {text : List Char} (htext : EndsBetweenLexemes text)
    {c : Char} (hc : State.ExtendsNone c) (more : List Char) :
    lexemes (text ++ c :: more) = lexemes text ++ lexemes (c :: more) := by
  apply lexemes_append
  intro read unread hread hne last hrun
  cases hopen : last.isOpen with
  | false => exact State.munch_of_extendsNone hc (run_start_ne_start hne hrun) hopen more
  | true =>
    -- What is open at the end makes the unread text the last lexeme.
    obtain ⟨token, hwhole⟩ := lexemes_whole hrun (State.finish?_isSome hopen)
    have hinside := htext ⟨token, unread⟩ (by simp [hread, hwhole])
    rw [Lexeme.endsInside, hrun, Option.any_some, hopen] at hinside
    cases hinside

theorem lexemes_append_delimiter {text : List Char} (htext : EndsBetweenLexemes text) {c : Char}
    (hc : isDelimiter c) (more : List Char) :
    lexemes (text ++ c :: more) = lexemes text ++ lexemes (c :: more) :=
  lexemes_append_of_extendsNone htext (State.step_delimiter hc) more

/-- Read from its beginning, a text that ends with a delimiter as its last lexeme but has others
in front is no token, so that the automaton gets stuck before its end. -/
theorem eq_nil_of_run_concat_delimiter {front : List Lexeme} {lexeme : Lexeme} {unread : List Char}
    {c : Char} (hc : isDelimiter c) (hlexemes : lexemes unread = front ++ [lexeme])
    (hunread : unread = Lexeme.joined front ++ [c]) {last : State}
    (hrun : State.start.run unread = some last) : Lexeme.joined front = [] := by
  obtain ⟨middle, hmiddle, hstep⟩ := State.run_concat_eq_some_iff.1 (hunread ▸ hrun)
  by_cases hempty : Lexeme.joined front = []
  · exact hempty
  · cases hopen : middle.isOpen with
    | false =>
      rw [State.step_delimiter hc (run_start_ne_start hempty hmiddle) hopen] at hstep
      cases hstep
    | true =>
      have hfinish := State.finish?_step_delimiter hc hopen
      rw [hstep, Option.all_some] at hfinish
      obtain ⟨token, hwhole⟩ := lexemes_whole hrun hfinish
      rw [hlexemes] at hwhole
      obtain ⟨rfl, -⟩ := List.append_eq_singleton_iff.1 hwhole |>.resolve_right (by simp)
      rfl

/-- Whatever follows a delimiter that is a lexeme begins another lexeme. -/
theorem lexemes_append_of_endsWithDelimiter {text : List Char} (htext : EndsWithDelimiter text)
    (more : List Char) : lexemes (text ++ more) = lexemes text ++ lexemes more := by
  obtain ⟨lexeme, hlast, c, hc, hlexeme⟩ := htext
  apply lexemes_append
  intro read unread hread hne last hrun
  have hlexemes : lexemes unread ≠ [] := by
    intro hnil
    apply hne
    rw [← joined_lexemes unread, hnil, Lexeme.joined_nil]
  obtain ⟨front, hfront⟩ : ∃ front, lexemes unread = front ++ [lexeme] := by
    rw [hread, Option.mem_def, List.getLast?_append, List.getLast?_eq_some_getLast hlexemes,
      Option.some_or, ← List.getLast?_eq_some_getLast hlexemes] at hlast
    exact List.getLast?_eq_some_iff.1 hlast
  have hunread : unread = Lexeme.joined front ++ [c] := by
    rw [← joined_lexemes unread, hfront, Lexeme.joined_append, Lexeme.joined_cons, hlexeme]
    rfl
  have hempty := eq_nil_of_run_concat_delimiter hc hfront hunread hrun
  obtain ⟨token, htoken⟩ := stepStart_delimiter hc
  rw [hunread, hempty, List.nil_append, State.run, State.step, htoken] at hrun
  obtain rfl := Option.some.inj hrun
  exact State.munch_done token more

end TouchTarget.Css
