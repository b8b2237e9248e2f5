import TouchTarget.Proofs.Css.Spelling

/-!
# Pieces of a text

A piece of a text that begins at a lexeme and ends in front of a delimiter, or at the end of the
text, has by itself the lexemes that it has in its place. The longest lexeme could be another one
only if something were open at the end of the piece, but what is open takes the delimiter in.
Comments can be cut out just so, as they say themselves where they end.
-/

namespace TouchTarget.Css

namespace State

/-- Any character takes the token on or ends it. -/
def isEndless : State → Bool
  | comment | commentStar | url _ | urlTail | badUrl | badUrlEscape => true
  | _ => false

theorem isEndless_step {state : State} (h : state.isEndless) (c : Char) :
    ∃ next, state.step c = some next ∧ (next.isEndless ∨ ∃ token, next = done token) := by
  fun_cases state.step c <;>
    grind [isEndless, stepUrl, stepUrlEscape]

theorem munch_isSome_of_isEndless {state : State} (h : state.isEndless) (text : List Char) :
    (state.munch text).isSome := by
  induction text generalizing state with
  | nil => cases state <;> first | rfl | cases h
  | cons c text ih =>
    obtain ⟨next, hstep, hnext⟩ := isEndless_step h c
    have hsome : (next.munch text).isSome := by
      rcases hnext with hendless | ⟨token, rfl⟩
      · exact ih hendless
      · rw [munch_done, Option.isSome_some]
    obtain ⟨found, hfound⟩ := Option.isSome_iff_exists.1 hsome
    rw [munch, hstep, Option.bind_some, hfound, Option.isSome_some]

theorem eq_opened_of_isOpen {role : NameRole} {letters : List Char} {escape : Escape}
    (h : (name role letters (some escape)).isOpen) : escape = .opened := by
  cases escape with
  | opened => rfl
  | _ => cases h

/-- A token is sure to be found, whatever comes. -/
def isSettled (state : State) : Bool :=
  state.isEndless || state.accept?.isSome && state.finish?.isSome

/-- Behind a delimiter that is taken in, a token is sure to be found. -/
theorem isSettled_step_delimiter {state : State} {c : Char} (hc : isDelimiter c)
    (hopen : state.isOpen) : (state.step c).any isSettled := by
  obtain ⟨hspace, hdigit, hnameStart, hname, hhex, hmark⟩ := isDelimiter_class hc
  have hchar := isDelimiter_iff.1 hc
  have hnewline : isNewline c = false := by
    rcases hchar with rfl | rfl | rfl <;> rfl
  have hopened : Escape.opened.next c = .endsAt (cleaned c) := by
    simp [Escape.next, hhex]
  have hescape (escape : Escape) (h : escape ≠ .opened) := Escape.next_of_ne_opened hspace hhex h
  fun_cases state.step c <;>
    grind [eq_opened_of_isOpen, isSettled, isOpen, isEndless, finish?, accept?, stepName,
      stepNameEscape, stepString, stepStringEscape, stepUrl, stepUrlMargin, stepUrlEscape]

theorem munch_isSome_of_isSettled {state : State} (h : state.isSettled) (text : List Char) :
    (state.munch text).isSome := by
  rw [isSettled, Bool.or_eq_true, Bool.and_eq_true] at h
  rcases h with hendless | ⟨haccept, hfinish⟩
  · exact munch_isSome_of_isEndless hendless text
  · exact munch_isSome haccept hfinish text

/-- The longest token goes on through a text if there is one from the state behind it. -/
theorem munch_append_of_run {state last : State} {text more taken rest : List Char} {token : Token}
    (hrun : state.run text = some last) (hlast : last.munch more = some (token, taken, rest)) :
    state.munch (text ++ more) = some (token, text ++ taken, rest) := by
  induction text generalizing state with
  | nil =>
    obtain rfl := Option.some.inj hrun
    exact hlast
  | cons c text ih =>
    obtain ⟨next, hstep, hnext⟩ := Option.bind_eq_some_iff.1 hrun
    rw [List.cons_append, munch, hstep, Option.bind_some, ih hnext, List.cons_append]

/-- What is open takes the delimiter in, so that the token is longer than what is in front of it. -/
theorem munch_of_isOpen {state last : State} {text : List Char} {c : Char} (hc : isDelimiter c)
    (hrun : state.run text = some last) (hopen : last.isOpen) (more : List Char) :
    ∃ token taken rest,
      state.munch (text ++ c :: more) = some (token, text ++ c :: taken, rest) := by
  obtain ⟨next, hstep, hsettled⟩ := (Option.any_eq_true ..).1 (isSettled_step_delimiter hc hopen)
  obtain ⟨⟨token, taken, rest⟩, hmunch⟩ :=
    Option.isSome_iff_exists.1 (munch_isSome_of_isSettled hsettled more)
  have hlast : last.munch (c :: more) = some (token, c :: taken, rest) := by
    rw [munch, hstep, Option.bind_some, hmunch]
  exact ⟨token, taken, rest, munch_append_of_run hrun hlast⟩

end State

/-- The first lexeme is not changed by what follows a delimiter behind it. -/
theorem Lexeme.next?_front {text more : List Char} {c : Char} (hc : isDelimiter c)
    {lexeme : Lexeme} {rest : List Char} (htext : text ≠ [])
    (h : next? (text ++ c :: more) = some (lexeme, rest ++ c :: more)) :
    next? text = some (lexeme, rest) := by
  have hclosed : ∀ last, State.start.run text = some last → last.isOpen = false := by
    intro last hrun
    apply Bool.eq_false_iff.2
    intro hopen
    obtain ⟨token, taken, after, hmunch⟩ := State.munch_of_isOpen hc hrun hopen more
    rw [next?, hmunch, Option.map_some] at h
    have hrest : after = rest ++ c :: more := by simpa using congrArg (·.map Prod.snd) h
    have hlength := congrArg List.length (State.text_of_munch hmunch)
    simp only [hrest, List.length_append, List.length_cons] at hlength
    omega
  obtain ⟨first, tail, rfl⟩ := List.exists_cons_of_ne_nil htext
  obtain ⟨token, taken, after, hnext⟩ := next?_cons first tail
  have happend := next?_append hnext fun last hrun ↦
    State.munch_of_extendsNone (State.step_delimiter hc) (run_start_ne_start htext hrun)
      (hclosed last hrun) more
  rw [h] at happend
  obtain ⟨rfl, hrest⟩ := Prod.mk.injEq .. ▸ Option.some.inj happend
  rw [hnext, List.append_cancel_right hrest]

/-! ## The lexemes of pieces -/

theorem next?_of_lexemes_eq_cons {text : List Char} {lexeme : Lexeme} {rest : List Lexeme}
    (h : lexemes text = lexeme :: rest) :
    Lexeme.next? text = some (lexeme, Lexeme.joined rest) ∧
      lexemes (Lexeme.joined rest) = rest := by
  cases text with
  | nil => cases h
  | cons c text =>
    obtain ⟨token, taken, after, hnext⟩ := Lexeme.next?_cons c text
    rw [lexemes_of_next? hnext] at h
    obtain ⟨rfl, rfl⟩ := List.cons.inj h
    rw [joined_lexemes]
    exact ⟨hnext, rfl⟩

/-- What is left of a text has the lexemes that are left. -/
theorem lexemes_joined_back {text : List Char} {left right : List Lexeme}
    (h : lexemes text = left ++ right) : lexemes (Lexeme.joined right) = right := by
  induction left generalizing text with
  | nil => rw [← h.trans (List.nil_append right), joined_lexemes]
  | cons lexeme left ih => exact ih (next?_of_lexemes_eq_cons h).2

/-- What is in front of a delimiter has the lexemes in front of it. -/
theorem lexemes_joined_front {text : List Char} {left right : List Lexeme} {lexeme : Lexeme}
    (h : lexemes text = left ++ lexeme :: right) {c : Char} (hc : isDelimiter c)
    (hlexeme : lexeme.text = [c]) : lexemes (Lexeme.joined left) = left := by
  induction left generalizing text with
  | nil => rfl
  | cons first left ih =>
    rw [List.cons_append] at h
    obtain ⟨hnext, hrest⟩ := next?_of_lexemes_eq_cons h
    have hjoined : Lexeme.joined (left ++ lexeme :: right) =
        Lexeme.joined left ++ c :: Lexeme.joined right := by
      rw [Lexeme.joined_append, Lexeme.joined_cons, hlexeme, List.singleton_append]
    have hsplit : text = Lexeme.joined (first :: left) ++ c :: Lexeme.joined right := by
      rw [← joined_lexemes text, h, Lexeme.joined_cons, hjoined, Lexeme.joined_cons,
        List.append_assoc]
    have hne : Lexeme.joined (first :: left) ≠ [] := by
      intro hnil
      have hlength := Lexeme.length_of_next? hnext
      rw [hsplit, hjoined, hnil, List.nil_append, List.length_append] at hlength
      omega
    have hfirst : Lexeme.next? (Lexeme.joined (first :: left)) =
        some (first, Lexeme.joined left) := by
      apply Lexeme.next?_front hc hne
      rw [← hsplit, ← hjoined]
      exact hnext
    rw [lexemes_of_next? hfirst, ih hrest]

/-! ## Comments -/

/-- A comment with something behind it is a comment whatever that is. -/
theorem Lexeme.run_of_comment {text rest : List Char} {lexeme : Lexeme}
    (h : next? text = some (lexeme, rest)) (hcomment : lexeme.token = .comment)
    (hrest : rest ≠ []) : State.start.run lexeme.text = some (.done lexeme.token) := by
  obtain ⟨last, hrun, hlast⟩ := run_of_next? h
  rw [hcomment] at hlast ⊢
  rcases hlast with haccept | ⟨-, hnil⟩
  · rw [hrun, State.eq_done_of_accept?_comment haccept]
  · exact absurd hnil hrest

/-- Comments are the lexemes of their text, and what is put behind them begins anew, unless it is
the end of the text that has closed the last one. -/
theorem lexemes_comments_append {comments after : List Lexeme} {more : List Char}
    (h : lexemes (Lexeme.joined (comments ++ after)) = comments ++ after)
    (hcomments : ∀ lexeme ∈ comments, lexeme.token = .comment)
    (hmore : Lexeme.joined after = [] → more = []) :
    lexemes (Lexeme.joined comments ++ more) = comments ++ lexemes more := by
  induction comments with
  | nil => rfl
  | cons first comments ih =>
    rw [List.forall_mem_cons] at hcomments
    rw [List.cons_append] at h
    obtain ⟨hnext, hrest⟩ := next?_of_lexemes_eq_cons h
    have hbehind := ih hrest hcomments.2
    rw [Lexeme.joined_cons, List.append_assoc, List.cons_append, ← hbehind]
    by_cases hnil : Lexeme.joined (comments ++ after) = []
    · -- Whatever ended the comment, it is all that was read.
      have hfirst : first.text = Lexeme.joined (first :: (comments ++ after)) := by
        rw [← Lexeme.text_of_next? hnext, hnil, List.append_nil]
      rw [hnil, ← hfirst] at hnext
      rw [Lexeme.joined_append, List.append_eq_nil_iff] at hnil
      rw [hnil.1, hmore hnil.2, List.append_nil, List.append_nil, lexemes_of_next? hnext]
    · exact lexemes_append_done (Lexeme.run_of_comment hnext hcomments.1 hnil) _

end TouchTarget.Css
