import Mathlib.Data.List.Basic
import TouchTarget.Text.Characters
import TouchTarget.Proofs.Css.Boundary

/-!
# How tokens are spelt

The text of a lexeme leads the automaton from its first state to one that takes the text for the
token. For some tokens this leaves no choice: a semicolon and a bracket are their one character,
an at-keyword begins with its sign and a comment with a slash, and blank space is made of spaces
and line breaks. A token in which nothing is open ends with a semicolon only if it is one or if the
semicolon is escaped.
-/

namespace TouchTarget.Css

/-- A semicolon or a bracket. -/
def Token.isMark : Token → Bool
  | .semicolon | .opener _ | .closer _ => true
  | _ => false

theorem Escape.next_ne_opened (escape : Escape) (c : Char) : escape.next c ≠ .goesOn .opened := by
  fun_cases escape.next c <;> simp

namespace State

/-- The text of a token leads to a state that takes it for the token, whatever follows or because
nothing does. -/
theorem run_of_munch {state : State} {text taken rest : List Char} {token : Token}
    (h : state.munch text = some (token, taken, rest)) :
    ∃ last, state.run taken = some last ∧
      (last.accept? = some token ∨ last.finish? = some token ∧ rest = []) := by
  induction text generalizing state token taken with
  | nil =>
    obtain ⟨found, hfinish, heq⟩ := Option.map_eq_some_iff.1 h
    obtain ⟨rfl, rfl, rfl⟩ := Prod.mk.injEq .. ▸ heq
    exact ⟨state, rfl, .inr ⟨hfinish, rfl⟩⟩
  | cons c text ih =>
    rw [munch] at h
    split at h
    next found taken' after hfound =>
      simp only [Option.some.injEq, Prod.mk.injEq] at h
      obtain ⟨rfl, rfl, rfl⟩ := h
      obtain ⟨next, hstep, hmunch⟩ := Option.bind_eq_some_iff.1 hfound
      obtain ⟨last, hrun, hlast⟩ := ih hmunch
      exact ⟨last, by rw [run, hstep, Option.bind_some, hrun], hlast⟩
    next =>
      obtain ⟨found, haccept, heq⟩ := Option.map_eq_some_iff.1 h
      obtain ⟨rfl, rfl, -⟩ := Prod.mk.injEq .. ▸ heq
      exact ⟨state, rfl, .inl haccept⟩

/-- What no step brings about does not hold behind a text if it does not hold in front of it. -/
theorem run_preserves (holds : State → Bool)
    (hstep : ∀ state c, state ≠ start → holds state = false → (state.step c).all (!holds ·))
    {state last : State} {text : List Char} (hstart : state ≠ start) (hstate : holds state = false)
    (h : state.run text = some last) : holds last = false := by
  induction text generalizing state with
  | nil =>
    obtain rfl := Option.some.inj h
    exact hstate
  | cons c text ih =>
    obtain ⟨next, hnext, hrun⟩ := Option.bind_eq_some_iff.1 h
    have hpreserved := hstep state c hstart hstate
    rw [hnext, Option.all_some, Bool.not_eq_true'] at hpreserved
    refine ih ?_ hpreserved hrun
    rintro rfl
    exact step_ne_start state c hnext

/-- What no step brings about holds behind a text only if it holds behind the first character. -/
theorem stepStart_of_run (holds : State → Bool)
    (hstep : ∀ state c, state ≠ start → holds state = false → (state.step c).all (!holds ·))
    {c : Char} {text : List Char} {last : State} (h : (stepStart c).run text = some last)
    (hlast : holds last) : holds (stepStart c) := by
  by_contra hfirst
  have hnot := run_preserves holds hstep (stepStart_ne_start c) (Bool.eq_false_iff.2 hfirst) h
  rw [hlast] at hnot
  cases hnot

/-- The state behind a mark. -/
def isMark : State → Bool
  | done token => token.isMark
  | _ => false

/-- Only the first character of a token can be a mark. -/
theorem isMark_step {state : State} (c : Char) (hstart : state ≠ start) :
    (state.step c).all (!·.isMark) := by
  fun_cases state.step c <;>
    grind [isMark, Token.isMark, stepName, stepNameEscape, stepNameStart, stepString,
      stepStringEscape, stepUrl, stepUrlEscape, stepUrlMargin, stepNumberEnd]

theorem isDelimiter_of_stepStart {c : Char} {token : Token} (h : stepStart c = done token)
    (htoken : token = .semicolon ∨ token = .closer .curly) : isDelimiter c := by
  unfold stepStart at h
  grind [isDelimiter]

/-- The states inside an at-keyword or behind it. -/
def isAtKeyword : State → Bool
  | atSign | atHyphen | done (.atKeyword _) => true
  | name role _ _ => role = .atKeyword
  | _ => false

theorem isAtKeyword_stepStart {c : Char} (h : (stepStart c).isAtKeyword) : c = '@' := by
  unfold stepStart at h
  grind [isAtKeyword]

/-- An at-keyword is begun or not at the first character of the token. -/
theorem isAtKeyword_step {state : State} (c : Char) (hstart : state ≠ start)
    (h : state.isAtKeyword = false) : (state.step c).all (!·.isAtKeyword) := by
  fun_cases state.step c <;>
    grind [isAtKeyword, stepName, stepNameEscape, stepNameStart, stepString, stepStringEscape,
      stepUrl, stepUrlEscape, stepUrlMargin, stepNumberEnd]

theorem exists_letters_of_name {role : NameRole} {letters : List Char} {escape : Option Escape}
    {token : Token} (h : (name role letters escape).accept? = some token ∨
      (name role letters escape).finish? = some token) :
    ∃ allLetters, role.token allLetters = token := by
  rcases escape with _ | _ | ⟨count, code⟩ | value <;> simp [accept?, finish?] at h <;>
    exact ⟨_, h⟩

/-- A mark is taken for a token in the state behind it only. -/
theorem eq_done_of_isMark {state : State} {token : Token} (hmark : token.isMark)
    (h : state.accept? = some token ∨ state.finish? = some token) : state = done token := by
  cases state with
  | done found =>
    rcases h with haccept | hfinish
    · rw [Option.some.inj haccept]
    · rw [Option.some.inj hfinish]
  | name role letters escape =>
    obtain ⟨allLetters, rfl⟩ := exists_letters_of_name h
    cases role <;> cases hmark
  | _ => rcases h with h | h <;> cases h <;> cases hmark

/-- An at-keyword is taken for a token in a state of at-keywords only. -/
theorem isAtKeyword_of_token {state : State} {letters : List Char}
    (h : state.accept? = some (.atKeyword letters) ∨ state.finish? = some (.atKeyword letters)) :
    state.isAtKeyword := by
  cases state with
  | done found =>
    rcases h with haccept | hfinish
    · rw [Option.some.inj haccept]
      rfl
    · rw [Option.some.inj hfinish]
      rfl
  | name role otherLetters escape =>
    obtain ⟨allLetters, htoken⟩ := exists_letters_of_name h
    cases role <;> cases htoken
    rfl
  | _ => rcases h with h | h <;> cases h

/-- A blank goes on as long as there are spaces. -/
theorem munch_blank (text : List Char) :
    blank.munch text = some (.blank, text.takeWhile isSpace, text.dropWhile isSpace) := by
  induction text with
  | nil => rfl
  | cons c text ih =>
    rw [munch, step]
    by_cases hc : isSpace c
    · rw [if_pos hc, Option.bind_some, ih, List.takeWhile_cons_of_pos hc,
        List.dropWhile_cons_of_pos hc]
    · rw [if_neg hc, Option.bind_none, List.takeWhile_cons_of_neg hc,
        List.dropWhile_cons_of_neg hc]
      rfl

theorem isSpace_of_run_blank {text : List Char} {last : State} (h : blank.run text = some last) :
    ∀ c ∈ text, isSpace c := by
  induction text with
  | nil =>
    intro c hmem
    cases hmem
  | cons c text ih =>
    obtain ⟨next, hstep, hrun⟩ := Option.bind_eq_some_iff.1 h
    rw [step] at hstep
    split at hstep
    next hc =>
      obtain rfl := Option.some.inj hstep
      exact List.forall_mem_cons.2 ⟨hc, ih hrun⟩
    next => cases hstep

/-- The states inside blank space or behind it. -/
def isBlank : State → Bool
  | blank | done .blank => true
  | _ => false

theorem isSpace_of_isBlank_stepStart {c : Char} (h : (stepStart c).isBlank) :
    isSpace c ∧ stepStart c = blank := by
  unfold stepStart at h ⊢
  grind [isBlank]

/-- Blank space is begun or not at the first character of the token. -/
theorem isBlank_step {state : State} (c : Char) (hstart : state ≠ start)
    (h : state.isBlank = false) : (state.step c).all (!·.isBlank) := by
  fun_cases state.step c <;>
    grind [isBlank, stepName, stepNameEscape, stepNameStart, stepString, stepStringEscape,
      stepUrl, stepUrlEscape, stepUrlMargin, stepNumberEnd]

theorem isBlank_of_token {state : State}
    (h : state.accept? = some .blank ∨ state.finish? = some .blank) : state.isBlank := by
  cases state with
  | done found =>
    rcases h with haccept | hfinish
    · rw [Option.some.inj haccept]
      rfl
    · rw [Option.some.inj hfinish]
      rfl
  | name role letters escape =>
    obtain ⟨allLetters, htoken⟩ := exists_letters_of_name h
    cases role <;> cases htoken
  | blank => rfl
  | _ => rcases h with h | h <;> cases h

/-- The states inside a comment or behind it. -/
def isComment : State → Bool
  | slash | comment | commentStar | done .comment => true
  | _ => false

theorem isComment_stepStart {c : Char} (h : (stepStart c).isComment) : c = '/' := by
  unfold stepStart at h
  grind [isComment]

/-- A comment is begun or not at the first character of the token. -/
theorem isComment_step {state : State} (c : Char) (hstart : state ≠ start)
    (h : state.isComment = false) : (state.step c).all (!·.isComment) := by
  fun_cases state.step c <;>
    grind [isComment, stepName, stepNameEscape, stepNameStart, stepString, stepStringEscape,
      stepUrl, stepUrlEscape, stepUrlMargin, stepNumberEnd]

theorem isComment_of_token {state : State}
    (h : state.accept? = some .comment ∨ state.finish? = some .comment) : state.isComment := by
  cases state with
  | done found =>
    rcases h with haccept | hfinish
    · rw [Option.some.inj haccept]
      rfl
    · rw [Option.some.inj hfinish]
      rfl
  | name role letters escape =>
    obtain ⟨allLetters, htoken⟩ := exists_letters_of_name h
    cases role <;> cases htoken
  | comment | commentStar => rfl
  | _ => rcases h with h | h <;> cases h

/-- A text that may be a comment and go on is one whatever follows. -/
theorem eq_done_of_accept?_comment {state : State} (h : state.accept? = some .comment) :
    state = done .comment := by
  cases state with
  | done found => rw [Option.some.inj h]
  | name role letters escape =>
    obtain ⟨allLetters, htoken⟩ := exists_letters_of_name (.inl h)
    cases role <;> cases htoken
  | _ => cases h

/-- A comment ends where its end first stands. Behind a star the end may already have begun. -/
theorem run_comment_and_star (body : List Char) :
    (¬['*', '/'] <:+: body ++ ['*'] →
      comment.run (body ++ ['*', '/']) = some (done .comment)) ∧
    (¬['*', '/'] <:+: '*' :: body ++ ['*'] →
      commentStar.run (body ++ ['*', '/']) = some (done .comment)) := by
  induction body with
  | nil => exact ⟨fun _ ↦ rfl, fun _ ↦ rfl⟩
  | cons c body ih =>
    obtain ⟨ihComment, ihStar⟩ := ih
    constructor
    · intro h
      by_cases hstar : c = '*'
      · subst hstar
        exact ihStar h
      · have hrest : ¬['*', '/'] <:+: body ++ ['*'] := fun hinfix ↦ h (List.infix_cons hinfix)
        rw [List.cons_append, run, step, if_neg hstar, Option.bind_some]
        exact ihComment hrest
    · intro h
      have hslash : c ≠ '/' := by
        rintro rfl
        exact h ⟨[], body ++ ['*'], rfl⟩
      by_cases hstar : c = '*'
      · subst hstar
        exact ihStar fun hinfix ↦ h (List.infix_cons hinfix)
      · have hrest : ¬['*', '/'] <:+: body ++ ['*'] :=
          fun hinfix ↦ h (List.infix_cons (List.infix_cons hinfix))
        rw [List.cons_append, run, step, if_neg hslash, if_neg hstar, Option.bind_some]
        exact ihComment hrest

theorem run_comment {body : List Char} (h : ¬['*', '/'] <:+: body ++ ['*']) :
    start.run ('/' :: '*' :: body ++ ['*', '/']) = some (done .comment) := by
  exact (run_comment_and_star body).1 h

/-- Right behind the backslash of an escape in a name. -/
def isEscaping : State → Bool
  | backslash => true
  | name _ _ escape? => escape? = some .opened
  | _ => false

theorem isEscaping_stepStart {c : Char} (h : (stepStart c).isEscaping) : c = '\\' := by
  unfold stepStart at h
  grind [isEscaping]

theorem isEscaping_step {state : State} {c : Char} (hstart : state ≠ start) (hc : c ≠ '\\') :
    (state.step c).all (!·.isEscaping) := by
  have hescape := (Escape.next_ne_opened · c)
  fun_cases state.step c <;>
    grind [isEscaping, stepName, stepNameEscape, stepNameStart, stepString,
      stepStringEscape, stepUrl, stepUrlEscape, stepUrlMargin, stepNumberEnd]

/-- Inside a string that is not between quotation marks. -/
def isMisquoted : State → Bool
  | quoted quote _ => quote != '\x22' && quote != '\x27'
  | _ => false

theorem isMisquoted_stepStart (c : Char) : (stepStart c).isMisquoted = false := by
  unfold stepStart
  grind [isMisquoted]

theorem isMisquoted_step {state : State} (c : Char) (hstart : state ≠ start)
    (h : state.isMisquoted = false) : (state.step c).all (!·.isMisquoted) := by
  fun_cases state.step c <;>
    grind [isMisquoted, stepName, stepNameEscape, stepNameStart, stepString, stepStringEscape,
      stepUrl, stepUrlEscape, stepUrlMargin, stepNumberEnd]

/-- A semicolon does not end a string. -/
theorem isOpen_step_quoted {quote : Char} {escape? : Option Escape}
    (hquoted : (quoted quote escape?).isMisquoted = false) :
    ((quoted quote escape?).step ';').all isOpen := by
  have hquote : quote = '\x22' ∨ quote = '\x27' := by
    rw [isMisquoted, Bool.and_eq_false_iff, bne_eq_false_iff_eq, bne_eq_false_iff_eq] at hquoted
    exact hquoted
  have hstring : (stepString quote ';').all isOpen := by rcases hquote with rfl | rfl <;> rfl
  cases escape? with
  | none => exact hstring
  | some escape =>
    rw [step]
    fun_cases stepStringEscape quote escape ';' <;> first | rfl | exact hstring

/-- A semicolon does not end an address. -/
theorem isOpen_step_url (escape? : Option Escape) : ((url escape?).step ';').all isOpen := by
  cases escape? with
  | none => rfl
  | some escape =>
    rw [step, Option.all_some]
    fun_cases stepUrlEscape escape ';' <;> rfl

/-- A semicolon that ends a token in which nothing is open, and is not all of it, is escaped. -/
theorem isEscaping_of_step_semicolon {state next : State} (hstart : state ≠ start)
    (hquoted : state.isMisquoted = false) (h : state.step ';' = some next)
    (hnext : next.isOpen = false) : state.isEscaping := by
  have hall : ¬(state.step ';').all isOpen := by
    rw [h, Option.all_some, hnext]
    exact Bool.false_ne_true
  cases hopen : state.isOpen with
  | false =>
    rw [step_delimiter rfl hstart hopen] at h
    cases h
  | true =>
    cases state with
    | backslash => rfl
    | name role letters escape? =>
      rcases escape? with _ | _ | _ | _
      · cases hopen
      · rfl
      · cases hopen
      · cases hopen
    | quoted quote escape? => exact absurd (isOpen_step_quoted hquoted) hall
    | url escape? => exact absurd (isOpen_step_url escape?) hall
    | comment | commentStar | urlStart | urlMargin | urlTail | badUrl | badUrlEscape =>
      exact absurd rfl hall
    | _ => cases hopen

/-- Behind a text inside a string, the string is between quotation marks. -/
theorem isMisquoted_run {c : Char} {text : List Char} {last : State}
    (h : (stepStart c).run text = some last) : last.isMisquoted = false :=
  run_preserves isMisquoted (fun _ c hstart hstate ↦ isMisquoted_step c hstart hstate)
    (stepStart_ne_start c) (isMisquoted_stepStart c) h

/-- A text that leads right behind a backslash ends with it. -/
theorem getLast?_of_isEscaping {c : Char} {text : List Char} {last : State}
    (h : (stepStart c).run text = some last) (hlast : last.isEscaping) :
    (c :: text).getLast? = some '\\' := by
  rcases List.eq_nil_or_concat' text with rfl | ⟨front, d, rfl⟩
  · obtain rfl := Option.some.inj h
    rw [isEscaping_stepStart hlast, List.getLast?_singleton]
  · obtain ⟨middle, hmiddle, hstep⟩ := run_concat_eq_some_iff.1 h
    rw [← List.cons_append, List.getLast?_concat]
    by_contra hne
    have hnot := isEscaping_step (run_ne_start (stepStart_ne_start c) hmiddle)
      (fun hd ↦ hne (congrArg some hd))
    rw [hstep, Option.all_some, hlast] at hnot
    cases hnot

end State

namespace Lexeme

theorem exists_next?_of_mem_upTo {count : Nat} {text : List Char} {lexeme : Lexeme}
    (h : lexeme ∈ upTo count text) : ∃ unread rest, next? unread = some (lexeme, rest) := by
  induction count generalizing text with
  | zero => cases h
  | succ count ih =>
    cases hnext : next? text with
    | none => simp [upTo, hnext] at h
    | some found =>
      obtain ⟨first, rest⟩ := found
      simp only [upTo, hnext, List.mem_cons] at h
      rcases h with rfl | hmem
      · exact ⟨text, rest, hnext⟩
      · exact ih hmem

theorem run_of_next? {text rest : List Char} {lexeme : Lexeme}
    (h : next? text = some (lexeme, rest)) :
    ∃ last, State.start.run lexeme.text = some last ∧
      (last.accept? = some lexeme.token ∨ last.finish? = some lexeme.token ∧ rest = []) := by
  obtain ⟨⟨token, taken, after⟩, hmunch, heq⟩ := Option.map_eq_some_iff.1 h
  obtain ⟨rfl, rfl⟩ := Prod.mk.injEq .. ▸ heq
  exact State.run_of_munch hmunch

/-- The text of a lexeme leads from its first character to a state that takes it for the token. -/
theorem exists_run_of_mem {text : List Char} {lexeme : Lexeme} (h : lexeme ∈ lexemes text) :
    ∃ c rest last, lexeme.text = c :: rest ∧ (State.stepStart c).run rest = some last ∧
      (last.accept? = some lexeme.token ∨ last.finish? = some lexeme.token) := by
  obtain ⟨unread, after, hnext⟩ := exists_next?_of_mem_upTo h
  cases unread with
  | nil => cases hnext
  | cons c unread =>
    obtain ⟨token, taken, rest, hcons⟩ := next?_cons c unread
    rw [hcons] at hnext
    obtain ⟨rfl, rfl⟩ := Prod.mk.injEq .. ▸ Option.some.inj hnext
    obtain ⟨last, hrun, hlast⟩ := run_of_next? hcons
    exact ⟨c, taken, last, rfl, hrun, hlast.imp_right And.left⟩

/-- A semicolon or a bracket is one character. -/
theorem text_of_mark {text : List Char} {lexeme : Lexeme} (h : lexeme ∈ lexemes text)
    (hmark : lexeme.token.isMark) :
    ∃ c, lexeme.text = [c] ∧ State.stepStart c = .done lexeme.token := by
  obtain ⟨c, rest, last, htext, hrun, hlast⟩ := exists_run_of_mem h
  obtain rfl := State.eq_done_of_isMark hmark hlast
  cases rest with
  | nil => exact ⟨c, htext, Option.some.inj hrun⟩
  | cons next rest =>
    exfalso
    obtain ⟨middle, hstep, hmiddle⟩ := Option.bind_eq_some_iff.1 hrun
    have hfirst := State.isMark_step next (State.stepStart_ne_start c)
    rw [hstep, Option.all_some, Bool.not_eq_true'] at hfirst
    have hlastMark := State.run_preserves State.isMark
      (fun state c hstart _ ↦ State.isMark_step c hstart)
      (fun h ↦ State.step_ne_start _ next (h ▸ hstep)) hfirst hmiddle
    rw [State.isMark, hmark] at hlastMark
    cases hlastMark

/-- An at-keyword begins with its sign. -/
theorem text_of_atKeyword {text : List Char} {lexeme : Lexeme} (h : lexeme ∈ lexemes text)
    {letters : List Char} (htoken : lexeme.token = .atKeyword letters) :
    ∃ rest, lexeme.text = '@' :: rest := by
  obtain ⟨c, rest, last, htext, hrun, hlast⟩ := exists_run_of_mem h
  rw [htoken] at hlast
  have hfirst := State.stepStart_of_run State.isAtKeyword
    (fun _ c hstart hstate ↦ State.isAtKeyword_step c hstart hstate) hrun
    (State.isAtKeyword_of_token hlast)
  exact ⟨rest, by rw [htext, State.isAtKeyword_stepStart hfirst]⟩

/-- A comment begins with a slash. -/
theorem text_of_comment {text : List Char} {lexeme : Lexeme} (h : lexeme ∈ lexemes text)
    (hcomment : lexeme.token = .comment) : ∃ rest, lexeme.text = '/' :: rest := by
  obtain ⟨c, rest, last, htext, hrun, hlast⟩ := exists_run_of_mem h
  rw [hcomment] at hlast
  have hfirst := State.stepStart_of_run State.isComment
    (fun _ c hstart hstate ↦ State.isComment_step c hstart hstate) hrun
    (State.isComment_of_token hlast)
  exact ⟨rest, by rw [htext, State.isComment_stepStart hfirst]⟩

/-- Blank space consists of spaces and line breaks. -/
theorem isSpace_of_blank {text : List Char} {lexeme : Lexeme} (h : lexeme ∈ lexemes text)
    (hblank : lexeme.token = .blank) : ∀ c ∈ lexeme.text, isSpace c := by
  obtain ⟨c, rest, last, htext, hrun, hlast⟩ := exists_run_of_mem h
  rw [hblank] at hlast
  have hfirst := State.stepStart_of_run State.isBlank
    (fun _ c hstart hstate ↦ State.isBlank_step c hstart hstate) hrun
    (State.isBlank_of_token hlast)
  obtain ⟨hc, hstep⟩ := State.isSpace_of_isBlank_stepStart hfirst
  rw [hstep] at hrun
  rw [htext]
  exact List.forall_mem_cons.2 ⟨hc, State.isSpace_of_run_blank hrun⟩

/-- A lexeme in which nothing is open ends with a semicolon only if it is one or if the semicolon is
escaped. -/
theorem eq_semicolon_or_escaped {text : List Char} {lexeme : Lexeme} (h : lexeme ∈ lexemes text)
    (hends : lexeme.endsInside = false) (hlast : lexeme.text.getLast? = some ';') :
    lexeme.token = .semicolon ∨ ['\\', ';'] <:+ lexeme.text := by
  obtain ⟨c, rest, last, htext, hrun, htoken⟩ := exists_run_of_mem h
  have hopen : last.isOpen = false := by
    have hstart : State.start.run lexeme.text = some last := by
      rw [htext]
      exact hrun
    rw [endsInside, hstart, Option.any_some] at hends
    exact hends
  rw [htext] at hlast ⊢
  rcases List.eq_nil_or_concat' rest with rfl | ⟨front, d, rfl⟩
  · obtain rfl := Option.some.inj hlast
    obtain rfl := Option.some.inj hrun
    left
    rcases htoken with haccept | hfinish
    · exact (Option.some.inj haccept).symm
    · exact (Option.some.inj hfinish).symm
  · rw [← List.cons_append, List.getLast?_concat] at hlast
    obtain rfl := Option.some.inj hlast
    obtain ⟨middle, hmiddle, hstep⟩ := State.run_concat_eq_some_iff.1 hrun
    have hescaping := State.isEscaping_of_step_semicolon
      (State.run_ne_start (State.stepStart_ne_start c) hmiddle) (State.isMisquoted_run hmiddle)
      hstep hopen
    obtain ⟨before, hbefore⟩ :=
      List.getLast?_eq_some_iff.1 (State.getLast?_of_isEscaping hmiddle hescaping)
    right
    rw [← List.cons_append, hbefore]
    exact ⟨before, by simp⟩

end Lexeme

theorem isBlank_of_isSpace {c : Char} (h : isSpace c) : Text.isBlank c := by
  simp only [isSpace, isNewline, Bool.or_eq_true, beq_iff_eq, or_assoc] at h
  rcases h with rfl | rfl | rfl | rfl | rfl <;> rfl

theorem lexemes_cons_space {c : Char} (hc : isSpace c) (text : List Char) :
    lexemes (c :: text) =
      ⟨.blank, c :: text.takeWhile isSpace⟩ :: lexemes (text.dropWhile isSpace) := by
  apply lexemes_of_next?
  have hstep : State.start.step c = some .blank := by
    simp [State.step, State.stepStart, hc]
  rw [Lexeme.next?, State.munch, hstep, Option.bind_some, State.munch_blank]
  rfl

end TouchTarget.Css
