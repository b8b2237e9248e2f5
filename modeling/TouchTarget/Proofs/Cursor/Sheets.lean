import Mathlib.Data.List.TakeWhile
import TouchTarget.Proofs.Cursor.Lengths
import TouchTarget.Proofs.Rules.MediaLetterCase

/-!
# Sheets read with a cursor

A sheet is read with a loop over its statements, of which the media rules are read with the readers
of conditions and of lists of rules. The main statement says that all these loops move on with each
turn as long as there is anything to be read, that they are left only at the end, and that every
reader that is given a part of the text reads all of it. No result is given up, so that the sheet of
a text, its rules and the length of a value come out whatever would take the place of such a result.
-/

namespace TouchTarget

open Text Css

namespace Css

variable (fallbacks : Fallbacks)

/-- The cursor behind the keyword of a media rule. -/
def Cursor.mediaAfter? (start : Cursor) : Option Cursor :=
  match start.next with
  | (some (.atKeyword name), behind) =>
    if sameLetters name ['m', 'e', 'd', 'i', 'a'] then some behind else none
  | _ => none

/-- Reads a media rule behind its keyword. -/
def mediaBlock (sheet : StyleSheet) (start : Cursor) : Turn StyleSheet StyleSheet :=
  let condition := start.untilBefore ruleEnds (threshold fallbacks)
  match condition.2.next with
  | (some (.opener .curly), block) =>
    match condition.1.getD fallbacks.threshold with
    | some maxWidth =>
      let read := block.nested (ruleList fallbacks)
      .again (sheet.addConditional maxWidth (read.1.getD fallbacks.rules)) read.2
    | none => .again sheet block.skipBlock
  | (_, behind) => .again sheet behind

/-- Reads a media rule or a rule of the base. -/
def sheetStatement (sheet : StyleSheet) (start : Cursor) : Turn StyleSheet StyleSheet :=
  match start.mediaAfter? with
  | some behind => mediaBlock fallbacks sheet behind
  | none =>
    match ruleBlock fallbacks sheet.base start with
    | .again base behind => .again { sheet with base := base } behind
    | .stop base behind => .stop { sheet with base := base } behind

/-! ## Media rules -/

/-- What is in front of a delimiter of a statement is in front of it from each of its components. -/
theorem Cursor.Reaches.within {start behind : Cursor} {passed : List Component}
    (h : start.Reaches behind passed) {delimiters : List Delimiter}
    (hpasses : ∀ component ∈ passed, component.passes delimiters) :
    (start.within delimiters).view = passed ++ (behind.within delimiters).view ∧
      (start.atDelimiter delimiters).view = (behind.atDelimiter delimiters).view := by
  have hwithin : (start.within delimiters).view = passed ++ (behind.within delimiters).view := by
    have hall : ∀ component ∈ passed, component.passes (delimiters ++ start.stops) :=
      fun component hmem ↦
        Component.passes_append_iff.2 ⟨hpasses component hmem, h.passes component hmem⟩
    have hstops : (behind.within delimiters).stops = delimiters ++ start.stops := by
      rw [← h.stops_eq]
      rfl
    rw [view, upcoming_within, h.upcoming_eq, view, upcoming_within, hstops]
    exact List.takeWhile_append_of_pos hall
  refine ⟨hwithin, ?_⟩
  have hstart := (start.reaches_atDelimiter delimiters).view_eq
  rw [h.view_eq, (behind.reaches_atDelimiter delimiters).view_eq, hwithin, List.append_assoc,
    List.append_cancel_left_eq, List.append_cancel_left_eq] at hstart
  exact hstart.symm

/-- A media rule is taken in, whatever ends it. -/
theorem mediaBlock_cases (sheet : StyleSheet) (start : Cursor) {head : List Component}
    (hcondition : ∀ end?, Statement.mediaCondition? ⟨head, end?⟩ =
      some (start.within ruleEnds).view) :
    ∃ behind passed, mediaBlock fallbacks sheet start =
        .again (sheet.read ⟨head, (start.atDelimiter ruleEnds).view.head?⟩) behind ∧
      start.Reaches behind passed ∧ behind.pending? = none ∧
      behind.view = (start.atDelimiter ruleEnds).view.tail := by
  have hat := start.reaches_atDelimiter ruleEnds
  simp only [mediaBlock, Cursor.untilBefore_snd,
    Cursor.untilBefore_fst _ _ (isExhaustive_threshold fallbacks), threshold_read,
    Option.getD_some]
  rcases ruleEnd_cases start with ⟨hview, hnext⟩ | ⟨lexeme, behind, -, hnext, hreach, hpending⟩ |
    ⟨opener, closer?, block, hopener, hnext, hreach, hpending⟩
  · have hskip := (start.atDelimiter ruleEnds).reaches_skipTrivia
    have hnone : (start.atDelimiter ruleEnds).skipTrivia.view = [] := by
      have hsplit := hskip.view_eq
      rw [hview] at hsplit
      exact (List.append_eq_nil_iff.1 hsplit.symm).2
    rw [hnext, hview, List.head?_nil, StyleSheet.read_of_body?_eq_none rfl]
    exact ⟨_, _, rfl, hat.trans hskip, Cursor.pending?_settled _, hnone⟩
  · rw [hnext, hreach.view_eq, List.singleton_append, List.head?_cons,
      StyleSheet.read_of_body?_eq_none rfl]
    exact ⟨behind, _, rfl, hat.trans hreach, hpending, rfl⟩
  · have hbody := Statement.body?_of_curly hopener head (block.inside .curly).view closer?
    have hsettled := block.reaches_settled
    refine ⟨block.settled, _, ?_, (hat.trans hreach).trans hsettled,
      Cursor.pending?_settled block, ?_⟩
    · rw [hnext, hreach.view_eq, List.singleton_append, List.head?_cons, StyleSheet.read,
        hcondition, hbody]
      simp only [Cursor.skipBlock, Cursor.nested_snd, Option.getD_some,
        Cursor.nested_fst hpending (isExhaustive_ruleList fallbacks), ruleList_read]
      cases threshold? (start.within ruleEnds).view <;> rfl
    · rw [hreach.view_eq, hsettled.view_eq]
      rfl

/-- The keyword of a media rule is a component of its own, and the condition follows it. -/
theorem Cursor.StandsBefore.mediaAfter?_cases {start : Cursor} {component : Component}
    (h : start.StandsBefore component) :
    (start.mediaAfter? = none ∧
      ∀ more end?, Statement.mediaCondition? ⟨component :: more, end?⟩ = none) ∨
    ∃ behind, start.mediaAfter? = some behind ∧ start.Reaches behind [component] ∧
      component.passes ruleEnds ∧ behind.IsPast start ∧
      ∀ more end?, Statement.mediaCondition? ⟨component :: more, end?⟩ = some more := by
  obtain ⟨behind, hnext, hreach, hread, hpast⟩ := h.exists_next
  unfold mediaAfter?
  rw [hnext]
  cases component with
  | block opener body closer? =>
    obtain ⟨bracket, hopens, -⟩ := hread
    rw [Component.first]
    rcases Token.eq_of_opens hopens with ⟨name, htoken⟩ | htoken <;> rw [htoken] <;>
      exact .inl ⟨rfl, fun _ _ ↦ rfl⟩
  | leaf lexeme =>
    obtain ⟨token, text⟩ := lexeme
    cases token with
    | atKeyword name =>
      rw [Component.first]
      by_cases hmedia : sameLetters name ['m', 'e', 'd', 'i', 'a']
      · exact .inr ⟨behind, if_pos hmedia, hreach, rfl, hpast, fun _ _ ↦ if_pos hmedia⟩
      · exact .inl ⟨if_neg hmedia, fun _ _ ↦ if_neg hmedia⟩
    | _ => exact .inl ⟨rfl, fun _ _ ↦ rfl⟩

/-! ## The statements of a sheet -/

theorem advances_sheetStatement (sheet : StyleSheet) (start : Cursor) (component : Component)
    (h : start.StandsBefore component) : (sheetStatement fallbacks sheet start).Advances start := by
  unfold sheetStatement
  rcases h.mediaAfter?_cases with ⟨hmedia, -⟩ | ⟨behind, hmedia, hkeyword, -, hpast, hcondition⟩
  · have hrule := advances_ruleBlock fallbacks sheet.base start component h
    rw [hmedia]
    cases hturn : ruleBlock fallbacks sheet.base start with
    | again base behind =>
      rw [hturn] at hrule
      exact ⟨hrule.reaches, hrule.isPast, nofun⟩
    | stop base behind =>
      rw [hturn] at hrule
      exact ⟨hrule.reaches, hrule.isPast, hrule.isExhausted⟩
  · obtain ⟨finish, passed, hturn, hreach, -⟩ :=
      mediaBlock_cases fallbacks sheet behind (hcondition (behind.within ruleEnds).view)
    rw [hmedia]
    simp only [hturn]
    exact ⟨⟨_, hkeyword.trans hreach⟩, hpast.of_suffix hreach.suffix, nofun⟩

/-- The loop that reads a sheet. -/
def sheetLoop : Loop StyleSheet StyleSheet :=
  statementLoop (advances_sheetStatement fallbacks)

theorem isExhaustive_sheetLoop : (sheetLoop fallbacks).IsExhaustive :=
  isExhaustive_statementLoop (advances_sheetStatement fallbacks)

/-- The statements of components, taken in by a sheet. -/
def sheetOver (sheet : StyleSheet) (components : List Component) : StyleSheet :=
  (Statement.rulesIn components).foldl StyleSheet.read sheet

theorem outcome_sheetStatement (sheet : StyleSheet) (start : Cursor) (component : Component)
    (h : start.StandsBefore component) (hfiller : component.isFiller = false) :
    (sheetStatement fallbacks sheet start).outcome sheetOver = sheetOver sheet start.view := by
  obtain ⟨more, hview⟩ := h.view
  have hat := start.reaches_atDelimiter ruleEnds
  rw [sheetOver, h.rulesIn_view hfiller, List.foldl_cons, sheetStatement]
  rcases h.mediaAfter?_cases with
    ⟨hmedia, hnone⟩ | ⟨behind, hmedia, hkeyword, hpasses, -, hcondition⟩
  · have hnone (end? : Option Component) :
        Statement.mediaCondition? ⟨(start.within ruleEnds).view, end?⟩ = none := by
      cases hfront : (start.within ruleEnds).view with
      | nil => rfl
      | cons first front =>
        have hsplit := hat.view_eq
        rw [hview, hfront] at hsplit
        obtain ⟨rfl, -⟩ := List.cons.inj hsplit
        exact hnone front end?
    rw [hmedia, StyleSheet.read, hnone]
    rcases ruleBlock_cases fallbacks h.pending? sheet.base with
      ⟨behind, hturn, hempty, -⟩ | ⟨last, behind, hturn, hreach, -⟩
    · rw [hturn, hempty]
      rfl
    · rw [hturn, hreach.view_eq, List.singleton_append, List.head?_cons, List.tail_cons]
      cases Statement.rule? ⟨(start.within ruleEnds).view, some last⟩ <;> rfl
  · have hkeywordPasses : ∀ first ∈ [component], first.passes ruleEnds := by simpa using hpasses
    obtain ⟨hfront, hbehind⟩ := hkeyword.within hkeywordPasses
    obtain ⟨finish, passed, hturn, -, -, hfinish⟩ :=
      mediaBlock_cases fallbacks sheet behind (hcondition (behind.within ruleEnds).view)
    rw [hmedia, hfront, hbehind]
    simp only [hturn]
    rw [Turn.outcome, hfinish]
    rfl

/-! ## Texts -/

/-- The cursor at the beginning of a text. -/
def Cursor.atStart (text : String) : Cursor where
  rest := lexemes text.toList

theorem Cursor.view_atStart (text : String) : (atStart text).view = components text.toList := by
  rw [view, upcoming, settled_of_pending? rfl]
  exact List.takeWhile_eq_self_iff.2 fun _ _ ↦ rfl

/-- A cursor in a text that is farther on than another one has fewer characters behind it. -/
theorem Cursor.IsPast.length_joined_lt {text : List Char} {start finish : Cursor}
    (h : finish.IsPast start) (htext : start.rest <:+ lexemes text) :
    (Lexeme.joined finish.rest).length < (Lexeme.joined start.rest).length := by
  obtain ⟨taken, hne, hrest⟩ := h
  obtain ⟨lexeme, taken, rfl⟩ := List.exists_cons_of_ne_nil hne
  have hmem : lexeme ∈ lexemes text := by
    apply htext.subset
    rw [hrest]
    exact List.mem_cons_self
  obtain ⟨c, spelling, last, hspelling, -⟩ := Lexeme.exists_run_of_mem hmem
  rw [hrest, Lexeme.joined_append, Lexeme.joined_cons, hspelling]
  simp only [List.length_append, List.length_cons]
  omega

/-- The loop finds the sheet of a text. -/
theorem sheetLoop_run (text : String) :
    ((sheetLoop fallbacks).run ∅ (.atStart text)).1 = StyleSheet.parse text := by
  have hrun : ((sheetLoop fallbacks).run ∅ (.atStart text)).1 =
      sheetOver ∅ (Cursor.atStart text).view := by
    apply statementLoop_run
    · intro sheet component components h
      rw [sheetOver, sheetOver, rulesIn_cons_of_isFiller h]
    · exact fun _ ↦ rfl
    · exact outcome_sheetStatement fallbacks
  rw [hrun, Cursor.view_atStart]
  rfl

/-- The loop finds the rules of a text. -/
theorem ruleLoop_run (text : String) :
    ((ruleLoop fallbacks).run ∅ (.atStart text)).1 = RuleSet.parse text := by
  have hread := ruleList_read fallbacks (.atStart text)
  rwa [Cursor.view_atStart] at hread

/-- Every loop moves on with each turn until it is at the end, and every reader leaves nothing of
what it is given unread. To move on is to have fewer characters of the text ahead. The sheet and the
rules of a text and the length of a value therefore do not depend on what would take the place of
the result of a reader that leaves something. -/
theorem readers_leave_nothing_unread (fallbacks : Fallbacks) :
    ((sheetLoop fallbacks).IsExhaustive ∧ (ruleLoop fallbacks).IsExhaustive ∧
      declarationLoop.IsExhaustive) ∧
    (∀ (text : List Char) (start finish : Cursor), start.rest <:+ lexemes text →
      finish.IsPast start →
        (Lexeme.joined finish.rest).length < (Lexeme.joined start.rest).length) ∧
    (∀ rules start, (ruleBlock fallbacks rules start).goesOn ∨
      (ruleBlock fallbacks rules start).cursor.IsAtEnd) ∧
    (drain.IsExhaustive ∧ declarations.IsExhaustive ∧ (ruleList fallbacks).IsExhaustive ∧
      (threshold fallbacks).IsExhaustive ∧ feature.IsExhaustive ∧
      ∀ levels, (lengthWithin fallbacks levels).thenDrain.IsExhaustive) ∧
    ∀ text : String,
      ((sheetLoop fallbacks).run ∅ (.atStart text)).1 = StyleSheet.parse text ∧
      ((ruleLoop fallbacks).run ∅ (.atStart text)).1 = RuleSet.parse text ∧
      ∀ levels, ((lengthWithin fallbacks ((lexemes text.toList).length + 1 + levels)).read
        (.atStart text)).1 = length? text := by
  refine ⟨⟨isExhaustive_sheetLoop fallbacks, isExhaustive_ruleLoop fallbacks,
      isExhaustive_declarationLoop⟩,
    fun _ _ _ htext hpast ↦ hpast.length_joined_lt htext,
    goesOn_ruleBlock_or fallbacks,
    ⟨isExhaustive_drain, isExhaustive_declarations, isExhaustive_ruleList fallbacks,
      isExhaustive_threshold fallbacks, isExhaustive_feature,
      fun levels ↦ Reader.isExhaustive_thenDrain _⟩,
    fun text ↦ ⟨sheetLoop_run fallbacks text, ruleLoop_run fallbacks text, fun levels ↦ ?_⟩⟩
  have henough : (Cursor.atStart text).rest.length < (lexemes text.toList).length + 1 + levels := by
    change (lexemes text.toList).length < _
    omega
  rw [lengthWithin_read fallbacks henough, Cursor.view_atStart]
  rfl

end Css

end TouchTarget
