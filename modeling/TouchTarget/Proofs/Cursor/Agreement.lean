import TouchTarget.Proofs.Cursor.Sheets
import TouchTarget.Proofs.Rules.OnePass

/-!
# The loops over rules and over sheets agree

A sheet and a list of rules are read by two loops. One looks for media rules, reads their conditions
and takes in their rules; the other passes over all at-rules alike. With each turn both loops read
the same part of the text, whatever it is, and so both find the same rules outside media rules.
-/

namespace TouchTarget

open Css

namespace Css

variable (fallbacks : Fallbacks)

/-- The delimiter is the same one from each component in front of it. -/
theorem Cursor.Reaches.atDelimiter_eq {start behind : Cursor} {passed : List Component}
    (h : start.Reaches behind passed) {delimiters : List Delimiter}
    (hpasses : ∀ component ∈ passed, component.passes delimiters) :
    start.atDelimiter delimiters = behind.atDelimiter delimiters := by
  have hall : ∀ component ∈ passed, component.passes (delimiters ++ start.stops) :=
    fun component hmem ↦
      Component.passes_append_iff.2 ⟨hpasses component hmem, h.passes component hmem⟩
  have hupcoming : (start.atDelimiter delimiters).upcoming =
      (behind.atDelimiter delimiters).upcoming := by
    rw [upcoming_atDelimiter, upcoming_atDelimiter, h.upcoming_eq, h.stops_eq,
      List.dropWhile_append_of_pos hall]
  have hrest : (start.atDelimiter delimiters).rest = (behind.atDelimiter delimiters).rest := by
    have hlexemes := congrArg Component.lexemesIn hupcoming
    rwa [lexemesIn_upcoming, lexemesIn_upcoming] at hlexemes
  have hstart : start.atDelimiter delimiters =
      ⟨(start.atDelimiter delimiters).rest, none, start.stops⟩ := rfl
  rw [hstart, hrest, ← h.stops_eq]
  rfl

/-- Behind a media rule the cursor is where it is behind any other rule with the same end. -/
theorem cursor_mediaBlock (sheet : StyleSheet) (rules : RuleSet) {start behind : Cursor}
    (h : start.atDelimiter ruleEnds = behind.atDelimiter ruleEnds) :
    (mediaBlock fallbacks sheet behind).cursor = (ruleBlock fallbacks rules start).cursor := by
  simp only [mediaBlock, ruleBlock, Cursor.untilBefore_snd, h]
  rcases ruleEnd_cases behind with ⟨-, hnext⟩ | ⟨lexeme, after, -, hnext, -⟩ |
    ⟨opener, closer?, block, -, hnext, -⟩
  · rw [hnext]
    rfl
  · rw [hnext]
    rfl
  · simp only [hnext, Cursor.skipBlock]
    split <;> split <;> simp only [Turn.cursor, Cursor.nested_snd]

theorem cursor_sheetStatement (sheet : StyleSheet) {start : Cursor} {component : Component}
    (h : start.StandsBefore component) :
    (sheetStatement fallbacks sheet start).cursor =
      (ruleBlock fallbacks sheet.base start).cursor := by
  unfold sheetStatement
  rcases h.mediaAfter?_cases with ⟨hmedia, -⟩ | ⟨behind, hmedia, hkeyword, hpasses, -⟩
  · rw [hmedia]
    cases ruleBlock fallbacks sheet.base start <;> rfl
  · have hkeywordPasses : ∀ first ∈ [component], first.passes ruleEnds := by simpa using hpasses
    rw [hmedia]
    exact cursor_mediaBlock fallbacks sheet sheet.base (hkeyword.atDelimiter_eq hkeywordPasses)

/-- Wherever both loops stand, a turn takes them to the same place. -/
theorem cursor_turn_sheetLoop (sheet : StyleSheet) (start : Cursor) :
    ((sheetLoop fallbacks).turn sheet start).cursor =
      ((ruleLoop fallbacks).turn sheet.base start).cursor := by
  change (guardedTurn (strayOr (sheetStatement fallbacks)) sheet start).cursor =
    (guardedTurn (strayOr (ruleBlock fallbacks)) sheet.base start).cursor
  unfold guardedTurn
  rw [Cursor.isExhausted_skipTrivia]
  cases hend : start.isExhausted with
  | true => rfl
  | false =>
    obtain ⟨component, hcomponent⟩ := Cursor.exists_standsBefore hend
    rw [if_neg Bool.false_ne_true, if_neg Bool.false_ne_true, strayOr, strayOr]
    cases start.skipTrivia.strayAfter? with
    | some behind => rfl
    | none => exact cursor_sheetStatement fallbacks sheet hcomponent

end Css

/-- The base rules of any text are the rules that are found in it by passing over all at-rules. They
come from the statements that are no media rules, all of which count. The loop that reads the sheet
and the loop that reads the rules come to the same base in the same steps: wherever both stand, a
turn takes them to the same place. -/
theorem StyleSheet.base_parse (text : String) :
    (parse text).base = RuleSet.parse text ∧
      (parse text).base = .ofList (((Statement.rulesIn (components text.toList)).filter
        (·.mediaCondition?.isNone)).filterMap Statement.rule?) ∧
      ∀ fallbacks : Fallbacks,
        ((sheetLoop fallbacks).run ∅ (.atStart text)).1.base =
          ((ruleLoop fallbacks).run ∅ (.atStart text)).1 ∧
        ∀ sheet start, ((sheetLoop fallbacks).turn sheet start).cursor =
          ((ruleLoop fallbacks).turn sheet.base start).cursor := by
  have hbase := base_parse_eq text
  refine ⟨hbase, ?_, fun fallbacks ↦ ⟨?_, cursor_turn_sheetLoop fallbacks⟩⟩
  · rw [hbase, RuleSet.parse, RuleSet.ofComponents, filterMap_rule?_rulesIn]
  · rw [sheetLoop_run, ruleLoop_run, hbase]

/-- The rules of a text are those of the blocks that one pass over its lexemes finds, inserted in
the order of the text, without those that have no selector and those of at-rules. The loop that
reads the rules finds the same. -/
theorem RuleSet.parse_eq_foldl_passages (text : String) :
    RuleSet.parse text =
      ((passages (.head []) [] (lexemes text.toList)).filter (·.isRule)).foldl
        (fun rules passage ↦ rules.insert (.ofList passage.selector) passage.declarations) ∅ ∧
      ∀ fallbacks : Fallbacks, ((ruleLoop fallbacks).run ∅ (.atStart text)).1 =
        ((passages (.head []) [] (lexemes text.toList)).filter (·.isRule)).foldl
          (fun rules passage ↦ rules.insert (.ofList passage.selector) passage.declarations) ∅ := by
  refine ⟨parse_eq_foldl text, fun fallbacks ↦ ?_⟩
  rw [ruleLoop_run, parse_eq_foldl]

end TouchTarget
