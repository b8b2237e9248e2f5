import Mathlib.Data.List.Basic
import TouchTarget.Proofs.Css.Spelling
import TouchTarget.Rules.Reading

/-!
# At-rules

An at-rule begins with its keyword, and the text of the keyword begins with a sign that no selector
begins with. What a media rule holds is therefore no rule by itself, and the base rules of a sheet
are those that are found by passing over all at-rules.
-/

namespace TouchTarget

open Text Css

/-- Trimming leaves the first character if it is not blank. -/
theorem Text.head?_trim_cons {c : Char} (hc : isBlank c = false) (rest : List Char) :
    (trim (c :: rest)).head? = some c := by
  have hstart : trimStart (c :: rest) = c :: rest := List.dropWhile_cons_of_neg (by simp [hc])
  have hlast : (trimStart (rest.reverse ++ [c])).getLast? = some c := by
    rw [trimStart, List.dropWhile_append]
    split
    · rw [List.dropWhile_cons_of_neg (by simp [hc])]
      rfl
    · rw [List.getLast?_concat]
  rw [trim, hstart, trimEnd, List.reverse_cons, List.head?_reverse, hlast]

namespace Css

namespace Statement

/-- A statement is made of components that were there. -/
theorem mem_of_mem_split {skips ends : Component → Bool} {head components : List Component}
    {statement : Statement} (h : statement ∈ split skips ends head components)
    {component : Component}
    (hcomponent : component ∈ statement.head ++ statement.terminator?.toList) :
    component ∈ head ∨ component ∈ components := by
  induction components generalizing head with
  | nil =>
    rw [split] at h
    split at h
    · cases h
    · obtain rfl := List.mem_singleton.1 h
      rw [Option.toList_none, List.append_nil] at hcomponent
      exact .inl (List.mem_reverse.1 hcomponent)
  | cons first components ih =>
    rw [split] at h
    split at h
    · rcases ih h with hnil | hmem
      · cases hnil
      · exact .inr (List.mem_cons_of_mem _ hmem)
    · split at h
      · rcases List.mem_cons.1 h with rfl | hrest
        · rw [Option.toList_some, List.mem_append, List.mem_singleton] at hcomponent
          rcases hcomponent with hhead | rfl
          · exact .inl (List.mem_reverse.1 hhead)
          · exact .inr List.mem_cons_self
        · rcases ih hrest with hnil | hmem
          · cases hnil
          · exact .inr (List.mem_cons_of_mem _ hmem)
      · rcases ih h with hhead | hmem
        · rcases List.mem_cons.1 hhead with rfl | hhead
          · exact .inr List.mem_cons_self
          · exact .inl hhead
        · exact .inr (List.mem_cons_of_mem _ hmem)

/-- The lexemes outside the blocks of a statement are lexemes of the text. -/
theorem mem_lexemes_of_mem_head {text : List Char} {statement : Statement}
    (h : statement ∈ rulesIn (components text)) {lexeme : Lexeme}
    (hlexeme : .leaf lexeme ∈ statement.head) : lexeme ∈ lexemes text := by
  rcases mem_of_mem_split h (List.mem_append_left _ hlexeme) with hnil | hmem
  · cases hnil
  · exact Component.mem_lexemes hmem List.mem_cons_self

/-- No statement that begins with an at-keyword is a rule with a selector. -/
theorem rule?_of_atKeyword {text : List Char} {statement : Statement}
    (h : statement ∈ rulesIn (components text)) {name spelling : List Char}
    {condition : List Component}
    (hhead : statement.head = .leaf ⟨.atKeyword name, spelling⟩ :: condition) :
    statement.rule? = none := by
  have hlexeme : ⟨.atKeyword name, spelling⟩ ∈ lexemes text :=
    mem_lexemes_of_mem_head h (hhead ▸ List.mem_cons_self)
  obtain ⟨rest, hspelling⟩ : ∃ rest, spelling = '@' :: rest :=
    Lexeme.text_of_atKeyword hlexeme rfl
  have hselector : (trim statement.headText).head? = some '@' := by
    rw [headText, hhead, hspelling]
    exact head?_trim_cons rfl _
  unfold rule?
  simp only [hselector, decide_true, Bool.or_true, if_true]
  cases statement.body? <;> rfl

theorem rule?_of_mediaCondition? {text : List Char} {statement : Statement}
    (h : statement ∈ rulesIn (components text)) (hmedia : statement.mediaCondition?.isSome) :
    statement.rule? = none := by
  unfold mediaCondition? at hmedia
  split at hmedia
  next name spelling condition hhead => exact rule?_of_atKeyword h hhead
  next => cases hmedia

end Statement

end Css

namespace StyleSheet

/-! ## The base rules -/

/-- A media rule leaves the base as it is, and any other rule is inserted into it. -/
theorem base_read {statement : Statement}
    (h : statement.mediaCondition?.isSome → statement.rule? = none) (sheet : StyleSheet) :
    (sheet.read statement).base = sheet.base.insertAll statement.rule?.toList := by
  unfold read
  cases hmedia : statement.mediaCondition? with
  | some condition =>
    rw [h (by rw [hmedia]; rfl)]
    simp only
    split <;> rfl
  | none =>
    cases statement.rule? with
    | none => rfl
    | some rule => rfl

theorem base_foldl_read {statements : List Statement}
    (h : ∀ statement ∈ statements, statement.mediaCondition?.isSome → statement.rule? = none)
    (sheet : StyleSheet) :
    (statements.foldl read sheet).base =
      sheet.base.insertAll (statements.filterMap Statement.rule?) := by
  induction statements generalizing sheet with
  | nil => rfl
  | cons statement statements ih =>
    obtain ⟨hstatement, hstatements⟩ := List.forall_mem_cons.1 h
    rw [List.foldl_cons, ih hstatements, base_read hstatement]
    cases hrule : statement.rule? with
    | none => rw [List.filterMap_cons_none hrule]; rfl
    | some rule => rw [List.filterMap_cons_some hrule]; rfl

theorem base_parse_eq (text : String) : (parse text).base = RuleSet.parse text := by
  have hmedia : ∀ statement ∈ Statement.rulesIn (components text.toList),
      statement.mediaCondition?.isSome → statement.rule? = none :=
    fun statement h ↦ Statement.rule?_of_mediaCondition? h
  exact base_foldl_read hmedia ∅

/-- The rules of a text come from the statements that are no media rules. -/
theorem filterMap_rule?_rulesIn (text : String) :
    (Statement.rulesIn (components text.toList)).filterMap Statement.rule? =
      ((Statement.rulesIn (components text.toList)).filter
        (·.mediaCondition?.isNone)).filterMap Statement.rule? := by
  rw [List.filterMap_filter]
  apply List.filterMap_congr
  intro statement h
  cases hcondition : statement.mediaCondition? with
  | none => rfl
  | some condition => exact Statement.rule?_of_mediaCondition? h (by rw [hcondition]; rfl)

end StyleSheet

end TouchTarget
