import Mathlib.Data.List.Basic
import TouchTarget.Proofs.Cascade.Activity
import TouchTarget.Proofs.Rules.AtRules
import TouchTarget.Proofs.Rules.Concatenation

/-!
# How a sheet came about

A rule-set comes about by inserting rules and merging other rule-sets, a sheet by such changes to
its base, by rules added for a width, and by loading a text or a document in its place. The history
of a sheet keeps everything that was given to it in order, and merges nothing.

A sheet is at all times what its history says. The main statement draws from this what holds of the
conditional rules behind any edits: their widths are those given since the last load, in order and
each of them once, their rules are merged in the order in which they were given, and those that
apply to a viewport are the wide end of the list.
-/

namespace TouchTarget

open Css

/-- A selector and what one block declares for it. -/
abbrev Rule := String × Declarations

namespace RuleSet

/-- How a rule-set came about. -/
inductive Origin
  /-- The rule-set was there, and nothing is known of how it came about. -/
  | given (rules : RuleSet)
  | read (components : List Component)
  | insert (before : Origin) (selector : String) (declarations : Declarations)
  | merge (before others : Origin)

namespace Origin

def ruleSet : Origin → RuleSet
  | given rules => rules
  | read components => .ofComponents components
  | insert before selector declarations => before.ruleSet.insert selector declarations
  | merge before others => before.ruleSet.merge others.ruleSet

/-- The rules in the order in which they came, none of them merged with another. -/
def rules : Origin → List Rule
  | given rules => rules.toList
  | read components => (Statement.rulesIn components).filterMap Statement.rule?
  | insert before selector declarations => before.rules ++ [(selector, declarations)]
  | merge before others => before.rules ++ others.rules

end Origin

/-- The rules of all sets, the later ones winning. -/
def mergeAll (sets : List RuleSet) : RuleSet :=
  sets.foldl merge ∅

theorem insertAll_append (rules : RuleSet) (entries more : List Rule) :
    rules.insertAll (entries ++ more) = (rules.insertAll entries).insertAll more :=
  List.foldl_append

/-- Rules inserted into the second of two rule-sets are inserted into both together. -/
theorem merge_insertAll (rules others : RuleSet) (entries : List Rule) :
    rules.merge (others.insertAll entries) = (rules.merge others).insertAll entries := by
  induction entries generalizing others with
  | nil => rfl
  | cons entry entries ih => rw [insertAll_cons, insertAll_cons, ih, merge_insert]

theorem merge_ofList (rules : RuleSet) (entries : List Rule) :
    rules.merge (ofList entries) = rules.insertAll entries := by
  rw [ofList, merge_insertAll, merge_empty]

/-- Merging rule-sets on the way makes no difference: all that counts is the order of the rules. -/
theorem Origin.ruleSet_eq_ofList (origin : Origin) : origin.ruleSet = ofList origin.rules := by
  induction origin with
  | given rules => exact (empty_merge rules).symm
  | read components => rfl
  | insert before selector declarations ih =>
    rw [ruleSet, rules, ih, ofList, ofList, insertAll_append, insertAll_cons, insertAll_nil]
  | merge before others ihBefore ihOthers =>
    rw [ruleSet, rules, ihBefore, ihOthers, merge_ofList, ofList, ofList, insertAll_append]

theorem mergeAll_concat (sets : List RuleSet) (rules : RuleSet) :
    mergeAll (sets ++ [rules]) = (mergeAll sets).merge rules :=
  List.foldl_concat ..

theorem mergeAll_eq_ofList (origins : List Origin) :
    mergeAll (origins.map Origin.ruleSet) = ofList (origins.flatMap Origin.rules) := by
  have hfold (rules : RuleSet) : (origins.map Origin.ruleSet).foldl merge rules =
      rules.insertAll (origins.flatMap Origin.rules) := by
    induction origins generalizing rules with
    | nil => rfl
    | cons origin origins ih =>
      rw [List.map_cons, List.foldl_cons, ih, origin.ruleSet_eq_ofList, merge_ofList,
        List.flatMap_cons, insertAll_append]
  exact hfold ∅

end RuleSet

/-! ## Edits and their history -/

/-- The rules that a statement adds for a width, if it is a media rule with a threshold. -/
def Css.Statement.addition? (statement : Statement) : Option (Pixels × RuleSet.Origin) :=
  statement.mediaCondition?.bind fun condition ↦
    statement.body?.bind fun body ↦
      (threshold? condition).map fun maxWidth ↦ (maxWidth, .read body)

namespace StyleSheet

inductive Edit
  | insertBase (selector : String) (declarations : Declarations)
  | mergeBase (others : RuleSet.Origin)
  | addConditional (maxWidth : Pixels) (rules : RuleSet.Origin)
  | load (text : String)
  | loadDocument (document : String)

def edit (sheet : StyleSheet) : Edit → StyleSheet
  | .insertBase selector declarations => sheet.insertBase selector declarations
  | .mergeBase others => { sheet with base := sheet.base.merge others.ruleSet }
  | .addConditional maxWidth rules => sheet.addConditional maxWidth rules.ruleSet
  | .load text => parse text
  | .loadDocument document => ofDocument document

def ofEdits (edits : List Edit) : StyleSheet :=
  edits.foldl edit ∅

/-- What was given to a sheet since it was last loaded, the text that was loaded included. -/
structure History where
  base : List Rule := []
  /-- The rule-sets that were added, each for a width. -/
  additions : List (Pixels × RuleSet.Origin) := []

namespace History

/-- The rule-sets that were given for a width. -/
def givenFor (history : History) (maxWidth : Pixels) : List RuleSet.Origin :=
  (history.additions.filter (·.1 = maxWidth)).map (·.2)

def ofText (text : String) : History where
  base := (Statement.rulesIn (components text.toList)).filterMap Statement.rule?
  additions := (Statement.rulesIn (components text.toList)).filterMap Statement.addition?

def record (history : History) : Edit → History
  | .insertBase selector declarations =>
    { history with base := history.base ++ [(selector, declarations)] }
  | .mergeBase others => { history with base := history.base ++ others.rules }
  | .addConditional maxWidth rules =>
    { history with additions := history.additions ++ [(maxWidth, rules)] }
  | .load text => ofText text
  | .loadDocument document => ((Html.styleRegion? document).map ofText).getD {}

def ofEdits (edits : List Edit) : History :=
  edits.foldl record {}

theorem givenFor_concat (base : List Rule) (additions : List (Pixels × RuleSet.Origin))
    (addition : Pixels × RuleSet.Origin) (maxWidth : Pixels) :
    givenFor ⟨base, additions ++ [addition]⟩ maxWidth =
      givenFor ⟨base, additions⟩ maxWidth ++
        if addition.1 = maxWidth then [addition.2] else [] := by
  rw [givenFor, List.filter_append, List.map_append, List.filter_singleton]
  congr 1
  by_cases h : addition.1 = maxWidth
  · rw [if_pos h, decide_eq_true h]
    rfl
  · rw [if_neg h, decide_eq_false h]
    rfl

theorem givenFor_eq_nil_iff (history : History) (maxWidth : Pixels) :
    history.givenFor maxWidth = [] ↔ maxWidth ∉ history.additions.map (·.1) := by
  rw [givenFor, List.map_eq_nil_iff, List.filter_eq_nil_iff, List.mem_map]
  constructor
  · rintro h ⟨addition, hmem, rfl⟩
    exact h addition hmem (decide_eq_true rfl)
  · intro h addition hmem heq
    exact h ⟨addition, hmem, of_decide_eq_true heq⟩

end History

/-! ## A sheet is what its history says -/

/-- The rules of the sheet are those of the history, merged. -/
structure IsOf (sheet : StyleSheet) (history : History) : Prop where
  base : sheet.base = .ofList history.base
  conditional (maxWidth : Pixels) : sheet.conditional? maxWidth =
    if history.givenFor maxWidth = [] then none
    else some ⟨maxWidth, .mergeAll ((history.givenFor maxWidth).map (·.ruleSet))⟩

theorem read_of_mediaCondition? {statement : Statement} {condition : List Component}
    (h : statement.mediaCondition? = some condition) (sheet : StyleSheet) :
    sheet.read statement =
      match statement.addition? with
      | some (maxWidth, rules) => sheet.addConditional maxWidth rules.ruleSet
      | none => sheet := by
  rw [read, Statement.addition?, h, Option.bind_some]
  cases statement.body? with
  | none => rfl
  | some body => cases hthreshold : threshold? condition <;> simp only [hthreshold] <;> rfl

theorem isOf_empty : IsOf ∅ {} where
  base := rfl
  conditional := conditional?_empty

namespace IsOf

variable {sheet : StyleSheet} {base : List Rule} {additions : List (Pixels × RuleSet.Origin)}

theorem addConditional (h : sheet.IsOf ⟨base, additions⟩) (maxWidth : Pixels)
    (rules : RuleSet.Origin) :
    (sheet.addConditional maxWidth rules.ruleSet).IsOf ⟨base, additions ++ [(maxWidth, rules)]⟩ where
  base := h.base
  conditional width := by
    rw [conditional?_addConditional, h.conditional, History.givenFor_concat]
    by_cases hwidth : maxWidth = width
    · rw [if_pos hwidth, if_pos hwidth, if_neg (List.concat_ne_nil rules _), List.map_append,
        List.map_singleton, RuleSet.mergeAll_concat]
      split
      next hnil => rw [hnil, hwidth]; rfl
      next => rfl
    · rw [if_neg hwidth, if_neg hwidth, List.append_nil]

theorem insertAllBase (h : sheet.IsOf ⟨base, additions⟩) (rules : List Rule) :
    IsOf { sheet with base := sheet.base.insertAll rules } ⟨base ++ rules, additions⟩ where
  base := by rw [h.base, RuleSet.ofList, RuleSet.ofList, RuleSet.insertAll_append]
  conditional := h.conditional

/-- A statement adds to the sheet the rule and the addition that it holds. -/
theorem read (h : sheet.IsOf ⟨base, additions⟩) {statement : Statement}
    (hmedia : statement.mediaCondition?.isSome → statement.rule? = none) :
    (sheet.read statement).IsOf
      ⟨base ++ statement.rule?.toList, additions ++ statement.addition?.toList⟩ := by
  cases hcondition : statement.mediaCondition? with
  | some condition =>
    rw [hmedia (by rw [hcondition]; rfl), read_of_mediaCondition? hcondition, Option.toList_none,
      List.append_nil]
    cases statement.addition? with
    | none => rwa [Option.toList_none, List.append_nil]
    | some addition => exact h.addConditional addition.1 addition.2
  | none =>
    have haddition : statement.addition? = none := by
      rw [Statement.addition?, hcondition, Option.bind_none]
    rw [haddition, Option.toList_none, List.append_nil, StyleSheet.read, hcondition]
    cases statement.rule? with
    | none => rwa [Option.toList_none, List.append_nil]
    | some rule => exact h.insertAllBase [rule]

theorem foldl_read (h : sheet.IsOf ⟨base, additions⟩) {statements : List Statement}
    (hmedia : ∀ statement ∈ statements, statement.mediaCondition?.isSome →
      statement.rule? = none) :
    (statements.foldl StyleSheet.read sheet).IsOf ⟨base ++ statements.filterMap Statement.rule?,
      additions ++ statements.filterMap Statement.addition?⟩ := by
  induction statements generalizing sheet base additions with
  | nil => rwa [List.filterMap_nil, List.filterMap_nil, List.append_nil, List.append_nil]
  | cons statement statements ih =>
    obtain ⟨hstatement, hstatements⟩ := List.forall_mem_cons.1 hmedia
    have hread := ih (h.read hstatement) hstatements
    simp only [List.filterMap_eq_flatMap_toList, List.append_assoc] at hread ⊢
    exact hread

end IsOf

theorem isOf_parse (text : String) : (parse text).IsOf (.ofText text) :=
  isOf_empty.foldl_read fun _ h ↦ Statement.rule?_of_mediaCondition? h

/-- An edit keeps the sheet and its history together. -/
theorem IsOf.edit {sheet : StyleSheet} {history : History} (h : sheet.IsOf history) (edit : Edit) :
    (sheet.edit edit).IsOf (history.record edit) := by
  cases edit with
  | insertBase selector declarations => exact h.insertAllBase [(selector, declarations)]
  | mergeBase others =>
    rw [StyleSheet.edit, others.ruleSet_eq_ofList, RuleSet.merge_ofList]
    exact h.insertAllBase others.rules
  | addConditional maxWidth rules => exact h.addConditional maxWidth rules
  | load text => exact isOf_parse text
  | loadDocument document =>
    rw [StyleSheet.edit, History.record, ofDocument]
    cases Html.styleRegion? document with
    | none => exact isOf_empty
    | some text => exact isOf_parse text

theorem isOf_ofEdits (edits : List Edit) : (ofEdits edits).IsOf (.ofEdits edits) := by
  have hrun {sheet : StyleSheet} {history : History} (h : sheet.IsOf history) :
      (edits.foldl edit sheet).IsOf (edits.foldl History.record history) := by
    induction edits generalizing sheet history with
    | nil => exact h
    | cons edit edits ih => exact ih (h.edit edit)
  exact hrun isOf_empty

/-! ## The conditional rules behind any edits -/

/-- The history alone shows that the widths are kept: it says of each rule-set all there is. -/
theorem IsOf.isKeyed {sheet : StyleSheet} {history : History} (h : sheet.IsOf history) :
    sheet.conditional.IsKeyed := by
  intro maxWidth found hfound
  have hget : sheet.conditional? maxWidth = some found := hfound
  rw [h.conditional] at hget
  split at hget
  · cases hget
  · rw [← Option.some.inj hget]

theorem IsOf.isSome_conditional?_iff {sheet : StyleSheet} {history : History}
    (h : sheet.IsOf history) (maxWidth : Pixels) :
    (sheet.conditional? maxWidth).isSome ↔ maxWidth ∈ history.additions.map (·.1) := by
  rw [h.conditional, ← Decidable.not_iff_not, ← history.givenFor_eq_nil_iff]
  split
  next hnil => exact iff_of_true Bool.false_ne_true hnil
  next hne => exact iff_of_false (not_not_intro rfl) hne

theorem mem_activeAt_iff (sheet : StyleSheet) (width : Pixels)
    (conditional : ConditionalRuleSet) : conditional ∈ sheet.activeAt width ↔
      conditional ∈ sheet.conditionals ∧ width ≤ conditional.maxWidth := by
  rw [activeAt_eq_reverse_filter, List.mem_reverse, List.mem_filter,
    ConditionalRuleSet.isActiveAt, decide_eq_true_iff]

theorem map_maxWidth_conditionals (sheet : StyleSheet) :
    sheet.conditionals.map (·.maxWidth) = sheet.conditional.keys :=
  sheet.isKeyed.map_maxWidth

/-- Which rule-sets apply to a viewport shows in the widths under which the sheet has them. -/
theorem maxWidth_activeAt (sheet : StyleSheet) (width : Pixels) :
    (sheet.activeAt width).map (·.maxWidth) =
      (sheet.conditional.keys.filter (width ≤ ·)).reverse := by
  rw [← map_maxWidth_conditionals, activeAt_eq_reverse_filter, List.map_reverse, List.filter_map]
  rfl

/-- Behind any edits the conditional rule-sets stand in the order of their widths, no two of them
for the same one. There is one for exactly those widths for which rules were given since the last
load; the width that it knows is the one under which the sheet has it, and its rules are all that
were given for it, merged in that order. At every viewport those that apply are, from the widest to
the narrowest, the ones whose width is at least the viewport's: it makes no difference whether one
asks each rule-set or cuts the range of widths. -/
theorem conditionals_ofEdits (edits : List Edit) :
    let sheet := ofEdits edits
    let history := History.ofEdits edits
    (sheet.conditionals.Pairwise fun first second ↦ first.maxWidth < second.maxWidth) ∧
      (∀ conditional, conditional ∈ sheet.conditionals ↔
        sheet.conditional? conditional.maxWidth = some conditional) ∧
      (∀ maxWidth, (sheet.conditional? maxWidth).isSome ↔
        maxWidth ∈ history.additions.map (·.1)) ∧
      (∀ maxWidth conditional, sheet.conditional? maxWidth = some conditional →
        conditional.maxWidth = maxWidth) ∧
      (∀ maxWidth, sheet.conditional? maxWidth =
        if history.givenFor maxWidth = [] then none
        else some ⟨maxWidth, .mergeAll ((history.givenFor maxWidth).map (·.ruleSet))⟩) ∧
      sheet.conditionals.map (·.maxWidth) = sheet.conditional.keys ∧
      ∀ width : Pixels,
        sheet.activeAt width = (sheet.conditionals.filter (·.isActiveAt width)).reverse ∧
        (sheet.activeAt width).map (·.maxWidth) =
          (sheet.conditional.keys.filter (width ≤ ·)).reverse ∧
        ∀ conditional, conditional ∈ sheet.activeAt width ↔
          conditional ∈ sheet.conditionals ∧ width ≤ conditional.maxWidth := by
  intro sheet history
  have hsheet : sheet.IsOf history := isOf_ofEdits edits
  refine ⟨sheet.conditionals_pairwise, sheet.mem_conditionals_iff, hsheet.isSome_conditional?_iff,
    hsheet.isKeyed, hsheet.conditional, sheet.map_maxWidth_conditionals, ?_⟩
  intro width
  exact ⟨sheet.activeAt_eq_reverse_filter width, sheet.maxWidth_activeAt width,
    sheet.mem_activeAt_iff width⟩

end StyleSheet

end TouchTarget
