import Mathlib.Data.List.Dedup
import TouchTarget.Proofs.Rules.History

/-!
# The cascade without merging

Declarations that are merged first and cascaded then give the same as the ones cascaded one after
the other, because both let the later declaration of a property win, also where it unsets a length.
This carries over to rule-sets and sheets: for a selector it makes no difference over which inserts,
merges and additions the rules of the base or of a width are spread. The main statement computes the
style of a selector from the history of a sheet, rule by rule and without any merging.
-/

namespace TouchTarget

namespace SizeStyle

/-! ## Declarations -/

theorem cascade_empty (style : SizeStyle) : style.cascade ∅ = style := by
  simp only [cascade, declared, Std.ExtTreeMap.getElem?_empty, Option.map_none, Option.getD_none]

theorem cascade_cascade (style : SizeStyle) (declarations more : Declarations) :
    (style.cascade declarations).cascade more = style.cascade (declarations ∪ more) := by
  rw [cascade_eq_overlay, cascade_eq_overlay, cascade_eq_overlay, overlay_overlay]
  congr 1
  funext property
  exact Std.ExtTreeMap.getElem?_union.symm

theorem foldl_cascade_cascade (style : SizeStyle) (declarations : Declarations)
    (maps : List Declarations) :
    maps.foldl cascade (style.cascade declarations) =
      style.cascade (maps.foldl (· ∪ ·) declarations) := by
  induction maps generalizing declarations with
  | nil => rfl
  | cons first maps ih => rw [List.foldl_cons, List.foldl_cons, cascade_cascade, ih]

/-- Declarations cascaded in a row are cascaded at once if they are merged. -/
theorem foldl_cascade (style : SizeStyle) (maps : List Declarations) :
    maps.foldl cascade style = style.cascade (maps.foldl (· ∪ ·) ∅) := by
  rw [← foldl_cascade_cascade, cascade_empty]

/-! ## Rules -/

/-- Cascades the rules for a selector one after the other. -/
def cascadeRules (selector : String) (style : SizeStyle) (rules : List Rule) : SizeStyle :=
  ((rules.filter (·.1 = selector)).map (·.2)).foldl cascade style

theorem cascadeRules_cons (selector : String) (style : SizeStyle) (rule : Rule)
    (rules : List Rule) : cascadeRules selector style (rule :: rules) =
      cascadeRules selector (if rule.1 = selector then style.cascade rule.2 else style) rules := by
  rw [cascadeRules, cascadeRules, List.filter_cons]
  by_cases h : rule.1 = selector
  · rw [if_pos (decide_eq_true h), if_pos h]
    rfl
  · rw [if_neg (mt of_decide_eq_true h), if_neg h]

theorem cascadeFrom_insert (selector : String) (style : SizeStyle) (rules : RuleSet) (rule : Rule) :
    cascadeFrom selector style (rules.insert rule.1 rule.2) =
      if rule.1 = selector then (cascadeFrom selector style rules).cascade rule.2
      else cascadeFrom selector style rules := by
  unfold cascadeFrom
  rw [RuleSet.get?_insert]
  split
  next h =>
    rw [h, Option.map_some, Option.getD_some]
    cases rules.get? selector with
    | none => rw [Option.getD_none, Declarations.empty_union]; rfl
    | some present => exact (cascade_cascade style present rule.2).symm
  next => rfl

/-- What is merged into a rule-set is cascaded behind it, rule by rule. -/
theorem cascadeFrom_insertAll (selector : String) (style : SizeStyle) (rules : RuleSet)
    (entries : List Rule) : cascadeFrom selector style (rules.insertAll entries) =
      cascadeRules selector (cascadeFrom selector style rules) entries := by
  induction entries generalizing rules with
  | nil => rfl
  | cons entry entries ih =>
    rw [RuleSet.insertAll_cons, ih, cascadeRules_cons, cascadeFrom_insert]

theorem cascadeFrom_ofList (selector : String) (style : SizeStyle) (entries : List Rule) :
    cascadeFrom selector style (.ofList entries) = cascadeRules selector style entries :=
  cascadeFrom_insertAll selector style ∅ entries

end SizeStyle

/-! ## Sheets -/

namespace StyleSheet

namespace History

/-- The rules given for a width in the order in which they came, none of them merged. -/
def rulesFor (history : History) (maxWidth : Pixels) : List Rule :=
  (history.givenFor maxWidth).flatMap (·.rules)

/-- The widths for which rules were given and that include the viewport's, the widest first. -/
def activeWidths (history : History) (width : Pixels) : List Pixels :=
  ((history.additions.map (·.1)).dedup.filter (width ≤ ·)).mergeSort (· ≥ ·)

/-- The style of a selector, cascaded rule by rule: first those for the base, then those for each
width that includes the viewport's, from the widest to the narrowest. -/
def resolve (history : History) (selector : String) (width : Pixels) : SizeStyle :=
  (history.activeWidths width).foldl
    (fun style maxWidth ↦ style.cascadeRules selector (history.rulesFor maxWidth))
    (SizeStyle.cascadeRules selector {} history.base)

theorem mem_activeWidths_iff (history : History) (width maxWidth : Pixels) :
    maxWidth ∈ history.activeWidths width ↔
      maxWidth ∈ history.additions.map (·.1) ∧ width ≤ maxWidth := by
  rw [activeWidths, List.mem_mergeSort, List.mem_filter, List.mem_dedup, decide_eq_true_iff]

theorem activeWidths_pairwise (history : History) (width : Pixels) :
    (history.activeWidths width).Pairwise (· ≥ ·) := by
  have htrans (first second third : Pixels) (h : decide (first ≥ second))
      (h' : decide (second ≥ third)) : decide (first ≥ third) :=
    decide_eq_true (UInt32.le_trans (of_decide_eq_true h') (of_decide_eq_true h))
  have htotal (first second : Pixels) : decide (first ≥ second) || decide (second ≥ first) := by
    rw [Bool.or_eq_true, decide_eq_true_iff, decide_eq_true_iff]
    exact UInt32.le_total second first
  exact (List.pairwise_mergeSort htrans htotal _).imp of_decide_eq_true

end History

namespace IsOf

variable {sheet : StyleSheet} {history : History}

/-- The active rule-sets are those of the active widths, in the same order. -/
theorem maxWidth_activeAt_eq (h : sheet.IsOf history) (width : Pixels) :
    (sheet.activeAt width).map (·.maxWidth) = history.activeWidths width := by
  have hsorted : ((sheet.activeAt width).map (·.maxWidth)).Pairwise (· > ·) := by
    rw [List.pairwise_map, activeAt_eq_reverse_filter, List.pairwise_reverse]
    exact sheet.conditionals_pairwise.filter _
  have hnodup : (history.activeWidths width).Nodup :=
    ((List.nodup_dedup _).filter _).mergeSort
  have hmem (maxWidth : Pixels) : maxWidth ∈ (sheet.activeAt width).map (·.maxWidth) ↔
      maxWidth ∈ history.activeWidths width := by
    rw [History.mem_activeWidths_iff, ← h.isSome_conditional?_iff, List.mem_map]
    constructor
    · rintro ⟨conditional, hactive, rfl⟩
      obtain ⟨hconditional, hwidth⟩ := (sheet.mem_activeAt_iff width conditional).1 hactive
      rw [(sheet.mem_conditionals_iff conditional).1 hconditional]
      exact ⟨rfl, hwidth⟩
    · rintro ⟨hsome, hwidth⟩
      obtain ⟨conditional, hconditional⟩ := Option.isSome_iff_exists.1 hsome
      obtain rfl := maxWidth_of_conditional? hconditional
      refine ⟨conditional, (sheet.mem_activeAt_iff width conditional).2 ⟨?_, hwidth⟩, rfl⟩
      exact (sheet.mem_conditionals_iff conditional).2 hconditional
  -- Two lists without repetitions that have the same widths in the same order are one list.
  apply List.Perm.eq_of_pairwise
  · intro first second _ _ hge hle
    exact UInt32.le_antisymm hle hge
  · exact hsorted.imp UInt32.le_of_lt
  · exact history.activeWidths_pairwise width
  · apply (List.perm_ext_iff_of_nodup _ hnodup).2 hmem
    exact hsorted.imp fun hgt ↦ (UInt32.ne_of_lt hgt).symm

theorem map_rules_activeAt (h : sheet.IsOf history) (width : Pixels) :
    (sheet.activeAt width).map (·.rules) =
      (history.activeWidths width).map fun maxWidth ↦ .ofList (history.rulesFor maxWidth) := by
  rw [← h.maxWidth_activeAt_eq, List.map_map]
  apply List.map_congr_left
  intro conditional hactive
  have hmem := ((sheet.mem_activeAt_iff width conditional).1 hactive).1
  have hfound := (sheet.mem_conditionals_iff conditional).1 hmem
  rw [h.conditional] at hfound
  rw [Function.comp_apply, History.rulesFor, ← RuleSet.mergeAll_eq_ofList]
  split at hfound
  next => cases hfound
  next => exact congrArg ConditionalRuleSet.rules (Option.some.inj hfound).symm

theorem resolve_eq (h : sheet.IsOf history) (selector : String) (width : Pixels) :
    sheet.resolve selector width = history.resolve selector width := by
  rw [StyleSheet.resolve, h.map_rules_activeAt, h.base, List.foldl_map]
  simp only [SizeStyle.cascadeFrom_ofList]
  rfl

end IsOf

/-- Cascading declarations one after the other is cascading them merged, the later ones winning.
Behind any edits a sheet therefore gives a selector the style that comes from cascading, rule by
rule and in the order in which they were given, the rules for the base and then those for each
active width, from the widest to the narrowest. -/
theorem resolve_ofEdits (edits : List Edit) (selector : String) (width : Pixels) :
    (∀ (style : SizeStyle) (maps : List Declarations),
        maps.foldl SizeStyle.cascade style = style.cascade (maps.foldl (· ∪ ·) ∅)) ∧
      (ofEdits edits).resolve selector width =
        (History.ofEdits edits).resolve selector width :=
  ⟨SizeStyle.foldl_cascade, (isOf_ofEdits edits).resolve_eq selector width⟩

end StyleSheet

end TouchTarget
