import TouchTarget.Proofs.Cascade.Activity
import TouchTarget.SizeStyle

/-!
# From a wide viewport to a narrow one

A narrower viewport keeps the rule-sets that apply to a wider one and adds those for the widths
between the two, at the end where the last word is spoken. The style at the narrow viewport is
therefore the one at the wide viewport with some declarations cascaded on top. The main statement
says which these are, and draws from it that a style changes only where a viewport passes a width
for which there are rules.
-/

namespace TouchTarget

/-- If what holds of an element holds of all behind it, the elements of which it does not hold come
first. -/
theorem filter_not_append_filter_of_pairwise {α : Type} (holds : α → Bool)
    {before : α → α → Prop} {elements : List α} (hsorted : elements.Pairwise before)
    (hclosed : ∀ first second, before first second → holds first → holds second) :
    elements.filter (!holds ·) ++ elements.filter holds = elements := by
  induction elements with
  | nil => rfl
  | cons first rest ih =>
    obtain ⟨hfirst, hrest⟩ := List.pairwise_cons.1 hsorted
    cases h : holds first with
    | false =>
      rw [List.filter_cons_of_pos (by rw [h]; rfl), List.filter_cons_of_neg (by rw [h]; simp),
        List.cons_append, ih hrest]
    | true =>
      have hall : ∀ second ∈ rest, holds second :=
        fun second hmem ↦ hclosed first second (hfirst second hmem) h
      have hnone : rest.filter (!holds ·) = [] := by
        apply List.filter_eq_nil_iff.2
        intro second hmem
        rw [hall second hmem]
        exact Bool.false_ne_true
      rw [List.filter_cons_of_neg (by rw [h]; exact Bool.false_ne_true), hnone,
        List.filter_cons_of_pos h, List.filter_eq_self.2 hall, List.nil_append]

/-- Rule-sets without the selector have no part in a cascade. -/
theorem SizeStyle.foldl_cascadeFrom (selector : String) (style : SizeStyle)
    (sets : List RuleSet) :
    sets.foldl (cascadeFrom selector) style =
      (sets.filterMap (·.get? selector)).foldl cascade style := by
  induction sets generalizing style with
  | nil => rfl
  | cons rules sets ih =>
    rw [List.foldl_cons, ih, List.filterMap_cons, cascadeFrom]
    cases rules.get? selector with
    | none => rfl
    | some declarations => rfl

namespace StyleSheet

/-- The conditional rule-sets that apply to the narrow viewport and not to the wide one, the widest
first. -/
def activeBetween (sheet : StyleSheet) (narrow wide : Pixels) : List ConditionalRuleSet :=
  (sheet.conditionals.filter fun conditional ↦
    narrow ≤ conditional.maxWidth && conditional.maxWidth < wide).reverse

theorem mem_activeBetween_iff (sheet : StyleSheet) (narrow wide : Pixels)
    (conditional : ConditionalRuleSet) :
    conditional ∈ sheet.activeBetween narrow wide ↔ conditional ∈ sheet.conditionals ∧
      narrow ≤ conditional.maxWidth ∧ conditional.maxWidth < wide := by
  rw [activeBetween, List.mem_reverse, List.mem_filter, Bool.and_eq_true, decide_eq_true_iff,
    decide_eq_true_iff]

theorem activeBetween_pairwise (sheet : StyleSheet) (narrow wide : Pixels) :
    (sheet.activeBetween narrow wide).Pairwise fun first second ↦
      second.maxWidth < first.maxWidth := by
  rw [activeBetween, List.pairwise_reverse]
  exact sheet.conditionals_pairwise.filter _

/-- A narrower viewport adds rule-sets behind those that apply to the wider one. -/
theorem activeAt_eq_append (sheet : StyleSheet) {narrow wide : Pixels} (h : narrow ≤ wide) :
    sheet.activeAt narrow = sheet.activeAt wide ++ sheet.activeBetween narrow wide := by
  have hclosed (first second : ConditionalRuleSet) (hlt : first.maxWidth < second.maxWidth)
      (hactive : first.isActiveAt wide) : second.isActiveAt wide :=
    decide_eq_true (UInt32.le_trans (of_decide_eq_true hactive) (UInt32.le_of_lt hlt))
  have hsplit := filter_not_append_filter_of_pairwise (·.isActiveAt wide)
    (sheet.conditionals_pairwise.filter (·.isActiveAt narrow)) hclosed
  rw [List.filter_filter, List.filter_filter] at hsplit
  have hbetween : sheet.conditionals.filter (fun conditional ↦
      !conditional.isActiveAt wide && conditional.isActiveAt narrow) =
        sheet.conditionals.filter (fun conditional ↦
          narrow ≤ conditional.maxWidth && conditional.maxWidth < wide) := by
    congr 1
    funext conditional
    rw [Bool.and_comm, ConditionalRuleSet.isActiveAt, ConditionalRuleSet.isActiveAt,
      ← decide_not]
    simp only [UInt32.not_le]
  have hwide : sheet.conditionals.filter (fun conditional ↦
      conditional.isActiveAt wide && conditional.isActiveAt narrow) =
        sheet.conditionals.filter (·.isActiveAt wide) := by
    congr 1
    funext conditional
    cases hactive : conditional.isActiveAt wide with
    | false => rfl
    | true => exact decide_eq_true (UInt32.le_trans h (of_decide_eq_true hactive))
  rw [activeAt_eq_reverse_filter, activeAt_eq_reverse_filter, activeBetween, ← hsplit, hbetween,
    hwide, List.reverse_append]

/-- The cascade at a narrow viewport goes on where the one at a wide viewport ended. -/
theorem resolve_eq_foldl_between (sheet : StyleSheet) (selector : String) {narrow wide : Pixels}
    (h : narrow ≤ wide) :
    sheet.resolve selector narrow =
      ((sheet.activeBetween narrow wide).filterMap (·.rules.get? selector)).foldl
        SizeStyle.cascade (sheet.resolve selector wide) := by
  have hlater := SizeStyle.foldl_cascadeFrom selector (sheet.resolve selector wide)
    ((sheet.activeBetween narrow wide).map (·.rules))
  rw [List.filterMap_map] at hlater
  rw [resolve, sheet.activeAt_eq_append h, List.map_append, List.foldl_append]
  exact hlater

theorem resolve_eq_of_activeBetween_eq_nil {sheet : StyleSheet} {narrow wide : Pixels}
    (h : narrow ≤ wide) (hnil : sheet.activeBetween narrow wide = []) (selector : String) :
    sheet.resolve selector narrow = sheet.resolve selector wide := by
  rw [sheet.resolve_eq_foldl_between selector h, hnil]
  rfl

/-- Without rules for any of the widths passed, the style stays as it is. -/
theorem resolve_eq_of_no_width {sheet : StyleSheet} {narrow wide : Pixels}
    (hnone : ∀ conditional ∈ sheet.conditionals,
      ¬(narrow ≤ conditional.maxWidth ∧ conditional.maxWidth < wide))
    {width : Pixels} (hnarrow : narrow ≤ width) (hwide : width ≤ wide) (selector : String) :
    sheet.resolve selector width = sheet.resolve selector wide := by
  apply resolve_eq_of_activeBetween_eq_nil hwide
  apply List.eq_nil_iff_forall_not_mem.2
  intro conditional hmem
  obtain ⟨hconditional, hwidth, hlt⟩ := (sheet.mem_activeBetween_iff _ _ _).1 hmem
  exact hnone conditional hconditional ⟨UInt32.le_trans hnarrow hwidth, hlt⟩

/-- Above all widths for which there are rules, only the base rules count. -/
theorem resolve_eq_base {sheet : StyleSheet} {width : Pixels}
    (h : ∀ conditional ∈ sheet.conditionals, conditional.maxWidth < width) (selector : String) :
    sheet.resolve selector width =
      (sheet.base.get? selector).elim {} (SizeStyle.cascade {}) := by
  have hnil : sheet.activeAt width = [] := by
    rw [activeAt_eq_reverse_filter, List.reverse_eq_nil_iff, List.filter_eq_nil_iff]
    intro conditional hmem hactive
    exact UInt32.not_le.2 (h conditional hmem) (of_decide_eq_true hactive)
  rw [resolve, hnil, List.map_nil, List.foldl_nil, SizeStyle.cascadeFrom]
  cases sheet.base.get? selector <;> rfl

/-- The rule-sets that apply to a wide viewport are the first ones that apply to a narrower one. The
others are those for the widths from the narrow viewport's on and below the wide one's, from the
widest to the narrowest, and their declarations for a selector, cascaded in this order onto its
style at the wide viewport, give its style at the narrow one. If there are no rules for the widths
in between, the style is the same at all of them, and if all rules are for smaller widths than the
wide viewport's, its style there is that of the base rules alone. -/
theorem resolve_narrow_of_wide (sheet : StyleSheet) (selector : String) (narrow wide : Pixels)
    (h : narrow ≤ wide) :
    sheet.activeAt narrow = sheet.activeAt wide ++ sheet.activeBetween narrow wide ∧
      (∀ conditional, conditional ∈ sheet.activeBetween narrow wide ↔
        conditional ∈ sheet.conditionals ∧
          narrow ≤ conditional.maxWidth ∧ conditional.maxWidth < wide) ∧
      ((sheet.activeBetween narrow wide).Pairwise fun first second ↦
        second.maxWidth < first.maxWidth) ∧
      sheet.resolve selector narrow =
        ((sheet.activeBetween narrow wide).filterMap (·.rules.get? selector)).foldl
          SizeStyle.cascade (sheet.resolve selector wide) ∧
      ((∀ conditional ∈ sheet.conditionals,
          ¬(narrow ≤ conditional.maxWidth ∧ conditional.maxWidth < wide)) →
        ∀ width, narrow ≤ width → width ≤ wide →
          sheet.resolve selector width = sheet.resolve selector wide) ∧
      ((∀ conditional ∈ sheet.conditionals, conditional.maxWidth < wide) →
        sheet.resolve selector wide =
          (sheet.base.get? selector).elim {} (SizeStyle.cascade {})) := by
  refine ⟨sheet.activeAt_eq_append h, sheet.mem_activeBetween_iff narrow wide,
    sheet.activeBetween_pairwise narrow wide, sheet.resolve_eq_foldl_between selector h, ?_, ?_⟩
  · intro hnone width hnarrow hwide
    exact resolve_eq_of_no_width hnone hnarrow hwide selector
  · intro hsmaller
    exact resolve_eq_base hsmaller selector

/-- Of four widths, the smallest is below both viewports, the largest includes both, and the two
between them take a length away and replace another one twice. -/
theorem resolve_narrow_of_wide_two_between :
    let sheet : StyleSheet :=
      (((addConditional ∅ 320 ∅).addConditional 450
        (.ofList [("a", .ofList [("width", "5px")])])).addConditional 480
        (.ofList [("a", .ofList [("height", "auto"), ("width", "7px")])])).addConditional 768
        (.ofList [("a", .ofList [("height", "4px"), ("width", "9px")])])
    (400 : Pixels) ≤ 500 ∧
      (sheet.activeBetween 400 500).map (·.maxWidth) = [480, 450] ∧
      sheet.resolve "a" 400 = { width? := some 5 } ∧
      sheet.resolve "a" 500 = { width? := some 9, height? := some 4 } ∧
      sheet.activeAt 400 = sheet.activeAt 500 ++ sheet.activeBetween 400 500 ∧
      (∀ conditional, conditional ∈ sheet.activeBetween 400 500 ↔
        conditional ∈ sheet.conditionals ∧
          400 ≤ conditional.maxWidth ∧ conditional.maxWidth < 500) ∧
      ((sheet.activeBetween 400 500).Pairwise fun first second ↦
        second.maxWidth < first.maxWidth) ∧
      sheet.resolve "a" 400 =
        ((sheet.activeBetween 400 500).filterMap (·.rules.get? "a")).foldl
          SizeStyle.cascade (sheet.resolve "a" 500) ∧
      ((∀ conditional ∈ sheet.conditionals,
          ¬(400 ≤ conditional.maxWidth ∧ conditional.maxWidth < 500)) →
        ∀ width, 400 ≤ width → width ≤ 500 → sheet.resolve "a" width = sheet.resolve "a" 500) ∧
      ((∀ conditional ∈ sheet.conditionals, conditional.maxWidth < 500) →
        sheet.resolve "a" 500 = (sheet.base.get? "a").elim {} (SizeStyle.cascade {})) := by
  intro sheet
  have hbetween : (sheet.activeBetween 400 500).map (·.maxWidth) = [480, 450] := by decide +kernel
  have hnarrow : sheet.resolve "a" 400 = { width? := some 5 } := by decide +kernel
  have hwide : sheet.resolve "a" 500 = { width? := some 9, height? := some 4 } := by
    decide +kernel
  exact ⟨by decide, hbetween, hnarrow, hwide,
    resolve_narrow_of_wide sheet "a" 400 500 (by decide)⟩

end StyleSheet

end TouchTarget
