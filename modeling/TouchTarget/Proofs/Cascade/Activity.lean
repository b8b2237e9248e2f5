import TouchTarget.Rules.StyleSheet

/-!
# The conditional rules that apply to a viewport

The conditional rule-sets of a sheet come in the order of the widths under which the sheet has them,
and these are their own widths. The range of widths from that of a viewport on is therefore the wide
end of the list, and it holds the rule-sets which apply when they are asked one by one.
-/

namespace TouchTarget

/-- If what is dropped has only elements before it that are dropped, what stays are the elements
that are not. -/
theorem dropWhile_eq_filter_of_pairwise {α : Type} {drops : α → Bool} {before : α → α → Prop}
    {elements : List α} (hsorted : elements.Pairwise before)
    (hclosed : ∀ first second, before first second → drops second → drops first) :
    elements.dropWhile drops = elements.filter (!drops ·) := by
  induction elements with
  | nil => rfl
  | cons first rest ih =>
    obtain ⟨hfirst, hrest⟩ := List.pairwise_cons.1 hsorted
    by_cases h : drops first
    · rw [List.dropWhile_cons_of_pos h, List.filter_cons_of_neg (by simp [h]), ih hrest]
    · rw [List.dropWhile_cons_of_neg h]
      symm
      apply List.filter_eq_self.2
      intro element hmem
      rcases List.mem_cons.1 hmem with rfl | hmem
      · simp [h]
      · have hkept : ¬drops element := fun hdrops ↦ h (hclosed _ _ (hfirst element hmem) hdrops)
        simp [hkept]

namespace ConditionalRules

variable (conditional : ConditionalRules)

theorem toList_pairwise : conditional.toList.Pairwise (·.1 < ·.1) := by
  apply Std.ExtTreeMap.ordered_keys_toList.imp
  intro first second h
  exact Std.compare_eq_lt.1 h

theorem rangeFrom_eq_filter (width : Pixels) :
    conditional.rangeFrom width = (conditional.toList.filter (width ≤ ·.1)).map (·.2) := by
  have hclosed (first second : Pixels × ConditionalRuleSet) (hlt : first.1 < second.1)
      (hdrops : decide (second.1 < width) = true) : decide (first.1 < width) = true :=
    decide_eq_true (UInt32.lt_trans hlt (of_decide_eq_true hdrops))
  rw [rangeFrom, dropWhile_eq_filter_of_pairwise conditional.toList_pairwise hclosed]
  congr 2
  funext entry
  rw [← decide_not]
  exact decide_eq_decide.2 UInt32.not_lt

variable {conditional}

/-- In the list, too, every rule-set stands beside its own width. -/
theorem IsKeyed.maxWidth_of_mem (h : conditional.IsKeyed) {entry : Pixels × ConditionalRuleSet}
    (hmem : entry ∈ conditional.toList) : entry.2.maxWidth = entry.1 :=
  h _ _ (Std.ExtTreeMap.mem_toList_iff_getElem?_eq_some.1 hmem)

theorem IsKeyed.map_maxWidth (h : conditional.IsKeyed) :
    (conditional.toList.map (·.2)).map (·.maxWidth) = conditional.keys := by
  rw [← Std.ExtTreeMap.map_fst_toList_eq_keys, List.map_map]
  exact List.map_congr_left fun _ hmem ↦ h.maxWidth_of_mem hmem

/-- The widths under which rule-sets stand and the rule-sets themselves tell the same of which of
them apply. -/
theorem IsKeyed.rangeFrom_eq_filter_isActiveAt (h : conditional.IsKeyed) (width : Pixels) :
    conditional.rangeFrom width =
      (conditional.toList.map (·.2)).filter (·.isActiveAt width) := by
  rw [rangeFrom_eq_filter, List.filter_map]
  congr 1
  apply List.filter_congr
  intro entry hmem
  rw [Function.comp_apply, ConditionalRuleSet.isActiveAt, h.maxWidth_of_mem hmem]

end ConditionalRules

namespace StyleSheet

theorem conditionals_pairwise (sheet : StyleSheet) :
    sheet.conditionals.Pairwise fun first second ↦ first.maxWidth < second.maxWidth := by
  rw [conditionals, List.pairwise_map]
  apply sheet.conditional.toList_pairwise.imp_of_mem
  intro first second hfirst hsecond h
  rwa [sheet.isKeyed.maxWidth_of_mem hfirst, sheet.isKeyed.maxWidth_of_mem hsecond]

theorem maxWidth_of_conditional? {sheet : StyleSheet} {maxWidth : Pixels}
    {conditional : ConditionalRuleSet} (h : sheet.conditional? maxWidth = some conditional) :
    conditional.maxWidth = maxWidth :=
  sheet.isKeyed maxWidth conditional h

/-- The list of the conditional rule-sets and the look-up by width hold the same. -/
theorem mem_conditionals_iff (sheet : StyleSheet) (conditional : ConditionalRuleSet) :
    conditional ∈ sheet.conditionals ↔
      sheet.conditional? conditional.maxWidth = some conditional := by
  rw [conditionals, List.mem_map]
  constructor
  · rintro ⟨⟨width, found⟩, hmem, rfl⟩
    have hwidth : found.maxWidth = width := sheet.isKeyed.maxWidth_of_mem hmem
    rw [hwidth]
    exact Std.ExtTreeMap.mem_toList_iff_getElem?_eq_some.1 hmem
  · intro h
    exact ⟨(conditional.maxWidth, conditional),
      Std.ExtTreeMap.mem_toList_iff_getElem?_eq_some.2 h, rfl⟩

/-- The order of the active rule-sets is the opposite of the order of all. -/
theorem activeAt_eq_reverse_filter (sheet : StyleSheet) (width : Pixels) :
    sheet.activeAt width = (sheet.conditionals.filter (·.isActiveAt width)).reverse := by
  rw [activeAt, conditionals, sheet.isKeyed.rangeFrom_eq_filter_isActiveAt]

end StyleSheet

end TouchTarget
