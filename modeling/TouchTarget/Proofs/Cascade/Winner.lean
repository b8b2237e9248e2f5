import TouchTarget.Proofs.Cascade.Activity
import TouchTarget.Proofs.Cascade.Overlay

/-!
# The declaration that wins

Each property is decided by one declaration. Among the conditional rule-sets that apply to the
viewport and declare the property for the selector, it is that of the narrowest; if there is none,
it is that of the base rules. The main statement says that cascading all rule-sets in order gives
for each property the value that the winning declaration stands for, and nothing if there is no
declaration. It holds of every sheet, however it came about.
-/

namespace TouchTarget

open Css

namespace StyleSheet

/-- The value that the conditional rules for exactly this width declare. -/
def declaredFor? (sheet : StyleSheet) (maxWidth : Pixels) (selector property : String) :
    Option String :=
  (sheet.conditional? maxWidth).bind (·.rules.value? selector property)

/-- The widths that include the viewport's and whose rules declare the property. -/
def declaringWidths (sheet : StyleSheet) (selector : String) (width : Pixels)
    (property : String) : List Pixels :=
  (sheet.conditionals.map (·.maxWidth)).filter fun maxWidth ↦
    width ≤ maxWidth && (sheet.declaredFor? maxWidth selector property).isSome

/-- The value that wins: that of the smallest declaring width, or else that of the base rules. -/
def winner? (sheet : StyleSheet) (selector : String) (width : Pixels) (property : String) :
    Option String :=
  match (sheet.declaringWidths selector width property).min? with
  | some narrowest => sheet.declaredFor? narrowest selector property
  | none => sheet.base.value? selector property

theorem mem_declaringWidths_iff (sheet : StyleSheet) (selector : String) (width : Pixels)
    (property : String) (maxWidth : Pixels) :
    maxWidth ∈ sheet.declaringWidths selector width property ↔
      width ≤ maxWidth ∧ ∃ value, sheet.declaredFor? maxWidth selector property = some value := by
  unfold declaringWidths
  simp only [List.mem_filter, Bool.and_eq_true, decide_eq_true_eq, Option.isSome_iff_exists]
  constructor
  · rintro ⟨-, hwidth, hdeclared⟩
    exact ⟨hwidth, hdeclared⟩
  · rintro ⟨hwidth, value, hvalue⟩
    obtain ⟨conditional, hconditional, -⟩ := Option.bind_eq_some_iff.1 hvalue
    have hmaxWidth := maxWidth_of_conditional? hconditional
    have hmem : conditional ∈ sheet.conditionals := by
      rw [mem_conditionals_iff, hmaxWidth]
      exact hconditional
    exact ⟨List.mem_map.2 ⟨conditional, hmem, hmaxWidth⟩, hwidth, value, hvalue⟩

theorem declaredFor?_of_mem {sheet : StyleSheet} {conditional : ConditionalRuleSet}
    (h : conditional ∈ sheet.conditionals) (selector property : String) :
    sheet.declaredFor? conditional.maxWidth selector property =
      conditional.rules.value? selector property := by
  rw [declaredFor?, (sheet.mem_conditionals_iff conditional).1 h, Option.bind_some]

/-! ## The winner as the first declaration found -/

/-- From the narrowest rule-set on, the first declaration is that of the smallest declaring
width. -/
theorem findSome?_of_min?_eq_some {sheet : StyleSheet} {selector property : String}
    {width narrowest : Pixels}
    (h : (sheet.declaringWidths selector width property).min? = some narrowest) :
    (sheet.conditionals.filter (·.isActiveAt width)).findSome?
        (·.rules.value? selector property) =
      sheet.declaredFor? narrowest selector property := by
  obtain ⟨hmem, hleast⟩ := List.min?_eq_some_iff.1 h
  obtain ⟨hwidth, value, hvalue⟩ := (mem_declaringWidths_iff ..).1 hmem
  obtain ⟨conditional, hconditional, hdeclared⟩ := Option.bind_eq_some_iff.1 hvalue
  have hmaxWidth := maxWidth_of_conditional? hconditional
  have hactive : conditional ∈ sheet.conditionals.filter (·.isActiveAt width) := by
    rw [List.mem_filter, mem_conditionals_iff, hmaxWidth, ConditionalRuleSet.isActiveAt,
      hmaxWidth, decide_eq_true_eq]
    exact ⟨hconditional, hwidth⟩
  obtain ⟨narrower, wider, hsplit⟩ := List.append_of_mem hactive
  rw [hvalue]
  apply List.findSome?_eq_some_iff.2
  refine ⟨narrower, conditional, wider, hsplit, hdeclared, ?_⟩
  -- A narrower rule-set that declared the property would have a smaller declaring width.
  intro other hother
  apply Option.eq_none_iff_forall_ne_some.2
  intro otherValue hotherValue
  have hsorted := sheet.conditionals_pairwise.filter (·.isActiveAt width)
  rw [hsplit, List.pairwise_append] at hsorted
  have hlt : other.maxWidth < conditional.maxWidth := by
    exact hsorted.2.2 other hother conditional List.mem_cons_self
  have hotherActive : other ∈ sheet.conditionals.filter (·.isActiveAt width) := by
    rw [hsplit]
    exact List.mem_append_left _ hother
  obtain ⟨hotherMem, hotherWidth⟩ := List.mem_filter.1 hotherActive
  have hle : narrowest ≤ other.maxWidth := by
    apply hleast
    apply (mem_declaringWidths_iff ..).2
    refine ⟨of_decide_eq_true hotherWidth, otherValue, ?_⟩
    rw [declaredFor?_of_mem hotherMem]
    exact hotherValue
  rw [hmaxWidth] at hlt
  exact UInt32.not_le.2 hlt hle

/-- Without a declaring width no active rule-set declares the property. -/
theorem findSome?_of_min?_eq_none {sheet : StyleSheet} {selector property : String}
    {width : Pixels} (h : (sheet.declaringWidths selector width property).min? = none) :
    (sheet.conditionals.filter (·.isActiveAt width)).findSome?
      (·.rules.value? selector property) = none := by
  rw [List.min?_eq_none_iff] at h
  apply List.findSome?_eq_none_iff.2
  intro conditional hactive
  obtain ⟨hmem, hwidth⟩ := List.mem_filter.1 hactive
  rw [← declaredFor?_of_mem hmem]
  apply Option.eq_none_iff_forall_ne_some.2
  intro value hvalue
  have hdeclaring : conditional.maxWidth ∈ sheet.declaringWidths selector width property :=
    (mem_declaringWidths_iff ..).2 ⟨of_decide_eq_true hwidth, value, hvalue⟩
  rw [h] at hdeclaring
  exact List.not_mem_nil hdeclaring

theorem winner?_eq_findSome? (sheet : StyleSheet) (selector : String) (width : Pixels)
    (property : String) :
    sheet.winner? selector width property =
      ((sheet.conditionals.filter (·.isActiveAt width)).findSome?
        (·.rules.value? selector property)).or (sheet.base.value? selector property) := by
  unfold winner?
  cases hmin : (sheet.declaringWidths selector width property).min? with
  | none => rw [findSome?_of_min?_eq_none hmin, Option.none_or]
  | some narrowest =>
    have hmem := List.min?_mem hmin
    obtain ⟨-, value, hvalue⟩ := (mem_declaringWidths_iff ..).1 hmem
    rw [findSome?_of_min?_eq_some hmin, hvalue, Option.some_or]
    exact hvalue

/-- What is declared for smaller widths, or under another selector, has no part in the winner. -/
theorem winner?_congr {sheet other : StyleSheet} {selector property : String} {width : Pixels}
    (hbase : other.base.value? selector property = sheet.base.value? selector property)
    (hconditional : ∀ maxWidth, width ≤ maxWidth → other.declaredFor? maxWidth selector property =
      sheet.declaredFor? maxWidth selector property) :
    other.winner? selector width property = sheet.winner? selector width property := by
  have hmem (maxWidth : Pixels) : maxWidth ∈ other.declaringWidths selector width property ↔
      maxWidth ∈ sheet.declaringWidths selector width property := by
    rw [mem_declaringWidths_iff, mem_declaringWidths_iff]
    apply and_congr_right
    intro hwidth
    rw [hconditional maxWidth hwidth]
  unfold winner?
  cases hmin : (sheet.declaringWidths selector width property).min? with
  | none =>
    have hnil : other.declaringWidths selector width property = [] := by
      apply List.eq_nil_iff_forall_not_mem.2
      intro maxWidth h
      rw [hmem, List.min?_eq_none_iff.1 hmin] at h
      exact List.not_mem_nil h
    rw [hnil]
    exact hbase
  | some narrowest =>
    obtain ⟨hnarrowest, hleast⟩ := List.min?_eq_some_iff.1 hmin
    have hother : (other.declaringWidths selector width property).min? = some narrowest := by
      apply List.min?_eq_some_iff.2
      exact ⟨(hmem narrowest).2 hnarrowest, fun maxWidth h ↦ hleast maxWidth ((hmem maxWidth).1 h)⟩
    rw [hother]
    exact hconditional narrowest ((mem_declaringWidths_iff ..).1 hnarrowest).1

/-! ## The cascade gives what the winners stand for -/

/-- Cascading the base rules and then the active rule-sets is one overlay of the winners. -/
theorem resolve_eq_overlay (sheet : StyleSheet) (selector : String) (width : Pixels) :
    sheet.resolve selector width = SizeStyle.overlay (sheet.winner? selector width) {} := by
  unfold resolve
  rw [activeAt_eq_reverse_filter, List.map_reverse, List.foldl_reverse,
    SizeStyle.foldr_cascadeFrom, SizeStyle.cascadeFrom_eq_overlay, SizeStyle.overlay_overlay]
  congr 1
  funext property
  rw [winner?_eq_findSome?, List.findSome?_map]
  rfl

/-- Each property of a style is what its winning value stands for, unset (no padding) if the value
is no length or nothing is declared. Sheets that declare the same for the selector in the base
rules and for the widths from the viewport's on give the same style. -/
theorem resolve_eq_winners (sheet : StyleSheet) (selector : String) (width : Pixels) :
    (sheet.resolve selector width).minWidth? =
        (sheet.winner? selector width "min-width").bind length? ∧
      (sheet.resolve selector width).minHeight? =
        (sheet.winner? selector width "min-height").bind length? ∧
      (sheet.resolve selector width).width? =
        (sheet.winner? selector width "width").bind length? ∧
      (sheet.resolve selector width).height? =
        (sheet.winner? selector width "height").bind length? ∧
      (sheet.resolve selector width).padding =
        ((sheet.winner? selector width "padding").map Css.padding).getD .zero ∧
      ∀ other : StyleSheet,
        (∀ property ∈ SizeStyle.properties,
          other.base.value? selector property = sheet.base.value? selector property ∧
          ∀ maxWidth, width ≤ maxWidth → other.declaredFor? maxWidth selector property =
            sheet.declaredFor? maxWidth selector property) →
        other.resolve selector width = sheet.resolve selector width := by
  have hlength (value? : Option String) : (value?.map length?).getD none = value?.bind length? := by
    cases value? <;> rfl
  rw [resolve_eq_overlay]
  refine ⟨hlength _, hlength _, hlength _, hlength _, rfl, ?_⟩
  intro other h
  rw [resolve_eq_overlay]
  apply SizeStyle.overlay_congr
  intro property hproperty
  obtain ⟨hbase, hconditional⟩ := h property hproperty
  exact winner?_congr hbase hconditional

end StyleSheet

end TouchTarget
