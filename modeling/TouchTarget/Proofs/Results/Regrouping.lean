import Mathlib.Data.List.Perm.Basic
import Mathlib.Data.List.ProdSigma
import TouchTarget.Proofs.Results.Totals

/-!
# Runs split, rearranged and added up anew

Which verdict a target has at a viewport does not depend on what else is checked. A run over two
lists in a row is therefore two runs, one behind the other, and the order of a list shows in the
order of the results only. The totals do not notice any of this, because they are what one counts
among the verdicts. The main statement says so of both lists, and of every way to add the totals of
the single pairs up: in pieces of any size, in any order.
-/

namespace TouchTarget

/-! ## Lists in another order -/

section Arranged

variable {α β : Type}

/-- The items at the given positions, in the order in which the positions come. -/
def arranged (order : List Nat) (items : List α) : List α :=
  order.filterMap (items[·]?)

theorem arranged_map (order : List Nat) (f : α → β) (items : List α) :
    arranged order (items.map f) = (arranged order items).map f := by
  unfold arranged
  rw [List.map_filterMap]
  congr 1
  funext position
  exact List.getElem?_map

theorem arranged_range (items : List α) : arranged (List.range items.length) items = items := by
  induction items with
  | nil => rfl
  | cons item items ih =>
    rw [arranged, List.length_cons, List.range_succ_eq_map,
      List.filterMap_cons_some List.getElem?_cons_zero, List.filterMap_map]
    exact congrArg (item :: ·) ih

theorem arranged_perm {order : List Nat} {items : List α}
    (h : order.Perm (List.range items.length)) : (arranged order items).Perm items := by
  have hperm : (arranged order items).Perm (arranged (List.range items.length) items) :=
    h.filterMap _
  rwa [arranged_range] at hperm

end Arranged

/-! ## Adding up in any way -/

/-- A way to add up totals: those of one item, two parts one behind the other, or a list of parts
beginning with nothing. -/
inductive Reduction (Item : Type)
  | one (item : Item)
  | plus (left right : Reduction Item)
  | sum (parts : List (Reduction Item))

namespace Reduction

variable {Item : Type}

mutual

/-- The items that are added up, from left to right. -/
def items : Reduction Item → List Item
  | one item => [item]
  | plus left right => left.items ++ right.items
  | sum parts => itemsOfAll parts

def itemsOfAll : List (Reduction Item) → List Item
  | [] => []
  | part :: parts => part.items ++ itemsOfAll parts

end

mutual

/-- The outcome, given the totals of each item. -/
def total (tally : Item → Summary) : Reduction Item → Summary
  | one item => tally item
  | plus left right => left.total tally + right.total tally
  | sum parts => .sum (totalsOfAll tally parts)

def totalsOfAll (tally : Item → Summary) : List (Reduction Item) → List Summary
  | [] => []
  | part :: parts => part.total tally :: totalsOfAll tally parts

end

theorem itemsOfAll_eq_flatMap (parts : List (Reduction Item)) :
    itemsOfAll parts = parts.flatMap items := by
  induction parts with
  | nil => rfl
  | cons part parts ih => rw [itemsOfAll, ih, List.flatMap_cons]

theorem totalsOfAll_eq_map (tally : Item → Summary) (parts : List (Reduction Item)) :
    totalsOfAll tally parts = parts.map (total tally) := by
  induction parts with
  | nil => rfl
  | cons part parts ih => rw [totalsOfAll, ih, List.map_cons]

variable {tally : Item → Summary} {verdicts : Item → List Verdict}

mutual

/-- Whatever the way, the outcome is what one counts among the verdicts of the items. -/
theorem isTotalOf_total (h : ∀ item, (tally item).IsTotalOf (verdicts item))
    (reduction : Reduction Item) :
    (reduction.total tally).IsTotalOf (reduction.items.flatMap verdicts) := by
  match reduction with
  | one item =>
    rw [items, total, List.flatMap_singleton]
    exact h item
  | plus left right =>
    rw [items, total, List.flatMap_append]
    exact (isTotalOf_total h left).add (isTotalOf_total h right)
  | sum parts =>
    rw [items, total, itemsOfAll_eq_flatMap, totalsOfAll_eq_map, List.flatMap_assoc]
    exact Summary.isTotalOf_sum parts (isTotalOf_total_of_mem h parts)

theorem isTotalOf_total_of_mem (h : ∀ item, (tally item).IsTotalOf (verdicts item))
    (parts : List (Reduction Item)) :
    ∀ part ∈ parts, (part.total tally).IsTotalOf (part.items.flatMap verdicts) := by
  match parts with
  | [] => exact nofun
  | part :: parts =>
    exact List.forall_mem_cons.2 ⟨isTotalOf_total h part, isTotalOf_total_of_mem h parts⟩

end

end Reduction

/-- Totals counted among the same verdicts are the same, in whatever order these come. -/
theorem Summary.IsTotalOf.eq_of_perm {summary other : Summary} {verdicts others : List Verdict}
    (h : summary.IsTotalOf verdicts) (hother : other.IsTotalOf others)
    (hperm : verdicts.Perm others) : summary = other := by
  rw [Summary.mk.injEq, h.totalTests, h.passed, h.failed, h.warnings, hother.totalTests,
    hother.passed, hother.failed, hother.warnings]
  exact ⟨hperm.length_eq, hperm.countP_eq _, hperm.countP_eq _, hperm.countP_eq _⟩

/-! ## Runs -/

namespace ViewportReport

/-- A report with the verdicts of another one behind its own. -/
def joined (report other : ViewportReport) : ViewportReport :=
  { report with tests := report.tests ++ other.tests }

/-- A report with its verdicts in another order. -/
def rearranged (order : List Nat) (report : ViewportReport) : ViewportReport :=
  { report with tests := arranged order report.tests }

end ViewportReport

/-- The totals of a pair are those of its verdict. -/
theorem StyleSheet.isTotalOf_tally (sheet : StyleSheet) (pair : Viewport × Target) :
    (sheet.tally pair.1 pair.2).IsTotalOf [sheet.verdict pair.1 pair.2] :=
  Summary.isTotalOf_of pair.2 pair.1 _

namespace Config

variable (timestamp : String) (sheet : StyleSheet)

/-- Runs with the same verdicts in any order have the same totals. -/
theorem summary_analyze_eq_of_perm {config other : Config}
    (h : (config.analyze timestamp sheet).verdicts.Perm (other.analyze timestamp sheet).verdicts) :
    (config.analyze timestamp sheet).summary = (other.analyze timestamp sheet).summary :=
  (config.isTotalOf_analyze timestamp sheet).eq_of_perm (other.isTotalOf_analyze timestamp sheet) h

/-- The totals of two runs add up to those of a run with the verdicts of both. -/
theorem summary_analyze_eq_add_of_perm {config front back : Config}
    (h : (config.analyze timestamp sheet).verdicts.Perm
      ((front.analyze timestamp sheet).verdicts ++ (back.analyze timestamp sheet).verdicts)) :
    (config.analyze timestamp sheet).summary =
      (front.analyze timestamp sheet).summary + (back.analyze timestamp sheet).summary :=
  (config.isTotalOf_analyze timestamp sheet).eq_of_perm
    ((front.isTotalOf_analyze timestamp sheet).add (back.isTotalOf_analyze timestamp sheet)) h

theorem viewports_analyze_append_targets (viewports : List Viewport) (front back : List Target) :
    (analyze ⟨viewports, front ++ back⟩ timestamp sheet).viewports =
      List.zipWith .joined (analyze ⟨viewports, front⟩ timestamp sheet).viewports
        (analyze ⟨viewports, back⟩ timestamp sheet).viewports := by
  unfold analyze
  rw [List.zipWith_map, List.zipWith_self]
  apply List.map_congr_left
  intro viewport _
  rw [StyleSheet.report, List.map_append]
  rfl

theorem verdicts_analyze_append_viewports (front back : List Viewport) (targets : List Target) :
    (analyze ⟨front ++ back, targets⟩ timestamp sheet).verdicts =
      (analyze ⟨front, targets⟩ timestamp sheet).verdicts ++
        (analyze ⟨back, targets⟩ timestamp sheet).verdicts := by
  rw [verdicts_analyze, verdicts_analyze, verdicts_analyze, List.flatMap_append]

/-- The verdicts on more targets come in between, viewport by viewport. -/
theorem verdicts_analyze_append_targets_perm (viewports : List Viewport)
    (front back : List Target) :
    (analyze ⟨viewports, front ++ back⟩ timestamp sheet).verdicts.Perm
      ((analyze ⟨viewports, front⟩ timestamp sheet).verdicts ++
        (analyze ⟨viewports, back⟩ timestamp sheet).verdicts) := by
  rw [verdicts_analyze, verdicts_analyze, verdicts_analyze]
  simp only [List.map_append]
  exact (List.flatMap_append_perm viewports _ _).symm

theorem viewports_analyze_arranged_targets (order : List Nat) (viewports : List Viewport)
    (targets : List Target) :
    (analyze ⟨viewports, arranged order targets⟩ timestamp sheet).viewports =
      (analyze ⟨viewports, targets⟩ timestamp sheet).viewports.map (.rearranged order) := by
  unfold analyze
  rw [List.map_map]
  apply List.map_congr_left
  intro viewport _
  rw [StyleSheet.report, ← arranged_map]
  rfl

theorem verdicts_analyze_perm {viewports otherViewports : List Viewport}
    {targets otherTargets : List Target} (hviewports : viewports.Perm otherViewports)
    (htargets : targets.Perm otherTargets) :
    (analyze ⟨viewports, targets⟩ timestamp sheet).verdicts.Perm
      (analyze ⟨otherViewports, otherTargets⟩ timestamp sheet).verdicts := by
  rw [verdicts_analyze, verdicts_analyze]
  exact hviewports.flatMap fun viewport _ ↦ htargets.map _

/-- The totals of a run come out of every way to add up those of its pairs. -/
theorem total_eq_summary_analyze (config : Config) {reduction : Reduction (Viewport × Target)}
    (h : reduction.items.Perm (config.viewports ×ˢ config.targets)) :
    reduction.total (fun (viewport, target) ↦ sheet.tally viewport target) =
      (config.analyze timestamp sheet).summary := by
  have hverdicts : (config.viewports ×ˢ config.targets).flatMap
      (fun pair ↦ [sheet.verdict pair.1 pair.2]) = (config.analyze timestamp sheet).verdicts := by
    rw [verdicts_analyze, ← List.map_eq_flatMap]
    simp only [SProd.sprod, List.product, List.map_flatMap, List.map_map]
    rfl
  have hperm := h.flatMap_right fun pair ↦ [sheet.verdict pair.1 pair.2]
  rw [hverdicts] at hperm
  exact (Reduction.isTotalOf_total sheet.isTotalOf_tally reduction).eq_of_perm
    (config.isTotalOf_analyze timestamp sheet) hperm

/-- Nothing that a run gives for a pair depends on the other pairs.

* Over viewports in two lists, one behind the other, the reports are those of two runs in a row; over
  targets in two lists each report has the verdicts of the one run and then those of the other. The
  totals of the two runs add up.
* If the viewports come in another order, so do the reports; if the targets do, so do the verdicts of
  each report. The totals stay as they are.
* The totals of the single pairs give those of the run in whatever way they are added up: in any
  order, and in parts of any size. A part never counts more than its pairs, so that it fits wherever
  the number of pairs does. -/
theorem analyze_regrouped (timestamp : String) (sheet : StyleSheet) :
    (∀ (front back : List Viewport) (targets : List Target),
      let whole := analyze ⟨front ++ back, targets⟩ timestamp sheet
      let first := analyze ⟨front, targets⟩ timestamp sheet
      let second := analyze ⟨back, targets⟩ timestamp sheet
      whole.viewports = first.viewports ++ second.viewports ∧
        whole.summary = first.summary + second.summary) ∧
    (∀ (viewports : List Viewport) (front back : List Target),
      let whole := analyze ⟨viewports, front ++ back⟩ timestamp sheet
      let first := analyze ⟨viewports, front⟩ timestamp sheet
      let second := analyze ⟨viewports, back⟩ timestamp sheet
      whole.viewports = List.zipWith .joined first.viewports second.viewports ∧
        whole.summary = first.summary + second.summary) ∧
    (∀ (config : Config) (order : List Nat), order.Perm (List.range config.viewports.length) →
      let run := config.analyze timestamp sheet
      let other := analyze ⟨arranged order config.viewports, config.targets⟩ timestamp sheet
      other.viewports = arranged order run.viewports ∧ other.summary = run.summary) ∧
    (∀ (config : Config) (order : List Nat), order.Perm (List.range config.targets.length) →
      let run := config.analyze timestamp sheet
      let other := analyze ⟨config.viewports, arranged order config.targets⟩ timestamp sheet
      other.viewports = run.viewports.map (.rearranged order) ∧ other.summary = run.summary) ∧
    ∀ reduction : Reduction (Viewport × Target),
      let total := reduction.total fun (viewport, target) ↦ sheet.tally viewport target
      (∀ config : Config, reduction.items.Perm (config.viewports ×ˢ config.targets) →
        total = (config.analyze timestamp sheet).summary) ∧
      total.totalTests = reduction.items.length ∧
      total.totalTests = total.passed + total.failed ∧ total.warnings ≤ total.passed := by
  refine ⟨?viewportsSplit, ?targetsSplit, ?viewportsOrder, ?targetsOrder, ?reductions⟩
  case viewportsSplit =>
    intro front back targets whole first second
    refine ⟨List.map_append, summary_analyze_eq_add_of_perm timestamp sheet ?_⟩
    rw [verdicts_analyze_append_viewports]
  case targetsSplit =>
    intro viewports front back whole first second
    exact ⟨viewports_analyze_append_targets timestamp sheet viewports front back,
      summary_analyze_eq_add_of_perm timestamp sheet
        (verdicts_analyze_append_targets_perm timestamp sheet viewports front back)⟩
  case viewportsOrder =>
    intro config order horder run other
    exact ⟨(arranged_map ..).symm, summary_analyze_eq_of_perm timestamp sheet
      (verdicts_analyze_perm timestamp sheet (arranged_perm horder) (.refl _))⟩
  case targetsOrder =>
    intro config order horder run other
    exact ⟨viewports_analyze_arranged_targets timestamp sheet order config.viewports config.targets,
      summary_analyze_eq_of_perm timestamp sheet
        (verdicts_analyze_perm timestamp sheet (.refl _) (arranged_perm horder))⟩
  case reductions =>
    intro reduction total
    have htotal : total.IsTotalOf (reduction.items.flatMap fun pair ↦
        [sheet.verdict pair.1 pair.2]) :=
      Reduction.isTotalOf_total (sheet.isTotalOf_tally) reduction
    refine ⟨fun config h ↦ total_eq_summary_analyze timestamp sheet config h, ?_,
      htotal.totalTests_eq_add, htotal.warnings_le_passed⟩
    rw [htotal.totalTests, ← List.map_eq_flatMap, List.length_map]

/-- Two targets at two viewports, both lists turned round, and the four totals added up crosswise
with an empty part among them. -/
theorem analyze_regrouped_crosswise :
    let phone : Viewport := ⟨"Phone", 320, 48⟩
    let tablet : Viewport := ⟨"Tablet", 768, 44⟩
    let start : Target := ⟨"#start", "Start"⟩
    let pause : Target := ⟨"#pause", "Pause"⟩
    let config : Config := ⟨[phone, tablet], [start, pause]⟩
    let sheet := StyleSheet.parse "#start{width:50px;height:50px}"
    let run := config.analyze "now" sheet
    let reduction : Reduction (Viewport × Target) :=
      .plus (.one (tablet, start))
        (.sum [.plus (.one (phone, pause)) (.one (tablet, pause)), .sum [], .one (phone, start)])
    [1, 0].Perm (List.range config.viewports.length) ∧
      [1, 0].Perm (List.range config.targets.length) ∧
      reduction.items.Perm (config.viewports ×ˢ config.targets) ∧
      (analyze ⟨arranged [1, 0] config.viewports, config.targets⟩ "now" sheet).viewports =
        arranged [1, 0] run.viewports ∧
      (analyze ⟨config.viewports, arranged [1, 0] config.targets⟩ "now" sheet).viewports =
        run.viewports.map (.rearranged [1, 0]) ∧
      reduction.total (fun (viewport, target) ↦ sheet.tally viewport target) = run.summary := by
  intro phone tablet start pause config sheet run reduction
  have hviewports : [1, 0].Perm (List.range config.viewports.length) := by decide
  have htargets : [1, 0].Perm (List.range config.targets.length) := by decide
  have hitems : reduction.items.Perm (config.viewports ×ˢ config.targets) := by decide
  obtain ⟨-, -, hviewportsOrder, htargetsOrder, hreductions⟩ := analyze_regrouped "now" sheet
  exact ⟨hviewports, htargets, hitems, (hviewportsOrder config [1, 0] hviewports).1,
    (htargetsOrder config [1, 0] htargets).1, (hreductions reduction).1 config hitems⟩

end Config

end TouchTarget
