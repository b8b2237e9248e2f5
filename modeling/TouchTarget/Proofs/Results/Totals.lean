import TouchTarget.Analysis

/-!
# The totals are those of the verdicts

The results of a run are a grid with one verdict for each target at each viewport. The totals are
added up beside the verdicts, first for one viewport and then for all of them. The main statement
says that they are nevertheless what one counts among the verdicts of the grid, and that each
verdict is true of its box.
-/

namespace TouchTarget

/-! ## One verdict -/

namespace Verdict

/-- The verdict passes and has something to say all the same. -/
def isWarning (verdict : Verdict) : Bool :=
  verdict.passed && !verdict.issues.isEmpty

/-- The status and the issues of a verdict are right for its box and the minimum. -/
structure IsAccurate (verdict : Verdict) : Prop where
  passed_iff : verdict.passed ↔
    verdict.expected ≤ verdict.actual.width ∧ verdict.expected ≤ verdict.actual.height
  /-- A verdict that fails has one issue for each dimension that is too short. -/
  issues_of_failed : ¬verdict.passed → verdict.issues =
    (if verdict.actual.width < verdict.expected then
        [(Issue.tooNarrow verdict.actual.width verdict.expected).message] else []) ++
      if verdict.actual.height < verdict.expected then
        [(Issue.tooLow verdict.actual.height verdict.expected).message] else []
  /-- A verdict that passes has an issue if the box is accessible but not as recommended. -/
  isWarning_iff : verdict.isWarning ↔ verdict.passed ∧
    (44 ≤ verdict.actual.width ∧ 44 ≤ verdict.actual.height) ∧
      (verdict.actual.width < 48 ∨ verdict.actual.height < 48)

end Verdict

theorem Box.reaches_iff {box : Box} {size : Pixels} :
    box.reaches size ↔ size ≤ box.width ∧ size ≤ box.height := by
  rw [reaches, Bool.and_eq_true, decide_eq_true_iff, decide_eq_true_iff]

theorem Box.isWarnedAbout_iff {box : Box} {minimum : Pixels} :
    box.isWarnedAbout minimum ↔ box.reaches minimum ∧
      (44 ≤ box.width ∧ 44 ≤ box.height) ∧ (box.width < 48 ∨ box.height < 48) := by
  have haccessible : box.reaches accessibleSize ↔ 44 ≤ box.width ∧ 44 ≤ box.height := reaches_iff
  have hrecommended : (!box.reaches recommendedSize) ↔ box.width < 48 ∨ box.height < 48 := by
    rw [Bool.not_eq_true', ← Bool.not_eq_true, reaches_iff,
      Decidable.not_and_iff_not_or_not, UInt32.not_le, UInt32.not_le]
    rfl
  rw [isWarnedAbout, Bool.and_eq_true, Bool.and_eq_true, haccessible, hrecommended, and_assoc]
  exact and_congr_right fun _ ↦ and_comm

/-- A box that is big enough has an issue only if it is warned about. -/
theorem Box.issues_of_reaches {box : Box} {minimum : Pixels} (h : box.reaches minimum) :
    box.issues minimum = if box.isWarnedAbout minimum then [.belowRecommended] else [] := by
  obtain ⟨hwidth, hheight⟩ := reaches_iff.1 h
  rw [issues, if_pos hwidth, if_pos hheight, List.nil_append, List.nil_append]

/-- A box that is too small is not warned about. -/
theorem Box.issues_of_not_reaches {box : Box} {minimum : Pixels} (h : ¬box.reaches minimum) :
    box.issues minimum =
      (if box.width < minimum then [.tooNarrow box.width minimum] else []) ++
        if box.height < minimum then [.tooLow box.height minimum] else [] := by
  have hwarned : box.isWarnedAbout minimum = false := by
    rw [isWarnedAbout, Bool.eq_false_iff.2 h, Bool.false_and, Bool.false_and]
  rw [issues, hwarned, if_neg Bool.false_ne_true, List.append_nil]
  simp only [← UInt32.not_le, ite_not]

namespace Verdict

variable (target : Target) (viewport : Viewport) (box : Box)

theorem passed_of : (of target viewport box).passed = box.reaches viewport.minSize := by
  cases hreaches : box.reaches viewport.minSize <;> simp [of, passed, hreaches]

theorem isWarning_of : (of target viewport box).isWarning = box.isWarnedAbout viewport.minSize := by
  have hissues : (of target viewport box).issues =
      (box.issues viewport.minSize).map Issue.message := rfl
  rw [isWarning, passed_of, hissues, List.isEmpty_map]
  cases hreaches : box.reaches viewport.minSize with
  | false => rw [Box.isWarnedAbout, hreaches, Bool.false_and, Bool.false_and, Bool.false_and]
  | true =>
    rw [Box.issues_of_reaches hreaches, Bool.true_and]
    cases box.isWarnedAbout viewport.minSize <;> rfl

theorem isAccurate_of : (of target viewport box).IsAccurate where
  passed_iff := by
    rw [passed_of]
    exact Box.reaches_iff
  issues_of_failed := by
    rw [passed_of]
    intro hfailed
    have hissues : (of target viewport box).issues =
        (box.issues viewport.minSize).map Issue.message := rfl
    rw [hissues, Box.issues_of_not_reaches hfailed, List.map_append, apply_ite (List.map _),
      apply_ite (List.map _)]
    rfl
  isWarning_iff := by
    rw [isWarning_of, passed_of]
    exact Box.isWarnedAbout_iff

end Verdict

/-! ## Adding up -/

namespace Summary

/-- The totals are what one counts among the verdicts. -/
structure IsTotalOf (summary : Summary) (verdicts : List Verdict) : Prop where
  totalTests : summary.totalTests = verdicts.length
  passed : summary.passed = verdicts.countP (·.passed)
  failed : summary.failed = verdicts.countP (!·.passed)
  warnings : summary.warnings = verdicts.countP (·.isWarning)

theorem isTotalOf_nil : IsTotalOf 0 [] := ⟨rfl, rfl, rfl, rfl⟩

theorem isTotalOf_of (target : Target) (viewport : Viewport) (box : Box) :
    (of target viewport box).IsTotalOf [.of target viewport box] where
  totalTests := rfl
  passed := by
    rw [List.countP_singleton]
    exact Nat.zero_add _
  failed := by
    rw [List.countP_singleton, of, record]
    cases (Verdict.of target viewport box).passed <;> rfl
  warnings := by
    rw [List.countP_singleton, Verdict.isWarning_of]
    exact Nat.zero_add _

theorem IsTotalOf.add {left right : Summary} {before after : List Verdict}
    (hleft : left.IsTotalOf before) (hright : right.IsTotalOf after) :
    (left + right).IsTotalOf (before ++ after) where
  totalTests := by rw [totalTests_add, hleft.totalTests, hright.totalTests, List.length_append]
  passed := by rw [passed_add, hleft.passed, hright.passed, List.countP_append]
  failed := by rw [failed_add, hleft.failed, hright.failed, List.countP_append]
  warnings := by rw [warnings_add, hleft.warnings, hright.warnings, List.countP_append]

variable {Item : Type} {tally : Item → Summary} {verdicts : Item → List Verdict}

theorem IsTotalOf.foldl {summary : Summary} {before : List Verdict}
    (hbefore : summary.IsTotalOf before) (items : List Item)
    (h : ∀ item ∈ items, (tally item).IsTotalOf (verdicts item)) :
    ((items.map tally).foldl (· + ·) summary).IsTotalOf (before ++ items.flatMap verdicts) := by
  induction items generalizing summary before with
  | nil =>
    rw [List.flatMap_nil, List.append_nil]
    exact hbefore
  | cons item items ih =>
    obtain ⟨hitem, hitems⟩ := List.forall_mem_cons.1 h
    rw [List.flatMap_cons, ← List.append_assoc]
    exact ih (hbefore.add hitem) hitems

/-- The sum of totals is the total of all the verdicts they were counted among. -/
theorem isTotalOf_sum (items : List Item)
    (h : ∀ item ∈ items, (tally item).IsTotalOf (verdicts item)) :
    (sum (items.map tally)).IsTotalOf (items.flatMap verdicts) :=
  isTotalOf_nil.foldl items h

theorem IsTotalOf.totalTests_eq_add {summary : Summary} {verdicts : List Verdict}
    (h : summary.IsTotalOf verdicts) : summary.totalTests = summary.passed + summary.failed := by
  rw [h.totalTests, h.passed, h.failed, List.length_eq_countP_add_countP (·.passed)]
  simp only [Bool.not_eq_true, Bool.decide_eq_false]

theorem IsTotalOf.warnings_le_passed {summary : Summary} {verdicts : List Verdict}
    (h : summary.IsTotalOf verdicts) : summary.warnings ≤ summary.passed := by
  rw [h.warnings, h.passed]
  apply List.countP_mono_left
  intro verdict _ hwarning
  exact (Bool.and_eq_true_iff.1 hwarning).1

theorem IsTotalOf.failed_eq_zero_iff {summary : Summary} {verdicts : List Verdict}
    (h : summary.IsTotalOf verdicts) :
    summary.failed = 0 ↔ ∀ verdict ∈ verdicts, verdict.passed := by
  rw [h.failed, List.countP_eq_zero]
  simp only [Bool.not_eq_true', Bool.not_eq_false]

end Summary

/-! ## The grid -/

/-- The totals of one viewport are those of its report. -/
theorem StyleSheet.isTotalOf_reportSummary (sheet : StyleSheet) (targets : List Target)
    (viewport : Viewport) :
    (sheet.reportSummary targets viewport).IsTotalOf (sheet.report targets viewport).tests := by
  have htests : (sheet.report targets viewport).tests =
      targets.flatMap fun target ↦ [sheet.verdict viewport target] :=
    List.map_eq_flatMap
  rw [htests]
  exact Summary.isTotalOf_sum targets fun target _ ↦ Summary.isTotalOf_of target viewport _

namespace Config

variable (config : Config) (timestamp : String) (sheet : StyleSheet)

theorem verdicts_analyze : (config.analyze timestamp sheet).verdicts =
    config.viewports.flatMap fun viewport ↦ config.targets.map (sheet.verdict viewport) := by
  rw [Results.verdicts, analyze, List.flatMap_map]
  rfl

theorem isTotalOf_analyze : (config.analyze timestamp sheet).summary.IsTotalOf
    (config.analyze timestamp sheet).verdicts := by
  rw [verdicts_analyze]
  exact Summary.isTotalOf_sum config.viewports fun viewport _ ↦
    sheet.isTotalOf_reportSummary config.targets viewport

theorem length_verdicts_analyze : (config.analyze timestamp sheet).verdicts.length =
    config.viewports.length * config.targets.length := by
  rw [verdicts_analyze, List.length_flatMap]
  simp only [List.length_map, List.map_const', List.sum_replicate_nat]

theorem isAccurate_of_mem_verdicts {verdict : Verdict}
    (h : verdict ∈ (config.analyze timestamp sheet).verdicts) : verdict.IsAccurate := by
  rw [verdicts_analyze] at h
  obtain ⟨viewport, -, hviewport⟩ := List.mem_flatMap.1 h
  obtain ⟨target, -, rfl⟩ := List.mem_map.1 hviewport
  exact Verdict.isAccurate_of target viewport _

theorem allPassed_analyze : (config.analyze timestamp sheet).allPassed ↔
    ∀ verdict ∈ (config.analyze timestamp sheet).verdicts, verdict.passed := by
  rw [Results.allPassed, decide_eq_true_iff]
  exact (config.isTotalOf_analyze timestamp sheet).failed_eq_zero_iff

/-- The results have a report for each viewport and in it a verdict for each target, both in the
order of the configuration. Each verdict is that on the box that the sheet gives the target there,
and says of the box what is the case. The totals are what one counts among the verdicts: each of
them either passed or failed, the warnings are among those that passed, and a run without a failure
is one in which every verdict passed. No total is greater than the number of verdicts, so that it
fits wherever that number does. -/
theorem analyze_grid (config : Config) (timestamp : String) (sheet : StyleSheet) :
    let results := Config.analyze config timestamp sheet
    results.viewports = config.viewports.map (fun viewport ↦
        ⟨viewport.name, viewport.width, viewport.minSize,
          config.targets.map fun target ↦
            Verdict.of target viewport (sheet.resolve target.selector viewport.width).box⟩) ∧
      (∀ verdict ∈ results.verdicts, verdict.IsAccurate) ∧
      results.summary.IsTotalOf results.verdicts ∧
      results.summary.totalTests = config.viewports.length * config.targets.length ∧
      results.summary.totalTests = results.summary.passed + results.summary.failed ∧
      results.summary.warnings ≤ results.summary.passed ∧
      (results.allPassed ↔ ∀ verdict ∈ results.verdicts, verdict.passed) := by
  intro results
  have htotal : results.summary.IsTotalOf results.verdicts :=
    config.isTotalOf_analyze timestamp sheet
  have hlength : results.verdicts.length = config.viewports.length * config.targets.length :=
    config.length_verdicts_analyze timestamp sheet
  refine ⟨rfl, ?_, htotal, htotal.totalTests.trans hlength, htotal.totalTests_eq_add,
    htotal.warnings_le_passed, config.allPassed_analyze timestamp sheet⟩
  intro verdict hmem
  exact config.isAccurate_of_mem_verdicts timestamp sheet hmem

end Config

end TouchTarget
