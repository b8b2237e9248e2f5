import TouchTarget.Results

/-!
# Results as text

The text lists the verdicts viewport by viewport, then the totals, and ends with one sentence on
the outcome. There is no line break behind that sentence.
-/

namespace TouchTarget

def Status.mark : Status → String
  | pass => "PASS"
  | fail => "FAIL"

def Verdict.lines (verdict : Verdict) : List String :=
  [s!"  [{verdict.status.mark}] {verdict.name} ({verdict.selector})",
    s!"         Size: {verdict.actual.width}x{verdict.actual.height}px"] ++
    verdict.issues.map fun issue ↦ s!"         - {issue}"

def ViewportReport.lines (report : ViewportReport) : List String :=
  ["",
    s!"{report.name} ({report.width}px)",
    s!"  Minimum requirement: {report.minSize}x{report.minSize}px"] ++
    report.tests.flatMap Verdict.lines

def Summary.lines (summary : Summary) : List String :=
  ["",
    "Summary",
    "=======",
    s!"Total Tests: {summary.totalTests}",
    s!"Passed:      {summary.passed}",
    s!"Failed:      {summary.failed}",
    s!"Warnings:    {summary.warnings}",
    s!"Pass Rate:   {summary.passRateText}%",
    ""]

namespace Results

def outcome (results : Results) : String :=
  if results.allPassed then "All touch targets meet accessibility requirements."
  else "Some touch targets need adjustment to meet requirements."

/-- The text of the printed report. -/
def text (results : Results) : String :=
  "\n".intercalate <|
    ["Touch Target Verification", "========================="] ++
      results.viewports.flatMap ViewportReport.lines ++ results.summary.lines ++
      [results.outcome]

end Results

end TouchTarget
