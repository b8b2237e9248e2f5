import TouchTarget.Summary

/-!
# Results of a run

A run gives one report for each viewport of the configuration, in its order, and the totals of all
of them. Two viewports may share a name.
-/

namespace TouchTarget

structure ViewportReport where
  name : String
  width : Pixels
  minSize : Pixels
  /-- The verdicts in the order of the targets. -/
  tests : List Verdict := []
deriving DecidableEq, Repr, Inhabited

def ViewportReport.of (viewport : Viewport) (tests : List Verdict) : ViewportReport :=
  ⟨viewport.name, viewport.width, viewport.minSize, tests⟩

structure Results where
  /-- When the run started. -/
  timestamp : String
  viewports : List ViewportReport := []
  summary : Summary := 0
deriving DecidableEq, Repr, Inhabited

namespace Results

def verdicts (results : Results) : List Verdict :=
  results.viewports.flatMap (·.tests)

/-- The first report for a viewport of this name. -/
def viewport? (results : Results) (name : String) : Option ViewportReport :=
  results.viewports.find? (·.name = name)

def allPassed (results : Results) : Bool :=
  results.summary.failed = 0

end Results

end TouchTarget
