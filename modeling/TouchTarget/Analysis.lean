import TouchTarget.Results

/-!
# Checking a sheet

Every target of a configuration is checked at every viewport: the sheet gives the style of the
target there, the style gives the box, and the box gives the verdict.
-/

namespace TouchTarget

namespace StyleSheet

/-- The box of a target at a viewport. -/
def boxOf (sheet : StyleSheet) (target : Target) (viewport : Viewport) : Box :=
  (sheet.resolve target.selector viewport.width).box

def verdict (sheet : StyleSheet) (viewport : Viewport) (target : Target) : Verdict :=
  .of target viewport (sheet.boxOf target viewport)

/-- The totals of one target at one viewport. -/
def tally (sheet : StyleSheet) (viewport : Viewport) (target : Target) : Summary :=
  .of target viewport (sheet.boxOf target viewport)

def report (sheet : StyleSheet) (targets : List Target) (viewport : Viewport) : ViewportReport :=
  .of viewport (targets.map (sheet.verdict viewport))

/-- The totals of all targets at one viewport. -/
def reportSummary (sheet : StyleSheet) (targets : List Target) (viewport : Viewport) : Summary :=
  .sum (targets.map (sheet.tally viewport))

end StyleSheet

/-- The results of a sheet, for a run that started at the given time. -/
def Config.analyze (config : Config) (timestamp : String) (sheet : StyleSheet) : Results where
  timestamp := timestamp
  viewports := config.viewports.map (sheet.report config.targets)
  summary := .sum (config.viewports.map (sheet.reportSummary config.targets))

end TouchTarget
