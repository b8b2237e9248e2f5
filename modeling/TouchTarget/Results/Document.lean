import TouchTarget.Json
import TouchTarget.Results

/-!
# Results as a document of data

The reports are the members of an object, in the order of the results and under the names of their
viewports. Viewports of one name give members of one name.
-/

namespace TouchTarget

def Pixels.toJson (pixels : Pixels) : Json :=
  .number pixels.toNat

def Status.word : Status → String
  | pass => "pass"
  | fail => "fail"

def Box.toJson (box : Box) : Json :=
  .object [("width", box.width.toJson), ("height", box.height.toJson)]

def Verdict.toJson (verdict : Verdict) : Json :=
  .object
    [("selector", .string verdict.selector),
      ("name", .string verdict.name),
      ("viewport", .string verdict.viewport),
      ("expected", verdict.expected.toJson),
      ("actual", verdict.actual.toJson),
      ("status", .string verdict.status.word),
      ("issues", .array (verdict.issues.map Json.string))]

/-- The name of a report is left to the object that holds it. -/
def ViewportReport.toJson (report : ViewportReport) : Json :=
  .object
    [("width", report.width.toJson),
      ("minSize", report.minSize.toJson),
      ("tests", .array (report.tests.map Verdict.toJson))]

def Summary.toJson (summary : Summary) : Json :=
  .object
    [("totalTests", .number summary.totalTests),
      ("passed", .number summary.passed),
      ("failed", .number summary.failed),
      ("warnings", .number summary.warnings)]

namespace Results

def toJson (results : Results) : Json :=
  .object
    [("timestamp", .string results.timestamp),
      ("viewports", .object (results.viewports.map fun report ↦ (report.name, report.toJson))),
      ("summary", results.summary.toJson)]

/-- The text of the saved report. -/
def document (results : Results) : String :=
  results.toJson.render

end Results

end TouchTarget
