import TouchTarget.Config
import TouchTarget.SizeStyle

/-!
# The verdict on one target at one viewport

A verdict is about the box that a user can touch. The padding belongs to the box. A minimum
dimension goes before a plain one, and a dimension that is not given counts as zero.

A target passes if both dimensions of its box reach the minimum of the viewport. One that passes
and meets the accessibility minimum, but misses the recommended size, is warned about; that is an
issue of the verdict and no failure.
-/

namespace TouchTarget

structure Box where
  width : Pixels := 0
  height : Pixels := 0
deriving DecidableEq, Repr, Inhabited

def SizeStyle.box (style : SizeStyle) : Box where
  width := .add ((style.minWidth?.or style.width?).getD 0) style.padding.horizontal
  height := .add ((style.minHeight?.or style.height?).getD 0) style.padding.vertical

inductive Status
  | pass
  | fail
deriving DecidableEq, Repr, Inhabited

structure Verdict where
  selector : String
  name : String
  viewport : String
  /-- The minimum size at the viewport. -/
  expected : Pixels
  actual : Box
  status : Status
  /-- What is wrong, failures first. -/
  issues : List String
deriving DecidableEq, Repr, Inhabited

def Verdict.passed (verdict : Verdict) : Bool :=
  verdict.status = .pass

/-- The size that the accessibility guidelines ask for. -/
def accessibleSize : Pixels := 44

/-- The size that is recommended on mobile devices. -/
def recommendedSize : Pixels := 48

/-- What can be wrong with a box. -/
inductive Issue
  | tooNarrow (width minimum : Pixels)
  | tooLow (height minimum : Pixels)
  | belowRecommended
deriving DecidableEq, Repr

def Issue.message : Issue → String
  | tooNarrow width minimum => s!"Width {width}px is less than minimum {minimum}px"
  | tooLow height minimum => s!"Height {height}px is less than minimum {minimum}px"
  | belowRecommended =>
    s!"Below recommended {recommendedSize}x{recommendedSize}px for mobile " ++
      s!"(but meets WCAG {accessibleSize}x{accessibleSize}px)"

namespace Box

/-- Both dimensions reach a size. -/
def reaches (box : Box) (size : Pixels) : Bool :=
  size ≤ box.width && size ≤ box.height

def isWarnedAbout (box : Box) (minimum : Pixels) : Bool :=
  box.reaches minimum && !box.reaches recommendedSize && box.reaches accessibleSize

def issues (box : Box) (minimum : Pixels) : List Issue :=
  (if minimum ≤ box.width then [] else [.tooNarrow box.width minimum]) ++
    (if minimum ≤ box.height then [] else [.tooLow box.height minimum]) ++
    if box.isWarnedAbout minimum then [.belowRecommended] else []

end Box

/-- The verdict on a box, given the target and the viewport that it belongs to. -/
def Verdict.of (target : Target) (viewport : Viewport) (box : Box) : Verdict where
  selector := target.selector
  name := target.name
  viewport := viewport.name
  expected := viewport.minSize
  actual := box
  status := if box.reaches viewport.minSize then .pass else .fail
  issues := (box.issues viewport.minSize).map Issue.message

end TouchTarget
