import TouchTarget.Numeric.Decimal
import TouchTarget.Verdict

/-!
# Totals

Every verdict counts as one test and either as passed or as failed. Warnings are counted apart.

A counter has 32 bits. There is one verdict for each pair of a viewport and a target, and no counter
counts a verdict twice: with fewer than `UInt32.size` pairs no counter overflows. The numbers here,
which have no bound, stand for the counters of such runs.
-/

namespace TouchTarget

open Numeric

structure Summary where
  totalTests : Nat := 0
  passed : Nat := 0
  failed : Nat := 0
  warnings : Nat := 0
deriving DecidableEq, Repr, Inhabited

namespace Summary

instance : Zero Summary := ⟨{}⟩

instance : Add Summary where
  add left right :=
    ⟨left.totalTests + right.totalTests, left.passed + right.passed, left.failed + right.failed,
      left.warnings + right.warnings⟩

/-- Counts one more verdict. -/
def record (summary : Summary) (verdict : Verdict) (warned : Bool) : Summary where
  totalTests := summary.totalTests + 1
  passed := summary.passed + if verdict.passed then 1 else 0
  failed := summary.failed + if verdict.passed then 0 else 1
  warnings := summary.warnings + if warned then 1 else 0

/-- The totals of the verdict on one box. -/
def of (target : Target) (viewport : Viewport) (box : Box) : Summary :=
  record 0 (.of target viewport box) (box.isWarnedAbout viewport.minSize)

def sum (summaries : List Summary) : Summary :=
  summaries.foldl (· + ·) 0

/-- The percentage of tests that passed; zero if there was no test. -/
def passRate (summary : Summary) : Rounded binary64 :=
  if summary.totalTests = 0 then 0
  else .ofQuotient summary.passed summary.totalTests * .ofNat 100

/-- The pass rate with one decimal place. -/
def passRateText (summary : Summary) : String :=
  match summary.passRate with
  | .finite units => .ofList (fixedPoint binary64 units 1)
  | .infinite => "inf"
  | .undefined => "NaN"

@[simp] theorem totalTests_zero : (0 : Summary).totalTests = 0 := rfl
@[simp] theorem passed_zero : (0 : Summary).passed = 0 := rfl
@[simp] theorem failed_zero : (0 : Summary).failed = 0 := rfl
@[simp] theorem warnings_zero : (0 : Summary).warnings = 0 := rfl

@[simp] theorem totalTests_add (left right : Summary) :
    (left + right).totalTests = left.totalTests + right.totalTests := rfl
@[simp] theorem passed_add (left right : Summary) :
    (left + right).passed = left.passed + right.passed := rfl
@[simp] theorem failed_add (left right : Summary) :
    (left + right).failed = left.failed + right.failed := rfl
@[simp] theorem warnings_add (left right : Summary) :
    (left + right).warnings = left.warnings + right.warnings := rfl

end Summary

end TouchTarget
