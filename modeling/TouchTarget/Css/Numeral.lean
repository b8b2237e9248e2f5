import TouchTarget.Css.Token
import TouchTarget.Pixels
import TouchTarget.Text.Characters

/-!
# The value of a number in style text

Digits are taken in one by one, in double precision and with a rounding at every step: the whole
part grows by tens, and the fraction adds each digit times a factor that shrinks by tenths. The
exponent then multiplies by a power of ten. Only the end of it is rounded to single precision, and
a length in pixels is the whole part of that.
-/

namespace TouchTarget.Css

open Numeric

namespace Numeral

def ten : Rounded binary64 := .ofNat 10

def tenth : Rounded binary64 := .ofQuotient 1 10

def wholeValue (digits : List Nat) : Rounded binary64 :=
  digits.foldr (fun digit value ↦ value * ten + .ofNat digit) 0

/-- The sum of the digits so far and the factor of the next digit. -/
def fractionSum (digits : List Nat) : Rounded binary64 × Rounded binary64 :=
  digits.foldr (fun digit (value, factor) ↦ (value + .ofNat digit * factor, factor * tenth))
    (0, tenth)

/-- The value without its sign. -/
def magnitude (numeral : Numeral) : Rounded binary64 :=
  (wholeValue numeral.whole + (fractionSum numeral.fraction).1) *
    .powTen numeral.exponentNegative numeral.exponent

/-- The whole pixels of a length. A length below zero has none. -/
def pixels (numeral : Numeral) : Pixels :=
  if numeral.negative then 0 else .ofRounded (numeral.magnitude.convert binary32)

end Numeral

/-- The pixels of a token that is a length in pixels. -/
def Token.pixels? : Token → Option Pixels
  | .dimension value unit => if Text.sameLetters unit ['p', 'x'] then some value.pixels else none
  | _ => none

theorem Token.pixels?_eq_some_iff {token : Token} {pixels : Pixels} :
    token.pixels? = some pixels ↔ ∃ width unit, token = .dimension width unit ∧
      Text.sameLetters unit ['p', 'x'] ∧ width.pixels = pixels := by
  cases token with
  | dimension width unit =>
    rw [pixels?]
    constructor
    · intro h
      split at h
      next hunit => exact ⟨width, unit, rfl, hunit, Option.some.inj h⟩
      next => cases h
    · rintro ⟨otherWidth, otherUnit, heq, hunit, rfl⟩
      obtain ⟨rfl, rfl⟩ := Token.dimension.inj heq
      rw [if_pos hunit]
  | _ => simp [pixels?]

end TouchTarget.Css
