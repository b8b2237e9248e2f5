import TouchTarget.Numeric.Rounded

/-!
# Decimal text of binary numbers

Reading a decimal rounds it once. Writing with a fixed number of places rounds the exact value, a
tie going to the even digit. Writing in full gives the fewest digits that read back as the same
number, never with an exponent; of two such texts the nearer one, and the upper one of a tie.
-/

namespace TouchTarget.Numeric

variable {format : Format}

/--
The number nearest to `digits * 10 ^ exponent`. The bounds only spare the computation of powers
beyond the range of the format.
-/
def Rounded.ofDecimal (digits : Nat) (exponent : Int) : Rounded format :=
  if digits = 0 then 0
  else match exponent with
    | .ofNat up => if up ≤ format.limit then ofQuotient (digits * Nat.pow 10 up) 1 else infinite
    | .negSucc down =>
      if down < format.scale + digits.log2 + 2 then ofQuotient digits (Nat.pow 10 (down + 1)) else 0

/-- The decimal digits of a number, the first digit in front. -/
def decimalDigits (n : Nat) : List Char :=
  Nat.toDigits 10 n

/-- Decimal digits of which the last `places` stand behind the point. -/
def withPoint (digits : List Char) (places : Nat) : List Char :=
  let padded := List.replicate (places + 1 - digits.length) '0' ++ digits
  let whole := padded.length - places
  if places = 0 then padded else padded.take whole ++ '.' :: padded.drop whole

/-- A finite number with a fixed number of places. -/
def fixedPoint (format : Format) (units places : Nat) : List Char :=
  withPoint (decimalDigits (nearest (units * Nat.pow 10 places) (1 <<< format.scale))) places

/-- The least power of ten above a finite positive number. -/
def magnitude (format : Format) (units : Nat) : Int :=
  let one := 1 <<< format.scale
  if one ≤ units then (decimalDigits (units / one)).length
  else
    let below := (List.range format.scale).find? fun down ↦ one ≤ units * Nat.pow 10 (down + 1)
    Int.negOfNat (below.getD 0)

/-- The decimal grid point nearest to a number among those that read back, on one grid. -/
def readingBack? (format : Format) (units : Nat) (exponent : Int) : Option Nat :=
  let (num, den) := match exponent with
    | .ofNat up => (units, Nat.pow 10 up <<< format.scale)
    | .negSucc down => (units * Nat.pow 10 (down + 1), 1 <<< format.scale)
  let lower := num / den
  let readsBack (digits : Nat) : Bool :=
    (Rounded.ofDecimal digits exponent : Rounded format) = .finite units
  match readsBack lower, readsBack (lower + 1) with
  | true, true => some (if 2 * (num % den) < den then lower else lower + 1)
  | true, false => some lower
  | false, true => some (lower + 1)
  | false, false => none

/-- The shortest digits that read back, with their power of ten. -/
def shortest (format : Format) (units : Nat) : Nat × Int :=
  let top := magnitude format units
  let found := (List.range 18).findSome? fun count ↦
    let exponent := top - (count + 1 : Nat)
    (readingBack? format units exponent).map fun digits ↦
      if digits % 10 = 0 then (digits / 10, exponent + 1) else (digits, exponent)
  found.getD (units, 0)

/-- The shortest digits in positional notation, always with a point. -/
def positional (format : Format) (units : Nat) : List Char :=
  if units = 0 then ['0', '.', '0']
  else
    let (digits, exponent) := shortest format units
    match exponent with
    | .ofNat up => withPoint (decimalDigits (digits * Nat.pow 10 (up + 1))) 1
    | .negSucc down => withPoint (decimalDigits digits) (down + 1)

end TouchTarget.Numeric
