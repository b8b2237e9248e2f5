import TouchTarget.Numeric.Quotient

/-!
# Numbers of a binary format

A binary format holds the numbers of limited precision that are whole multiples of its smallest
positive number. A number that is not negative is therefore a count of those multiples, and no
separate exponent is kept. Each operation computes exactly and rounds once.

Signs are left to the users of these numbers: rounding to the nearest number, ties to even, treats
both signs alike.
-/

namespace TouchTarget.Numeric

structure Format where
  /-- The most significant bits that a number has. -/
  precision : Nat
  /-- The smallest positive number is two to the power of minus the scale. -/
  scale : Nat
  /-- Numbers from two to the power of the limit on are infinite. -/
  limit : Nat
deriving DecidableEq, Repr

def binary32 : Format := ⟨24, 149, 128⟩

def binary64 : Format := ⟨53, 1074, 1024⟩

/-- A number of a format, not negative. -/
inductive Rounded (format : Format)
  | finite (units : Nat)
  | infinite
  /-- The outcome of an operation without a meaningful one. -/
  | undefined
deriving DecidableEq, Repr, Inhabited

/-- The multiple of a power of two, with at most `precision` significant bits, that is nearest. -/
def nearestWithin (precision num den : Nat) : Nat :=
  let spare := (num / den).log2 + 1 - precision
  nearest num (den <<< spare) <<< spare

/-- A power of ten as a quotient: the next power whose exponent is a multiple of ten, of which only
the leading bits are known, over the power of ten that it exceeds the wanted one by. Rounded to a
few bits less, the quotient gives the nearest number, save that the other neighbour is possible
where the exact power is almost half-way between two. -/
def nearPowTen (precision exponent : Nat) : Nat × Nat :=
  let next := (exponent + 9) / 10 * 10
  (nearestWithin precision (Nat.pow 10 next) 1, Nat.pow 10 (next - exponent))

variable {format : Format}

namespace Rounded

/-- The number nearest to `num / den`. -/
def ofQuotient (num den : Nat) : Rounded format :=
  let units := nearestWithin format.precision (num <<< format.scale) den
  if units < 1 <<< (format.scale + format.limit) then finite units else infinite

def ofNat (n : Nat) : Rounded format :=
  ofQuotient n 1

instance : Zero (Rounded format) := ⟨finite 0⟩

instance : Add (Rounded format) where
  add
    | finite left, finite right => ofQuotient (left + right) (1 <<< format.scale)
    | undefined, _ | _, undefined => undefined
    | infinite, _ | _, infinite => infinite

/-- Infinity times zero is undefined. -/
instance : Mul (Rounded format) where
  mul
    | finite left, finite right => ofQuotient (left * right) (1 <<< (2 * format.scale))
    | undefined, _ | _, undefined => undefined
    | infinite, right => if right = finite 0 then undefined else infinite
    | left, infinite => if left = finite 0 then undefined else infinite

/-- A power of ten, known to nine bits more than the format keeps before it is rounded. An exponent
above the scale or the limit makes it zero or infinite without the power being computed. -/
def powTen (isNegative : Bool) (exponent : Nat) : Rounded format :=
  if exponent ≤ if isNegative then format.scale else format.limit then
    let (power, excess) := nearPowTen (format.precision + 9) exponent
    if isNegative then ofQuotient excess power else ofQuotient power excess
  else if isNegative then 0 else infinite

/-- The nearest number of another format. -/
def convert (target : Format) : Rounded format → Rounded target
  | finite units => ofQuotient units (1 <<< format.scale)
  | infinite => infinite
  | undefined => undefined

/-- The fields of the format's bit pattern, the sign bit being zero. -/
def bits : Rounded format → Nat
  | finite units =>
    let fraction := 1 <<< (format.precision - 1)
    if units < fraction then units
    else
      let spare := units.log2 + 1 - format.precision
      spare * fraction + units >>> spare
  | infinite => (2 * format.limit - 1) <<< (format.precision - 1)
  | undefined =>
    (2 * format.limit - 1) <<< (format.precision - 1) + 1 <<< (format.precision - 2)

end Rounded

end TouchTarget.Numeric
