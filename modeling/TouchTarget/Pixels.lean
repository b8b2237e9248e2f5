import TouchTarget.Numeric.Rounded

/-!
# Whole pixels

Lengths are whole pixels that fit 32 bits. Nothing wraps: what is too large becomes the largest
count.
-/

namespace TouchTarget

abbrev Pixels := UInt32

namespace Pixels

open Numeric

/-- The count itself, or the largest one if it is beyond that. -/
def clamp (count : Nat) : Pixels :=
  UInt32.ofNat (min count (UInt32.size - 1))

@[simp] theorem toNat_clamp (count : Nat) : (clamp count).toNat = min count (UInt32.size - 1) := by
  have hsize : UInt32.size = 2 ^ 32 := rfl
  rw [clamp, UInt32.toNat_ofNat', Nat.mod_eq_of_lt]
  omega

@[simp] theorem clamp_toNat (pixels : Pixels) : clamp pixels.toNat = pixels := by
  apply UInt32.toNat_inj.1
  have hlt : pixels.toNat < UInt32.size := pixels.toNat_lt_size
  rw [toNat_clamp]
  omega

/-- The sum, or the largest count. -/
def add (left right : Pixels) : Pixels :=
  clamp (left.toNat + right.toNat)

@[simp] theorem toNat_add (left right : Pixels) :
    (add left right).toNat = min (left.toNat + right.toNat) (UInt32.size - 1) :=
  toNat_clamp _

/-- The whole part of a number; an undefined one has none. -/
def ofRounded {format : Format} : Rounded format → Pixels
  | .finite units => clamp (units >>> format.scale)
  | .infinite => clamp UInt32.size
  | .undefined => 0

end Pixels

end TouchTarget
