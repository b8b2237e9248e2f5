import Mathlib.Data.Nat.Size
import Mathlib.Tactic.LinearCombination
import Mathlib.Tactic.NormNum
import TouchTarget.Proofs.Css.WholeLength

/-!
# Fractions of pixels

A length is truncated only after it has been rounded to single precision. So a fraction can take a
length up to the next whole number of pixels, and this happens from the middle of the last gap
between numbers of single precision on. The digits themselves make no such difference: however many
there are, their sum in double precision stays within a small part of that gap.

The error of a digit that is added is bounded by the precision. That alone would not bound the sum of
arbitrarily many digits. Once the factor of the next digit is small, the sum moves by no more than
twice what is added to it, and all that is still added is bounded by the factor.
-/

namespace TouchTarget

open Numeric

namespace Css

namespace Numeral

/-! ## Fractions in double precision -/

/-- The number that the digits of a fraction denote, the last digit in front. -/
def fractionOf (digits : List Nat) : ℚ :=
  (Nat.ofDigits 10 digits : Nat) / 10 ^ digits.length

theorem fractionOf_cons (d : Nat) (digits : List Nat) :
    fractionOf (d :: digits) = fractionOf digits + d * (1 / 10 ^ (digits.length + 1)) := by
  rw [fractionOf, fractionOf, Nat.ofDigits_cons, List.length_cons, pow_succ]
  push_cast
  field_simp
  ring

theorem place_succ (place : Nat) : (1 : ℚ) / 10 ^ place = 10 * (1 / 10 ^ (place + 1)) := by
  rw [pow_succ]
  field_simp

/-- A fraction is below one by the size of its last place. -/
theorem fractionOf_le {digits : List Nat} (hdigits : ∀ d ∈ digits, d < 10) :
    fractionOf digits ≤ 1 - 1 / 10 ^ digits.length := by
  induction digits with
  | nil => norm_num [fractionOf]
  | cons d digits ih =>
    rw [List.forall_mem_cons] at hdigits
    have hd : (d : ℚ) ≤ 9 := by exact_mod_cast Nat.le_of_lt_succ hdigits.1
    have htail := ih hdigits.2
    have hadded : d * ((1 : ℚ) / 10 ^ (digits.length + 1)) ≤ 9 * (1 / 10 ^ (digits.length + 1)) :=
      mul_le_mul_of_nonneg_right hd (by positivity)
    rw [place_succ] at htail
    rw [fractionOf_cons, List.length_cons]
    linarith

theorem value_nonneg (units : Nat) : 0 ≤ binary64.value units := by
  rw [Format.value]
  positivity

/-- The error of double precision against the size of the exact number. -/
theorem error_le {exact : ℚ} {units k : Nat} (h : IsNearest binary64 exact units) (hk : k ≤ 1074)
    (hexact : exact ≤ 2 ^ 53 / 2 ^ k) : |binary64.value units - exact| ≤ 1 / 2 ^ k := by
  apply h.error_le.trans
  apply max_le
  · have hpos : (0 : ℚ) < 2 ^ 53 := by positivity
    change exact / 2 ^ 53 ≤ _
    rwa [div_le_iff₀ hpos, div_mul_eq_mul_div, one_mul]
  · calc
      (1 : ℚ) / 2 / 2 ^ 1074 ≤ 1 / 2 ^ 1074 := by
        apply div_le_div_of_nonneg_right _ (by positivity)
        norm_num
      _ ≤ 1 / 2 ^ k := by
        apply one_div_le_one_div_of_le (by positivity)
        exact pow_le_pow_right₀ (by norm_num) hk

theorem exists_tenth : ∃ units, tenth = .finite units ∧
    |binary64.value units - 1 / 10| ≤ 1 / 2 ^ 56 := by
  obtain ⟨units, htenth, hnear⟩ : ∃ units, tenth = .finite units ∧
      IsNearest binary64 ((1 : Nat) / (10 : Nat)) units :=
    Rounded.exists_isNearest_ofQuotient precision_pos.1 (by decide) (k := 0) (by decide)
      (by norm_num)
  rw [Nat.cast_one] at hnear
  exact ⟨units, htenth, error_le hnear (by decide) (by norm_num)⟩

theorem place_le (place : Nat) : (1 : ℚ) / 10 ^ (place + 1) ≤ 1 / 10 := by
  apply one_div_le_one_div_of_le (by norm_num)
  exact le_self_pow₀ (by norm_num) (by omega)

/-- The factor of the next digit stays near to the place of that digit, and it shrinks. -/
theorem exists_factor_mul_tenth {factor place : Nat}
    (h : |binary64.value factor - 1 / 10 ^ (place + 1)| ≤ 1 / 2 ^ 55) :
    ∃ next, (.finite factor * tenth : Rounded binary64) = .finite next ∧
      |binary64.value next - 1 / 10 ^ (place + 1 + 1)| ≤ 1 / 2 ^ 55 ∧
      4 * binary64.value next ≤ binary64.value factor := by
  obtain ⟨units, htenth, htenthNear⟩ := exists_tenth
  have hplaceLe := place_le place
  have hplacePos : (0 : ℚ) < 1 / 10 ^ (place + 1) := by positivity
  have hplace := place_succ (place + 1)
  have hfactorNonneg := value_nonneg factor
  have htenthLe : binary64.value units ≤ 1 / 8 := by
    have habove := (abs_le.1 htenthNear).2
    norm_num at habove ⊢
    linarith
  have hfactorLe : binary64.value factor ≤ 1 / 8 := by
    have habove := (abs_le.1 h).2
    norm_num at habove hplaceLe ⊢
    linarith
  have hproductLe : binary64.value factor * binary64.value units ≤ 1 / 8 * (1 / 8) :=
    mul_le_mul hfactorLe htenthLe (value_nonneg units) (by norm_num)
  obtain ⟨next, hproduct, hnear⟩ : ∃ next,
      (.finite factor * .finite units : Rounded binary64) = .finite next ∧
        IsNearest binary64 (binary64.value factor * binary64.value units) next :=
    Rounded.exists_isNearest_mul precision_pos.1 (k := 0) (by decide) (by linarith)
  have herror : |binary64.value next - binary64.value factor * binary64.value units| ≤ 1 / 2 ^ 58 := by
    apply error_le hnear (by decide)
    apply hproductLe.trans
    norm_num
  have hexact : |binary64.value factor * binary64.value units - 1 / 10 ^ (place + 1 + 1)| ≤ 1 / 2 ^ 57 := by
    have hsplit : binary64.value factor * binary64.value units - 1 / 10 ^ (place + 1 + 1) =
        (binary64.value factor - 1 / 10 ^ (place + 1)) * binary64.value units +
          1 / 10 ^ (place + 1) * (binary64.value units - 1 / 10) := by
      rw [hplace]
      ring
    calc
      |binary64.value factor * binary64.value units - 1 / 10 ^ (place + 1 + 1)| ≤
          |binary64.value factor - 1 / 10 ^ (place + 1)| * binary64.value units +
            1 / 10 ^ (place + 1) * |binary64.value units - 1 / 10| := by
        rw [hsplit]
        apply (abs_add_le _ _).trans
        rw [abs_mul, abs_mul, abs_of_nonneg (value_nonneg units), abs_of_pos hplacePos]
      _ ≤ 1 / 2 ^ 55 * (1 / 8) + 1 / 10 * (1 / 2 ^ 56) := by
        apply add_le_add
        · exact mul_le_mul h htenthLe (value_nonneg units) (by positivity)
        · exact mul_le_mul hplaceLe htenthNear (abs_nonneg _) (by positivity)
      _ ≤ 1 / 2 ^ 57 := by norm_num
  refine ⟨next, by rw [htenth, hproduct], ?_, ?_⟩
  · apply (abs_sub_le _ (binary64.value factor * binary64.value units) _).trans
    apply (add_le_add herror hexact).trans
    norm_num
  · have hdouble := hnear.value_le_two_mul (mul_nonneg hfactorNonneg (value_nonneg units))
    have hshrink : binary64.value factor * binary64.value units ≤ binary64.value factor * (1 / 8) :=
      mul_le_mul_of_nonneg_left htenthLe hfactorNonneg
    linarith

/-- The sum goes up by the digit in its place, and not by much more. -/
theorem exists_sum_add_digit {sum factor d : Nat} (hd : d < 10)
    (hprecision : HasPrecision binary64.precision sum) (hsum : binary64.value sum ≤ 2)
    (hfactor : binary64.value factor ≤ 1 / 8) :
    ∃ next, (.finite sum + .ofNat d * .finite factor : Rounded binary64) = .finite next ∧
      HasPrecision binary64.precision next ∧
      |binary64.value next - (binary64.value sum + d * binary64.value factor)| ≤ 5 / 2 ^ 52 ∧
      binary64.value sum ≤ binary64.value next ∧
      binary64.value next ≤ binary64.value sum + 36 * binary64.value factor := by
  have hdigit : (Rounded.ofNat d : Rounded binary64) = .finite (d * 2 ^ binary64.scale) :=
    Rounded.ofNat_eq_whole precision_pos.1 (show _ < 2 ^ 53 by omega) (by decide)
  have hdLe : (d : ℚ) ≤ 9 := by exact_mod_cast Nat.le_of_lt_succ hd
  have hvalue : binary64.value (d * 2 ^ binary64.scale) * binary64.value factor =
      d * binary64.value factor := by
    rw [Format.value_whole]
  have hfactorNonneg := value_nonneg factor
  have hexactNonneg : (0 : ℚ) ≤ d * binary64.value factor := by positivity
  have hexactLe : d * binary64.value factor ≤ 9 * binary64.value factor :=
    mul_le_mul_of_nonneg_right hdLe hfactorNonneg
  obtain ⟨product, hproduct, hproductNear⟩ : ∃ product,
      (.finite (d * 2 ^ binary64.scale) * .finite factor : Rounded binary64) = .finite product ∧
        IsNearest binary64 (binary64.value (d * 2 ^ binary64.scale) * binary64.value factor)
          product :=
    Rounded.exists_isNearest_mul precision_pos.1 (k := 1) (by decide) (by rw [hvalue]; linarith)
  rw [hvalue] at hproductNear
  have hproductError : |binary64.value product - d * binary64.value factor| ≤ 1 / 2 ^ 52 := by
    apply error_le hproductNear (by decide)
    norm_num
    linarith
  have hproductLe := hproductNear.value_le_two_mul hexactNonneg
  have hproductNonneg := value_nonneg product
  obtain ⟨next, hnext, hnextNear⟩ : ∃ next,
      (.finite sum + .finite product : Rounded binary64) = .finite next ∧
        IsNearest binary64 (binary64.value sum + binary64.value product) next :=
    Rounded.exists_isNearest_add precision_pos.1 (k := 3) (by decide) (by linarith)
  have hnextError : |binary64.value next - (binary64.value sum + binary64.value product)| ≤
      1 / 2 ^ 50 := by
    apply error_le hnextNear (by decide)
    norm_num
    linarith
  refine ⟨next, by rw [hdigit, hproduct, hnext], hnextNear.hasPrecision, ?_, ?_, ?_⟩
  · rw [abs_le] at hproductError hnextError ⊢
    norm_num at hproductError hnextError ⊢
    constructor <;> linarith
  · exact hnextNear.le_value hprecision (by linarith)
  · have hbelow := (abs_le.1 (hnextNear.error_le_sub hprecision (by linarith))).2
    linarith

/-- A sum in double precision, with the factor of the next digit, is near to the fraction. The first
digits add their rounding errors. The later ones are too small for that, and how far they can move
the sum is bounded by the factor. -/
structure IsNearFraction (digits : List Nat) (sum factor : Nat) : Prop where
  hasPrecision : HasPrecision binary64.precision sum
  factor_near : |binary64.value factor - 1 / 10 ^ (digits.length + 1)| ≤ 1 / 2 ^ 55
  sum_near_of_le (h : digits.length ≤ 18) :
    |binary64.value sum - fractionOf digits| ≤ digits.length * (1 / 2 ^ 49)
  sum_near_of_ge (h : 18 ≤ digits.length) :
    |binary64.value sum - fractionOf digits| + 48 * binary64.value factor +
      1 / 10 ^ digits.length ≤ 1 / 2 ^ 44

namespace IsNearFraction

variable {digits : List Nat} {sum factor : Nat}

theorem factor_le (h : IsNearFraction digits sum factor) : binary64.value factor ≤ 1 / 8 := by
  have habove := (abs_le.1 h.factor_near).2
  have hplace := place_le digits.length
  norm_num at habove hplace ⊢
  linarith

theorem sum_near (h : IsNearFraction digits sum factor) :
    |binary64.value sum - fractionOf digits| ≤ 1 / 2 ^ 44 := by
  rcases Nat.le_total digits.length 18 with hle | hge
  · apply (h.sum_near_of_le hle).trans
    have hlength : (digits.length : ℚ) ≤ 18 := by exact_mod_cast hle
    norm_num
    linarith
  · have hbound := h.sum_near_of_ge hge
    have hfactor := value_nonneg factor
    have hplace : (0 : ℚ) < 1 / 10 ^ digits.length := by positivity
    linarith

/-- At eighteen digits the factor is small enough to bound what follows. -/
theorem of_sum_near_of_le (hprecision : HasPrecision binary64.precision sum)
    (hfactor : |binary64.value factor - 1 / 10 ^ (digits.length + 1)| ≤ 1 / 2 ^ 55)
    (h : digits.length ≤ 18)
    (hsum : |binary64.value sum - fractionOf digits| ≤ digits.length * (1 / 2 ^ 49)) :
    IsNearFraction digits sum factor where
  hasPrecision := hprecision
  factor_near := hfactor
  sum_near_of_le _ := hsum
  sum_near_of_ge hge := by
    have hlength : digits.length = 18 := Nat.le_antisymm h hge
    have habove := (abs_le.1 hfactor).2
    rw [hlength] at habove hsum ⊢
    norm_num at habove hsum ⊢
    linarith

end IsNearFraction

theorem isNearFraction_nil {factor : Nat} (h : |binary64.value factor - 1 / 10| ≤ 1 / 2 ^ 56) :
    IsNearFraction [] 0 factor := by
  apply IsNearFraction.of_sum_near_of_le (hasPrecision_of_lt (by decide)) _ (Nat.zero_le _)
  · norm_num [Format.value, fractionOf]
  · rw [List.length_nil, zero_add, pow_one]
    apply h.trans
    norm_num

/-- One more digit keeps the sum near to the fraction. -/
theorem exists_isNearFraction_cons {d : Nat} {digits : List Nat} {sum factor : Nat} (hd : d < 10)
    (hdigits : ∀ d ∈ digits, d < 10) (h : IsNearFraction digits sum factor) :
    ∃ nextSum nextFactor,
      (.finite sum + .ofNat d * .finite factor : Rounded binary64) = .finite nextSum ∧
        (.finite factor * tenth : Rounded binary64) = .finite nextFactor ∧
          IsNearFraction (d :: digits) nextSum nextFactor := by
  have hsum : binary64.value sum ≤ 2 := by
    have habove := (abs_le.1 h.sum_near).2
    have hlast : (0 : ℚ) < 1 / 10 ^ digits.length := by positivity
    have hfraction := fractionOf_le hdigits
    norm_num at habove
    linarith
  have hdLe : (d : ℚ) ≤ 9 := by exact_mod_cast Nat.le_of_lt_succ hd
  obtain ⟨nextSum, hadd, hprecision, herror, hle, hge⟩ :=
    exists_sum_add_digit hd h.hasPrecision hsum h.factor_le
  obtain ⟨nextFactor, hmul, hnear, hshrink⟩ := exists_factor_mul_tenth h.factor_near
  have hlength : (d :: digits).length = digits.length + 1 := List.length_cons
  rw [← hlength] at hnear
  refine ⟨nextSum, nextFactor, hadd, hmul, ?_⟩
  rcases Nat.lt_or_ge digits.length 18 with hlt | hfull
  · apply IsNearFraction.of_sum_near_of_le hprecision hnear (hlength ▸ hlt)
    have hbefore := h.sum_near_of_le (Nat.le_of_lt hlt)
    have hplace : |d * binary64.value factor - d * (1 / 10 ^ (digits.length + 1))| ≤
        9 * (1 / 2 ^ 55) := by
      rw [← mul_sub, abs_mul, Nat.abs_cast]
      exact mul_le_mul hdLe h.factor_near (abs_nonneg _) (by norm_num)
    rw [fractionOf_cons, hlength]
    push_cast
    rw [abs_le] at hbefore hplace herror ⊢
    norm_num at hbefore hplace herror ⊢
    constructor <;> linarith
  · refine ⟨hprecision, hnear, fun hshort ↦ by omega, fun _ ↦ ?_⟩
    have hbefore := h.sum_near_of_ge hfull
    have hmoved : |binary64.value nextSum - fractionOf (d :: digits)| ≤
        |binary64.value sum - fractionOf digits| + 36 * binary64.value factor +
          9 * (1 / 10 ^ (digits.length + 1)) := by
      have hadded : d * ((1 : ℚ) / 10 ^ (digits.length + 1)) ≤
          9 * (1 / 10 ^ (digits.length + 1)) := mul_le_mul_of_nonneg_right hdLe (by positivity)
      have haddedNonneg : 0 ≤ d * ((1 : ℚ) / 10 ^ (digits.length + 1)) := by positivity
      have hlower := neg_abs_le (binary64.value sum - fractionOf digits)
      have hupper := le_abs_self (binary64.value sum - fractionOf digits)
      have hfactorNonneg := value_nonneg factor
      rw [fractionOf_cons, abs_le]
      constructor <;> linarith
    have hplace := place_succ digits.length
    rw [hlength]
    linarith

/-- However many digits a fraction has, its value in double precision is near to it. -/
theorem exists_fractionSum_eq {digits : List Nat} (hdigits : ∀ d ∈ digits, d < 10) :
    ∃ sum factor, fractionSum digits = (.finite sum, .finite factor) ∧
      IsNearFraction digits sum factor := by
  induction digits with
  | nil =>
    obtain ⟨factor, htenth, hnear⟩ := exists_tenth
    exact ⟨0, factor, congrArg (Prod.mk 0) htenth, isNearFraction_nil hnear⟩
  | cons d digits ih =>
    rw [List.forall_mem_cons] at hdigits
    obtain ⟨sum, factor, hfractionSum, hnear⟩ := ih hdigits.2
    obtain ⟨nextSum, nextFactor, hadd, hmul, hnext⟩ :=
      exists_isNearFraction_cons hdigits.1 hdigits.2 hnear
    have hstep : fractionSum (d :: digits) = ((fractionSum digits).1 + .ofNat d * (fractionSum digits).2,
        (fractionSum digits).2 * tenth) := rfl
    refine ⟨nextSum, nextFactor, ?_, hnext⟩
    rw [hstep, hfractionSum, hadd, hmul]


/-! ## Whole numbers with fractions in double precision -/

/-- The distance between the numbers of single precision from a whole number to the next one. -/
def gap (n : Nat) : ℚ :=
  2 ^ n.size / 2 ^ 24

theorem one_div_two_pow_le_gap (n : Nat) : 1 / 2 ^ 24 ≤ gap n := by
  rw [gap]
  apply div_le_div_of_nonneg_right _ (by positivity)
  exact one_le_pow₀ (by norm_num)

theorem gap_le_one {n : Nat} (h : n < 2 ^ 24) : gap n ≤ 1 := by
  rw [gap, div_le_one (by positivity)]
  exact pow_le_pow_right₀ (by norm_num) (Nat.size_le.2 h)

theorem magnitude_fraction (whole fraction : List Nat) :
    magnitude { whole := whole, fraction := fraction } =
      (wholeValue whole + (fractionSum fraction).1) * .whole 1 := by
  rw [← powTen_zero]
  rfl

/-- Multiplying by one changes nothing. -/
theorem finite_mul_whole_one {units k : Nat} (hprecision : HasPrecision binary64.precision units)
    (hk : k < 1024) (h : binary64.value units ≤ 2 ^ k) :
    (.finite units * .whole 1 : Rounded binary64) = .finite units := by
  have hone : binary64.value units * binary64.value (1 * 2 ^ binary64.scale) =
      binary64.value units := by
    rw [Format.value_whole, Nat.cast_one, mul_one]
  obtain ⟨same, hmul, hsame⟩ := Rounded.exists_isNearest_mul (b := 1 * 2 ^ binary64.scale)
    precision_pos.1 hk (hone.trans_le h)
  rw [hone] at hsame
  rw [Rounded.whole, hmul, hsame.eq_of_value hprecision]

/-- A whole number and a fraction are in double precision what they denote, up to an error that is
small against the distance between the numbers of single precision. -/
theorem exists_magnitude_eq {whole fraction : List Nat} (hwhole : Nat.ofDigits 10 whole < 2 ^ 24)
    (hfraction : ∀ d ∈ fraction, d < 10) :
    ∃ units, magnitude { whole := whole, fraction := fraction } = .finite units ∧
      (Nat.ofDigits 10 whole : Nat) ≤ binary64.value units ∧
      |binary64.value units - ((Nat.ofDigits 10 whole : Nat) + fractionOf fraction)| ≤
        gap (Nat.ofDigits 10 whole) / 2 ^ 19 := by
  obtain ⟨sum, factor, hfractionSum, hsum⟩ := exists_fractionSum_eq hfraction
  have hfractionLe := fractionOf_le hfraction
  have hlast : (0 : ℚ) < 1 / 10 ^ fraction.length := by positivity
  have hsumNear := hsum.sum_near
  have hsumNonneg := value_nonneg sum
  have hfraction : (fractionSum fraction).1 = .finite sum := by rw [hfractionSum]
  rw [magnitude_fraction, wholeValue_eq_whole (Nat.lt_trans hwhole (by decide)), hfraction]
  generalize Nat.ofDigits 10 whole = n at hwhole ⊢
  have hn : (n : ℚ) + 1 ≤ 2 ^ n.size := by exact_mod_cast Nat.lt_size_self n
  have hsize : n.size ≤ 24 := Nat.size_le.2 hwhole
  have hvalue : binary64.value (n * 2 ^ binary64.scale) = n := Format.value_whole _ n
  have hprecision : HasPrecision binary64.precision (n * 2 ^ binary64.scale) :=
    (hasPrecision_of_lt (show n < 2 ^ 53 by omega)).mul_two_pow _
  have hone : (1 : ℚ) ≤ 2 ^ n.size := one_le_pow₀ (by norm_num)
  have hpow : (2 : ℚ) ^ n.size ≤ 2 ^ 24 := pow_le_pow_right₀ (by norm_num) hsize
  have hsumLe : binary64.value sum ≤ 1 + 1 / 2 ^ 44 := by
    have habove := (abs_le.1 hsumNear).2
    linarith
  norm_num at hsumLe hpow
  obtain ⟨units, hadd, hunits⟩ : ∃ units,
      (.finite (n * 2 ^ binary64.scale) + .finite sum : Rounded binary64) = .finite units ∧
        IsNearest binary64 (binary64.value (n * 2 ^ binary64.scale) + binary64.value sum) units :=
    Rounded.exists_isNearest_add precision_pos.1 (k := 25) (by decide)
      (by rw [hvalue]; norm_num; linarith)
  rw [hvalue] at hunits
  have herror : |binary64.value units - (n + binary64.value sum)| ≤ 1 / 2 ^ (52 - n.size) := by
    apply error_le hunits (by omega)
    have hsplit : (2 : ℚ) ^ 53 / 2 ^ (52 - n.size) = 2 * 2 ^ n.size := by
      rw [div_eq_iff (by positivity), mul_assoc, ← pow_add, ← pow_succ']
      congr 1
      omega
    rw [hsplit]
    linarith
  have hnear : |binary64.value units - (n + fractionOf fraction)| ≤ gap n / 2 ^ 19 := by
    have hhalf : (1 : ℚ) / 2 ^ (52 - n.size) = gap n / 2 ^ 28 := by
      rw [gap, div_div, ← pow_add, div_eq_div_iff (by positivity) (by positivity), one_mul, ← pow_add]
      congr 1
      omega
    have hgap := one_div_two_pow_le_gap n
    rw [hhalf] at herror
    rw [abs_le] at herror hsumNear ⊢
    norm_num at herror hsumNear hgap ⊢
    constructor <;> linarith
  have hle : (n : ℚ) ≤ binary64.value units := by
    rw [← hvalue]
    apply hunits.le_value hprecision
    rw [hvalue]
    linarith
  have hunitsLe : binary64.value units ≤ 2 ^ 25 := by
    have habove := (abs_le.1 hnear).2
    have hgap := gap_le_one hwhole
    norm_num at habove ⊢
    linarith
  have hwholeAdd : (Rounded.whole n + .finite sum : Rounded binary64) = .finite units := hadd
  refine ⟨units, ?_, hle, hnear⟩
  rw [hwholeAdd]
  have hk : 25 < 1024 := by decide
  exact finite_mul_whole_one hunits.hasPrecision hk hunitsLe

/-! ## From double precision to pixels -/

theorem le_ofRounded_convert_iff {source target : Format} (hlimit : 32 ≤ target.limit)
    {units m : Nat} (hm : m < UInt32.size) :
    m ≤ (Pixels.ofRounded ((.finite units : Rounded source).convert target)).toNat ↔
      m * 2 ^ target.scale ≤
        nearestWithin target.precision (units * 2 ^ target.scale) (2 ^ source.scale) := by
  have hsize : UInt32.size = 2 ^ 32 := rfl
  rw [Rounded.convert, Rounded.ofQuotient, Nat.shiftLeft_eq, Nat.one_shiftLeft, Nat.one_shiftLeft]
  generalize nearestWithin target.precision (units * 2 ^ target.scale) (2 ^ source.scale) = rounded
  split
  next hfinite =>
    rw [Pixels.ofRounded, Pixels.toNat_clamp, Nat.le_min, Nat.shiftRight_eq_div_pow,
      Nat.le_div_iff_mul_le (Nat.two_pow_pos _)]
    exact and_iff_left (Nat.le_pred_of_lt hm)
  next hinfinite =>
    have hlarge : m * 2 ^ target.scale ≤ rounded := calc
      m * 2 ^ target.scale ≤ 2 ^ 32 * 2 ^ target.scale := Nat.mul_le_mul_right _ (Nat.le_of_lt hm)
      _ ≤ 2 ^ (target.scale + target.limit) := by
        rw [← Nat.pow_add]
        exact Nat.pow_le_pow_right (by decide) (by omega)
      _ ≤ rounded := Nat.le_of_not_lt hinfinite
    rw [Pixels.ofRounded, Pixels.toNat_clamp]
    omega

/-- The next whole number, counted in the gap. The number of gaps before it has all the bits of single
precision. -/
theorem exists_gaps {n : Nat} (hn : n < 2 ^ 24) :
    ∃ k, (n + 1) * 2 ^ (24 - n.size) = k + 1 ∧ 2 ^ 23 ≤ k ∧ k < 2 ^ 24 ∧
      (k % 2 = 1 ↔ (n.size = 24 → n % 2 = 1)) := by
  have hsize : n.size ≤ 24 := Nat.size_le.2 hn
  obtain ⟨k, hk⟩ : ∃ k, (n + 1) * 2 ^ (24 - n.size) = k + 1 :=
    Nat.exists_eq_succ_of_ne_zero (Nat.ne_of_gt (Nat.mul_pos n.succ_pos (Nat.two_pow_pos _)))
  refine ⟨k, hk, ?_, ?_, ?_⟩
  · by_cases hzero : n = 0
    · subst hzero
      rw [Nat.size_zero] at hk
      omega
    · have hpos : 0 < n.size := Nat.size_pos.2 (Nat.pos_of_ne_zero hzero)
      have hge : 2 ^ (n.size - 1) ≤ n := Nat.lt_size.1 (Nat.sub_one_lt (Nat.ne_of_gt hpos))
      have hlt : 2 ^ (n.size - 1) * 2 ^ (24 - n.size) < (n + 1) * 2 ^ (24 - n.size) :=
        Nat.mul_lt_mul_of_pos_right (Nat.lt_succ_of_le hge) (Nat.two_pow_pos _)
      rw [← Nat.pow_add, hk, show n.size - 1 + (24 - n.size) = 23 by omega] at hlt
      exact Nat.le_of_lt_succ hlt
  · have hle : (n + 1) * 2 ^ (24 - n.size) ≤ 2 ^ n.size * 2 ^ (24 - n.size) :=
      Nat.mul_le_mul_right _ (Nat.lt_size_self n)
    rw [← Nat.pow_add, Nat.add_sub_cancel' hsize, hk] at hle
    exact hle
  · rcases Nat.eq_or_lt_of_le hsize with heq | hlt
    · rw [heq, Nat.sub_self, pow_zero, mul_one] at hk
      have hsame : k = n := by omega
      rw [hsame]
      exact ⟨fun hone _ ↦ hone, fun hone ↦ hone heq⟩
    · obtain ⟨more, hmore⟩ := Nat.exists_eq_add_of_lt hlt
      have heven : k + 1 = 2 * ((n + 1) * 2 ^ more) := by
        rw [← hk, show 24 - n.size = more + 1 by omega, pow_succ]
        ring
      exact ⟨fun _ heq ↦ absurd heq (Nat.ne_of_lt hlt), fun _ ↦ by omega⟩

/-- A number between a whole number and the next one reaches the next one in single precision from
the middle of the last gap on. The middle itself is rounded to the even side. -/
theorem lt_ofRounded_convert_iff {n units : Nat} (hn : n < 2 ^ 24) :
    n < (Pixels.ofRounded ((.finite units : Rounded binary64).convert binary32)).toNat ↔
      n + 1 - gap n / 2 < binary64.value units ∨
        binary64.value units = n + 1 - gap n / 2 ∧ (n.size = 24 → n % 2 = 1) := by
  obtain ⟨k, hk, hlower, hupper, hodd⟩ := exists_gaps hn
  have hscale : binary32.scale = 24 - n.size + (n.size + 125) := by
    have hsize : n.size ≤ 24 := Nat.size_le.2 hn
    have hvalue : binary32.scale = 149 := rfl
    omega
  have hwhole : (n + 1) * 2 ^ binary32.scale = (k + 1) * 2 ^ (n.size + 125) := by
    rw [hscale, Nat.pow_add, ← Nat.mul_assoc, hk]
  rw [← Nat.succ_le_iff, Nat.succ_eq_add_one, le_ofRounded_convert_iff (by decide)
    (show n + 1 < 2 ^ 32 by omega), hwhole, succ_mul_le_nearestWithin_iff precision_pos.2
    (Nat.two_pow_pos _) hlower hupper, hodd]
  -- The middle, counted in the smallest positive number of both precisions.
  have hpos : (0 : ℚ) < 2 * 2 ^ binary64.scale * 2 ^ binary32.scale := by positivity
  have hmiddle : ((2 ^ binary64.scale * 2 ^ (n.size + 125) * (2 * k + 1) : Nat) : ℚ) =
      (n + 1 - gap n / 2) * (2 * 2 ^ binary64.scale * 2 ^ binary32.scale) := by
    have hwholeCast : ((n : ℚ) + 1) * 2 ^ binary32.scale = (k + 1) * 2 ^ (n.size + 125) := by
      exact_mod_cast hwhole
    have hgap : gap n * 2 ^ binary32.scale = 2 ^ (n.size + 125) := by
      rw [gap, div_mul_eq_mul_div, div_eq_iff (by positivity), ← pow_add, ← pow_add]
      rfl
    push_cast
    linear_combination (-2 * 2 ^ binary64.scale) * hwholeCast + 2 ^ binary64.scale * hgap
  have hunits : ((2 * (units * 2 ^ binary32.scale) : Nat) : ℚ) =
      binary64.value units * (2 * 2 ^ binary64.scale * 2 ^ binary32.scale) := by
    rw [Format.value]
    push_cast
    field_simp
  rw [← Nat.cast_lt (α := ℚ), ← Nat.cast_inj (R := ℚ), hmiddle, hunits, mul_lt_mul_iff_left₀ hpos,
    mul_left_inj' (ne_of_gt hpos), eq_comm]

/-- A number between a whole number and the next one has the pixels of one of the two. -/
theorem toNat_ofRounded_convert {n units : Nat} (hn : n < 2 ^ 24) (hlower : n ≤ binary64.value units)
    (hupper : binary64.value units ≤ n + 1 + 1 / 4) :
    (Pixels.ofRounded ((.finite units : Rounded binary64).convert binary32)).toNat = n ∨
      (Pixels.ofRounded ((.finite units : Rounded binary64).convert binary32)).toNat = n + 1 := by
  have hnCast : (n : ℚ) + 1 ≤ 2 ^ 24 := by exact_mod_cast hn
  have hwhole {m : Nat} (hm : m ≤ 2 ^ 24) :
      HasPrecision binary32.precision (m * 2 ^ binary32.scale) :=
    (hasPrecision_of_le precision_pos.2 hm).mul_two_pow _
  obtain ⟨single, hconvert, hnear⟩ : ∃ single,
      (.finite units : Rounded binary64).convert binary32 = .finite single ∧
        IsNearest binary32 (binary64.value units) single :=
    Rounded.exists_isNearest_convert precision_pos.2 (k := 25) (by decide)
      (by norm_num at hnCast ⊢; linarith)
  have hle := hnear.le_value (hwhole (Nat.le_of_lt hn)) (by rwa [Format.value_whole])
  have hlt : binary32.value single < binary32.value ((n + 2) * 2 ^ binary32.scale) := by
    rw [Format.value_whole]
    push_cast
    rcases lt_or_ge (binary64.value units) (n + 1) with hbelow | hreached
    · have habove := (abs_le.1 (hnear.error_le_sub (hwhole (Nat.le_of_lt hn))
        (by rwa [Format.value_whole]))).2
      rw [Format.value_whole] at habove
      linarith
    · have habove := (abs_le.1 (hnear.error_le_sub (hwhole hn)
        (by rw [Format.value_whole]; exact_mod_cast hreached))).2
      rw [Format.value_whole] at habove
      push_cast at habove
      linarith
  have hfloorLe : n ≤ single / 2 ^ binary32.scale :=
    (Nat.le_div_iff_mul_le (Nat.two_pow_pos _)).2 (Format.value_le_value.1 hle)
  have hfloorLt : single / 2 ^ binary32.scale < n + 2 := by
    rw [Nat.div_lt_iff_lt_mul (Nat.two_pow_pos _)]
    exact Nat.lt_of_not_le fun hge ↦ absurd (Format.value_le_value.2 hge) (not_le.2 hlt)
  have hsize : UInt32.size = 2 ^ 32 := rfl
  rw [hconvert, Pixels.ofRounded, Pixels.toNat_clamp, Nat.shiftRight_eq_div_pow]
  omega

end Numeral

/-! ## Texts of fractions -/

namespace State

/-- A point takes in the digits that follow. -/
theorem run_fraction (value : Numeral) {digits : List Char} (h : ∀ c ∈ digits, c.isDigit) :
    (fraction value).run digits =
      some (fraction { value with fraction := (digits.map digit).reverse ++ value.fraction }) := by
  induction digits generalizing value with
  | nil => rfl
  | cons c digits ih =>
    rw [List.forall_mem_cons] at h
    rw [run, step, if_pos h.1, Option.bind_some, ih _ h.2]
    simp [withFractionDigit]

theorem run_point (value : Numeral) {digits : List Char} (hne : digits ≠ [])
    (h : ∀ c ∈ digits, c.isDigit) :
    (point value).run digits =
      some (fraction { value with fraction := (digits.map digit).reverse ++ value.fraction }) := by
  obtain ⟨c, digits, rfl⟩ := List.exists_cons_of_ne_nil hne
  rw [List.forall_mem_cons] at h
  rw [run, step, if_pos h.1, Option.bind_some, run_fraction _ h.2]
  simp [withFractionDigit]

end State

/-- The number that the digits of a whole part and of a fraction are read as. -/
def decimal (whole fraction : String) : Numeral where
  whole := (whole.toList.map digit).reverse
  fraction := (fraction.toList.map digit).reverse

/-- The number that the digits of a whole part and of a fraction denote. -/
def denotedDecimal (whole fraction : String) : ℚ :=
  denoted whole + denoted fraction / 10 ^ fraction.length

theorem fractionOf_reverse_map_digit (digits : String) :
    Numeral.fractionOf (digits.toList.map digit).reverse = denoted digits / 10 ^ digits.length := by
  rw [Numeral.fractionOf, Numeral.ofDigits_reverse_map_digit, List.length_reverse, List.length_map,
    String.length_toList, denoted]

variable {whole fraction : String}

theorem length?_decimal (hwhole : IsDigits whole) (hfraction : IsDigits fraction) :
    length? (whole ++ "." ++ fraction ++ "px") = some (decimal whole fraction).pixels := by
  have hrun : State.start.run (whole ++ "." ++ fraction).toList =
      some (.fraction (decimal whole fraction)) := by
    rw [String.toList_append, String.toList_append, State.run_append, State.run_append,
      State.run_digits hwhole.toList_ne_nil hwhole.2]
    exact (State.run_point _ hfraction.toList_ne_nil hfraction.2).trans (by simp [decimal])
  exact length?_append_px hrun rfl

/-- A fraction is truncated up to the middle of the last gap between numbers of single precision below
the next whole number, and from there on the length is that next number. The side is that of the sum
of the digits in double precision, which is the number denoted but for a small part of the gap. In
particular a fraction is truncated if one in its last place is not smaller than the gap. -/
theorem length?_of_fraction (hwhole : IsDigits whole) (hfraction : IsDigits fraction)
    (hlt : denoted whole < 2 ^ 24) :
    ∃ pixels units, length? (whole ++ "." ++ fraction ++ "px") = some pixels ∧
      (decimal whole fraction).magnitude = .finite units ∧
      |binary64.value units - denotedDecimal whole fraction| ≤
        Numeral.gap (denoted whole) / 2 ^ 19 ∧
      (pixels.toNat = denoted whole ∨ pixels.toNat = denoted whole + 1) ∧
      (pixels.toNat = denoted whole + 1 ↔
        denoted whole + 1 - Numeral.gap (denoted whole) / 2 < binary64.value units ∨
          binary64.value units = denoted whole + 1 - Numeral.gap (denoted whole) / 2 ∧
            ((denoted whole).size = 24 → denoted whole % 2 = 1)) ∧
      (denotedDecimal whole fraction < denoted whole + 1 -
        Numeral.gap (denoted whole) * (1 / 2 + 1 / 2 ^ 19) → pixels.toNat = denoted whole) ∧
      (denoted whole + 1 - Numeral.gap (denoted whole) * (1 / 2 - 1 / 2 ^ 19) <
        denotedDecimal whole fraction → pixels.toNat = denoted whole + 1) ∧
      (Numeral.gap (denoted whole) ≤ 1 / 10 ^ fraction.length → pixels.toNat = denoted whole) := by
  have hdigits := lt_ten_of_mem_digits hfraction.2
  have hwholeDigits : Nat.ofDigits 10 (whole.toList.map digit).reverse = denoted whole :=
    Numeral.ofDigits_reverse_map_digit _
  obtain ⟨units, hmagnitude, hlower, hnear⟩ :=
    Numeral.exists_magnitude_eq (hwholeDigits.trans_lt hlt) hdigits
  have hbelow := Numeral.fractionOf_le hdigits
  rw [hwholeDigits] at hlower hnear
  rw [fractionOf_reverse_map_digit] at hnear hbelow
  rw [List.length_reverse, List.length_map, String.length_toList] at hbelow
  have hpixels : (decimal whole fraction).pixels =
      .ofRounded ((.finite units : Rounded binary64).convert binary32) :=
    congrArg (fun number ↦ Pixels.ofRounded (Rounded.convert binary32 number)) hmagnitude
  have hlength := length?_decimal hwhole hfraction
  rw [hpixels] at hlength
  have hexact : denotedDecimal whole fraction ≤ denoted whole + 1 - 1 / 10 ^ fraction.length := by
    rw [denotedDecimal]
    linarith
  rw [← denotedDecimal] at hnear
  have hnearLe := abs_le.1 hnear
  have hlast : (0 : ℚ) < 1 / 10 ^ fraction.length := by positivity
  have hgapPos : 0 < Numeral.gap (denoted whole) :=
    (by positivity : (0 : ℚ) < 1 / 2 ^ 24).trans_le (Numeral.one_div_two_pow_le_gap _)
  have hgapLe := Numeral.gap_le_one hlt
  have heither := Numeral.toNat_ofRounded_convert hlt hlower (by norm_num at hnearLe ⊢; linarith)
  have hiff : denoted whole <
        (Pixels.ofRounded ((.finite units : Rounded binary64).convert binary32)).toNat ↔
      denoted whole + 1 - Numeral.gap (denoted whole) / 2 < binary64.value units ∨
        binary64.value units = denoted whole + 1 - Numeral.gap (denoted whole) / 2 ∧
          ((denoted whole).size = 24 → denoted whole % 2 = 1) :=
    Numeral.lt_ofRounded_convert_iff hlt
  have htruncated (h : denotedDecimal whole fraction < denoted whole + 1 -
      Numeral.gap (denoted whole) * (1 / 2 + 1 / 2 ^ 19)) :
      (Pixels.ofRounded ((.finite units : Rounded binary64).convert binary32)).toNat =
        denoted whole := by
    have hbefore : binary64.value units < denoted whole + 1 - Numeral.gap (denoted whole) / 2 := by
      linarith
    have hnot := mt hiff.1 (not_or.2 ⟨not_lt.2 (le_of_lt hbefore), fun hmiddle ↦
      ne_of_lt hbefore hmiddle.1⟩)
    omega
  refine ⟨_, units, hlength, hmagnitude, hnear, heither, ?_, htruncated, ?_, ?_⟩
  · rw [← hiff]
    omega
  · intro h
    have hreached := hiff.2 (.inl (by linarith))
    omega
  · intro hshort
    exact htruncated (by linarith)

/-- The largest number that seven digits behind the point can be below forty-eight. -/
theorem length?_of_fraction_seven_nines :
    IsDigits "47" ∧ IsDigits "9999999" ∧ denoted "47" < 2 ^ 24 ∧
      ∃ pixels, length? ("47" ++ "." ++ "9999999" ++ "px") = some pixels ∧
        pixels.toNat = 47 + 1 := by
  have hwhole : IsDigits "47" := by decide
  have hfraction : IsDigits "9999999" := by decide
  have hlt : denoted "47" < 2 ^ 24 := by decide
  obtain ⟨pixels, _, hlength, -, -, -, -, -, hrounded, -⟩ :=
    length?_of_fraction hwhole hfraction hlt
  have hdenoted : denoted "47" = 47 := by decide
  have hdecimal : denotedDecimal "47" "9999999" = 47 + 9999999 / 10 ^ 7 := by
    have hnines : denoted "9999999" = 9999999 := by decide
    have hseven : "9999999".length = 7 := by decide
    rw [denotedDecimal, hdenoted, hnines, hseven]
    norm_num
  have hgap : Numeral.gap 47 = 2 ^ 6 / 2 ^ 24 := by
    have hsize : Nat.size 47 = 6 := by decide
    rw [Numeral.gap, hsize]
  rw [hdecimal, hdenoted, hgap] at hrounded
  exact ⟨hwhole, hfraction, hlt, pixels, hlength, hrounded (by norm_num)⟩

/-- Less than forty-eight pixels that are measured as forty-eight. -/
theorem length?_of_fraction_rounds_up :
    ¬∀ whole fraction : String, IsDigits whole → IsDigits fraction → denoted whole < 2 ^ 24 →
      ∃ pixels, length? (whole ++ "." ++ fraction ++ "px") = some pixels ∧
        pixels.toNat = denoted whole := by
  intro h
  obtain ⟨pixels, hlength, hpixels⟩ := h "47" "9999999" (by decide) (by decide) (by decide)
  have hrounded : length? ("47" ++ "." ++ "9999999" ++ "px") = some 48 := by decide +kernel
  obtain rfl := Option.some.inj (hrounded.symm.trans hlength)
  exact absurd hpixels (by decide)

end Css

end TouchTarget
