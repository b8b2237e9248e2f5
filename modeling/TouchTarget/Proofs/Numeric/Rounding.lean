import Mathlib.Algebra.Order.Field.Basic
import Mathlib.Algebra.Order.Field.Rat
import Mathlib.Tactic.FieldSimp
import Mathlib.Tactic.Linarith
import Mathlib.Tactic.Ring
import TouchTarget.Numeric.Rounded

/-!
# Laws of rounding

Rounding keeps the numbers of a format, and it keeps the order. So nothing is ever rounded across a
number of the format. How far a number moves is bounded in two ways: by its own size, and by how far
it is from any number of the format below it. The second bound does not need to know the size; it is
what keeps a sum in place once the numbers that are added to it have become too small.
-/

namespace TouchTarget.Numeric

/-! ## The nearest integer -/

/-- What is nearest to a quotient is above an integer if the quotient is beyond the middle between
that integer and the next, or in the middle if the next one is even. -/
theorem lt_nearest_iff {k num den : Nat} (hden : 0 < den) :
    k < nearest num den ↔
      den * (2 * k + 1) < 2 * num ∨ den * (2 * k + 1) = 2 * num ∧ k % 2 = 1 := by
  have hsplit := Nat.div_add_mod num den
  have hrest := Nat.mod_lt num hden
  have hodd (j : Nat) : den * (2 * j + 1) = 2 * (den * j) + den := by
    rw [Nat.mul_add, Nat.mul_one, Nat.mul_left_comm]
  rw [hodd, nearest]
  rcases Nat.lt_trichotomy k (num / den) with hlt | rfl | hgt
  · have hbelow : den * (k + 1) ≤ den * (num / den) := Nat.mul_le_mul_left den hlt
    rw [Nat.mul_add, Nat.mul_one] at hbelow
    split
    · omega
    · split <;> omega
  · split
    · omega
    · split <;> omega
  · have habove : den * (num / den + 1) ≤ den * k := Nat.mul_le_mul_left den hgt
    rw [Nat.mul_add, Nat.mul_one] at habove
    split
    · omega
    · split <;> omega

theorem nearest_mono {num den num' den' : Nat} (hden : 0 < den) (hden' : 0 < den')
    (h : num * den' ≤ num' * den) : nearest num den ≤ nearest num' den' := by
  by_contra hlt
  obtain ⟨k, hk, hk'⟩ : ∃ k, k < nearest num den ∧ ¬k < nearest num' den' :=
    ⟨_, Nat.lt_of_not_le hlt, Nat.lt_irrefl _⟩
  rw [lt_nearest_iff hden] at hk
  rw [lt_nearest_iff hden', not_or, not_and] at hk'
  have hcross : den * (den' * (2 * k + 1)) ≤ den * (2 * num') := by
    have hmiddle : den * (2 * k + 1) ≤ 2 * num := by omega
    calc
      den * (den' * (2 * k + 1)) = den * (2 * k + 1) * den' := by ring
      _ ≤ 2 * num * den' := Nat.mul_le_mul_right den' hmiddle
      _ = 2 * (num * den') := by ring
      _ ≤ 2 * (num' * den) := Nat.mul_le_mul_left 2 h
      _ = den * (2 * num') := by ring
  have hle : den' * (2 * k + 1) ≤ 2 * num' := Nat.le_of_mul_le_mul_left hcross hden
  have heq : den' * (2 * k + 1) = 2 * num' := Nat.le_antisymm hle (Nat.le_of_not_lt hk'.1)
  rcases hk with hbeyond | ⟨-, hodd⟩
  · -- In the middle on one side and beyond it on the other.
    have hstrict : den * (den' * (2 * k + 1)) < den * (2 * num') := calc
      den * (den' * (2 * k + 1)) = den * (2 * k + 1) * den' := by ring
      _ < 2 * num * den' := Nat.mul_lt_mul_of_pos_right hbeyond hden'
      _ = 2 * (num * den') := by ring
      _ ≤ 2 * (num' * den) := Nat.mul_le_mul_left 2 h
      _ = den * (2 * num') := by ring
    exact absurd heq (Nat.ne_of_lt (Nat.lt_of_mul_lt_mul_left hstrict))
  · exact hk'.2 heq hodd

theorem le_nearest {k num den : Nat} (hden : 0 < den) (h : k * den ≤ num) :
    k ≤ nearest num den := by
  rw [← nearest_mul_self k hden]
  exact nearest_mono hden hden (Nat.mul_le_mul_right den h)

theorem nearest_le {k num den : Nat} (hden : 0 < den) (h : num ≤ k * den) :
    nearest num den ≤ k := by
  rw [← nearest_mul_self k hden]
  exact nearest_mono hden hden (Nat.mul_le_mul_right den h)

/-- The nearest integer is not farther away than any integer below the quotient. -/
theorem nearest_add_le {k num den : Nat} (hden : 0 < den) (h : k * den ≤ num) :
    (nearest num den + k) * den ≤ 2 * num := by
  by_contra hlt
  have hbelow : k ≤ num / den := (Nat.le_div_iff_mul_le hden).2 h
  have hsplit := Nat.div_add_mod num den
  have hrest := Nat.mod_lt num hden
  rw [Nat.mul_comm] at hsplit
  have hfloor : k * den ≤ num / den * den := Nat.mul_le_mul_right den hbelow
  rw [Nat.add_mul, nearest] at hlt
  split at hlt
  · omega
  · split at hlt
    · rw [Nat.add_mul] at hlt
      omega
    · rcases Nat.mod_two_eq_zero_or_one (num / den) with heven | hodd
      · rw [heven, Nat.add_zero] at hlt
        omega
      · rw [hodd, Nat.add_mul] at hlt
        omega

/-- Of two integers that are equally near, the even one is the nearest. -/
theorem nearest_even_of_tie {num den : Nat} (hden : 0 < den)
    (h : 2 * |(nearest num den * den : ℤ) - num| = den) : nearest num den % 2 = 0 := by
  apply nearest_even_of_half
  have hsplit := Nat.div_add_mod num den
  have hrest := Nat.mod_lt num hden
  rw [Nat.mul_comm] at hsplit
  have hcast : (num : ℤ) = (num / den : Nat) * den + (num % den : Nat) := by exact_mod_cast hsplit.symm
  rw [nearest] at h
  split at h
  · rw [hcast, sub_add_cancel_left, abs_neg, Nat.abs_cast] at h
    omega
  · split at h
    · have hgap : ((num / den + 1 : Nat) * den : ℤ) - num = (den - num % den : Nat) := by
        rw [hcast]
        push_cast [Nat.le_of_lt hrest]
        ring
      rw [hgap, Nat.abs_cast] at h
      omega
    · omega

/-- A common factor makes no difference. -/
theorem nearest_mul_right {num den c : Nat} (hden : 0 < den) (hc : 0 < c) :
    nearest (num * c) (den * c) = nearest num den := by
  apply Nat.le_antisymm
  · exact nearest_mono (Nat.mul_pos hden hc) hden (by rw [Nat.mul_assoc, Nat.mul_comm c])
  · exact nearest_mono hden (Nat.mul_pos hden hc) (by rw [Nat.mul_assoc, Nat.mul_comm c])

/-! ## Significant bits -/

/-- All bits behind the first `precision` ones are zero. -/
def HasPrecision (precision m : Nat) : Prop :=
  ∃ leading spare, leading < 2 ^ precision ∧ m = leading * 2 ^ spare

/-- The bits that a number has behind the first `precision` ones. -/
def spareBits (precision m : Nat) : Nat :=
  m.log2 + 1 - precision

variable {precision m num den : Nat}

theorem nearestWithin_eq (precision num den : Nat) :
    nearestWithin precision num den =
      nearest num (den * 2 ^ spareBits precision (num / den)) *
        2 ^ spareBits precision (num / den) := by
  rw [nearestWithin, Nat.shiftLeft_eq, Nat.shiftLeft_eq, spareBits]

theorem lt_two_pow_spareBits (precision m : Nat) : m < 2 ^ (precision + spareBits precision m) :=
  calc
    m < 2 ^ (m.log2 + 1) := Nat.lt_log2_self
    _ ≤ 2 ^ (precision + spareBits precision m) := by
      apply Nat.pow_le_pow_right (by decide)
      rw [spareBits]
      omega

theorem spareBits_le_iff {spare : Nat} (hprecision : 0 < precision) :
    spareBits precision m ≤ spare ↔ m < 2 ^ (precision + spare) := by
  by_cases hm : m = 0
  · subst hm
    simp only [spareBits, Nat.log2_zero, Nat.two_pow_pos, iff_true]
    omega
  · rw [← Nat.log2_lt hm, spareBits]
    omega

/-- Where there are spare bits, the first bit counts. -/
theorem two_pow_le_of_spareBits (hprecision : 0 < precision) (h : spareBits precision m ≠ 0) :
    2 ^ (precision - 1 + spareBits precision m) ≤ m := by
  by_contra hlt
  have hle : spareBits precision m ≤ spareBits precision m - 1 := by
    rw [spareBits_le_iff hprecision]
    have hexponent : precision - 1 + spareBits precision m =
        precision + (spareBits precision m - 1) := by omega
    rw [← hexponent]
    exact Nat.lt_of_not_le hlt
  omega

theorem hasPrecision_of_lt (h : m < 2 ^ precision) : HasPrecision precision m :=
  ⟨m, 0, h, by rw [Nat.pow_zero, Nat.mul_one]⟩

theorem HasPrecision.mul_two_pow (h : HasPrecision precision m) (k : Nat) :
    HasPrecision precision (m * 2 ^ k) := by
  obtain ⟨leading, spare, hleading, rfl⟩ := h
  exact ⟨leading, spare + k, hleading, by rw [Nat.pow_add, Nat.mul_assoc]⟩

theorem hasPrecision_of_le (hprecision : 0 < precision) (h : m ≤ 2 ^ precision) :
    HasPrecision precision m := by
  rcases Nat.eq_or_lt_of_le h with rfl | hlt
  · rw [← Nat.one_mul (2 ^ precision)]
    exact (hasPrecision_of_lt (Nat.one_lt_two_pow (Nat.ne_of_gt hprecision))).mul_two_pow _
  · exact hasPrecision_of_lt hlt

theorem HasPrecision.spareBits_le {leading spare : Nat} (hprecision : 0 < precision)
    (h : leading < 2 ^ precision) : spareBits precision (leading * 2 ^ spare) ≤ spare := by
  rw [spareBits_le_iff hprecision, Nat.pow_add]
  exact Nat.mul_lt_mul_of_pos_right h (Nat.two_pow_pos spare)

theorem lt_mul_two_pow_spareBits (hden : 0 < den) :
    num < den * 2 ^ (precision + spareBits precision (num / den)) := by
  rw [Nat.mul_comm]
  exact (Nat.div_lt_iff_lt_mul hden).1 (lt_two_pow_spareBits precision (num / den))

theorem mul_two_pow_spareBits_le (hprecision : 0 < precision) (hden : 0 < den)
    (h : spareBits precision (num / den) ≠ 0) :
    2 ^ (precision - 1 + spareBits precision (num / den)) * den ≤ num :=
  (Nat.le_div_iff_mul_le hden).1 (two_pow_le_of_spareBits hprecision h)

/-! ## Rounding to significant bits -/

/-- What has no spare bits stays as it is. -/
theorem nearestWithin_of_hasPrecision (hprecision : 0 < precision) (hden : 0 < den)
    (h : HasPrecision precision m) : nearestWithin precision (m * den) den = m := by
  obtain ⟨leading, spare, hleading, rfl⟩ := h
  have hspare : spareBits precision (leading * 2 ^ spare) ≤ spare :=
    HasPrecision.spareBits_le hprecision hleading
  rw [nearestWithin_eq, Nat.mul_div_cancel _ hden]
  generalize spareBits precision (leading * 2 ^ spare) = kept at hspare
  obtain ⟨rest, rfl⟩ := Nat.exists_eq_add_of_le hspare
  have hsplit : leading * 2 ^ (kept + rest) * den = leading * 2 ^ rest * (den * 2 ^ kept) := by
    rw [Nat.pow_add]
    ring
  rw [hsplit, nearest_mul_self _ (Nat.mul_pos hden (Nat.two_pow_pos _)), Nat.pow_add]
  ring

theorem nearest_le_two_pow (hden : 0 < den) :
    nearest num (den * 2 ^ spareBits precision (num / den)) ≤ 2 ^ precision := by
  apply nearest_le (Nat.mul_pos hden (Nat.two_pow_pos _))
  have hlt : num < den * 2 ^ (precision + spareBits precision (num / den)) :=
    lt_mul_two_pow_spareBits hden
  rw [Nat.pow_add, ← Nat.mul_assoc, Nat.mul_comm den, Nat.mul_assoc] at hlt
  exact Nat.le_of_lt hlt

theorem two_pow_le_nearest (hprecision : 0 < precision) (hden : 0 < den)
    (h : spareBits precision (num / den) ≠ 0) :
    2 ^ (precision - 1) ≤ nearest num (den * 2 ^ spareBits precision (num / den)) := by
  apply le_nearest (Nat.mul_pos hden (Nat.two_pow_pos _))
  have hle := mul_two_pow_spareBits_le hprecision hden h
  rwa [Nat.pow_add, Nat.mul_assoc, Nat.mul_comm _ den] at hle

/-- Rounding keeps the order. -/
theorem nearestWithin_mono {num' den' : Nat} (hprecision : 0 < precision) (hden : 0 < den)
    (hden' : 0 < den') (h : num * den' ≤ num' * den) :
    nearestWithin precision num den ≤ nearestWithin precision num' den' := by
  have hquotient : num / den ≤ num' / den' := by
    rw [Nat.le_div_iff_mul_le hden']
    apply Nat.le_of_mul_le_mul_right _ hden
    calc
      num / den * den' * den = num / den * den * den' := Nat.mul_right_comm ..
      _ ≤ num * den' := Nat.mul_le_mul_right den' (Nat.div_mul_le_self num den)
      _ ≤ num' * den := h
  have hspare : spareBits precision (num / den) ≤ spareBits precision (num' / den') := by
    rw [spareBits_le_iff hprecision]
    exact Nat.lt_of_le_of_lt hquotient (lt_two_pow_spareBits precision _)
  rw [nearestWithin_eq, nearestWithin_eq]
  rcases Nat.eq_or_lt_of_le hspare with heq | hlt
  · rw [heq]
    apply Nat.mul_le_mul_right
    apply nearest_mono (Nat.mul_pos hden (Nat.two_pow_pos _))
      (Nat.mul_pos hden' (Nat.two_pow_pos _))
    rw [← Nat.mul_assoc, ← Nat.mul_assoc]
    exact Nat.mul_le_mul_right _ h
  · calc
      nearest num (den * 2 ^ spareBits precision (num / den)) *
          2 ^ spareBits precision (num / den) ≤
          2 ^ precision * 2 ^ spareBits precision (num / den) :=
        Nat.mul_le_mul_right _ (nearest_le_two_pow hden)
      _ ≤ 2 ^ (precision - 1) * 2 ^ spareBits precision (num' / den') := by
        rw [← Nat.pow_add, ← Nat.pow_add]
        exact Nat.pow_le_pow_right (by decide) (by omega)
      _ ≤ nearest num' (den' * 2 ^ spareBits precision (num' / den')) *
          2 ^ spareBits precision (num' / den') :=
        Nat.mul_le_mul_right _ (two_pow_le_nearest hprecision hden' (by omega))

/-- Nothing is rounded across a number that has no spare bits. -/
theorem le_nearestWithin (hprecision : 0 < precision) (hden : 0 < den)
    (hm : HasPrecision precision m) (h : m * den ≤ num) :
    m ≤ nearestWithin precision num den := by
  have hmono := nearestWithin_mono hprecision hden hden (Nat.mul_le_mul_right den h)
  rwa [nearestWithin_of_hasPrecision hprecision hden hm] at hmono

theorem nearestWithin_le (hprecision : 0 < precision) (hden : 0 < den)
    (hm : HasPrecision precision m) (h : num ≤ m * den) :
    nearestWithin precision num den ≤ m := by
  have hmono := nearestWithin_mono hprecision hden hden (Nat.mul_le_mul_right den h)
  rwa [nearestWithin_of_hasPrecision hprecision hden hm] at hmono

theorem hasPrecision_nearestWithin (hprecision : 0 < precision) (hden : 0 < den) :
    HasPrecision precision (nearestWithin precision num den) := by
  rw [nearestWithin_eq]
  exact (hasPrecision_of_le hprecision (nearest_le_two_pow hden)).mul_two_pow _

/-- A common factor makes no difference. -/
theorem nearestWithin_mul_right {c : Nat} (hprecision : 0 < precision) (hden : 0 < den)
    (hc : 0 < c) : nearestWithin precision (num * c) (den * c) = nearestWithin precision num den := by
  apply Nat.le_antisymm
  · exact nearestWithin_mono hprecision (Nat.mul_pos hden hc) hden
      (by rw [Nat.mul_assoc, Nat.mul_comm c])
  · exact nearestWithin_mono hprecision hden (Nat.mul_pos hden hc)
      (by rw [Nat.mul_assoc, Nat.mul_comm c])

/-- The place of the point makes no difference to the bits that are kept. -/
theorem nearestWithin_mul_two_pow (hprecision : 0 < precision) (m k : Nat) :
    nearestWithin precision (m * 2 ^ k) 1 = nearestWithin precision m 1 * 2 ^ k := by
  rcases Nat.lt_or_ge m (2 ^ precision) with hlt | hge
  · have hm : HasPrecision precision m := hasPrecision_of_lt hlt
    have hshifted := nearestWithin_of_hasPrecision hprecision Nat.one_pos (hm.mul_two_pow k)
    have hexact := nearestWithin_of_hasPrecision hprecision Nat.one_pos hm
    rw [Nat.mul_one] at hshifted hexact
    rw [hshifted, hexact]
  · have hm : m ≠ 0 := Nat.ne_of_gt (Nat.lt_of_lt_of_le (Nat.two_pow_pos precision) hge)
    have hle : precision ≤ m.log2 := (Nat.le_log2 hm).2 hge
    have hlog : (m * 2 ^ k).log2 = m.log2 + k := by
      have hbounds := (Nat.log2_eq_iff hm).1 rfl
      rw [Nat.log2_eq_iff (Nat.mul_ne_zero hm (Nat.ne_of_gt (Nat.two_pow_pos k))), Nat.pow_add,
        Nat.add_right_comm, Nat.pow_add _ _ k]
      exact ⟨Nat.mul_le_mul_right _ hbounds.1,
        Nat.mul_lt_mul_of_pos_right hbounds.2 (Nat.two_pow_pos k)⟩
    have hspare : spareBits precision (m * 2 ^ k) = spareBits precision m + k := by
      rw [spareBits, spareBits, hlog]
      omega
    rw [nearestWithin_eq, nearestWithin_eq, Nat.div_one, Nat.div_one, hspare, Nat.one_mul,
      Nat.one_mul, Nat.pow_add, nearest_mul_right (Nat.two_pow_pos _) (Nat.two_pow_pos k),
      Nat.mul_assoc]

/-- What is rounded goes up to a number without spare bits from beyond the middle between that number
and the one before it, or from the middle if the last bit of the one before it is set. -/
theorem succ_mul_le_nearestWithin_iff {k spare : Nat} (hprecision : 0 < precision) (hden : 0 < den)
    (hlower : 2 ^ (precision - 1) ≤ k) (hupper : k < 2 ^ precision) :
    (k + 1) * 2 ^ spare ≤ nearestWithin precision num den ↔
      den * 2 ^ spare * (2 * k + 1) < 2 * num ∨
        den * 2 ^ spare * (2 * k + 1) = 2 * num ∧ k % 2 = 1 := by
  have hk : HasPrecision precision k := hasPrecision_of_lt hupper
  have hsucc : HasPrecision precision (k + 1) := hasPrecision_of_le hprecision hupper
  have hmiddle : den * 2 ^ spare * (2 * k + 1) = 2 * (k * 2 ^ spare * den) + den * 2 ^ spare := by
    ring
  have hnext : (k + 1) * 2 ^ spare * den = k * 2 ^ spare * den + den * 2 ^ spare := by ring
  have hstep : 0 < den * 2 ^ spare := Nat.mul_pos hden (Nat.two_pow_pos spare)
  rw [hmiddle]
  rcases Nat.lt_or_ge num (k * 2 ^ spare * den) with hbelow | hreached
  · have hle := nearestWithin_le hprecision hden (hk.mul_two_pow spare) (Nat.le_of_lt hbelow)
    have hlt : k * 2 ^ spare < (k + 1) * 2 ^ spare :=
      Nat.mul_lt_mul_of_pos_right (Nat.lt_succ_self k) (Nat.two_pow_pos spare)
    omega
  · rcases Nat.lt_or_ge num ((k + 1) * 2 ^ spare * den) with hshort | hbeyond
    · -- Between the two numbers the spare bits are known.
      have hspare : spareBits precision (num / den) = spare := by
        have hquotientLt : num / den < (k + 1) * 2 ^ spare := (Nat.div_lt_iff_lt_mul hden).2 hshort
        have hquotientGe : k * 2 ^ spare ≤ num / den := (Nat.le_div_iff_mul_le hden).2 hreached
        apply Nat.le_antisymm
        · rw [spareBits_le_iff hprecision, Nat.pow_add]
          exact Nat.lt_of_lt_of_le hquotientLt (Nat.mul_le_mul_right _ hupper)
        · by_contra hlt
          have hsmall : spareBits precision (num / den) ≤ spare - 1 := by omega
          rw [spareBits_le_iff hprecision] at hsmall
          have hpow : 2 ^ (precision + (spare - 1)) = 2 ^ (precision - 1) * 2 ^ spare := by
            rw [← Nat.pow_add]
            congr 1
            omega
          rw [hpow] at hsmall
          have hle : 2 ^ (precision - 1) * 2 ^ spare ≤ k * 2 ^ spare :=
            Nat.mul_le_mul_right _ hlower
          omega
      rw [nearestWithin_eq, hspare, Nat.mul_le_mul_right_iff (Nat.two_pow_pos spare),
        Nat.succ_le_iff, lt_nearest_iff hstep, hmiddle]
    · have hle := le_nearestWithin hprecision hden (hsucc.mul_two_pow spare) hbeyond
      omega

/-- What is rounded does not move farther than to any number without spare bits below it. -/
theorem nearestWithin_add_le (hprecision : 0 < precision) (hden : 0 < den)
    (hm : HasPrecision precision m) (h : m * den ≤ num) :
    (nearestWithin precision num den + m) * den ≤ 2 * num := by
  rw [nearestWithin_eq]
  have hgrid : spareBits precision (num / den) ≠ 0 →
      2 ^ (precision - 1 + spareBits precision (num / den)) * den ≤ num :=
    mul_two_pow_spareBits_le hprecision hden
  generalize spareBits precision (num / den) = spare at hgrid
  -- The number below is at most a multiple of the last bit that is kept.
  obtain ⟨k, hmk, hk⟩ : ∃ k, m ≤ k * 2 ^ spare ∧ k * (den * 2 ^ spare) ≤ num := by
    obtain ⟨leading, behind, hleading, rfl⟩ := hm
    rcases Nat.lt_or_ge behind spare with hlt | hge
    · have hpow : 2 ^ (precision - 1) * 2 ^ spare = 2 ^ (precision - 1 + spare) := by
        rw [Nat.pow_add]
      refine ⟨2 ^ (precision - 1), ?_, ?_⟩
      · calc
          leading * 2 ^ behind ≤ 2 ^ precision * 2 ^ behind :=
            Nat.mul_le_mul_right _ (Nat.le_of_lt hleading)
          _ = 2 ^ (precision + behind) := by rw [Nat.pow_add]
          _ ≤ 2 ^ (precision - 1 + spare) := Nat.pow_le_pow_right (by decide) (by omega)
          _ = 2 ^ (precision - 1) * 2 ^ spare := hpow.symm
      · rw [Nat.mul_comm den, ← Nat.mul_assoc, hpow]
        exact hgrid (by omega)
    · obtain ⟨rest, rfl⟩ := Nat.exists_eq_add_of_le hge
      have hsplit : leading * 2 ^ (spare + rest) = leading * 2 ^ rest * 2 ^ spare := by
        rw [Nat.pow_add]
        ring
      rw [hsplit] at h ⊢
      exact ⟨leading * 2 ^ rest, Nat.le_refl _, by rwa [Nat.mul_comm den, ← Nat.mul_assoc]⟩
  calc
    (nearest num (den * 2 ^ spare) * 2 ^ spare + m) * den ≤
        (nearest num (den * 2 ^ spare) * 2 ^ spare + k * 2 ^ spare) * den :=
      Nat.mul_le_mul_right den (Nat.add_le_add_left hmk _)
    _ = (nearest num (den * 2 ^ spare) + k) * (den * 2 ^ spare) := by ring
    _ ≤ 2 * num := nearest_add_le (Nat.mul_pos hden (Nat.two_pow_pos spare)) hk

/-- What is rounded moves by half of the last bit that is kept, which is little against its size if
any bits are not kept. -/
theorem nearestWithin_error_le (hprecision : 0 < precision) (hden : 0 < den) :
    |(nearestWithin precision num den : ℚ) - num / den| ≤
      max ((num : ℚ) / den / 2 ^ precision) (1 / 2) := by
  have hgrid : spareBits precision (num / den) ≠ 0 →
      2 ^ (precision - 1 + spareBits precision (num / den)) * den ≤ num :=
    mul_two_pow_spareBits_le hprecision hden
  rw [nearestWithin_eq]
  generalize spareBits precision (num / den) = spare at hgrid
  have hdenCast : (0 : ℚ) < den := Nat.cast_pos.2 hden
  have hnear := nearest_near num (Nat.mul_pos hden (Nat.two_pow_pos spare))
  have hhalf : |((nearest num (den * 2 ^ spare) * 2 ^ spare : Nat) : ℚ) - num / den| ≤
      2 ^ spare / 2 := by
    have hupper : 2 * ((nearest num (den * 2 ^ spare) : ℚ) * (den * 2 ^ spare)) ≤
        2 * num + den * 2 ^ spare := by exact_mod_cast hnear.1
    have hlower : (2 * num : ℚ) ≤
        2 * (nearest num (den * 2 ^ spare) * (den * 2 ^ spare)) + den * 2 ^ spare := by
      exact_mod_cast hnear.2
    have hsplit : (((nearest num (den * 2 ^ spare) * 2 ^ spare : Nat) : ℚ) - num / den) * (2 * den) =
        2 * (nearest num (den * 2 ^ spare) * (den * 2 ^ spare)) - 2 * num := by
      push_cast
      field_simp
    rw [abs_le]
    constructor
    · apply le_of_mul_le_mul_right _ (mul_pos two_pos hdenCast)
      rw [hsplit]
      linarith
    · apply le_of_mul_le_mul_right _ (mul_pos two_pos hdenCast)
      rw [hsplit]
      linarith
  apply hhalf.trans
  by_cases hspare : spare = 0
  · rw [hspare, pow_zero]
    exact le_max_right _ _
  · apply le_max_of_le_left
    have hle : (2 : ℚ) ^ (precision - 1 + spare) * den ≤ num := by exact_mod_cast hgrid hspare
    have hpow : (2 : ℚ) ^ spare / 2 * 2 ^ precision = 2 ^ (precision - 1 + spare) := by
      obtain ⟨front, rfl⟩ : ∃ front, precision = front + 1 := ⟨precision - 1, by omega⟩
      rw [Nat.add_sub_cancel, pow_succ, pow_add]
      ring
    rw [le_div_iff₀ (by positivity), hpow, le_div_iff₀ hdenCast]
    exact hle

/-- A number has the leading bits of another one, rounded to the nearest; of two that are equally
near it is the one whose last bit is zero. -/
def IsRoundedTo (precision n rounded : Nat) : Prop :=
  ∃ kept spare, 2 ^ (precision - 1 + spare) ≤ n ∧ n < 2 ^ (precision + spare) ∧
    rounded = kept * 2 ^ spare ∧ 2 * |(rounded : ℤ) - n| ≤ 2 ^ spare ∧
    (2 * |(rounded : ℤ) - n| = 2 ^ spare → kept % 2 = 0)

theorem isRoundedTo_nearestWithin (hprecision : 0 < precision) (h : 2 ^ (precision - 1) ≤ m) :
    IsRoundedTo precision m (nearestWithin precision m 1) := by
  have hupper := lt_two_pow_spareBits precision m
  have hlower : 2 ^ (precision - 1 + spareBits precision m) ≤ m := by
    by_cases hspare : spareBits precision m = 0
    · rwa [hspare]
    · exact two_pow_le_of_spareBits hprecision hspare
  rw [nearestWithin_eq, Nat.div_one, Nat.one_mul]
  generalize spareBits precision m = spare at hupper hlower
  have hnear := nearest_near m (Nat.two_pow_pos spare)
  refine ⟨_, spare, hlower, hupper, rfl, ?_, ?_⟩
  · have hbound : |((nearest m (2 ^ spare) * 2 ^ spare : Nat) : ℤ) - m| * 2 ≤
        (2 ^ spare : Nat) := by
      rw [← abs_two (α := ℤ), ← abs_mul, abs_le]
      constructor <;> omega
    push_cast at hbound ⊢
    linarith
  · intro htie
    apply nearest_even_of_tie (Nat.two_pow_pos spare)
    push_cast at htie ⊢
    exact htie

/-! ## Numbers of a format -/

/-- The number that a count of the smallest positive number stands for. -/
def Format.value (format : Format) (units : Nat) : ℚ :=
  units / 2 ^ format.scale

theorem Format.value_whole (format : Format) (n : Nat) :
    format.value (n * 2 ^ format.scale) = n := by
  rw [Format.value]
  push_cast
  rw [mul_div_cancel_right₀ _ (by positivity)]

theorem Format.value_le_value {format : Format} {a b : Nat} :
    format.value a ≤ format.value b ↔ a ≤ b := by
  rw [Format.value, Format.value, div_le_div_iff_of_pos_right (by positivity), Nat.cast_le]

/-- The number of the format that a count stands for is nearest to a rational number. -/
structure IsNearest (format : Format) (exact : ℚ) (units : Nat) : Prop where
  hasPrecision : HasPrecision format.precision units
  error_le : |format.value units - exact| ≤
    max (exact / 2 ^ format.precision) (1 / 2 / 2 ^ format.scale)
  error_le_sub {other : Nat} (hother : HasPrecision format.precision other)
    (h : format.value other ≤ exact) : |format.value units - exact| ≤ exact - format.value other

variable {format : Format}

/-- A quotient is rounded to the nearest number of the format if it is not too large. -/
theorem Rounded.exists_isNearest_ofQuotient (hprecision : 0 < format.precision) (hden : 0 < den)
    {k : Nat} (hk : k < format.limit) (h : (num : ℚ) / den ≤ 2 ^ k) :
    ∃ units, (ofQuotient num den : Rounded format) = finite units ∧
      IsNearest format (num / den) units := by
  have hdenCast : (0 : ℚ) < den := Nat.cast_pos.2 hden
  have hscale : (0 : ℚ) < 2 ^ format.scale := by positivity
  have hscaled : ((num * 2 ^ format.scale : Nat) : ℚ) / den = num / den * 2 ^ format.scale := by
    push_cast
    ring
  have hvalue (units : Nat) : format.value units - num / den =
      (units - num / den * 2 ^ format.scale) / 2 ^ format.scale := by
    rw [Format.value, sub_div, mul_div_cancel_right₀ _ (ne_of_gt hscale)]
  have hnum : num * 2 ^ format.scale ≤ 2 ^ (k + format.scale) * den := by
    rw [div_le_iff₀ hdenCast] at h
    have hnat : num ≤ 2 ^ k * den := by exact_mod_cast h
    calc
      num * 2 ^ format.scale ≤ 2 ^ k * den * 2 ^ format.scale := Nat.mul_le_mul_right _ hnat
      _ = 2 ^ (k + format.scale) * den := by rw [Nat.pow_add]; ring
  have hpow : HasPrecision format.precision (2 ^ (k + format.scale)) := by
    rw [← Nat.one_mul (2 ^ _)]
    exact (hasPrecision_of_lt (Nat.one_lt_two_pow (Nat.ne_of_gt hprecision))).mul_two_pow _
  have hlt : nearestWithin format.precision (num * 2 ^ format.scale) den <
      2 ^ (format.scale + format.limit) :=
    Nat.lt_of_le_of_lt (nearestWithin_le hprecision hden hpow hnum)
      (Nat.pow_lt_pow_right (by decide) (by omega))
  refine ⟨nearestWithin format.precision (num * 2 ^ format.scale) den, ?_, ?_, ?_, ?_⟩
  · rw [ofQuotient, Nat.shiftLeft_eq, Nat.shiftLeft_eq, Nat.one_mul]
    exact if_pos hlt
  · exact hasPrecision_nearestWithin hprecision hden
  · have herror :
        |(nearestWithin format.precision (num * 2 ^ format.scale) den : ℚ) -
            (num * 2 ^ format.scale : Nat) / den| ≤
          max (((num * 2 ^ format.scale : Nat) : ℚ) / den / 2 ^ format.precision) (1 / 2) :=
      nearestWithin_error_le hprecision hden
    rw [hscaled, mul_div_right_comm] at herror
    rw [hvalue, abs_div, abs_of_pos hscale, div_le_iff₀ hscale,
      max_mul_of_nonneg _ _ (le_of_lt hscale), div_mul_cancel₀ _ (ne_of_gt hscale)]
    exact herror
  · intro other hother hle
    have hbelow : other * den ≤ num * 2 ^ format.scale := by
      rw [Format.value, div_le_div_iff₀ hscale hdenCast] at hle
      exact_mod_cast hle
    have hlower := le_nearestWithin hprecision hden hother hbelow
    have hupper := nearestWithin_add_le hprecision hden hother hbelow
    have hupperCast : ((nearestWithin format.precision (num * 2 ^ format.scale) den : ℚ) + other) ≤
        2 * (num / den * 2 ^ format.scale) := by
      rw [← hscaled, mul_div_assoc', le_div_iff₀ hdenCast]
      exact_mod_cast hupper
    have hlowerCast : (other : ℚ) ≤ nearestWithin format.precision (num * 2 ^ format.scale) den := by
      exact_mod_cast hlower
    have hother : (num : ℚ) / den - format.value other =
        (num / den * 2 ^ format.scale - other) / 2 ^ format.scale := by
      rw [Format.value, sub_div, mul_div_cancel_right₀ _ (ne_of_gt hscale)]
    rw [hvalue, hother, abs_div, abs_of_pos hscale]
    apply div_le_div_of_nonneg_right _ (le_of_lt hscale)
    rw [abs_le]
    constructor <;> linarith

namespace IsNearest

variable {exact : ℚ} {units other : Nat}

/-- Nothing is rounded across a number of the format. -/
theorem le_value (h : IsNearest format exact units) (hother : HasPrecision format.precision other)
    (hle : format.value other ≤ exact) : format.value other ≤ format.value units := by
  have hbelow := (abs_le.1 (h.error_le_sub hother hle)).1
  linarith

/-- A number of the format is its own nearest one. -/
theorem eq_of_value (h : IsNearest format (format.value other) units)
    (hother : HasPrecision format.precision other) : units = other := by
  have herror := h.error_le_sub hother le_rfl
  rw [sub_self, abs_nonpos_iff, sub_eq_zero, Format.value, Format.value] at herror
  have hcast := (div_left_inj' (by positivity)).1 herror
  exact_mod_cast hcast

/-- What is rounded is at most doubled. -/
theorem value_le_two_mul (h : IsNearest format exact units) (hexact : 0 ≤ exact) :
    format.value units ≤ 2 * exact := by
  have hzero : format.value 0 = 0 := by rw [Format.value, Nat.cast_zero, zero_div]
  have habove := (abs_le.1 (h.error_le_sub (hasPrecision_of_lt (Nat.two_pow_pos _))
    (hzero.trans_le hexact))).2
  rw [hzero] at habove
  linarith

end IsNearest

namespace Rounded

theorem exists_isNearest_add {a b k : Nat} (hprecision : 0 < format.precision)
    (hk : k < format.limit) (h : format.value a + format.value b ≤ 2 ^ k) :
    ∃ units, (finite a + finite b : Rounded format) = finite units ∧
      IsNearest format (format.value a + format.value b) units := by
  have hsum : format.value a + format.value b = ((a + b : Nat) : ℚ) / (1 <<< format.scale : Nat) := by
    rw [Format.value, Format.value, Nat.one_shiftLeft, ← add_div]
    push_cast
    rfl
  rw [hsum] at h ⊢
  exact exists_isNearest_ofQuotient hprecision (Nat.one_shiftLeft _ ▸ Nat.two_pow_pos _) hk h

theorem exists_isNearest_mul {a b k : Nat} (hprecision : 0 < format.precision)
    (hk : k < format.limit) (h : format.value a * format.value b ≤ 2 ^ k) :
    ∃ units, (finite a * finite b : Rounded format) = finite units ∧
      IsNearest format (format.value a * format.value b) units := by
  have hproduct : format.value a * format.value b =
      ((a * b : Nat) : ℚ) / (1 <<< (2 * format.scale) : Nat) := by
    rw [Format.value, Format.value, Nat.one_shiftLeft, div_mul_div_comm, ← pow_add, ← two_mul]
    push_cast
    rfl
  rw [hproduct] at h ⊢
  exact exists_isNearest_ofQuotient hprecision (Nat.one_shiftLeft _ ▸ Nat.two_pow_pos _) hk h

theorem exists_isNearest_convert {a k : Nat} {target : Format} (hprecision : 0 < target.precision)
    (hk : k < target.limit) (h : format.value a ≤ 2 ^ k) :
    ∃ units, (finite a : Rounded format).convert target = finite units ∧
      IsNearest target (format.value a) units := by
  have hvalue : format.value a = (a : ℚ) / (1 <<< format.scale : Nat) := by
    rw [Format.value, Nat.one_shiftLeft]
    push_cast
    rfl
  rw [hvalue] at h ⊢
  exact exists_isNearest_ofQuotient hprecision (Nat.one_shiftLeft _ ▸ Nat.two_pow_pos _) hk h

end Rounded

/-! ## Whole numbers -/

namespace Rounded

/-- A whole number in a format. -/
def whole (n : Nat) : Rounded format :=
  finite (n * 2 ^ format.scale)

/-- A number of the format that is not below a whole number. -/
def IsAtLeast (bound : Nat) : Rounded format → Prop
  | finite units => bound * 2 ^ format.scale ≤ units
  | infinite => True
  | undefined => False

/-- A quotient that is a whole number of the format is that number. -/
theorem ofQuotient_eq_whole {n : Nat} (hprecision : 0 < format.precision) (hden : 0 < den)
    (hn : n < 2 ^ format.precision) (hlimit : format.precision ≤ format.limit) (h : num = n * den) :
    (ofQuotient num den : Rounded format) = whole n := by
  have hexact : nearestWithin format.precision (num * 2 ^ format.scale) den =
      n * 2 ^ format.scale := by
    rw [h, Nat.mul_right_comm]
    exact nearestWithin_of_hasPrecision hprecision hden ((hasPrecision_of_lt hn).mul_two_pow _)
  have hlt : n * 2 ^ format.scale < 2 ^ (format.scale + format.limit) := by
    rw [Nat.add_comm, Nat.pow_add]
    apply Nat.mul_lt_mul_of_pos_right _ (Nat.two_pow_pos _)
    exact Nat.lt_of_lt_of_le hn (Nat.pow_le_pow_right (by decide) hlimit)
  rw [ofQuotient, Nat.shiftLeft_eq, Nat.shiftLeft_eq, Nat.one_mul, hexact]
  exact if_pos hlt

theorem isAtLeast_ofQuotient {bound : Nat} (hprecision : 0 < format.precision) (hden : 0 < den)
    (hbound : HasPrecision format.precision bound) (h : bound * den ≤ num) :
    (ofQuotient num den : Rounded format).IsAtLeast bound := by
  have hle : bound * 2 ^ format.scale ≤
      nearestWithin format.precision (num * 2 ^ format.scale) den := by
    apply le_nearestWithin hprecision hden (hbound.mul_two_pow _)
    rw [Nat.mul_right_comm]
    exact Nat.mul_le_mul_right _ h
  rw [ofQuotient, Nat.shiftLeft_eq]
  split
  · exact hle
  · trivial

theorem zero_eq_whole : (0 : Rounded format) = whole 0 :=
  congrArg finite (Nat.zero_mul _).symm

theorem ofNat_eq_whole {n : Nat} (hprecision : 0 < format.precision)
    (hn : n < 2 ^ format.precision) (hlimit : format.precision ≤ format.limit) :
    (ofNat n : Rounded format) = whole n :=
  ofQuotient_eq_whole hprecision Nat.one_pos hn hlimit (Nat.mul_one n).symm

theorem whole_add_whole {a b : Nat} (hprecision : 0 < format.precision)
    (h : a + b < 2 ^ format.precision) (hlimit : format.precision ≤ format.limit) :
    (whole a + whole b : Rounded format) = whole (a + b) := by
  apply ofQuotient_eq_whole hprecision (Nat.one_shiftLeft _ ▸ Nat.two_pow_pos _) h hlimit
  rw [Nat.one_shiftLeft, Nat.add_mul]

theorem whole_mul_whole {a b : Nat} (hprecision : 0 < format.precision)
    (h : a * b < 2 ^ format.precision) (hlimit : format.precision ≤ format.limit) :
    (whole a * whole b : Rounded format) = whole (a * b) := by
  apply ofQuotient_eq_whole hprecision (Nat.one_shiftLeft _ ▸ Nat.two_pow_pos _) h hlimit
  rw [Nat.one_shiftLeft, Nat.two_mul, Nat.pow_add]
  ring

/-- A sum is not below what one of its parts is not below. -/
theorem IsAtLeast.add_whole {bound : Nat} {left : Rounded format} (h : left.IsAtLeast bound)
    (hprecision : 0 < format.precision) (hbound : HasPrecision format.precision bound)
    (n : Nat) : (left + whole n).IsAtLeast bound := by
  cases left with
  | finite units =>
    apply isAtLeast_ofQuotient hprecision (Nat.one_shiftLeft _ ▸ Nat.two_pow_pos _) hbound
    rw [Nat.one_shiftLeft]
    exact Nat.le_add_right_of_le h
  | infinite => trivial
  | undefined => exact h.elim

/-- A product with a whole number that is not zero is not below what the other part is not below. -/
theorem IsAtLeast.mul_whole {bound factor : Nat} {left : Rounded format} (h : left.IsAtLeast bound)
    (hprecision : 0 < format.precision) (hbound : HasPrecision format.precision bound)
    (hfactor : 0 < factor) : (left * whole factor).IsAtLeast bound := by
  cases left with
  | finite units =>
    apply isAtLeast_ofQuotient hprecision (Nat.one_shiftLeft _ ▸ Nat.two_pow_pos _) hbound
    rw [Nat.one_shiftLeft, Nat.two_mul, Nat.pow_add, ← Nat.mul_assoc]
    apply Nat.mul_le_mul h
    exact Nat.le_mul_of_pos_left _ hfactor
  | infinite =>
    have hne : (whole factor : Rounded format) ≠ finite 0 := by
      intro heq
      have hzero := finite.inj heq
      exact Nat.ne_of_gt (Nat.mul_pos hfactor (Nat.two_pow_pos _)) hzero
    have hinfinite : (infinite * whole factor : Rounded format) = infinite := if_neg hne
    rw [hinfinite]
    trivial
  | undefined => exact h.elim

theorem IsAtLeast.convert {bound : Nat} {left : Rounded format} (h : left.IsAtLeast bound)
    {target : Format} (hprecision : 0 < target.precision)
    (hbound : HasPrecision target.precision bound) : (left.convert target).IsAtLeast bound := by
  cases left with
  | finite units =>
    apply isAtLeast_ofQuotient hprecision (Nat.one_shiftLeft _ ▸ Nat.two_pow_pos _) hbound
    rw [Nat.one_shiftLeft]
    exact h
  | infinite => trivial
  | undefined => exact h.elim

/-- A whole number in another format has the bits that the other format keeps. -/
theorem convert_whole {n : Nat} {target : Format} (hprecision : 0 < target.precision)
    (hlt : nearestWithin target.precision n 1 < 2 ^ target.limit) :
    (whole n : Rounded format).convert target = whole (nearestWithin target.precision n 1) := by
  have hunits : nearestWithin target.precision (n * 2 ^ format.scale * 2 ^ target.scale)
      (2 ^ format.scale) = nearestWithin target.precision n 1 * 2 ^ target.scale := by
    rw [Nat.mul_right_comm, ← nearestWithin_mul_two_pow hprecision]
    nth_rewrite 2 [← Nat.one_mul (2 ^ format.scale)]
    exact nearestWithin_mul_right hprecision Nat.one_pos (Nat.two_pow_pos _)
  have hfinite : nearestWithin target.precision n 1 * 2 ^ target.scale <
      2 ^ (target.scale + target.limit) := by
    rw [Nat.add_comm, Nat.pow_add]
    exact Nat.mul_lt_mul_of_pos_right hlt (Nat.two_pow_pos _)
  rw [whole, Rounded.convert, ofQuotient, Nat.one_shiftLeft, Nat.one_shiftLeft, Nat.shiftLeft_eq,
    hunits]
  exact if_pos hfinite

end Rounded

end TouchTarget.Numeric
