/-!
# The nearest integer to a quotient

Every rounding of the library goes through `nearest`: a quotient goes to the integer next to it,
and one half-way between two integers to the even one.
-/

namespace TouchTarget.Numeric

/-- The integer nearest to `num / den`, the even one of two. -/
def nearest (num den : Nat) : Nat :=
  let floor := num / den
  let rest := num % den
  if 2 * rest < den then floor
  else if den < 2 * rest then floor + 1
  else floor + floor % 2

/-- The nearest integer is at most half a unit away. -/
theorem nearest_near (num : Nat) {den : Nat} (h : 0 < den) :
    2 * (nearest num den * den) ≤ 2 * num + den ∧
      2 * num ≤ 2 * (nearest num den * den) + den := by
  have hsplit := Nat.div_add_mod num den
  have hrest := Nat.mod_lt num h
  rw [Nat.mul_comm] at hsplit
  have hparity := Nat.mod_two_eq_zero_or_one (num / den)
  simp only [nearest]
  split
  · omega
  · split
    · rw [Nat.add_mul]; omega
    · rcases hparity with heven | hodd
      · rw [heven, Nat.add_zero]; omega
      · rw [hodd, Nat.add_mul]; omega

/-- A quotient half-way between two integers goes to an even one. -/
theorem nearest_even_of_half {num den : Nat} (h : 2 * (num % den) = den) :
    nearest num den % 2 = 0 := by
  simp only [nearest, h, Nat.lt_irrefl, ↓reduceIte]
  omega

theorem nearest_mul_self (n : Nat) {den : Nat} (h : 0 < den) : nearest (n * den) den = n := by
  simp [nearest, Nat.mul_div_cancel n h, h]

end TouchTarget.Numeric
