import Mathlib.Data.Rat.Floor
import Mathlib.Tactic.FieldSimp
import Mathlib.Tactic.Linarith

/-! Rounding a quotient.

Half of a quotient `m / d` can be taken by rounding, which needs the half of the divisor
in the numerator, or by keeping the quotient. `half_up_eq_div_iff` and `div_near_half_iff`:
the quotient itself is its rounded half, and as near to its half as rounding comes, only
while it is at most one. -/
namespace Testos.Foundation

/-- A natural quotient rounded to the nearest, halves up. -/
theorem floor_half_up {n d : ℕ} (hd : 0 < d) : ⌊(n : ℚ) / d + 1 / 2⌋ = ((2 * n + d) / (2 * d) : ℕ) := by
  have hne : (d : ℚ) ≠ 0 := Nat.cast_ne_zero.mpr (Nat.ne_of_gt hd)
  have hsum : (n : ℚ) / d + 1 / 2 = ((2 * n + d : ℕ) : ℚ) / ((2 * d : ℕ) : ℚ) := by
    push_cast
    field_simp
  rw [hsum, Rat.floor_natCast_div_natCast, Int.natCast_ediv]

section Half
variable {m d : ℕ} (hd : 0 < d)
include hd

/-- The quotient is its own rounded half. -/
theorem half_up_eq_div_iff : (m + d) / (2 * d) = m / d ↔ m < 2 * d := by
  have hhalf : (m + d) / (2 * d) = (m / d + 1) / 2 := by
    rw [Nat.mul_comm, ← Nat.div_div_eq_div_mul, Nat.add_div_right m hd]
  rw [hhalf, ← Nat.div_lt_iff_lt_mul hd]
  generalize m / d = q
  omega

/-- The quotient is within one half of its half. -/
theorem div_near_half_iff : |((m / d : ℕ) : ℚ) - m / (2 * d)| ≤ 1 / 2 ↔ m < 2 * d := by
  have hpos : (0 : ℚ) < d := Nat.cast_pos.mpr hd
  have hle : m / d * d ≤ m := Nat.div_mul_le_self m d
  have hlt : m < m / d * d + d := Nat.lt_div_mul_add hd
  have hhalves : |((m / d : ℕ) : ℚ) - m / (2 * d)| ≤ 1 / 2 ↔ 2 * (m / d * d) ≤ m + d ∧ m ≤ 2 * (m / d * d) + d := by
    have hscale : ((m / d : ℕ) : ℚ) - m / (2 * d) = (2 * ((m / d : ℕ) * d) - m) / (2 * d) := by
      field_simp
    have hcast : (2 * (m / d * d) ≤ m + d ∧ m ≤ 2 * (m / d * d) + d) ↔
        (2 * ((m / d : ℕ) * d) : ℚ) ≤ m + d ∧ (m : ℚ) ≤ 2 * ((m / d : ℕ) * d) + d := by
      norm_cast
    rw [hscale, abs_le, le_div_iff₀ (by linarith), div_le_iff₀ (by linarith), hcast]
    constructor
    · intro h
      constructor <;> linarith [h.1, h.2]
    · intro h
      constructor <;> linarith [h.1, h.2]
  rw [hhalves, ← Nat.div_lt_iff_lt_mul hd]
  constructor
  · intro h
    by_contra hge
    have htwo : 2 * d ≤ m / d * d := Nat.mul_le_mul_right d (Nat.le_of_not_lt hge)
    omega
  · intro h
    have hone : m / d * d ≤ 1 * d := Nat.mul_le_mul_right d (Nat.le_of_lt_succ h)
    omega

end Half

end Testos.Foundation
