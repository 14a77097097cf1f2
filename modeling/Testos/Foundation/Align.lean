import Mathlib.Algebra.Order.Ring.Nat

/-! Rounding machine words to a power of two.

C code rounds with masks: `x & ~(a - 1)` drops to a multiple of `a`, and
`(x + a - 1) & ~(a - 1)` climbs to one. Both say what they should only when `a`
is a power of two, and the climb only when the sum does not wrap. The lemmas here
give the masked word as a natural number. -/
namespace Testos.Foundation

variable {w : Nat}

theorem toNat_one_of_lt (h : 1 < 2 ^ w) : (1 : BitVec w).toNat = 1 := by
  rw [BitVec.ofNat_eq_ofNat, BitVec.toNat_ofNat]
  exact Nat.mod_eq_of_lt h

/-- The low part a mask keeps. -/
theorem toNat_and_mask (x a : BitVec w) {k : Nat} (ha : a.toNat = 2 ^ k) :
    (x &&& (a - 1)).toNat = x.toNat % 2 ^ k := by
  have hw : 2 ^ k < 2 ^ w := ha ▸ a.isLt
  have hone : (1 : BitVec w).toNat = 1 :=
    toNat_one_of_lt (Nat.lt_of_le_of_lt Nat.one_le_two_pow hw)
  have hle : (1 : BitVec w) ≤ a := by
    rw [BitVec.le_def, hone, ha]
    exact Nat.one_le_two_pow
  rw [BitVec.toNat_and, BitVec.toNat_sub_of_le hle, hone, ha, Nat.and_two_pow_sub_one_eq_mod]

/-- Clearing the low bits subtracts them. -/
theorem toNat_and_not_mask (x a : BitVec w) {k : Nat} (ha : a.toNat = 2 ^ k) :
    (x &&& ~~~(a - 1)).toNat = x.toNat - x.toNat % 2 ^ k := by
  have hdisjoint : (x &&& ~~~(a - 1)) &&& (x &&& (a - 1)) = 0 := by
    ext i hi
    simp only [BitVec.getElem_and, BitVec.getElem_not]
    cases (a - 1)[i] <;> simp
  have hsplit : (x &&& ~~~(a - 1)) + (x &&& (a - 1)) = x := by
    rw [BitVec.add_eq_or_of_and_eq_zero _ _ hdisjoint]
    ext i hi
    simp only [BitVec.getElem_or, BitVec.getElem_and, BitVec.getElem_not]
    cases (a - 1)[i] <;> simp
  have hle : (x &&& (a - 1)) ≤ x := by
    rw [BitVec.le_def, toNat_and_mask x a ha]
    exact Nat.mod_le _ _
  rw [← toNat_and_mask x a ha, ← BitVec.toNat_sub_of_le hle]
  congr 1
  exact (BitVec.sub_eq_iff_eq_add.mpr hsplit.symm).symm

/-- The mask test for a power of two. -/
theorem isPowerOfTwo_of_mask {a : BitVec w} (h0 : a ≠ 0) (h : a &&& (a - 1) = 0) :
    ∃ k, a.toNat = 2 ^ k := by
  have hne : a.toNat ≠ 0 := by
    intro hz
    exact h0 (BitVec.eq_of_toNat_eq (by simpa using hz))
  have hone : (1 : BitVec w).toNat = 1 := toNat_one_of_lt (by have := a.isLt; omega)
  have hle : (1 : BitVec w) ≤ a := by
    rw [BitVec.le_def, hone]
    omega
  have hnat : a.toNat &&& (a.toNat - 1) = 0 := by
    rw [← hone, ← BitVec.toNat_sub_of_le hle, ← BitVec.toNat_and, h]
    exact BitVec.toNat_zero
  exact Nat.ne_zero_and_sub_one_eq_zero_iff_isPowerOfTwo.mp ⟨hne, hnat⟩

/-- The least multiple of `a` that is not below `n`. -/
def roundUp (n a : Nat) : Nat := (n + a - 1) / a * a

/-- Climbing to a multiple without wrapping. -/
theorem toNat_roundUp (x a : BitVec w) {k : Nat} (ha : a.toNat = 2 ^ k)
    (hfit : x.toNat + 2 ^ k ≤ 2 ^ w) :
    ((x + a - 1) &&& ~~~(a - 1)).toNat = roundUp x.toNat (2 ^ k) := by
  have hpos : 0 < 2 ^ k := Nat.two_pow_pos k
  have hlt : 2 ^ k < 2 ^ w := ha ▸ a.isLt
  have hone : (1 : BitVec w).toNat = 1 := toNat_one_of_lt (by omega)
  have hsum : (x + a - 1).toNat = x.toNat + 2 ^ k - 1 := by
    rw [BitVec.toNat_sub, BitVec.toNat_add, hone, ha]
    rcases Nat.lt_or_ge (x.toNat + 2 ^ k) (2 ^ w) with h | h
    · rw [Nat.mod_eq_of_lt h, show 2 ^ w - 1 + (x.toNat + 2 ^ k) = x.toNat + 2 ^ k - 1 + 2 ^ w by omega,
        Nat.add_mod_right, Nat.mod_eq_of_lt (by omega)]
    · have heq : x.toNat + 2 ^ k = 2 ^ w := by omega
      rw [heq, Nat.mod_self, Nat.add_zero, Nat.mod_eq_of_lt (by omega)]
  rw [toNat_and_not_mask _ a ha, hsum, roundUp, Nat.div_mul_self_eq_mod_sub_self]

/-- A rounded number is at least the number, less than one step above it, and a
multiple of the step. -/
theorem roundUp_bounds (n : Nat) {a : Nat} (ha : 0 < a) :
    n ≤ roundUp n a ∧ roundUp n a < n + a ∧ a ∣ roundUp n a := by
  unfold roundUp
  have hdiv := Nat.div_add_mod (n + a - 1) a
  have hmod := Nat.mod_lt (n + a - 1) ha
  have hcomm : a * ((n + a - 1) / a) = (n + a - 1) / a * a := Nat.mul_comm _ _
  exact ⟨by omega, by omega, Nat.dvd_mul_left _ _⟩

/-- Nothing below a multiple rounds past it. -/
theorem roundUp_le {n a q : Nat} (ha : 0 < a) (hn : n ≤ q) (hq : a ∣ q) :
    roundUp n a ≤ q := by
  unfold roundUp
  obtain ⟨c, rfl⟩ := hq
  rw [Nat.mul_comm a c] at hn ⊢
  apply Nat.mul_le_mul_right
  apply Nat.le_of_lt_succ
  rw [Nat.div_lt_iff_lt_mul ha, Nat.succ_mul]
  omega

theorem roundUp_of_dvd {n a : Nat} (ha : 0 < a) (h : a ∣ n) : roundUp n a = n :=
  Nat.le_antisymm (roundUp_le ha (Nat.le_refl n) h) (roundUp_bounds n ha).1

/-- Climbing past the end of the address space comes back to zero, so the climb is
the rounding wrapped, whatever the word. -/
theorem toNat_roundUp_mod (x a : BitVec w) {k : Nat} (ha : a.toNat = 2 ^ k) :
    ((x + a - 1) &&& ~~~(a - 1)).toNat = roundUp x.toNat (2 ^ k) % 2 ^ w := by
  have hpos : 0 < 2 ^ k := Nat.two_pow_pos k
  have hlt : 2 ^ k < 2 ^ w := ha ▸ a.isLt
  have hx := x.isLt
  have hdvd : 2 ^ k ∣ 2 ^ w := Nat.pow_dvd_pow 2 (Nat.le_of_lt ((Nat.pow_lt_pow_iff_right (by decide)).mp hlt))
  rcases Nat.lt_or_ge (2 ^ w) (x.toNat + 2 ^ k) with hover | hfit
  · have hone : (1 : BitVec w).toNat = 1 := toNat_one_of_lt (by omega)
    have hwrap : (x.toNat + 2 ^ k) % 2 ^ w = x.toNat + 2 ^ k - 2 ^ w := by
      rw [Nat.mod_eq_sub_mod (by omega), Nat.mod_eq_of_lt (by omega)]
    have hsum : (x + a - 1).toNat = x.toNat + 2 ^ k - 1 - 2 ^ w := by
      rw [BitVec.toNat_sub, BitVec.toNat_add, hone, ha, hwrap,
        show 2 ^ w - 1 + (x.toNat + 2 ^ k - 2 ^ w) = x.toNat + 2 ^ k - 1 - 2 ^ w + 2 ^ w by omega,
        Nat.add_mod_right, Nat.mod_eq_of_lt (by omega)]
    have hround : roundUp x.toNat (2 ^ k) = 2 ^ w := by
      refine Nat.le_antisymm (roundUp_le hpos (Nat.le_of_lt hx) hdvd) ?_
      obtain ⟨c, hc⟩ := hdvd
      rw [roundUp, hc, Nat.mul_comm]
      apply Nat.mul_le_mul_right
      rw [Nat.le_div_iff_mul_le hpos, Nat.mul_comm, ← hc]
      omega
    rw [toNat_and_not_mask _ a ha, hsum, hround, Nat.mod_self,
      Nat.mod_eq_of_lt (show x.toNat + 2 ^ k - 1 - 2 ^ w < 2 ^ k by omega), Nat.sub_self]
  · have hbounds := roundUp_le hpos (show x.toNat ≤ 2 ^ w - 2 ^ k by omega)
      (Nat.dvd_sub hdvd (Nat.dvd_refl _))
    rw [toNat_roundUp x a ha hfit, Nat.mod_eq_of_lt (by omega)]

end Testos.Foundation
