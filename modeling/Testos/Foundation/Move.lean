import Testos.Foundation.Stack

/-! Moving bytes between ranges that may overlap.

A copy is right as long as no byte is read after it was written. Towards lower
addresses the forward loop of `Memory.copy` has that, towards higher ones the loop from
the ends does. -/
namespace Testos.Foundation

/-! ### The end of a range -/

theorem before_end (p : Word) (n : Nat) : p + BitVec.ofNat 64 (n + 1) - 1 = p + BitVec.ofNat 64 n := by
  rw [BitVec.ofNat_add, ← BitVec.add_assoc]
  exact BitVec.add_sub_cancel _ _

/-- The last byte of a range. -/
theorem within_last {p x : Word} {n : Nat} (hn : n < 2 ^ 64) :
    Within p (n + 1) x ↔ Within p n x ∨ x = p + BitVec.ofNat 64 n := by
  have hone : Within (p + BitVec.ofNat 64 n) 1 x ↔ x = p + BitVec.ofNat 64 n := by
    unfold Within
    constructor
    · intro h
      bv_omega
    · intro h
      bv_omega
  rw [within_add hn (by omega), hone]

/-- Bytes that do not wrap stand at their offsets. -/
theorem offset_ne {p q : Word} {n i j : Nat} (hp : p.toNat + n ≤ 2 ^ 64) (hq : q.toNat + n ≤ 2 ^ 64)
    (hi : i < n) (hj : j < n) (h : p.toNat + i ≠ q.toNat + j) :
    p + BitVec.ofNat 64 i ≠ q + BitVec.ofNat 64 j := by
  intro he
  have hnat := congrArg BitVec.toNat he
  rw [BitVec.toNat_add, BitVec.toNat_add, BitVec.toNat_ofNat, BitVec.toNat_ofNat] at hnat
  omega

namespace Memory

/-! ### The two directions -/

/-- `while (n--) *--d = *--s`, from the two ends. -/
def copyDown (m : Memory) (d s : Word) : Nat → Memory
  | 0 => m
  | n + 1 => copyDown (m.store (d - 1) (m (s - 1))) (d - 1) (s - 1) n

/-- A copy from the ends moves the source as it was under the mirrored condition. -/
theorem copyDown_backward (m : Memory) (d s : Word) (n : Nat) (hn : n ≤ 2 ^ 64)
    (hfresh : ∀ i j, i < j → j < n → s + BitVec.ofNat 64 i ≠ d + BitVec.ofNat 64 j) (x : Word) :
    m.copyDown (d + BitVec.ofNat 64 n) (s + BitVec.ofNat 64 n) n x =
      if Within d n x then m (s + (x - d)) else m x := by
  induction n generalizing m with
  | zero => simp [copyDown, Within]
  | succ n ih =>
    have hlast := within_last (p := d) (x := x) (show n < 2 ^ 64 by omega)
    rw [copyDown, before_end, before_end, ih _ (by omega) fun i j hij hj => hfresh i j hij (by omega)]
    by_cases hx : x = d + BitVec.ofNat 64 n
    · have hnot : ¬ Within d n x := by
        rw [hx]
        unfold Within
        rw [BitVec.add_comm, BitVec.add_sub_cancel, BitVec.toNat_ofNat, Nat.mod_eq_of_lt (by omega)]
        exact Nat.lt_irrefl n
      have hoff : s + (x - d) = s + BitVec.ofNat 64 n := by
        rw [hx, BitVec.add_comm d, BitVec.add_sub_cancel]
      rw [if_neg hnot, if_pos (hlast.mpr (.inr hx)), hoff, hx, store_same]
    · by_cases hw : Within d n x
      · obtain ⟨i, hi, rfl⟩ := hw.offset
        have hoff : s + (d + BitVec.ofNat 64 i - d) = s + BitVec.ofNat 64 i := by
          rw [BitVec.add_comm d, BitVec.add_sub_cancel]
        rw [if_pos hw, if_pos (hlast.mpr (.inl hw)), hoff, store_other _ _ (hfresh i n hi (by omega))]
      · have hout : ¬ Within d (n + 1) x := fun h => (hlast.mp h).elim hw hx
        rw [if_neg hw, if_neg hout, store_other _ _ hx]

section
variable {d s : Word} {n : Nat} (hd : d.toNat + n ≤ 2 ^ 64) (hs : s.toNat + n ≤ 2 ^ 64)
include hd hs

theorem copy_towards_lower (m : Memory) (h : d ≤ s) (x : Word) :
    m.copy d s n x = if Within d n x then m (s + (x - d)) else m x := by
  have hle : d.toNat ≤ s.toNat := h
  apply copy_forward m d s n (by omega)
  intro i j hji hi
  exact offset_ne hs hd hi (by omega) (by omega)

theorem copyDown_towards_higher (m : Memory) (h : s ≤ d) (x : Word) :
    m.copyDown (d + BitVec.ofNat 64 n) (s + BitVec.ofNat 64 n) n x =
      if Within d n x then m (s + (x - d)) else m x := by
  have hle : s.toNat ≤ d.toNat := h
  apply copyDown_backward m d s n (by omega)
  intro i j hij hj
  exact offset_ne hs hd (by omega) hj (by omega)

end

end Memory

end Testos.Foundation
