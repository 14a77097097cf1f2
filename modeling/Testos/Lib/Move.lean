import Testos.Foundation.Move
import Testos.Lib.String

/-! `memmove` of `string.c`.

It copies forwards when the destination is the lower address and from the ends
otherwise. `memmove_moves`: whatever the overlap, the destination gets the bytes the
source had; `memcpy`, which only knows the forward loop, does the same as long as it
does not copy upwards into its own source. -/
namespace Testos.Lib
open Foundation

/-- `memmove`: the memory it leaves and the pointer it returns. -/
def memmove (memory : Memory) (dst src n : Word) : Memory × Word :=
  (if dst < src then memory.copy dst src n.toNat
    else memory.copyDown (dst + n) (src + n) n.toNat, dst)

section
variable {dst src n : Word} (hdst : dst.toNat + n.toNat ≤ 2 ^ 64) (hsrc : src.toNat + n.toNat ≤ 2 ^ 64)
include hdst hsrc

theorem memmove_apply (memory : Memory) (x : Word) :
    (memmove memory dst src n).1 x =
      if Within dst n.toNat x then memory (src + (x - dst)) else memory x := by
  have hn : BitVec.ofNat 64 n.toNat = n := by
    rw [BitVec.ofNat_toNat, BitVec.setWidth_eq]
  unfold memmove
  by_cases hlt : dst < src
  · simp only [if_pos hlt]
    exact Memory.copy_towards_lower hdst hsrc memory (BitVec.le_of_lt hlt) x
  · simp only [if_neg hlt]
    have hup := Memory.copyDown_towards_higher hdst hsrc memory (BitVec.not_lt.mp hlt) x
    rwa [hn] at hup

/-- The forward copy, where it does not run into its own source. -/
theorem memcpy_apply (memory : Memory) (h : dst ≤ src ∨ Separate dst n.toNat src n.toNat) (x : Word) :
    memcpy memory dst src n x = if Within dst n.toNat x then memory (src + (x - dst)) else memory x := by
  rcases h with hle | hseparate
  · exact Memory.copy_towards_lower hdst hsrc memory hle x
  · apply Memory.copy_apply memory dst src n.toNat (by omega)
    intro i hi hw
    exact hseparate _ hw (within_offset hi (by omega))

/-- **`memmove` is right for every overlap**: the destination gets the bytes the source
had, no other byte changes, and `dst` is returned. `memcpy` leaves the same memory when
the destination is not above the source or does not meet it. -/
theorem memmove_moves (memory : Memory) :
    (∀ i < n.toNat, (memmove memory dst src n).1 (dst + BitVec.ofNat 64 i) =
        memory (src + BitVec.ofNat 64 i)) ∧
      (∀ x, ¬ Within dst n.toNat x → (memmove memory dst src n).1 x = memory x) ∧
      (memmove memory dst src n).2 = dst ∧
      (dst ≤ src ∨ Separate dst n.toNat src n.toNat →
        memcpy memory dst src n = (memmove memory dst src n).1) := by
  refine ⟨fun i hi => ?_, fun x hx => ?_, rfl, fun h => ?_⟩
  · have hw := within_offset (p := dst) hi (by omega)
    rw [memmove_apply hdst hsrc, if_pos hw, BitVec.add_comm dst, BitVec.add_sub_cancel]
  · rw [memmove_apply hdst hsrc, if_neg hx]
  · funext x
    rw [memcpy_apply hdst hsrc memory h, memmove_apply hdst hsrc]

end

/-- Five bytes, moved up by two over themselves. -/
theorem memmove_moves_up :
    (∀ i < (5 : Word).toNat, (memmove (fun x => x.setWidth 8) 0x80300002 0x80300000 5).1
        (0x80300002 + BitVec.ofNat 64 i) = (0x80300000 + BitVec.ofNat 64 i).setWidth 8) ∧
      (∀ x, ¬ Within 0x80300002 (5 : Word).toNat x →
        (memmove (fun x => x.setWidth 8) 0x80300002 0x80300000 5).1 x = x.setWidth 8) ∧
      (memmove (fun x => x.setWidth 8) 0x80300002 0x80300000 5).2 = 0x80300002 ∧
      ((0x80300002 : Word) ≤ 0x80300000 ∨ Separate 0x80300002 (5 : Word).toNat 0x80300000 (5 : Word).toNat →
        memcpy (fun x => x.setWidth 8) 0x80300002 0x80300000 5 =
          (memmove (fun x => x.setWidth 8) 0x80300002 0x80300000 5).1) :=
  memmove_moves (by decide) (by decide) fun x => x.setWidth 8

end Testos.Lib
