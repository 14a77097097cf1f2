import Mathlib.Data.List.Induction
import Testos.Foundation.Emitter
import Testos.Types

/-! The bounded stream of `logger.c`.

`addchar` stores a character while there is room and counts it in any case.
`emit_written`: after any characters the buffer holds as many of them as there was
room for, nothing else was stored, and all of them were counted. -/
namespace Testos.Lib
open Foundation

/-- `pstream_t`, with the memory it stores into. -/
structure PStream where
  buffer : Word
  remain : BitVec 32
  added : BitVec 32
  memory : Memory

/-- `addchar`. -/
def addchar (p : PStream) (c : Byte) : PStream :=
  let p :=
    if p.remain ≠ 0 then
      { p with
        memory := p.memory.store p.buffer c
        buffer := p.buffer + 1
        remain := p.remain - 1 }
    else p
  { p with added := p.added + 1 }

theorem addchar_room {p : PStream} (h : p.remain ≠ 0) (c : Byte) :
    addchar p c =
      { buffer := p.buffer + 1
        remain := p.remain - 1
        added := p.added + 1
        memory := p.memory.store p.buffer c } := by
  simp only [addchar, if_pos h]

theorem addchar_full {p : PStream} (h : ¬ p.remain ≠ 0) (c : Byte) :
    addchar p c = { p with added := p.added + 1 } := by
  simp only [addchar, if_neg h]

theorem ofNat_succ (w n : Nat) : BitVec.ofNat w (n + 1) = BitVec.ofNat w n + 1 := by
  rw [BitVec.ofNat_add]
  rfl

/-- Characters there is room for are written. -/
theorem emit_room (p : PStream) (out : List Byte) (h : out.length ≤ p.remain.toNat) :
    emit addchar p out =
      { buffer := p.buffer + BitVec.ofNat 64 out.length
        remain := p.remain - BitVec.ofNat 32 out.length
        added := p.added + BitVec.ofNat 32 out.length
        memory := p.memory.write p.buffer out } := by
  induction out generalizing p with
  | nil => simp [Memory.write]
  | cons c out ih =>
    rw [List.length_cons] at h ⊢
    have hne : p.remain ≠ 0 := by
      intro hz
      rw [hz] at h
      exact absurd h (Nat.not_succ_le_zero _)
    have hone : (1 : BitVec 32) ≤ p.remain := by
      rw [BitVec.le_def]
      exact Nat.le_trans (Nat.succ_le_succ (Nat.zero_le _)) h
    have hroom : out.length ≤ (p.remain - 1).toNat := by
      rw [BitVec.toNat_sub_of_le hone]
      exact Nat.le_sub_one_of_lt h
    have hremain : p.remain - 1 - BitVec.ofNat 32 out.length = p.remain - BitVec.ofNat 32 (out.length + 1) := by
      rw [BitVec.sub_sub, BitVec.add_comm 1, ← ofNat_succ]
    rw [emit_cons, addchar_room hne, ih _ hroom]
    simp only [succ_offset, hremain, Memory.write]

/-- `p'` is `p` after `out`, with room for `room` characters at first. -/
structure Written (p : PStream) (room : Nat) (out : List Byte) (p' : PStream) : Prop where
  buffer : p'.buffer = p.buffer + BitVec.ofNat 64 (min out.length room)
  remain : p'.remain.toNat = room - out.length
  added : p'.added = p.added + BitVec.ofNat 32 out.length
  chars : ∀ i (h : i < out.length), i < room → p'.memory (p.buffer + BitVec.ofNat 64 i) = out[i]
  frame : ∀ x, ¬ Within p.buffer room x → p'.memory x = p.memory x

/-- **Any characters**, one after the other. -/
theorem emit_written (p : PStream) (out : List Byte) :
    Written p p.remain.toNat out (emit addchar p out) := by
  have hsmall := p.remain.isLt
  induction out using List.reverseRecOn with
  | nil =>
    refine ⟨?_, rfl, ?_, fun i h => absurd h (Nat.not_lt_zero i), fun x _ => rfl⟩
    · rw [List.length_nil, Nat.zero_min]
      exact (BitVec.add_zero _).symm
    · exact (BitVec.add_zero _).symm
  | append_singleton out c ih =>
    obtain ⟨hbuffer, hremain, hadded, hchars, hframe⟩ := ih
    have hlength : (out ++ [c]).length = out.length + 1 := by
      rw [List.length_append, List.length_singleton]
    rw [emit_append, emit_cons, emit_nil]
    generalize emit addchar p out = q at hbuffer hremain hadded hchars hframe
    have hcount : q.added + 1 = p.added + BitVec.ofNat 32 (out ++ [c]).length := by
      rw [hadded, hlength, ofNat_succ, BitVec.add_assoc]
    by_cases hroom : out.length < p.remain.toNat
    · have hone : (1 : BitVec 32).toNat = 1 := rfl
      have hne : q.remain ≠ 0 := by
        intro h
        rw [h] at hremain
        have hzero : (0 : BitVec 32).toNat = 0 := rfl
        omega
      have hat : q.buffer = p.buffer + BitVec.ofNat 64 out.length := by
        rw [hbuffer, Nat.min_eq_left (Nat.le_of_lt hroom)]
      rw [addchar_room hne]
      refine ⟨?_, ?_, hcount, ?_, ?_⟩
      · rw [hlength, Nat.min_eq_left hroom, ofNat_succ, ← BitVec.add_assoc, ← hat]
      · show (q.remain - 1).toNat = _
        rw [BitVec.toNat_sub_of_le (show (1 : BitVec 32).toNat ≤ q.remain.toNat by omega), hremain,
          hlength, hone]
        omega
      · intro i hi hir
        show q.memory.store q.buffer c _ = _
        rw [hat]
        by_cases hlast : i < out.length
        · rw [List.getElem_append_left hlast, Memory.store_other _ _ (cell_ne (by omega) (by omega) (by omega))]
          exact hchars i hlast hir
        · obtain rfl : i = out.length := by omega
          rw [Memory.store_same]
          simp
      · intro x hx
        show q.memory.store q.buffer c x = _
        have hne : x ≠ q.buffer := by
          intro heq
          subst heq
          rw [hat] at hx
          exact hx (within_offset hroom (by omega))
        rw [Memory.store_other _ _ hne]
        exact hframe x hx
    · have hzero : (0 : BitVec 32).toNat = 0 := rfl
      have hfull : ¬ q.remain ≠ 0 := fun hne => hne (BitVec.eq_of_toNat_eq (by omega))
      rw [addchar_full hfull]
      refine ⟨?_, ?_, hcount, ?_, hframe⟩
      · show q.buffer = _
        rw [hbuffer, hlength]
        congr 2
        omega
      · show q.remain.toNat = _
        omega
      · intro i hi hir
        show q.memory _ = _
        have hlt : i < out.length := by omega
        rw [List.getElem_append_left hlt]
        exact hchars i hlt hir

end Testos.Lib
