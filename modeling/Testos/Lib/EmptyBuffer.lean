import Testos.Lib.Sprintf

/-! Formatting into no bytes.

`my_vsnprintf` keeps one byte of its buffer for the NUL, takes what `size - 1` leaves for
room, and tests the room for zero only. With no byte to keep, the room is the largest
there is: `empty_buffer` says that such a call returns what every other returns, and
that it stores the whole text and the NUL. -/
namespace Testos.Lib
open Foundation

/-- A formatter as its callers see it. -/
abbrev Formatter := Memory → Word → BitVec 32 → CString → List Arg → Option Formatted

/-- Calls with a buffer and a size only count: they leave every memory as it was, and
return what the calls with a size above zero return. -/
def OnlyCounts (print : Formatter) (fmt : CString) (va : List Arg) (buf : Word) (size : BitVec 32) : Prop :=
  ∀ before : Memory, ∃ r, print before buf size fmt va = some r ∧ r.memory = before ∧
    ∀ n : BitVec 32, 0 < n.toInt → ∃ r', print before buf n fmt va = some r' ∧ r'.count = r.count

/-! ### What any call leaves -/

section Call
variable {fmt : CString} {va : List Arg}

/-- There is a NUL in memory after a call that there need not have been before. -/
theorem myVsnprintf_stores (buf : Word) (size : BitVec 32) : ¬ OnlyCounts myVsnprintf fmt va buf size := by
  intro h
  obtain ⟨r, hr, hsame, _⟩ := h fun _ => 1
  obtain ⟨s, _, hs⟩ := Option.map_eq_some_iff.mp hr
  have hnul : r.memory s.buffer = 0 := by
    rw [← hs]
    exact Memory.store_same _ _ _
  rw [hsame] at hnul
  exact absurd hnul (by simp)

section Output
variable {out : List Byte}
  (hloop : ∀ s, formatLoop fmt (2 * fmt.length + 2) .plain 0 va s = some (emit addchar s out))
include hloop

/-- The count does not depend on the size. -/
theorem myVsnprintf_count (before : Memory) (buf : Word) (size : BitVec 32) :
    ∃ r, myVsnprintf before buf size fmt va = some r ∧ r.count = BitVec.ofNat 32 out.length := by
  refine ⟨_, by rw [myVsnprintf, hloop, Option.map_some], ?_⟩
  show (emit addchar ⟨buf, size - 1, 0, before⟩ out).added = _
  rw [(emit_written ⟨buf, size - 1, 0, before⟩ out).added]
  exact BitVec.zero_add _

/-- What there is room for is stored, with a NUL behind it. -/
theorem myVsnprintf_room (before : Memory) (buf : Word) (size : BitVec 32) (hroom : out.length ≤ (size - 1).toNat) :
    myVsnprintf before buf size fmt va = some (formatted before buf out) := by
  rw [myVsnprintf, hloop, Option.map_some, emit_room _ _ hroom, formatted, Memory.write_concat]
  simp

end Output
end Call

/-- A size that is not positive leaves as much room as an `int` can count. -/
theorem room_of_empty {size : BitVec 32} (hsize : size.toInt ≤ 0) : 2 ^ 31 - 1 ≤ (size - 1).toNat := by
  have hlt := size.isLt
  have hone : (1 : BitVec 32).toNat = 1 := rfl
  have hnat := BitVec.toInt_eq_toNat_cond size
  rw [BitVec.toNat_sub, hone]
  split at hnat <;> omega

/-- **Formatting into no bytes.** With a size of zero or less neither function only
counts, whatever the format, the arguments and the buffer. On matching arguments it does
return the count of every call with a positive size; but it has stored the NUL, and
before that all of the text that an `int` can count. -/
theorem empty_buffer (fmt : CString) (va : List Arg) (buf : Word) (size : BitVec 32) (hsize : size.toInt ≤ 0) :
    (¬ OnlyCounts myVsnprintf fmt va buf size ∧ ¬ OnlyCounts mySnprintf fmt va buf size) ∧
      (Matches (wants none fmt.bytes) va → ∃ out : List Byte,
        (∀ s, formatLoop fmt (2 * fmt.length + 2) .plain 0 va s = some (emit addchar s out)) ∧
        ∀ before : Memory, ∃ r, mySnprintf before buf size fmt va = some r ∧
          (out.length < 2 ^ 31 → r.memory = before.write buf (out ++ [0])) ∧
          ∀ n : BitVec 32, 0 < n.toInt → ∃ r', mySnprintf before buf n fmt va = some r' ∧ r'.count = r.count) := by
  refine ⟨⟨myVsnprintf_stores buf size, myVsnprintf_stores buf size⟩, fun hva => ?_⟩
  obtain ⟨out, hloop⟩ := formatLoop_matches hva
  refine ⟨out, hloop, fun before => ?_⟩
  obtain ⟨r, hr, hcount⟩ := myVsnprintf_count hloop before buf size
  refine ⟨r, hr, fun hlen => ?_, fun n _ => ?_⟩
  · have hroom := room_of_empty hsize
    have hall := myVsnprintf_room hloop before buf size (by omega)
    rw [Option.some.inj (hr.symm.trans hall)]
    rfl
  · obtain ⟨r', hr', hcount'⟩ := myVsnprintf_count hloop before buf n
    exact ⟨r', hr', hcount'.trans hcount.symm⟩

/-- `%d` of 5 into no bytes. -/
theorem empty_buffer_digit :
    (¬ OnlyCounts myVsnprintf (.lit "%d") [.word 5] 0x80300000 0 ∧
        ¬ OnlyCounts mySnprintf (.lit "%d") [.word 5] 0x80300000 0) ∧
      (Matches (wants none (CString.lit "%d").bytes) [.word 5] → ∃ out : List Byte,
        (∀ s, formatLoop (.lit "%d") (2 * (CString.lit "%d").length + 2) .plain 0 [.word 5] s =
          some (emit addchar s out)) ∧
        ∀ before : Memory, ∃ r, mySnprintf before 0x80300000 0 (.lit "%d") [.word 5] = some r ∧
          (out.length < 2 ^ 31 → r.memory = before.write 0x80300000 (out ++ [0])) ∧
          ∀ n : BitVec 32, 0 < n.toInt →
            ∃ r', mySnprintf before 0x80300000 n (.lit "%d") [.word 5] = some r' ∧ r'.count = r.count) :=
  empty_buffer (.lit "%d") [.word 5] 0x80300000 0 (by simp)

/-- `my_snprintf(buf, 0, "a")` stores an `a` and a NUL. -/
theorem empty_buffer_stores :
    ∃ r, mySnprintf (fun _ => 0xff) 0x80300000 0 (.lit "a") [] = some r ∧ r.count = 1 ∧
      r.memory 0x80300000 = 0x61 ∧ r.memory 0x80300001 = 0 ∧
      ¬ OnlyCounts mySnprintf (.lit "a") [] 0x80300000 0 := by
  obtain ⟨r, hr⟩ : ∃ r, mySnprintf (fun _ => 0xff) 0x80300000 0 (.lit "a") [] = some r := ⟨_, rfl⟩
  obtain rfl := Option.some.inj hr
  exact ⟨_, rfl, by decide, by decide, by decide, myVsnprintf_stores _ _⟩

end Testos.Lib
