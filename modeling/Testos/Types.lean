import Mathlib.Data.List.TakeWhile
import Testos.Foundation.Align
import Testos.Foundation.Memory

/-! `types.h` and `cfg.h`.

The kernel's integers are machine words; its strings are the bytes before a NUL,
so a `CString` carries that none of its bytes is one. -/
namespace Testos
open Foundation

def null : Word := 0

/-! ### Alignment macros -/

/-- `ALIGN_UP`. -/
def alignUp (addr align : Word) : Word := (addr + align - 1) &&& ~~~(align - 1)

/-- `ALIGN_DOWN`. -/
def alignDown (addr align : Word) : Word := addr &&& ~~~(align - 1)

theorem toNat_alignUp {addr align : Word} {k : Nat} (ha : align.toNat = 2 ^ k)
    (hfit : addr.toNat + 2 ^ k ≤ 2 ^ 64) :
    (alignUp addr align).toNat = roundUp addr.toNat (2 ^ k) :=
  toNat_roundUp addr align ha hfit

theorem toNat_alignUp_mod {addr align : Word} {k : Nat} (ha : align.toNat = 2 ^ k) :
    (alignUp addr align).toNat = roundUp addr.toNat (2 ^ k) % 2 ^ 64 :=
  toNat_roundUp_mod addr align ha

/-! ### Configuration -/

/-- `__LOAD_ADDR__`. -/
def loadAddr : Word := 0x80200000

/-- `MEM_START`. -/
def memStart : Word := 0x80000000

/-- `MEM_SIZE`. -/
def memSize : Word := 0x10000000

/-! ### Strings -/

/-- A NUL-terminated string: the bytes before the NUL. -/
structure CString where
  bytes : List Byte
  noNul : (0 : Byte) ∉ bytes
deriving DecidableEq

namespace CString

def length (s : CString) : Nat := s.bytes.length

theorem eq_iff {s s' : CString} : s = s' ↔ s.bytes = s'.bytes := by
  cases s
  cases s'
  exact CString.mk.injEq .. ▸ Iff.rfl

theorem takeWhile_noNul (l : List Byte) : (0 : Byte) ∉ l.takeWhile (· ≠ 0) := by
  intro h
  have := List.mem_takeWhile_imp h
  simp at this

/-- A string literal of the source. -/
def lit (s : String) : CString :=
  ⟨(s.toList.map fun c => BitVec.ofNat 8 c.toNat).takeWhile (· ≠ 0), takeWhile_noNul _⟩

/-- `s[i]`, which C allows up to the terminator and no further. -/
def at? (s : CString) (i : Nat) : Option Byte :=
  if i < s.length then s.bytes[i]? else if i = s.length then some 0 else none

theorem at?_eq (s : CString) (i : Nat) : s.at? i = (s.bytes ++ [0])[i]? := by
  unfold at? length
  split
  · next h => rw [List.getElem?_append_left h]
  · next h =>
    rw [List.getElem?_append_right (Nat.le_of_not_lt h)]
    split
    · next h' => simp [h']
    · next h' => exact (List.getElem?_eq_none (by simp; omega)).symm

/-- Past the terminator there is nothing to read. -/
theorem at?_beyond {s : CString} {i : Nat} (h : s.length < i) : s.at? i = none := by
  rw [at?, if_neg (Nat.lt_asymm h), if_neg (Nat.ne_of_gt h)]

end CString

/-- The bytes from `p` up to the first NUL, looking at most `n` bytes ahead. -/
def bytesBefore (m : Memory) (p : Word) : Nat → List Byte
  | 0 => []
  | n + 1 => if m p = 0 then [] else m p :: bytesBefore m (p + 1) n

theorem bytesBefore_noNul (m : Memory) (p : Word) (n : Nat) : (0 : Byte) ∉ bytesBefore m p n := by
  induction n generalizing p with
  | zero => exact List.not_mem_nil
  | succ n ih =>
    rw [bytesBefore]
    split
    · exact List.not_mem_nil
    · next h =>
      intro hm
      rcases List.mem_cons.mp hm with h0 | hm
      · exact h h0.symm
      · exact ih (p + 1) hm

/-- The string a pointer points to. -/
def cstringAt (m : Memory) (p : Word) : CString :=
  ⟨bytesBefore m p (2 ^ 64), bytesBefore_noNul m p _⟩

/-- The bytes of a text at `p`, NUL included. -/
structure Text (p : Word) (text : List Byte) (m : Memory) : Prop where
  bytes : ∀ j (h : j < text.length), m (p + BitVec.ofNat 64 j) = text[j]
  nul : m (p + BitVec.ofNat 64 text.length) = 0

theorem Text.head {p : Word} {c : Byte} {text : List Byte} {m : Memory} (h : Text p (c :: text) m) :
    m p = c ∧ Text (p + 1) text m := by
  refine ⟨?_, fun j hj => ?_, ?_⟩
  · have h0 := h.bytes 0 (Nat.zero_lt_succ _)
    rw [show p + BitVec.ofNat 64 0 = p from BitVec.add_zero p] at h0
    exact h0
  · rw [succ_offset]
    exact h.bytes (j + 1) (Nat.succ_lt_succ hj)
  · rw [succ_offset]
    exact h.nul

theorem bytesBefore_text {p : Word} {text : List Byte} {m : Memory} (h : Text p text m) {n : Nat}
    (hn : text.length < n) : bytesBefore m p n = text.takeWhile (· ≠ 0) := by
  induction text generalizing p n with
  | nil =>
    obtain ⟨n, rfl⟩ := Nat.exists_eq_succ_of_ne_zero (Nat.ne_of_gt hn)
    have h0 := h.nul
    rw [show p + BitVec.ofNat 64 ([] : List Byte).length = p from BitVec.add_zero p] at h0
    rw [bytesBefore, if_pos h0]
    rfl
  | cons c text ih =>
    obtain ⟨n, rfl⟩ := Nat.exists_eq_succ_of_ne_zero (Nat.ne_of_gt (Nat.lt_of_le_of_lt (Nat.zero_le _) hn))
    obtain ⟨hc, htail⟩ := h.head
    rw [bytesBefore, hc, ih htail (Nat.lt_of_succ_lt_succ hn)]
    by_cases h0 : c = 0
    · rw [if_pos h0, List.takeWhile_cons_of_neg (by simpa using h0)]
    · rw [if_neg h0, List.takeWhile_cons_of_pos (by simpa using h0)]

/-- A text that was written, and closed with a NUL. -/
theorem Text.written (m : Memory) (p : Word) (text : List Byte) (hlen : text.length < 2 ^ 64) :
    Text p text (m.write p (text ++ [0])) := by
  have hlength : (text ++ [0]).length = text.length + 1 := by simp
  refine ⟨fun j hj => ?_, ?_⟩
  · rw [Memory.write_get m p _ (by omega) (by omega), List.getElem_append_left hj]
  · rw [Memory.write_get m p _ (by omega) (by omega)]
    simp

/-- It reads back. -/
theorem cstringAt_written (m : Memory) (p : Word) (text : List Byte) (hlen : text.length < 2 ^ 64) :
    (cstringAt (m.write p (text ++ [0])) p).bytes = text.takeWhile (· ≠ 0) :=
  bytesBefore_text (Text.written m p text hlen) hlen

end Testos
