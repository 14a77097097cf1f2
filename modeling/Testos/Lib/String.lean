import Testos.Types

/-! The parts of `string.c` the kernel's other modules call. -/
namespace Testos.Lib
open Foundation

/-- `memset`. -/
def memset (memory : Memory) (s : Word) (c : BitVec 32) (n : Word) : Memory :=
  memory.fill s (c.setWidth 8) n.toNat

/-- `memcpy`. -/
def memcpy (memory : Memory) (dst src : Word) (n : Word) : Memory := memory.copy dst src n.toNat

/-- `strcpy`, the terminator included. -/
def strcpy (memory : Memory) (dst : Word) (src : CString) : Memory := memory.write dst (src.bytes ++ [0])

/-- `strcmp` from two positions: the bytes before each NUL. -/
def strcmpFrom : List Byte → List Byte → Int
  | [], s2 => 0 - (s2.headD 0).toNat
  | c :: s1, s2 => if c = s2.headD 0 then strcmpFrom s1 s2.tail else c.toNat - (s2.headD 0).toNat

/-- `strcmp`. -/
def strcmp (s1 s2 : CString) : Int := strcmpFrom s1.bytes s2.bytes

theorem strcmpFrom_nil_cons (d : Byte) (s2 : List Byte) : strcmpFrom [] (d :: s2) = -d.toNat := Int.zero_sub _

theorem strcmpFrom_cons_nil {c : Byte} (hc : c ≠ 0) (s1 : List Byte) : strcmpFrom (c :: s1) [] = c.toNat := by
  rw [strcmpFrom, List.headD_nil, if_neg hc]
  exact Int.sub_zero _

theorem strcmpFrom_cons_cons (c d : Byte) (s1 s2 : List Byte) :
    strcmpFrom (c :: s1) (d :: s2) = if c = d then strcmpFrom s1 s2 else c.toNat - d.toNat := rfl

theorem strcmpFrom_eq_zero {s1 s2 : List Byte} (h1 : (0 : Byte) ∉ s1) (h2 : (0 : Byte) ∉ s2) :
    strcmpFrom s1 s2 = 0 ↔ s1 = s2 := by
  induction s1 generalizing s2 with
  | nil =>
    cases s2 with
    | nil => exact ⟨fun _ => rfl, fun _ => rfl⟩
    | cons d s2 =>
      have hd : d.toNat ≠ 0 := fun h => h2 (BitVec.eq_of_toNat_eq (y := 0) h ▸ List.mem_cons_self)
      refine ⟨fun h => ?_, fun h => by cases h⟩
      rw [strcmpFrom_nil_cons] at h
      omega
  | cons c s1 ih =>
    have hc : c ≠ 0 := fun h => h1 (h ▸ List.mem_cons_self)
    cases s2 with
    | nil =>
      rw [strcmpFrom_cons_nil hc]
      refine ⟨fun h => ?_, fun h => by cases h⟩
      exact absurd (BitVec.eq_of_toNat_eq (show c.toNat = (0 : Byte).toNat from Int.ofNat.inj h)) hc
    | cons d s2 =>
      rw [strcmpFrom_cons_cons]
      by_cases hcd : c = d
      · rw [if_pos hcd, ih (fun h => h1 (List.mem_cons_of_mem c h)) fun h => h2 (List.mem_cons_of_mem d h),
          hcd, List.cons_inj_right]
      · rw [if_neg hcd]
        refine ⟨fun h => ?_, fun h => absurd (List.cons.inj h).1 hcd⟩
        exact absurd (BitVec.eq_of_toNat_eq (by omega)) hcd

theorem strcmp_eq_zero (s1 s2 : CString) : strcmp s1 s2 = 0 ↔ s1 = s2 := by
  rw [strcmp, strcmpFrom_eq_zero s1.noNul s2.noNul, CString.mk.injEq]

/-! ### Positions in a string -/

/-- Position `pos` of a string, with `rest` before its NUL. -/
structure Here (s : CString) (pos : Nat) (rest : List Byte) : Prop where
  split : ∃ before, s.bytes = before ++ rest ∧ pos = before.length

theorem Here.start (s : CString) : Here s 0 s.bytes := ⟨[], rfl, rfl⟩

theorem Here.nul {s : CString} {pos : Nat} (h : Here s pos []) : s.at? pos = some 0 := by
  obtain ⟨before, hbytes, rfl⟩ := h
  rw [List.append_nil] at hbytes
  rw [CString.at?, CString.length, hbytes, if_neg (Nat.lt_irrefl _), if_pos rfl]

theorem Here.read {s : CString} {pos : Nat} {f : Byte} {rest : List Byte}
    (h : Here s pos (f :: rest)) : s.at? pos = some f ∧ f ≠ 0 ∧ Here s (pos + 1) rest := by
  obtain ⟨before, hbytes, rfl⟩ := h
  refine ⟨?_, ?_, ⟨before ++ [f], by rw [hbytes, List.append_assoc]; rfl, ?_⟩⟩
  · rw [CString.at?, CString.length, hbytes, List.length_append, List.length_cons, if_pos (by omega),
      List.getElem?_append_right (Nat.le_refl _), Nat.sub_self]
    rfl
  · intro heq
    subst heq
    apply s.noNul
    rw [hbytes]
    exact List.mem_append_right _ List.mem_cons_self
  · rw [List.length_append, List.length_singleton]

theorem Here.skip {s : CString} {pos : Nat} (front : List Byte) {rest : List Byte}
    (h : Here s pos (front ++ rest)) : Here s (pos + front.length) rest := by
  obtain ⟨before, hbytes, rfl⟩ := h
  exact ⟨before ++ front, by rw [hbytes, List.append_assoc], List.length_append.symm⟩

/-- What stands at a position: the next byte, or the NUL. -/
theorem Here.head {s : CString} {pos : Nat} {rest : List Byte} (h : Here s pos rest) :
    s.at? pos = some (rest.headD 0) := by
  cases rest with
  | nil => exact h.nul
  | cons f rest => exact h.read.1

theorem Here.length_le {s : CString} {pos : Nat} {rest : List Byte} (h : Here s pos rest) :
    rest.length ≤ s.length := by
  obtain ⟨before, hbytes, _⟩ := h
  rw [CString.length, hbytes, List.length_append]
  exact Nat.le_add_left _ _

end Testos.Lib
