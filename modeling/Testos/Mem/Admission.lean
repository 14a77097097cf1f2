import Testos.Mem.Session

/-! What `malloc` admits.

A request is admitted when its rounded size fits between the cursor and the end of
the heap, as natural numbers (`Admission`). `malloc` checks the same with words, and
the check can be passed by a sum that wrapped: `malloc_admission` says for every
request to every heap a session can reach, whatever its calls demanded, that it is
treated as it should be exactly when the sum did not wrap to an address the heap
still holds (`Unwrapped`). -/
namespace Testos.Mem
open Foundation

/-! ### What every session keeps -/

/-- What no call changes, even one whose request wraps. -/
structure Steady (heap : HeapInfo) : Prop where
  align : heap.align = 8
  endAddr : heap.endAddr.toNat = 0x8e000000
  current_aligned : 8 ∣ heap.current.toNat

/-- Any request, rounded: the top seven wrap to zero. -/
theorem Steady.rounded {heap : HeapInfo} (h : Steady heap) (size : Word) :
    (alignUp size heap.align).toNat = roundUp size.toNat 8 % 2 ^ 64 := by
  rw [h.align]
  exact toNat_alignUp_mod (k := 3) rfl

/-- The address `malloc` compares with the end of the heap. -/
theorem Steady.claimed {heap : HeapInfo} (h : Steady heap) (size : Word) :
    (heap.current + alignUp size heap.align).toNat =
      (heap.current.toNat + roundUp size.toNat 8) % 2 ^ 64 := by
  rw [BitVec.toNat_add, h.rounded, Nat.add_mod_mod]

theorem roundUp_word_le (size : Word) : roundUp size.toNat 8 ≤ 2 ^ 64 :=
  roundUp_le (by decide) (Nat.le_of_lt size.isLt) (by decide)

theorem malloc_steady {heap : HeapInfo} (h : Steady heap) (size : Word) :
    Steady (malloc size heap).heap := by
  by_cases h0 : size = 0
  · subst h0
    exact h
  by_cases hfull : heap.current + alignUp size heap.align > heap.endAddr
  · rw [malloc_full h0 hfull]
    exact h
  · rw [malloc_fits h0 hfull]
    refine ⟨h.align, h.endAddr, ?_⟩
    show 8 ∣ (heap.current + alignUp size heap.align).toNat
    have hround := (roundUp_bounds size.toNat (show 0 < 8 by decide)).2.2
    rw [h.claimed]
    exact (Nat.dvd_mod_iff (by decide)).mpr (Nat.dvd_add h.current_aligned hround)

/-- The heap `aligned_alloc` leaves is the one `malloc` leaves. -/
theorem alignedAlloc_steady {heap : HeapInfo} (h : Steady heap) (alignment size : Word) :
    Steady (alignedAlloc alignment size heap).heap := by
  by_cases hbad : alignment = 0 ∨ alignment &&& (alignment - 1) ≠ 0
  · rw [alignedAlloc, if_pos hbad]
    exact h
  · rw [alignedAlloc_raw size heap hbad]
    split
    · exact malloc_steady h _
    · exact malloc_steady h _

theorem calloc_steady {heap : HeapInfo} (h : Steady heap) {count size : Word} {memory : Memory}
    {r : Allocation × Memory} (hr : calloc count size heap memory = some r) : Steady r.1.heap := by
  unfold calloc at hr
  simp only at hr
  split at hr
  · cases hr
  · split at hr
    · cases hr
      exact h
    · split at hr <;> cases hr
      · exact malloc_steady h _
      · exact malloc_steady h _

theorem step_steady (s : Session) (c : Call) (s' : Session) (h : Steady s.heap)
    (hs : step s c = some s') : Steady s'.heap := by
  cases c with
  | malloc size =>
    cases hs
    exact malloc_steady h size
  | calloc count size =>
    obtain ⟨r, hr, rfl⟩ := Option.map_eq_some_iff.mp hs
    exact calloc_steady h hr
  | alignedAlloc alignment size =>
    cases hs
    exact alignedAlloc_steady h alignment size
  | free ptr =>
    cases hs
    exact h

/-- `mem_init` establishes it wherever the linker put the heap, -/
theorem memInit_steady (heapStart : Word) : Steady (memInit heapStart).1 := by
  refine ⟨rfl, rfl, ?_⟩
  have hround (addr : Word) : 8 ∣ (alignUp addr 4096).toNat := by
    rw [toNat_alignUp_mod (k := 12) rfl]
    exact (Nat.dvd_mod_iff (by decide)).mpr
      (Nat.dvd_trans (by decide) (roundUp_bounds addr.toNat (show 0 < 2 ^ 12 by decide)).2.2)
  exact hround _

/-- and every session that has not failed keeps it. -/
theorem session_steady {heapStart : Word} {memory : Memory} {calls : List Call} {s : Session}
    (hrun : run step (boot heapStart memory) calls = some s) : Steady s.heap :=
  run_preserves (P := fun s : Session => Steady s.heap) (Q := fun _ => True)
    (fun s c s' h _ hs => step_steady s c s' h hs) calls _ _ (memInit_steady heapStart)
    (fun _ _ => trivial) hrun

/-- Taking nothing leaves the heap as it was. -/
theorem taking_zero {heap : HeapInfo} {n : Word} (h : n = 0) :
    ({ heap with current := heap.current + n, allocated := heap.allocated + n } : HeapInfo) = heap := by
  rw [h, show heap.current + 0 = heap.current from BitVec.add_zero _,
    show heap.allocated + 0 = heap.allocated from BitVec.add_zero _]

/-! ### Admission -/

/-- The request is empty, or its rounded size exceeds what is left. -/
def Inadmissible (size : Word) (heap : HeapInfo) : Prop :=
  size = 0 ∨ (heap.endAddr.toNat : Int) - heap.current.toNat < roundUp size.toNat 8

/-- Exact admission: `got` is what a request for `size` bytes should get. -/
structure Admission (size : Word) (heap : HeapInfo) (got : Allocation) : Prop where
  refused : (got.ptr = null ∧ got.heap.current = heap.current ∧
    got.heap.allocated = heap.allocated) ↔ Inadmissible size heap
  granted : ¬ Inadmissible size heap → got.ptr = heap.current ∧
    got.heap.current.toNat = heap.current.toNat + roundUp size.toNat 8 ∧
    got.heap.allocated.toNat = heap.allocated.toNat + roundUp size.toNat 8
  climbs : heap.current ≤ got.heap.current

/-- The end of the request does not wrap to an address of the heap, and the counter of
allocated bytes does not wrap when the request fits. A request that wraps all the way
around takes nothing, and shows as a refusal when the cursor is the null pointer. -/
def Unwrapped (size : Word) (heap : HeapInfo) : Prop :=
  size = 0 ∨
    (heap.current.toNat + roundUp size.toNat 8 < 2 ^ 64 ∨
      2 ^ 64 + heap.endAddr.toNat < heap.current.toNat + roundUp size.toNat 8 ∨
      (heap.current = null ∧ roundUp size.toNat 8 = 2 ^ 64)) ∧
    (heap.current.toNat + roundUp size.toNat 8 ≤ heap.endAddr.toNat →
      heap.allocated.toNat + roundUp size.toNat 8 < 2 ^ 64)

/-- An empty request is refused, as it should. -/
theorem admission_empty (heap : HeapInfo) : Admission 0 heap (malloc 0 heap) :=
  ⟨⟨fun _ => .inl rfl, fun _ => ⟨rfl, rfl, rfl⟩⟩, fun h => absurd (.inl rfl) h, Nat.le_refl _⟩

/-- A request `malloc` finds too large is, and its end wraps to no address of the heap. -/
theorem admission_full {size : Word} {heap : HeapInfo} (h : Steady heap) (h0 : size ≠ 0)
    (hfull : heap.current + alignUp size heap.align > heap.endAddr) :
    Admission size heap (malloc size heap) ∧ Unwrapped size heap := by
  have hnat : heap.endAddr.toNat < (heap.current + alignUp size heap.align).toNat := hfull
  rw [h.claimed] at hnat
  have hcur := heap.current.isLt
  have hround := roundUp_word_le size
  have hout : Inadmissible size heap := .inr (by omega)
  rw [malloc_full h0 hfull]
  refine ⟨⟨⟨fun _ => hout, fun _ => ⟨rfl, rfl, rfl⟩⟩, fun hin => absurd hout hin, Nat.le_refl _⟩,
    .inr ⟨?_, by omega⟩⟩
  by_cases hwrap : heap.current.toNat + roundUp size.toNat 8 < 2 ^ 64
  · exact .inl hwrap
  · exact .inr (.inl (by omega))

/-- Nothing else is refused, except that a request that takes nothing at the null
pointer looks so. -/
theorem taken_refused_iff {size : Word} {heap : HeapInfo} (h : Steady heap) :
    (heap.current = null ∧ heap.current + alignUp size heap.align = heap.current ∧
        heap.allocated + alignUp size heap.align = heap.allocated) ↔
      heap.current = null ∧ roundUp size.toNat 8 % 2 ^ 64 = 0 := by
  have hround := h.rounded size
  constructor
  · intro ⟨hnull, hcur, _⟩
    have hzero : alignUp size heap.align = 0 := BitVec.add_right_eq_self.mp hcur
    rw [hzero] at hround
    exact ⟨hnull, hround.symm⟩
  · intro ⟨hnull, hmod⟩
    have hzero : alignUp size heap.align = 0 := BitVec.eq_of_toNat_eq (hround.trans hmod)
    rw [hzero]
    exact ⟨hnull, BitVec.add_zero _, BitVec.add_zero _⟩

section Taken
variable {size : Word} {heap : HeapInfo} (h : Steady heap) (h0 : size ≠ 0)
  (hfit : ¬ heap.current + alignUp size heap.align > heap.endAddr)
include h h0 hfit

/-- A request taken that does fit is granted exactly when the counter holds it. -/
theorem taken_fits (hsmall : heap.current.toNat + roundUp size.toNat 8 ≤ heap.endAddr.toNat) :
    Admission size heap (malloc size heap) ↔ heap.allocated.toNat + roundUp size.toNat 8 < 2 ^ 64 := by
  have hend := heap.endAddr.isLt
  have hbounds := roundUp_bounds size.toNat (show 0 < 8 by decide)
  have hne : size.toNat ≠ 0 := fun hz => h0 (BitVec.eq_of_toNat_eq hz)
  have hin : ¬ Inadmissible size heap := fun hout => hout.elim h0 (by omega)
  have hadvance : (heap.current + alignUp size heap.align).toNat =
      heap.current.toNat + roundUp size.toNat 8 := by
    rw [h.claimed, Nat.mod_eq_of_lt (by omega)]
  have hcounted : (heap.allocated + alignUp size heap.align).toNat =
      (heap.allocated.toNat + roundUp size.toNat 8) % 2 ^ 64 := by
    rw [BitVec.toNat_add, h.rounded, Nat.add_mod_mod]
  rw [malloc_fits h0 hfit]
  constructor
  · intro hadm
    have hcount : (heap.allocated + alignUp size heap.align).toNat =
        heap.allocated.toNat + roundUp size.toNat 8 := (hadm.granted hin).2.2
    omega
  · intro hcount
    refine ⟨⟨fun hr => ?_, fun hout => absurd hout hin⟩, fun _ => ⟨rfl, hadvance, ?_⟩, ?_⟩
    · have hmod := ((taken_refused_iff h).mp hr).2
      omega
    · show (heap.allocated + alignUp size heap.align).toNat = _
      omega
    · show heap.current.toNat ≤ (heap.current + alignUp size heap.align).toNat
      omega

/-- A request taken that does not fit looks refused only at the null pointer. -/
theorem taken_wraps (hlarge : heap.endAddr.toNat < heap.current.toNat + roundUp size.toNat 8) :
    Admission size heap (malloc size heap) ↔
      heap.current = null ∧ roundUp size.toNat 8 % 2 ^ 64 = 0 := by
  have hout : Inadmissible size heap := .inr (by omega)
  rw [malloc_fits h0 hfit]
  constructor
  · intro hadm
    exact (taken_refused_iff h).mp (hadm.refused.mpr hout)
  · intro hnothing
    have hr := (taken_refused_iff h).mpr hnothing
    refine ⟨⟨fun _ => hout, fun _ => hr⟩, fun hin => absurd hout hin, ?_⟩
    show heap.current ≤ heap.current + alignUp size heap.align
    rw [hr.2.1]
    exact Nat.le_refl _

/-- A request `malloc` takes is treated as it should exactly when nothing wraps. -/
theorem admission_taken : Admission size heap (malloc size heap) ↔ Unwrapped size heap := by
  have hend : (heap.current.toNat + roundUp size.toNat 8) % 2 ^ 64 ≤ heap.endAddr.toNat := by
    rw [← h.claimed]
    exact Nat.le_of_not_lt hfit
  have hcur := heap.current.isLt
  have hbounds := roundUp_bounds size.toNat (show 0 < 8 by decide)
  have hne : size.toNat ≠ 0 := fun hz => h0 (BitVec.eq_of_toNat_eq hz)
  have hround := roundUp_word_le size
  by_cases hsmall : heap.current.toNat + roundUp size.toNat 8 ≤ heap.endAddr.toNat
  · rw [taken_fits h h0 hfit hsmall]
    constructor
    · intro hcount
      exact .inr ⟨.inl (by omega), fun _ => hcount⟩
    · intro hun
      exact hun.elim (fun hz => absurd hz h0) fun hun => hun.2 hsmall
  · rw [taken_wraps h h0 hfit (by omega)]
    constructor
    · intro ⟨hnull, hmod⟩
      exact .inr ⟨.inr (.inr ⟨hnull, by omega⟩), fun hin => absurd hin hsmall⟩
    · intro hun
      rcases hun with hz | ⟨hlt | hgt | ⟨hnull, hall⟩, _⟩
      · exact absurd hz h0
      · omega
      · omega
      · exact ⟨hnull, by omega⟩

end Taken

/-- **Exact admission.** In every heap a session reaches, whatever was asked of it
before, a request is treated as its size deserves exactly when nothing wraps. -/
theorem malloc_admission (heapStart : Word) (memory : Memory) (calls : List Call) (s : Session)
    (hrun : run step (boot heapStart memory) calls = some s) (size : Word) :
    Admission size s.heap (malloc size s.heap) ↔ Unwrapped size s.heap := by
  have h := session_steady hrun
  by_cases h0 : size = 0
  · subst h0
    exact ⟨fun _ => .inl rfl, fun _ => admission_empty s.heap⟩
  by_cases hfull : s.heap.current + alignUp size s.heap.align > s.heap.endAddr
  · obtain ⟨hadm, hun⟩ := admission_full h h0 hfull
    exact ⟨fun _ => hun, fun _ => hadm⟩
  · exact admission_taken h h0 hfull

/-- A request for a page, after two others. -/
theorem malloc_admission_page :
    ∃ s, run step (boot 0x80260000 fun _ => 0) [.malloc 100, .calloc 3 5] = some s ∧
      (Admission 0x1000 s.heap (malloc 0x1000 s.heap) ↔ Unwrapped 0x1000 s.heap) :=
  ⟨_, rfl, malloc_admission 0x80260000 (fun _ => 0) [.malloc 100, .calloc 3 5] _ rfl 0x1000⟩

/-- A request for all but a page of the address space moves the cursor of a fresh heap
back by a page, below the start of the heap. -/
theorem malloc_admits_wrapped :
    ∃ s, run step (boot 0x80260000 fun _ => 0) [] = some s ∧
      ¬ Admission 0xfffffffffffff000 s.heap (malloc 0xfffffffffffff000 s.heap) := by
  refine ⟨_, rfl, fun hadm => ?_⟩
  exact absurd hadm.climbs (by decide)

end Testos.Mem
