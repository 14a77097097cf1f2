import Testos.Mem.Admission

/-! What `calloc` clears.

The product of count and size, as a natural number, decides what a call should do: a
product that is zero, does not fit in a word or does not fit in the heap is refused
with nothing changed, and any other yields that many zero bytes with nothing else
changed (`Cleared`). `calloc_cleared` says for every heap a session reaches which
calls are treated so: the overflow check is exact, but it divides by the count, and
the check of `malloc` behind it can wrap. -/
namespace Testos.Mem
open Foundation

/-- The product, unwrapped. -/
def product (count size : Word) : Nat := count.toNat * size.toNat

/-- The product is zero, or too large for a word or for what is left of the heap. -/
def Unservable (count size : Word) (heap : HeapInfo) : Prop :=
  product count size = 0 ∨ 2 ^ 64 ≤ product count size ∨
    (heap.endAddr.toNat : Int) - heap.current.toNat < product count size

/-- What a client of `calloc` expects of the allocation and of memory. -/
structure Cleared (count size : Word) (heap : HeapInfo) (memory : Memory) (got : Allocation)
    (memory' : Memory) : Prop where
  refused : Unservable count size heap → got.ptr = null ∧ got.heap = heap ∧ memory' = memory
  block : ¬ Unservable count size heap → got.ptr ≠ null ∧
    heap.current.toNat ≤ got.ptr.toNat ∧
    got.ptr.toNat + product count size ≤ got.heap.current.toNat
  zero : ¬ Unservable count size heap → ∀ x, Within got.ptr (product count size) x → memory' x = 0
  frame : ¬ Unservable count size heap →
    ∀ x, ¬ Within got.ptr (product count size) x → memory' x = memory x

/-- There is something to divide by; and when the product goes to `malloc`, the end of
the request does not wrap to an address of the heap. A cursor at the null pointer can
only refuse. -/
def Clearable (count size : Word) (heap : HeapInfo) : Prop :=
  count ≠ 0 ∧ (product count size = 0 ∨ 2 ^ 64 ≤ product count size ∨
    (heap.current ≠ null ∧
      (heap.current.toNat + roundUp (product count size) 8 < 2 ^ 64 ∨
        2 ^ 64 + heap.endAddr.toNat < heap.current.toNat + roundUp (product count size) 8)) ∨
    (heap.current = null ∧ heap.endAddr.toNat < roundUp (product count size) 8))

/-! ### The overflow check -/

/-- A product that wrapped does not divide back. -/
theorem mul_div_ne {count size : Word} (h : 2 ^ 64 ≤ product count size) :
    count * size / count ≠ size := by
  intro hdiv
  have hle := Nat.div_mul_le_self (count * size).toNat count.toNat
  rw [← BitVec.toNat_udiv, hdiv, Nat.mul_comm] at hle
  have hlt := (count * size).isLt
  unfold product at h
  omega

theorem calloc_overflow {count size : Word} (heap : HeapInfo) (memory : Memory) (h0 : count ≠ 0)
    (h : 2 ^ 64 ≤ product count size) :
    calloc count size heap memory = some (⟨null, heap, []⟩, memory) := by
  rw [calloc, if_neg h0, if_pos (mul_div_ne h)]

/-! ### What `malloc` makes of the product -/

theorem cleared_refused {count size : Word} {heap : HeapInfo} (memory : Memory) (output : List Event)
    (h : Unservable count size heap) : Cleared count size heap memory ⟨null, heap, output⟩ memory :=
  ⟨fun _ => ⟨rfl, rfl, rfl⟩, fun hin => absurd h hin, fun hin => absurd h hin,
    fun hin => absurd h hin⟩

/-- Cursor and end are multiples of eight, so the product fits when it fits rounded. -/
theorem unservable_iff {count size : Word} {heap : HeapInfo} (h : Steady heap)
    (hpos : product count size ≠ 0) (hlt : product count size < 2 ^ 64) :
    Unservable count size heap ↔
      heap.endAddr.toNat < heap.current.toNat + roundUp (product count size) 8 := by
  obtain ⟨hlo, hhi, hdvd⟩ := roundUp_bounds (product count size) (show 0 < 8 by decide)
  have hend := h.endAddr
  have hcur := h.current_aligned
  unfold Unservable
  omega

section Product
variable {count size : Word} {heap : HeapInfo} {memory : Memory} (h : Steady heap)
  (hmul : (count * size).toNat = product count size) (h0 : count * size ≠ 0)
  (hfit : ¬ heap.current + alignUp (count * size) heap.align > heap.endAddr)
include h hmul h0 hfit

/-- Whether a product `malloc` took should have been refused. -/
theorem taken_unservable_iff :
    (heap.current.toNat + roundUp (product count size) 8) % 2 ^ 64 ≤ heap.endAddr.toNat ∧
      (Unservable count size heap ↔
        heap.endAddr.toNat < heap.current.toNat + roundUp (product count size) 8) := by
  refine ⟨?_, unservable_iff h (fun hz => h0 (BitVec.eq_of_toNat_eq (hmul.trans hz)))
    (hmul ▸ (count * size).isLt)⟩
  rw [← hmul, ← h.claimed]
  exact Nat.le_of_not_lt hfit

/-- A product taken at an address of its own is served exactly when its end did not wrap. -/
theorem cleared_taken (hcur : heap.current ≠ null) :
    Cleared count size heap memory (malloc (count * size) heap)
        (memory.fill heap.current 0 (product count size)) ↔
      heap.current.toNat + roundUp (product count size) 8 < 2 ^ 64 := by
  obtain ⟨hle, hun⟩ := taken_unservable_iff h hmul h0 hfit
  have hclaimed := h.claimed (count * size)
  rw [hmul] at hclaimed
  have hend := heap.endAddr.isLt
  have hlt : product count size < 2 ^ 64 := hmul ▸ (count * size).isLt
  have hround := roundUp_bounds (product count size) (show 0 < 8 by decide)
  have hfill := fun x => Memory.fill_apply memory heap.current 0 (product count size) (by omega) x
  rw [malloc_fits h0 hfit]
  constructor
  · intro hcleared
    by_contra hwrap
    exact hcur (hcleared.refused (hun.mpr (by omega))).1
  · intro hsmall
    rw [Nat.mod_eq_of_lt hsmall] at hle hclaimed
    have hin : ¬ Unservable count size heap := fun hout => absurd (hun.mp hout) (by omega)
    refine ⟨fun hout => absurd hout hin, fun _ => ⟨hcur, Nat.le_refl _, ?_⟩, fun _ x hx => ?_,
      fun _ x hx => ?_⟩
    · show heap.current.toNat + product count size ≤
        (heap.current + alignUp (count * size) heap.align).toNat
      omega
    · rw [hfill, if_pos hx]
    · rw [hfill, if_neg hx]

/-- A product taken at the null pointer looks refused, which is right when it should be. -/
theorem cleared_at_null (hcur : heap.current = null) :
    Cleared count size heap memory (malloc (count * size) heap) memory ↔
      heap.endAddr.toNat < roundUp (product count size) 8 := by
  obtain ⟨hle, hun⟩ := taken_unservable_iff h hmul h0 hfit
  have hzero : heap.current.toNat = 0 := congrArg BitVec.toNat hcur
  rw [hzero, Nat.zero_add] at hle hun
  have hwhole := roundUp_word_le (count * size)
  have hround := h.rounded (count * size)
  rw [hmul] at hwhole hround
  rw [malloc_fits h0 hfit]
  constructor
  · intro hcleared
    by_contra hfits
    exact (hcleared.block fun hout => hfits (hun.mp hout)).1 hcur
  · intro hlarge
    have hnothing : alignUp (count * size) heap.align = 0 := by
      apply BitVec.eq_of_toNat_eq
      rw [hround, show roundUp (product count size) 8 = 2 ^ 64 by omega]
      rfl
    rw [taking_zero hnothing, hcur]
    exact cleared_refused memory [] (hun.mpr hlarge)

end Product

/-- A product that `malloc` is asked for is treated as it should exactly when its end does
not wrap to an address of the heap. -/
theorem calloc_product_iff {count size : Word} {heap : HeapInfo} (h : Steady heap) (memory : Memory)
    (hc : 1 ≤ count.toNat) (hpos : product count size ≠ 0) (hlt : product count size < 2 ^ 64) :
    (∃ got memory', calloc count size heap memory = some (got, memory') ∧
        Cleared count size heap memory got memory') ↔
      (heap.current ≠ null ∧
        (heap.current.toNat + roundUp (product count size) 8 < 2 ^ 64 ∨
          2 ^ 64 + heap.endAddr.toNat < heap.current.toNat + roundUp (product count size) 8)) ∨
      (heap.current = null ∧ heap.endAddr.toNat < roundUp (product count size) 8) := by
  have hmul : (count * size).toNat = product count size := (mul_div_of_lt hc hlt).1
  have h0 : count * size ≠ 0 := fun hz => hpos (hmul.symm.trans (congrArg BitVec.toNat hz))
  have hword := heap.current.isLt
  have hwhole := roundUp_word_le (count * size)
  have hclaimed := h.claimed (count * size)
  rw [hmul] at hwhole hclaimed
  rw [calloc_of_lt heap memory hc hlt]
  by_cases hfull : heap.current + alignUp (count * size) heap.align > heap.endAddr
  · have hout : heap.endAddr.toNat < (heap.current + alignUp (count * size) heap.align).toNat := hfull
    rw [hclaimed] at hout
    rw [malloc_full h0 hfull, if_pos rfl]
    refine ⟨fun _ => ?_, fun _ => ⟨_, _, rfl, cleared_refused memory _ ?_⟩⟩
    · by_cases hcur : heap.current = null
      · have hzero : heap.current.toNat = 0 := congrArg BitVec.toNat hcur
        exact .inr ⟨hcur, by omega⟩
      · exact .inl ⟨hcur, by omega⟩
    · exact (unservable_iff h hpos hlt).mpr (by omega)
  · have hptr : (malloc (count * size) heap).ptr = heap.current := by rw [malloc_fits h0 hfull]
    have hle := (taken_unservable_iff h hmul h0 hfull).1
    by_cases hcur : heap.current = null
    · rw [hptr, if_pos hcur]
      constructor
      · intro ⟨got, memory', hsome, hcleared⟩
        cases hsome
        exact .inr ⟨hcur, (cleared_at_null h hmul h0 hfull hcur).mp hcleared⟩
      · intro hcase
        rcases hcase with ⟨hne, _⟩ | ⟨_, hlarge⟩
        · exact absurd hcur hne
        · exact ⟨_, _, rfl, (cleared_at_null h hmul h0 hfull hcur).mpr hlarge⟩
    · rw [hptr, if_neg hcur]
      constructor
      · intro ⟨got, memory', hsome, hcleared⟩
        cases hsome
        exact .inl ⟨hcur, .inl ((cleared_taken h hmul h0 hfull hcur).mp hcleared)⟩
      · intro hcase
        rcases hcase with ⟨_, hsmall | hlarge⟩ | ⟨hnull, _⟩
        · exact ⟨_, _, rfl, (cleared_taken h hmul h0 hfull hcur).mpr hsmall⟩
        · omega
        · exact absurd hnull hcur

/-- **What `calloc` clears**: in every heap a session reaches, whatever was asked of it
before, exactly the clearable calls divide by something and do what they should. -/
theorem calloc_cleared (heapStart : Word) (memory : Memory) (calls : List Call) (s : Session)
    (hrun : run step (boot heapStart memory) calls = some s) (count size : Word) :
    (∃ got memory', calloc count size s.heap s.memory = some (got, memory') ∧
        Cleared count size s.heap s.memory got memory') ↔ Clearable count size s.heap := by
  have h := session_steady hrun
  by_cases h0 : count = 0
  · constructor
    · intro hserved
      obtain ⟨got, memory', hsome, _⟩ := hserved
      rw [calloc, if_pos h0] at hsome
      cases hsome
    · exact fun hclear => absurd h0 hclear.1
  have hc : 1 ≤ count.toNat := Nat.pos_of_ne_zero fun hz => h0 (BitVec.eq_of_toNat_eq hz)
  by_cases hover : 2 ^ 64 ≤ product count size
  · exact ⟨fun _ => ⟨h0, .inr (.inl hover)⟩, fun _ => ⟨_, _, calloc_overflow s.heap s.memory h0 hover,
      cleared_refused s.memory [] (.inr (.inl hover))⟩⟩
  by_cases hzero : product count size = 0
  · have hnothing : count * size = 0 := BitVec.eq_of_toNat_eq ((mul_div_of_lt hc (by
      unfold product at hover
      omega)).1.trans hzero)
    refine ⟨fun _ => ⟨h0, .inl hzero⟩, fun _ => ?_⟩
    rw [calloc_of_lt s.heap s.memory hc (Nat.lt_of_not_le hover), hnothing]
    exact ⟨_, _, rfl, cleared_refused s.memory [] (.inl hzero)⟩
  · rw [calloc_product_iff h s.memory hc hzero (Nat.lt_of_not_le hover)]
    constructor
    · exact fun hcase => ⟨h0, .inr (.inr hcase)⟩
    · intro hclear
      rcases hclear.2 with hz | ho | hcase
      · exact absurd hz hzero
      · exact absurd ho hover
      · exact hcase

/-- An array of ten words, after two other blocks. -/
theorem calloc_cleared_array :
    ∃ s, run step (boot 0x80260000 fun _ => 0xff) [.malloc 20, .alignedAlloc 64 8] = some s ∧
      ((∃ got memory', calloc 10 4 s.heap s.memory = some (got, memory') ∧
          Cleared 10 4 s.heap s.memory got memory') ↔
        Clearable 10 4 s.heap) :=
  ⟨_, rfl, calloc_cleared 0x80260000 (fun _ => 0xff) [.malloc 20, .alignedAlloc 64 8] _ rfl 10 4⟩

/-- A count of zero divides by zero. -/
theorem calloc_divides_by_zero :
    ∃ s, run step (boot 0x80260000 fun _ => 0) [] = some s ∧ calloc 0 8 s.heap s.memory = none ∧
      ¬ ∃ got memory', calloc 0 8 s.heap s.memory = some (got, memory') ∧
        Cleared 0 8 s.heap s.memory got memory' := by
  refine ⟨_, rfl, rfl, fun hserved => ?_⟩
  obtain ⟨got, memory', hsome, _⟩ := hserved
  cases hsome

end Testos.Mem
