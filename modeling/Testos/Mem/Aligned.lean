import Testos.Mem.Admission

/-! What `aligned_alloc` reserves.

It asks `malloc` for the size and the slack the alignment may need, and rounds the
address it gets. Three sums can wrap on the way: the demand itself, the end of the
request, and the rounded address. `alignedAlloc_reserved` gives, for every alignment
and size and every heap a session reaches, the exact condition under which a block
returned lies in what this very call took from the heap (`Reserved`). -/
namespace Testos.Mem
open Foundation

/-- What a client of `aligned_alloc` expects of `got`. -/
structure Reserved (alignment size : Word) (heap : HeapInfo) (got : Allocation) : Prop where
  power : got.ptr ≠ null → ∃ k, alignment.toNat = 2 ^ k
  aligned : got.ptr ≠ null → alignment.toNat ∣ got.ptr.toNat
  inside : got.ptr ≠ null → heap.current.toNat ≤ got.ptr.toNat ∧
    got.ptr.toNat + size.toNat ≤ got.heap.current.toNat
  failed : got.ptr = null → got.heap = heap

/-- The bytes demanded, slack included, before any wrapping. -/
def demanded (alignment size : Word) : Nat := size.toNat + alignment.toNat - 1

/-- What `malloc` is left to take, once the demand has wrapped. -/
def requested (alignment size : Word) : Nat := roundUp (demanded alignment size % 2 ^ 64) 8

/-- Either the call is refused, for its alignment, for asking nothing after wrapping or
for its end; or neither the demand nor the end of the request wraps. A cursor at the
null pointer turns what would be a grant into a refusal, which must take nothing. -/
def Unslipped (alignment size : Word) (heap : HeapInfo) : Prop :=
  (¬ ∃ k, alignment.toNat = 2 ^ k) ∨ demanded alignment size % 2 ^ 64 = 0 ∨
    heap.endAddr.toNat < (heap.current.toNat + requested alignment size) % 2 ^ 64 ∨
    (heap.current ≠ null ∧ demanded alignment size < 2 ^ 64 ∧
      heap.current.toNat + requested alignment size < 2 ^ 64) ∨
    (heap.current = null ∧ requested alignment size = 2 ^ 64)

/-- A call that returns NULL with the heap as it was is as expected. -/
theorem reserved_null (alignment size : Word) (heap : HeapInfo) (output : List Event) :
    Reserved alignment size heap ⟨null, heap, output⟩ :=
  ⟨fun h => absurd rfl h, fun h => absurd rfl h, fun h => absurd rfl h, fun _ => rfl⟩

/-! ### The alignment -/

/-- The mask test is exact. -/
theorem bad_alignment_iff (alignment : Word) :
    (alignment = 0 ∨ alignment &&& (alignment - 1) ≠ 0) ↔ ¬ ∃ k, alignment.toNat = 2 ^ k := by
  constructor
  · intro hbad ⟨k, hk⟩
    rcases hbad with h0 | hmask
    · have hpos := Nat.two_pow_pos k
      rw [h0] at hk
      exact absurd hk (Nat.ne_of_lt hpos)
    · apply hmask
      apply BitVec.eq_of_toNat_eq
      rw [toNat_and_mask _ _ hk, hk, Nat.mod_self]
      rfl
  · intro hnone
    by_contra hgood
    obtain ⟨h0, hmask⟩ := not_or.mp hgood
    exact hnone (isPowerOfTwo_of_mask h0 (not_not.mp hmask))

/-- A power of two that fits in a word is at most half the address space. -/
theorem power_le {alignment : Word} {k : Nat} (hk : alignment.toNat = 2 ^ k) : 2 ^ k ≤ 2 ^ 63 := by
  have hlt : 2 ^ k < 2 ^ 64 := hk ▸ alignment.isLt
  have hexp : k < 64 := (Nat.pow_lt_pow_iff_right (by decide)).mp hlt
  exact Nat.pow_le_pow_right (by decide) (by omega)

/-! ### The request -/

section Request
variable {alignment size : Word} {k : Nat} (hk : alignment.toNat = 2 ^ k)
include hk

/-- The word handed to `malloc`. -/
theorem toNat_request :
    (size + alignment - 1).toNat = demanded alignment size % 2 ^ 64 := by
  have hpos := Nat.two_pow_pos k
  have hone : (1 : Word).toNat = 1 := rfl
  rw [demanded, BitVec.toNat_sub, BitVec.toNat_add, hone]
  omega

theorem request_eq_zero_iff :
    size + alignment - 1 = 0 ↔ demanded alignment size % 2 ^ 64 = 0 := by
  rw [← toNat_request hk]
  exact ⟨fun h => congrArg BitVec.toNat h, fun h => BitVec.eq_of_toNat_eq h⟩

/-- The address returned when nothing wraps lies between the cursors. -/
theorem reserved_of_small {heap : HeapInfo} (hcur : heap.current ≠ null) (hdemand : demanded alignment size < 2 ^ 64)
    (hend : heap.current.toNat + requested alignment size < 2 ^ 64) {heap' : HeapInfo}
    (hadvance : heap'.current.toNat = heap.current.toNat + requested alignment size)
    {output : List Event} :
    Reserved alignment size heap ⟨alignUp heap.current alignment, heap', output⟩ := by
  have hpos := Nat.two_pow_pos k
  have hreq : requested alignment size = roundUp (size.toNat + 2 ^ k - 1) 8 := by
    rw [requested, Nat.mod_eq_of_lt hdemand, demanded, hk]
  have hround := roundUp_bounds (size.toNat + 2 ^ k - 1) (show 0 < 8 by decide)
  have hclimb := roundUp_bounds heap.current.toNat hpos
  have haddr : (alignUp heap.current alignment).toNat = roundUp heap.current.toNat (2 ^ k) :=
    toNat_alignUp hk (by omega)
  have hnat : heap.current.toNat ≠ 0 := fun hz => hcur (BitVec.eq_of_toNat_eq hz)
  refine ⟨fun _ => ⟨k, hk⟩, fun _ => ?_, fun _ => ⟨?_, ?_⟩, fun hnull => ?_⟩
  · show alignment.toNat ∣ (alignUp heap.current alignment).toNat
    rw [haddr, hk]
    exact hclimb.2.2
  · show heap.current.toNat ≤ (alignUp heap.current alignment).toNat
    rw [haddr]
    exact hclimb.1
  · show (alignUp heap.current alignment).toNat + size.toNat ≤ heap'.current.toNat
    omega
  · have hzero : (alignUp heap.current alignment).toNat = 0 := congrArg BitVec.toNat hnull
    omega

variable {heap : HeapInfo} (h : Steady heap)
include h

theorem request_claimed (size : Word) :
    (heap.current + alignUp (size + alignment - 1) heap.align).toNat =
      (heap.current.toNat + requested alignment size) % 2 ^ 64 := by
  rw [h.claimed, toNat_request hk, requested]

/-- A request that takes nothing wrapped all the way around. -/
theorem request_nothing_iff (h0 : size + alignment - 1 ≠ 0) :
    alignUp (size + alignment - 1) heap.align = 0 ↔ requested alignment size = 2 ^ 64 := by
  have hround : (alignUp (size + alignment - 1) heap.align).toNat =
      requested alignment size % 2 ^ 64 := by
    rw [h.rounded, toNat_request hk, requested]
  have hbounds := roundUp_bounds (demanded alignment size % 2 ^ 64) (show 0 < 8 by decide)
  have hle : requested alignment size ≤ 2 ^ 64 := by
    have hle := roundUp_word_le (size + alignment - 1)
    rw [toNat_request hk] at hle
    exact hle
  have hne : demanded alignment size % 2 ^ 64 ≠ 0 := fun hz => h0 ((request_eq_zero_iff hk).mpr hz)
  constructor
  · intro hz
    have hmod : requested alignment size % 2 ^ 64 = 0 := by
      rw [← hround, hz]
      rfl
    unfold requested at hmod hle ⊢
    omega
  · intro hall
    apply BitVec.eq_of_toNat_eq
    rw [hround, hall]
    rfl

/-- At the null pointer the grant reads as a refusal. -/
theorem reserved_at_null (h0 : size + alignment - 1 ≠ 0) (hcur : heap.current = null)
    (hfit : ¬ heap.current + alignUp (size + alignment - 1) heap.align > heap.endAddr) :
    Reserved alignment size heap (malloc (size + alignment - 1) heap) ↔
      requested alignment size = 2 ^ 64 := by
  rw [malloc_fits h0 hfit, ← request_nothing_iff hk h h0]
  constructor
  · intro hres
    have hcurrent := congrArg HeapInfo.current (hres.failed hcur)
    exact BitVec.add_right_eq_self.mp hcurrent
  · intro hz
    rw [taking_zero hz, hcur]
    exact reserved_null alignment size heap _

/-- A block between the cursors is only possible when nothing wrapped. -/
theorem small_of_reserved (hcur : heap.current ≠ null)
    (hfit : ¬ heap.current + alignUp (size + alignment - 1) heap.align > heap.endAddr)
    (hres : Reserved alignment size heap ⟨alignUp heap.current alignment, { heap with
      current := heap.current + alignUp (size + alignment - 1) heap.align
      allocated := heap.allocated + alignUp (size + alignment - 1) heap.align }, []⟩) :
    demanded alignment size < 2 ^ 64 ∧ heap.current.toNat + requested alignment size < 2 ^ 64 := by
  have hpos := Nat.two_pow_pos k
  have hhalf := power_le hk
  have hclaimed := request_claimed hk h size
  have hle : (heap.current + alignUp (size + alignment - 1) heap.align).toNat ≤ heap.endAddr.toNat :=
    Nat.le_of_not_lt hfit
  have hend := h.endAddr
  have hword := heap.current.isLt
  by_cases hnull : alignUp heap.current alignment = null
  · -- the address wrapped to zero, so the cursor is in the upper half, past the end
    exfalso
    have hcurrent := congrArg HeapInfo.current (hres.failed hnull)
    have hsame : heap.current + alignUp (size + alignment - 1) heap.align = heap.current := hcurrent
    have hmod : (alignUp heap.current alignment).toNat = roundUp heap.current.toNat (2 ^ k) % 2 ^ 64 :=
      toNat_alignUp_mod hk
    have hzero : (alignUp heap.current alignment).toNat = 0 := congrArg BitVec.toNat hnull
    have hclimb := roundUp_bounds heap.current.toNat hpos
    have hnat : heap.current.toNat ≠ 0 := fun hz => hcur (BitVec.eq_of_toNat_eq hz)
    rw [hsame] at hle
    omega
  · obtain ⟨hlo, hhi⟩ := hres.inside hnull
    have hlow : heap.current.toNat ≤ (alignUp heap.current alignment).toNat := hlo
    have hhigh : (alignUp heap.current alignment).toNat + size.toNat ≤
        (heap.current + alignUp (size + alignment - 1) heap.align).toNat := hhi
    have hdemand : demanded alignment size < 2 ^ 64 := by
      rw [demanded, hk]
      omega
    have hround := roundUp_bounds (size.toNat + 2 ^ k - 1) (show 0 < 8 by decide)
    have hreq : requested alignment size = roundUp (size.toNat + 2 ^ k - 1) 8 := by
      rw [requested, Nat.mod_eq_of_lt hdemand, demanded, hk]
    exact ⟨hdemand, by omega⟩

/-- For a power of two the call is as expected exactly when nothing wraps. -/
theorem reserved_power_iff :
    Reserved alignment size heap (alignedAlloc alignment size heap) ↔
      Unslipped alignment size heap := by
  have hgood : ¬ (alignment = 0 ∨ alignment &&& (alignment - 1) ≠ 0) :=
    fun hbad => (bad_alignment_iff alignment).mp hbad ⟨k, hk⟩
  have hclaimed := request_claimed hk h size
  rw [alignedAlloc_raw size heap hgood]
  by_cases h0 : size + alignment - 1 = 0
  · have hzero := (request_eq_zero_iff hk).mp h0
    have hempty : malloc (size + alignment - 1) heap = ⟨null, heap, []⟩ := by
      rw [h0]
      rfl
    rw [hempty, if_pos rfl]
    exact ⟨fun _ => .inr (.inl hzero), fun _ => reserved_null alignment size heap _⟩
  have hsome : demanded alignment size % 2 ^ 64 ≠ 0 := fun hz => h0 ((request_eq_zero_iff hk).mpr hz)
  by_cases hfull : heap.current + alignUp (size + alignment - 1) heap.align > heap.endAddr
  · have hout : heap.endAddr.toNat < (heap.current + alignUp (size + alignment - 1) heap.align).toNat := hfull
    rw [hclaimed] at hout
    rw [malloc_full h0 hfull, if_pos rfl]
    exact ⟨fun _ => .inr (.inr (.inl hout)), fun _ => reserved_null alignment size heap _⟩
  have hle : (heap.current + alignUp (size + alignment - 1) heap.align).toNat ≤ heap.endAddr.toNat :=
    Nat.le_of_not_lt hfull
  rw [hclaimed] at hle
  by_cases hcur : heap.current = null
  · have hptr : (malloc (size + alignment - 1) heap).ptr = null := by
      rw [malloc_fits h0 hfull]
      exact hcur
    rw [if_pos hptr, reserved_at_null hk h h0 hcur hfull]
    constructor
    · exact fun hall => .inr (.inr (.inr (.inr ⟨hcur, hall⟩)))
    · intro hun
      rcases hun with hnone | hz | hout | ⟨hne, _⟩ | ⟨_, hall⟩
      · exact absurd ⟨k, hk⟩ hnone
      · exact absurd hz hsome
      · exact absurd hout (Nat.not_lt.mpr hle)
      · exact absurd hcur hne
      · exact hall
  · have hptr : (malloc (size + alignment - 1) heap).ptr ≠ null := by
      rw [malloc_fits h0 hfull]
      exact hcur
    rw [if_neg hptr, malloc_fits h0 hfull]
    constructor
    · intro hres
      exact .inr (.inr (.inr (.inl ⟨hcur, small_of_reserved hk h hcur hfull hres⟩)))
    · intro hun
      rcases hun with hnone | hz | hout | ⟨_, hdemand, hend⟩ | ⟨hnull, _⟩
      · exact absurd ⟨k, hk⟩ hnone
      · exact absurd hz hsome
      · exact absurd hout (Nat.not_lt.mpr hle)
      · exact reserved_of_small hk hcur hdemand hend (by rw [hclaimed, Nat.mod_eq_of_lt hend])
      · exact absurd hnull hcur

end Request

/-- **What `aligned_alloc` reserves**: in every heap a session reaches, whatever was
asked of it before, exactly the calls in which nothing slips get what they expect. -/
theorem alignedAlloc_reserved (heapStart : Word) (memory : Memory) (calls : List Call) (s : Session)
    (hrun : run step (boot heapStart memory) calls = some s) (alignment size : Word) :
    Reserved alignment size s.heap (alignedAlloc alignment size s.heap) ↔
      Unslipped alignment size s.heap := by
  by_cases hpower : ∃ k, alignment.toNat = 2 ^ k
  · obtain ⟨k, hk⟩ := hpower
    exact reserved_power_iff hk (session_steady hrun)
  · rw [alignedAlloc, if_pos ((bad_alignment_iff alignment).mpr hpower)]
    exact ⟨fun _ => .inl hpower, fun _ => reserved_null alignment size s.heap []⟩

/-- A block on a page boundary, after a request that leaves the cursor off it. -/
theorem alignedAlloc_reserved_page :
    ∃ s, run step (boot 0x80260000 fun _ => 0) [.malloc 100, .free 0x80400000] = some s ∧
      (Reserved 0x1000 100 s.heap (alignedAlloc 0x1000 100 s.heap) ↔ Unslipped 0x1000 100 s.heap) :=
  ⟨_, rfl, alignedAlloc_reserved 0x80260000 (fun _ => 0) [.malloc 100, .free 0x80400000] _ rfl 0x1000 100⟩

/-- All but 31 bytes of the address space, aligned to 64, wraps to a request for 32
bytes, and the block returned is said to hold far more. -/
theorem alignedAlloc_slips :
    ∃ s, run step (boot 0x80260000 fun _ => 0) [] = some s ∧
      ¬ Reserved 64 0xffffffffffffffe1 s.heap (alignedAlloc 64 0xffffffffffffffe1 s.heap) := by
  refine ⟨_, rfl, fun hres => ?_⟩
  exact absurd (hres.inside (by decide)).2 (by decide)

end Testos.Mem
