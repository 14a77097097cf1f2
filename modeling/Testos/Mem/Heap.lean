import Testos.Console

/-! The bump allocator of `mem.c`.

`malloc` rounds a request up to the heap's alignment and moves `current`; nothing
is ever given back. `calloc` and `aligned_alloc` go through `malloc`, the one to
clear what it got, the other to round the address it got. All arithmetic is on
64-bit words and wraps; `calloc` divides by its count, which C leaves undefined
at zero. -/
namespace Testos.Mem
open Foundation

/-- `heap_info_t`. -/
structure HeapInfo where
  start : Word
  endAddr : Word
  current : Word
  totalSize : Word
  allocated : Word
  align : Word
deriving DecidableEq

/-- What an allocator returns, the heap it leaves and what it prints. -/
structure Allocation where
  ptr : Word
  heap : HeapInfo
  output : List Event
deriving DecidableEq

/-! ### Initialization -/

/-- `mem_init`, given the address of `_heap_start`. -/
def memInit (heapStart : Word) : HeapInfo × List Event :=
  let endAddr := memStart + memSize - 32 * 1024 * 1024
  let start :=
    if heapStart < memStart + 4 * 1024 * 1024 then memStart + 4 * 1024 * 1024 else heapStart
  let start := alignUp start 4096
  let endAddr := alignDown endAddr 4096
  let heap : HeapInfo :=
    { start
      endAddr
      current := start
      totalSize := endAddr - start
      allocated := 0
      align := 8 }
  (heap,
    [.puts (.lit "Memory heap initialized:\r\n"), .puts (.lit "  Start: 0x"), .printHex heap.start,
     .puts (.lit "\r\n  End:   0x"), .printHex heap.endAddr, .puts (.lit "\r\n  Size:  "),
     .printDec (heap.totalSize / 1024), .puts (.lit " KB\r\n")])

/-! ### Allocation -/

/-- What `malloc` prints when a rounded request does not fit. -/
def outOfMemory (size : Word) (heap : HeapInfo) : List Event :=
  [.puts (.lit "ERROR: Out of memory!\r\n"), .puts (.lit "  Requested: "), .printDec size,
   .puts (.lit " bytes\r\n"), .puts (.lit "  Available: "), .printDec (heap.endAddr - heap.current),
   .puts (.lit " bytes\r\n")]

/-- `malloc`. -/
def malloc (size : Word) (heap : HeapInfo) : Allocation :=
  if size = 0 then ⟨null, heap, []⟩
  else
    let size := alignUp size heap.align
    if heap.current + size > heap.endAddr then ⟨null, heap, outOfMemory size heap⟩
    else
      ⟨heap.current,
        { heap with current := heap.current + size, allocated := heap.allocated + size }, []⟩

/-- The clearing loop of `calloc`, at index `i` with `n` bytes to go. -/
def zeroBytes (memory : Memory) (bytes i : Word) : Nat → Memory
  | 0 => memory
  | n + 1 => zeroBytes (memory.store (bytes + i) 0) bytes (i + 1) n

/-- `calloc`; `none` is the division by zero that its overflow check makes. -/
def calloc (count size : Word) (heap : HeapInfo) (memory : Memory) : Option (Allocation × Memory) :=
  let totalSize := count * size
  if count = 0 then none
  else if totalSize / count ≠ size then some (⟨null, heap, []⟩, memory)
  else
    let got := malloc totalSize heap
    if got.ptr ≠ null then some (got, zeroBytes memory got.ptr 0 totalSize.toNat)
    else some (got, memory)

/-- `aligned_alloc`. -/
def alignedAlloc (alignment size : Word) (heap : HeapInfo) : Allocation :=
  if alignment = 0 ∨ alignment &&& (alignment - 1) ≠ 0 then ⟨null, heap, []⟩
  else
    let alignedSize := size + alignment - 1
    let raw := malloc alignedSize heap
    if raw.ptr = null then raw else { raw with ptr := alignUp raw.ptr alignment }

/-- `free`, which gives nothing back. -/
def free (_ptr : Word) (heap : HeapInfo) : HeapInfo := heap

/-! ### Queries -/

/-- `mem_get_total_size`. -/
def memGetTotalSize (heap : HeapInfo) : Word := heap.totalSize

/-- `mem_get_allocated_size`. -/
def memGetAllocatedSize (heap : HeapInfo) : Word := heap.allocated

/-- `mem_get_free_size`. -/
def memGetFreeSize (heap : HeapInfo) : Word := heap.endAddr - heap.current

/-- `mem_is_heap_addr`. -/
def memIsHeapAddr (addr : Word) (heap : HeapInfo) : Bool :=
  decide (heap.start ≤ addr) && decide (addr < heap.current)

/-! ### The invariant -/

/-- What `mem_init` establishes and every allocation keeps. -/
structure Sound (heap : HeapInfo) : Prop where
  align : heap.align = 8
  floor : 0x80400000 ≤ heap.start.toNat
  endAddr : heap.endAddr.toNat = 0x8e000000
  start_le : heap.start.toNat ≤ heap.current.toNat
  current_le : heap.current.toNat ≤ heap.endAddr.toNat
  current_aligned : 8 ∣ heap.current.toNat
  total : heap.totalSize.toNat = heap.endAddr.toNat - heap.start.toNat
  allocated : heap.allocated.toNat = heap.current.toNat - heap.start.toNat

/-- The cursor is never the null pointer. -/
theorem Sound.current_ne_null {heap : HeapInfo} (h : Sound heap) : heap.current ≠ null := by
  intro he
  have h1 := h.floor
  have h2 := h.start_le
  rw [he] at h2
  exact absurd (Nat.le_trans h1 h2) (by decide)

/-- The start of the heap `mem_init` sets up. -/
theorem memInit_start (heapStart : Word) (h : heapStart.toNat ≤ 0x8e000000) :
    (memInit heapStart).1.start.toNat = roundUp (max heapStart.toNat 0x80400000) 4096 := by
  have hk : (4096 : Word).toNat = 2 ^ 12 := rfl
  by_cases hlt : heapStart < memStart + 4 * 1024 * 1024
  · have hnat : heapStart.toNat < 0x80400000 := hlt
    simp only [memInit, if_pos hlt]
    rw [show max heapStart.toNat 0x80400000 = 0x80400000 by omega]
    exact toNat_alignUp hk (by decide)
  · have hnat : ¬ heapStart.toNat < 0x80400000 := hlt
    simp only [memInit, if_neg hlt]
    rw [show max heapStart.toNat 0x80400000 = heapStart.toNat by omega]
    exact toNat_alignUp hk (by omega)

theorem memInit_sound (heapStart : Word) (h : heapStart.toNat ≤ 0x8e000000) :
    Sound (memInit heapStart).1 := by
  have hstart := memInit_start heapStart h
  have hbounds := roundUp_bounds (max heapStart.toNat 0x80400000) (show 0 < 4096 by decide)
  have hend : (memInit heapStart).1.endAddr.toNat = 0x8e000000 := rfl
  have hle : (memInit heapStart).1.start.toNat ≤ 0x8e000000 := by
    rw [hstart]
    exact roundUp_le (by decide) (by omega) (by decide)
  have hord : (memInit heapStart).1.start ≤ (memInit heapStart).1.endAddr := by
    rw [BitVec.le_def, hend]
    exact hle
  have hsub : (memInit heapStart).1.totalSize.toNat =
      (memInit heapStart).1.endAddr.toNat - (memInit heapStart).1.start.toNat :=
    BitVec.toNat_sub_of_le hord
  refine ⟨rfl, by omega, hend, Nat.le_refl _, by rw [hend]; exact hle, ?_, hsub, ?_⟩
  · show 8 ∣ (memInit heapStart).1.start.toNat
    rw [hstart]
    exact Nat.dvd_trans (by decide) hbounds.2.2
  · show 0 = (memInit heapStart).1.start.toNat - (memInit heapStart).1.start.toNat
    omega

/-! ### What `malloc` can do -/

/-- `heap'` is `heap` after a request whose rounded size is `n`. -/
structure Advanced (n : Nat) (heap heap' : HeapInfo) : Prop where
  sound : Sound heap'
  start : heap'.start = heap.start
  endAddr : heap'.endAddr = heap.endAddr
  current : heap'.current.toNat = heap.current.toNat + n

theorem malloc_full {size : Word} {heap : HeapInfo} (h0 : size ≠ 0)
    (h : heap.current + alignUp size heap.align > heap.endAddr) :
    malloc size heap = ⟨null, heap, outOfMemory (alignUp size heap.align) heap⟩ := by
  rw [malloc, if_neg h0]
  exact if_pos h

theorem malloc_fits {size : Word} {heap : HeapInfo} (h0 : size ≠ 0)
    (h : ¬ heap.current + alignUp size heap.align > heap.endAddr) :
    malloc size heap =
      ⟨heap.current,
        { heap with
          current := heap.current + alignUp size heap.align
          allocated := heap.allocated + alignUp size heap.align }, []⟩ := by
  rw [malloc, if_neg h0]
  exact if_neg h

/-- A request small enough not to wrap is rounded up, -/
theorem Sound.rounded {heap : HeapInfo} (h : Sound heap) {size : Word} (hs : size.toNat < 2 ^ 63) :
    (alignUp size heap.align).toNat = roundUp size.toNat 8 := by
  rw [h.align]
  exact toNat_alignUp (k := 3) rfl (by omega)

/-- and does not wrap the cursor either. -/
theorem Sound.advanced {heap : HeapInfo} (h : Sound heap) {size : Word} (hs : size.toNat < 2 ^ 63) :
    (heap.current + alignUp size heap.align).toNat = heap.current.toNat + roundUp size.toNat 8 := by
  have hbounds := roundUp_bounds size.toNat (show 0 < 8 by decide)
  have hend := h.endAddr
  have hcur := h.current_le
  rw [BitVec.toNat_add, h.rounded hs, Nat.mod_eq_of_lt (by omega)]

/-- Such a request is refused exactly when it does not fit, rounded. -/
theorem malloc_null_iff {heap : HeapInfo} (h : Sound heap) {size : Word} (h0 : size ≠ 0)
    (hs : size.toNat < 2 ^ 63) :
    (malloc size heap).ptr = null ↔ heap.endAddr.toNat < heap.current.toNat + roundUp size.toNat 8 := by
  rw [← h.advanced hs]
  by_cases hfull : heap.current + alignUp size heap.align > heap.endAddr
  · rw [malloc_full h0 hfull]
    exact ⟨fun _ => hfull, fun _ => rfl⟩
  · rw [malloc_fits h0 hfull]
    exact ⟨fun hnull => absurd hnull h.current_ne_null, fun hout => absurd hout hfull⟩

/-- It is refused, with the heap as it was, or gets the old cursor. -/
theorem malloc_cases {heap : HeapInfo} (h : Sound heap) {size : Word} (hs : size.toNat < 2 ^ 63) :
    ((malloc size heap).ptr = null ∧ (malloc size heap).heap = heap) ∨
      (size ≠ 0 ∧ (malloc size heap).ptr = heap.current ∧
        Advanced (roundUp size.toNat 8) heap (malloc size heap).heap) := by
  by_cases h0 : size = 0
  · subst h0
    exact .inl ⟨rfl, rfl⟩
  have hround := h.rounded hs
  have hsum := h.advanced hs
  have hbounds := roundUp_bounds size.toNat (show 0 < 8 by decide)
  by_cases hfull : heap.current + alignUp size heap.align > heap.endAddr
  · rw [malloc_full h0 hfull]
    exact .inl ⟨rfl, rfl⟩
  · rw [malloc_fits h0 hfull]
    refine .inr ⟨h0, rfl, ?_⟩
    have hfit : heap.current.toNat + roundUp size.toNat 8 ≤ heap.endAddr.toNat := by
      rw [← hsum]
      exact Nat.le_of_not_lt hfull
    have hstart := h.start_le
    have hend := h.endAddr
    have halloc := h.allocated
    refine ⟨⟨h.align, h.floor, h.endAddr, ?_, ?_, ?_, h.total, ?_⟩, rfl, rfl, hsum⟩
    · show heap.start.toNat ≤ (heap.current + alignUp size heap.align).toNat
      omega
    · show (heap.current + alignUp size heap.align).toNat ≤ heap.endAddr.toNat
      omega
    · show 8 ∣ (heap.current + alignUp size heap.align).toNat
      rw [hsum]
      exact Nat.dvd_add h.current_aligned hbounds.2.2
    · show (heap.allocated + alignUp size heap.align).toNat =
        (heap.current + alignUp size heap.align).toNat - heap.start.toNat
      rw [hsum, BitVec.toNat_add, hround, Nat.mod_eq_of_lt (by omega)]
      omega

end Testos.Mem
