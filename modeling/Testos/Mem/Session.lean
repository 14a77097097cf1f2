import Testos.Foundation.Blocks
import Testos.Foundation.Run
import Testos.Mem.Heap

/-! Sessions with the allocator.

A *session* starts from the heap `mem_init` leaves and makes any finite sequence of
allocator calls, remembering every block it was given. `session_consistent`: as
long as no call demands 2^63 bytes or more, the heap stays in bounds, the blocks
lie in the part already handed out, aligned and apart from each other, and no call
changes a byte of a block returned before it. -/
namespace Testos.Mem
open Foundation

/-- A call of the allocator's interface. -/
inductive Call where
  | malloc (size : Word)
  | calloc (count size : Word)
  | alignedAlloc (alignment size : Word)
  | free (ptr : Word)
deriving DecidableEq

namespace Call

/-- The length of the block asked for. -/
def bytes : Call → Nat
  | .malloc size => size.toNat
  | .calloc count size => count.toNat * size.toNat
  | .alignedAlloc _ size => size.toNat
  | .free _ => 0

/-- The alignment promised for it. -/
def alignment : Call → Nat
  | .malloc _ | .calloc _ _ => 8
  | .alignedAlloc alignment _ => alignment.toNat
  | .free _ => 1

/-- The bytes the call needs in all, slack for alignment included. -/
def demand : Call → Nat
  | .malloc size => size.toNat
  | .calloc count size => count.toNat * size.toNat
  | .alignedAlloc alignment size => size.toNat + alignment.toNat - 1
  | .free _ => 0

/-- A count of at least one, and a demand far from wrapping. -/
def Admissible (c : Call) : Prop :=
  c.demand < 2 ^ 63 ∧ match c with
    | .calloc count _ => 1 ≤ count.toNat
    | _ => True

instance : (c : Call) → Decidable c.Admissible
  | .malloc _ | .calloc _ _ | .alignedAlloc _ _ | .free _ => inferInstanceAs (Decidable (_ ∧ _))

end Call

/-- A block returned: the call and the pointer it got. -/
structure Grant where
  call : Call
  ptr : Word
deriving DecidableEq

def Grant.block (g : Grant) : Block Nat := ⟨g.ptr.toNat, g.ptr.toNat + g.call.bytes⟩

structure Session where
  heap : HeapInfo
  memory : Memory
  output : List Event
  grants : List Grant

/-- The session right after `mem_init`. -/
def boot (heapStart : Word) (memory : Memory) : Session :=
  ⟨(memInit heapStart).1, memory, (memInit heapStart).2, []⟩

/-- The session after an allocation that returned `a`. -/
def Session.got (s : Session) (c : Call) (a : Allocation) (memory : Memory) : Session :=
  { heap := a.heap
    memory
    output := s.output ++ a.output
    grants := if a.ptr = null then s.grants else ⟨c, a.ptr⟩ :: s.grants }

/-- One call; it fails only by dividing by zero. -/
def step (s : Session) : Call → Option Session
  | .malloc size => some (s.got (.malloc size) (malloc size s.heap) s.memory)
  | .calloc count size =>
    (calloc count size s.heap s.memory).map fun r => s.got (.calloc count size) r.1 r.2
  | .alignedAlloc alignment size =>
    some (s.got (.alignedAlloc alignment size) (alignedAlloc alignment size s.heap) s.memory)
  | .free ptr => some { s with heap := free ptr s.heap }

/-! ### One allocation -/

/-- A block of `bytes` bytes at `p`, cut between the old cursor and the new one. -/
structure Granted (heap heap' : HeapInfo) (p : Word) (bytes align : Nat) : Prop where
  sound : Sound heap'
  start : heap'.start = heap.start
  endAddr : heap'.endAddr = heap.endAddr
  climbs : heap.current.toNat ≤ heap'.current.toNat
  lo : heap.current.toNat ≤ p.toNat
  hi : p.toNat + bytes ≤ heap'.current.toNat
  aligned : align ∣ p.toNat

/-- Refused with the heap as it was, or granted. -/
def Serves (heap : HeapInfo) (a : Allocation) (bytes align : Nat) : Prop :=
  (a.ptr = null ∧ a.heap = heap) ∨
    (a.ptr ≠ null ∧ Granted heap a.heap a.ptr bytes align)

theorem malloc_serves {heap : HeapInfo} (h : Sound heap) {size : Word}
    (hs : size.toNat < 2 ^ 63) : Serves heap (malloc size heap) size.toNat 8 := by
  rcases malloc_cases h hs with hnull | ⟨_, hptr, hadv⟩
  · exact .inl hnull
  · have hbounds := roundUp_bounds size.toNat (show 0 < 8 by decide)
    have hcur := hadv.current
    refine .inr ⟨by rw [hptr]; exact h.current_ne_null, hadv.sound, hadv.start, hadv.endAddr, by omega,
      by rw [hptr], by rw [hptr]; omega, by rw [hptr]; exact h.current_aligned⟩

/-- Rounding the cursor up to the alignment stays inside a request that reserved the
alignment's slack. -/
theorem aligned_granted {heap heap' : HeapInfo} (h : Sound heap) {alignment : Word} {size k : Nat}
    (hk : alignment.toNat = 2 ^ k)
    (hadv : Advanced (roundUp (size + 2 ^ k - 1) 8) heap heap') :
    alignUp heap.current alignment ≠ null ∧
      Granted heap heap' (alignUp heap.current alignment) size alignment.toNat := by
  have hcur := hadv.current
  have hfit := hadv.sound.current_le
  have hend := hadv.sound.endAddr
  have hpos : 0 < 2 ^ k := Nat.two_pow_pos k
  have hround := roundUp_bounds (size + 2 ^ k - 1) (show 0 < 8 by decide)
  have hclimb := roundUp_bounds heap.current.toNat hpos
  have haddr : (alignUp heap.current alignment).toNat = roundUp heap.current.toNat (2 ^ k) :=
    toNat_alignUp hk (by omega)
  have hne : alignUp heap.current alignment ≠ null := by
    intro hz
    have hfloor := h.floor
    have hstart := h.start_le
    have hnat := congrArg BitVec.toNat hz
    rw [haddr] at hnat
    have hnull : null.toNat = 0 := rfl
    omega
  refine ⟨hne, hadv.sound, hadv.start, hadv.endAddr, by omega, ?_, ?_, ?_⟩
  · rw [haddr]
    exact hclimb.1
  · rw [haddr]
    omega
  · rw [haddr, hk]
    exact hclimb.2.2

theorem alignedAlloc_raw {alignment : Word} (size : Word) (heap : HeapInfo)
    (hgood : ¬ (alignment = 0 ∨ alignment &&& (alignment - 1) ≠ 0)) :
    alignedAlloc alignment size heap =
      if (malloc (size + alignment - 1) heap).ptr = null then malloc (size + alignment - 1) heap
      else { malloc (size + alignment - 1) heap with
        ptr := alignUp (malloc (size + alignment - 1) heap).ptr alignment } := by
  rw [alignedAlloc, if_neg hgood]

theorem alignedAlloc_serves {heap : HeapInfo} (h : Sound heap) {alignment size : Word}
    (hs : size.toNat + alignment.toNat - 1 < 2 ^ 63) :
    Serves heap (alignedAlloc alignment size heap) size.toNat alignment.toNat ∧
      ((alignedAlloc alignment size heap).ptr ≠ null → ∃ k, alignment.toNat = 2 ^ k) := by
  by_cases hbad : alignment = 0 ∨ alignment &&& (alignment - 1) ≠ 0
  · rw [alignedAlloc, if_pos hbad]
    exact ⟨.inl ⟨rfl, rfl⟩, fun hne => absurd rfl hne⟩
  · have h0 : alignment ≠ 0 := fun h0 => hbad (.inl h0)
    have hmask : alignment &&& (alignment - 1) = 0 := by
      by_contra hne
      exact hbad (.inr hne)
    obtain ⟨k, hk⟩ := isPowerOfTwo_of_mask h0 hmask
    have hpos : 0 < 2 ^ k := Nat.two_pow_pos k
    have hsize : (size + alignment - 1).toNat = size.toNat + 2 ^ k - 1 := by
      rw [BitVec.toNat_sub, BitVec.toNat_add]
      have h1 : (1 : Word).toNat = 1 := rfl
      omega
    rw [alignedAlloc_raw size heap hbad]
    refine ⟨?_, fun _ => ⟨k, hk⟩⟩
    have hsmall : (size + alignment - 1).toNat < 2 ^ 63 := by omega
    rcases malloc_cases h hsmall with ⟨hnull, hheap⟩ | ⟨_, hptr, hadv⟩
    · rw [if_pos hnull]
      exact .inl ⟨hnull, hheap⟩
    · rw [if_neg (by rw [hptr]; exact h.current_ne_null), hptr]
      rw [hsize] at hadv
      exact .inr (aligned_granted h hk hadv)

/-- The clearing loop is a fill. -/
theorem zeroBytes_eq_fill (memory : Memory) (bytes i : Word) (n : Nat) :
    zeroBytes memory bytes i n = memory.fill (bytes + i) 0 n := by
  induction n generalizing memory i with
  | zero => rfl
  | succ n ih => rw [zeroBytes, ih, Memory.fill, BitVec.add_assoc]

/-- A count of at least one passes the overflow check exactly when the product
does not wrap. -/
theorem mul_div_of_lt {count size : Word} (hc : 1 ≤ count.toNat)
    (h : count.toNat * size.toNat < 2 ^ 64) :
    (count * size).toNat = count.toNat * size.toNat ∧ count * size / count = size := by
  have hmul : (count * size).toNat = count.toNat * size.toNat := by
    rw [BitVec.toNat_mul, Nat.mod_eq_of_lt h]
  refine ⟨hmul, ?_⟩
  apply BitVec.eq_of_toNat_eq
  rw [BitVec.toNat_udiv, hmul, Nat.mul_div_cancel_left _ hc]

/-- A product that does not wrap goes to `malloc`, and what it got is filled with zeros. -/
theorem calloc_of_lt {count size : Word} (heap : HeapInfo) (memory : Memory) (hc : 1 ≤ count.toNat)
    (h : count.toNat * size.toNat < 2 ^ 64) :
    calloc count size heap memory = some (malloc (count * size) heap,
      if (malloc (count * size) heap).ptr = null then memory
      else memory.fill (malloc (count * size) heap).ptr 0 (count.toNat * size.toNat)) := by
  obtain ⟨hmul, hdiv⟩ := mul_div_of_lt hc h
  have h0 : count ≠ 0 := by
    intro heq
    subst heq
    exact absurd hc (by decide)
  rw [calloc, if_neg h0, if_neg (fun hne => hne hdiv)]
  by_cases hnull : (malloc (count * size) heap).ptr = null
  · rw [if_neg (fun hne => hne hnull), if_pos hnull]
  · rw [if_pos hnull, if_neg hnull, zeroBytes_eq_fill, hmul,
      show (malloc (count * size) heap).ptr + 0 = _ from BitVec.add_zero _]

theorem calloc_serves {heap : HeapInfo} (h : Sound heap) (memory : Memory) {count size : Word}
    (hc : 1 ≤ count.toNat) (hs : count.toNat * size.toNat < 2 ^ 63) :
    ∃ a memory', calloc count size heap memory = some (a, memory') ∧
      Serves heap a (count.toNat * size.toNat) 8 ∧
      ∀ x, memory' x ≠ memory x → a.ptr ≠ null ∧ Within a.ptr (count.toNat * size.toNat) x := by
  have hwrap : count.toNat * size.toNat < 2 ^ 64 := by omega
  have hmul := (mul_div_of_lt hc hwrap).1
  have hsmall : (count * size).toNat < 2 ^ 63 := by rw [hmul]; exact hs
  have hserves := malloc_serves h hsmall
  rw [hmul] at hserves
  refine ⟨_, _, calloc_of_lt heap memory hc hwrap, hserves, fun x hx => ?_⟩
  by_cases hnull : (malloc (count * size) heap).ptr = null
  · rw [if_pos hnull] at hx
    exact absurd rfl hx
  · refine ⟨hnull, ?_⟩
    rw [if_neg hnull, Memory.fill_apply _ _ _ _ (by omega)] at hx
    by_contra hout
    exact hx (if_neg hout)

/-! ### The session -/

/-- The invariant of a session. -/
structure Session.Kept (s : Session) : Prop where
  sound : Sound s.heap
  arena : Arena s.heap.start.toNat s.heap.current.toNat s.heap.endAddr.toNat
    (s.grants.map Grant.block)
  aligned : ∀ g ∈ s.grants, g.call.alignment ∣ g.ptr.toNat
  power : ∀ g ∈ s.grants, ∃ k, g.call.alignment = 2 ^ k

/-- No byte of a block handed out in `s` differs in `s'`. -/
def Undisturbed (s s' : Session) : Prop :=
  ∀ g ∈ s.grants, ∀ x, Within g.ptr g.call.bytes x → s'.memory x = s.memory x

theorem boot_kept (heapStart : Word) (memory : Memory) (h : heapStart.toNat ≤ 0x8e000000) :
    (boot heapStart memory).Kept := by
  have hsound := memInit_sound heapStart h
  exact ⟨hsound, Arena.empty hsound.current_le, fun g hg => absurd hg List.not_mem_nil,
    fun g hg => absurd hg List.not_mem_nil⟩

/-- An allocation that was served keeps the invariant. -/
theorem got_kept {s : Session} (h : s.Kept) {c : Call} {a : Allocation} {memory : Memory}
    (hs : Serves s.heap a c.bytes c.alignment)
    (hpow : a.ptr ≠ null → ∃ k, c.alignment = 2 ^ k) : (s.got c a memory).Kept := by
  rcases hs with ⟨hnull, hheap⟩ | ⟨hne, hg⟩
  · have hgot : s.got c a memory = ⟨s.heap, memory, s.output ++ a.output, s.grants⟩ := by
      simp only [Session.got, hheap, if_pos hnull]
    rw [hgot]
    exact ⟨h.sound, h.arena, h.aligned, h.power⟩
  · have hgot : s.got c a memory = ⟨a.heap, memory, s.output ++ a.output, ⟨c, a.ptr⟩ :: s.grants⟩ := by
      simp only [Session.got, if_neg hne]
    rw [hgot]
    refine ⟨hg.sound, ?_, ?_, ?_⟩
    · show Arena a.heap.start.toNat a.heap.current.toNat a.heap.endAddr.toNat
        (Grant.block ⟨c, a.ptr⟩ :: s.grants.map Grant.block)
      have hlimit := hg.sound.current_le
      rw [hg.start]
      rw [hg.endAddr] at hlimit ⊢
      exact h.arena.grant hg.lo hg.hi hg.climbs hlimit
    · intro g hgm
      rcases List.mem_cons.mp hgm with rfl | hgm
      · exact hg.aligned
      · exact h.aligned g hgm
    · intro g hgm
      rcases List.mem_cons.mp hgm with rfl | hgm
      · exact hpow hne
      · exact h.power g hgm

/-- Writes inside a fresh block disturb no older one. -/
theorem fresh_undisturbed {s s' : Session} (h : s.Kept) {p : Word} {heap' : HeapInfo} {n align : Nat}
    (hg : Granted s.heap heap' p n align)
    (hw : ∀ x, s'.memory x ≠ s.memory x → Within p n x) : Undisturbed s s' := by
  intro g hgm x hx
  by_contra hne
  have hnew := hw x hne
  have hblock := h.arena.inside _ (List.mem_map_of_mem hgm)
  have hend := hg.sound.endAddr
  have hlimit := hg.sound.current_le
  have hlo := hg.lo
  have hhi := hg.hi
  have hle := h.sound.current_le
  have hend' := h.sound.endAddr
  have hold : g.ptr.toNat + g.call.bytes ≤ s.heap.current.toNat := hblock.2
  rw [within_iff (by omega)] at hnew hx
  omega

/-- **One call** of an admissible kind does not fail, keeps the invariant and
disturbs no block. -/
theorem step_kept {s : Session} (h : s.Kept) {c : Call} (hc : c.Admissible) :
    ∃ s', step s c = some s' ∧ s'.Kept ∧ Undisturbed s s' := by
  obtain ⟨hdemand, hcount⟩ := hc
  cases c with
  | malloc size =>
    refine ⟨_, rfl, got_kept h (malloc_serves h.sound hdemand) fun _ => ⟨3, rfl⟩, ?_⟩
    exact fun g _ x _ => rfl
  | calloc count size =>
    obtain ⟨a, memory', hcalloc, hserves, hwrites⟩ := calloc_serves h.sound s.memory hcount hdemand
    refine ⟨s.got (.calloc count size) a memory', by rw [step, hcalloc]; rfl,
      got_kept h hserves fun _ => ⟨3, rfl⟩, ?_⟩
    rcases hserves with ⟨hnull, _⟩ | ⟨_, hg⟩
    · intro g _ x _
      by_contra hne
      exact (hwrites x hne).1 hnull
    · exact fresh_undisturbed h hg fun x hne => (hwrites x hne).2
  | alignedAlloc alignment size =>
    obtain ⟨hserves, hpow⟩ := alignedAlloc_serves h.sound hdemand
    exact ⟨_, rfl, got_kept h hserves hpow, fun g _ x _ => rfl⟩
  | free ptr => exact ⟨_, rfl, ⟨h.sound, h.arena, h.aligned, h.power⟩, fun g _ x _ => rfl⟩

/-- What a client of the allocator can rely on. -/
structure Consistent (s : Session) : Prop where
  bounds : s.heap.start ≤ s.heap.current ∧ s.heap.current ≤ s.heap.endAddr
  inside : ∀ g ∈ s.grants, s.heap.start.toNat ≤ g.ptr.toNat ∧
    g.ptr.toNat + g.call.bytes ≤ s.heap.current.toNat
  apart : s.grants.Pairwise fun g g' =>
    ∀ x, Within g.ptr g.call.bytes x → ¬ Within g'.ptr g'.call.bytes x
  aligned : ∀ g ∈ s.grants, g.call.alignment ∣ g.ptr.toNat ∧ ∃ k, g.call.alignment = 2 ^ k
  heapAddr : ∀ g ∈ s.grants, ∀ x, Within g.ptr g.call.bytes x → memIsHeapAddr x s.heap = true
  accounted : memGetAllocatedSize s.heap + memGetFreeSize s.heap = memGetTotalSize s.heap

/-- The bytes of a granted block, as addresses below the cursor. -/
theorem Session.Kept.within {s : Session} (h : s.Kept) {g : Grant} (hg : g ∈ s.grants) {x : Word}
    (hx : Within g.ptr g.call.bytes x) : x.toNat ∈ g.block.span := by
  have hhi := (h.arena.inside _ (List.mem_map_of_mem hg)).2
  have hle := h.sound.current_le
  have hend := h.sound.endAddr
  have hblock : g.ptr.toNat + g.call.bytes ≤ s.heap.current.toNat := hhi
  exact (within_iff (by omega)).mp hx

theorem Session.Kept.consistent {s : Session} (h : s.Kept) : Consistent s := by
  have hstart := h.sound.start_le
  have hle := h.sound.current_le
  have hend := h.sound.endAddr
  refine ⟨⟨hstart, hle⟩, ?_, ?_, fun g hg => ⟨h.aligned g hg, h.power g hg⟩, ?_, ?_⟩
  · intro g hg
    exact h.arena.inside _ (List.mem_map_of_mem hg)
  · have hapart := List.pairwise_map.mp h.arena.apart
    refine List.Pairwise.imp_of_mem ?_ hapart
    intro g g' hg hg' hdisjoint x hx hx'
    exact Set.disjoint_left.mp hdisjoint (h.within hg hx) (h.within hg' hx')
  · intro g hg x hx
    obtain ⟨hlo, hlt⟩ := h.arena.mem_span (List.mem_map_of_mem hg) (h.within hg hx)
    simp only [memIsHeapAddr, Bool.and_eq_true, decide_eq_true_eq]
    exact ⟨hlo, hlt⟩
  · apply BitVec.eq_of_toNat_eq
    have hfree : (s.heap.endAddr - s.heap.current).toNat =
        s.heap.endAddr.toNat - s.heap.current.toNat := BitVec.toNat_sub_of_le hle
    have htotal := h.sound.total
    have halloc := h.sound.allocated
    show (s.heap.allocated + (s.heap.endAddr - s.heap.current)).toNat = s.heap.totalSize.toNat
    rw [BitVec.toNat_add, hfree, htotal, halloc, Nat.mod_eq_of_lt (by omega)]
    omega

end Testos.Mem
