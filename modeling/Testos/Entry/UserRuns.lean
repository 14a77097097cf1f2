import Testos.Entry.UserProgram

/-! How far the heap may have climbed for `run` to load right.

Blocks are cut one after the other from `0x80400000` on, so where the cursor stands says
whether one of them is in the user program's region, and whether the next stack is.
`user_prog_loaded_iff` is about every history of allocations and runs;
`runs_loaded_iff` counts the runs of a kernel that does nothing else. -/
namespace Testos.Entry
open Foundation Mem

/-! ### Where the blocks are -/

/-- Every doubleword below the cursor is in a block. -/
def Covered (s : Session) : Prop :=
  ∀ n, s.heap.start.toNat ≤ n → n < s.heap.current.toNat → 8 ∣ n →
    ∃ g ∈ s.grants, g.ptr.toNat ≤ n ∧ n < g.ptr.toNat + g.call.bytes

/-- The sessions reached by requests that do not wrap. -/
structure Packed (s : Session) : Prop where
  kept : s.Kept
  start : s.heap.start.toNat = 0x80400000
  covered : Covered s

theorem boot_packed {heapStart : Word} (h : heapStart.toNat ≤ 0x80400000) (memory : Memory) :
    Packed (boot heapStart memory) := by
  have hstart : (boot heapStart memory).heap.start.toNat = 0x80400000 := by
    show (memInit heapStart).1.start.toNat = _
    rw [memInit_start heapStart (by omega), Nat.max_eq_right h, roundUp_of_dvd (by decide) (by decide)]
  refine ⟨boot_kept heapStart memory (by omega), hstart, fun n hlo hhi _ => ?_⟩
  exact absurd hhi (Nat.not_lt_of_le hlo)

/-- A `malloc` keeps the blocks in place, whatever becomes of memory. -/
theorem malloc_packed {s : Session} (h : Packed s) {size : Word} (hs : size.toNat < 2 ^ 63)
    {a : Allocation} (hptr : a.ptr = (malloc size s.heap).ptr) (hheap : a.heap = (malloc size s.heap).heap)
    (memory : Memory) : Packed (s.got (.malloc size) a memory) := by
  have hserves : Serves s.heap a (Call.malloc size).bytes (Call.malloc size).alignment := by
    have hmalloc := malloc_serves h.kept.sound hs
    unfold Serves at hmalloc ⊢
    rw [hptr, hheap]
    exact hmalloc
  have hkept : (s.got (.malloc size) a memory).Kept := got_kept h.kept hserves fun _ => ⟨3, rfl⟩
  rcases malloc_cases h.kept.sound hs with ⟨hnull, hsame⟩ | ⟨_, hcursor, hadv⟩
  · have hgot : (s.got (.malloc size) a memory).heap = s.heap ∧
        (s.got (.malloc size) a memory).grants = s.grants := by
      refine ⟨hheap.trans hsame, ?_⟩
      exact if_pos (hptr.trans hnull)
    refine ⟨hkept, by rw [hgot.1]; exact h.start, ?_⟩
    unfold Covered
    rw [hgot.1, hgot.2]
    exact h.covered
  · have hgot : (s.got (.malloc size) a memory).heap = (malloc size s.heap).heap ∧
        (s.got (.malloc size) a memory).grants = ⟨.malloc size, s.heap.current⟩ :: s.grants := by
      refine ⟨hheap, ?_⟩
      rw [← hcursor, ← hptr]
      exact if_neg (by rw [hptr, hcursor]; exact h.kept.sound.current_ne_null)
    refine ⟨hkept, by rw [hgot.1, hadv.start]; exact h.start, fun n hlo hhi hn => ?_⟩
    rw [hgot.1, hadv.start] at hlo
    rw [hgot.1, hadv.current] at hhi
    rw [hgot.2]
    by_cases hbelow : n < s.heap.current.toNat
    · obtain ⟨g, hg, hin⟩ := h.covered n hlo hbelow hn
      exact ⟨g, List.mem_cons_of_mem _ hg, hin⟩
    · -- the block itself misses at most seven bytes of its rounded size
      have hbounds := roundUp_bounds size.toNat (show 0 < 8 by decide)
      have haligned := h.kept.sound.current_aligned
      refine ⟨_, List.mem_cons_self, Nat.le_of_not_lt hbelow, ?_⟩
      show n < s.heap.current.toNat + size.toNat
      omega

/-- One use of the heap. -/
theorem useHeap_packed {link : UserLink} {s s' : Session} (h : Packed s) {c : HeapUse}
    (hc : ∀ size, c = .malloc size → size.toNat < 2 ^ 63) (hstep : useHeap link s c = some s') :
    Packed s' := by
  cases c with
  | malloc size =>
    by_cases hnull : (malloc size s.heap).ptr = null
    · rw [useHeap, if_pos hnull] at hstep
      cases hstep
    · rw [useHeap, if_neg hnull] at hstep
      obtain rfl := Option.some.inj hstep
      exact malloc_packed h (hc size rfl) rfl rfl s.memory
  | run program =>
    obtain ⟨hptr, hheap⟩ := runUserProg_heap link s.memory s.heap
    obtain rfl := Option.some.inj hstep
    split
    · exact malloc_packed h (by decide) hptr hheap _
    · exact malloc_packed h (by decide) hptr hheap _

theorem history_packed {link : UserLink} {heapStart : Word} (hfit : heapStart.toNat ≤ 0x80400000)
    {memory : Memory} {history : List HeapUse} {s : Session}
    (hsizes : ∀ size, .malloc size ∈ history → size.toNat < 2 ^ 63)
    (hrun : Foundation.run (useHeap link) (boot heapStart memory) history = some s) : Packed s := by
  refine run_preserves (fun s c s' hs hc hstep => useHeap_packed hs hc hstep) history _ s
    (boot_packed hfit memory) ?_ hrun
  intro c hmem size heq
  subst heq
  exact hsizes size hmem

/-! ### Where the cursor may be -/

/-- The next stack is refused, or all of it that is written is below the region, or no
block is in the region and what is written of the stack is above. -/
def Away (current : Nat) : Prop :=
  0x8dff0000 < current ∨ current ≤ 0x807f0008 ∨ (0x807f4080 ≤ current ∧ current ≤ 0x80800000)

theorem refused_iff {s : Session} (h : Packed s) :
    Refused s.heap ↔ 0x8dff0000 < s.heap.current.toNat := by
  have hend := h.kept.sound.endAddr
  have hround : roundUp userStackSize.toNat 8 = 0x10000 := by decide
  rw [Refused, malloc_null_iff h.kept.sound (by decide) (by decide), hround, hend]
  omega

/-- Otherwise the stack is cut from the cursor on. -/
theorem stack_granted {s : Session} (h : Packed s) (hrefused : ¬ Refused s.heap) :
    (malloc userStackSize s.heap).ptr = s.heap.current ∧
      Advanced 0x10000 s.heap (malloc userStackSize s.heap).heap := by
  rcases malloc_cases h.kept.sound (show userStackSize.toNat < 2 ^ 63 by decide) with hnull | hgot
  · exact absurd hnull.1 hrefused
  · exact hgot.2

theorem stackPointer_toNat {s : Session} (h : Packed s) (hrefused : ¬ Refused s.heap) :
    (stackPointer s.heap).toNat =
      s.heap.current.toNat + 0x10000 - s.heap.current.toNat % 16 - 128 := by
  have hend := h.kept.sound.endAddr
  have hle := h.kept.sound.current_le
  have hfloor := h.kept.sound.floor
  have hstart := h.kept.sound.start_le
  have hsum : (s.heap.current + userStackSize).toNat = s.heap.current.toNat + 0x10000 := by
    rw [BitVec.toNat_add, Nat.mod_eq_of_lt]
    · rfl
    · have hsize : userStackSize.toNat = 0x10000 := rfl
      omega
  have htop : (stackTop s.heap.current userStackSize).toNat =
      s.heap.current.toNat + 0x10000 - (s.heap.current.toNat + 0x10000) % 16 := by
    rw [← hsum]
    exact toNat_and_not_mask (s.heap.current + userStackSize) 16 (k := 4) rfl
  rw [stackPointer, (stack_granted h hrefused).1]
  generalize stackTop s.heap.current userStackSize = top at htop ⊢
  bv_omega

/-- In an ordinary session it is the cursor that decides. -/
theorem clear_iff_away {s : Session} (h : Packed s) :
    Refused s.heap ∨ Clear s.heap s.grants ↔ Away s.heap.current.toNat := by
  by_cases hrefused : Refused s.heap
  · exact ⟨fun _ => .inl ((refused_iff h).mp hrefused), fun _ => .inl hrefused⟩
  have hcursor : ¬ 0x8dff0000 < s.heap.current.toNat := fun hlt => hrefused ((refused_iff h).mpr hlt)
  have hpointer := stackPointer_toNat h hrefused
  have haligned := h.kept.sound.current_aligned
  have hfloor := h.kept.sound.floor
  have hstart := h.kept.sound.start_le
  have hregion : startAddr.toNat = 0x80800000 := rfl
  have hsize : regionSize = 0x4000 := rfl
  have hstack : Separate (stackPointer s.heap) 128 startAddr regionSize ↔
      (stackPointer s.heap).toNat + 128 ≤ 0x80800000 ∨ 0x80804000 ≤ (stackPointer s.heap).toNat := by
    rw [separate_iff (by decide) (by decide) (by omega) (by decide)]
    omega
  have hinside : ∀ g ∈ s.grants, g.ptr.toNat + g.call.bytes ≤ s.heap.current.toNat := fun g hg =>
    (h.kept.arena.inside _ (List.mem_map_of_mem hg)).2
  constructor
  · intro h
    rcases h with hnull | hclear
    · exact absurd hnull hrefused
    have hwords := hstack.mp hclear.stack
    by_cases hbelow : s.heap.current.toNat ≤ 0x80800000
    · unfold Away
      omega
    · -- the block over the region's first byte
      have hstart' := h.start
      obtain ⟨g, hg, hlo, hhi⟩ := h.covered 0x80800000 (by omega) (by omega) (by decide)
      have hle := hinside g hg
      refine absurd ?_ (hclear.blocks g hg startAddr ?_)
      · exact (within_region (Nat.le_refl _)).mpr ⟨Nat.le_refl _, by decide⟩
      · rw [within_iff (by omega), hregion]
        exact ⟨hlo, hhi⟩
  · intro haway
    refine .inr ⟨fun g hg x hx hin => ?_, hstack.mpr ?_, fun g hg x hx hin => ?_⟩
    · have hle := hinside g hg
      rw [within_iff (by omega)] at hx
      rw [within_region (Nat.le_refl _)] at hin
      unfold Away at haway
      omega
    · unfold Away at haway
      omega
    · have hle := hinside g hg
      rw [within_iff (by omega)] at hx
      rw [within_iff (by omega)] at hin
      omega

theorem loadsRight_iff_away {s : Session} (h : Packed s) :
    LoadsRight s.heap s.grants ↔ Away s.heap.current.toNat :=
  (loadsRight_iff s.heap s.grants).trans (clear_iff_away h)

/-- **Loaded right, if the ranges are apart.** After any history, the next `run` loads
every program right and disturbs no block exactly when it gets no stack, or the region,
the blocks and the words on the new stack do not meet: with ordinary requests, when the
cursor is away from the region. -/
theorem user_prog_loaded_iff (link : UserLink) {heapStart : Word} (hfit : heapStart.toNat ≤ 0x80400000)
    (memory : Memory) {history : List HeapUse} {s : Session}
    (hrun : Foundation.run (useHeap link) (boot heapStart memory) history = some s) :
    (LoadsRight s.heap s.grants ↔ Refused s.heap ∨ Clear s.heap s.grants) ∧
      ((∀ size, .malloc size ∈ history → size.toNat < 2 ^ 63) →
        (LoadsRight s.heap s.grants ↔ Away s.heap.current.toNat)) :=
  ⟨loadsRight_iff s.heap s.grants, fun hsizes => loadsRight_iff_away (history_packed hfit hsizes hrun)⟩

/-! ### Nothing but runs -/

/-- A run that gets its stack. -/
theorem run_climbs {s : Session} (h : Packed s) (hfit : s.heap.current.toNat + 0x10000 ≤ 0x8e000000)
    (link : UserLink) (program : Memory → Memory) :
    ∃ s', useHeap link s (.run program) = some s' ∧ Packed s' ∧
      s'.heap.current.toNat = s.heap.current.toNat + 0x10000 := by
  have hrefused : ¬ Refused s.heap := by
    rw [refused_iff h]
    omega
  obtain ⟨_, hheap⟩ := runUserProg_heap link s.memory s.heap
  have hjumps := (runUserProg_jumps hrefused link s.memory).1
  obtain ⟨s', hstep⟩ : ∃ s', useHeap link s (.run program) = some s' := ⟨_, rfl⟩
  refine ⟨s', hstep, useHeap_packed h (fun size hc => HeapUse.noConfusion hc) hstep, ?_⟩
  simp only [useHeap, hjumps, Option.isSome_some, if_true, Option.some.injEq] at hstep
  subst hstep
  show (runUserProg link s.memory s.heap).heap.current.toNat = _
  rw [hheap, (stack_granted h hrefused).2.current]

theorem runs_climb {s : Session} (h : Packed s) (link : UserLink) (programs : List (Memory → Memory))
    (hfit : s.heap.current.toNat + programs.length * 0x10000 ≤ 0x8e000000) :
    ∃ s', Foundation.run (useHeap link) s (programs.map .run) = some s' ∧ Packed s' ∧
      s'.heap.current.toNat = s.heap.current.toNat + programs.length * 0x10000 := by
  induction programs generalizing s with
  | nil => exact ⟨s, rfl, h, rfl⟩
  | cons program programs ih =>
    rw [List.length_cons] at hfit ⊢
    obtain ⟨s₁, hstep, h₁, hcurrent₁⟩ := run_climbs h (by omega) link program
    obtain ⟨s', hrun, h', hcurrent⟩ := ih h₁ (by omega)
    refine ⟨s', ?_, h', by omega⟩
    rw [List.map_cons, run_cons, hstep, Option.bind_some, hrun]

/-- **Sixty-five runs** load right and no more, until the heap is used up. -/
theorem runs_loaded_iff (link : UserLink) {heapStart : Word} (hfit : heapStart.toNat ≤ 0x80400000)
    (memory : Memory) {programs : List (Memory → Memory)} (hn : programs.length ≤ 3520) :
    ∃ s, Foundation.run (useHeap link) (boot heapStart memory) (programs.map .run) = some s ∧
      (LoadsRight s.heap s.grants ↔ programs.length ≤ 64 ∨ programs.length = 3520) := by
  have hboot := boot_packed hfit memory
  have hstart : (boot heapStart memory).heap.current.toNat = 0x80400000 := hboot.start
  obtain ⟨s, hrun, hpacked, hcurrent⟩ :=
    runs_climb hboot link programs (by omega)
  refine ⟨s, hrun, ?_⟩
  rw [loadsRight_iff_away hpacked, Away]
  omega

/-! ### The sixty-sixth run -/

/-- A link with a program of the usual size. -/
def userLink : UserLink := ⟨0x80220000, 0x802219b8, 0x80210000, 0x80210080, 0x80200f00⟩

theorem user_prog_loaded_second : ∃ s,
    Foundation.run (useHeap userLink) (boot 0x80260000 fun _ => 0) [.malloc 1024, .run id] = some s ∧
      (LoadsRight s.heap s.grants ↔ Refused s.heap ∨ Clear s.heap s.grants) ∧
      (LoadsRight s.heap s.grants ↔ Away s.heap.current.toNat) := by
  obtain ⟨s, hrun⟩ : ∃ s, Foundation.run (useHeap userLink) (boot 0x80260000 fun _ => 0)
      [.malloc 1024, .run id] = some s := ⟨_, rfl⟩
  obtain ⟨hclear, haway⟩ := user_prog_loaded_iff userLink (by decide) (fun _ => 0) hrun
  refine ⟨s, hrun, hclear, haway fun size hmem => ?_⟩
  simp only [List.mem_cons, HeapUse.malloc.injEq, reduceCtorEq, List.not_mem_nil, or_false] at hmem
  rw [hmem]
  decide

/-- **A stack that is loaded over**: the sixty-fifth run's, by the next one. -/
theorem stack_loaded_over : ∃ s sp,
    Foundation.run (useHeap userLink) (boot 0x80260000 fun _ => 0) (List.replicate 65 (.run id)) = some s ∧
      userLink.Embedded ∧ (runUserProg userLink (fun _ => 1) s.heap).sp = some sp ∧
      (∃ g ∈ s.grants, Within g.ptr g.call.bytes 0x80803ff8) ∧
      (runUserProg userLink (fun _ => 1) s.heap).memory 0x80803ff8 ≠ 1 := by
  have hboot := boot_packed (show (0x80260000 : Word).toNat ≤ 0x80400000 by decide) fun _ => 0
  have hstart : (boot 0x80260000 fun _ => 0).heap.current.toNat = 0x80400000 := hboot.start
  have hlength : (List.replicate 65 (id : Memory → Memory)).length = 65 := List.length_replicate
  obtain ⟨s, hrun, hpacked, hcurrent⟩ := runs_climb hboot userLink (List.replicate 65 id)
    (by rw [hstart, hlength]; decide)
  rw [List.map_replicate] at hrun
  rw [hstart, hlength] at hcurrent
  have hembedded : userLink.Embedded := ⟨by decide, by decide, by decide⟩
  have hrefused : ¬ Refused s.heap := by
    rw [refused_iff hpacked]
    omega
  have hpointer := stackPointer_toNat hpacked hrefused
  obtain ⟨g, hg, hlo, hhi⟩ := hpacked.covered 0x80803ff8 (by rw [hpacked.start]; decide) (by omega)
    (by decide)
  have hle : g.ptr.toNat + g.call.bytes ≤ s.heap.current.toNat :=
    (hpacked.kept.arena.inside _ (List.mem_map_of_mem hg)).2
  refine ⟨s, _, hrun, hembedded, (runUserProg_jumps hrefused userLink _).1, ⟨g, hg, ?_⟩, ?_⟩
  · rw [within_iff (by omega)]
    exact ⟨hlo, hhi⟩
  · have hstack : ¬ Within (stackPointer s.heap) 128 0x80803ff8 := by
      rw [within_iff (by omega)]
      have haddr : (0x80803ff8 : Word).toNat = 0x80803ff8 := rfl
      omega
    rw [runUserProg_other hrefused userLink _ hstack, loadUserProg_apply hembedded, if_neg (by decide),
      if_pos (by decide)]
    decide

end Testos.Entry
