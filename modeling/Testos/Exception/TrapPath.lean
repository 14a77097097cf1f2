import Testos.Exception.Vector

/-! Saving and restoring.

What the listing saves and what it restores, row by row. `entry_run`: at the call the
frame holds the machine that was stopped. `exit_run`: what the frame then holds, the
machine is loaded from. -/
namespace Testos.Exception
open Foundation Riscv

/-! ### The rows of the listing -/

def integerRow : List (Reg × Nat) := (List.finRange 32).tail.map fun r => (r, r.val)

def floatRow : List (Reg × Nat) := (List.finRange 32).map fun r => (r, 32 + r.val)

def restoreRow : List (Reg × Nat) :=
  ((List.finRange 32).filter fun r => r ≠ 0 ∧ r ≠ Reg.sp).map fun r => (r, r.val)

theorem saveIntegers_row : saveIntegers = stores Reg.sp integerRow := by decide

theorem saveFloats_row : saveFloats = fstores Reg.sp floatRow := by decide

theorem restoreFloats_row : restoreFloats = floads Reg.sp floatRow := by decide

theorem restoreIntegers_row : restoreIntegers = loads Reg.sp restoreRow := by decide

/-! ### Saving -/

/-- The machine with another scratch register and another memory. -/
def scratched (m : Machine) (v : Word) (memory : Memory) : Machine :=
  { m with x := Function.update m.x Reg.t0 v, memory }

@[simp] theorem scratched_sp (m : Machine) (v : Word) (memory : Memory) :
    (scratched m v memory).x Reg.sp = m.x Reg.sp := by
  show Function.update m.x Reg.t0 v Reg.sp = m.x Reg.sp
  exact Function.update_of_ne (by decide) _ _

@[simp] theorem scratched_scratched (m : Machine) (v v' : Word) (memory memory' : Memory) :
    scratched (scratched m v memory) v' memory' = scratched m v' memory' := by
  simp [scratched]

/-- Code that writes slots of the frame and spoils nothing but `t0`. -/
def Saves (m : Machine) (code : List Instr) (writes : List (Nat × Word)) : Prop :=
  ∃ v, run exec m code = some (scratched m v (m.memory.writeSlots (m.x Reg.sp) writes))

theorem Saves.append {m : Machine} {code code' : List Instr} {writes writes' : List (Nat × Word)}
    (h : Saves m code writes) (h' : ∀ v memory, Saves (scratched m v memory) code' writes') :
    Saves m (code ++ code') (writes ++ writes') := by
  obtain ⟨v, hv⟩ := h
  obtain ⟨v', hv'⟩ := h' v (m.memory.writeSlots (m.x Reg.sp) writes)
  refine ⟨v', ?_⟩
  rw [run_append, hv, Option.bind_some, hv', scratched_sp, scratched_scratched,
    Memory.writeSlots_append]
  rfl

theorem saveIntegers_saves (m : Machine) :
    Saves m saveIntegers (integerRow.map fun s => (s.2, m.getX s.1)) := by
  refine ⟨m.x Reg.t0, ?_⟩
  rw [saveIntegers_row, run_stores, Machine.getX_of_ne m (show Reg.sp ≠ 0 by decide), scratched,
    Function.update_eq_self]

theorem saveFloats_saves {m : Machine} (hfs : fs m.sstatus = 3) :
    Saves m saveFloats (floatRow.map fun s => (s.2, m.f s.1)) := by
  refine ⟨m.x Reg.t0, ?_⟩
  rw [saveFloats_row, run_fstores m hfs, Machine.getX_of_ne m (show Reg.sp ≠ 0 by decide), scratched,
    Function.update_eq_self]

/-- A value put into `t0` and stored from there. -/
theorem saveScratch {m : Machine} {instr : Instr} {v : Word} (i : Nat)
    (h : exec m instr = some (m.setX Reg.t0 v)) :
    Saves m [instr, .sd Reg.t0 (slotOffset i) Reg.sp] [(i, v)] := by
  refine ⟨v, ?_⟩
  rw [run_cons, h, Option.bind_some, Machine.setX_of_ne m (show Reg.t0 ≠ 0 by decide)]
  show exec (scratched m v m.memory) (.sd Reg.t0 (slotOffset i) Reg.sp) = _
  rw [exec, Machine.getX_of_ne _ (show Reg.sp ≠ 0 by decide), scratched_sp,
    Machine.getX_of_ne _ (show Reg.t0 ≠ 0 by decide)]
  simp only [scratched, Function.update_self]
  rfl

theorem saveStackPointer_saves (m : Machine) :
    Saves m saveStackPointer [(2, m.x Reg.sp + trapFrameSize)] :=
  saveScratch 2 rfl

/-- The CSRs as they go to the frame. -/
def csrSlots (m : Machine) : List (Nat × Word) :=
  [(64, m.sepc), (65, m.scause), (66, m.stval), (67, m.sstatus), (68, m.fcsr.setWidth 64)]

theorem saveCsrs_saves {m : Machine} (hfs : fs m.sstatus = 3) : Saves m saveCsrs (csrSlots m) := by
  have hsepc : Saves m [.csrr Reg.t0 .sepc, .sd Reg.t0 (64 * 8) Reg.sp] [(64, m.sepc)] :=
    saveScratch 64 rfl
  exact (((hsepc.append fun v memory => saveScratch 65 rfl).append
    fun v memory => saveScratch 66 rfl).append fun v memory => saveScratch 67 rfl).append
    fun v memory => saveScratch 68 (congrArg (Option.map _) (Machine.readCsr_fcsr hfs))

/-- What `save_registers` writes, with the frame at the stack pointer. -/
def savedSlots (m : Machine) : List (Nat × Word) :=
  (integerRow.map fun s => (s.2, m.getX s.1)) ++ [(2, m.x Reg.sp + trapFrameSize)] ++
    (floatRow.map fun s => (s.2, m.f s.1)) ++ csrSlots m

theorem save_saves {m : Machine} (hfs : fs m.sstatus = 3) :
    Saves m (saveIntegers ++ saveStackPointer ++ saveFloats ++ saveCsrs) (savedSlots m) := by
  have hpointer : ∀ v memory, Saves (scratched m v memory) saveStackPointer
      [(2, m.x Reg.sp + trapFrameSize)] := by
    intro v memory
    have h := saveStackPointer_saves (scratched m v memory)
    rw [scratched_sp] at h
    exact h
  exact (((saveIntegers_saves m).append hpointer).append
    fun v memory => saveFloats_saves (m := scratched m v memory) hfs).append
    fun v memory => saveCsrs_saves (m := scratched m v memory) hfs

/-! ### What the frame holds -/

theorem integerSlots_eq (m : Machine) : (integerRow.map fun s => (s.2, m.getX s.1)) =
    (List.finRange 32).tail.map fun r => (r.val, m.getX r) := by
  rw [integerRow, List.map_map]
  rfl

theorem floatSlots_eq (m : Machine) : (floatRow.map fun s => (s.2, m.f s.1)) =
    (List.finRange 32).map fun r => (32 + r.val, m.f r) := by
  rw [floatRow, List.map_map]
  rfl

theorem savedSlots_lt (m : Machine) : ∀ w ∈ savedSlots m, w.1 < 69 := by
  intro w hw
  rw [savedSlots, integerSlots_eq, floatSlots_eq] at hw
  rcases List.mem_append.mp hw with hw | hw
  · rcases List.mem_append.mp hw with hw | hw
    · rcases List.mem_append.mp hw with hw | hw
      · obtain ⟨r, _, rfl⟩ := List.mem_map.mp hw
        have := r.isLt
        simp only
        omega
      · obtain rfl := List.mem_singleton.mp hw
        simp only
        omega
    · obtain ⟨r, _, rfl⟩ := List.mem_map.mp hw
      have := r.isLt
      simp only
      omega
  · simp only [csrSlots, List.mem_cons, List.not_mem_nil, or_false] at hw
    rcases hw with rfl | rfl | rfl | rfl | rfl <;> simp only <;> omega

theorem floatSlots_none (m : Machine) {i : Nat} (hi : i < 32 ∨ 64 ≤ i) :
    lastWrite (floatRow.map fun s => (s.2, m.f s.1)) i = none := by
  rw [floatSlots_eq]
  apply lastWrite_eq_none
  intro w hw
  obtain ⟨r, _, rfl⟩ := List.mem_map.mp hw
  have := r.isLt
  simp only
  omega

theorem csrSlots_none (m : Machine) {i : Nat} (hi : i < 64) : lastWrite (csrSlots m) i = none := by
  apply lastWrite_eq_none
  intro w hw
  simp only [csrSlots, List.mem_cons, List.not_mem_nil, or_false] at hw
  rcases hw with rfl | rfl | rfl | rfl | rfl <;> simp only <;> omega

theorem slotOfReg_injective : Function.Injective fun r : Reg => r.val := fun _ _ h => Fin.ext h

/-- The slot of `sp` is written twice. -/
theorem savedSlots_integer (m : Machine) {r : Reg} (hr : r ≠ 0) : lastWrite (savedSlots m) r.val =
    some (if r = Reg.sp then m.x Reg.sp + trapFrameSize else m.x r) := by
  have hlt := r.isLt
  have hmem : r ∈ (List.finRange 32).tail := by
    revert r
    decide
  rw [savedSlots, lastWrite_append, csrSlots_none m (by omega), Option.none_or, lastWrite_append,
    floatSlots_none m (.inl hlt), Option.none_or, lastWrite_concat, integerSlots_eq,
    lastWrite_map slotOfReg_injective, if_pos hmem, Machine.getX_of_ne m hr]
  by_cases hsp : r = Reg.sp
  · subst hsp
    rw [if_pos rfl, if_pos (show 2 = Reg.sp.val from rfl)]
  · rw [if_neg hsp, if_neg fun he => hsp (Fin.ext he.symm)]

theorem savedSlots_float (m : Machine) (r : Reg) :
    lastWrite (savedSlots m) (32 + r.val) = some (m.f r) := by
  have hinjective : Function.Injective fun r : Reg => 32 + r.val := fun r r' h =>
    Fin.ext (Nat.add_left_cancel h)
  have hlt := r.isLt
  rw [savedSlots, lastWrite_append, csrSlots_none m (by omega), Option.none_or, lastWrite_append,
    floatSlots_eq, lastWrite_map hinjective, if_pos (List.mem_finRange r)]
  rfl

theorem savedSlots_csr (m : Machine) {w : Nat × Word} (hw : w ∈ csrSlots m) :
    lastWrite (savedSlots m) w.1 = some w.2 := by
  rw [savedSlots, lastWrite_append]
  simp only [csrSlots, List.mem_cons, List.not_mem_nil, or_false] at hw
  rcases hw with rfl | rfl | rfl | rfl | rfl <;> rfl

/-- A frame that holds the registers and CSRs of a machine. -/
structure Holds (frame : TrapFrame) (m : Machine) : Prop where
  x : ∀ r, r ≠ 0 → frame.x r = m.x r
  f : frame.f = m.f
  sepc : frame.sepc = m.sepc
  scause : frame.scause = m.scause
  stval : frame.stval = m.stval
  sstatus : frame.sstatus = m.sstatus
  fcsr : frame.fcsr = m.fcsr.setWidth 64

/-! ### Entry -/

/-- After the first instruction. -/
def lowered (m : Machine) : Machine :=
  { m with x := Function.update m.x Reg.sp (framePointer m) }

/-- What the assembly has done at the call. -/
structure Entered (m m₁ : Machine) : Prop where
  sp : m₁.x Reg.sp = framePointer m
  a0 : m₁.x Reg.a0 = framePointer m
  branch : m₁.getX Reg.t0 = m₁.getX Reg.t1 ↔ m.scause = 9
  sstatus : m₁.sstatus = m.sstatus
  frame : Holds (frameAt m₁.memory (framePointer m)) m
  others : ∀ a ∉ frameBytes (framePointer m), m₁.memory a = m.memory a

theorem framePointer_add (m : Machine) : framePointer m + trapFrameSize = m.x Reg.sp := by
  unfold framePointer
  bv_omega

@[simp] theorem lowered_sp (m : Machine) : (lowered m).x Reg.sp = framePointer m := by
  simp [lowered]

theorem lowered_of_ne (m : Machine) {r : Reg} (h : r ≠ Reg.sp) : (lowered m).x r = m.x r := by
  simp [lowered, h]

theorem savedFrame_holds (m : Machine) :
    Holds (frameAt (m.memory.writeSlots (framePointer m) (savedSlots (lowered m))) (framePointer m)) m := by
  have hbound : ∀ w ∈ savedSlots (lowered m), w.1 < Memory.slotBound := fun w hw =>
    Nat.lt_trans (savedSlots_lt _ w hw) (by decide)
  have hslot : ∀ {i : Nat} {v : Word}, i < 69 → lastWrite (savedSlots (lowered m)) i = some v →
      (m.memory.writeSlots (framePointer m) (savedSlots (lowered m))).slot (framePointer m) i = v := by
    intro i v hi hv
    rw [Memory.slot_writeSlots _ _ hbound (Nat.lt_trans hi (by decide)), hv]
    rfl
  have hcsr : ∀ w ∈ csrSlots (lowered m),
      (m.memory.writeSlots (framePointer m) (savedSlots (lowered m))).slot (framePointer m) w.1 = w.2 :=
    fun w hw => hslot (savedSlots_lt _ w (List.mem_append_right _ hw)) (savedSlots_csr _ hw)
  refine ⟨fun r hr => ?_, ?_, hcsr (64, m.sepc) ?_, hcsr (65, m.scause) ?_, hcsr (66, m.stval) ?_,
    hcsr (67, m.sstatus) ?_, hcsr (68, m.fcsr.setWidth 64) ?_⟩
  · refine hslot (by omega) ((savedSlots_integer _ hr).trans (congrArg some ?_))
    by_cases hsp : r = Reg.sp
    · rw [if_pos hsp, hsp, lowered_sp, framePointer_add]
    · rw [if_neg hsp, lowered_of_ne m hsp]
  · funext r
    exact hslot (by omega) (savedSlots_float _ r)
  all_goals simp [csrSlots, lowered]

/-- The machine at the call, from that after `save_registers`. -/
def prepared (m : Machine) : Machine :=
  { m with
    x := Function.update (Function.update (Function.update m.x Reg.a0 (m.x Reg.sp)) Reg.t0 m.scause)
      Reg.t1 causeSupervisorEcall }

theorem prepareCall_run (m : Machine) : run exec m prepareCall = some (prepared m) := by
  have ha0 := m.setX_of_ne (show Reg.a0 ≠ 0 by decide) (m.x Reg.sp)
  rw [prepareCall, run_cons, exec, Machine.getX_of_ne m (show Reg.sp ≠ 0 by decide), ha0,
    Option.bind_some, run_cons, exec, Machine.readCsr, Option.map_some,
    Machine.setX_of_ne _ (show Reg.t0 ≠ 0 by decide), Option.bind_some, run_cons, exec,
    Machine.setX_of_ne _ (show Reg.t1 ≠ 0 by decide)]
  rfl

@[simp] theorem prepared_sp (m : Machine) : (prepared m).x Reg.sp = m.x Reg.sp := by
  simp +decide [prepared, Function.update_of_ne]

@[simp] theorem prepared_a0 (m : Machine) : (prepared m).x Reg.a0 = m.x Reg.sp := by
  simp +decide [prepared, Function.update_of_ne]

theorem prepared_t0 (m : Machine) : (prepared m).getX Reg.t0 = m.scause := by
  rw [Machine.getX_of_ne _ (show Reg.t0 ≠ 0 by decide)]
  simp +decide [prepared, Function.update_of_ne]

theorem prepared_t1 (m : Machine) : (prepared m).getX Reg.t1 = causeSupervisorEcall := by
  rw [Machine.getX_of_ne _ (show Reg.t1 ≠ 0 by decide)]
  simp [prepared]

/-- **Entry** saves the machine in the frame. -/
theorem entry_run {m : Machine} (hfs : fs m.sstatus = 3) :
    ∃ m₁, run exec m entryCode = some m₁ ∧ Entered m m₁ := by
  have hlower : run exec m trapHandler = some (lowered m) := by
    show some (m.setX Reg.sp (m.getX Reg.sp + -trapFrameSize)) = _
    rw [Machine.setX_of_ne m (by decide), Machine.getX_of_ne m (by decide)]
    rfl
  obtain ⟨v, hsave⟩ := save_saves (m := lowered m) hfs
  rw [lowered_sp] at hsave
  have hrun : run exec m entryCode = some (prepared (scratched (lowered m) v
      (m.memory.writeSlots (framePointer m) (savedSlots (lowered m))))) := by
    rw [entryCode, run_append, run_append, hlower, Option.bind_some, hsave, Option.bind_some,
      prepareCall_run]
    rfl
  refine ⟨_, hrun, ?_, ?_, ?_, rfl, savedFrame_holds m, ?_⟩
  · simp
  · simp
  · rw [prepared_t0, prepared_t1]
    rfl
  · intro a ha
    exact Memory.writeSlots_other m.memory (framePointer m) (savedSlots_lt (lowered m)) (by decide) ha

/-! ### Exit -/

/-- A CSR loaded from its slot. -/
theorem restoreScratch (m : Machine) (i : Nat) (csr : Csr) :
    run exec m [.ld Reg.t0 (slotOffset i) Reg.sp, .csrw csr Reg.t0] =
      (scratched m (m.memory.slot (m.x Reg.sp) i) m.memory).writeCsr
        (m.memory.slot (m.x Reg.sp) i) csr := by
  have hload : exec m (.ld Reg.t0 (slotOffset i) Reg.sp) =
      some (scratched m (m.memory.slot (m.x Reg.sp) i) m.memory) := by
    rw [exec, Machine.setX_of_ne m (show Reg.t0 ≠ 0 by decide),
      Machine.getX_of_ne m (show Reg.sp ≠ 0 by decide)]
    rfl
  rw [run_cons, hload, Option.bind_some, run_singleton, exec,
    Machine.getX_of_ne _ (show Reg.t0 ≠ 0 by decide)]
  simp only [scratched, Function.update_self]

/-- The machine after `restoreCsrs`. -/
def resumed (m : Machine) (frame : TrapFrame) : Machine :=
  { scratched m frame.fcsr m.memory with
    sepc := frame.sepc, sstatus := frame.sstatus, fcsr := frame.fcsr.setWidth 8 }

theorem restoreCsrs_run {m : Machine} (hfs : fs (frameAt m.memory (m.x Reg.sp)).sstatus = 3) :
    run exec m restoreCsrs = some (resumed m (frameAt m.memory (m.x Reg.sp))) := by
  show run exec m ([.ld Reg.t0 (slotOffset 64) Reg.sp, .csrw .sepc Reg.t0] ++
    ([.ld Reg.t0 (slotOffset 67) Reg.sp, .csrw .sstatus Reg.t0] ++
      [.ld Reg.t0 (slotOffset 68) Reg.sp, .csrw .fcsr Reg.t0])) = _
  rw [run_append, restoreScratch, Machine.writeCsr, Option.bind_some, run_append, restoreScratch,
    Machine.writeCsr, Option.bind_some, restoreScratch]
  have hsp : ∀ v, Function.update m.x Reg.t0 v Reg.sp = m.x Reg.sp := fun v =>
    Function.update_of_ne (by decide) _ _
  simp only [scratched, hsp, Function.update_idem]
  refine (Machine.writeCsr_fcsr ?_ _).trans rfl
  exact hfs

theorem floatRow_written (x : Reg → Word) (m : Machine) :
    written x (found m Reg.sp floatRow) = (frameAt m.memory (m.getX Reg.sp)).f := by
  funext r
  have hfound : found m Reg.sp floatRow =
      (List.finRange 32).map fun r => (r, (frameAt m.memory (m.getX Reg.sp)).f r) := by
    rw [found, floatRow, List.map_map]
    rfl
  rw [hfound, written_of_mem _ _ (List.mem_finRange r)]

theorem restoreRow_written (x : Reg → Word) (m : Machine) (r : Reg) :
    written x (found m Reg.sp restoreRow) r =
      if r ≠ 0 ∧ r ≠ Reg.sp then (frameAt m.memory (m.getX Reg.sp)).x r else x r := by
  have hfound : found m Reg.sp restoreRow =
      ((List.finRange 32).filter fun r => r ≠ 0 ∧ r ≠ Reg.sp).map fun r =>
        (r, (frameAt m.memory (m.getX Reg.sp)).x r) := by
    rw [found, restoreRow, List.map_map]
    rfl
  rw [hfound]
  have hmem : r ∈ ((List.finRange 32).filter fun r => r ≠ 0 ∧ r ≠ Reg.sp) ↔ r ≠ 0 ∧ r ≠ Reg.sp := by
    simp
  by_cases h : r ≠ 0 ∧ r ≠ Reg.sp
  · rw [if_pos h, written_of_mem _ _ (hmem.mpr h)]
  · rw [if_neg h, written_of_not_mem _ _ fun hin => h (hmem.mp hin)]

/-- A machine loaded from a frame. -/
structure Loaded (frame : TrapFrame) (memory : Memory) (m : Machine) : Prop where
  x : ∀ r, r ≠ 0 → m.x r = frame.x r
  f : m.f = frame.f
  fcsr : m.fcsr = frame.fcsr.setWidth 8
  sepc : m.sepc = frame.sepc
  sstatus : m.sstatus = frame.sstatus
  memory : m.memory = memory

theorem resumed_sp (m : Machine) (frame : TrapFrame) : (resumed m frame).x Reg.sp = m.x Reg.sp :=
  scratched_sp m frame.fcsr m.memory

/-- The machine before the stack pointer is restored. -/
def reloaded (m : Machine) (frame : TrapFrame) : Machine :=
  { resumed m frame with
    x := fun r => if r ≠ 0 ∧ r ≠ Reg.sp then frame.x r else (resumed m frame).x r
    f := frame.f }

theorem reloaded_run {m : Machine} (hfs : fs (frameAt m.memory (m.x Reg.sp)).sstatus = 3) :
    run exec m (restoreCsrs ++ restoreFloats ++ restoreIntegers) =
      some (reloaded m (frameAt m.memory (m.x Reg.sp))) := by
  have hcsrs := restoreCsrs_run hfs
  generalize hframe : frameAt m.memory (m.x Reg.sp) = frame at hfs hcsrs ⊢
  have hat : ∀ m' : Machine, m'.memory = m.memory → m'.x Reg.sp = m.x Reg.sp →
      frameAt m'.memory (m'.getX Reg.sp) = frame := by
    intro m' hmemory hsp
    rw [hmemory, Machine.getX_of_ne m' (show Reg.sp ≠ 0 by decide), hsp, hframe]
  have hfloats : run exec (resumed m frame) restoreFloats =
      some { resumed m frame with f := frame.f } := by
    rw [restoreFloats_row, run_floads (resumed m frame) hfs, floatRow_written,
      hat (resumed m frame) rfl (resumed_sp m frame)]
  have hintegers : run exec { resumed m frame with f := frame.f } restoreIntegers =
      some (reloaded m frame) := by
    have hrow : ∀ s ∈ restoreRow, s.1 ≠ Reg.sp ∧ s.1 ≠ 0 := by decide
    rw [restoreIntegers_row, run_loads (by decide) hrow]
    refine congrArg some ?_
    unfold reloaded
    congr 1
    funext r
    have hframe' := hat { resumed m frame with f := frame.f } rfl (resumed_sp m frame)
    rw [restoreRow_written, hframe']
  rw [run_append, run_append, hcsrs, Option.bind_some, hfloats, Option.bind_some, hintegers]

/-- **Exit** loads the frame at the stack pointer. -/
theorem exit_run {m : Machine} (hfs : fs (frameAt m.memory (m.x Reg.sp)).sstatus = 3) :
    ∃ m', run exec m exitCode = some m' ∧ Loaded (frameAt m.memory (m.x Reg.sp)) m.memory m' := by
  have hrun := reloaded_run hfs
  have hslot : m.memory.slot (m.x Reg.sp) 2 = (frameAt m.memory (m.x Reg.sp)).x Reg.sp := rfl
  generalize frameAt m.memory (m.x Reg.sp) = frame at hrun hslot ⊢
  have hsp : (reloaded m frame).getX Reg.sp = m.x Reg.sp := by
    rw [Machine.getX_of_ne _ (by decide)]
    show (if Reg.sp ≠ 0 ∧ Reg.sp ≠ Reg.sp then frame.x Reg.sp else (resumed m frame).x Reg.sp) = _
    rw [if_neg fun h => h.2 rfl, resumed_sp]
  have hlast : run exec (reloaded m frame) restoreStackPointer =
      some ((reloaded m frame).setX Reg.sp (frame.x Reg.sp)) := by
    rw [restoreStackPointer, run_singleton, exec, hsp, ← hslot]
    rfl
  have hexit : run exec m exitCode = some ((reloaded m frame).setX Reg.sp (frame.x Reg.sp)) := by
    rw [exitCode, run_append, hrun, Option.bind_some, hlast]
  rw [Machine.setX_of_ne _ (by decide)] at hexit
  refine ⟨_, hexit, fun r hr => ?_, rfl, rfl, rfl, rfl, rfl⟩
  show Function.update (reloaded m frame).x Reg.sp (frame.x Reg.sp) r = frame.x r
  by_cases hr' : r = Reg.sp
  · rw [hr', Function.update_self]
  · rw [Function.update_of_ne hr']
    exact if_pos ⟨hr, hr'⟩

end Testos.Exception
