import Testos.Exception.TrapPath
import Testos.Entry.Syscalls

/-! The trap path is transparent, however deep traps nest.

`handled_restored` follows one trap through the C function it calls, whose frame no
trap taken meanwhile disturbs. That C code may count on: `nested_transparent` is the
induction on the depth, and `trap_transparent` puts the two together. -/
namespace Testos.Exception
open Foundation Riscv

section
variable {E H : Type}

/-! ### What the C functions do to the frame -/

/-- Where a handler has the trap resume. -/
def ExceptionHandler.resume : ExceptionHandler E → Word → Word
  | .ebreak, sepc => sepc + 4
  | _, sepc => sepc

theorem ExceptionHandler.resume_of_ne {handler : ExceptionHandler E} (h : handler ≠ .ebreak)
    (sepc : Word) : handler.resume sepc = sepc := by
  cases handler with
  | ebreak => exact absurd rfl h
  | defaultException => rfl
  | defaultInterrupt => rfl
  | registered e => rfl

/-- A handler that returns leaves the frame as it was but for where to resume. -/
theorem Plain.called {kernel : Kernel E H} {code : Code E H} (h : Plain kernel code)
    (handler : ExceptionHandler E) {frame frame' : TrapFrame} {kernel' : Kernel E H}
    (hcall : (handler.call code frame kernel').result = some frame') :
    frame' = { frame with sepc := handler.resume frame.sepc } := by
  cases handler with
  | defaultException => cases hcall
  | defaultInterrupt =>
    exact Option.some.inj (hcall.symm.trans (defaultInterruptHandler_result frame kernel'))
  | ebreak => exact (Option.some.inj hcall).symm
  | registered e => exact h.keeps e frame kernel' frame' hcall

theorem Plain.exception {kernel : Kernel E H} {code : Code E H} (h : Plain kernel code)
    {frame frame' : TrapFrame} {trap : Trap E H} (htrap : handleException code frame kernel = some trap)
    (hframe : trap.frame = some frame') :
    ∃ handler, exceptionTarget kernel frame.scause = some handler ∧
      frame' = { frame with sepc := handler.resume frame.sepc } := by
  rw [handleException_eq] at htrap
  obtain ⟨handler, htarget, rfl⟩ := Option.map_eq_some_iff.mp htrap
  exact ⟨handler, htarget, h.called handler hframe⟩

theorem handleSyscall_frame {kernel : Kernel E H} {code : Code E H} {frame frame' : TrapFrame}
    {trap : Trap E H} (htrap : handleSyscall code frame kernel = some trap)
    (hframe : trap.frame = some frame') :
    ∃ retVal, ((syscallTarget kernel (frame.x Reg.a7)).call code frame.args kernel).result = some retVal ∧
      frame' = frame.answer retVal := by
  rw [handleSyscall_eq] at htrap
  obtain rfl := Option.some.inj htrap
  obtain ⟨retVal, hresult, rfl⟩ := Option.map_eq_some_iff.mp hframe
  exact ⟨retVal, hresult, rfl⟩

/-- Registrations that put `ebreak_handler` behind no interrupt leave a kernel in which
only what registered handlers write could make a difference. -/
theorem Shown.plain {history : List (Registration E H)} {kernel : Kernel E H} {code : Code E H}
    (h : Shown history kernel)
    (hkeeps : ∀ e frame kernel frame', (code.exception e frame kernel).result = some frame' →
      frame' = frame)
    (hebreak : ∀ cause, .interrupt cause .ebreak ∉ history) : Plain kernel code := by
  refine ⟨hkeeps, fun i hread => ?_⟩
  have hi : i.toNat < 16 := by
    by_contra hout
    rw [Table.read, Vector.getElem?_eq_none (by omega)] at hread
    cases hread
  have hlast := (h.interrupts i hi).symm.trans hread
  cases hwrite : lastWrite (interruptWrites history) i with
  | none =>
    rw [hwrite] at hlast
    cases hlast
  | some handler =>
    rw [hwrite] at hlast
    obtain rfl : handler = .ebreak := Option.some.inj (Option.some.inj hlast)
    obtain ⟨r, hr, hinterrupt⟩ := List.mem_filterMap.mp (mem_of_lastWrite hwrite)
    cases r with
    | interrupt cause handler =>
      cases hinterrupt
      exact hebreak i hr
    | exception cause handler => cases hinterrupt
    | syscall syscallNum handler => cases hinterrupt

/-! ### One trap -/

/-- The arguments a syscall is made with. -/
def syscallArgs (m : Machine) : Args :=
  ⟨m.x Reg.a0, m.x Reg.a1, m.x Reg.a2, m.x Reg.a3, m.x Reg.a4, m.x Reg.a5⟩

/-- The machine at `sret` against the machine at the trap. -/
structure Restored (kernel : Kernel E H) (code : Code E H) (m m' : Machine) : Prop where
  x : ∀ r, r ≠ 0 → (m.scause = 9 → r ≠ Reg.a0) → m'.x r = m.x r
  f : m'.f = m.f
  fcsr : m'.fcsr = m.fcsr
  sstatus : m'.sstatus = m.sstatus
  syscall : m.scause = 9 → m'.sepc = m.sepc + 4 ∧
    ((syscallTarget kernel (m.x Reg.a7)).call code (syscallArgs m) kernel).result = some (m'.x Reg.a0)
  ebreak : m.scause = 3 → kernel.exceptionHandlers.read 3 = some (some .ebreak) → m'.sepc = m.sepc + 4
  interrupt : m.scause.msb = true → m'.sepc = m.sepc
  others : m.scause ≠ 9 → exceptionTarget kernel m.scause ≠ some .ebreak → m'.sepc = m.sepc

variable {kernel : Kernel E H} {code : Code E H} {m m' : Machine}

theorem setWidth_fcsr (fcsr : Byte) : (fcsr.setWidth 64).setWidth 8 = fcsr :=
  BitVec.setWidth_setWidth_of_le fcsr (by decide)

theorem Holds.args {frame : TrapFrame} (h : Holds frame m) : frame.args = syscallArgs m := by
  unfold TrapFrame.args syscallArgs
  rw [h.x _ (by decide), h.x _ (by decide), h.x _ (by decide), h.x _ (by decide), h.x _ (by decide),
    h.x _ (by decide)]

/-- A trap that is no `ecall`. -/
theorem restored_of_exception (hplain : Plain kernel code) {frame : TrapFrame} (hholds : Holds frame m)
    (hcause : m.scause ≠ 9) {handler : ExceptionHandler E}
    (htarget : exceptionTarget kernel m.scause = some handler) {memory : Memory}
    (hloaded : Loaded { frame with sepc := handler.resume frame.sepc } memory m') :
    Restored kernel code m m' where
  x r hr _ := (hloaded.x r hr).trans (hholds.x r hr)
  f := hloaded.f.trans hholds.f
  fcsr := by rw [hloaded.fcsr, hholds.fcsr, setWidth_fcsr]
  sstatus := hloaded.sstatus.trans hholds.sstatus
  syscall h := absurd h hcause
  ebreak h hentry := by
    have hebreak : exceptionTarget kernel 3 = some .ebreak := by
      rw [exceptionTarget, if_neg (by decide), if_pos (by decide), hentry]
      rfl
    rw [h] at htarget
    obtain rfl := Option.some.inj (htarget.symm.trans hebreak)
    exact hloaded.sepc.trans (congrArg (· + 4) hholds.sepc)
  interrupt h := by
    have hne : handler ≠ .ebreak := by
      intro heq
      subst heq
      rw [exceptionTarget, if_pos ((and_interruptBit _).mpr h)] at htarget
      split at htarget
      · exact hplain.interrupts _ (Option.join_eq_some_iff.mp htarget)
      · cases htarget
    rw [hloaded.sepc, ← hholds.sepc]
    exact ExceptionHandler.resume_of_ne hne _
  others _ h := by
    have hne : handler ≠ .ebreak := by
      intro heq
      subst heq
      exact h htarget
    rw [hloaded.sepc, ← hholds.sepc]
    exact ExceptionHandler.resume_of_ne hne _

/-- An `ecall`. -/
theorem restored_of_syscall {frame : TrapFrame} (hholds : Holds frame m) (hcause : m.scause = 9)
    {retVal : Word}
    (hresult : ((syscallTarget kernel (frame.x Reg.a7)).call code frame.args kernel).result = some retVal)
    {memory : Memory} (hloaded : Loaded (frame.answer retVal) memory m') : Restored kernel code m m' where
  x r hr hne := by
    rw [hloaded.x r hr, ← hholds.x r hr]
    exact Function.update_of_ne (hne hcause) _ _
  f := hloaded.f.trans hholds.f
  fcsr := by
    rw [hloaded.fcsr, ← setWidth_fcsr m.fcsr, ← hholds.fcsr]
    rfl
  sstatus := hloaded.sstatus.trans hholds.sstatus
  syscall _ := by
    have hret : m'.x Reg.a0 = retVal := (hloaded.x _ (by decide)).trans (answer_a0 frame retVal)
    rw [hholds.args, hholds.x _ (by decide)] at hresult
    rw [hloaded.sepc, ← hholds.sepc, hret]
    exact ⟨rfl, hresult⟩
  ebreak h := by
    rw [hcause] at h
    exact absurd h (by decide)
  interrupt h := by
    rw [hcause] at h
    exact absurd h (by decide)
  others h := absurd hcause h

/-- **One trap**, whatever further traps are taken while its C function runs. -/
theorem handled_restored {call : CCode E H} (hcall : Convention call) {live : Set Word} {traps : Traps}
    (htraps : Transparent traps) (hplain : Plain kernel code) (hready : Ready live m) {m₂ : Machine}
    (h : Handled call live traps kernel code m m₂) :
    ∃ m', run exec m₂ exitCode = some m' ∧ Restored kernel code m m' ∧
      ∀ a ∈ live, m'.memory a = m.memory a := by
  obtain ⟨m₁, hentry, hran⟩ := h
  obtain ⟨m₁', hentry', hentered⟩ := entry_run hready.fs
  obtain rfl := Option.some.inj (hentry'.symm.trans hentry)
  have hroom : ∀ a ∈ frameBytes (m₁'.x Reg.a0), a ∉ live := by
    rw [hentered.a0]
    exact hready.room
  have hreturned := hcall _ _ _ _ _ _ _ hroom htraps hran
  have hsp : m₂.x Reg.sp = framePointer m :=
    (hreturned.saved Reg.sp (by decide)).trans hentered.sp
  obtain ⟨trap, htrap, hframe⟩ := hreturned.frame
  rw [hentered.a0] at htrap hframe
  have hholds := hentered.frame
  -- The frame after the C function is the one it was given, but for what the C source writes.
  have hrestored : fs (frameAt m₂.memory (framePointer m)).sstatus = 3 ∧
      ∀ m₃ memory, Loaded (frameAt m₂.memory (framePointer m)) memory m₃ → Restored kernel code m m₃ := by
    by_cases hcause : m.scause = 9
    · rw [if_pos (hentered.branch.mpr hcause)] at htrap
      obtain ⟨retVal, hresult, hanswer⟩ := handleSyscall_frame htrap hframe
      rw [hanswer]
      refine ⟨?_, fun m₃ memory hloaded => restored_of_syscall hholds hcause hresult hloaded⟩
      exact (congrArg fs hholds.sstatus).trans hready.fs
    · rw [if_neg (fun hbranch => hcause (hentered.branch.mp hbranch))] at htrap
      obtain ⟨handler, htarget, hstepped⟩ := hplain.exception htrap hframe
      rw [hholds.scause] at htarget
      rw [hstepped]
      refine ⟨?_, fun m₃ memory hloaded => restored_of_exception hplain hholds hcause htarget hloaded⟩
      exact (congrArg fs hholds.sstatus).trans hready.fs
  rw [← hsp] at hrestored
  obtain ⟨m', hexit, hloaded⟩ := exit_run hrestored.1
  refine ⟨m', hexit, hrestored.2 m' _ hloaded, fun a ha => ?_⟩
  rw [hloaded.memory, hreturned.live a ha]
  exact hentered.others a fun hin => hready.room a hin ha

/-! ### Nesting -/

/-- **However deep they nest**, traps are transparent to what they stop. -/
theorem nested_transparent {call : CCode E H} (hcall : Convention call) (n : Nat) :
    Transparent (nested call n) := by
  induction n with
  | zero =>
    intro live cause m m' h
    exact h.elim
  | succ n ih =>
    intro live cause m m' h
    obtain ⟨tval, kernel, code, m₁, hready, hplain, ⟨m₂, hhandled, hexit⟩, rfl⟩ := h
    obtain ⟨m₁', hexit', hrestored, hlive⟩ := handled_restored hcall ih hplain hready hhandled
    obtain rfl := Option.some.inj (hexit'.symm.trans hexit)
    refine ⟨⟨hrestored.x, hrestored.f, hrestored.fcsr, fun i h5 h8 => ?_, fun h => ?_, fun h => ?_⟩, hlive⟩
    · show (leave m₁'.sstatus).getLsbD i = m.sstatus.getLsbD i
      rw [hrestored.sstatus]
      exact leave_enter m.sstatus h5 h8
    · exact (hrestored.syscall h).1
    · exact hrestored.interrupt h

/-- **Trap transparency.** The path reaches the C function, and from its return `sret`,
where the machine is the one that was stopped, but for the answer of a syscall and for
where it resumes: for any C code that follows its conventions, and traps within traps to
any depth. -/
theorem trap_transparent {call : CCode E H} (hcall : Convention call) (n : Nat) {live : Set Word}
    (hplain : Plain kernel code) (hready : Ready live m) :
    (∃ m₁, run exec m entryCode = some m₁) ∧
      ∀ m₂, Handled call live (nested call n) kernel code m m₂ →
        ∃ m', run exec m₂ exitCode = some m' ∧ Restored kernel code m m' := by
  refine ⟨(entry_run hready.fs).imp fun _ h => h.1, fun m₂ h => ?_⟩
  obtain ⟨m', hexit, hrestored, _⟩ :=
    handled_restored hcall (nested_transparent hcall n) hplain hready h
  exact ⟨m', hexit, hrestored⟩

end

/-! ### An interrupt within an interrupt -/

/-- C code that does not write the frame and is stopped at most once. -/
def idleCall : CCode Empty Entry.KernelSyscall := fun live traps fn kernel code m m' =>
  (m' = m ∨ ∃ cause, traps (live ∪ frameBytes (m.x Reg.a0)) cause m m') ∧
    ∃ trap, fn.trap code (frameAt m.memory (m.x Reg.a0)) kernel = some trap ∧
      trap.frame = some (frameAt m.memory (m.x Reg.a0))

theorem frameAt_congr {memory memory' : Memory} {p : Word} (h : ∀ a ∈ frameBytes p, memory' a = memory a) :
    frameAt memory' p = frameAt memory p := by
  have hslot : ∀ {i : Nat}, i < 69 → memory'.slot p i = memory.slot p i := fun hi =>
    Memory.slot_congr hi (by decide) h
  rw [frameAt, frameAt, TrapFrame.mk.injEq]
  exact ⟨funext fun r => hslot (by omega), funext fun r => hslot (by omega), hslot (by decide),
    hslot (by decide), hslot (by decide), hslot (by decide), hslot (by decide)⟩

theorem idleCall_convention : Convention idleCall := by
  intro live traps fn kernel code m m' _ htraps h
  obtain ⟨hstopped, trap, htrap, hframe⟩ := h
  have hkept : (∀ r ∈ calleeSaved, m'.x r = m.x r) ∧ m'.f = m.f ∧
      ∀ a ∈ live ∪ frameBytes (m.x Reg.a0), m'.memory a = m.memory a := by
    rcases hstopped with rfl | ⟨cause, hstop⟩
    · exact ⟨fun r _ => rfl, rfl, fun a _ => rfl⟩
    · obtain ⟨hresumed, hlive⟩ := htraps _ _ _ _ hstop
      have hsaved : ∀ r ∈ calleeSaved, r ≠ 0 ∧ r ≠ Reg.a0 := by decide
      exact ⟨fun r hr => hresumed.x r (hsaved r hr).1 fun _ => (hsaved r hr).2, hresumed.f, hlive⟩
  refine ⟨hkept.1, fun r _ => congrFun hkept.2.1 r, fun a ha => hkept.2.2 a (.inl ha), trap, htrap, ?_⟩
  rw [frameAt_congr fun a ha => hkept.2.2 a (.inr ha)]
  exact hframe

/-- `INTERRUPT_BIT | IRQ_S_TIMER`. -/
def timerInterrupt : Word := interruptBit ||| irqSTimer

/-- A kernel thread, just stopped by the timer. -/
def stopped : Machine where
  pc := 0x80200100
  x := Function.update (fun _ => 7) Reg.sp 0x80210000
  f := fun _ => 0x3ff0000000000000
  fcsr := 1
  sepc := 0x80200400
  scause := timerInterrupt
  stval := 0
  sstatus := 0x8000000200006120
  memory := fun _ => 0

section
variable {kernel : Kernel Empty Entry.KernelSyscall}

theorem timer_idle {history : List (Registration Empty Entry.KernelSyscall)} (h : Shown history kernel)
    (hnone : interruptWrites history = []) {frame : TrapFrame} (hcause : frame.scause = timerInterrupt) :
    ∃ trap, handleException Entry.kernelCode frame kernel = some trap ∧ trap.frame = some frame := by
  have htarget : exceptionTarget kernel timerInterrupt = some .defaultInterrupt := by
    have hentry := h.interrupts 5 (by decide)
    rw [hnone] at hentry
    have hread : (kernel.interruptHandlers.read (timerInterrupt &&& ~~~interruptBit)).join =
        some .defaultInterrupt := congrArg Option.join hentry
    rw [exceptionTarget, if_pos (by decide), if_pos (by decide), hread]
  refine ⟨_, by rw [handleException_eq, hcause, htarget, Option.map_some], ?_⟩
  show (defaultInterruptHandler frame _).result = some frame
  exact defaultInterruptHandler_result frame _

/-- A timer interrupt reaches C code that can be stopped once more. -/
theorem timer_reaches {history : List (Registration Empty Entry.KernelSyscall)} (h : Shown history kernel)
    (hnone : interruptWrites history = []) (traps : Traps) {live : Set Word} {m : Machine}
    (hready : Ready live m) (hcause : m.scause = timerInterrupt) :
    ∃ m₁, run exec m entryCode = some m₁ ∧ Entered m m₁ ∧ ∀ m₂, (m₂ = m₁ ∨ ∃ cause, traps (live ∪ frameBytes (framePointer m)) cause m₁ m₂) →
      Handled idleCall live traps kernel Entry.kernelCode m m₂ := by
  obtain ⟨m₁, hentry, hentered⟩ := entry_run hready.fs
  refine ⟨m₁, hentry, hentered, fun m₂ hstopped => ⟨m₁, hentry, ?_, ?_⟩⟩
  · rw [hentered.a0]
    exact hstopped
  · have hbranch : m₁.getX Reg.t0 ≠ m₁.getX Reg.t1 := by
      rw [ne_eq, hentered.branch, hcause]
      decide
    rw [if_neg hbranch, hentered.a0]
    exact timer_idle h hnone (hentered.frame.scause.trans hcause)

end

theorem stopped_ready : Ready ∅ stopped := ⟨by decide, fun _ _ h => h⟩

/-- The frame of a second trap is below that of the first. -/
theorem stopped_room {m₁ : Machine} (h : Entered stopped m₁) :
    Ready (∅ ∪ frameBytes (framePointer stopped)) (m₁.take timerInterrupt 0) := by
  have hpointer : framePointer stopped = 0x80210000 - 552 := by
    have hsp : stopped.x Reg.sp = 0x80210000 := by simp [stopped]
    rw [framePointer, hsp]
    rfl
  refine ⟨?_, fun a ha hin => ?_⟩
  · show fs (enter m₁.sstatus) = 3
    rw [h.sstatus]
    decide
  · have hbelow : framePointer (m₁.take timerInterrupt 0) = 0x80210000 - 1104 := by
      show m₁.x Reg.sp + -trapFrameSize = _
      rw [h.sp, hpointer]
      rfl
    rw [Set.empty_union, hpointer] at hin
    rw [hbelow] at ha
    change (a - (0x80210000 - 1104)).toNat < 552 at ha
    change (a - (0x80210000 - 552)).toNat < 552 at hin
    bv_omega

theorem trap_transparent_twice : ∃ kernel m₁ m₂ m',
    registered 0x80210000 Entry.emptyKernel Entry.kernelRegistrations = some kernel ∧
      run exec stopped entryCode = some m₁ ∧
      nested idleCall 1 (∅ ∪ frameBytes (framePointer stopped)) timerInterrupt m₁ m₂ ∧
      run exec m₂ exitCode = some m' ∧ Restored kernel Entry.kernelCode stopped m' := by
  obtain ⟨kernel, hkernel, hshown⟩ :=
    registered_shown 0x80210000 Entry.emptyKernel Entry.kernelRegistrations
  have hplain : Plain kernel Entry.kernelCode :=
    hshown.plain (fun e => e.elim) (by simp [Entry.kernelRegistrations])
  obtain ⟨m₁, hentry, hentered, hhandled⟩ :=
    timer_reaches hshown rfl (nested idleCall 1) stopped_ready rfl
  -- The second trap is not stopped itself.
  obtain ⟨m₂, _, _, hhandled'⟩ :=
    timer_reaches hshown rfl (nested idleCall 0) (stopped_room hentered) rfl
  obtain ⟨m₃, hexit, _⟩ := handled_restored idleCall_convention
    (nested_transparent idleCall_convention 0) hplain (stopped_room hentered) (hhandled' m₂ (.inl rfl))
  have hnested : nested idleCall 1 (∅ ∪ frameBytes (framePointer stopped)) timerInterrupt m₁ m₃.sret :=
    ⟨0, kernel, Entry.kernelCode, m₃, stopped_room hentered, hplain,
      ⟨m₂, hhandled' m₂ (.inl rfl), hexit⟩, rfl⟩
  obtain ⟨m', hexit', hrestored⟩ := (trap_transparent idleCall_convention 1 hplain stopped_ready).2
    m₃.sret (hhandled m₃.sret (.inr ⟨timerInterrupt, hnested⟩))
  exact ⟨kernel, m₁, m₃.sret, m', hkernel, hentry, hnested, hexit', hrestored⟩

end Testos.Exception
