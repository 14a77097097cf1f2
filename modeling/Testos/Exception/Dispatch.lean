import Testos.Exception.Handlers
import Testos.Foundation.Run

/-! Registration and dispatch of `exception.c`.

Three tables, each written behind its own check, and two entry points from the
assembly, which splits traps on the full `scause`. `dispatch_last_writer`: after any
registrations a trap is the run of exactly one handler, the one registered last for it
or its default, on its own frame or arguments, and no table is indexed out of range.

Reading or writing outside a table, and calling through a null entry, is a fault:
`none`. -/
namespace Testos.Exception
open Foundation Riscv

section
variable {E H : Type}

/-! ### Registration -/

/-- `register_exception_handler`. -/
def registerExceptionHandler (cause : Word) (handler : Option (ExceptionHandler E))
    (kernel : Kernel E H) : Option (Kernel E H) :=
  if cause < 16 then
    (kernel.exceptionHandlers.write cause handler).map fun exceptionHandlers =>
      { kernel with exceptionHandlers }
  else some kernel

/-- `register_interrupt_handler`. -/
def registerInterruptHandler (cause : Word) (handler : Option (ExceptionHandler E))
    (kernel : Kernel E H) : Option (Kernel E H) :=
  if cause < 16 then
    (kernel.interruptHandlers.write cause handler).map fun interruptHandlers =>
      { kernel with interruptHandlers }
  else some kernel

/-- `register_syscall_handler`. -/
def registerSyscallHandler (syscallNum : Word) (handler : Option (SyscallHandler H))
    (kernel : Kernel E H) : Option (Kernel E H) :=
  if syscallNum < 256 then
    (kernel.syscallHandlers.write syscallNum handler).map fun syscallHandlers =>
      { kernel with syscallHandlers }
  else some kernel

/-- `exception_init`, called with the stack at `sp`. -/
def exceptionInit (sp : Word) (kernel : Kernel E H) : Option (Kernel E H) :=
  let kernel : Kernel E H :=
    { kernel with
      exceptionHandlers := .replicate 16 (some .defaultException)
      interruptHandlers := .replicate 16 (some .defaultInterrupt)
      syscallHandlers := .replicate 256 (some .default) }
  (registerExceptionHandler causeBreakpoint (some .ebreak) kernel).map fun kernel =>
    { kernel with sscratch := sp }

/-! ### Dispatch -/

/-- What a trap did: its frame if it came back, the kernel it left and what was said. -/
structure Trap (E H : Type) where
  frame : Option TrapFrame
  kernel : Kernel E H
  output : List Event

/-- The call of an exception or interrupt handler. -/
def callException (code : Code E H) (frame : TrapFrame) (kernel : Kernel E H) (output : List Event)
    (handler : ExceptionHandler E) : Trap E H :=
  let ran := handler.call code frame kernel
  { frame := ran.result
    kernel := ran.kernel
    output := output ++ ran.output }

/-- `handle_exception`. -/
def handleException (code : Code E H) (frame : TrapFrame) (kernel : Kernel E H) :
    Option (Trap E H) :=
  let cause := frame.scause
  let kernel := { kernel with trapCount := kernel.trapCount + 1 }
  let output := [loggerDebug (.lit "trap count: %d\n") [.word kernel.trapCount]]
  if cause &&& interruptBit ≠ 0 then
    let interruptCause := cause &&& ~~~interruptBit
    if interruptCause < 16 then
      (kernel.interruptHandlers.read interruptCause).join.map (callException code frame kernel output)
    else some (callException code frame kernel output .defaultInterrupt)
  else if cause < 16 then
    (kernel.exceptionHandlers.read cause).join.map (callException code frame kernel output)
  else some (callException code frame kernel output .defaultException)

/-- The arguments in the frame. -/
def TrapFrame.args (frame : TrapFrame) : Args :=
  { arg0 := frame.x Reg.a0
    arg1 := frame.x Reg.a1
    arg2 := frame.x Reg.a2
    arg3 := frame.x Reg.a3
    arg4 := frame.x Reg.a4
    arg5 := frame.x Reg.a5 }

/-- The frame after a syscall that returned `retVal`. -/
def TrapFrame.answer (frame : TrapFrame) (retVal : Word) : TrapFrame :=
  { frame with x := Function.update frame.x Reg.a0 retVal, sepc := frame.sepc + 4 }

@[simp] theorem answer_a0 (frame : TrapFrame) (retVal : Word) : (frame.answer retVal).x Reg.a0 = retVal := by
  simp [TrapFrame.answer]

/-- The call of a syscall handler, and the answer in the frame. -/
def callSyscall (code : Code E H) (frame : TrapFrame) (kernel : Kernel E H)
    (handler : SyscallHandler H) : Trap E H :=
  let ran := handler.call code frame.args kernel
  { frame := ran.result.map frame.answer
    kernel := ran.kernel
    output := ran.output }

/-- `handle_syscall`. -/
def handleSyscall (code : Code E H) (frame : TrapFrame) (kernel : Kernel E H) :
    Option (Trap E H) :=
  let syscallNum := frame.x Reg.a7
  if syscallNum < 256 then
    (kernel.syscallHandlers.read syscallNum).map fun entry =>
      callSyscall code frame kernel (entry.getD .default)
  else some (callSyscall code frame kernel .default)

/-- `handle_trap`, the branch of the assembly. -/
def handleTrap (code : Code E H) (frame : TrapFrame) (kernel : Kernel E H) : Option (Trap E H) :=
  if frame.scause = causeSupervisorEcall then handleSyscall code frame kernel
  else handleException code frame kernel

/-! ### Which handler -/

/-- The handler `handle_exception` calls; none if the entry is null. -/
def exceptionTarget (kernel : Kernel E H) (cause : Word) : Option (ExceptionHandler E) :=
  if cause &&& interruptBit ≠ 0 then
    if cause &&& ~~~interruptBit < 16 then (kernel.interruptHandlers.read (cause &&& ~~~interruptBit)).join
    else some .defaultInterrupt
  else if cause < 16 then (kernel.exceptionHandlers.read cause).join
  else some .defaultException

/-- The handler `handle_syscall` calls. -/
def syscallTarget (kernel : Kernel E H) (syscallNum : Word) : SyscallHandler H :=
  if syscallNum < 256 then (kernel.syscallHandlers.read syscallNum).join.getD .default else .default

theorem handleException_eq (code : Code E H) (frame : TrapFrame) (kernel : Kernel E H) :
    handleException code frame kernel =
      (exceptionTarget kernel frame.scause).map
        (callException code frame { kernel with trapCount := kernel.trapCount + 1 }
          [loggerDebug (.lit "trap count: %d\n") [.word (kernel.trapCount + 1)]]) := by
  simp only [handleException, exceptionTarget]
  split
  · split <;> rfl
  · split <;> rfl

theorem handleSyscall_eq (code : Code E H) (frame : TrapFrame) (kernel : Kernel E H) :
    handleSyscall code frame kernel =
      some (callSyscall code frame kernel (syscallTarget kernel (frame.x Reg.a7))) := by
  unfold handleSyscall syscallTarget
  by_cases hlt : frame.x Reg.a7 < 256
  · have hin : (frame.x Reg.a7).toNat < 256 := hlt
    simp only [if_pos hlt, Table.read, Vector.getElem?_eq_getElem hin]
    rfl
  · simp only [if_neg hlt]

/-! ### Histories -/

/-- A registration of a handler that is not null. -/
inductive Registration (E H : Type) where
  | exception (cause : Word) (handler : ExceptionHandler E)
  | interrupt (cause : Word) (handler : ExceptionHandler E)
  | syscall (syscallNum : Word) (handler : SyscallHandler H)
deriving DecidableEq

def register (kernel : Kernel E H) : Registration E H → Option (Kernel E H)
  | .exception cause handler => registerExceptionHandler cause (some handler) kernel
  | .interrupt cause handler => registerInterruptHandler cause (some handler) kernel
  | .syscall syscallNum handler => registerSyscallHandler syscallNum (some handler) kernel

/-- The kernel after `exception_init` and the registrations. -/
def registered (sp : Word) (kernel : Kernel E H) (history : List (Registration E H)) :
    Option (Kernel E H) :=
  (exceptionInit sp kernel).bind fun kernel => run register kernel history

def exceptionWrites (history : List (Registration E H)) : List (Word × ExceptionHandler E) :=
  history.filterMap fun
    | .exception cause handler => some (cause, handler)
    | _ => none

def interruptWrites (history : List (Registration E H)) : List (Word × ExceptionHandler E) :=
  history.filterMap fun
    | .interrupt cause handler => some (cause, handler)
    | _ => none

def syscallWrites (history : List (Registration E H)) : List (Word × SyscallHandler H) :=
  history.filterMap fun
    | .syscall syscallNum handler => some (syscallNum, handler)
    | _ => none

/-! ### What dispatch is for

What a trap comes to when one handler serves it, and, by the last-writer maps of the
history, which handler that is. -/

/-- A trap served by an exception or interrupt handler: it is counted and announced, and
the handler's function runs on its frame. -/
def ExceptionHandler.trap (code : Code E H) (frame : TrapFrame) (kernel : Kernel E H)
    (handler : ExceptionHandler E) : Trap E H :=
  let counted := { kernel with trapCount := kernel.trapCount + 1 }
  let ran :=
    match handler with
    | .defaultException => defaultExceptionHandler frame counted
    | .defaultInterrupt => defaultInterruptHandler frame counted
    | .ebreak => ebreakHandler frame counted
    | .registered e => code.exception e frame counted
  { frame := ran.result
    kernel := ran.kernel
    output := loggerDebug (.lit "trap count: %d\n") [.word (kernel.trapCount + 1)] :: ran.output }

/-- A trap served by a syscall handler: its function gets `a0` to `a5` in order, and its
value is in `a0` behind the `ecall`. -/
def SyscallHandler.trap (code : Code E H) (frame : TrapFrame) (kernel : Kernel E H)
    (handler : SyscallHandler H) : Trap E H :=
  let args : Args :=
    ⟨frame.x Reg.a0, frame.x Reg.a1, frame.x Reg.a2, frame.x Reg.a3, frame.x Reg.a4, frame.x Reg.a5⟩
  let ran :=
    match handler with
    | .default => defaultSyscallHandler args kernel
    | .registered h => code.syscall h args kernel
  { frame := ran.result.map fun retVal =>
      { frame with x := Function.update frame.x Reg.a0 retVal, sepc := frame.sepc + 4 }
    kernel := ran.kernel
    output := ran.output }

/-- The last handler registered under a number below the bound, or the default. -/
def lastHandler {α : Type} (writes : List (Word × α)) (bound : Nat) (default : α) (number : Word) : α :=
  if number.toNat < bound then (lastWrite writes number).getD default else default

/-- The handler of an exception or interrupt. -/
def exceptionHandler (history : List (Registration E H)) (cause : Word) : ExceptionHandler E :=
  if cause.msb then
    lastHandler (interruptWrites history) 16 .defaultInterrupt (BitVec.ofNat 64 (cause.toNat - 2 ^ 63))
  else lastHandler ((3, .ebreak) :: exceptionWrites history) 16 .defaultException cause

/-- The handler of a syscall. -/
def syscallHandler (history : List (Registration E H)) (number : Word) : SyscallHandler H :=
  lastHandler (syscallWrites history) 256 .default number

/-- What a trap comes to, served by the handler it is for. -/
def expected (code : Code E H) (history : List (Registration E H)) (frame : TrapFrame)
    (kernel : Kernel E H) : Trap E H :=
  if frame.scause = 9 then (syscallHandler history (frame.x Reg.a7)).trap code frame kernel
  else (exceptionHandler history frame.scause).trap code frame kernel

/-- What a registration may not do: write another table, or any table with a number
out of range. -/
def Contained (kernel kernel' : Kernel E H) : Registration E H → Prop
  | .exception cause _ =>
    kernel'.interruptHandlers = kernel.interruptHandlers ∧
      kernel'.syscallHandlers = kernel.syscallHandlers ∧
      (16 ≤ cause.toNat → kernel'.exceptionHandlers = kernel.exceptionHandlers)
  | .interrupt cause _ =>
    kernel'.exceptionHandlers = kernel.exceptionHandlers ∧
      kernel'.syscallHandlers = kernel.syscallHandlers ∧
      (16 ≤ cause.toNat → kernel'.interruptHandlers = kernel.interruptHandlers)
  | .syscall syscallNum _ =>
    kernel'.exceptionHandlers = kernel.exceptionHandlers ∧
      kernel'.interruptHandlers = kernel.interruptHandlers ∧
      (256 ≤ syscallNum.toNat → kernel'.syscallHandlers = kernel.syscallHandlers)

/-! ### The tables show the history -/

theorem registerExceptionHandler_eq (cause : Word) (handler : Option (ExceptionHandler E))
    (kernel : Kernel E H) : registerExceptionHandler cause handler kernel =
      some { kernel with exceptionHandlers := kernel.exceptionHandlers.put cause handler } :=
  Table.write_checked (show (16 : Word).toNat = 16 from rfl) kernel.exceptionHandlers cause handler
    fun exceptionHandlers => ({ kernel with exceptionHandlers } : Kernel E H)

theorem registerInterruptHandler_eq (cause : Word) (handler : Option (ExceptionHandler E))
    (kernel : Kernel E H) : registerInterruptHandler cause handler kernel =
      some { kernel with interruptHandlers := kernel.interruptHandlers.put cause handler } :=
  Table.write_checked (show (16 : Word).toNat = 16 from rfl) kernel.interruptHandlers cause handler
    fun interruptHandlers => ({ kernel with interruptHandlers } : Kernel E H)

theorem registerSyscallHandler_eq (syscallNum : Word) (handler : Option (SyscallHandler H))
    (kernel : Kernel E H) : registerSyscallHandler syscallNum handler kernel =
      some { kernel with syscallHandlers := kernel.syscallHandlers.put syscallNum handler } :=
  Table.write_checked (show (256 : Word).toNat = 256 from rfl) kernel.syscallHandlers syscallNum handler
    fun syscallHandlers => ({ kernel with syscallHandlers } : Kernel E H)

/-- The tables show the last writers of the history. -/
structure Shown (history : List (Registration E H)) (kernel : Kernel E H) : Prop where
  exceptions : kernel.exceptionHandlers.Shows some .defaultException
    ((3, .ebreak) :: exceptionWrites history)
  interrupts : kernel.interruptHandlers.Shows some .defaultInterrupt (interruptWrites history)
  syscalls : kernel.syscallHandlers.Shows some .default (syscallWrites history)

theorem exceptionInit_shown (sp : Word) (kernel : Kernel E H) :
    ∃ kernel', exceptionInit sp kernel = some kernel' ∧ Shown [] kernel' := by
  refine ⟨_, by rw [exceptionInit, registerExceptionHandler_eq, Option.map_some], ?_, ?_, ?_⟩
  · exact Table.Shows.put (Table.shows_replicate some .defaultException) causeBreakpoint
      ExceptionHandler.ebreak
  · exact Table.shows_replicate some _
  · exact Table.shows_replicate some _

/-- **One registration** does not fault, is contained, and is shown. -/
theorem register_shown {history : List (Registration E H)} {kernel : Kernel E H}
    (h : Shown history kernel) (r : Registration E H) :
    ∃ kernel', register kernel r = some kernel' ∧ Contained kernel kernel' r ∧
      Shown (history ++ [r]) kernel' := by
  obtain ⟨hexceptions, hinterrupts, hsyscalls⟩ := h
  cases r with
  | exception cause handler =>
    refine ⟨_, registerExceptionHandler_eq _ _ _, ⟨rfl, rfl, fun hout => Table.put_outside _ hout _⟩, ?_⟩
    refine ⟨?_, ?_, ?_⟩
    · have := hexceptions.put cause handler
      simpa [exceptionWrites] using this
    · simpa [interruptWrites] using hinterrupts
    · simpa [syscallWrites] using hsyscalls
  | interrupt cause handler =>
    refine ⟨_, registerInterruptHandler_eq _ _ _, ⟨rfl, rfl, fun hout => Table.put_outside _ hout _⟩, ?_⟩
    refine ⟨?_, ?_, ?_⟩
    · simpa [exceptionWrites] using hexceptions
    · have := hinterrupts.put cause handler
      simpa [interruptWrites] using this
    · simpa [syscallWrites] using hsyscalls
  | syscall syscallNum handler =>
    refine ⟨_, registerSyscallHandler_eq _ _ _, ⟨rfl, rfl, fun hout => Table.put_outside _ hout _⟩, ?_⟩
    refine ⟨?_, ?_, ?_⟩
    · simpa [exceptionWrites] using hexceptions
    · simpa [interruptWrites] using hinterrupts
    · have := hsyscalls.put syscallNum handler
      simpa [syscallWrites] using this

theorem run_shown {before : List (Registration E H)} {kernel : Kernel E H} (h : Shown before kernel)
    (history : List (Registration E H)) :
    ∃ kernel', run register kernel history = some kernel' ∧ Shown (before ++ history) kernel' := by
  induction history generalizing before kernel with
  | nil => exact ⟨kernel, rfl, by rw [List.append_nil]; exact h⟩
  | cons r history ih =>
    obtain ⟨kernel₁, hr, _, h₁⟩ := register_shown h r
    obtain ⟨kernel', hrun, h'⟩ := ih h₁
    rw [List.append_assoc] at h'
    exact ⟨kernel', by rw [run_cons, hr]; exact hrun, h'⟩

theorem registered_shown (sp : Word) (kernel : Kernel E H) (history : List (Registration E H)) :
    ∃ kernel', registered sp kernel history = some kernel' ∧ Shown history kernel' := by
  obtain ⟨kernel₀, hinit, h₀⟩ := exceptionInit_shown sp kernel
  obtain ⟨kernel', hrun, h'⟩ := run_shown h₀ history
  exact ⟨kernel', by rw [registered, hinit]; exact hrun, h'⟩

/-! ### A trap -/

/-- A call from `handle_exception` is the handler's trap. -/
theorem callException_trap (code : Code E H) (frame : TrapFrame) (kernel : Kernel E H)
    (handler : ExceptionHandler E) :
    callException code frame { kernel with trapCount := kernel.trapCount + 1 }
        [loggerDebug (.lit "trap count: %d\n") [.word (kernel.trapCount + 1)]] handler =
      handler.trap code frame kernel := by
  cases handler <;> rfl

/-- And one from `handle_syscall`. -/
theorem callSyscall_trap (code : Code E H) (frame : TrapFrame) (kernel : Kernel E H)
    (handler : SyscallHandler H) : callSyscall code frame kernel handler = handler.trap code frame kernel := by
  cases handler <;> rfl

theorem handleException_trap (code : Code E H) (frame : TrapFrame) (kernel : Kernel E H) :
    handleException code frame kernel =
      (exceptionTarget kernel frame.scause).map (·.trap code frame kernel) := by
  rw [handleException_eq]
  exact congrArg (Option.map · _) (funext (callException_trap code frame kernel))

/-- The interrupt bit is the sign. -/
theorem and_interruptBit (cause : Word) : cause &&& interruptBit ≠ 0 ↔ cause.msb = true := by
  have hbit : interruptBit = BitVec.twoPow 64 63 := rfl
  rw [hbit, BitVec.and_twoPow, BitVec.msb_eq_getLsbD_last]
  cases cause.getLsbD 63 <;> decide

/-- Without it, the remaining bits. -/
theorem and_not_interruptBit {cause : Word} (h : cause.msb = true) :
    cause &&& ~~~interruptBit = BitVec.ofNat 64 (cause.toNat - 2 ^ 63) := by
  have hmask : ~~~interruptBit = BitVec.ofNat 64 (2 ^ 63 - 1) := rfl
  have hge : 2 ^ 63 ≤ cause.toNat := by
    rw [BitVec.msb_eq_decide] at h
    exact of_decide_eq_true h
  have hlt := cause.isLt
  apply BitVec.eq_of_toNat_eq
  rw [hmask, BitVec.toNat_and, BitVec.toNat_ofNat, BitVec.toNat_ofNat,
    Nat.mod_eq_of_lt (show 2 ^ 63 - 1 < 2 ^ 64 by decide), Nat.and_two_pow_sub_one_eq_mod]
  omega

/-- Looking a handler up behind the check finds the last one registered. -/
theorem read_checked {α : Type} {n : Nat} {t : Table (Option α) n} {default : α}
    {writes : List (Word × α)} (h : t.Shows some default writes) {bound : Word}
    (hbound : bound.toNat = n) (number : Word) :
    (if number < bound then (t.read number).join else some default) =
      some (lastHandler writes n default number) := by
  have hcheck : number < bound ↔ number.toNat < n := by rw [BitVec.lt_def, hbound]
  unfold lastHandler
  by_cases hlt : number.toNat < n
  · rw [if_pos (hcheck.mpr hlt), if_pos hlt, h number hlt]
    rfl
  · rw [if_neg (fun h' => hlt (hcheck.mp h')), if_neg hlt]

section
variable {history : List (Registration E H)} {kernel : Kernel E H}

theorem syscallTarget_shown (h : Shown history kernel) (number : Word) :
    syscallTarget kernel number = syscallHandler history number := by
  have hread := read_checked h.syscalls (show (256 : Word).toNat = 256 from rfl) number
  unfold syscallTarget syscallHandler
  by_cases hlt : number < 256
  · rw [if_pos hlt] at hread
    rw [if_pos hlt, hread, Option.getD_some]
  · rw [if_neg hlt] at hread
    rw [if_neg hlt]
    exact Option.some.inj hread

theorem handleSyscall_shown (h : Shown history kernel) (code : Code E H) (frame : TrapFrame) :
    handleSyscall code frame kernel =
      some (callSyscall code frame kernel (syscallHandler history (frame.x Reg.a7))) := by
  rw [handleSyscall_eq, syscallTarget_shown h]

theorem exceptionTarget_shown (h : Shown history kernel) (cause : Word) :
    exceptionTarget kernel cause = some (exceptionHandler history cause) := by
  unfold exceptionTarget exceptionHandler
  by_cases hbit : cause.msb = true
  · rw [if_pos ((and_interruptBit _).mpr hbit), if_pos hbit, ← and_not_interruptBit hbit]
    exact read_checked h.interrupts (show (16 : Word).toNat = 16 from rfl) _
  · rw [if_neg (fun hne => hbit ((and_interruptBit _).mp hne)), if_neg hbit]
    exact read_checked h.exceptions (show (16 : Word).toNat = 16 from rfl) _

/-- **A trap** is served by the handler the history says, whatever the handlers do. -/
theorem handleTrap_shown (h : Shown history kernel) (code : Code E H) (frame : TrapFrame) :
    handleTrap code frame kernel = some (expected code history frame kernel) := by
  unfold handleTrap expected
  by_cases hcause : frame.scause = 9
  · rw [if_pos (show frame.scause = causeSupervisorEcall from hcause), if_pos hcause,
      handleSyscall_shown h, callSyscall_trap]
  · rw [if_neg (show ¬ frame.scause = causeSupervisorEcall from hcause), if_neg hcause,
      handleException_trap, exceptionTarget_shown h, Option.map_some]

end

/-- **Dispatch is the last writer's.** After `exception_init` and any registrations,
none of which faults, every trap is the run of exactly one handler, the one expected,
and does not fault either; and one more registration is contained in its table. -/
theorem dispatch_last_writer (sp : Word) (kernel : Kernel E H) (history : List (Registration E H)) :
    ∃ kernel', registered sp kernel history = some kernel' ∧
      (∀ code frame, handleTrap code frame kernel' = some (expected code history frame kernel')) ∧
      ∀ r, ∃ kernel'', register kernel' r = some kernel'' ∧ Contained kernel' kernel'' r := by
  obtain ⟨kernel', hrun, hshown⟩ := registered_shown sp kernel history
  refine ⟨kernel', hrun, handleTrap_shown hshown, fun r => ?_⟩
  obtain ⟨kernel'', hr, hcontained, _⟩ := register_shown hshown r
  exact ⟨kernel'', hr, hcontained⟩

end

end Testos.Exception
