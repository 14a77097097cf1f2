import Mathlib.Logic.Function.Basic
import Testos.Foundation.Riscv
import Testos.Foundation.Table
import Testos.Timer

/-! The trap handlers of `exception.c`.

A handler works on the frame the trap path saved; the kernel's default handlers are
here, and the handlers other code registers are a parameter, `Code`: what each does
when it is called, and whether it returns. -/
namespace Testos.Exception
open Foundation Riscv

/-! ### Causes -/

/-- `INTERRUPT_BIT`. -/
def interruptBit : Word := 1 <<< 63

/-- `CAUSE_ILLEGAL_INSTRUCTION`. -/
def causeIllegalInstruction : Word := 2

/-- `CAUSE_BREAKPOINT`. -/
def causeBreakpoint : Word := 3

/-- `CAUSE_MISALIGNED_LOAD`. -/
def causeMisalignedLoad : Word := 4

/-- `CAUSE_LOAD_ACCESS`. -/
def causeLoadAccess : Word := 5

/-- `CAUSE_MISALIGNED_STORE`. -/
def causeMisalignedStore : Word := 6

/-- `CAUSE_STORE_ACCESS`. -/
def causeStoreAccess : Word := 7

/-- `CAUSE_SUPERVISOR_ECALL`. -/
def causeSupervisorEcall : Word := 9

/-- `IRQ_S_SOFT`. -/
def irqSSoft : Word := 1

/-- `IRQ_S_TIMER`. -/
def irqSTimer : Word := 5

/-- `IRQ_S_EXT`. -/
def irqSExt : Word := 9

/-! ### Frames and handlers -/

/-- `trap_frame_t`. -/
structure TrapFrame where
  x : Reg → Word
  f : Reg → Word
  sepc : Word
  scause : Word
  stval : Word
  sstatus : Word
  fcsr : Word

/-- A function an exception or interrupt table can point to. -/
inductive ExceptionHandler (E : Type) where
  | defaultException
  | defaultInterrupt
  | ebreak
  | registered (e : E)
deriving DecidableEq

/-- A function the syscall table can point to. -/
inductive SyscallHandler (H : Type) where
  | default
  | registered (h : H)
deriving DecidableEq

/-- The arguments of a syscall, `a0` to `a5`. -/
structure Args where
  arg0 : Word
  arg1 : Word
  arg2 : Word
  arg3 : Word
  arg4 : Word
  arg5 : Word
deriving DecidableEq

/-- What trap handlers see of the kernel. A null entry of a table is `none`; `time` is
the `time` register. -/
structure Kernel (E H : Type) where
  exceptionHandlers : Table (Option (ExceptionHandler E)) 16
  interruptHandlers : Table (Option (ExceptionHandler E)) 16
  syscallHandlers : Table (Option (SyscallHandler H)) 256
  trapCount : Word
  sscratch : Word
  time : Word
  timer : Timer.Globals
  memory : Memory

/-- What a call of a handler did: its result if it returned, the kernel it left and
what it said. -/
structure Ran (E H α : Type) where
  result : Option α
  kernel : Kernel E H
  output : List Event

/-- The registered handlers. -/
structure Code (E H : Type) where
  exception : E → TrapFrame → Kernel E H → Ran E H TrapFrame
  syscall : H → Args → Kernel E H → Ran E H Word

/-! ### The kernel's own handlers -/

/-- What `default_exception_handler` calls an exception. -/
def exceptionName (cause : Word) : String :=
  if cause = causeIllegalInstruction then "Illegal instruction\n"
  else if cause = causeBreakpoint then "Breakpoint\n"
  else if cause = causeMisalignedLoad then "Misaligned load\n"
  else if cause = causeMisalignedStore then "Misaligned store\n"
  else if cause = causeLoadAccess then "Load access fault\n"
  else if cause = causeStoreAccess then "Store access fault\n"
  else "Unknown exception\n"

/-- What `default_interrupt_handler` calls an interrupt. -/
def interruptName (cause : Word) : String :=
  if cause = irqSExt then "Supervisor external interrupt\n"
  else if cause = irqSSoft then "Supervisor software interrupt\n"
  else "Unknown interrupt\n"

section
variable {E H : Type}

/-- `default_exception_handler`, which does not return. -/
def defaultExceptionHandler (frame : TrapFrame) (kernel : Kernel E H) : Ran E H TrapFrame :=
  { result := none
    kernel
    output :=
      [loggerError (.lit "*** EXCEPTION ***\n") [],
       loggerError (.lit "Cause: 0x%llx\n") [.word frame.scause],
       loggerError (.lit "PC: 0x%llx\n") [.word frame.sepc],
       loggerError (.lit "Value: 0x%llx\n") [.word frame.stval],
       loggerError (.lit "Status: 0x%llx\n") [.word frame.sstatus],
       loggerError (.lit (exceptionName frame.scause)) [],
       loggerError (.lit "System halted.\n") []] }

/-- `default_interrupt_handler`. -/
def defaultInterruptHandler (frame : TrapFrame) (kernel : Kernel E H) : Ran E H TrapFrame :=
  let interruptCause := frame.scause &&& ~~~interruptBit
  if interruptCause = irqSTimer then
    let (timer, output) := Timer.timerHandler kernel.time kernel.timer
    { result := some frame, kernel := { kernel with timer }, output }
  else
    { result := some frame
      kernel
      output :=
        [loggerWarn (.lit "*** INTERRUPT: 0x%llx ***\n") [.word interruptCause],
         loggerWarn (.lit (interruptName interruptCause)) []] }

/-- It always returns, with the frame as it was. -/
theorem defaultInterruptHandler_result (frame : TrapFrame) (kernel : Kernel E H) :
    (defaultInterruptHandler frame kernel).result = some frame := by
  unfold defaultInterruptHandler
  by_cases htimer : frame.scause &&& ~~~interruptBit = irqSTimer
  · simp only [if_pos htimer]
  · simp only [if_neg htimer]

/-- `ebreak_handler`. -/
def ebreakHandler (frame : TrapFrame) (kernel : Kernel E H) : Ran E H TrapFrame :=
  { result := some { frame with sepc := frame.sepc + 4 }
    kernel
    output :=
      [loggerInfo (.lit "=== BREAKPOINT HIT ===\n") [],
       loggerInfo (.lit "Breakpoint reached at PC: 0x%llx\n") [.word frame.sepc],
       loggerInfo (.lit "Continuing execution...\n") []] }

/-- The warning of `default_syscall_handler`. -/
def unknownSyscall (number : Word) : Event :=
  loggerWarn (.lit "Unknown syscall: 0x%llx\n") [.word number]

/-- `default_syscall_handler`, which takes its first argument for the number. -/
def defaultSyscallHandler (args : Args) (kernel : Kernel E H) : Ran E H Word :=
  if args.arg0 = 0 then
    { result := some 0
      kernel
      output := [logger (.lit "%c") [.word ((args.arg1.setWidth 8).setWidth 64)]] }
  else if args.arg0 = 1 then
    { result := some 0
      kernel
      output := [logger (.lit "%s") [.string args.arg1 (cstringAt kernel.memory args.arg1)]] }
  else { result := some (-1), kernel, output := [unknownSyscall args.arg0] }

/-- A call through an entry of the exception or interrupt table. -/
def ExceptionHandler.call (code : Code E H) (frame : TrapFrame) (kernel : Kernel E H) :
    ExceptionHandler E → Ran E H TrapFrame
  | .defaultException => defaultExceptionHandler frame kernel
  | .defaultInterrupt => defaultInterruptHandler frame kernel
  | .ebreak => ebreakHandler frame kernel
  | .registered e => code.exception e frame kernel

/-- A call through an entry of the syscall table. -/
def SyscallHandler.call (code : Code E H) (args : Args) (kernel : Kernel E H) :
    SyscallHandler H → Ran E H Word
  | .default => defaultSyscallHandler args kernel
  | .registered h => code.syscall h args kernel

end

end Testos.Exception
