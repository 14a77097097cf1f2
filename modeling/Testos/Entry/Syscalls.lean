import Testos.Exception.Dispatch

/-! The syscalls of `entry.c`, which `kernel_main` registers. -/
namespace Testos.Entry
open Foundation Exception

/-- The handlers `kernel_main` registers. -/
inductive KernelSyscall where
  | sysPutchar
  | sysPuts
deriving DecidableEq

section
variable {E H : Type}

/-- `sys_putchar`. -/
def sysPutchar (args : Args) (kernel : Kernel E H) : Ran E H Word :=
  { result := some 0, kernel, output := [.putchar (args.arg0.setWidth 8)] }

/-- `sys_puts`. -/
def sysPuts (args : Args) (kernel : Kernel E H) : Ran E H Word :=
  let str := cstringAt kernel.memory args.arg0
  { result := some (.ofNat 64 str.length), kernel, output := [.puts str] }

end

/-- The kernel registers no exception handler of its own. -/
def kernelCode : Code Empty KernelSyscall where
  exception e := nomatch e
  syscall
    | .sysPutchar => sysPutchar
    | .sysPuts => sysPuts

/-- The registrations of `kernel_main`. -/
def kernelRegistrations : List (Registration Empty KernelSyscall) :=
  [.syscall 0 (.registered .sysPutchar), .syscall 1 (.registered .sysPuts)]

/-- The kernel before `exception_init`, its memory cleared. -/
def emptyKernel : Kernel Empty KernelSyscall where
  exceptionHandlers := .replicate 16 none
  interruptHandlers := .replicate 16 none
  syscallHandlers := .replicate 256 none
  trapCount := 0
  sscratch := 0
  time := 0
  timer := {}
  memory := fun _ => 0

end Testos.Entry
