import Testos.Entry.Syscalls
import Testos.Exception.Gateway
import Testos.Lib.Logger

/-! The kernel's own syscalls, served twice.

`kernel_main` registers `sys_putchar` and `sys_puts`, which write to the UART;
`default_syscall_handler` serves the same two numbers for the gateway, through the
logger. `compat_disagrees`: the two never show the same, whatever is written. -/
namespace Testos.Entry
open Foundation Riscv Exception Lib Dev

/-! ### Both services -/

/-- What a served syscall shows: the bytes on the wire and the value returned. -/
abbrev Served := List Byte × Word

/-- The frame of a syscall and its first argument. -/
def syscallFrame (frame : TrapFrame) (number arg0 : Word) : TrapFrame :=
  { frame with x := Function.update (Function.update frame.x Reg.a7 number) Reg.a0 arg0 }

/-- Served through the trap, by `handle_syscall`. -/
def byTrap (t : UartType) (buf : Word) (kernel : Kernel Empty KernelSyscall) (frame : TrapFrame) :
    Option Served :=
  (handleSyscall kernelCode frame kernel).bind fun trap =>
    (sentAll t kernel.memory buf trap.output).bind fun bytes =>
      trap.frame.map fun frame' => (bytes, frame'.x Reg.a0)

/-- Served through the gateway, by `handle_syscall_direct_c`, its debug line left aside. -/
def byGateway (t : UartType) (buf : Word) (kernel : Kernel Empty KernelSyscall) (number : Word)
    (args : Args) : Option Served :=
  let ran := handleSyscallDirectC number args.arg1 args.arg2 args.arg3 args.arg4 args.arg5 kernel
  (sentAll t kernel.memory buf ran.output.tail).bind fun bytes =>
    ran.result.map fun retVal => (bytes, retVal)

section
variable {kernel : Kernel Empty KernelSyscall} (h : Exception.Shown kernelRegistrations kernel)
  (t : UartType) (buf : Word) (frame : TrapFrame) (arg : Word)
include h

theorem byTrap_eq (number : Word) {handler : KernelSyscall}
    (hhandler : syscallHandler kernelRegistrations number = .registered handler) :
    byTrap t buf kernel (syscallFrame frame number arg) =
      let frame' := syscallFrame frame number arg
      let ran := kernelCode.syscall handler frame'.args kernel
      (sentAll t kernel.memory buf ran.output).bind fun bytes =>
        ran.result.map fun retVal => (bytes, retVal) := by
  have hnumber : (syscallFrame frame number arg).x Reg.a7 = number := by
    show Function.update (Function.update frame.x Reg.a7 number) Reg.a0 arg Reg.a7 = number
    rw [Function.update_of_ne (by decide), Function.update_self]
  rw [byTrap, handleSyscall_shown h, hnumber, hhandler, Option.bind_some]
  simp only [callSyscall, SyscallHandler.call, Option.map_map, Function.comp_def, answer_a0]

theorem byTrap_putchar :
    byTrap t buf kernel (syscallFrame frame 0 arg) = some (uartPutchar t (arg.setWidth 8), 0) := by
  rw [byTrap_eq h t buf frame arg 0 rfl]
  simp [kernelCode, sysPutchar, sentAll, sent, TrapFrame.args, syscallFrame]

theorem byTrap_puts : byTrap t buf kernel (syscallFrame frame 1 arg) =
    some (uartPuts t (cstringAt kernel.memory arg),
      BitVec.ofNat 64 (cstringAt kernel.memory arg).length) := by
  rw [byTrap_eq h t buf frame arg 1 rfl]
  simp [kernelCode, sysPuts, sentAll, sent, TrapFrame.args, syscallFrame]

end

section
variable (t : UartType) (buf : Word) (kernel : Kernel Empty KernelSyscall) (args : Args)

/-- But for two numbers the gateway leaves the call to the default handler. -/
theorem byGateway_eq {number : Word} (h64 : number ≠ 64) (h93 : number ≠ 93) :
    byGateway t buf kernel number args =
      let ran := defaultSyscallHandler { args with arg0 := number } kernel
      (sentAll t kernel.memory buf ran.output).bind fun bytes =>
        ran.result.map fun retVal => (bytes, retVal) := by
  rw [byGateway, handleSyscallDirectC, if_neg h64, if_neg h93]
  rfl

theorem byGateway_putchar : byGateway t buf kernel 0 args =
    some (uartPuts t logPrefix ++ uartPuts t (stringIn [args.arg1.setWidth 8]), 0) := by
  have hrenders : Renders (CString.lit "%c").bytes [.word ((args.arg1.setWidth 8).setWidth 64)]
      [((args.arg1.setWidth 8).setWidth 64).setWidth 8] := .char _ (.done [])
  have hchar : ((args.arg1.setWidth 8).setWidth 64).setWidth 8 = args.arg1.setWidth 8 :=
    BitVec.setWidth_setWidth_of_le _ (by decide)
  rw [byGateway_eq t buf kernel args (by decide) (by decide), defaultSyscallHandler, if_pos rfl]
  simp only [sentAll_logger hrenders, hchar]
  rfl

theorem byGateway_puts : byGateway t buf kernel 1 args =
    some (uartPuts t logPrefix ++
      uartPuts t (stringIn ((cstringAt kernel.memory args.arg1).bytes.take 511)), 0) := by
  have hrenders : Renders (CString.lit "%s").bytes [.string args.arg1 (cstringAt kernel.memory args.arg1)]
      ((cstringAt kernel.memory args.arg1).bytes ++ []) := .string _ _ (.done [])
  rw [List.append_nil] at hrenders
  rw [byGateway_eq t buf kernel args (by decide) (by decide), defaultSyscallHandler,
    if_neg (show ¬ (1 : Word) = 0 by decide), if_pos rfl]
  simp only [sentAll_logger hrenders]
  rfl

end

/-! ### They differ -/

theorem uartPutchar_length (t : UartType) (c : Byte) :
    1 ≤ (uartPutchar t c).length ∧ (uartPutchar t c).length ≤ 2 := by
  cases t with
  | dw =>
    show 1 ≤ (dwUartPutchar c).length ∧ (dwUartPutchar c).length ≤ 2
    unfold dwUartPutchar
    split
    · exact ⟨Nat.le_succ 1, Nat.le_refl 2⟩
    · exact ⟨Nat.le_refl 1, Nat.le_succ 1⟩
  | pl011 => exact ⟨Nat.le_refl 1, Nat.le_succ 1⟩

/-- A string is sent as at least its bytes, at most twice as many. -/
theorem uartPuts_length (t : UartType) (s : CString) :
    s.length ≤ (uartPuts t s).length ∧ (uartPuts t s).length ≤ 2 * s.length := by
  rw [uartPuts_eq t .dw]
  show s.bytes.length ≤ (s.bytes.flatMap dwUartPutchar).length ∧
    (s.bytes.flatMap dwUartPutchar).length ≤ 2 * s.bytes.length
  induction s.bytes with
  | nil => exact ⟨Nat.le_refl 0, Nat.le_refl 0⟩
  | cons c bytes ih =>
    have hchar : 1 ≤ (dwUartPutchar c).length ∧ (dwUartPutchar c).length ≤ 2 := uartPutchar_length .dw c
    rw [List.flatMap_cons, List.length_append, List.length_cons]
    omega

theorem logPrefix_length (t : UartType) : (uartPuts t logPrefix).length = 9 := by
  rw [uartPuts_eq t .dw]
  decide

theorem putchar_ne (t : UartType) (c : Byte) (text : CString) :
    uartPutchar t c ≠ uartPuts t logPrefix ++ uartPuts t text := by
  intro heq
  have hlength := congrArg List.length heq
  have hchar := uartPutchar_length t c
  rw [List.length_append, logPrefix_length] at hlength
  omega

/-- Neither a short string nor a long one: the value tells what the bytes may hide. -/
theorem puts_ne (t : UartType) (s : CString) :
    ((uartPuts t s, BitVec.ofNat 64 s.length) : Served) ≠
      (uartPuts t logPrefix ++ uartPuts t (stringIn (s.bytes.take 511)), 0) := by
  intro heq
  obtain ⟨hbytes, hvalue⟩ := Prod.mk.inj heq
  have hlength := congrArg List.length hbytes
  rw [List.length_append, logPrefix_length] at hlength
  have hcut : (stringIn (s.bytes.take 511)).length ≤ 511 := by
    show ((s.bytes.take 511).takeWhile _).length ≤ 511
    exact Nat.le_trans (List.takeWhile_prefix _).length_le (List.length_take_le _ _)
  have hsent := uartPuts_length t s
  have hsent' := uartPuts_length t (stringIn (s.bytes.take 511))
  have hnat := congrArg BitVec.toNat hvalue
  have hzero : (0 : Word).toNat = 0 := rfl
  rw [BitVec.toNat_ofNat, Nat.mod_eq_of_lt (by omega), hzero] at hnat
  omega

/-- Registrations leave memory alone. -/
theorem registered_memory {sp : Word} {kernel kernel' : Kernel Empty KernelSyscall}
    {history : List (Registration Empty KernelSyscall)}
    (h : registered sp kernel history = some kernel') : kernel'.memory = kernel.memory := by
  rw [registered, exceptionInit, registerExceptionHandler_eq, Option.map_some, Option.bind_some] at h
  refine Foundation.run_preserves (P := fun k => k.memory = kernel.memory) (Q := fun _ => True)
    (fun k r k' hk _ hr => ?_) history _ kernel' rfl (fun _ _ => trivial) h
  cases r with
  | exception cause handler =>
    rw [register, registerExceptionHandler_eq] at hr
    obtain rfl := Option.some.inj hr
    exact hk
  | interrupt cause handler =>
    rw [register, registerInterruptHandler_eq] at hr
    obtain rfl := Option.some.inj hr
    exact hk
  | syscall syscallNum handler =>
    rw [register, registerSyscallHandler_eq] at hr
    obtain rfl := Option.some.inj hr
    exact hk

/-- **The two services disagree** on every character and on every string: behind the
registrations of `kernel_main`, both serve both syscalls, but `SYS_putchar` sends other
bytes, with the same value, and `SYS_puts` other bytes or another value. -/
theorem compat_disagrees (t : UartType) (sp : Word) (kernel : Kernel Empty KernelSyscall) :
    ∃ kernel', registered sp kernel kernelRegistrations = some kernel' ∧
      kernel'.memory = kernel.memory ∧
      ∀ buf frame (args : Args),
        (∃ served served', byTrap t buf kernel' (syscallFrame frame 0 args.arg1) = some served ∧
          byGateway t buf kernel' 0 args = some served' ∧ served.2 = served'.2 ∧ served.1 ≠ served'.1) ∧
        ∃ served served', byTrap t buf kernel' (syscallFrame frame 1 args.arg1) = some served ∧
          byGateway t buf kernel' 1 args = some served' ∧ served ≠ served' := by
  obtain ⟨kernel', hkernel, hshown⟩ := registered_shown sp kernel kernelRegistrations
  refine ⟨kernel', hkernel, registered_memory hkernel, fun buf frame args => ⟨?_, ?_⟩⟩
  · exact ⟨_, _, byTrap_putchar hshown t buf frame args.arg1, byGateway_putchar t buf kernel' args, rfl,
      putchar_ne t _ _⟩
  · exact ⟨_, _, byTrap_puts hshown t buf frame args.arg1, byGateway_puts t buf kernel' args, puts_ne t _⟩

/-- An `A`, and the empty string. -/
theorem compat_prefixed : ∃ kernel, registered 0x80210000 emptyKernel kernelRegistrations = some kernel ∧
    ∀ frame,
      byTrap .dw 0x8020f000 kernel (syscallFrame frame 0 0x41) = some ([0x41], 0) ∧
      byGateway .dw 0x8020f000 kernel 0 ⟨0, 0x41, 0, 0, 0, 0⟩ = some ((CString.lit "[TESTOS] A").bytes, 0) ∧
      byTrap .dw 0x8020f000 kernel (syscallFrame frame 1 0x80300000) = some ([], 0) ∧
      byGateway .dw 0x8020f000 kernel 1 ⟨0, 0x80300000, 0, 0, 0, 0⟩ =
        some ((CString.lit "[TESTOS] ").bytes, 0) := by
  obtain ⟨kernel, hkernel, hshown⟩ := registered_shown 0x80210000 emptyKernel kernelRegistrations
  have hempty : cstringAt kernel.memory 0x80300000 = .lit "" := by
    rw [registered_memory hkernel, cstringAt, CString.mk.injEq]
    exact bytesBefore_text ⟨fun _ h => absurd h (Nat.not_lt_zero _), rfl⟩ (by decide)
  refine ⟨kernel, hkernel, fun frame => ⟨?_, ?_, ?_, ?_⟩⟩
  · rw [byTrap_putchar hshown]
    rfl
  · rw [byGateway_putchar]
    rfl
  · rw [byTrap_puts hshown, hempty]
    rfl
  · rw [byGateway_puts]
    simp only [hempty]
    rfl

end Testos.Entry
