import Testos.Exception.Dispatch

/-! The trap path of `exception.S`.

The listing is the assembly's, from `trap_handler` to `sret`, in its own parts: the
frame is 69 doublewords below the stack pointer, at the offsets of `trap_frame_t`. The
C functions it calls are a parameter, `CCode`; `Convention` is what compiled C code
owes its caller, also while further traps are taken. -/
namespace Testos.Exception
open Foundation Riscv

/-! ### The listing -/

/-- `TRAP_FRAME_SIZE`. -/
def trapFrameSize : Word := 552

/-- `trap_handler`. -/
def trapHandler : List Instr := [.addi Reg.sp Reg.sp (-trapFrameSize)]

/-- `save_registers`: the integer registers. -/
def saveIntegers : List Instr :=
  [.sd 1 (1 * 8) Reg.sp, .sd 2 (2 * 8) Reg.sp, .sd 3 (3 * 8) Reg.sp, .sd 4 (4 * 8) Reg.sp,
   .sd 5 (5 * 8) Reg.sp, .sd 6 (6 * 8) Reg.sp, .sd 7 (7 * 8) Reg.sp, .sd 8 (8 * 8) Reg.sp,
   .sd 9 (9 * 8) Reg.sp, .sd 10 (10 * 8) Reg.sp, .sd 11 (11 * 8) Reg.sp, .sd 12 (12 * 8) Reg.sp,
   .sd 13 (13 * 8) Reg.sp, .sd 14 (14 * 8) Reg.sp, .sd 15 (15 * 8) Reg.sp, .sd 16 (16 * 8) Reg.sp,
   .sd 17 (17 * 8) Reg.sp, .sd 18 (18 * 8) Reg.sp, .sd 19 (19 * 8) Reg.sp, .sd 20 (20 * 8) Reg.sp,
   .sd 21 (21 * 8) Reg.sp, .sd 22 (22 * 8) Reg.sp, .sd 23 (23 * 8) Reg.sp, .sd 24 (24 * 8) Reg.sp,
   .sd 25 (25 * 8) Reg.sp, .sd 26 (26 * 8) Reg.sp, .sd 27 (27 * 8) Reg.sp, .sd 28 (28 * 8) Reg.sp,
   .sd 29 (29 * 8) Reg.sp, .sd 30 (30 * 8) Reg.sp, .sd 31 (31 * 8) Reg.sp]

/-- The stack pointer again, as it was before the frame. -/
def saveStackPointer : List Instr :=
  [.addi Reg.t0 Reg.sp trapFrameSize, .sd Reg.t0 (2 * 8) Reg.sp]

/-- The floating-point registers. -/
def saveFloats : List Instr :=
  [.fsd 0 ((32 + 0) * 8) Reg.sp, .fsd 1 ((32 + 1) * 8) Reg.sp, .fsd 2 ((32 + 2) * 8) Reg.sp,
   .fsd 3 ((32 + 3) * 8) Reg.sp, .fsd 4 ((32 + 4) * 8) Reg.sp, .fsd 5 ((32 + 5) * 8) Reg.sp,
   .fsd 6 ((32 + 6) * 8) Reg.sp, .fsd 7 ((32 + 7) * 8) Reg.sp, .fsd 8 ((32 + 8) * 8) Reg.sp,
   .fsd 9 ((32 + 9) * 8) Reg.sp, .fsd 10 ((32 + 10) * 8) Reg.sp, .fsd 11 ((32 + 11) * 8) Reg.sp,
   .fsd 12 ((32 + 12) * 8) Reg.sp, .fsd 13 ((32 + 13) * 8) Reg.sp, .fsd 14 ((32 + 14) * 8) Reg.sp,
   .fsd 15 ((32 + 15) * 8) Reg.sp, .fsd 16 ((32 + 16) * 8) Reg.sp, .fsd 17 ((32 + 17) * 8) Reg.sp,
   .fsd 18 ((32 + 18) * 8) Reg.sp, .fsd 19 ((32 + 19) * 8) Reg.sp, .fsd 20 ((32 + 20) * 8) Reg.sp,
   .fsd 21 ((32 + 21) * 8) Reg.sp, .fsd 22 ((32 + 22) * 8) Reg.sp, .fsd 23 ((32 + 23) * 8) Reg.sp,
   .fsd 24 ((32 + 24) * 8) Reg.sp, .fsd 25 ((32 + 25) * 8) Reg.sp, .fsd 26 ((32 + 26) * 8) Reg.sp,
   .fsd 27 ((32 + 27) * 8) Reg.sp, .fsd 28 ((32 + 28) * 8) Reg.sp, .fsd 29 ((32 + 29) * 8) Reg.sp,
   .fsd 30 ((32 + 30) * 8) Reg.sp, .fsd 31 ((32 + 31) * 8) Reg.sp]

/-- The CSRs. -/
def saveCsrs : List Instr :=
  [.csrr Reg.t0 .sepc, .sd Reg.t0 (64 * 8) Reg.sp] ++
  [.csrr Reg.t0 .scause, .sd Reg.t0 (65 * 8) Reg.sp] ++
  [.csrr Reg.t0 .stval, .sd Reg.t0 (66 * 8) Reg.sp] ++
  [.csrr Reg.t0 .sstatus, .sd Reg.t0 (67 * 8) Reg.sp] ++
  [.csrr Reg.t0 .fcsr, .sd Reg.t0 (68 * 8) Reg.sp]

/-- `handle_trap`, up to its branch `beq t0, t1, syscall_entry`. -/
def prepareCall : List Instr :=
  [.mv Reg.a0 Reg.sp, .csrr Reg.t0 .scause, .li Reg.t1 causeSupervisorEcall]

/-- From the trap to the branch. -/
def entryCode : List Instr :=
  trapHandler ++ (saveIntegers ++ saveStackPointer ++ saveFloats ++ saveCsrs) ++ prepareCall

/-- `restore_registers`: the CSRs. -/
def restoreCsrs : List Instr :=
  [.ld Reg.t0 (64 * 8) Reg.sp, .csrw .sepc Reg.t0,
   .ld Reg.t0 (67 * 8) Reg.sp, .csrw .sstatus Reg.t0,
   .ld Reg.t0 (68 * 8) Reg.sp, .csrw .fcsr Reg.t0]

/-- The floating-point registers. -/
def restoreFloats : List Instr :=
  [.fld 0 ((32 + 0) * 8) Reg.sp, .fld 1 ((32 + 1) * 8) Reg.sp, .fld 2 ((32 + 2) * 8) Reg.sp,
   .fld 3 ((32 + 3) * 8) Reg.sp, .fld 4 ((32 + 4) * 8) Reg.sp, .fld 5 ((32 + 5) * 8) Reg.sp,
   .fld 6 ((32 + 6) * 8) Reg.sp, .fld 7 ((32 + 7) * 8) Reg.sp, .fld 8 ((32 + 8) * 8) Reg.sp,
   .fld 9 ((32 + 9) * 8) Reg.sp, .fld 10 ((32 + 10) * 8) Reg.sp, .fld 11 ((32 + 11) * 8) Reg.sp,
   .fld 12 ((32 + 12) * 8) Reg.sp, .fld 13 ((32 + 13) * 8) Reg.sp, .fld 14 ((32 + 14) * 8) Reg.sp,
   .fld 15 ((32 + 15) * 8) Reg.sp, .fld 16 ((32 + 16) * 8) Reg.sp, .fld 17 ((32 + 17) * 8) Reg.sp,
   .fld 18 ((32 + 18) * 8) Reg.sp, .fld 19 ((32 + 19) * 8) Reg.sp, .fld 20 ((32 + 20) * 8) Reg.sp,
   .fld 21 ((32 + 21) * 8) Reg.sp, .fld 22 ((32 + 22) * 8) Reg.sp, .fld 23 ((32 + 23) * 8) Reg.sp,
   .fld 24 ((32 + 24) * 8) Reg.sp, .fld 25 ((32 + 25) * 8) Reg.sp, .fld 26 ((32 + 26) * 8) Reg.sp,
   .fld 27 ((32 + 27) * 8) Reg.sp, .fld 28 ((32 + 28) * 8) Reg.sp, .fld 29 ((32 + 29) * 8) Reg.sp,
   .fld 30 ((32 + 30) * 8) Reg.sp, .fld 31 ((32 + 31) * 8) Reg.sp]

/-- The integer registers. -/
def restoreIntegers : List Instr :=
  [.ld 1 (1 * 8) Reg.sp, .ld 3 (3 * 8) Reg.sp, .ld 4 (4 * 8) Reg.sp, .ld 5 (5 * 8) Reg.sp,
   .ld 6 (6 * 8) Reg.sp, .ld 7 (7 * 8) Reg.sp, .ld 8 (8 * 8) Reg.sp, .ld 9 (9 * 8) Reg.sp,
   .ld 10 (10 * 8) Reg.sp, .ld 11 (11 * 8) Reg.sp, .ld 12 (12 * 8) Reg.sp, .ld 13 (13 * 8) Reg.sp,
   .ld 14 (14 * 8) Reg.sp, .ld 15 (15 * 8) Reg.sp, .ld 16 (16 * 8) Reg.sp, .ld 17 (17 * 8) Reg.sp,
   .ld 18 (18 * 8) Reg.sp, .ld 19 (19 * 8) Reg.sp, .ld 20 (20 * 8) Reg.sp, .ld 21 (21 * 8) Reg.sp,
   .ld 22 (22 * 8) Reg.sp, .ld 23 (23 * 8) Reg.sp, .ld 24 (24 * 8) Reg.sp, .ld 25 (25 * 8) Reg.sp,
   .ld 26 (26 * 8) Reg.sp, .ld 27 (27 * 8) Reg.sp, .ld 28 (28 * 8) Reg.sp, .ld 29 (29 * 8) Reg.sp,
   .ld 30 (30 * 8) Reg.sp, .ld 31 (31 * 8) Reg.sp]

/-- The stack pointer, which ends the frame. -/
def restoreStackPointer : List Instr := [.ld Reg.sp (2 * 8) Reg.sp]

/-- From the C code's return to `sret`. -/
def exitCode : List Instr := restoreCsrs ++ restoreFloats ++ restoreIntegers ++ restoreStackPointer

/-! ### The frame in memory -/

/-- The `trap_frame_t` at an address. -/
def frameAt (m : Memory) (p : Word) : TrapFrame where
  x r := m.slot p r.val
  f r := m.slot p (32 + r.val)
  sepc := m.slot p 64
  scause := m.slot p 65
  stval := m.slot p 66
  sstatus := m.slot p 67
  fcsr := m.slot p 68

/-- The bytes of the frame at an address. -/
def frameBytes (p : Word) : Set Word := { a | Within p 552 a }

/-- Where a trap taken with this machine puts its frame. -/
def framePointer (m : Machine) : Word := m.x Reg.sp + -trapFrameSize

/-! ### C code -/

/-- The C functions the assembly calls. -/
inductive CFunction where
  | handleException
  | handleSyscall
deriving DecidableEq

/-- What further traps do while the bytes given are in use, each from its cause and the
machine it stops to the machine it returns to. -/
abbrev Traps := Set Word → Word → Machine → Machine → Prop

/-- The runs of the C functions, from the call to the return: `live` are the bytes that
what the trap stopped has in use, and further traps act as `Traps` says. The kernel is
that of the call, the `Code` what the registered handlers do in it. -/
abbrev CCode (E H : Type) :=
  (live : Set Word) → Traps → CFunction → Kernel E H → Code E H → Machine → Machine → Prop

/-- The registers a C function leaves as it found them. -/
def calleeSaved : List Reg := [2, 3, 4, 8, 9, 18, 19, 20, 21, 22, 23, 24, 25, 26, 27]

/-- The same among the floating-point registers. -/
def calleeSavedFloats : List Reg := [8, 9, 18, 19, 20, 21, 22, 23, 24, 25, 26, 27]

/-- What code that a trap stopped sees of it: its registers as they were, but for `a0`
after an `ecall`, `sstatus` but for `SPIE` and `SPP`, and itself resumed where it was
stopped, or behind the `ecall`. -/
structure Resumed (cause : Word) (m m' : Machine) : Prop where
  x : ∀ r, r ≠ 0 → (cause = 9 → r ≠ Reg.a0) → m'.x r = m.x r
  f : m'.f = m.f
  fcsr : m'.fcsr = m.fcsr
  sstatus : ∀ i, i ≠ 5 → i ≠ 8 → m'.sstatus.getLsbD i = m.sstatus.getLsbD i
  ecall : cause = 9 → m'.pc = m.pc + 4
  interrupt : cause.msb = true → m'.pc = m.pc

/-- Traps that the code they stop does not notice, and that leave its bytes alone. -/
def Transparent (traps : Traps) : Prop :=
  ∀ live cause m m', traps live cause m m' →
    Resumed cause m m' ∧ ∀ a ∈ live, m'.memory a = m.memory a

section
variable {E H : Type}

/-- The C function's own account of a frame. -/
def CFunction.trap (fn : CFunction) (code : Code E H) (frame : TrapFrame) (kernel : Kernel E H) :
    Option (Trap E H) :=
  match fn with
  | .handleException => Testos.Exception.handleException code frame kernel
  | .handleSyscall => Testos.Exception.handleSyscall code frame kernel

/-- What a C function that returned has kept to. -/
structure Returned (live : Set Word) (fn : CFunction) (kernel : Kernel E H) (code : Code E H)
    (m m' : Machine) : Prop where
  saved : ∀ r ∈ calleeSaved, m'.x r = m.x r
  savedFloats : ∀ r ∈ calleeSavedFloats, m'.f r = m.f r
  live : ∀ a ∈ live, m'.memory a = m.memory a
  frame : ∃ trap, fn.trap code (frameAt m.memory (m.x Reg.a0)) kernel = some trap ∧
    trap.frame = some (frameAt m'.memory (m.x Reg.a0))

/-- C code follows the calling convention, writes the frame it was given only as the C
source does, through its pointer, and the bytes others have in use not at all. It may
count on the traps that stop it. -/
def Convention (call : CCode E H) : Prop :=
  ∀ live traps fn kernel code m m', (∀ a ∈ frameBytes (m.x Reg.a0), a ∉ live) → Transparent traps →
    call live traps fn kernel code m m' → Returned live fn kernel code m m'

/-! ### Traps -/

/-- A trap up to the return of its C function. -/
def Handled (call : CCode E H) (live : Set Word) (traps : Traps) (kernel : Kernel E H)
    (code : Code E H) (m m₂ : Machine) : Prop :=
  ∃ m₁, run exec m entryCode = some m₁ ∧
    call live traps (if m₁.getX Reg.t0 = m₁.getX Reg.t1 then .handleSyscall else .handleException)
      kernel code m₁ m₂

/-- The trap path, from the hardware's entry up to `sret`. -/
def TrapPath (call : CCode E H) (live : Set Word) (traps : Traps) (kernel : Kernel E H)
    (code : Code E H) (m m' : Machine) : Prop :=
  ∃ m₂, Handled call live traps kernel code m m₂ ∧ run exec m₂ exitCode = some m'

/-- A trap can be taken: the FPU is on and dirty, and the frame goes to memory that is
not in use. -/
structure Ready (live : Set Word) (m : Machine) : Prop where
  fs : fs m.sstatus = 3
  room : ∀ a ∈ frameBytes (framePointer m), a ∉ live

/-- Registered handlers that do not write the frame; `ebreak_handler` is registered for
no interrupt. -/
structure Plain (kernel : Kernel E H) (code : Code E H) : Prop where
  keeps : ∀ e frame kernel frame', (code.exception e frame kernel).result = some frame' →
    frame' = frame
  interrupts : ∀ i, kernel.interruptHandlers.read i ≠ some (some .ebreak)

/-- Traps that nest less than `n` deep. -/
def nested (call : CCode E H) : Nat → Traps
  | 0 => fun _ _ _ _ => False
  | n + 1 => fun live cause m m' =>
    ∃ tval kernel code m₁, Ready live (m.take cause tval) ∧ Plain kernel code ∧
      TrapPath call live (nested call n) kernel code (m.take cause tval) m₁ ∧ m' = m₁.sret

end

end Testos.Exception
