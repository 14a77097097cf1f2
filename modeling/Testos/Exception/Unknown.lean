import Testos.Entry.Syscalls

/-! Syscalls without a handler.

`handle_syscall` hands a syscall nobody registered to `default_syscall_handler`, with
the six arguments and without its number, and that handler takes the first argument
for the number. `unknown_iff`: the call is treated as unknown exactly when `a0` is
neither 0 nor 1; `unregistered_putchar` is one that prints a character instead. -/
namespace Testos.Exception
open Foundation Riscv

section
variable {E H : Type}

/-- No handler was registered for the number: it is out of range, or its entry still
holds the default. -/
def Unregistered (history : List (Registration E H)) (number : Word) : Prop :=
  256 ≤ number.toNat ∨ lastWrite (syscallWrites history) number = none

/-- The trap answered -1 and said nothing but that the syscall is unknown. -/
def TreatedAsUnknown (trap : Trap E H) : Prop :=
  (∃ frame, trap.frame = some frame ∧ frame.x Reg.a0 = -1) ∧ ∃ number, trap.output = [unknownSyscall number]

theorem syscallHandler_unregistered {history : List (Registration E H)} {number : Word}
    (h : Unregistered history number) : syscallHandler history number = .default := by
  unfold syscallHandler lastHandler
  rcases h with hout | hnone
  · rw [if_neg (Nat.not_lt_of_le hout)]
  · rw [hnone]
    split <;> rfl

/-- The numbers the default handler serves. -/
theorem defaultSyscallHandler_served {args : Args} (h : args.arg0 = 0 ∨ args.arg0 = 1)
    (kernel : Kernel E H) : (defaultSyscallHandler args kernel).result = some 0 := by
  unfold defaultSyscallHandler
  by_cases h0 : args.arg0 = 0
  · rw [if_pos h0]
  · rw [if_neg h0, if_pos (h.resolve_left h0)]

theorem defaultSyscallHandler_unknown {args : Args} (h : ¬ (args.arg0 = 0 ∨ args.arg0 = 1))
    (kernel : Kernel E H) : defaultSyscallHandler args kernel =
      ⟨some (-1), kernel, [unknownSyscall args.arg0]⟩ := by
  obtain ⟨h0, h1⟩ := not_or.mp h
  rw [defaultSyscallHandler, if_neg h0, if_neg h1]

/-- What the default handler does is what `a0` says. -/
theorem callSyscall_default (code : Code E H) (frame : TrapFrame) (kernel : Kernel E H) :
    TreatedAsUnknown (callSyscall code frame kernel .default) ↔ frame.x Reg.a0 ≠ 0 ∧ frame.x Reg.a0 ≠ 1 := by
  rw [← not_or]
  by_cases h : frame.x Reg.a0 = 0 ∨ frame.x Reg.a0 = 1
  · refine ⟨?_, fun hne => absurd h hne⟩
    intro h
    obtain ⟨⟨frame', hframe, hret⟩, _⟩ := h
    have hresult : (callSyscall code frame kernel .default).frame = some (frame.answer 0) :=
      congrArg (Option.map frame.answer) (defaultSyscallHandler_served h kernel)
    obtain rfl := Option.some.inj (hresult.symm.trans hframe)
    rw [answer_a0] at hret
    exact absurd hret (by decide)
  · have hcall : (SyscallHandler.default.call code frame.args kernel) =
        ⟨some (-1), kernel, [unknownSyscall (frame.x Reg.a0)]⟩ := defaultSyscallHandler_unknown h kernel
    refine ⟨fun _ => h, fun _ => ?_⟩
    simp only [TreatedAsUnknown, callSyscall, hcall, Option.map_some]
    exact ⟨⟨_, rfl, answer_a0 frame (-1)⟩, _, rfl⟩

/-- **Unknown, if `a0` says so.** After any registrations, a syscall whose number has no
handler is treated as unknown exactly when its `a0` is neither 0 nor 1. -/
theorem unknown_iff (code : Code E H) (sp : Word) (kernel : Kernel E H)
    (history : List (Registration E H)) (frame : TrapFrame)
    (h : Unregistered history (frame.x Reg.a7)) :
    ∃ kernel' trap, registered sp kernel history = some kernel' ∧
      handleSyscall code frame kernel' = some trap ∧
      (TreatedAsUnknown trap ↔ frame.x Reg.a0 ≠ 0 ∧ frame.x Reg.a0 ≠ 1) := by
  obtain ⟨kernel', hrun, hshown⟩ := registered_shown sp kernel history
  refine ⟨kernel', _, hrun, handleSyscall_shown hshown code frame, ?_⟩
  rw [syscallHandler_unregistered h]
  exact callSyscall_default code frame kernel'

end

/-! ### The kernel's own registrations -/

/-- Registers of a caller that asks for syscall 5, with `a0` and an `A` in `a1`. -/
def callerFrame (a0 : Word) : TrapFrame where
  x := Function.update (Function.update (Function.update (fun _ => 0) Reg.a7 5) Reg.a0 a0) Reg.a1 0x41
  f := fun _ => 0
  sepc := 0x80800010
  scause := 9
  stval := 0
  sstatus := 0x200006100
  fcsr := 0

theorem five_unregistered (a0 : Word) :
    Unregistered Entry.kernelRegistrations ((callerFrame a0).x Reg.a7) := .inr rfl

theorem unknown_iff_five : ∃ kernel' trap,
    registered 0x80210000 Entry.emptyKernel Entry.kernelRegistrations = some kernel' ∧
      handleSyscall Entry.kernelCode (callerFrame 7) kernel' = some trap ∧
      (TreatedAsUnknown trap ↔ (callerFrame 7).x Reg.a0 ≠ 0 ∧ (callerFrame 7).x Reg.a0 ≠ 1) :=
  unknown_iff Entry.kernelCode 0x80210000 Entry.emptyKernel Entry.kernelRegistrations (callerFrame 7)
    (five_unregistered 7)

/-- **A character instead of a warning**: the kernel's own registrations leave syscall 5
without a handler, and with `a0 = 0` it is not treated as unknown. -/
theorem unregistered_putchar :
    Unregistered Entry.kernelRegistrations ((callerFrame 0).x Reg.a7) ∧
      ∃ kernel' trap, registered 0x80210000 Entry.emptyKernel Entry.kernelRegistrations = some kernel' ∧
        handleSyscall Entry.kernelCode (callerFrame 0) kernel' = some trap ∧
        trap.output = [logger (.lit "%c") [.word 0x41]] ∧ ¬ TreatedAsUnknown trap := by
  obtain ⟨kernel', hrun, hshown⟩ :=
    registered_shown 0x80210000 Entry.emptyKernel Entry.kernelRegistrations
  have hdefault := syscallHandler_unregistered (five_unregistered 0)
  refine ⟨five_unregistered 0, kernel', _, hrun, handleSyscall_shown hshown _ _, ?_, ?_⟩
  · rw [hdefault]
    rfl
  · rw [hdefault, callSyscall_default]
    exact fun h => h.1 rfl

end Testos.Exception
