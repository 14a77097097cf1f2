import Testos.Boot.HartId
import Testos.Exception.Nesting

/-! The alignment of the stack.

The calling convention wants `sp` at a multiple of 16 at every call. Assembly calls C code
in three ways: `boot.S` on the stack it has just set up, the gateway's stub below a frame
of 16 bytes, and the trap path below one of 552, which is no multiple of 16.
`stack_aligned_iff`: of calls made from an aligned stack, in any order and to any depth,
those of the trap path are misaligned and the others are not. `stack_aligned_depth`: where
C code keeps the alignment it was called with, a call is aligned if it is below an even
number of traps. -/
namespace Testos.Exception
open Foundation Riscv Boot

/-- `sp` is a multiple of 16. -/
def StackAligned (m : Machine) : Prop := 16 ∣ (m.x Reg.sp).toNat

/-- The same alignment, whichever it is. -/
def SameAlignment (m m' : Machine) : Prop := (m'.x Reg.sp).toNat % 16 = (m.x Reg.sp).toNat % 16

/-! ### The three ways into C code -/

/-- The linker puts the stack's top at a multiple of 16. -/
theorem stackTop_aligned (s : Symbols) : 16 ∣ s.stackTop.toNat := by
  have hpage : 4096 ∣ s.objects.stackBottom := (roundUp_bounds _ (by decide)).2.2
  have htop : s.objects.stackTop = s.objects.stackBottom + 0x2000 := rfl
  rw [Symbols.stackTop, BitVec.toNat_ofNat]
  omega

theorem boot_aligned {img : Image} {m₀ m₁ m₂ m₃ : BootMachine} (h : BootRun img m₀ m₁ m₂ m₃) :
    StackAligned m₃.toMachine := by
  rw [StackAligned, h.atKernelMain.sp]
  exact stackTop_aligned _

/-- Behind its first instruction the trap path leaves `sp` alone, up to the call. -/
theorem entry_sp {m m₁ : Machine} (h : run exec m entryCode = some m₁) : m₁.x Reg.sp = m.x Reg.sp - 552 := by
  have hkeeps : ∀ i ∈ entryCode.tail, i.dest ≠ some Reg.sp := by decide
  have hlower : exec m (.addi Reg.sp Reg.sp (-trapFrameSize)) = some (lowered m) := by
    rw [exec, m.setX_of_ne (by decide), m.getX_of_ne (by decide)]
    rfl
  have hrest : run exec (lowered m) entryCode.tail = some m₁ := by
    rw [← h, ← Option.bind_some (lowered m) fun s => run exec s entryCode.tail, ← hlower, ← run_cons]
    rfl
  rw [run_keeps hkeeps hrest, lowered_sp, framePointer, BitVec.sub_eq_add_neg]
  rfl

/-- 552 is 8 more than a multiple of 16. -/
theorem trap_alignment {m m₁ : Machine} {cause tval : Word} (h : run exec (m.take cause tval) entryCode = some m₁) :
    (m₁.x Reg.sp).toNat % 16 = ((m.x Reg.sp).toNat + 8) % 16 := by
  have hsp : m₁.x Reg.sp = m.x Reg.sp - 552 := entry_sp (m := m.take cause tval) h
  have hlt := (m.x Reg.sp).isLt
  have hframe : (552 : Word).toNat = 552 := rfl
  rw [hsp, BitVec.toNat_sub, hframe]
  omega

theorem gateway_alignment {gateway directC id : Word} {m m₁ : Machine} (hcall : GatewayCall gateway id m)
    (h : walk (gatewaySection gateway directC) gateway 4 m = some m₁) : SameAlignment m m₁ := by
  obtain ⟨m', hwalk, hentered⟩ := gateway_enters hcall directC
  obtain rfl := Option.some.inj (h.symm.trans hwalk)
  have hlt := (m.x Reg.sp).isLt
  have hframe : (16 : Word).toNat = 16 := rfl
  rw [SameAlignment, hentered.sp, BitVec.toNat_sub, hframe]
  omega

/-! ### Runs -/

/-- The C functions that assembly calls. -/
inductive CEntry where
  | kernelMain
  | handleException
  | handleSyscall
  | handleSyscallDirectC
deriving DecidableEq

/-- Called by the trap path. -/
def CEntry.trap : CEntry → Bool
  | .handleException | .handleSyscall => true
  | .kernelMain | .handleSyscallDirectC => false

/-- A call from assembly, with the machine at it. -/
structure CCall where
  entry : CEntry
  machine : Machine

/-- What a run of the kernel has open, the innermost call first: `kernel_main`, and above
it what traps and gateway calls have entered and not left. `stops` says at which machines
what is running since a call can be stopped by a trap or call the gateway. -/
inductive Runs (img : Image) (gateway directC : Word) (stops : Machine → Machine → Prop) : List CCall → Prop
  | boot {m₀ m₁ m₂ m₃ : BootMachine} (h : BootRun img m₀ m₁ m₂ m₃) :
    Runs img gateway directC stops [⟨.kernelMain, m₃.toMachine⟩]
  | trap {c : CCall} {calls : List CCall} {cause tval : Word} {m m₁ : Machine}
    (h : Runs img gateway directC stops (c :: calls)) (hstops : stops c.machine m)
    (hentry : run exec (m.take cause tval) entryCode = some m₁) :
    Runs img gateway directC stops
      (⟨if m₁.getX Reg.t0 = m₁.getX Reg.t1 then .handleSyscall else .handleException, m₁⟩ :: c :: calls)
  | gateway {c : CCall} {calls : List CCall} {id : Word} {m m₁ : Machine}
    (h : Runs img gateway directC stops (c :: calls)) (hstops : stops c.machine m)
    (hcall : GatewayCall gateway id m)
    (hstub : walk (gatewaySection gateway directC) gateway 4 m = some m₁) :
    Runs img gateway directC stops (⟨.handleSyscallDirectC, m₁⟩ :: c :: calls)
  | back {c d : CCall} {calls : List CCall} (h : Runs img gateway directC stops (c :: d :: calls)) :
    Runs img gateway directC stops (d :: calls)

theorem CEntry.trap_branch (c : Prop) [Decidable c] :
    (if c then CEntry.handleSyscall else CEntry.handleException).trap = true := by
  split <;> rfl

section Runs
variable {img : Image} {gateway directC : Word} {calls : List CCall}

/-- **The alignment of the stack.** If every trap is taken and every gateway call made at an
aligned stack, then of all calls of C code, at any depth, those are aligned that the trap
path does not make. -/
theorem stack_aligned_iff (h : Runs img gateway directC (fun _ m => StackAligned m) calls) :
    ∀ c ∈ calls, StackAligned c.machine ↔ c.entry.trap = false := by
  induction h with
  | boot h =>
    intro c hc
    rw [List.mem_singleton.mp hc]
    exact iff_of_true (boot_aligned h) rfl
  | @trap c calls cause tval m m₁ h hstops hentry ih =>
    rw [List.forall_mem_cons]
    have halignment := trap_alignment hentry
    have hwrong : ¬ StackAligned m₁ := by
      rw [StackAligned] at hstops ⊢
      omega
    refine ⟨iff_of_false hwrong ?_, ih⟩
    rw [CEntry.trap_branch]
    exact fun h => Bool.false_ne_true h.symm
  | @gateway c calls id m m₁ h hstops hcall hstub ih =>
    rw [List.forall_mem_cons]
    have halignment := gateway_alignment hcall hstub
    have hright : StackAligned m₁ := by
      rw [StackAligned] at hstops ⊢
      rw [SameAlignment] at halignment
      omega
    exact ⟨iff_of_true hright rfl, ih⟩
  | back h ih => exact fun c hc => ih c (List.mem_cons_of_mem _ hc)

/-- The calls of the trap path among open ones. -/
def trapsOpen (calls : List CCall) : Nat := calls.countP fun c => c.entry.trap

theorem trapsOpen_cons (c : CCall) (calls : List CCall) :
    trapsOpen (c :: calls) = trapsOpen calls + if c.entry.trap then 1 else 0 := List.countP_cons

/-- Eight bytes more for every trap below. -/
theorem alignment_depth (h : Runs img gateway directC SameAlignment calls) :
    ∀ c below, (c :: below) <:+ calls → (c.machine.x Reg.sp).toNat % 16 = 8 * trapsOpen (c :: below) % 16 := by
  induction h with
  | boot h =>
    intro c below hsuffix
    rcases List.suffix_cons_iff.mp hsuffix with heq | hnil
    · cases heq
      exact Nat.mod_eq_zero_of_dvd (boot_aligned h)
    · cases List.suffix_nil.mp hnil
  | @trap d calls cause tval m m₁ h hstops hentry ih =>
    intro c below hsuffix
    rcases List.suffix_cons_iff.mp hsuffix with heq | hbelow
    · cases heq
      have halignment := trap_alignment hentry
      have hstopped := ih d calls (List.suffix_refl _)
      rw [SameAlignment] at hstops
      rw [trapsOpen_cons, CEntry.trap_branch, if_pos rfl]
      show (m₁.x Reg.sp).toNat % 16 = _
      omega
    · exact ih c below hbelow
  | @gateway d calls id m m₁ h hstops hcall hstub ih =>
    intro c below hsuffix
    rcases List.suffix_cons_iff.mp hsuffix with heq | hbelow
    · cases heq
      have halignment := gateway_alignment hcall hstub
      have hstopped := ih d calls (List.suffix_refl _)
      rw [SameAlignment] at hstops halignment
      rw [trapsOpen_cons, CEntry.trap, if_neg Bool.false_ne_true]
      show (m₁.x Reg.sp).toNat % 16 = _
      omega
    · exact ih c below hbelow
  | back h ih => exact fun c below hsuffix => ih c below (hsuffix.trans (List.suffix_cons _ _))

/-- **Nested traps.** If all code leaves `sp` as it was at its call, modulo 16, when it is
stopped or calls the gateway, a call is aligned exactly if an even number of traps is open
at it, its own included. -/
theorem stack_aligned_depth (h : Runs img gateway directC SameAlignment calls) (c : CCall) (below : List CCall)
    (hsuffix : (c :: below) <:+ calls) : StackAligned c.machine ↔ Even (trapsOpen (c :: below)) := by
  have hdepth := alignment_depth h c below hsuffix
  rw [StackAligned, Nat.even_iff]
  omega

end Runs

/-! ### A timer interrupt in `kernel_main` -/

theorem stopped_sp : stopped.x Reg.sp = 0x80210000 := by simp [stopped]

theorem stopped_aligned : StackAligned stopped := by
  rw [StackAligned, stopped_sp]
  decide

/-- `stopped`, which has an aligned stack, is stopped in `kernel_main`. -/
theorem interrupted : ∃ m₃ m₁, run exec (stopped.take timerInterrupt 0) entryCode = some m₁ ∧
    Runs usualImage 0x80204000 0x80201000 (fun _ m => StackAligned m)
      [⟨.handleException, m₁⟩, ⟨.kernelMain, m₃⟩] := by
  obtain ⟨m₁, _, _, hruns⟩ := boot_runs (show (firmware 0).pc = usualImage.addr start from rfl)
  obtain ⟨m₃, hboot⟩ := hruns { m₁ with pc := m₁.x Reg.ra } ⟨rfl, fun _ _ => rfl, fun _ _ => rfl⟩
  obtain ⟨m, hentry, hentered⟩ := entry_run (m := stopped.take timerInterrupt 0) (by decide)
  have hbranch : ¬ m.getX Reg.t0 = m.getX Reg.t1 := by
    rw [hentered.branch]
    decide
  have hkernel : Runs usualImage 0x80204000 0x80201000 (fun _ m => StackAligned m)
      [⟨.kernelMain, m₃.toMachine⟩] := .boot hboot
  have htrap := hkernel.trap stopped_aligned hentry
  rw [if_neg hbranch] at htrap
  exact ⟨m₃.toMachine, m, hentry, htrap⟩

theorem stack_aligned_interrupted : ∃ m₃ m₁,
    Runs usualImage 0x80204000 0x80201000 (fun _ m => StackAligned m)
        [⟨.handleException, m₁⟩, ⟨.kernelMain, m₃⟩] ∧
      ∀ c ∈ [(⟨.handleException, m₁⟩ : CCall), ⟨.kernelMain, m₃⟩],
        StackAligned c.machine ↔ c.entry.trap = false := by
  obtain ⟨m₃, m₁, _, hruns⟩ := interrupted
  exact ⟨m₃, m₁, hruns, stack_aligned_iff hruns⟩

/-- `handle_exception` is called 8 bytes off. -/
theorem stack_misaligned :
    (∃ m₁, run exec (stopped.take timerInterrupt 0) entryCode = some m₁ ∧ StackAligned stopped ∧
        (m₁.x Reg.sp).toNat % 16 = 8) ∧
      ¬ ∀ img gateway directC calls, Runs img gateway directC (fun _ m => StackAligned m) calls →
        ∀ c ∈ calls, StackAligned c.machine := by
  obtain ⟨m₃, m₁, hentry, hruns⟩ := interrupted
  have hoff : (m₁.x Reg.sp).toNat % 16 = 8 := by
    rw [trap_alignment hentry, stopped_sp]
    rfl
  refine ⟨⟨m₁, hentry, stopped_aligned, hoff⟩, fun hall => ?_⟩
  have haligned : 16 ∣ (m₁.x Reg.sp).toNat := hall _ _ _ _ hruns ⟨.handleException, m₁⟩ List.mem_cons_self
  omega

end Testos.Exception
