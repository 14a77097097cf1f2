import Testos.Boot.Start
import Testos.Exception.Gateway

/-! The hart id.

`boot.S` calls `mem_init` between `_start` and `kernel_main`. What that does is a
parameter; of compiled code a caller knows what the calling convention says, `CameBack`.
`boot_runs`: every start gets to both calls. `hart_id_iff`: `kernel_main` is called with
the hart id of `_start` exactly if `mem_init` came back with it in `a0`. -/
namespace Testos.Boot
open Foundation Riscv Exception StateTransition

/-! ### The calls of C code -/

/-- A start: from `_start` to the call of `mem_init`, a return of `mem_init` that the
calling convention permits, and from there to the call of `kernel_main`. -/
structure BootRun (img : Image) (m₀ m₁ m₂ m₃ : BootMachine) : Prop where
  start : m₀.pc = img.addr start
  toMemInit : m₁ ∈ eval img.step m₀
  memInit : CameBack m₁.toMachine m₂.toMachine
  toKernelMain : m₃ ∈ eval img.step m₂

section Calls
variable {img : Image} {m₀ m₁ m₂ m₃ : BootMachine}

theorem eval_memInit (hpc : m₀.pc = img.addr start) : ∃ m₁, m₁ ∈ eval img.step m₀ ∧ AtMemInit img m₀ m₁ := by
  obtain ⟨m₁, hreaches, hat⟩ := reaches_memInit hpc
  exact ⟨m₁, mem_eval.mpr ⟨hreaches, step_external (.inl hat.pc)⟩, hat⟩

/-- A permitted return goes on to `kernel_main`, with every register but `ra`. -/
theorem eval_kernelMain (hat : AtMemInit img m₀ m₁) (hback : CameBack m₁.toMachine m₂.toMachine) :
    m₂.load Reg.ra (img.addr 9) img.kernelMain ∈ eval img.step m₂ := by
  have hpc : m₂.pc = img.addr 8 := hback.pc.trans hat.ra
  exact mem_eval.mpr ⟨reaches_step (i := 8) rfl hpc (perform_callC _ _) .refl, step_external (.inr rfl)⟩

/-- **Every start** gets to the call of `mem_init`, and from every permitted return to the
call of `kernel_main`. -/
theorem boot_runs (hpc : m₀.pc = img.addr start) : ∃ m₁, m₁ ∈ eval img.step m₀ ∧ AtMemInit img m₀ m₁ ∧
    ∀ m₂ : BootMachine, CameBack m₁.toMachine m₂.toMachine → ∃ m₃, BootRun img m₀ m₁ m₂ m₃ := by
  obtain ⟨m₁, heval, hat⟩ := eval_memInit hpc
  exact ⟨m₁, heval, hat, fun m₂ hback => ⟨_, hpc, heval, hback, eval_kernelMain hat hback⟩⟩

/-- The machine at the call of `kernel_main`. -/
structure AtKernelMain (img : Image) (m₂ m₃ : BootMachine) : Prop where
  pc : m₃.pc = img.kernelMain
  sp : m₃.x Reg.sp = img.stackTop
  others : ∀ r, r ≠ Reg.ra → m₃.x r = m₂.x r

section Run
variable (h : BootRun img m₀ m₁ m₂ m₃)
include h

theorem BootRun.atMemInit : AtMemInit img m₀ m₁ := by
  obtain ⟨m, heval, hat⟩ := eval_memInit h.start
  rwa [Part.mem_unique h.toMemInit heval]

theorem BootRun.atKernelMain : AtKernelMain img m₂ m₃ := by
  have hat := h.atMemInit
  have hsp : m₂.x Reg.sp = img.stackTop := (h.memInit.saved Reg.sp (by decide)).trans hat.sp
  obtain rfl := Part.mem_unique h.toKernelMain (eval_kernelMain hat h.memInit)
  exact ⟨rfl, (m₂.load_other _ _ _ (by decide)).trans hsp, fun r hr => m₂.load_other _ _ _ hr⟩

/-- The assembly keeps the hart id up to `mem_init` and from it on. -/
theorem BootRun.hart_id : m₃.x Reg.a0 = m₀.x Reg.a0 ↔ m₂.x Reg.a0 = m₁.x Reg.a0 := by
  have hbefore : m₁.x Reg.a0 = m₀.x Reg.a0 := h.atMemInit.others Reg.a0 (by decide)
  have hbehind : m₃.x Reg.a0 = m₂.x Reg.a0 := h.atKernelMain.others Reg.a0 (by decide)
  rw [hbehind, hbefore]

end Run

/-- **The hart id.** Every start calls `kernel_main`, whatever `mem_init` does as the
calling convention permits; with the hart id of `_start` exactly if `mem_init` leaves `a0`
as it was at its call. -/
theorem hart_id_iff (hpc : m₀.pc = img.addr start) :
    ∃ m₁, m₁ ∈ eval img.step m₀ ∧ m₁.pc = img.memInit ∧
      ∀ m₂ : BootMachine, CameBack m₁.toMachine m₂.toMachine →
        ∃ m₃, BootRun img m₀ m₁ m₂ m₃ ∧ m₃.pc = img.kernelMain ∧
          (m₃.x Reg.a0 = m₀.x Reg.a0 ↔ m₂.x Reg.a0 = m₁.x Reg.a0) := by
  obtain ⟨m₁, heval, hat, hruns⟩ := boot_runs hpc
  refine ⟨m₁, heval, hat.pc, fun m₂ hback => ?_⟩
  obtain ⟨m₃, hrun⟩ := hruns m₂ hback
  exact ⟨m₃, hrun, hrun.atKernelMain.pc, hrun.hart_id⟩

end Calls

/-! ### A start on the second hart -/

def usualAddr (i : Nat) : Word := 0x80200000 + BitVec.ofNat 64 (4 * i)

theorem usualAddr_toNat {i : Nat} (hi : i < 32) : (usualAddr i).toNat = 0x80200000 + 4 * i := by
  rw [usualAddr, BitVec.toNat_add, BitVec.toNat_ofNat, Nat.mod_eq_of_lt (show 4 * i < 2 ^ 64 by omega)]
  exact Nat.mod_eq_of_lt (show 0x80200000 + 4 * i < 2 ^ 64 by omega)

theorem usualAddr_apart (i : Nat) (hi : i < 32) (j : Nat) (hj : j < 32) (h : usualAddr i = usualAddr j) : i = j := by
  have hnat := congrArg BitVec.toNat h
  rw [usualAddr_toNat hi, usualAddr_toNat hj] at hnat
  omega

theorem usualAddr_external (i : Nat) (hi : i < 32) : usualAddr i ≠ 0x80202000 ∧ usualAddr i ≠ 0x80203000 := by
  refine ⟨fun h => ?_, fun h => ?_⟩ <;>
  · have hnat := congrArg BitVec.toNat h
    rw [usualAddr_toNat hi] at hnat
    simp at hnat
    omega

theorem usualLink_admitted : (usualLink 6600).Admitted := ⟨by decide, by decide⟩

/-- The kernel of the usual link, on QEMU. -/
def usualImage : Image where
  uartBase := 0x10000000
  objects := usualLink 6600
  trapVector := 0x80201000
  memInit := 0x80202000
  kernelMain := 0x80203000
  admitted := usualLink_admitted
  addr := usualAddr
  apart := usualAddr_apart
  external := usualAddr_external

/-- The firmware's jump to `_start` on a hart. -/
def firmware (hart : Word) : BootMachine where
  pc := usualImage.addr start
  x r := if r = Reg.a0 then hart else 0
  f := fun _ => 0
  fcsr := 0
  sepc := 0
  scause := 0
  stval := 0
  sstatus := 0x8000000200006000
  memory := fun _ => 0xff
  sie := 0x222
  sip := 0
  stvec := 0
  sent := []

theorem hart_id_first : ∃ m₁, m₁ ∈ eval usualImage.step (firmware 0) ∧ m₁.pc = usualImage.memInit ∧
    ∀ m₂ : BootMachine, CameBack m₁.toMachine m₂.toMachine →
      ∃ m₃, BootRun usualImage (firmware 0) m₁ m₂ m₃ ∧ m₃.pc = usualImage.kernelMain ∧
        (m₃.x Reg.a0 = (firmware 0).x Reg.a0 ↔ m₂.x Reg.a0 = m₁.x Reg.a0) :=
  hart_id_iff (show (firmware 0).pc = usualImage.addr start from rfl)

/-- A `mem_init` that returns 0 in `a0`, as its last call may leave it, boots the second
hart as the first. -/
theorem hart_id_lost : (∃ m₁ m₂ m₃, BootRun usualImage (firmware 1) m₁ m₂ m₃ ∧
      (firmware 1).x Reg.a0 = 1 ∧ m₃.x Reg.a0 = 0) ∧
    ¬ ∀ img m₀ m₁ m₂ m₃, BootRun img m₀ m₁ m₂ m₃ → m₃.x Reg.a0 = m₀.x Reg.a0 := by
  have hone : (firmware 1).x Reg.a0 = 1 := by simp [firmware]
  obtain ⟨m₁, _, hat, hruns⟩ := boot_runs (show (firmware 1).pc = usualImage.addr start from rfl)
  have hsaved : ∀ r ∈ calleeSaved, r ≠ Reg.a0 := by decide
  have hback : CameBack m₁.toMachine (m₁.load Reg.a0 0 (m₁.x Reg.ra)).toMachine :=
    ⟨rfl, fun r hr => m₁.load_other _ _ _ (hsaved r hr), fun _ _ => rfl⟩
  obtain ⟨m₃, hrun⟩ := hruns _ hback
  have hzero : m₃.x Reg.a0 = 0 := (hrun.atKernelMain.others Reg.a0 (by decide)).trans (m₁.load_same _ _ _)
  refine ⟨⟨m₁, _, m₃, hrun, hone, hzero⟩, fun hall => ?_⟩
  have hkept := hall _ _ _ _ _ hrun
  rw [hzero, hone] at hkept
  exact absurd hkept (by simp)

end Testos.Boot
