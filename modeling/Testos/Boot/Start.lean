import Mathlib.Computability.StateTransition
import Testos.Boot.Layout
import Testos.Foundation.Riscv

/-! The start, `boot.S`.

The listing from `_start` on, with labels as places in it. It runs by the program counter,
wherever the linker put it, until that leaves it, for a C function. `reaches_memInit`:
from every machine at `_start` the assembly gets to the call of `mem_init`, with the stack
set up, `.bss` cleared and most registers as they were. -/
namespace Testos.Boot
open Foundation Riscv StateTransition

/-! ### The listing -/

/-- The CSRs that the listing writes. -/
inductive BootCsr where
  | sie
  | sip
  | stvec
deriving DecidableEq

/-- A label is a place in the listing; C functions are called by their address. -/
inductive BootOp where
  | instr (i : Instr)
  | la (rd : Reg) (symbol : Word)
  | sb (rs : Reg) (offset : Word) (base : Reg)
  | bgeu (rs rs' : Reg) (label : Nat)
  | j (label : Nat)
  | call (label : Nat)
  | callC (symbol : Word)
  | ret
  | csrw (csr : BootCsr) (rs : Reg)
  | wfi
deriving DecidableEq

/-- What the listing refers to: `UART_BASE`, the symbols of the link, and C code. -/
structure Symbols where
  uartBase : Word
  objects : Objects
  trapVector : Word
  memInit : Word
  kernelMain : Word

namespace Symbols
variable (s : Symbols)

def stackTop : Word := BitVec.ofNat 64 s.objects.stackTop

def bssStart : Word := BitVec.ofNat 64 s.objects.bssStart

def bssEnd : Word := BitVec.ofNat 64 s.objects.bssEnd

end Symbols

/-! Labels. -/

def start : Nat := 0
def halt : Nat := 9
def earlyUartInit : Nat := 11
def clearBss : Nat := 25
def bssClearLoop : Nat := 27
def bssClearDone : Nat := 31

/-- `_start`. -/
def startCode (s : Symbols) : List BootOp :=
  [.csrw .sie 0,
   .csrw .sip 0,
   .la Reg.sp s.stackTop,
   .call earlyUartInit,
   .la Reg.t0 s.trapVector,
   .csrw .stvec Reg.t0,
   .call clearBss,
   .callC s.memInit,
   .callC s.kernelMain]

/-- `halt`. -/
def haltCode : List BootOp := [.wfi, .j halt]

/-- `early_uart_init`. -/
def earlyUartInitCode (s : Symbols) : List BootOp :=
  [.instr (.li Reg.t0 s.uartBase),
   .instr (.li Reg.t1 0x42),
   .sb Reg.t1 0 Reg.t0,
   .instr (.li Reg.t1 0x6f),
   .sb Reg.t1 0 Reg.t0,
   .instr (.li Reg.t1 0x6f),
   .sb Reg.t1 0 Reg.t0,
   .instr (.li Reg.t1 0x74),
   .sb Reg.t1 0 Reg.t0,
   .instr (.li Reg.t1 0x0d),
   .sb Reg.t1 0 Reg.t0,
   .instr (.li Reg.t1 0x0a),
   .sb Reg.t1 0 Reg.t0,
   .ret]

/-- `clear_bss`. -/
def clearBssCode (s : Symbols) : List BootOp :=
  [.la Reg.t0 s.bssStart,
   .la Reg.t1 s.bssEnd,
   .bgeu Reg.t0 Reg.t1 bssClearDone,
   .instr (.sd 0 0 Reg.t0),
   .instr (.addi Reg.t0 Reg.t0 8),
   .j bssClearLoop,
   .ret]

def bootListing (s : Symbols) : List BootOp :=
  startCode s ++ haltCode ++ earlyUartInitCode s ++ clearBssCode s

/-! ### Steps -/

/-- A machine with the CSRs the listing writes, and the bytes its UART was sent. -/
structure BootMachine extends Machine where
  sie : Word
  sip : Word
  stvec : Word
  sent : List Byte

/-- The machine at `next` with a register loaded. -/
def BootMachine.load (m : BootMachine) (r : Reg) (v next : Word) : BootMachine :=
  { m with pc := next, x := Function.update m.x r v }

namespace BootMachine
variable (m : BootMachine) (r : Reg) (v next : Word)

@[simp] theorem load_same : (m.load r v next).x r = v := by simp [load]

theorem load_other {r' : Reg} (h : r' ≠ r) : (m.load r v next).x r' = m.x r' := by simp [load, h]

end BootMachine

/-- A linked kernel: where the operations of the listing are, no two in one place and none
where a C function is. -/
structure Image extends Symbols where
  admitted : objects.Admitted
  addr : Nat → Word
  apart : ∀ i < 32, ∀ j < 32, addr i = addr j → i = j
  external : ∀ i < 32, addr i ≠ memInit ∧ addr i ≠ kernelMain

namespace Image
variable (img : Image)

/-- The operation at an address, by its place. -/
def index? (pc : Word) : Option Nat := (List.range 32).find? fun i => img.addr i = pc

/-- Carrying out the operation, with the address of the next. -/
def perform (next : Word) (m : BootMachine) : BootOp → Option BootMachine
  | .instr i => (exec m.toMachine i).map fun m' => { m with toMachine := { m' with pc := next } }
  | .la rd symbol => some { m with toMachine := { m.setX rd symbol with pc := next } }
  | .sb rs offset base =>
    if m.getX base + offset = img.uartBase then
      some { m with pc := next, sent := m.sent ++ [(m.getX rs).setWidth 8] }
    else some { m with pc := next, memory := m.memory.store (m.getX base + offset) ((m.getX rs).setWidth 8) }
  | .bgeu rs rs' label => some { m with pc := if m.getX rs' ≤ m.getX rs then img.addr label else next }
  | .j label => some { m with pc := img.addr label }
  | .call label => some { m with toMachine := { m.setX Reg.ra next with pc := img.addr label } }
  | .callC symbol => some { m with toMachine := { m.setX Reg.ra next with pc := symbol } }
  | .ret => some { m with pc := m.getX Reg.ra }
  | .csrw .sie rs => some { m with pc := next, sie := m.getX rs }
  | .csrw .sip rs => some { m with pc := next, sip := m.getX rs }
  | .csrw .stvec rs => some { m with pc := next, stvec := m.getX rs }
  | .wfi => some { m with pc := next }

/-- A step, unless the program counter has left the listing. -/
def step (m : BootMachine) : Option BootMachine :=
  (img.index? m.pc).bind fun i => ((bootListing img.toSymbols)[i]?).bind (img.perform (img.addr (i + 1)) m)

end Image

section Steps
variable {img : Image} {m m' : BootMachine} {i : Nat} {op : BootOp}

theorem index?_addr (hi : i < 32) : img.index? (img.addr i) = some i := by
  rw [Image.index?, List.find?_range_eq_some]
  refine ⟨by simp, List.mem_range.mpr hi, fun j hj => ?_⟩
  have hne : img.addr j ≠ img.addr i := fun h => Nat.ne_of_lt hj (img.apart j (by omega) i hi h)
  simpa using hne

/-- A step of an operation of the listing. -/
theorem step_addr (hop : (bootListing img.toSymbols)[i]? = some op) (hpc : m.pc = img.addr i) :
    img.step m = img.perform (img.addr (i + 1)) m op := by
  have hi : i < 32 := (List.getElem?_eq_some_iff.mp hop).1
  rw [Image.step, hpc, index?_addr hi, Option.bind_some, hop, Option.bind_some]

/-- One step and any more. -/
theorem reaches_step {m₁ : BootMachine} (hop : (bootListing img.toSymbols)[i]? = some op)
    (hpc : m.pc = img.addr i) (hperform : img.perform (img.addr (i + 1)) m op = some m₁)
    (h : Reaches img.step m₁ m') : Reaches img.step m m' :=
  .head ((step_addr hop hpc).trans hperform) h

/-- At a C function the listing is left. -/
theorem step_external (hpc : m.pc = img.memInit ∨ m.pc = img.kernelMain) : img.step m = none := by
  have hnone : img.index? m.pc = none := by
    rw [Image.index?, List.find?_eq_none]
    intro i hi
    obtain ⟨hmem, hkernel⟩ := img.external i (List.mem_range.mp hi)
    rcases hpc with h | h <;> simp [h, hmem, hkernel]
  rw [Image.step, hnone, Option.bind_none]

/-! What the operations that load a register do. -/

theorem perform_li {r : Reg} (hr : r ≠ 0) (v next : Word) :
    img.perform next m (.instr (.li r v)) = some (m.load r v next) := by
  rw [Image.perform, exec, m.setX_of_ne hr]
  rfl

theorem perform_la {r : Reg} (hr : r ≠ 0) (v next : Word) :
    img.perform next m (.la r v) = some (m.load r v next) := by
  rw [Image.perform, m.setX_of_ne hr]
  rfl

theorem perform_call (label : Nat) (next : Word) :
    img.perform next m (.call label) = some (m.load Reg.ra next (img.addr label)) := by
  rw [Image.perform, m.setX_of_ne (show Reg.ra ≠ 0 by decide)]
  rfl

theorem perform_callC (symbol next : Word) :
    img.perform next m (.callC symbol) = some (m.load Reg.ra next symbol) := by
  rw [Image.perform, m.setX_of_ne (show Reg.ra ≠ 0 by decide)]
  rfl

end Steps

/-! ### `early_uart_init` -/

/-- Characters sent one by one. -/
def sends (text : List Byte) : List BootOp :=
  text.flatMap fun c => [.instr (.li Reg.t1 (c.setWidth 64)), .sb Reg.t1 0 Reg.t0]

/-- `Boot\r\n`. -/
def bootText : List Byte := [0x42, 0x6f, 0x6f, 0x74, 0x0d, 0x0a]

theorem bootListing_sends (s : Symbols) : bootListing s =
    (startCode s ++ haltCode ++ [.instr (.li Reg.t0 s.uartBase)]) ++ (sends bootText ++ .ret :: clearBssCode s) := rfl

section Routines
variable {img : Image}

/-- A character stored at the UART's address is sent. -/
theorem perform_send {m : BootMachine} {c : Byte} (ht0 : m.x Reg.t0 = img.uartBase)
    (ht1 : m.x Reg.t1 = c.setWidth 64) (next : Word) :
    img.perform next m (.sb Reg.t1 0 Reg.t0) = some { m with pc := next, sent := m.sent ++ [c] } := by
  have hbase : m.getX Reg.t0 + 0 = img.uartBase := by
    rw [Machine.getX_of_ne _ (by decide), ht0]
    exact BitVec.add_zero _
  have hchar : (m.getX Reg.t1).setWidth 8 = c := by
    rw [Machine.getX_of_ne _ (by decide), ht1]
    simp
  rw [Image.perform, if_pos hbase, hchar]

theorem reaches_sends {text : List Byte} {m : BootMachine} {i : Nat}
    (hcode : ∀ k op, (sends text)[k]? = some op → (bootListing img.toSymbols)[i + k]? = some op)
    (hpc : m.pc = img.addr i) (ht0 : m.x Reg.t0 = img.uartBase) :
    ∃ v, Reaches img.step m
      { m.load Reg.t1 v (img.addr (i + (sends text).length)) with sent := m.sent ++ text } := by
  have hne : Reg.t0 ≠ Reg.t1 := by decide
  induction text generalizing m i with
  | nil =>
    refine ⟨m.x Reg.t1, ?_⟩
    simp only [BootMachine.load, Function.update_eq_self, List.append_nil]
    show Reaches img.step m { m with pc := img.addr i }
    rw [← hpc]
    exact .refl
  | cons c text ih =>
    let m₁ := m.load Reg.t1 (c.setWidth 64) (img.addr (i + 1))
    let m₂ : BootMachine := { m₁ with pc := img.addr (i + 1 + 1), sent := m.sent ++ [c] }
    have hbase : m₁.x Reg.t0 = img.uartBase := (m.load_other _ _ _ hne).trans ht0
    have hrest : ∀ k op, (sends text)[k]? = some op → (bootListing img.toSymbols)[i + 1 + 1 + k]? = some op := by
      intro k op hop
      have hat : i + 1 + 1 + k = i + (k + 2) := by omega
      rw [hat]
      exact hcode (k + 2) op hop
    obtain ⟨v, hv⟩ := ih (m := m₂) hrest rfl hbase
    have hlast : i + (sends (c :: text)).length = i + 1 + 1 + (sends text).length := by
      simp only [sends, List.flatMap_cons, List.length_append, List.length_cons, List.length_nil]
      omega
    have hmachine : { m.load Reg.t1 v (img.addr (i + 1 + 1 + (sends text).length)) with sent := m.sent ++ (c :: text) } =
        ({ m₂.load Reg.t1 v (img.addr (i + 1 + 1 + (sends text).length)) with sent := m₂.sent ++ text } : BootMachine) := by
      simp [m₂, m₁, BootMachine.load]
    refine ⟨v, ?_⟩
    rw [hlast, hmachine]
    exact reaches_step (hcode 0 _ rfl) hpc (perform_li (by decide) _ _)
      (reaches_step (hcode 1 _ rfl) rfl (perform_send hbase (m.load_same _ _ _) _) hv)

/-- `early_uart_init` sends its text and spoils two registers. -/
theorem reaches_earlyUartInit {m : BootMachine} (hpc : m.pc = img.addr earlyUartInit) :
    ∃ v, Reaches img.step m
      { (m.load Reg.t0 img.uartBase (m.x Reg.ra)).load Reg.t1 v (m.x Reg.ra) with sent := m.sent ++ bootText } := by
  let m₁ := m.load Reg.t0 img.uartBase (img.addr (11 + 1))
  have hcode : ∀ k op, (sends bootText)[k]? = some op → (bootListing img.toSymbols)[12 + k]? = some op := by
    intro k op hop
    have hk : k < (sends bootText).length := (List.getElem?_eq_some_iff.mp hop).1
    rw [bootListing_sends, List.getElem?_append_right (Nat.le_add_right 12 k)]
    show (sends bootText ++ .ret :: clearBssCode img.toSymbols)[12 + k - 12]? = _
    rw [Nat.add_sub_cancel_left, List.getElem?_append_left hk, hop]
  obtain ⟨v, hsends⟩ := reaches_sends (m := m₁) hcode rfl (m.load_same _ _ _)
  refine ⟨v, reaches_step (i := 11) rfl hpc (perform_li (by decide) _ _) (hsends.trans ?_)⟩
  refine reaches_step (i := 24) rfl rfl ?_ .refl
  have hra : (m₁.load Reg.t1 v (img.addr 24)).getX Reg.ra = m.x Reg.ra := by
    rw [Machine.getX_of_ne _ (by decide), BootMachine.load_other _ _ _ _ (by decide),
      BootMachine.load_other _ _ _ _ (by decide)]
  show some { m₁.load Reg.t1 v (img.addr 24) with
    pc := (m₁.load Reg.t1 v (img.addr 24)).getX Reg.ra, sent := m.sent ++ bootText } = _
  rw [hra]
  rfl

/-! ### `clear_bss` -/

/-- The linker ends `.bss` some doublewords behind its start, far below the top of the
address space. -/
theorem bss_doublewords (img : Image) :
    (∃ k, img.objects.bssEnd = img.objects.bssStart + 8 * k) ∧ img.objects.bssEnd ≤ 0x8e000000 := by
  have hstart : 8 ∣ img.objects.bssStart := (roundUp_bounds _ (by decide)).2.2
  have hend : 8 ∣ img.objects.bssEnd := (roundUp_bounds _ (by decide)).2.2
  have hle : img.objects.bssStart ≤ img.objects.bssEnd :=
    Nat.le_trans (placeAll_ge _ _) (roundUp_bounds _ (by decide)).1
  refine ⟨⟨(img.objects.bssEnd - img.objects.bssStart) / 8, ?_⟩, img.admitted.memory⟩
  omega

/-- The end of `.bss`, from `i` doublewords behind the start. -/
theorem bssEnd_eq (img : Image) {i k : Nat} (hk : img.objects.bssEnd = img.objects.bssStart + 8 * (i + k)) :
    img.bssEnd = img.bssStart + BitVec.ofNat 64 (8 * i) + BitVec.ofNat 64 (8 * k) := by
  rw [Symbols.bssEnd, Symbols.bssStart, hk, Nat.mul_add, ← Nat.add_assoc, BitVec.ofNat_add, BitVec.ofNat_add]

section Loop
variable {i k : Nat} (hk : img.objects.bssEnd = img.objects.bssStart + 8 * (i + k)) {m : BootMachine}
  (ht1 : m.x Reg.t1 = img.bssEnd) (ht0 : m.x Reg.t0 = img.bssStart + BitVec.ofNat 64 (8 * i))
include hk ht1 ht0

/-- The loop ends where there are no doublewords left. -/
theorem bssClearLoop_ends : m.getX Reg.t1 ≤ m.getX Reg.t0 ↔ k = 0 := by
  obtain ⟨_, hlt⟩ := bss_doublewords img
  have hend : img.bssEnd.toNat = img.objects.bssEnd := by
    rw [Symbols.bssEnd, BitVec.toNat_ofNat, Nat.mod_eq_of_lt (by omega)]
  have hat : (img.bssStart + BitVec.ofNat 64 (8 * i)).toNat = img.objects.bssStart + 8 * i := by
    rw [Symbols.bssStart, ← BitVec.ofNat_add, BitVec.toNat_ofNat, Nat.mod_eq_of_lt (by omega)]
  rw [m.getX_of_ne (by decide), m.getX_of_ne (by decide), ht1, ht0, BitVec.le_def, hend, hat]
  omega

/-- One doubleword. -/
theorem reaches_bssClearPass (hpc : m.pc = img.addr bssClearLoop) (hmore : k ≠ 0) :
    Reaches img.step m
      { m.load Reg.t0 (m.x Reg.t0 + 8) (img.addr bssClearLoop) with memory := m.memory.fill (m.x Reg.t0) 0 8 } := by
  have hread : m.getX Reg.t0 = m.x Reg.t0 := m.getX_of_ne (by decide)
  let m₁ : BootMachine := { m with pc := img.addr 28 }
  let m₂ : BootMachine := { m with pc := img.addr 29, memory := m.memory.fill (m.x Reg.t0) 0 8 }
  let m₃ := m₂.load Reg.t0 (m.x Reg.t0 + 8) (img.addr 30)
  have hbgeu : img.perform (img.addr 28) m (.bgeu Reg.t0 Reg.t1 bssClearDone) = some m₁ := by
    rw [Image.perform, if_neg fun h => hmore ((bssClearLoop_ends hk ht1 ht0).mp h)]
  have hsd : img.perform (img.addr 29) m₁ (.instr (.sd 0 0 Reg.t0)) = some m₂ := by
    have hzero : m.memory.store64 (m.getX Reg.t0 + 0) (m.getX 0) = m.memory.fill (m.x Reg.t0) 0 8 := by
      rw [hread, ← Memory.store64_zero]
      exact congrArg (m.memory.store64 · 0) (BitVec.add_zero _)
    show some { m with pc := img.addr 29, memory := m.memory.store64 (m.getX Reg.t0 + 0) (m.getX 0) } = _
    rw [hzero]
  have haddi : img.perform (img.addr 30) m₂ (.instr (.addi Reg.t0 Reg.t0 8)) = some m₃ := by
    rw [Image.perform, exec, m₂.setX_of_ne (by decide), m₂.getX_of_ne (by decide)]
    rfl
  exact reaches_step (i := 27) rfl hpc hbgeu (reaches_step (i := 28) rfl rfl hsd
    (reaches_step (i := 29) rfl rfl haddi (reaches_step (i := 30) rfl rfl rfl .refl)))

/-- The loop, with `i` doublewords cleared and `k` to clear. -/
theorem reaches_bssClearLoop (hpc : m.pc = img.addr bssClearLoop) :
    Reaches img.step m
      { m.load Reg.t0 img.bssEnd (img.addr bssClearDone) with
        memory := m.memory.fill (m.x Reg.t0) 0 (8 * k) } := by
  induction k generalizing i m with
  | zero =>
    have hstop : img.perform (img.addr 28) m (.bgeu Reg.t0 Reg.t1 bssClearDone) =
        some { m with pc := img.addr bssClearDone } := by
      rw [Image.perform, if_pos ((bssClearLoop_ends hk ht1 ht0).mpr rfl)]
    have hend : m.x Reg.t0 = img.bssEnd := by
      rw [bssEnd_eq img hk, ht0]
      exact (BitVec.add_zero _).symm
    refine reaches_step (i := 27) rfl hpc hstop ?_
    simp only [BootMachine.load, ← hend, Function.update_eq_self]
    exact .refl
  | succ k ih =>
    let m₁ : BootMachine :=
      { m.load Reg.t0 (m.x Reg.t0 + 8) (img.addr bssClearLoop) with memory := m.memory.fill (m.x Reg.t0) 0 8 }
    have hbase : m₁.x Reg.t0 = m.x Reg.t0 + 8 := m.load_same Reg.t0 _ (img.addr bssClearLoop)
    have hend : m₁.x Reg.t1 = img.bssEnd :=
      (m.load_other Reg.t0 (m.x Reg.t0 + 8) (img.addr bssClearLoop) (by decide)).trans ht1
    have hnext : m₁.x Reg.t0 = img.bssStart + BitVec.ofNat 64 (8 * (i + 1)) := by
      rw [Nat.mul_add, BitVec.ofNat_add, ← BitVec.add_assoc, ← ht0]
      exact hbase
    have hfill : m₁.memory.fill (m₁.x Reg.t0) 0 (8 * k) = m.memory.fill (m.x Reg.t0) 0 (8 * (k + 1)) := by
      obtain ⟨_, hlt⟩ := bss_doublewords img
      have hmore : 8 * (k + 1) = 8 + 8 * k := by omega
      rw [hmore, ← Memory.fill_add _ _ _ (by omega) (by omega), hbase]
      rfl
    have hrest := ih (m := m₁) (i := i + 1) (by omega) hend hnext rfl
    rw [hfill] at hrest
    refine (reaches_bssClearPass hk ht1 ht0 hpc (Nat.succ_ne_zero k)).trans (hrest.trans ?_)
    simp only [m₁, BootMachine.load, Function.update_idem]
    exact .refl

end Loop

/-- `clear_bss` clears `.bss` and spoils two registers. -/
theorem reaches_clearBss {m : BootMachine} (hpc : m.pc = img.addr clearBss) :
    Reaches img.step m
      { (m.load Reg.t0 img.bssEnd (m.x Reg.ra)).load Reg.t1 img.bssEnd (m.x Reg.ra) with
        memory := m.memory.fill img.bssStart 0 (img.objects.bssEnd - img.objects.bssStart) } := by
  obtain ⟨⟨k, hk⟩, _⟩ := bss_doublewords img
  have hcount : img.objects.bssEnd - img.objects.bssStart = 8 * k := by omega
  let m₁ := m.load Reg.t0 img.bssStart (img.addr 26)
  let m₂ := m₁.load Reg.t1 img.bssEnd (img.addr bssClearLoop)
  have ht0 : m₂.x Reg.t0 = img.bssStart := by
    rw [BootMachine.load_other _ _ _ _ (by decide), BootMachine.load_same]
  have hloop := reaches_bssClearLoop (i := 0) (k := k) (m := m₂) (by rw [hk, Nat.zero_add])
    (m₁.load_same _ _ _) (ht0.trans (BitVec.add_zero _).symm) rfl
  rw [ht0, ← hcount] at hloop
  refine reaches_step (i := 25) rfl hpc (perform_la (by decide) _ _)
    (reaches_step (i := 26) rfl rfl (perform_la (by decide) _ _) (hloop.trans ?_))
  refine reaches_step (i := 31) rfl rfl ?_ .refl
  have hra : (m₂.load Reg.t0 img.bssEnd (img.addr bssClearDone)).getX Reg.ra = m.x Reg.ra := by
    rw [Machine.getX_of_ne _ (by decide), BootMachine.load_other _ _ _ _ (by decide),
      BootMachine.load_other _ _ _ _ (by decide), BootMachine.load_other _ _ _ _ (by decide)]
  have hx : (m₂.load Reg.t0 img.bssEnd (img.addr bssClearDone)).x =
      ((m.load Reg.t0 img.bssEnd (m.x Reg.ra)).load Reg.t1 img.bssEnd (m.x Reg.ra)).x := by
    simp only [m₂, m₁, BootMachine.load]
    rw [Function.update_comm (by decide), Function.update_idem]
  show some { m₂.load Reg.t0 img.bssEnd (img.addr bssClearDone) with
    pc := (m₂.load Reg.t0 img.bssEnd (img.addr bssClearDone)).getX Reg.ra
    x := (m₂.load Reg.t0 img.bssEnd (img.addr bssClearDone)).x
    memory := m₂.memory.fill img.bssStart 0 (img.objects.bssEnd - img.objects.bssStart) } = _
  rw [hra, hx]
  rfl

end Routines

/-! ### `_start` -/

/-- The machine at the call of `mem_init`, from that at `_start`. -/
structure AtMemInit (img : Image) (m m₁ : BootMachine) : Prop where
  pc : m₁.pc = img.memInit
  ra : m₁.x Reg.ra = img.addr 8
  sp : m₁.x Reg.sp = img.stackTop
  others : ∀ r ∉ [Reg.ra, Reg.sp, Reg.t0, Reg.t1], m₁.x r = m.x r
  memory : m₁.memory = m.memory.fill img.bssStart 0 (img.objects.bssEnd - img.objects.bssStart)
  interrupts : m₁.sie = 0 ∧ m₁.sip = 0
  stvec : m₁.stvec = img.trapVector
  sent : m₁.sent = m.sent ++ bootText

section Start
variable {img : Image} {m : BootMachine}

/-- Up to the return of `early_uart_init`. -/
theorem reaches_uartReady (hpc : m.pc = img.addr start) :
    ∃ m₁, Reaches img.step m m₁ ∧ m₁.pc = img.addr 4 ∧ m₁.x Reg.sp = img.stackTop ∧
      (∀ r ∉ [Reg.ra, Reg.sp, Reg.t0, Reg.t1], m₁.x r = m.x r) ∧ m₁.memory = m.memory ∧
      (m₁.sie = 0 ∧ m₁.sip = 0) ∧ m₁.sent = m.sent ++ bootText := by
  let a : BootMachine := { m with pc := img.addr 2, sie := 0, sip := 0 }
  let b := a.load Reg.sp img.stackTop (img.addr 3)
  let c := b.load Reg.ra (img.addr 4) (img.addr earlyUartInit)
  obtain ⟨v, hinit⟩ := reaches_earlyUartInit (show c.pc = img.addr earlyUartInit from rfl)
  have hra : c.x Reg.ra = img.addr 4 := b.load_same _ _ _
  refine ⟨_, reaches_step (i := 0) rfl hpc rfl (reaches_step (i := 1) rfl rfl rfl
    (reaches_step (i := 2) rfl rfl (perform_la (by decide) _ _)
      (reaches_step (i := 3) rfl rfl (perform_call _ _) hinit))), hra, ?_, fun r hr => ?_, rfl, ⟨rfl, rfl⟩, rfl⟩
  · show ((c.load Reg.t0 img.uartBase (c.x Reg.ra)).load Reg.t1 v (c.x Reg.ra)).x Reg.sp = _
    simp +decide [BootMachine.load_other, c, b]
  · have hne : r ≠ Reg.ra ∧ r ≠ Reg.sp ∧ r ≠ Reg.t0 ∧ r ≠ Reg.t1 := by simpa using hr
    show ((c.load Reg.t0 img.uartBase (c.x Reg.ra)).load Reg.t1 v (c.x Reg.ra)).x r = _
    simp [BootMachine.load_other, c, b, a, hne]

/-- Up to the call of `mem_init`. -/
theorem reaches_memInit (hpc : m.pc = img.addr start) : ∃ m₁, Reaches img.step m m₁ ∧ AtMemInit img m m₁ := by
  obtain ⟨a, hready, hat, hsp, hothers, hmemory, hinterrupts, hsent⟩ := reaches_uartReady hpc
  let b := a.load Reg.t0 img.trapVector (img.addr 5)
  let c : BootMachine := { b with pc := img.addr 6, stvec := img.trapVector }
  let d := c.load Reg.ra (img.addr 7) (img.addr clearBss)
  have hcsrw : img.perform (img.addr 6) b (.csrw .stvec Reg.t0) = some c := by
    have hread : b.getX Reg.t0 = img.trapVector := (b.getX_of_ne (by decide)).trans (a.load_same _ _ _)
    rw [Image.perform, hread]
  have hclear := reaches_clearBss (show d.pc = img.addr clearBss from rfl)
  have hra : d.x Reg.ra = img.addr 7 := c.load_same _ _ _
  let e : BootMachine :=
    { (d.load Reg.t0 img.bssEnd (d.x Reg.ra)).load Reg.t1 img.bssEnd (d.x Reg.ra) with
      memory := d.memory.fill img.bssStart 0 (img.objects.bssEnd - img.objects.bssStart) }
  have hothers' : ∀ r ∉ [Reg.ra, Reg.t0, Reg.t1], e.x r = a.x r := by
    intro r hr
    have hne : r ≠ Reg.ra ∧ r ≠ Reg.t0 ∧ r ≠ Reg.t1 := by simpa using hr
    show ((d.load Reg.t0 img.bssEnd (d.x Reg.ra)).load Reg.t1 img.bssEnd (d.x Reg.ra)).x r = _
    simp [BootMachine.load_other, d, c, b, hne]
  refine ⟨e.load Reg.ra (img.addr 8) img.memInit, hready.trans (reaches_step (i := 4) rfl hat (perform_la (by decide) _ _)
    (reaches_step (i := 5) rfl rfl hcsrw (reaches_step (i := 6) rfl rfl (perform_call _ _)
      (hclear.trans (reaches_step (i := 7) rfl hra (perform_callC _ _) .refl))))), ?_⟩
  refine ⟨rfl, e.load_same _ _ _, ?_, fun r hr => ?_, ?_, hinterrupts, rfl, hsent⟩
  · rw [e.load_other _ _ _ (by decide), hothers' _ (by decide), hsp]
  · have hne : r ≠ Reg.ra ∧ r ≠ Reg.sp ∧ r ≠ Reg.t0 ∧ r ≠ Reg.t1 := by simpa using hr
    rw [e.load_other _ _ _ hne.1, hothers' r (by simp [hne]), hothers r hr]
  · exact congrArg (Memory.fill · img.bssStart 0 _) hmemory

end Start

end Testos.Boot
