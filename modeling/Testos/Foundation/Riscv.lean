import Mathlib.Logic.Function.Basic
import Testos.Foundation.Run
import Testos.Foundation.Slots

/-! RISC-V, as far as a trap handler written in assembly needs it.

The integer and floating-point registers, the supervisor's trap CSRs, memory, and the
straight-line instructions that move between them. An instruction that uses the FPU
while `sstatus.FS` is off is illegal: `none`. The values of a CSR are those it can
hold, so that writing back what was read restores it. The last sections say what a
row of stores or loads does: slot `i` at the base register, or register `r`, gets what
the row has last for it. -/
namespace Testos.Foundation.Riscv

/-- The number of a register. -/
abbrev Reg := Fin 32

/-- Register numerals. -/
instance reg_neZero : NeZero 32 := ⟨by decide⟩

namespace Reg

def ra : Reg := 1
def sp : Reg := 2
def t0 : Reg := 5
def t1 : Reg := 6
def a0 : Reg := 10
def a1 : Reg := 11
def a2 : Reg := 12
def a3 : Reg := 13
def a4 : Reg := 14
def a5 : Reg := 15
def a7 : Reg := 17

end Reg

inductive Csr where
  | sepc
  | scause
  | stval
  | sstatus
  | fcsr
deriving DecidableEq

inductive Instr where
  | addi (rd rs : Reg) (imm : Word)
  | mv (rd rs : Reg)
  | li (rd : Reg) (imm : Word)
  | sd (rs : Reg) (offset : Word) (base : Reg)
  | ld (rd : Reg) (offset : Word) (base : Reg)
  | fsd (fs : Reg) (offset : Word) (base : Reg)
  | fld (fd : Reg) (offset : Word) (base : Reg)
  | csrr (rd : Reg) (csr : Csr)
  | csrw (csr : Csr) (rs : Reg)
deriving DecidableEq

/-- `x 0` is never looked at; `fcsr` has eight bits. -/
structure Machine where
  pc : Word
  x : Reg → Word
  f : Reg → Word
  fcsr : Byte
  sepc : Word
  scause : Word
  stval : Word
  sstatus : Word
  memory : Memory

/-! ### `sstatus` -/

/-- The field `FS`: 0 is off and 3 dirty. -/
def fs (sstatus : Word) : BitVec 2 := sstatus.extractLsb' 13 2

/-- An instruction that writes the FPU's state sets `FS` to dirty. -/
def dirty (sstatus : Word) : Word := sstatus ||| 0x6000

/-- Taking a trap in supervisor mode: `SPIE` gets `SIE`, `SIE` is cleared, `SPP` is set. -/
def enter (sstatus : Word) : Word :=
  (sstatus &&& ~~~0x122) ||| (if sstatus.getLsbD 1 then 0x20 else 0) ||| 0x100

/-- Returning from it: `SIE` gets `SPIE`, `SPIE` is set, `SPP` is cleared. -/
def leave (sstatus : Word) : Word :=
  (sstatus &&& ~~~0x122) ||| (if sstatus.getLsbD 5 then 0x2 else 0) ||| 0x20

theorem dirty_of_fs {sstatus : Word} (h : fs sstatus = 3) : dirty sstatus = sstatus := by
  apply BitVec.eq_of_getLsbD_eq
  intro i hi
  rw [dirty, BitVec.getLsbD_or]
  have hbit (j : Nat) (hj : j < 2) : sstatus.getLsbD (13 + j) = true := by
    have := congrArg (fun v : BitVec 2 => v.getLsbD j) h
    simp only [fs, BitVec.getLsbD_extractLsb', decide_eq_true hj, Bool.true_and] at this
    have hthree : ∀ j < 2, (3 : BitVec 2).getLsbD j = true := by decide
    rw [this, hthree j hj]
  by_cases h13 : i = 13
  · rw [h13, hbit 0 (by decide), Bool.true_or]
  · by_cases h14 : i = 14
    · rw [h14, hbit 1 (by decide), Bool.true_or]
    · have hmask : ∀ i < 64, i ≠ 13 → i ≠ 14 → (0x6000 : Word).getLsbD i = false := by decide
      rw [hmask i hi h13 h14, Bool.or_false]

/-- A trap and its return leave all but `SPIE` and `SPP` alone. -/
theorem leave_enter (sstatus : Word) {i : Nat} (h5 : i ≠ 5) (h8 : i ≠ 8) :
    (leave (enter sstatus)).getLsbD i = sstatus.getLsbD i := by
  by_cases hi : i < 64
  · have hmask : ∀ i < 64, i ≠ 1 → i ≠ 5 → i ≠ 8 → (~~~0x122 : Word).getLsbD i = true := by decide
    have hspie : ∀ i < 64, i ≠ 5 → (0x20 : Word).getLsbD i = false := by decide
    have hspp : ∀ i < 64, i ≠ 8 → (0x100 : Word).getLsbD i = false := by decide
    have hsie : ∀ i < 64, i ≠ 1 → (0x2 : Word).getLsbD i = false := by decide
    have hsaved : (enter sstatus).getLsbD 5 = sstatus.getLsbD 1 := by
      simp only [enter, BitVec.getLsbD_or, BitVec.getLsbD_and]
      cases sstatus.getLsbD 1 <;> cases sstatus.getLsbD 5 <;> rfl
    simp only [leave, BitVec.getLsbD_or, BitVec.getLsbD_and, hsaved, hspie i hi h5, Bool.or_false]
    by_cases h1 : i = 1
    · subst h1
      cases sstatus.getLsbD 1 <;> cases (enter sstatus).getLsbD 1 <;> rfl
    · have hclear : (if sstatus.getLsbD 1 = true then (0x2 : Word) else 0).getLsbD i = false := by
        split
        · exact hsie i hi h1
        · exact BitVec.getLsbD_zero
      have hclear' : (if sstatus.getLsbD 1 = true then (0x20 : Word) else 0).getLsbD i = false := by
        split
        · exact hspie i hi h5
        · exact BitVec.getLsbD_zero
      rw [hclear, Bool.or_false, hmask i hi h1 h5 h8, Bool.and_true]
      simp only [enter, BitVec.getLsbD_or, BitVec.getLsbD_and, hclear', hspp i hi h8,
        hmask i hi h1 h5 h8, Bool.and_true, Bool.or_false]
  · rw [BitVec.getLsbD_of_ge _ _ (by omega), BitVec.getLsbD_of_ge _ _ (by omega)]

namespace Machine

def getX (m : Machine) (r : Reg) : Word := if r = 0 then 0 else m.x r

def setX (m : Machine) (r : Reg) (v : Word) : Machine :=
  if r = 0 then m else { m with x := Function.update m.x r v }

theorem getX_of_ne (m : Machine) {r : Reg} (h : r ≠ 0) : m.getX r = m.x r := if_neg h

theorem setX_of_ne (m : Machine) {r : Reg} (h : r ≠ 0) (v : Word) :
    m.setX r v = { m with x := Function.update m.x r v } := if_neg h

def readCsr (m : Machine) : Csr → Option Word
  | .sepc => some m.sepc
  | .scause => some m.scause
  | .stval => some m.stval
  | .sstatus => some m.sstatus
  | .fcsr => if fs m.sstatus = 0 then none else some (m.fcsr.setWidth 64)

def writeCsr (m : Machine) (v : Word) : Csr → Option Machine
  | .sepc => some { m with sepc := v }
  | .scause => some { m with scause := v }
  | .stval => some { m with stval := v }
  | .sstatus => some { m with sstatus := v }
  | .fcsr =>
    if fs m.sstatus = 0 then none
    else some { m with fcsr := v.setWidth 8, sstatus := dirty m.sstatus }

theorem readCsr_fcsr {m : Machine} (h : fs m.sstatus = 3) :
    m.readCsr .fcsr = some (m.fcsr.setWidth 64) := by
  rw [readCsr, h, if_neg (by decide)]

theorem writeCsr_fcsr {m : Machine} (h : fs m.sstatus = 3) (v : Word) :
    m.writeCsr v .fcsr = some { m with fcsr := v.setWidth 8 } := by
  rw [writeCsr, h, if_neg (by decide), dirty_of_fs h]

/-- The hardware's part of taking a trap; its handler runs on from here. -/
def take (m : Machine) (cause tval : Word) : Machine :=
  { m with sepc := m.pc, scause := cause, stval := tval, sstatus := enter m.sstatus }

def sret (m : Machine) : Machine := { m with pc := m.sepc, sstatus := leave m.sstatus }

end Machine

def exec (m : Machine) : Instr → Option Machine
  | .addi rd rs imm => some (m.setX rd (m.getX rs + imm))
  | .mv rd rs => some (m.setX rd (m.getX rs))
  | .li rd imm => some (m.setX rd imm)
  | .sd rs offset base =>
    some { m with memory := m.memory.store64 (m.getX base + offset) (m.getX rs) }
  | .ld rd offset base => some (m.setX rd (m.memory.load64 (m.getX base + offset)))
  | .fsd rs offset base =>
    if fs m.sstatus = 0 then none
    else some { m with memory := m.memory.store64 (m.getX base + offset) (m.f rs) }
  | .fld fd offset base =>
    if fs m.sstatus = 0 then none
    else some
      { m with
        f := Function.update m.f fd (m.memory.load64 (m.getX base + offset))
        sstatus := dirty m.sstatus }
  | .csrr rd csr => (m.readCsr csr).map (m.setX rd)
  | .csrw csr rs => m.writeCsr (m.getX rs) csr

/-! ### Registers that are kept -/

/-- The integer register an instruction writes. -/
def Instr.dest : Instr → Option Reg
  | .addi rd _ _ | .mv rd _ | .li rd _ | .ld rd _ _ | .csrr rd _ => some rd
  | .sd _ _ _ | .fsd _ _ _ | .fld _ _ _ | .csrw _ _ => none

theorem setX_keeps (m : Machine) {r rd : Reg} (h : rd ≠ r) (v : Word) : (m.setX rd v).x r = m.x r := by
  rw [Machine.setX]
  split
  · rfl
  · exact Function.update_of_ne (Ne.symm h) v m.x

theorem writeCsr_keeps {m m' : Machine} {v : Word} {csr : Csr} (h : m.writeCsr v csr = some m') : m'.x = m.x := by
  cases csr with
  | fcsr =>
    rw [Machine.writeCsr] at h
    split at h
    · cases h
    · cases h
      rfl
  | sepc | scause | stval | sstatus =>
    cases h
    rfl

theorem exec_keeps {m m' : Machine} {i : Instr} {r : Reg} (hr : i.dest ≠ some r) (h : exec m i = some m') :
    m'.x r = m.x r := by
  have hne : ∀ {rd : Reg}, some rd ≠ some r → rd ≠ r := fun hsome heq => hsome (congrArg some heq)
  cases i with
  | addi rd rs imm =>
    cases h
    exact setX_keeps m (hne hr) _
  | mv rd rs =>
    cases h
    exact setX_keeps m (hne hr) _
  | li rd imm =>
    cases h
    exact setX_keeps m (hne hr) _
  | ld rd offset base =>
    cases h
    exact setX_keeps m (hne hr) _
  | csrr rd csr =>
    obtain ⟨v, _, rfl⟩ := Option.map_eq_some_iff.mp h
    exact setX_keeps m (hne hr) v
  | sd rs offset base =>
    cases h
    rfl
  | csrw csr rs => rw [writeCsr_keeps h]
  | fsd rs offset base | fld fd offset base =>
    rw [exec] at h
    split at h
    · cases h
    · cases h
      rfl

/-- Code that does not write a register keeps it. -/
theorem run_keeps {m m' : Machine} {code : List Instr} {r : Reg} (hcode : ∀ i ∈ code, i.dest ≠ some r)
    (h : run exec m code = some m') : m'.x r = m.x r :=
  run_preserves (P := fun s => s.x r = m.x r) (Q := fun i => i.dest ≠ some r)
    (fun _ _ _ hs hi hexec => (exec_keeps hi hexec).trans hs) code m m' rfl hcode h

/-! ### Rows of stores -/

/-- The offset of a slot. -/
def slotOffset (i : Nat) : Word := BitVec.ofNat 64 (8 * i)

def stores (base : Reg) (row : List (Reg × Nat)) : List Instr :=
  row.map fun s => .sd s.1 (slotOffset s.2) base

def fstores (base : Reg) (row : List (Reg × Nat)) : List Instr :=
  row.map fun s => .fsd s.1 (slotOffset s.2) base

theorem run_stores (m : Machine) (base : Reg) (row : List (Reg × Nat)) :
    run exec m (stores base row) =
      some { m with memory := m.memory.writeSlots (m.getX base) (row.map fun s => (s.2, m.getX s.1)) } := by
  induction row generalizing m with
  | nil => rfl
  | cons s row ih => exact (run_cons _ _ _).trans (ih _)

theorem run_fstores (m : Machine) (hfs : fs m.sstatus = 3) (base : Reg) (row : List (Reg × Nat)) :
    run exec m (fstores base row) =
      some { m with memory := m.memory.writeSlots (m.getX base) (row.map fun s => (s.2, m.f s.1)) } := by
  induction row generalizing m with
  | nil => rfl
  | cons s row ih =>
    have hexec : exec m (.fsd s.1 (slotOffset s.2) base) =
        some { m with memory := m.memory.writeSlot (m.getX base) (s.2, m.f s.1) } := by
      rw [exec, hfs, if_neg (by decide)]
      rfl
    show run exec m (.fsd s.1 (slotOffset s.2) base :: fstores base row) = _
    rw [run_cons, hexec, Option.bind_some]
    exact ih _ hfs

/-! ### Rows of loads -/

def loads (base : Reg) (row : List (Reg × Nat)) : List Instr :=
  row.map fun s => .ld s.1 (slotOffset s.2) base

def floads (base : Reg) (row : List (Reg × Nat)) : List Instr :=
  row.map fun s => .fld s.1 (slotOffset s.2) base

/-- What a row finds in its slots. -/
def found (m : Machine) (base : Reg) (row : List (Reg × Nat)) : List (Reg × Word) :=
  row.map fun s => (s.1, m.memory.slot (m.getX base) s.2)

/-- A register file after writes, some of them to the same register. -/
def written (x : Reg → Word) (writes : List (Reg × Word)) (r : Reg) : Word :=
  (lastWrite writes r).getD (x r)

theorem written_cons (x : Reg → Word) (r : Reg) (v : Word) (writes : List (Reg × Word)) :
    written x ((r, v) :: writes) = written (Function.update x r v) writes := by
  funext r'
  unfold written
  rw [lastWrite]
  cases lastWrite writes r' with
  | some w => rfl
  | none =>
    by_cases h : r = r'
    · subst h
      rw [if_pos rfl, Function.update_self]
      rfl
    · rw [if_neg h, Function.update_of_ne (Ne.symm h)]
      rfl

theorem written_of_mem (x value : Reg → Word) {l : List Reg} {r : Reg} (h : r ∈ l) :
    written x (l.map fun r => (r, value r)) r = value r := by
  have hlast := lastWrite_map Function.injective_id value l r
  simp only [id] at hlast
  rw [written, hlast, if_pos h]
  rfl

theorem written_of_not_mem (x value : Reg → Word) {l : List Reg} {r : Reg} (h : r ∉ l) :
    written x (l.map fun r => (r, value r)) r = x r := by
  have hlast := lastWrite_map Function.injective_id value l r
  simp only [id] at hlast
  rw [written, hlast, if_neg h]
  rfl

/-- A row that loads neither its own base nor `x0`. -/
theorem run_loads {m : Machine} {base : Reg} (hbase : base ≠ 0) {row : List (Reg × Nat)}
    (h : ∀ s ∈ row, s.1 ≠ base ∧ s.1 ≠ 0) :
    run exec m (loads base row) = some { m with x := written m.x (found m base row) } := by
  induction row generalizing m with
  | nil => rfl
  | cons s row ih =>
    obtain ⟨hne, hzero⟩ := h s List.mem_cons_self
    have hexec : exec m (.ld s.1 (slotOffset s.2) base) =
        some { m with x := Function.update m.x s.1 (m.memory.slot (m.getX base) s.2) } := by
      rw [exec, m.setX_of_ne hzero]
      rfl
    have hkeep : Machine.getX { m with x := Function.update m.x s.1 (m.memory.slot (m.getX base) s.2) }
        base = m.getX base := by
      rw [Machine.getX_of_ne _ hbase, Machine.getX_of_ne _ hbase]
      exact Function.update_of_ne (Ne.symm hne) _ _
    show run exec m (.ld s.1 (slotOffset s.2) base :: loads base row) = _
    rw [run_cons, hexec, Option.bind_some, ih fun s' hs' => h s' (List.mem_cons_of_mem s hs')]
    simp only [found, hkeep, List.map_cons, written_cons]

theorem run_floads (m : Machine) (hfs : fs m.sstatus = 3) (base : Reg) (row : List (Reg × Nat)) :
    run exec m (floads base row) = some { m with f := written m.f (found m base row) } := by
  induction row generalizing m with
  | nil => rfl
  | cons s row ih =>
    have hexec : exec m (.fld s.1 (slotOffset s.2) base) =
        some { m with f := Function.update m.f s.1 (m.memory.slot (m.getX base) s.2) } := by
      rw [exec, hfs, if_neg (by decide), dirty_of_fs hfs]
      rfl
    show run exec m (.fld s.1 (slotOffset s.2) base :: floads base row) = _
    rw [run_cons, hexec, Option.bind_some, found, List.map_cons, written_cons]
    exact ih _ hfs

end Testos.Foundation.Riscv
