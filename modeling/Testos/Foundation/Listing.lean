import Testos.Foundation.Riscv

/-! Listings, placed in memory.

A listing is instructions with the jumps between them, each of its size. Placed at an
address, it runs by the program counter: a step carries out what stands there, and
jumps go to addresses, in the listing or not. -/
namespace Testos.Foundation.Riscv

/-- `call` is the two instructions of a far call, which leave the address behind them in
`ra`; the others are one. -/
inductive Op where
  | instr (i : Instr)
  | nop
  | j (target : Word)
  | call (target : Word)
  | ret
deriving DecidableEq

def Op.size : Op → Nat
  | .call _ => 8
  | _ => 4

theorem Op.size_pos (op : Op) : 0 < op.size := by
  cases op <;> exact Nat.succ_pos _

abbrev Listing := List Op

namespace Listing

def size (l : Listing) : Nat := (l.map Op.size).sum

@[simp] theorem size_nil : size [] = 0 := rfl

@[simp] theorem size_cons (op : Op) (l : Listing) : size (op :: l) = op.size + size l := by
  simp [size]

@[simp] theorem size_append (l l' : Listing) : size (l ++ l') = size l + size l' := by
  simp [size]

/-- What stands at an offset. -/
def at? : Listing → Nat → Option Op
  | [], _ => none
  | op :: rest, n => if n = 0 then some op else if n < op.size then none else at? rest (n - op.size)

@[simp] theorem at?_zero (op : Op) (l : Listing) : at? (op :: l) 0 = some op := rfl

theorem at?_cons (op : Op) (l : Listing) (n : Nat) : at? (op :: l) (op.size + n) = at? l n := by
  have hpos := op.size_pos
  rw [at?, if_neg (by omega), if_neg (by omega), Nat.add_sub_cancel_left]

theorem at?_append (l l' : Listing) (n : Nat) : at? (l ++ l') (size l + n) = at? l' n := by
  induction l with
  | nil => rw [size_nil, Nat.zero_add, List.nil_append]
  | cons op l ih => rw [size_cons, Nat.add_assoc, List.cons_append, at?_cons, ih]

theorem size_slots (slot : Listing) (k : Nat) : size (List.replicate k slot).flatten = k * size slot := by
  induction k with
  | zero => simp
  | succ k ih => rw [List.replicate_succ, List.flatten_cons, size_append, ih, Nat.succ_mul, Nat.add_comm]

/-- A row of equal slots has the slot's first operation at each multiple of its size. -/
theorem at?_slots (op : Op) (slot rest : Listing) {i k : Nat} (h : i < k) :
    at? ((List.replicate k (op :: slot)).flatten ++ rest) (i * size (op :: slot)) = some op := by
  obtain ⟨j, rfl⟩ : ∃ j, k = i + (j + 1) := ⟨k - i - 1, by omega⟩
  rw [← List.replicate_append_replicate, List.flatten_append, List.append_assoc, ← size_slots, ← Nat.add_zero (size _),
    at?_append, List.replicate_succ, List.flatten_cons, List.append_assoc, List.cons_append, at?_zero]

end Listing

/-! ### Steps -/

/-- Carrying out an operation that stands at the program counter. -/
def Machine.perform (m : Machine) : Op → Option Machine
  | .instr i => (exec m i).map fun m' => { m' with pc := m.pc + 4 }
  | .nop => some { m with pc := m.pc + 4 }
  | .j target => some { m with pc := target }
  | .call target => some { m.setX Reg.ra (m.pc + 8) with pc := target }
  | .ret => some { m with pc := m.getX Reg.ra }

theorem perform_addi (m : Machine) {rd rs : Reg} (hrd : rd ≠ 0) (hrs : rs ≠ 0) (imm : Word) :
    m.perform (.instr (.addi rd rs imm)) =
      some { m with pc := m.pc + 4, x := Function.update m.x rd (m.x rs + imm) } := by
  rw [Machine.perform, exec, m.setX_of_ne hrd, m.getX_of_ne hrs]
  rfl

theorem perform_sd (m : Machine) {rs base : Reg} (hrs : rs ≠ 0) (hbase : base ≠ 0) (offset : Word) :
    m.perform (.instr (.sd rs offset base)) =
      some { m with pc := m.pc + 4, memory := m.memory.store64 (m.x base + offset) (m.x rs) } := by
  rw [Machine.perform, exec, m.getX_of_ne hrs, m.getX_of_ne hbase]
  rfl

theorem perform_ld (m : Machine) {rd base : Reg} (hrd : rd ≠ 0) (hbase : base ≠ 0) (offset : Word) :
    m.perform (.instr (.ld rd offset base)) =
      some { m with pc := m.pc + 4, x := Function.update m.x rd (m.memory.load64 (m.x base + offset)) } := by
  rw [Machine.perform, exec, m.setX_of_ne hrd, m.getX_of_ne hbase]
  rfl

theorem perform_call (m : Machine) (target : Word) : m.perform (.call target) =
    some { m with pc := target, x := Function.update m.x Reg.ra (m.pc + 8) } := by
  rw [Machine.perform, m.setX_of_ne (by decide)]

theorem perform_ret (m : Machine) : m.perform .ret = some { m with pc := m.x Reg.ra } := by
  rw [Machine.perform, m.getX_of_ne (by decide)]

/-- A step of a listing placed at `base`. -/
def step (l : Listing) (base : Word) (m : Machine) : Option Machine :=
  (l.at? (m.pc - base).toNat).bind m.perform

/-- So many steps. -/
def walk (l : Listing) (base : Word) : Nat → Machine → Option Machine
  | 0, m => some m
  | n + 1, m => (step l base m).bind (walk l base n)

theorem step_at {l : Listing} {base : Word} {m : Machine} {n : Nat} {op : Op} (hop : l.at? n = some op)
    (hpc : m.pc = base + BitVec.ofNat 64 n) (hn : n < 2 ^ 64) : step l base m = m.perform op := by
  have hoffset : (m.pc - base).toNat = n := by
    rw [hpc, BitVec.add_comm, BitVec.add_sub_cancel, BitVec.toNat_ofNat, Nat.mod_eq_of_lt hn]
  rw [step, hoffset, hop, Option.bind_some]

theorem walk_step {l : Listing} {base : Word} {m m₁ : Machine} {n : Nat} {op : Op} (k : Nat)
    (hop : l.at? n = some op) (hpc : m.pc = base + BitVec.ofNat 64 n) (hn : n < 2 ^ 64)
    (hperform : m.perform op = some m₁) : walk l base (k + 1) m = walk l base k m₁ := by
  rw [walk, step_at hop hpc hn, hperform, Option.bind_some]

end Testos.Foundation.Riscv
