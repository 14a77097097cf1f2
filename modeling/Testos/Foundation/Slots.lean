import Testos.Foundation.Table

/-! Doubleword slots.

An address and a number name a slot, the `i`th doubleword from there. Writing slots
one after the other leaves in each what was written last, and touches no byte beyond
them. -/
namespace Testos.Foundation.Memory

/-- Far fewer slots than would go around the address space. -/
def slotBound : Nat := 2 ^ 32

def slot (m : Memory) (p : Word) (i : Nat) : Word := m.load64 (p + BitVec.ofNat 64 (8 * i))

def writeSlot (m : Memory) (p : Word) (w : Nat × Word) : Memory :=
  m.store64 (p + BitVec.ofNat 64 (8 * w.1)) w.2

def writeSlots (m : Memory) (p : Word) (writes : List (Nat × Word)) : Memory :=
  writes.foldl (fun m w => m.writeSlot p w) m

theorem writeSlots_append (m : Memory) (p : Word) (writes writes' : List (Nat × Word)) :
    m.writeSlots p (writes ++ writes') = (m.writeSlots p writes).writeSlots p writes' :=
  List.foldl_append

theorem slot_apart (p : Word) {i j : Nat} (hi : i < slotBound) (hj : j < slotBound) (h : i ≠ j) :
    Apart (p + BitVec.ofNat 64 (8 * i)) (p + BitVec.ofNat 64 (8 * j)) := by
  have hbound : slotBound = 2 ^ 32 := rfl
  have hin : (BitVec.ofNat 64 (8 * i)).toNat = 8 * i := by
    rw [BitVec.toNat_ofNat, Nat.mod_eq_of_lt (by omega)]
  have hjn : (BitVec.ofNat 64 (8 * j)).toNat = 8 * j := by
    rw [BitVec.toNat_ofNat, Nat.mod_eq_of_lt (by omega)]
  unfold Apart
  generalize BitVec.ofNat 64 (8 * i) = a at hin ⊢
  generalize BitVec.ofNat 64 (8 * j) = b at hjn ⊢
  constructor <;> bv_omega

theorem slot_writeSlot (m : Memory) (p : Word) {w : Nat × Word} {j : Nat} (hw : w.1 < slotBound)
    (hj : j < slotBound) :
    (m.writeSlot p w).slot p j = if w.1 = j then w.2 else m.slot p j := by
  unfold slot writeSlot
  by_cases h : w.1 = j
  · rw [if_pos h, ← h]
    exact load64_store64 _ _ _
  · rw [if_neg h]
    exact load64_store64_apart _ _ (slot_apart p hw hj h)

/-- **Slots show their last writer.** -/
theorem slot_writeSlots (m : Memory) (p : Word) {writes : List (Nat × Word)}
    (hwrites : ∀ w ∈ writes, w.1 < slotBound) {j : Nat} (hj : j < slotBound) :
    (m.writeSlots p writes).slot p j = (lastWrite writes j).getD (m.slot p j) := by
  induction writes generalizing m with
  | nil => rfl
  | cons w writes ih =>
    show ((m.writeSlot p w).writeSlots p writes).slot p j = _
    rw [ih _ fun v hv => hwrites v (List.mem_cons_of_mem w hv),
      slot_writeSlot m p (hwrites w List.mem_cons_self) hj, lastWrite]
    cases lastWrite writes j with
    | some v => rfl
    | none =>
      by_cases h : w.1 = j
      · rw [if_pos h, if_pos h]
        rfl
      · rw [if_neg h, if_neg h]
        rfl

theorem writeSlot_other (m : Memory) (p : Word) {w : Nat × Word} {n : Nat} (hw : w.1 < n)
    (hn : n ≤ slotBound) {a : Word} (ha : ¬ Within p (8 * n) a) : m.writeSlot p w a = m a := by
  apply store64_other
  have hbound : slotBound = 2 ^ 32 := rfl
  have hin : (BitVec.ofNat 64 (8 * w.1)).toNat = 8 * w.1 := by
    rw [BitVec.toNat_ofNat, Nat.mod_eq_of_lt (by omega)]
  unfold Within at ha ⊢
  generalize BitVec.ofNat 64 (8 * w.1) = b at hin ⊢
  bv_omega

/-- Slots below `n` are in the first `8 * n` bytes. -/
theorem writeSlots_other (m : Memory) (p : Word) {writes : List (Nat × Word)} {n : Nat}
    (hwrites : ∀ w ∈ writes, w.1 < n) (hn : n ≤ slotBound) {a : Word} (ha : ¬ Within p (8 * n) a) :
    m.writeSlots p writes a = m a := by
  induction writes generalizing m with
  | nil => rfl
  | cons w writes ih =>
    show (m.writeSlot p w).writeSlots p writes a = m a
    rw [ih _ fun v hv => hwrites v (List.mem_cons_of_mem w hv),
      writeSlot_other m p (hwrites w List.mem_cons_self) hn ha]

/-- Slots below `n` are read from the first `8 * n` bytes. -/
theorem slot_congr {m m' : Memory} {p : Word} {i n : Nat} (hi : i < n) (hn : n ≤ slotBound)
    (h : ∀ a, Within p (8 * n) a → m' a = m a) : m'.slot p i = m.slot p i := by
  apply load64_congr
  intro k hk
  apply h
  have hbound : slotBound = 2 ^ 32 := rfl
  have hin : (BitVec.ofNat 64 (8 * i)).toNat = 8 * i := by
    rw [BitVec.toNat_ofNat, Nat.mod_eq_of_lt (by omega)]
  have hkn : (BitVec.ofNat 64 k).toNat = k := by
    rw [BitVec.toNat_ofNat, Nat.mod_eq_of_lt (by omega)]
  unfold Within
  generalize BitVec.ofNat 64 (8 * i) = b at hin ⊢
  generalize BitVec.ofNat 64 k = c at hkn ⊢
  bv_omega

end Testos.Foundation.Memory
