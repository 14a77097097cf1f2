import Testos.Foundation.Memory

/-! Doublewords pushed on a stack that grows down.

Pushing moves the pointer down and stores there. A row of pushes writes the window
below the old pointer, with bytes that do not depend on what was there, and nothing
else; read upwards from the new pointer, the row stands there backwards. -/
namespace Testos.Foundation

/-- Ranges that share no byte. -/
def Separate (p : Word) (n : Nat) (q : Word) (k : Nat) : Prop := ∀ x, Within p n x → ¬ Within q k x

/-- Ranges that do not wrap are separate exactly when one ends before the other. -/
theorem separate_iff {p q : Word} {n k : Nat} (hn : 0 < n) (hk : 0 < k) (hp : p.toNat + n ≤ 2 ^ 64)
    (hq : q.toNat + k ≤ 2 ^ 64) :
    Separate p n q k ↔ p.toNat + n ≤ q.toNat ∨ q.toNat + k ≤ p.toNat := by
  constructor
  · intro h
    by_contra hmeet
    by_cases hle : p.toNat ≤ q.toNat
    · exact h q ((within_iff hp).mpr (by omega)) ((within_iff hq).mpr (by omega))
    · exact h p ((within_iff hp).mpr (by omega)) ((within_iff hq).mpr (by omega))
  · intro h x hx hx'
    rw [within_iff hp] at hx
    rw [within_iff hq] at hx'
    omega

namespace Memory

/-- `*(--sp) = v`. -/
def push (s : Memory × Word) (v : Word) : Memory × Word := (s.1.store64 (s.2 - 8) v, s.2 - 8)

def pushes (m : Memory) (sp : Word) (vs : List Word) : Memory × Word := vs.foldl push (m, sp)

theorem pushes_cons (m : Memory) (sp v : Word) (vs : List Word) :
    pushes m sp (v :: vs) = pushes (m.store64 (sp - 8) v) (sp - 8) vs := rfl

theorem pushes_sp (m : Memory) (sp : Word) (vs : List Word) :
    (pushes m sp vs).2 = sp - BitVec.ofNat 64 (8 * vs.length) := by
  induction vs generalizing m sp with
  | nil => exact (BitVec.sub_zero sp).symm
  | cons v vs ih =>
    rw [pushes_cons, ih, List.length_cons, Nat.mul_succ, BitVec.ofNat_add]
    generalize BitVec.ofNat 64 (8 * vs.length) = n
    bv_omega

/-- The window of one push more. -/
theorem within_push {sp x : Word} {n : Nat} (hn : 8 * (n + 1) ≤ 2 ^ 64) :
    Within (sp - BitVec.ofNat 64 (8 * (n + 1))) (8 * (n + 1)) x ↔
      Within (sp - 8) 8 x ∨ Within (sp - 8 - BitVec.ofNat 64 (8 * n)) (8 * n) x := by
  have hbase : sp - BitVec.ofNat 64 (8 * (n + 1)) = sp - 8 - BitVec.ofNat 64 (8 * n) := by
    rw [Nat.mul_succ, BitVec.ofNat_add]
    generalize BitVec.ofNat 64 (8 * n) = b
    bv_omega
  have htop : sp - 8 - BitVec.ofNat 64 (8 * n) + BitVec.ofNat 64 (8 * n) = sp - 8 :=
    BitVec.sub_add_cancel _ _
  rw [hbase, Nat.mul_succ, within_add (by omega) (by omega), htop, or_comm]

/-- Outside the window nothing is written. -/
theorem pushes_other (m : Memory) {sp x : Word} {vs : List Word} (hlen : 8 * vs.length ≤ 2 ^ 64)
    (hx : ¬ Within (sp - BitVec.ofNat 64 (8 * vs.length)) (8 * vs.length) x) :
    (pushes m sp vs).1 x = m x := by
  induction vs generalizing m sp with
  | nil => rfl
  | cons v vs ih =>
    rw [List.length_cons] at hlen hx
    obtain ⟨hfirst, hrest⟩ := not_or.mp (fun h => hx ((within_push hlen).mpr h))
    rw [pushes_cons, ih _ (by omega) hrest, store64_other _ _ _ hfirst]

/-- Within it, what was there does not matter. -/
theorem pushes_within (m m' : Memory) {sp x : Word} {vs : List Word} (hlen : 8 * vs.length ≤ 2 ^ 64)
    (hx : m x = m' x ∨ Within (sp - BitVec.ofNat 64 (8 * vs.length)) (8 * vs.length) x) :
    (pushes m sp vs).1 x = (pushes m' sp vs).1 x := by
  induction vs generalizing m m' sp with
  | nil => exact hx.elim id fun h => absurd h (Nat.not_lt_zero _)
  | cons v vs ih =>
    rw [List.length_cons] at hlen hx
    rw [pushes_cons, pushes_cons]
    apply ih _ _ (by omega)
    rcases hx with hsame | hwindow
    · left
      unfold store64
      rw [hsame]
    · rcases (within_push hlen).mp hwindow with hfirst | hrest
      · left
        unfold store64
        rw [if_pos hfirst, if_pos hfirst]
      · exact .inr hrest

/-! ### Reading the row -/

theorem pushes_concat (m : Memory) (sp : Word) (vs : List Word) (v : Word) :
    pushes m sp (vs ++ [v]) = push (pushes m sp vs) v := by
  rw [pushes, List.foldl_append]
  rfl

/-- The doubleword `i` places above an address. -/
def wordAt (m : Memory) (p : Word) (i : Nat) : Word := m.load64 (p + BitVec.ofNat 64 (8 * i))

/-- Words at different places do not meet. -/
theorem apart_offset {p : Word} {i j : Nat} (hi : 8 * (i + 1) ≤ 2 ^ 64) (hj : 8 * (j + 1) ≤ 2 ^ 64) (h : i ≠ j) :
    Apart (p + BitVec.ofNat 64 (8 * i)) (p + BitVec.ofNat 64 (8 * j)) := by
  have hci : (BitVec.ofNat 64 (8 * i)).toNat = 8 * i := by rw [BitVec.toNat_ofNat, Nat.mod_eq_of_lt (by omega)]
  have hcj : (BitVec.ofNat 64 (8 * j)).toNat = 8 * j := by rw [BitVec.toNat_ofNat, Nat.mod_eq_of_lt (by omega)]
  unfold Apart
  generalize BitVec.ofNat 64 (8 * i) = a at hci ⊢
  generalize BitVec.ofNat 64 (8 * j) = b at hcj ⊢
  constructor
  · bv_omega
  · bv_omega

/-- What was pushed stands above the pointer, the last first. -/
theorem pushes_wordAt (m : Memory) (sp : Word) (vs : List Word) (hlen : 8 * vs.length ≤ 2 ^ 64) {i : Nat}
    (hi : i < vs.length) : (pushes m sp vs).1.wordAt (pushes m sp vs).2 i = vs.reverse.getD i 0 := by
  induction vs using List.reverseRecOn generalizing i with
  | nil => exact absurd hi (Nat.not_lt_zero i)
  | append_singleton vs v ih =>
    rw [List.length_append, List.length_singleton] at hlen hi
    rw [pushes_concat, List.reverse_append]
    cases i with
    | zero =>
      show ((pushes m sp vs).1.store64 _ v).load64 ((pushes m sp vs).2 - 8 + BitVec.ofNat 64 0) = v
      rw [show (pushes m sp vs).2 - 8 + BitVec.ofNat 64 0 = (pushes m sp vs).2 - 8 from BitVec.add_zero _]
      exact load64_store64 _ _ _
    | succ i =>
      have hnext : (pushes m sp vs).2 - 8 + BitVec.ofNat 64 (8 * (i + 1)) =
          (pushes m sp vs).2 + BitVec.ofNat 64 (8 * i) := by
        rw [Nat.mul_succ, BitVec.ofNat_add]
        generalize BitVec.ofNat 64 (8 * i) = b
        generalize (pushes m sp vs).2 = p
        bv_omega
      have happart := apart_offset (p := (pushes m sp vs).2 - 8) (i := 0) (j := i + 1) (by omega) (by omega)
        (by omega)
      rw [show (pushes m sp vs).2 - 8 + BitVec.ofNat 64 (8 * 0) = (pushes m sp vs).2 - 8 from BitVec.add_zero _]
        at happart
      show ((pushes m sp vs).1.store64 ((pushes m sp vs).2 - 8) v).load64
        ((pushes m sp vs).2 - 8 + BitVec.ofNat 64 (8 * (i + 1))) = _
      rw [load64_store64_apart _ _ happart, hnext]
      exact ih (by omega) (by omega)

end Memory

end Testos.Foundation
