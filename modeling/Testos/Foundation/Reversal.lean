import Mathlib.Data.List.Basic

/-! Reversing a list in place.

C code reverses a buffer by exchanging its ends, either over an index that counts up
to the middle or with two pointers that close in on each other. Both leave what lies
outside the part they work on as it was. -/
namespace Testos.Foundation

variable {α : Type*} (blank : α)

/-- The items at `i` and `j`, exchanged. -/
def exchange (l : List α) (i j : Nat) : List α := (l.set i (l.getD j blank)).set j (l.getD i blank)

/-- `while (start < stop)` around the exchange, both moving inwards. -/
def closeIn (l : List α) (start stop : Nat) : Nat → List α
  | 0 => l
  | fuel + 1 => if start < stop then closeIn (exchange blank l start stop) (start + 1) (stop - 1) fuel else l

/-- Exchanging two items around a middle part. -/
theorem exchange_split (a m b : List α) (x y : α) {i j : Nat} (hi : i = a.length)
    (hj : j = a.length + m.length + 1) :
    exchange blank (a ++ x :: (m ++ y :: b)) i j = a ++ y :: (m ++ x :: b) := by
  subst hi hj
  have hafter : a.length + m.length + 1 - a.length = m.length + 1 := by omega
  have hx : (a ++ x :: (m ++ y :: b)).getD a.length blank = x := by simp
  have hy : (a ++ x :: (m ++ y :: b)).getD (a.length + m.length + 1) blank = y := by
    rw [List.getD_eq_getElem?_getD, List.getElem?_append_right (by omega), hafter]
    simp
  rw [exchange, hx, hy, List.set_append_right _ _ (Nat.le_refl _), Nat.sub_self, List.set_cons_zero,
    List.set_append_right _ _ (by omega), hafter, List.set_cons_succ,
    List.set_append_right _ _ (Nat.le_refl _), Nat.sub_self, List.set_cons_zero]

/-- Two pointers on the ends of a part reverse it. -/
theorem closeIn_reverse (fuel : Nat) (a m b : List α) {start stop : Nat} (hfuel : m.length ≤ fuel)
    (hstart : start = a.length) (hstop : stop = a.length + m.length - 1) :
    closeIn blank (a ++ (m ++ b)) start stop fuel = a ++ (m.reverse ++ b) := by
  induction fuel generalizing a m b start stop with
  | zero =>
    obtain rfl := List.length_eq_zero_iff.mp (Nat.le_zero.mp hfuel)
    rfl
  | succ fuel ih =>
    rw [closeIn]
    split
    · next hlt =>
      obtain ⟨x, m, rfl⟩ := List.exists_cons_of_length_pos (show 0 < m.length by omega)
      rcases List.eq_nil_or_concat m with rfl | ⟨m, y, rfl⟩
      · rw [List.length_singleton] at hstop
        omega
      · have hlen : (x :: m.concat y).length = m.length + 2 := by simp
        have hsplit : a ++ (x :: m.concat y ++ b) = a ++ x :: (m ++ y :: b) := by simp
        have hrest : a ++ y :: (m ++ x :: b) = (a ++ [y]) ++ (m ++ ([x] ++ b)) := by simp
        rw [hlen] at hfuel hstop
        rw [hsplit, exchange_split blank a m b x y hstart (by omega), hrest,
          ih (a ++ [y]) m ([x] ++ b) (by omega) (by simp; omega) (by simp; omega)]
        simp
    · next hge =>
      have hshort : m.length ≤ 1 := by omega
      rcases m with _ | ⟨x, _ | ⟨y, m⟩⟩
      · rfl
      · rfl
      · simp at hshort

end Testos.Foundation
