import Mathlib.Order.Basic

/-! First places.

A search that looks at one place after the other, from `start` on, and stops at the first
that has a property, or when no later one can. -/
namespace Testos.Foundation

/-- `place` is the first place from `start` on that has `P`, if there is one. -/
def FirstFrom (P : Nat → Prop) (start : Nat) : Option Nat → Prop
  | some i => start ≤ i ∧ P i ∧ ∀ j, start ≤ j → j < i → ¬ P j
  | none => ∀ j, start ≤ j → ¬ P j

namespace FirstFrom
variable {P Q : Nat → Prop} {start : Nat} {place place' : Option Nat}

theorem found (h : P start) : FirstFrom P start (some start) :=
  ⟨Nat.le_refl _, h, fun _ hj hlt => absurd hj (Nat.not_le.mpr hlt)⟩

/-- Going on after a place without the property. -/
theorem skip (hstart : ¬ P start) (h : FirstFrom P (start + 1) place) : FirstFrom P start place := by
  have hlater : ∀ j, start ≤ j → j = start ∨ start + 1 ≤ j := fun j hj => (Nat.eq_or_lt_of_le hj).imp Eq.symm id
  cases place with
  | none =>
    intro j hj
    rcases hlater j hj with rfl | hj
    · exact hstart
    · exact h j hj
  | some i =>
    obtain ⟨hle, hi, hbefore⟩ := h
    refine ⟨Nat.le_of_succ_le hle, hi, fun j hj hlt => ?_⟩
    rcases hlater j hj with rfl | hj
    · exact hstart
    · exact hbefore j hj hlt

theorem congr (hPQ : ∀ j, P j ↔ Q j) (h : FirstFrom P start place) : FirstFrom Q start place := by
  rwa [show P = Q from funext fun j => propext (hPQ j)] at h

/-- There is one first place. -/
theorem unique (h : FirstFrom P start place) (h' : FirstFrom P start place') : place = place' := by
  cases place with
  | none =>
    cases place' with
    | none => rfl
    | some i => exact absurd h'.2.1 (h i h'.1)
  | some i =>
    cases place' with
    | none => exact absurd h.2.1 (h' i h.1)
    | some j =>
      rcases Nat.lt_trichotomy i j with hlt | heq | hgt
      · exact absurd h.2.1 (h'.2.2 i h.1 hlt)
      · rw [heq]
      · exact absurd h'.2.1 (h.2.2 j h'.1 hgt)

end FirstFrom

end Testos.Foundation
