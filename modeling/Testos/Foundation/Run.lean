import Mathlib.Algebra.Order.Ring.Nat

/-! Runs of a step function.

A run applies a step, which may fail, to a list of inputs in order. What one step
preserves, and that it does not fail, a run preserves. -/
namespace Testos.Foundation

variable {σ ι : Type*}

/-- The state after the inputs, if no step failed. -/
def run (step : σ → ι → Option σ) (s : σ) (inputs : List ι) : Option σ := inputs.foldlM step s

variable {step : σ → ι → Option σ}

@[simp] theorem run_nil (s : σ) : run step s [] = some s := rfl

theorem run_cons (s : σ) (i : ι) (rest : List ι) :
    run step s (i :: rest) = (step s i).bind fun s' => run step s' rest := rfl

@[simp] theorem run_singleton (s : σ) (i : ι) : run step s [i] = step s i := by
  rw [run_cons]
  cases step s i <;> rfl

theorem run_append (s : σ) (a b : List ι) :
    run step s (a ++ b) = (run step s a).bind fun s' => run step s' b := by
  simp only [run, List.foldlM_append]
  rfl

/-- If admissible inputs never fail and keep the invariant, a run of them neither
fails nor loses it. -/
theorem run_invariant {P : σ → Prop} {Q : ι → Prop}
    (hstep : ∀ s i, P s → Q i → ∃ s', step s i = some s' ∧ P s') (inputs : List ι) (s : σ)
    (hs : P s) (hq : ∀ i ∈ inputs, Q i) : ∃ s', run step s inputs = some s' ∧ P s' := by
  induction inputs generalizing s with
  | nil => exact ⟨s, rfl, hs⟩
  | cons i rest ih =>
    obtain ⟨s', hi, hs'⟩ := hstep s i hs (hq i List.mem_cons_self)
    obtain ⟨s'', hrun, hs''⟩ := ih s' hs' fun j hj => hq j (List.mem_cons_of_mem i hj)
    exact ⟨s'', by rw [run_cons, hi]; exact hrun, hs''⟩

/-- The same when an admissible input keeps the invariant whenever it succeeds. -/
theorem run_preserves {P : σ → Prop} {Q : ι → Prop}
    (hstep : ∀ s i s', P s → Q i → step s i = some s' → P s') (inputs : List ι) (s s' : σ) (hs : P s)
    (hq : ∀ i ∈ inputs, Q i) (hrun : run step s inputs = some s') : P s' := by
  induction inputs generalizing s with
  | nil => exact Option.some.inj hrun ▸ hs
  | cons i rest ih =>
    rw [run_cons] at hrun
    cases hi : step s i with
    | none => rw [hi] at hrun; cases hrun
    | some t =>
      rw [hi] at hrun
      exact ih t (hstep s i t hs (hq i List.mem_cons_self) hi)
        (fun j hj => hq j (List.mem_cons_of_mem i hj)) hrun

end Testos.Foundation
