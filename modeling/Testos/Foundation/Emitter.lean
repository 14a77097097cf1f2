import Mathlib.Data.List.Basic

/-! Emitters.

`put` writes one item to a stream. An emitter is *oblivious* when what it writes, and
whether it fails, does not depend on the stream: it writes the same items to a stream
that has room for them and to one that drops them. Oblivious emitters compose, so a
law of `put`ting a list is a law of every one of them. -/
namespace Testos.Foundation

variable {σ β : Type*} (put : σ → β → σ)

/-- The stream after the items. -/
def emit (s : σ) (out : List β) : σ := out.foldl put s

def Oblivious (e : σ → Option σ) : Prop := ∃ out : Option (List β), ∀ s, e s = out.map (emit put s)

variable {put}

@[simp] theorem emit_nil (s : σ) : emit put s [] = s := rfl

@[simp] theorem emit_cons (s : σ) (b : β) (out : List β) :
    emit put s (b :: out) = emit put (put s b) out := rfl

@[simp] theorem emit_append (s : σ) (out out' : List β) :
    emit put s (out ++ out') = emit put (emit put s out) out' :=
  List.foldl_append

namespace Oblivious

theorem fail : Oblivious put fun _ => none := ⟨none, fun _ => rfl⟩

theorem stop : Oblivious put some := ⟨some [], fun _ => rfl⟩

/-- Writing a list that is known beforehand. -/
theorem writes {f : σ → σ} (out : List β) (h : ∀ s, f s = emit put s out) :
    Oblivious put fun s => some (f s) :=
  ⟨some out, fun s => congrArg some (h s)⟩

theorem bind {e e' : σ → Option σ} (h : Oblivious put e) (h' : Oblivious put e') :
    Oblivious put fun s => (e s).bind e' := by
  obtain ⟨out, hout⟩ := h
  obtain ⟨out', hout'⟩ := h'
  refine ⟨out.bind fun a => out'.map fun b => a ++ b, fun s => ?_⟩
  show (e s).bind e' = _
  rw [hout]
  cases out with
  | none => rfl
  | some a =>
    simp only [Option.map_some, Option.bind_some, hout', Option.map_map]
    congr 1
    funext b
    exact (emit_append s a b).symm

/-- Writing a list first. -/
theorem after {e : σ → Option σ} (h : Oblivious put e) {f : σ → σ} (out : List β)
    (hf : ∀ s, f s = emit put s out) : Oblivious put fun s => e (f s) :=
  (writes out hf).bind h

/-- Reading something that is not the stream first. -/
theorem read {ι : Type*} {e : ι → σ → Option σ} (h : ∀ a, Oblivious put (e a)) (o : Option ι) :
    Oblivious put fun s => o.bind fun a => e a s := by
  cases o with
  | none => exact fail
  | some a => exact h a

end Oblivious

end Testos.Foundation
