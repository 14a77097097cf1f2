import Mathlib.Order.Interval.Set.Disjoint
import Mathlib.Order.CompletePartialOrder

/-! Blocks handed out from one end of a region.

A cursor starts at the base of a region and only climbs; a block is granted
between two positions of it. Whatever the order type, and whatever is skipped for
alignment, the blocks of any run lie between the base and the cursor and no two
of them share a point. -/
namespace Testos.Foundation

variable {α : Type*}

/-- A half-open block. -/
structure Block (α : Type*) where
  lo : α
  hi : α
deriving DecidableEq

variable [Preorder α]

def Block.span (b : Block α) : Set α := Set.Ico b.lo b.hi

/-- The blocks granted so far, with the cursor where it stands. -/
structure Arena (base cursor limit : α) (blocks : List (Block α)) : Prop where
  base_le : base ≤ cursor
  le_limit : cursor ≤ limit
  inside : ∀ b ∈ blocks, base ≤ b.lo ∧ b.hi ≤ cursor
  apart : blocks.Pairwise fun b c => Disjoint b.span c.span

namespace Arena
variable {base cursor cursor' limit : α} {blocks : List (Block α)}

theorem empty (h : base ≤ limit) : Arena base base limit [] :=
  ⟨le_refl base, h, fun _ hb => absurd hb List.not_mem_nil, List.Pairwise.nil⟩

/-- The cursor may climb without granting anything. -/
theorem advance (h : Arena base cursor limit blocks) (hc : cursor ≤ cursor')
    (hl : cursor' ≤ limit) : Arena base cursor' limit blocks :=
  ⟨h.base_le.trans hc, hl, fun b hb => ⟨(h.inside b hb).1, (h.inside b hb).2.trans hc⟩, h.apart⟩

/-- A block granted between the old cursor and the new one. -/
theorem grant (h : Arena base cursor limit blocks) {b : Block α} (hlo : cursor ≤ b.lo)
    (hhi : b.hi ≤ cursor') (hc : cursor ≤ cursor') (hl : cursor' ≤ limit) :
    Arena base cursor' limit (b :: blocks) := by
  obtain ⟨hbase, _, hinside, hapart⟩ := h.advance hc hl
  refine ⟨hbase, hl, ?_, List.Pairwise.cons ?_ hapart⟩
  · intro c hcm
    rcases List.mem_cons.mp hcm with rfl | hcm
    · exact ⟨h.base_le.trans hlo, hhi⟩
    · exact hinside c hcm
  · intro c hcm
    -- an older block ends at or below the old cursor, where the new one begins
    have hbelow : c.hi ≤ b.lo := (h.inside c hcm).2.trans hlo
    rw [Set.disjoint_left]
    intro x hx hx'
    exact lt_irrefl x (hx'.2.trans_le (hbelow.trans hx.1))

/-- A point of a granted block lies below the cursor. -/
theorem mem_span (h : Arena base cursor limit blocks) {b : Block α} (hb : b ∈ blocks) {x : α}
    (hx : x ∈ b.span) : base ≤ x ∧ x < cursor :=
  ⟨(h.inside b hb).1.trans hx.1, hx.2.trans_le (h.inside b hb).2⟩

end Arena

end Testos.Foundation
