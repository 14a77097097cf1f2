import Mathlib.Data.List.Basic

/-! A line editor.

Keys arrive one at a time. An erasing key takes back the last kept one, an ending key
ends the line, any other is kept, and a line that holds `limit` keys ends by itself.
`readLine` runs the editor over a stream; `readLine_iff` says which part of a stream
it consumes, and that what it keeps is the fold of that part. -/
namespace Testos.Foundation

variable {α : Type*}

/-- The keys an editor treats specially. -/
structure Keys (α : Type*) where
  erases : α → Bool
  ends : α → Bool
  apart : ∀ c, erases c = true → ends c = false

/-- What a key does to the kept ones. -/
def edit (keys : Keys α) (kept : List α) (c : α) : List α :=
  if keys.erases c then kept.dropLast else if keys.ends c then kept else kept ++ [c]

/-- The line kept and the stream left, unless the stream is over before the line. -/
def readLine (keys : Keys α) (limit : Nat) (kept : List α) : List α → Option (List α × List α)
  | [] => if kept.length < limit then none else some (kept, [])
  | c :: rest =>
    if kept.length < limit then
      if keys.ends c then some (kept, rest) else readLine keys limit (edit keys kept c) rest
    else some (kept, c :: rest)

/-- `consumed` is one line, read with `start` already kept, and `kept` is what it
comes to. -/
structure IsLine (keys : Keys α) (limit : Nat) (start consumed kept : List α) : Prop where
  fold : kept = consumed.foldl (edit keys) start
  room : ∀ p c q, consumed = p ++ c :: q → (p.foldl (edit keys) start).length < limit
  last : ∀ p c q, consumed = p ++ c :: q → keys.ends c = true → q = []
  ended : (∃ p c, consumed = p ++ [c] ∧ keys.ends c = true) ∨ limit ≤ kept.length

section
variable {keys : Keys α} {limit : Nat}

theorem edit_ends {c : α} (h : keys.ends c = true) (kept : List α) : edit keys kept c = kept := by
  have he : keys.erases c = false := by
    by_contra hne
    have := keys.apart c (by simpa using hne)
    rw [h] at this
    cases this
  simp [edit, he, h]

/-! ### Lines, key by key -/

/-- A line was ended by its last key, or came to its limit without an ending key. -/
theorem IsLine.split {start consumed kept : List α} (h : IsLine keys limit start consumed kept) :
    (∃ p c, consumed = p ++ [c] ∧ keys.ends c = true ∧ ∀ d ∈ p, keys.ends d = false) ∨
      (limit ≤ kept.length ∧ ∀ d ∈ consumed, keys.ends d = false) := by
  by_cases hall : ∀ d ∈ consumed, keys.ends d = false
  · rcases h.ended with ⟨p, c, rfl, hc⟩ | hfull
    · rw [hall c (List.mem_append_right p List.mem_cons_self)] at hc
      cases hc
    · exact .inr ⟨hfull, hall⟩
  · push Not at hall
    obtain ⟨c, hmem, hc⟩ := hall
    obtain ⟨p, q, rfl⟩ := List.append_of_mem hmem
    obtain rfl := h.last p c q rfl (by simpa using hc)
    refine .inl ⟨p, c, rfl, by simpa using hc, fun d hd => ?_⟩
    obtain ⟨p₁, p₂, rfl⟩ := List.append_of_mem hd
    by_contra hne
    have hlast := h.last p₁ d (p₂ ++ [c]) (by simp) (by simpa using hne)
    simp at hlast

/-- Nothing is read once the limit is reached. -/
theorem IsLine.nil {start : List α} (h : limit ≤ start.length) : IsLine keys limit start [] start :=
  ⟨rfl, fun p c q he => by simp at he, fun p c q he => by simp at he, .inr h⟩

theorem IsLine.stop {start : List α} {c : α} (h : start.length < limit) (hc : keys.ends c = true) :
    IsLine keys limit start [c] start := by
  refine ⟨(edit_ends hc start).symm, ?_, ?_, .inl ⟨[], c, rfl, hc⟩⟩
  · intro p d q he
    rcases p with _ | ⟨e, p⟩
    · exact h
    · simp at he
  · intro p d q he _
    rcases p with _ | ⟨e, p⟩
    · simp at he
      exact he.2
    · simp at he

theorem IsLine.cons {start consumed kept : List α} {c : α} (h : start.length < limit)
    (hc : keys.ends c = false) (hline : IsLine keys limit (edit keys start c) consumed kept) :
    IsLine keys limit start (c :: consumed) kept := by
  refine ⟨hline.fold, ?_, ?_, ?_⟩
  · intro p d q he
    rcases p with _ | ⟨e, p⟩
    · exact h
    · obtain ⟨rfl, htail⟩ := List.cons.inj he
      exact hline.room p d q htail
  · intro p d q he hd
    rcases p with _ | ⟨e, p⟩
    · obtain ⟨rfl, _⟩ := List.cons.inj he
      rw [hc] at hd
      cases hd
    · exact hline.last p d q (List.cons.inj he).2 hd
  · rcases hline.ended with ⟨p, d, he, hd⟩ | hfull
    · exact .inl ⟨c :: p, d, by rw [he]; rfl, hd⟩
    · exact .inr hfull

/-- A line with nothing in it was over before it began. -/
theorem IsLine.of_nil {start kept : List α} (h : IsLine keys limit start [] kept) :
    kept = start ∧ limit ≤ start.length := by
  have hk : kept = start := h.fold
  refine ⟨hk, ?_⟩
  rcases h.ended with ⟨p, c, he, _⟩ | hfull
  · simp at he
  · rw [← hk]
    exact hfull

theorem IsLine.of_cons {start consumed kept : List α} {c : α}
    (h : IsLine keys limit start (c :: consumed) kept) :
    start.length < limit ∧
      ((keys.ends c = true ∧ consumed = [] ∧ kept = start) ∨
        (keys.ends c = false ∧ IsLine keys limit (edit keys start c) consumed kept)) := by
  refine ⟨h.room [] c consumed rfl, ?_⟩
  cases hc : keys.ends c with
  | true =>
    have hnil := h.last [] c consumed rfl hc
    subst hnil
    exact .inl ⟨rfl, rfl, h.fold.trans (edit_ends hc start)⟩
  | false =>
    refine .inr ⟨rfl, h.fold, fun p d q he => h.room (c :: p) d q (by rw [he]; rfl),
      fun p d q he => h.last (c :: p) d q (by rw [he]; rfl), ?_⟩
    rcases h.ended with ⟨p, d, he, hd⟩ | hfull
    · rcases p with _ | ⟨e, p⟩
      · obtain ⟨rfl, _⟩ := List.cons.inj he
        rw [hc] at hd
        cases hd
      · exact .inl ⟨p, d, (List.cons.inj he).2, hd⟩
    · exact .inr hfull

/-- **What the editor reads** is a line, and any line at the head of the stream is
what it reads. -/
theorem readLine_iff {start kept input rest : List α} :
    readLine keys limit start input = some (kept, rest) ↔
      ∃ consumed, input = consumed ++ rest ∧ IsLine keys limit start consumed kept := by
  induction input generalizing start with
  | nil =>
    rw [readLine]
    by_cases hroom : start.length < limit
    · rw [if_pos hroom]
      constructor
      · intro h
        cases h
      · intro h
        obtain ⟨consumed, he, hline⟩ := h
        obtain ⟨rfl, rfl⟩ := List.append_eq_nil_iff.mp he.symm
        exact absurd hline.of_nil.2 (by omega)
    · rw [if_neg hroom]
      constructor
      · intro h
        cases h
        exact ⟨[], rfl, .nil (Nat.le_of_not_lt hroom)⟩
      · intro h
        obtain ⟨consumed, he, hline⟩ := h
        obtain ⟨rfl, rfl⟩ := List.append_eq_nil_iff.mp he.symm
        rw [hline.of_nil.1]
  | cons c input ih =>
    rw [readLine]
    by_cases hroom : start.length < limit
    · rw [if_pos hroom]
      cases hc : keys.ends c with
      | true =>
        rw [if_pos rfl]
        constructor
        · intro h
          cases h
          exact ⟨[c], rfl, .stop hroom hc⟩
        · intro h
          rcases h with ⟨_ | ⟨d, consumed⟩, he, hline⟩
          · exact absurd hline.of_nil.2 (by omega)
          · obtain ⟨rfl, htail⟩ := List.cons.inj he
            rcases hline.of_cons.2 with ⟨_, rfl, rfl⟩ | ⟨hd, _⟩
            · rw [htail]
              rfl
            · rw [hc] at hd
              cases hd
      | false =>
        rw [if_neg Bool.false_ne_true, ih]
        constructor
        · intro h
          obtain ⟨consumed, rfl, hline⟩ := h
          exact ⟨c :: consumed, rfl, .cons hroom hc hline⟩
        · intro h
          rcases h with ⟨_ | ⟨d, consumed⟩, he, hline⟩
          · exact absurd hline.of_nil.2 (by omega)
          · obtain ⟨rfl, rfl⟩ := List.cons.inj he
            rcases hline.of_cons.2 with ⟨hd, _⟩ | ⟨_, hline⟩
            · rw [hc] at hd
              cases hd
            · exact ⟨consumed, rfl, hline⟩
    · rw [if_neg hroom]
      constructor
      · intro h
        cases h
        exact ⟨[], rfl, .nil (Nat.le_of_not_lt hroom)⟩
      · intro h
        rcases h with ⟨_ | ⟨d, consumed⟩, he, hline⟩
        · rw [hline.of_nil.1, he]
          rfl
        · exact absurd hline.of_cons.1 hroom

end

/-! ### A reader beside the editor -/

section
variable {β γ : Type*} {R R' : β → γ → Prop}

theorem rel_mono {o : Option β} {o' : Option γ} (h : Option.Rel R o o') (himp : ∀ b c, R b c → R' b c) :
    Option.Rel R' o o' := by
  cases h with
  | some h => exact .some (himp _ _ h)
  | none => exact .none

theorem rel_some {o : Option β} {c : γ} (h : Option.Rel R o (some c)) : ∃ b, o = some b ∧ R b c := by
  cases h with
  | some h => exact ⟨_, rfl, h⟩

theorem some_rel {b : β} {o : Option γ} (h : Option.Rel R (some b) o) : ∃ c, o = some c ∧ R b c := by
  cases h with
  | some h => exact ⟨_, rfl, h⟩

end

end Testos.Foundation
