import Testos.Foundation.Memory

/-! Tables written behind a bounds check.

A table has `n` entries; reading or writing outside it is a fault. A program that
writes only where its check lets it keeps, entry by entry, the map of the last
writer. -/
namespace Testos.Foundation

/-! ### The map of the last writer -/

section
variable {κ α : Type*} [DecidableEq κ]

/-- The value written last under a key. -/
def lastWrite : List (κ × α) → κ → Option α
  | [], _ => none
  | w :: writes, k => (lastWrite writes k).or (if w.1 = k then some w.2 else none)

@[simp] theorem lastWrite_nil (k : κ) : lastWrite ([] : List (κ × α)) k = none := rfl

theorem lastWrite_append (writes writes' : List (κ × α)) (k : κ) :
    lastWrite (writes ++ writes') k = (lastWrite writes' k).or (lastWrite writes k) := by
  induction writes with
  | nil => rw [List.nil_append, lastWrite_nil, Option.or_none]
  | cons w writes ih => rw [List.cons_append, lastWrite, lastWrite, ih, Option.or_assoc]

@[simp] theorem lastWrite_concat (writes : List (κ × α)) (k k' : κ) (a : α) :
    lastWrite (writes ++ [(k', a)]) k = if k' = k then some a else lastWrite writes k := by
  rw [lastWrite_append]
  simp only [lastWrite, Option.none_or]
  split <;> rfl

theorem lastWrite_eq_none {writes : List (κ × α)} {k : κ} (h : ∀ w ∈ writes, w.1 ≠ k) :
    lastWrite writes k = none := by
  induction writes with
  | nil => rfl
  | cons w writes ih =>
    rw [lastWrite, ih fun v hv => h v (List.mem_cons_of_mem w hv), if_neg (h w List.mem_cons_self)]
    rfl

theorem mem_of_lastWrite {writes : List (κ × α)} {k : κ} {a : α} (h : lastWrite writes k = some a) :
    (k, a) ∈ writes := by
  by_contra hmem
  induction writes with
  | nil => cases h
  | cons w writes ih =>
    rw [lastWrite] at h
    rcases Option.or_eq_some_iff.mp h with h | ⟨_, h⟩
    · exact ih h fun hin => hmem (List.mem_cons_of_mem w hin)
    · split at h
      · rename_i hk
        obtain rfl := Option.some.inj h
        exact hmem (hk ▸ List.mem_cons_self)
      · cases h

/-- A key written, and with one value only, shows that value. -/
theorem lastWrite_eq_some {writes : List (κ × α)} {k : κ} {a : α} (hmem : (k, a) ∈ writes)
    (hone : ∀ b, (k, b) ∈ writes → b = a) : lastWrite writes k = some a := by
  cases h : lastWrite writes k with
  | some b => rw [hone b (mem_of_lastWrite h)]
  | none =>
    exfalso
    induction writes with
    | nil => cases hmem
    | cons w writes ih =>
      rw [lastWrite] at h
      obtain ⟨hrest, hhead⟩ := Option.or_eq_none_iff.mp h
      rcases List.mem_cons.mp hmem with rfl | hin
      · simp at hhead
      · exact ih hin (fun b hb => hone b (List.mem_cons_of_mem w hb)) hrest

/-- Where one item only writes a key, and it writes it once, the key shows that item's
value. -/
theorem lastWrite_flatMap {ι : Type*} [DecidableEq ι] {f : ι → List (κ × α)} {l : List ι} {i : ι} {k : κ}
    {a : α} (hself : f i = [(k, a)]) (honly : ∀ j ∈ l, ∀ b, (k, b) ∈ f j → j = i) :
    lastWrite (l.flatMap f) k = if i ∈ l then some a else none := by
  have hval : ∀ b, (k, b) ∈ l.flatMap f → i ∈ l ∧ b = a := by
    intro b hb
    obtain ⟨j, hj, hb⟩ := List.mem_flatMap.mp hb
    obtain rfl := honly j hj b hb
    rw [hself] at hb
    exact ⟨hj, (Prod.mk.inj (List.mem_singleton.mp hb)).2⟩
  split
  · rename_i hmem
    refine lastWrite_eq_some (List.mem_flatMap.mpr ⟨i, hmem, ?_⟩) fun b hb => (hval b hb).2
    rw [hself]
    exact List.mem_singleton_self _
  · rename_i hmem
    refine lastWrite_eq_none fun w hw hwk => hmem (hval w.2 ?_).1
    rwa [← hwk]

/-- Writes under different keys are each the last of their key. -/
theorem lastWrite_map {ι : Type*} [DecidableEq ι] {key : ι → κ} (hkey : Function.Injective key)
    (value : ι → α) (l : List ι) (i : ι) :
    lastWrite (l.map fun j => (key j, value j)) (key i) = if i ∈ l then some (value i) else none := by
  induction l with
  | nil => rfl
  | cons j l ih =>
    rw [List.map_cons, lastWrite, ih]
    by_cases hmem : i ∈ l
    · rw [if_pos hmem, if_pos (List.mem_cons_of_mem j hmem)]
      rfl
    · rw [if_neg hmem, Option.none_or]
      by_cases hij : j = i
      · subst hij
        rw [if_pos rfl, if_pos List.mem_cons_self]
      · rw [if_neg (fun he => hij (hkey he)),
          if_neg (fun hm => (List.mem_cons.mp hm).elim (fun he => hij he.symm) hmem)]

end

/-! ### Tables -/

abbrev Table (α : Type*) (n : Nat) := Vector α n

namespace Table
variable {α : Type*} {n : Nat}

/-- `t[i]`. -/
def read (t : Table α n) (i : Word) : Option α := t[i.toNat]?

/-- `t[i] = a`. -/
def write (t : Table α n) (i : Word) (a : α) : Option (Table α n) :=
  if h : i.toNat < n then some (t.set i.toNat a) else none

/-- What a write leaves that is only made in range. -/
def put (t : Table α n) (i : Word) (a : α) : Table α n :=
  if h : i.toNat < n then t.set i.toNat a else t

/-- **Checked writes** do not fault: where the check has the table's length for its
bound, the update is that of `put`. -/
theorem write_checked {σ : Type*} {bound : Word} (hbound : bound.toNat = n) (t : Table α n)
    (i : Word) (a : α) (update : Table α n → σ) :
    (if i < bound then (t.write i a).map update else some (update t)) = some (update (t.put i a)) := by
  have hcheck : i < bound ↔ i.toNat < n := by rw [BitVec.lt_def, hbound]
  unfold write put
  by_cases h : i.toNat < n
  · rw [if_pos (hcheck.mpr h), dif_pos h, dif_pos h]
    rfl
  · rw [if_neg (fun hlt => h (hcheck.mp hlt)), dif_neg h]

theorem put_outside (t : Table α n) {i : Word} (h : n ≤ i.toNat) (a : α) : t.put i a = t :=
  dif_neg (Nat.not_lt_of_le h)

theorem read_put (t : Table α n) (i : Word) (a : α) {j : Word} (hj : j.toNat < n) :
    (t.put i a).read j = if i = j then some a else t.read j := by
  unfold put read
  by_cases hij : i = j
  · subst hij
    rw [dif_pos hj, if_pos rfl, Vector.getElem?_set, if_pos rfl]
  · have hne : i.toNat ≠ j.toNat := fun he => hij (BitVec.eq_of_toNat_eq he)
    rw [if_neg hij]
    split
    · rw [Vector.getElem?_set, if_neg hne]
    · rfl

/-- Every entry shows its last writer, or what it held at first. -/
def Shows {β : Type*} (t : Table α n) (f : β → α) (initial : β) (writes : List (Word × β)) : Prop :=
  ∀ i : Word, i.toNat < n → t.read i = some (f ((lastWrite writes i).getD initial))

theorem shows_replicate {β : Type*} (f : β → α) (initial : β) :
    Shows (Vector.replicate n (f initial) : Table α n) f initial [] := by
  intro i hi
  rw [read, Vector.getElem?_replicate, if_pos hi]
  rfl

theorem Shows.put {β : Type*} {t : Table α n} {f : β → α} {initial : β} {writes : List (Word × β)}
    (h : t.Shows f initial writes) (i : Word) (b : β) :
    (t.put i (f b)).Shows f initial (writes ++ [(i, b)]) := by
  intro j hj
  rw [read_put t i (f b) hj, lastWrite_concat]
  by_cases hij : i = j
  · rw [if_pos hij, if_pos hij]
    rfl
  · rw [if_neg hij, if_neg hij]
    exact h j hj

/-- Every entry shows its last writer, or what another table holds there. -/
def Follows (t t₀ : Table α n) (writes : List (Word × α)) : Prop :=
  ∀ i : Word, i.toNat < n → t.read i = (lastWrite writes i).or (t₀.read i)

theorem follows_nil (t : Table α n) : t.Follows t [] := fun _ _ => rfl

theorem Follows.put {t t₀ : Table α n} {writes : List (Word × α)} (h : t.Follows t₀ writes) (i : Word)
    (a : α) : (t.put i a).Follows t₀ (writes ++ [(i, a)]) := by
  intro j hj
  rw [read_put t i a hj, lastWrite_concat]
  by_cases hij : i = j
  · rw [if_pos hij, if_pos hij]
    rfl
  · rw [if_neg hij, if_neg hij]
    exact h j hj

theorem Follows.puts {t t₀ : Table α n} {before : List (Word × α)} (h : t.Follows t₀ before)
    (writes : List (Word × α)) :
    (writes.foldl (fun t w => t.put w.1 w.2) t).Follows t₀ (before ++ writes) := by
  induction writes generalizing t before with
  | nil => rwa [List.append_nil]
  | cons w writes ih =>
    have := ih (h.put w.1 w.2)
    rwa [List.append_assoc] at this

/-- The first `k` values of a loop's counter. -/
def counter (k : Nat) : List Word := (List.range k).map (BitVec.ofNat 64)

theorem mem_counter {k : Nat} {i : Word} (hi : i.toNat < k) : i ∈ counter k :=
  List.mem_map.mpr ⟨i.toNat, List.mem_range.mpr hi, by rw [BitVec.ofNat_toNat, BitVec.setWidth_eq]⟩

/-- A loop over the whole table fills it. -/
theorem fill_eq (hn : n ≤ 2 ^ 64) (t : Table α n) (a : α) :
    (counter n).foldl (fun t i => t.put i a) t = Vector.replicate n a := by
  have h := (follows_nil t).puts ((counter n).map fun i => (i, a))
  rw [List.foldl_map, List.nil_append] at h
  refine Vector.ext fun i hi => ?_
  have hto : (BitVec.ofNat 64 i).toNat = i := by rw [BitVec.toNat_ofNat, Nat.mod_eq_of_lt (by omega)]
  have hread := h (BitVec.ofNat 64 i) (by rw [hto]; exact hi)
  have hmem : BitVec.ofNat 64 i ∈ counter n := mem_counter (by rw [hto]; exact hi)
  have hlast := lastWrite_map Function.injective_id (fun _ => a) (counter n) (BitVec.ofNat 64 i)
  rw [if_pos hmem] at hlast
  rw [show lastWrite ((counter n).map fun i => (i, a)) (BitVec.ofNat 64 i) = some a from hlast,
    Option.some_or, read, hto, Vector.getElem?_eq_getElem hi] at hread
  rw [Option.some.inj hread, Vector.getElem_replicate]

end Table

end Testos.Foundation
