import Mathlib.Data.List.Lex
import Mathlib.Order.Defs.LinearOrder
import Testos.Lib.String

/-! The comparisons of `string.c`.

`strcmp`, `strncmp` and `memcmp` are three loops with three ways to stop: a NUL, a count,
a difference. Each reads through pointers, and a read that the pointer does not allow
fails. `one_order`: all three give the order of the strings as unsigned bytes, and none
reads past a NUL that ends it. -/
namespace Testos.Lib
open Foundation

/-! ### The loops -/

/-- The bytes a pointer may read, by their distance from it. -/
abbrev Bytes := Nat → Option Byte

/-- `strlen`, from index `len` on. -/
def strlenLoop (str : Bytes) : Nat → Nat → Option Nat
  | 0, _ => none
  | fuel + 1, len => (str len).bind fun c => if c ≠ 0 then strlenLoop str fuel (len + 1) else some len

/-- `strcmp`, `i` bytes on from where it started. -/
def strcmpLoop (s1 s2 : Bytes) : Nat → Nat → Option Int
  | 0, _ => none
  | fuel + 1, i =>
    (s1 i).bind fun a =>
      (s2 i).bind fun b =>
        if a ≠ 0 ∧ a = b then strcmpLoop s1 s2 fuel (i + 1) else some (a.toNat - b.toNat)

/-- `strncmp` from index `i` on, with `n` indices to go. -/
def strncmpLoop (s1 s2 : Bytes) : Nat → Nat → Option Int
  | 0, _ => some 0
  | n + 1, i =>
    (s1 i).bind fun a =>
      (s2 i).bind fun b =>
        if a ≠ b ∨ a = 0 then some (a.toNat - b.toNat) else strncmpLoop s1 s2 n (i + 1)

/-- `strncmp`. -/
def strncmp (s1 s2 : Bytes) (n : Nat) : Option Int := strncmpLoop s1 s2 n 0

/-- `memcmp`, `i` bytes on, with `n` to go. -/
def memcmpLoop (s1 s2 : Bytes) : Nat → Nat → Option Int
  | 0, _ => some 0
  | n + 1, i =>
    (s1 i).bind fun a =>
      (s2 i).bind fun b => if a ≠ b then some (a.toNat - b.toNat) else memcmpLoop s1 s2 n (i + 1)

/-- `memcmp`. -/
def memcmp (s1 s2 : Bytes) (n : Nat) : Option Int := memcmpLoop s1 s2 n 0

/-! ### What the loops return -/

/-- The first `n` bytes of a string. -/
def cut (n : Nat) (s : CString) : CString :=
  ⟨s.bytes.take n, fun h => s.noNul (List.mem_of_mem_take h)⟩

section
variable {s1 s2 : CString} {r1 r2 : List Byte} {i : Nat}

theorem strlenLoop_eq {s : CString} {rest : List Byte} (h : Here s i rest) {fuel : Nat}
    (hfuel : rest.length < fuel) : strlenLoop s.at? fuel i = some (i + rest.length) := by
  induction rest generalizing i fuel with
  | nil =>
    obtain ⟨fuel, rfl⟩ := Nat.exists_eq_succ_of_ne_zero (Nat.ne_of_gt hfuel)
    simp [strlenLoop, h.nul]
  | cons c rest ih =>
    obtain ⟨fuel, rfl⟩ := Nat.exists_eq_succ_of_ne_zero (show fuel ≠ 0 by omega)
    obtain ⟨hread, hne, hnext⟩ := h.read
    simp only [List.length_cons] at hfuel ⊢
    rw [strlenLoop, hread, Option.bind_some, if_pos hne, ih hnext (by omega)]
    congr 1
    omega

/-- Up to the first difference or the end of one of them, `strcmp` reads both strings. -/
theorem strcmpLoop_eq (h1 : Here s1 i r1) (h2 : Here s2 i r2) {fuel : Nat} (hfuel : r1.length < fuel) :
    strcmpLoop s1.at? s2.at? fuel i = some (strcmpFrom r1 r2) := by
  induction r1 generalizing r2 i fuel with
  | nil =>
    obtain ⟨fuel, rfl⟩ := Nat.exists_eq_succ_of_ne_zero (Nat.ne_of_gt hfuel)
    cases r2 with
    | nil => simp [strcmpLoop, h1.nul, h2.nul, strcmpFrom]
    | cons d r2 => simp [strcmpLoop, h1.nul, h2.read.1, strcmpFrom]
  | cons c r1 ih =>
    obtain ⟨fuel, rfl⟩ := Nat.exists_eq_succ_of_ne_zero (show fuel ≠ 0 by omega)
    obtain ⟨hread, hne, hnext⟩ := h1.read
    cases r2 with
    | nil =>
      rw [strcmpLoop, hread, h2.nul, Option.bind_some, Option.bind_some, if_neg fun h => hne h.2,
        strcmpFrom_cons_nil hne]
      exact congrArg some (Int.sub_zero _)
    | cons d r2 =>
      obtain ⟨hread', _, hnext'⟩ := h2.read
      rw [strcmpLoop, hread, hread', Option.bind_some, Option.bind_some, strcmpFrom_cons_cons]
      by_cases hcd : c = d
      · rw [if_pos ⟨hne, hcd⟩, if_pos hcd]
        exact ih hnext hnext' (Nat.lt_of_succ_lt_succ hfuel)
      · rw [if_neg fun h => hcd h.2, if_neg hcd]

/-- The count cuts both strings. -/
theorem strncmpLoop_eq (h1 : Here s1 i r1) (h2 : Here s2 i r2) (n : Nat) :
    strncmpLoop s1.at? s2.at? n i = some (strcmpFrom (r1.take n) (r2.take n)) := by
  induction n generalizing r1 r2 i with
  | zero => rfl
  | succ n ih =>
    cases r1 with
    | nil =>
      cases r2 with
      | nil => simp [strncmpLoop, h1.nul, h2.nul, strcmpFrom]
      | cons d r2 => simp [strncmpLoop, h1.nul, h2.read.1, strcmpFrom]
    | cons c r1 =>
      obtain ⟨hread, hne, hnext⟩ := h1.read
      cases r2 with
      | nil =>
        rw [strncmpLoop, hread, h2.nul, Option.bind_some, Option.bind_some, if_pos (.inl hne),
          List.take_succ_cons, List.take_nil, strcmpFrom_cons_nil hne]
        exact congrArg some (Int.sub_zero _)
      | cons d r2 =>
        obtain ⟨hread', _, hnext'⟩ := h2.read
        rw [strncmpLoop, hread, hread', Option.bind_some, Option.bind_some, List.take_succ_cons,
          List.take_succ_cons, strcmpFrom_cons_cons]
        by_cases hcd : c = d
        · rw [if_pos hcd, if_neg fun h => h.elim (absurd hcd) hne]
          exact ih hnext hnext'
        · rw [if_neg hcd, if_pos (.inl hcd)]

/-- Up to the end of the shorter string, its NUL included, there is a difference, unless
the strings are the same. -/
theorem memcmpLoop_eq (h1 : Here s1 i r1) (h2 : Here s2 i r2) :
    memcmpLoop s1.at? s2.at? (min r1.length r2.length + 1) i = some (strcmpFrom r1 r2) := by
  induction r1 generalizing r2 i with
  | nil =>
    rw [List.length_nil, Nat.zero_min]
    cases r2 with
    | nil => simp [memcmpLoop, h1.nul, h2.nul, strcmpFrom]
    | cons d r2 =>
      obtain ⟨hread', hne', _⟩ := h2.read
      rw [Nat.zero_add, memcmpLoop, h1.nul, hread', Option.bind_some, Option.bind_some, if_pos (Ne.symm hne')]
      rfl
  | cons c r1 ih =>
    obtain ⟨hread, hne, hnext⟩ := h1.read
    cases r2 with
    | nil =>
      rw [memcmpLoop, hread, h2.nul, Option.bind_some, Option.bind_some, if_pos hne, strcmpFrom_cons_nil hne]
      exact congrArg some (Int.sub_zero _)
    | cons d r2 =>
      obtain ⟨hread', _, hnext'⟩ := h2.read
      rw [memcmpLoop, hread, hread', Option.bind_some, Option.bind_some, strcmpFrom_cons_cons]
      by_cases hcd : c = d
      · rw [if_pos hcd, if_neg fun h => h hcd, List.length_cons, List.length_cons, Nat.succ_min_succ]
        exact ih hnext hnext'
      · rw [if_neg hcd, if_pos hcd]

end

/-! ### The order -/

/-- The bytes of a text, as the numbers an `unsigned char` makes of them. -/
def unsigned (l : List Byte) : List Nat := l.map BitVec.toNat

/-- Exchanging the strings negates the result. -/
theorem strcmpFrom_swap {l1 l2 : List Byte} (h1 : (0 : Byte) ∉ l1) (h2 : (0 : Byte) ∉ l2) :
    strcmpFrom l2 l1 = -strcmpFrom l1 l2 := by
  induction l1 generalizing l2 with
  | nil =>
    cases l2 with
    | nil => rfl
    | cons d l2 =>
      rw [strcmpFrom_nil_cons, strcmpFrom_cons_nil fun h => h2 (h ▸ List.mem_cons_self), Int.neg_neg]
  | cons c l1 ih =>
    cases l2 with
    | nil => rw [strcmpFrom_nil_cons, strcmpFrom_cons_nil fun h => h1 (h ▸ List.mem_cons_self)]
    | cons d l2 =>
      rw [strcmpFrom_cons_cons, strcmpFrom_cons_cons]
      by_cases hcd : c = d
      · rw [if_pos hcd, if_pos hcd.symm]
        exact ih (fun h => h1 (List.mem_cons_of_mem c h)) fun h => h2 (List.mem_cons_of_mem d h)
      · rw [if_neg hcd, if_neg fun h => hcd h.symm, Int.neg_sub]

/-- A negative result: the first string comes first. -/
theorem strcmpFrom_neg {l1 l2 : List Byte} (h1 : (0 : Byte) ∉ l1) (h2 : (0 : Byte) ∉ l2) :
    strcmpFrom l1 l2 < 0 ↔ unsigned l1 < unsigned l2 := by
  induction l1 generalizing l2 with
  | nil =>
    cases l2 with
    | nil => simp [strcmpFrom, unsigned]
    | cons d l2 =>
      have hd : d.toNat ≠ 0 := fun h => h2 (BitVec.eq_of_toNat_eq (y := 0) h ▸ List.mem_cons_self)
      rw [strcmpFrom_nil_cons]
      simp only [unsigned, List.map_cons, List.map_nil, List.nil_lt_cons, iff_true]
      omega
  | cons c l1 ih =>
    cases l2 with
    | nil =>
      rw [strcmpFrom_cons_nil fun h => h1 (h ▸ List.mem_cons_self)]
      simp [unsigned]
    | cons d l2 =>
      rw [strcmpFrom_cons_cons]
      simp only [unsigned, List.map_cons, List.cons_lt_cons_iff]
      by_cases hcd : c = d
      · rw [if_pos hcd, hcd, ih (fun h => h1 (List.mem_cons_of_mem c h)) fun h => h2 (List.mem_cons_of_mem d h)]
        simp [unsigned]
      · have hnat : c.toNat ≠ d.toNat := fun h => hcd (BitVec.eq_of_toNat_eq h)
        rw [if_neg hcd]
        omega

section
variable (s1 s2 : CString)

theorem strcmp_swap : strcmp s2 s1 = -strcmp s1 s2 := strcmpFrom_swap s1.noNul s2.noNul

theorem strcmp_neg : strcmp s1 s2 < 0 ↔ unsigned s1.bytes < unsigned s2.bytes :=
  strcmpFrom_neg s1.noNul s2.noNul

theorem strcmp_pos : 0 < strcmp s1 s2 ↔ unsigned s2.bytes < unsigned s1.bytes := by
  rw [← strcmp_neg, strcmp_swap]
  omega

theorem strcmp_le : strcmp s1 s2 ≤ 0 ↔ unsigned s1.bytes ≤ unsigned s2.bytes := by
  rw [← not_lt, strcmp_pos, not_lt]

end

/-- **One order.** On any strings, `strcmp` reads no byte past a NUL, and the sign of what
it returns is the order of the strings as unsigned bytes: zero for equal strings only,
opposite when they are exchanged, transitive. `strncmp` is `strcmp` of the strings cut to
the count, and `memcmp` up to the shorter string's NUL is `strcmp`; they read no further
either. -/
theorem one_order (s1 s2 : CString) :
    strcmpLoop s1.at? s2.at? (s1.length + 1) 0 = some (strcmp s1 s2) ∧
      (strcmp s1 s2 < 0 ↔ unsigned s1.bytes < unsigned s2.bytes) ∧
      (strcmp s1 s2 = 0 ↔ s1 = s2) ∧
      (0 < strcmp s1 s2 ↔ unsigned s2.bytes < unsigned s1.bytes) ∧
      (strcmp s2 s1).sign = -(strcmp s1 s2).sign ∧
      (∀ s3, (strcmp s1 s2 ≤ 0 → strcmp s2 s3 ≤ 0 → strcmp s1 s3 ≤ 0) ∧
        (strcmp s1 s2 < 0 → strcmp s2 s3 < 0 → strcmp s1 s3 < 0)) ∧
      (∀ n, strncmp s1.at? s2.at? n = some (strcmp (cut n s1) (cut n s2))) ∧
      memcmp s1.at? s2.at? (min s1.length s2.length + 1) = some (strcmp s1 s2) := by
  have h1 := Here.start s1
  have h2 := Here.start s2
  refine ⟨strcmpLoop_eq h1 h2 (Nat.lt_succ_self _), strcmp_neg s1 s2, strcmp_eq_zero s1 s2, strcmp_pos s1 s2, ?_,
    fun s3 => ⟨?_, ?_⟩, fun n => strncmpLoop_eq h1 h2 n, memcmpLoop_eq h1 h2⟩
  · rw [strcmp_swap, Int.sign_neg]
  · rw [strcmp_le, strcmp_le, strcmp_le]
    exact le_trans
  · rw [strcmp_neg, strcmp_neg, strcmp_neg]
    exact lt_trans

end Testos.Lib
