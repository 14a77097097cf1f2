import Mathlib.Data.Nat.Digits.Lemmas

/-! Numerals.

The numeral of a number in a base is its digits, the most significant first, with a
single zero for zero. `IsNumeral` says what makes it canonical: there are digits, all
of them below the base, none of them a leading zero, and they read back as the number. -/
namespace Testos.Foundation

/-- The digits of a numeral, the most significant first. -/
def numeral (b n : Nat) : List Nat := if n = 0 then [0] else (Nat.digits b n).reverse

/-- The value of digits, the most significant first. -/
def readDigits (b : Nat) (ds : List Nat) : Nat := ds.foldl (fun v d => b * v + d) 0

/-- `ds` is the canonical numeral of `n`. -/
structure IsNumeral (b n : Nat) (ds : List Nat) : Prop where
  nonempty : ds ≠ []
  digit : ∀ d ∈ ds, d < b
  noLeadingZero : ds.head? = some 0 → ds = [0]
  value : readDigits b ds = n

theorem readDigits_reverse (b : Nat) (ds : List Nat) : readDigits b ds.reverse = Nat.ofDigits b ds := by
  induction ds with
  | nil => rfl
  | cons d ds ih =>
    rw [List.reverse_cons, readDigits, List.foldl_append, ← readDigits, ih, Nat.ofDigits_cons,
      Nat.add_comm]
    rfl

theorem numeral_isNumeral {b : Nat} (hb : 1 < b) (n : Nat) : IsNumeral b n (numeral b n) := by
  unfold numeral
  split
  · next h0 =>
    subst h0
    exact ⟨List.cons_ne_nil _ _, fun d hd => by rw [List.mem_singleton.mp hd]; omega, fun _ => rfl, rfl⟩
  · next h0 =>
    have hne : Nat.digits b n ≠ [] := Nat.digits_ne_nil_iff_ne_zero.mpr h0
    refine ⟨fun hnil => hne (List.reverse_eq_nil_iff.mp hnil),
      fun d hd => Nat.digits_lt_base hb (List.mem_reverse.mp hd), fun hhead => ?_, ?_⟩
    · rw [List.head?_reverse, List.getLast?_eq_some_getLast hne] at hhead
      exact absurd (Option.some.inj hhead) (Nat.getLast_digit_ne_zero b h0)
    · rw [readDigits_reverse, Nat.ofDigits_digits]

theorem numeral_of_pos {b n : Nat} (h : n ≠ 0) : numeral b n = (Nat.digits b n).reverse := if_neg h

/-- The lowest digit of a positive number, and the rest. -/
theorem digits_step {b n : Nat} (hb : 1 < b) (h : n ≠ 0) :
    Nat.digits b n = n % b :: Nat.digits b (n / b) :=
  Nat.digits_def' hb (Nat.pos_of_ne_zero h)

/-- Reading on only makes the value larger. -/
theorem le_readOn {b : Nat} (hb : 0 < b) (v : Nat) (ds : List Nat) : v ≤ ds.foldl (fun v d => b * v + d) v := by
  induction ds generalizing v with
  | nil => exact Nat.le_refl v
  | cons d ds ih =>
    calc v ≤ b * v := Nat.le_mul_of_pos_left v hb
      _ ≤ b * v + d := Nat.le_add_right _ _
      _ ≤ _ := ih _

end Testos.Foundation
