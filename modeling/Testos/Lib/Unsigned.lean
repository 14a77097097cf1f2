import Testos.Lib.AlternateHex

/-! Unsigned conversion.

`print_unsigned` divides a 64-bit number down to its digits, lowest first, may put the
prefix `0x` behind them, turns the buffer round and pads what it holds.
`print_unsigned_numeral`: what comes out is the canonical numeral, and its longest forms,
twenty decimal digits or the prefix and sixteen others, leave room in the 27 bytes. -/
namespace Testos.Lib
open Foundation

/-! ### Digits and text -/

/-- The two bases that `my_vsnprintf` asks for. -/
def UnsignedBase (base : Nat) : Prop := base = 10 ∨ base = 16

section Base
variable {base : Nat} (hbase : UnsignedBase base)
include hbase

theorem UnsignedBase.bounds : 1 < base ∧ base ≤ 16 := by
  rcases hbase with rfl | rfl <;> simp

/-- Twenty digits are enough for 64 bits. -/
theorem lowDigits_unsigned (n : Word) : (lowDigits base n.toNat).length ≤ 20 := by
  have hlt := n.isLt
  rcases hbase with rfl | rfl
  · exact lowDigits_length_le (by decide) (show n.toNat < 10 ^ 20 by omega)
  · exact lowDigits_length_le (by decide) (show n.toNat < 16 ^ 20 by omega)

theorem pushDigits_unsigned (n : Word) : pushDigits base n.toNat [] 27 = some (lowDigits base n.toNat) := by
  obtain ⟨hlo, hhi⟩ := hbase.bounds
  have hlen := lowDigits_unsigned hbase n
  exact pushDigits_eq hlo hhi n.toNat [] (by omega)

/-- The numeral has as many digits as the loop pushes, or one. -/
theorem numeral_unsigned (n : Word) : (numeral base n.toNat).length ≤ 20 := by
  have hlen := lowDigits_unsigned hbase n
  rw [lowDigits, List.length_map] at hlen
  by_cases h0 : n.toNat = 0
  · rw [h0]
    exact Nat.le_add_left 1 19
  · rw [numeral_of_pos h0, List.length_reverse]
    exact hlen

end Base

/-- The numeral as a string of the program. -/
def unsignedString {base : Nat} (hbase : UnsignedBase base) (m : Nat) : CString :=
  ⟨tableText (numeral base m), tableText_noNul hbase.bounds.1 hbase.bounds.2 m⟩

@[simp] theorem unsignedString_bytes {base : Nat} (hbase : UnsignedBase base) (m : Nat) :
    (unsignedString hbase m).bytes = tableText (numeral base m) := rfl

/-! ### What is printed -/

section Print
variable {base : Nat} (hbase : UnsignedBase base) (n : Word) (props : StrProps)
include hbase

/-- Zero has no digits and gets one, under any flags. -/
theorem printUnsigned_zero (ps : PStream) :
    printUnsigned ps 0 base props = some (printStr ps (unsignedString hbase 0) props) := by
  have h0 : (0 : Word).toNat = 0 := rfl
  have hdigits := pushDigits_unsigned hbase 0
  rw [h0, lowDigits_zero] at hdigits
  rw [printUnsigned, h0, hdigits, Option.bind_some, if_pos rfl, push_some (by simp), Option.bind_some]
  exact printBuffer_text rfl (by simp) ps props

/-- Without a prefix the number is its numeral, padded like a string. -/
theorem printUnsigned_text (hplain : ¬ (props.alternate = true ∧ (base : Int) = 16)) (ps : PStream) :
    printUnsigned ps n base props = some (printStr ps (unsignedString hbase n.toNat) props) := by
  by_cases h0 : n = 0
  · subst h0
    exact printUnsigned_zero hbase props ps
  · have hpos : n.toNat ≠ 0 := fun h => h0 (BitVec.eq_of_toNat_eq h)
    have hlen := lowDigits_unsigned hbase n
    have hne := lowDigits_ne_nil hbase.bounds.1 hpos
    rw [printUnsigned, pushDigits_unsigned hbase n, Option.bind_some, if_neg hne, if_neg hplain]
    exact printBuffer_text (lowDigits_table hpos) (by omega) ps props

end Print

/-- The alternate form without other flags: the prefix, for a hexadecimal number that is
not zero. -/
theorem printUnsigned_alternate {base : Nat} (hbase : UnsignedBase base) (n : Word) (ps : PStream) :
    printUnsigned ps n base { alternate := true } =
      some (emit addchar ps
        ((if base = 16 ∧ 0 < n.toNat then [0x30, 0x78] else []) ++ tableText (numeral base n.toNat))) := by
  by_cases hprefix : base = 16 ∧ 0 < n.toNat
  · obtain ⟨rfl, hpos⟩ := hprefix
    have hn : n ≠ 0 := fun h => Nat.lt_irrefl 0 (by rwa [h] at hpos)
    have hblanks := printUnsigned_blanks_front hn { alternate := true } rfl (w := 0) (by decide) rfl rfl ps
    rw [Nat.zero_sub] at hblanks
    rw [if_pos ⟨rfl, hpos⟩]
    exact hblanks
  · rw [if_neg hprefix, List.nil_append]
    by_cases h0 : n = 0
    · subst h0
      rw [printUnsigned_zero hbase, printStr_emit]
      simp [field]
    · have hpos : 0 < n.toNat := Nat.pos_of_ne_zero fun h => h0 (BitVec.eq_of_toNat_eq h)
      have hplain : ¬ ((true : Bool) = true ∧ (base : Int) = 16) := fun h => hprefix ⟨Int.ofNat.inj h.2, hpos⟩
      rw [printUnsigned_text hbase n _ hplain, printStr_emit]
      simp [field]

/-- **Unsigned conversion.** Every 64-bit number is printed as its canonical numeral, in
the characters of the table, and in the alternate form behind `0x` exactly if it is a
hexadecimal number above zero. Digits, prefix and NUL fit the buffer, whatever the
flags. -/
theorem print_unsigned_numeral (n : Word) (base : Nat) (hbase : base = 10 ∨ base = 16) :
    ∃ ds : List Nat, IsNumeral base n.toNat ds ∧ (n = 0 → tableText ds = [0x30]) ∧
      (∀ ps, printUnsigned ps n base {} = some (emit addchar ps (tableText ds))) ∧
      (∀ ps, printUnsigned ps n base { alternate := true } =
        some (emit addchar ps ((if base = 16 ∧ 0 < n.toNat then [0x30, 0x78] else []) ++ tableText ds))) ∧
      ds.length + 2 + 1 ≤ 8 * 3 + 3 ∧
      ∀ ps props, ∃ ps', printUnsigned ps n base props = some ps' := by
  have hlen := numeral_unsigned hbase n
  refine ⟨numeral base n.toNat, numeral_isNumeral (UnsignedBase.bounds hbase).1 n.toNat, fun h => by rw [h]; rfl,
    fun ps => ?_, printUnsigned_alternate hbase n, by omega,
    fun ps props => printUnsigned_some ps n (hbase.imp (congrArg Nat.cast) (congrArg Nat.cast)) props⟩
  have hplain : ¬ ((false : Bool) = true ∧ (base : Int) = 16) := fun h => Bool.false_ne_true h.1
  rw [printUnsigned_text hbase n {} hplain, printStr_plain]
  rfl

/-- The largest number in base 16. -/
theorem print_unsigned_largest :
    ∃ ds : List Nat, IsNumeral 16 (BitVec.allOnes 64).toNat ds ∧
      (BitVec.allOnes 64 = 0 → tableText ds = [0x30]) ∧
      (∀ ps, printUnsigned ps (BitVec.allOnes 64) (16 : Nat) {} = some (emit addchar ps (tableText ds))) ∧
      (∀ ps, printUnsigned ps (BitVec.allOnes 64) (16 : Nat) { alternate := true } =
        some (emit addchar ps
          ((if 16 = 16 ∧ 0 < (BitVec.allOnes 64).toNat then [0x30, 0x78] else []) ++ tableText ds))) ∧
      ds.length + 2 + 1 ≤ 8 * 3 + 3 ∧
      ∀ ps props, ∃ ps', printUnsigned ps (BitVec.allOnes 64) (16 : Nat) props = some ps' :=
  print_unsigned_numeral (BitVec.allOnes 64) 16 (.inr rfl)

end Testos.Lib
