import Testos.Foundation.Numeral
import Testos.Foundation.Reversal
import Testos.Lib.Format

/-! Digits and their characters.

Every number printer of the kernel produces its digits backwards, by remainders, and
reverses them. The loops differ in when they stop and where the character comes from;
on a number that is not negative each produces the digits of the number.
`printInt_text`: `print_int` prints the numeral as `print_str` prints a string. -/
namespace Testos.Lib
open Foundation

/-! ### Numerals as text -/

def digitChar (d : Nat) : Byte := 0x30 + BitVec.ofNat 8 d

/-- The decimal numeral of a natural number. -/
def naturalText (m : Nat) : List Byte := (numeral 10 m).map digitChar

/-- The decimal numeral of an integer. -/
def decimalText (n : Int) : List Byte := (if n < 0 then [0x2d] else []) ++ naturalText n.natAbs

/-- The canonical decimal numeral of `n`: a minus sign exactly when it is negative, and
then the canonical digits of its magnitude. -/
structure Canonical (n : Int) (text : List Byte) : Prop where
  sign : text.head? = some 0x2d ↔ n < 0
  digits : ∃ ds, text = (if n < 0 then [0x2d] else []) ++ ds.map digitChar ∧ IsNumeral 10 n.natAbs ds

theorem digitChar_ne {d : Nat} (h : d < 10) : digitChar d ≠ 0 ∧ digitChar d ≠ 0x2d ∧ digitChar d ≠ 0x0a := by
  have hall : ∀ d < 10, digitChar d ≠ 0 ∧ digitChar d ≠ 0x2d ∧ digitChar d ≠ 0x0a := by decide
  exact hall d h

/-- A digit's character, read back. -/
theorem digitChar_isDigit {d : Nat} (h : d < 10) :
    isDigit (digitChar d) = true ∧ ((digitChar d).toNat : Int) - 0x30 = d := by
  have hall : ∀ d < 10, isDigit (digitChar d) = true ∧ ((digitChar d).toNat : Int) - 0x30 = (d : Nat) := by decide
  exact hall d h

theorem decimalText_canonical (n : Int) : Canonical n (decimalText n) := by
  have hnumeral := numeral_isNumeral (show 1 < 10 by decide) n.natAbs
  refine ⟨?_, numeral 10 n.natAbs, rfl, hnumeral⟩
  rw [decimalText]
  by_cases hneg : n < 0
  · rw [if_pos hneg]
    exact ⟨fun _ => hneg, fun _ => rfl⟩
  · rw [if_neg hneg, List.nil_append, naturalText]
    refine ⟨fun hhead => ?_, fun h => absurd h hneg⟩
    obtain ⟨d, rest, hds⟩ := List.exists_cons_of_ne_nil hnumeral.nonempty
    rw [hds, List.map_cons, List.head?_cons] at hhead
    have hd : d < 10 := hnumeral.digit d (by rw [hds]; exact List.mem_cons_self)
    exact absurd (Option.some.inj hhead) (digitChar_ne hd).2.1

/-- A numeral holds digits and a sign: no NUL and no newline. -/
theorem decimalText_plain {n : Int} {c : Byte} (h : c ∈ decimalText n) : c ≠ 0 ∧ c ≠ 0x0a := by
  rw [decimalText, List.mem_append] at h
  rcases h with h | h
  · split at h
    · rw [List.mem_singleton.mp h]
      decide
    · exact absurd h List.not_mem_nil
  · obtain ⟨d, hd, rfl⟩ := List.mem_map.mp h
    have hne := digitChar_ne ((numeral_isNumeral (show 1 < 10 by decide) n.natAbs).digit d hd)
    exact ⟨hne.1, hne.2.2⟩

/-! ### The loops -/

/-- `do { *p++ = '0' + value % 10; value /= 10; } while (value > 0)`, with `room` bytes
left. -/
def doDigits (value : Int) (buf : List Byte) : Nat → Option (List Byte)
  | 0 => none
  | room + 1 =>
    let buf := buf ++ [BitVec.ofInt 8 (0x30 + value.tmod 10)]
    if value.tdiv 10 > 0 then doDigits (value.tdiv 10) buf room else some buf

/-- `while (value > 0) { buffer[i++] = value % 10 + '0'; value /= 10; }`, with `room`
bytes left. -/
def whileDigits (value : Int) (buf : List Byte) : Nat → Option (List Byte)
  | 0 => if value > 0 then none else some buf
  | room + 1 =>
    if value > 0 then
      whileDigits (value.tdiv 10) (buf ++ [BitVec.ofInt 8 (value.tmod 10 + 0x30)]) room
    else some buf

/-- The digits of a number in base `b`, the lowest first, as characters. -/
def lowDigits (b m : Nat) : List Byte := (Nat.digits b m).map fun d => digits.getD d 0

theorem lowDigits_zero (b : Nat) : lowDigits b 0 = [] := by
  rw [lowDigits, Nat.digits_zero, List.map_nil]

theorem lowDigits_step {b m : Nat} (hb : 1 < b) (h : m ≠ 0) :
    lowDigits b m = digits.getD (m % b) 0 :: lowDigits b (m / b) := by
  rw [lowDigits, digits_step hb h, List.map_cons, lowDigits]

theorem lowDigits_ne_nil {b m : Nat} (hb : 1 < b) (h : m ≠ 0) : lowDigits b m ≠ [] := by
  rw [lowDigits_step hb h]
  exact List.cons_ne_nil _ _

/-- Only zero has no digits. -/
theorem eq_zero_of_lowDigits {b m : Nat} (hb : 1 < b) (h : (lowDigits b m).length ≤ 0) : m = 0 := by
  by_contra hne
  exact lowDigits_ne_nil hb hne (List.length_eq_zero_iff.mp (Nat.le_zero.mp h))

theorem lowDigits_length_le {b k m : Nat} (hb : 1 < b) (h : m < b ^ k) : (lowDigits b m).length ≤ k := by
  rw [lowDigits, List.length_map]
  exact (Nat.digits_length_le_iff hb m).mpr h

theorem lowDigits_ten (m : Nat) : lowDigits 10 m = (Nat.digits 10 m).map digitChar := by
  have hall : ∀ d < 10, digits.getD d 0 = digitChar d := by decide
  exact List.map_congr_left fun d hd => hall d (Nat.digits_lt_base (by decide) hd)

/-- Digits, most significant first, from the table. -/
def tableText (ds : List Nat) : List Byte := ds.map fun d => digits.getD d 0

/-- Reversed, they are the numeral, but for zero, which has none. -/
theorem lowDigits_table {b m : Nat} (h : m ≠ 0) : (lowDigits b m).reverse = tableText (numeral b m) := by
  rw [lowDigits, tableText, numeral_of_pos h, List.map_reverse]

theorem tableText_noNul {b : Nat} (hlo : 1 < b) (hhi : b ≤ 16) (m : Nat) : (0 : Byte) ∉ tableText (numeral b m) := by
  have hall : ∀ d < 16, digits.getD d 0 ≠ 0 := by decide
  intro h
  obtain ⟨d, hd, h0⟩ := List.mem_map.mp h
  exact hall d (Nat.lt_of_lt_of_le ((numeral_isNumeral hlo m).digit d hd) hhi) h0

theorem lowDigits_reverse {m : Nat} (h : m ≠ 0) : (lowDigits 10 m).reverse = naturalText m := by
  rw [lowDigits_ten, naturalText, numeral_of_pos h, List.map_reverse]

theorem naturalText_zero : naturalText 0 = [0x30] := rfl

/-- The table loop. -/
theorem pushDigits_eq {base : Nat} (hlo : 2 ≤ base) (hhi : base ≤ 16) (m : Nat) (buf : List Byte)
    {room : Nat} (hroom : (lowDigits base m).length ≤ room) :
    pushDigits base m buf room = some (buf ++ lowDigits base m) := by
  induction room generalizing m buf with
  | zero =>
    obtain rfl := eq_zero_of_lowDigits (by omega) hroom
    rw [lowDigits_zero, List.append_nil]
    rfl
  | succ room ih =>
    by_cases h0 : m = 0
    · subst h0
      rw [lowDigits_zero, List.append_nil]
      rfl
    · have hdigit : m % base < digits.length :=
        Nat.lt_of_lt_of_le (Nat.mod_lt m (by omega)) hhi
      have hint : (m : Int) ≠ 0 := fun he => h0 (Int.ofNat.inj he)
      have hnonneg : ¬ ((m % base : Nat) : Int) < 0 := Int.not_lt.mpr (Int.natCast_nonneg _)
      rw [lowDigits_step (by omega) h0] at hroom ⊢
      rw [pushDigits, if_neg hint]
      simp only [← Int.ofNat_tmod, ← Int.ofNat_tdiv]
      rw [if_neg hnonneg, Int.toNat_natCast, List.getElem?_eq_getElem hdigit, Option.bind_some,
        ih _ _ (Nat.le_of_succ_le_succ hroom), List.append_assoc, List.getD_eq_getElem?_getD,
        List.getElem?_eq_getElem hdigit]
      rfl

/-- The character of a remainder, computed or looked up. -/
theorem ofInt_digit (m : Nat) :
    BitVec.ofInt 8 (0x30 + (m : Int).tmod 10) = digits.getD (m % 10) 0 := by
  have hall : ∀ d < 10, BitVec.ofInt 8 (0x30 + ((d : Nat) : Int)) = digits.getD d 0 := by decide
  exact hall _ (Nat.mod_lt m (by decide))

theorem tdiv_ten (m : Nat) : (m : Int).tdiv 10 = ((m / 10 : Nat) : Int) := (Int.ofNat_tdiv m 10).symm

/-- The loop that tests first. -/
theorem whileDigits_eq (m : Nat) (buf : List Byte) {room : Nat}
    (hroom : (lowDigits 10 m).length ≤ room) :
    whileDigits m buf room = some (buf ++ lowDigits 10 m) := by
  induction room generalizing m buf with
  | zero =>
    obtain rfl := eq_zero_of_lowDigits (by omega) hroom
    rw [lowDigits_zero, List.append_nil]
    rfl
  | succ room ih =>
    by_cases h0 : m = 0
    · subst h0
      rw [lowDigits_zero, List.append_nil]
      rfl
    · rw [lowDigits_step (by decide) h0] at hroom ⊢
      rw [whileDigits, if_pos (Int.natCast_pos.mpr (Nat.pos_of_ne_zero h0))]
      rw [Int.add_comm, ofInt_digit, tdiv_ten, ih _ _ (Nat.le_of_succ_le_succ hroom), List.append_assoc]
      rfl

/-- The loop that tests last writes a zero for zero. -/
theorem doDigits_eq (m : Nat) (buf : List Byte) {room : Nat} (hpos : 0 < room)
    (hroom : (lowDigits 10 m).length ≤ room) :
    doDigits m buf room = some (buf ++ (naturalText m).reverse) := by
  induction room generalizing m buf with
  | zero => exact absurd hpos (Nat.lt_irrefl 0)
  | succ room ih =>
    rw [doDigits, ofInt_digit, tdiv_ten]
    by_cases hlast : m / 10 = 0
    · rw [hlast, if_neg (by decide)]
      have hsmall : m < 10 := by omega
      have hall : ∀ m < 10, [digits.getD (m % 10) 0] = (naturalText m).reverse := by decide
      rw [hall m hsmall]
    · have h0 : m ≠ 0 := by omega
      rw [lowDigits_step (by decide) h0] at hroom
      have hrest : (lowDigits 10 (m / 10)).length ≤ room := Nat.le_of_succ_le_succ hroom
      have hmore : 0 < room := by
        rw [lowDigits_step (by decide) hlast] at hrest
        exact Nat.lt_of_lt_of_le (Nat.zero_lt_succ _) hrest
      rw [if_pos (Int.natCast_pos.mpr (Nat.pos_of_ne_zero hlast)), ih _ _ hmore hrest,
        ← lowDigits_reverse h0, ← lowDigits_reverse hlast, List.reverse_reverse, List.reverse_reverse,
        lowDigits_step (by decide) h0, List.append_assoc]
      rfl

/-! ### The reversal of the formatter -/

/-- Counting an index up exchanges that many items of each end. -/
theorem swapLoop_split (a m b : List Byte) {n : Nat} (ha : a.length = n) (hb : b.length = n) :
    swapLoop (a ++ (m ++ b)) n = b.reverse ++ (m ++ a.reverse) := by
  induction n generalizing a m b with
  | zero =>
    rw [List.length_eq_zero_iff.mp ha, List.length_eq_zero_iff.mp hb]
    rfl
  | succ n ih =>
    rcases List.eq_nil_or_concat a with rfl | ⟨a, x, rfl⟩
    · cases ha
    obtain ⟨y, b, rfl⟩ := List.exists_cons_of_length_pos (show 0 < b.length by omega)
    have hla : a.length = n := by simpa using ha
    have hlb : b.length = n := by simpa using hb
    have hin : a.concat x ++ (m ++ y :: b) = a ++ ((x :: (m ++ [y])) ++ b) := by simp
    rw [swapLoop, hin, ih a (x :: (m ++ [y])) b hla hlb]
    have hmid : b.reverse ++ ((x :: (m ++ [y])) ++ a.reverse) =
        b.reverse ++ x :: (m ++ y :: a.reverse) := by simp
    rw [hmid]
    have hswap := exchange_split (0 : Byte) b.reverse m a.reverse x y (i := n)
      (j := (b.reverse ++ x :: (m ++ y :: a.reverse)).length - 1 - n) (by simp [hlb]) (by simp; omega)
    refine (show swapEnds _ n = _ from hswap).trans ?_
    simp

/-- Half the length of exchanges reverse the buffer. -/
theorem swapLoop_reverse (buf : List Byte) : swapLoop buf (buf.length / 2) = buf.reverse := by
  obtain ⟨a, rest, hbuf, ha⟩ : ∃ a rest, buf = a ++ rest ∧ a.length = buf.length / 2 :=
    ⟨buf.take (buf.length / 2), buf.drop (buf.length / 2), (List.take_append_drop _ _).symm, by
      rw [List.length_take]
      omega⟩
  obtain ⟨m, b, hrest, hm⟩ : ∃ m b, rest = m ++ b ∧ m.length = buf.length % 2 :=
    ⟨rest.take (buf.length % 2), rest.drop (buf.length % 2), (List.take_append_drop _ _).symm, by
      have hlen := congrArg List.length hbuf
      rw [List.length_append] at hlen
      rw [List.length_take]
      omega⟩
  have hlen := congrArg List.length hbuf
  rw [hrest, List.length_append, List.length_append] at hlen
  -- what is between the halves is at most one character
  have hmiddle : m.reverse = m := by
    rcases m with _ | ⟨x, _ | ⟨y, m⟩⟩
    · rfl
    · rfl
    · have hlong : m.length + 2 = buf.length % 2 := hm
      omega
  have hswap := swapLoop_split a m b ha (by omega)
  rw [← hrest, ← hbuf] at hswap
  rw [hswap, hbuf, hrest]
  simp [hmiddle]

/-! ### What the formatter prints -/

theorem push_some {room : Nat} {buf : List Byte} (h : buf.length < room) (c : Byte) :
    push room buf c = some (buf ++ [c]) := if_pos h

theorem wrap64_of_lt {n : Int} (hlo : -2 ^ 63 ≤ n) (hhi : n < 2 ^ 63) : wrap64 n = n :=
  Int.bmod_eq_of_le (by omega) (by omega)

theorem wrap32_of_lt {n : Int} (hlo : -2 ^ 31 ≤ n) (hhi : n < 2 ^ 31) : wrap32 n = n :=
  Int.bmod_eq_of_le (by omega) (by omega)

/-- A number above the lowest is negated to its magnitude. -/
theorem magnitude {n : Int} (hlo : -2 ^ 63 < n) (hhi : n < 2 ^ 63) :
    (if n < 0 then wrap64 (-n) else n) = (n.natAbs : Int) := by
  split
  · rw [wrap64_of_lt (by omega) (by omega)]
    omega
  · omega

theorem lowDigits_natAbs_length {n : Int} (hlo : -2 ^ 63 < n) (hhi : n < 2 ^ 63) :
    (lowDigits 10 n.natAbs).length ≤ 19 :=
  lowDigits_length_le (by decide) (show n.natAbs < 10 ^ 19 by omega)

/-- Text closed with a NUL reads back as itself. -/
theorem takeWhile_closed {text : List Byte} (h : ∀ c ∈ text, c ≠ 0) :
    (text ++ [0]).takeWhile (· ≠ 0) = text := by
  rw [List.takeWhile_append_of_pos (by simpa using h)]
  simp

theorem decimalText_noNul (n : Int) : ∀ c ∈ decimalText n, c ≠ 0 := fun _ hc => (decimalText_plain hc).1

/-- The numeral as a string of the program. -/
def decimalString (n : Int) : CString := ⟨decimalText n, fun h => decimalText_noNul n 0 h rfl⟩

@[simp] theorem decimalString_bytes (n : Int) : (decimalString n).bytes = decimalText n := rfl

/-- A buffer that holds a string backwards prints it. -/
theorem printBuffer_text {room : Nat} {buf : List Byte} {text : CString} (hreverse : buf.reverse = text.bytes)
    (hroom : buf.length < room) (ps : PStream) (props : StrProps) :
    printBuffer room ps buf props = some (printStr ps text props) := by
  have hlength : text.bytes.length < room := by
    rw [← hreverse, List.length_reverse]
    exact hroom
  have hclosed : (text.bytes ++ [0]).takeWhile (· ≠ 0) = text.bytes :=
    takeWhile_closed fun c hc => ne_of_mem_of_not_mem hc text.noNul
  simp only [printBuffer]
  rw [swapLoop_reverse, hreverse, push_some hlength, Option.map_some]
  simp only [hclosed]

/-- `print_int` prints the numeral as `print_str` does. -/
theorem printInt_text {n : Int} (hlo : -2 ^ 63 < n) (hhi : n < 2 ^ 63) (ps : PStream) (props : StrProps) :
    printInt ps n 10 props = some (printStr ps (decimalString n) props) := by
  have hlen := lowDigits_natAbs_length hlo hhi
  have hdigits : pushDigits 10 (n.natAbs : Int) [] 26 = some (lowDigits 10 n.natAbs) :=
    pushDigits_eq (show 2 ≤ 10 by decide) (by decide) n.natAbs [] (by omega)
  simp only [printInt, magnitude hlo hhi, hdigits, Option.bind_some]
  by_cases hneg : n < 0
  · have hne : n.natAbs ≠ 0 := by omega
    rw [if_pos hneg, push_some (by omega), Option.bind_some, if_neg (by simp), Option.bind_some]
    refine printBuffer_text ?_ (by rw [List.length_append, List.length_singleton]; omega) ps props
    rw [List.reverse_append, lowDigits_reverse hne, decimalString_bytes, decimalText, if_pos hneg]
    rfl
  · rw [if_neg hneg, Option.bind_some]
    by_cases h0 : n.natAbs = 0
    · rw [h0, lowDigits_zero, if_pos rfl, push_some (by decide), Option.bind_some]
      refine printBuffer_text ?_ (by decide) ps props
      rw [decimalString_bytes, decimalText, if_neg hneg, h0]
      rfl
    · rw [if_neg (lowDigits_ne_nil (by decide) h0), Option.bind_some]
      refine printBuffer_text ?_ (by omega) ps props
      rw [lowDigits_reverse h0, decimalString_bytes, decimalText, if_neg hneg, List.nil_append]

end Testos.Lib
