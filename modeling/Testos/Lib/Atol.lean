import Testos.Lib.Compare
import Testos.Lib.Sprintf

/-! `atol` and `atoi` of `string.c`.

The parser skips blanks, takes a sign and accumulates digits until something else comes.
Its signed arithmetic is checked: a result its type does not have is a fault, as it is
undefined in C. `atoi_sprintf`: whatever stands around it, the text `simple_sprintf`
writes for an `int` is read back as that number, and nothing overflows on either way. -/
namespace Testos.Lib
open Foundation

/-! ### The parser -/

/-- A signed result of 64 bits; none when it overflows. -/
def checked64 (n : Int) : Option Int := if -2 ^ 63 ≤ n ∧ n < 2 ^ 63 then some n else none

/-- One of 32 bits. -/
def checked32 (n : Int) : Option Int := if -2 ^ 31 ≤ n ∧ n < 2 ^ 31 then some n else none

/-- Blank, tab or newline. -/
def isSpace (c : Byte) : Bool := c = 0x20 || c = 0x09 || c = 0x0a

/-- `while (*str == ' ' || *str == '\t' || *str == '\n') str++`. -/
def skipSpaces (str : Bytes) : Nat → Nat → Option Nat
  | 0, _ => none
  | fuel + 1, i => (str i).bind fun c => if isSpace c then skipSpaces str fuel (i + 1) else some i

/-- The digit loop of `atol`. -/
def atolDigits (str : Bytes) : Nat → Nat → Int → Option Int
  | 0, _, _ => none
  | fuel + 1, i, result =>
    (str i).bind fun c =>
      if isDigit c then
        (checked64 (result * 10)).bind fun scaled =>
          (checked64 (scaled + (c.toNat - 0x30))).bind fun result => atolDigits str fuel (i + 1) result
      else some result

/-- `atol`. -/
def atol (s : CString) : Option Int :=
  (skipSpaces s.at? (s.length + 1) 0).bind fun i =>
    (s.at? i).bind fun c =>
      let sign := if c = 0x2d then -1 else 1
      let i := if c = 0x2d ∨ c = 0x2b then i + 1 else i
      (atolDigits s.at? (s.length + 1) i 0).bind fun result => checked64 (result * sign)

/-- `atoi`. -/
def atoi (s : CString) : Option Int := (atol s).map wrap32

/-! ### Reading digits -/

theorem checked64_some {n : Int} (hlo : -2 ^ 63 ≤ n) (hhi : n < 2 ^ 63) : checked64 n = some n :=
  if_pos ⟨hlo, hhi⟩

theorem checked32_some {n : Int} (hlo : -2 ^ 31 ≤ n) (hhi : n < 2 ^ 31) : checked32 n = some n :=
  if_pos ⟨hlo, hhi⟩

/-- A digit is no blank and no sign. -/
theorem digitChar_begins {d : Nat} (h : d < 10) : isSpace (digitChar d) = false ∧ digitChar d ≠ 0x2b := by
  have hall : ∀ d < 10, isSpace (digitChar d) = false ∧ digitChar d ≠ 0x2b := by decide
  exact hall d h

section
variable {s : CString} {i : Nat} {rest : List Byte}

theorem skipSpaces_eq (rest : List Byte) {blanks : List Byte} (hblanks : ∀ c ∈ blanks, isSpace c = true)
    (hrest : isSpace (rest.headD 0) = false) (h : Here s i (blanks ++ rest)) {fuel : Nat}
    (hfuel : blanks.length < fuel) :
    skipSpaces s.at? fuel i = some (i + blanks.length) ∧ Here s (i + blanks.length) rest := by
  induction blanks generalizing i fuel with
  | nil =>
    obtain ⟨fuel, rfl⟩ := Nat.exists_eq_succ_of_ne_zero (Nat.ne_of_gt hfuel)
    refine ⟨?_, h⟩
    rw [skipSpaces, (show Here s i rest from h).head, Option.bind_some, if_neg (by rw [hrest]; exact Bool.false_ne_true)]
    rfl
  | cons c blanks ih =>
    obtain ⟨fuel, rfl⟩ := Nat.exists_eq_succ_of_ne_zero (show fuel ≠ 0 by omega)
    obtain ⟨hread, _, hnext⟩ := (show Here s i (c :: (blanks ++ rest)) from h).read
    have hlength : i + (c :: blanks).length = i + 1 + blanks.length := by
      rw [List.length_cons]
      omega
    rw [skipSpaces, hread, Option.bind_some, if_pos (hblanks c List.mem_cons_self), hlength]
    exact ih (fun d hd => hblanks d (List.mem_cons_of_mem c hd)) hnext (Nat.lt_of_succ_lt_succ hfuel)

/-- The loop accumulates the digits' value, as long as it is a `long`. -/
theorem atolDigits_eq {ds : List Nat} (hds : ∀ d ∈ ds, d < 10) (hrest : isDigit (rest.headD 0) = false)
    (h : Here s i (ds.map digitChar ++ rest)) {v : Nat}
    (hv : ds.foldl (fun v d => 10 * v + d) v < 2 ^ 63) {fuel : Nat} (hfuel : ds.length < fuel) :
    atolDigits s.at? fuel i v = some ((ds.foldl (fun v d => 10 * v + d) v : Nat) : Int) := by
  induction ds generalizing i v fuel with
  | nil =>
    obtain ⟨fuel, rfl⟩ := Nat.exists_eq_succ_of_ne_zero (Nat.ne_of_gt hfuel)
    rw [atolDigits, (show Here s i rest from h).head, Option.bind_some, if_neg (by rw [hrest]; exact Bool.false_ne_true)]
    rfl
  | cons d ds ih =>
    obtain ⟨fuel, rfl⟩ := Nat.exists_eq_succ_of_ne_zero (show fuel ≠ 0 by omega)
    obtain ⟨hread, _, hnext⟩ := (show Here s i (digitChar d :: (ds.map digitChar ++ rest)) from h).read
    obtain ⟨hdigit, hvalue⟩ := digitChar_isDigit (hds d List.mem_cons_self)
    -- the value so far is at most the final one
    have hle : 10 * v + d ≤ ds.foldl (fun v d => 10 * v + d) (10 * v + d) := le_readOn (by decide) _ ds
    have hbound : 10 * v + d < 2 ^ 63 := Nat.lt_of_le_of_lt hle hv
    have hacc : (v : Int) * 10 + d = ((10 * v + d : Nat) : Int) := by omega
    rw [atolDigits, hread, Option.bind_some, if_pos hdigit, hvalue, checked64_some (by omega) (by omega),
      Option.bind_some, hacc, checked64_some (by omega) (by omega), Option.bind_some]
    exact ih (fun e he => hds e (List.mem_cons_of_mem d he)) hnext hv (Nat.lt_of_succ_lt_succ hfuel)

end

/-- **A signed numeral** among blanks and a tail that does not go on with a digit. -/
theorem atol_text {s : CString} {blanks tail : List Byte} {ds : List Nat} (negative : Bool)
    (hblanks : ∀ c ∈ blanks, isSpace c = true) (htail : isDigit (tail.headD 0) = false)
    (hds : ∀ d ∈ ds, d < 10) (hne : ds ≠ []) (hvalue : readDigits 10 ds < 2 ^ 63)
    (hs : s.bytes = blanks ++ ((if negative then [0x2d] else []) ++ ds.map digitChar) ++ tail) :
    atol s = some (if negative then -(readDigits 10 ds : Int) else readDigits 10 ds) := by
  obtain ⟨d, ds', rfl⟩ := List.exists_cons_of_ne_nil hne
  obtain ⟨hspace, hplus⟩ := digitChar_begins (hds d List.mem_cons_self)
  have hminus : digitChar d ≠ 0x2d := (digitChar_ne (hds d List.mem_cons_self)).2.1
  have hread10 : readDigits 10 (d :: ds') = (d :: ds').foldl (fun v d => 10 * v + d) 0 := rfl
  have hlength : s.length = blanks.length + (if negative then 1 else 0) + (d :: ds').length + tail.length := by
    rw [CString.length, hs]
    cases negative <;> simp <;> omega
  have hstart := Here.start s
  rw [hs, List.append_assoc] at hstart
  cases negative with
  | true =>
    obtain ⟨hskip, hhere⟩ := skipSpaces_eq (0x2d :: ((d :: ds').map digitChar ++ tail)) hblanks
      (show isSpace 0x2d = false by decide) hstart
      (show blanks.length < s.length + 1 by omega)
    obtain ⟨hread, _, hnext⟩ := hhere.read
    have hdigits := atolDigits_eq hds htail hnext (v := 0) hvalue (show (d :: ds').length < s.length + 1 by omega)
    rw [atol, hskip, Option.bind_some, hread, Option.bind_some]
    show ((atolDigits s.at? (s.length + 1) (0 + blanks.length + 1) ((0 : Nat) : Int)).bind fun result =>
      checked64 (result * -1)) = some (-(readDigits 10 (d :: ds') : Int))
    rw [hdigits, Option.bind_some, Int.mul_neg_one]
    exact checked64_some (by omega) (by omega)
  | false =>
    obtain ⟨hskip, hhere⟩ := skipSpaces_eq ((d :: ds').map digitChar ++ tail) hblanks hspace hstart
      (show blanks.length < s.length + 1 by omega)
    have hread := hhere.head
    have hdigits := atolDigits_eq hds htail hhere (v := 0) hvalue (show (d :: ds').length < s.length + 1 by omega)
    have hhead : ((d :: ds').map digitChar ++ tail).headD 0 = digitChar d := rfl
    rw [hhead] at hread
    rw [atol, hskip, Option.bind_some, hread, Option.bind_some]
    simp only [if_neg hminus, if_neg (not_or.mpr ⟨hminus, hplus⟩)]
    show ((atolDigits s.at? (s.length + 1) (0 + blanks.length) ((0 : Nat) : Int)).bind fun result =>
      checked64 (result * 1)) = some (readDigits 10 (d :: ds') : Int)
    rw [hdigits, Option.bind_some, Int.mul_one]
    exact checked64_some (by omega) (by omega)

/-! ### Printing without overflow -/

/-- The digit loop of `itoa_decimal` with its arithmetic checked: the remainder, the
character, the quotient and the count of digits. -/
def doDigitsChecked (value : Int) (buf : List Byte) (digits : Int) : Nat → Option (List Byte)
  | 0 => none
  | room + 1 =>
    (checked64 (value.tmod 10)).bind fun d =>
    (checked64 (0x30 + d)).bind fun c =>
    (checked64 (value.tdiv 10)).bind fun value =>
    (checked32 (digits + 1)).bind fun digits =>
      let buf := buf ++ [BitVec.ofInt 8 c]
      if value > 0 then doDigitsChecked value buf digits room else some buf

/-- `itoa_decimal` with its signed arithmetic checked. -/
def itoaDecimalChecked (room : Nat) (value : Int) : Option (List Byte × Nat) :=
  let negative := value < 0
  (if negative then push room [] 0x2d else some []).bind fun sign =>
  (if negative then checked64 (-value) else some value).bind fun value =>
  (doDigitsChecked value sign 0 (room - sign.length)).bind fun buf =>
  (checked32 buf.length).bind fun _ =>
  (push room buf 0).map fun closed =>
    (closeIn 0 closed sign.length (buf.length - 1) buf.length, buf.length)

/-- On a number that is not negative nothing overflows. -/
theorem doDigitsChecked_eq {m : Nat} (hm : m < 2 ^ 63) (buf : List Byte) (digits : Nat) {room : Nat}
    (hroom : digits + room < 2 ^ 31) : doDigitsChecked m buf digits room = doDigits m buf room := by
  induction room generalizing m buf digits with
  | zero => rfl
  | succ room ih =>
    have hmod : (m : Int).tmod 10 = ((m % 10 : Nat) : Int) := (Int.ofNat_tmod m 10).symm
    have hcount : (digits : Int) + 1 = ((digits + 1 : Nat) : Int) := rfl
    have hdigit := Nat.mod_lt m (show 0 < 10 by decide)
    have hquotient := Nat.div_le_self m 10
    rw [doDigitsChecked, doDigits, tdiv_ten, hmod, checked64_some (by omega) (by omega), Option.bind_some,
      checked64_some (by omega) (by omega), Option.bind_some, checked64_some (by omega) (by omega),
      Option.bind_some, hcount, checked32_some (by omega) (by omega), Option.bind_some]
    simp only [ih (show m / 10 < 2 ^ 63 by omega) _ (digits + 1) (show digits + 1 + room < 2 ^ 31 by omega)]

theorem itoaDecimalChecked_eq {n : Int} (hlo : -2 ^ 63 < n) (hhi : n < 2 ^ 63) {room : Nat} (hroom : 22 ≤ room)
    (hint : room < 2 ^ 31) : itoaDecimalChecked room n = itoaDecimal room n := by
  have hnegate : (if n < 0 then checked64 (-n) else some n) = some (n.natAbs : Int) := by
    split
    · rw [checked64_some (by omega) (by omega)]
      congr 1
      omega
    · congr 1
      omega
  obtain ⟨sign, hsign, hsize⟩ : ∃ sign, (if n < 0 then push room [] 0x2d else some []) = some sign ∧
      sign.length ≤ 1 := by
    split
    · exact ⟨[0x2d], push_some (show 0 < room by omega) _, Nat.le_refl 1⟩
    · exact ⟨[], rfl, Nat.zero_le 1⟩
  have hlen := naturalText_length hlo hhi
  have hlow := lowDigits_natAbs_length hlo hhi
  have hchecked := doDigitsChecked_eq (show n.natAbs < 2 ^ 63 by omega) sign 0
    (show 0 + (room - sign.length) < 2 ^ 31 by omega)
  rw [show ((0 : Nat) : Int) = 0 from rfl] at hchecked
  have hdigits := doDigits_eq n.natAbs sign (show 0 < room - sign.length by omega)
    (show (lowDigits 10 n.natAbs).length ≤ room - sign.length by omega)
  have hlength : (sign ++ (naturalText n.natAbs).reverse).length ≤ 20 := by
    rw [List.length_append, List.length_reverse]
    omega
  simp only [itoaDecimalChecked, itoaDecimal, hsign, magnitude hlo hhi, Option.bind_some]
  rw [hnegate, Option.bind_some, hchecked, hdigits, Option.bind_some, Option.bind_some,
    checked32_some (by omega) (by omega), Option.bind_some]

/-! ### Round trip -/

/-- Reading a number back as an `int` changes nothing. -/
theorem wrap32_int (n : BitVec 32) : wrap32 n.toInt = n.toInt := by
  have hlo := BitVec.le_toInt n
  have hhi := BitVec.toInt_lt (x := n)
  exact wrap32_of_lt (by omega) (by omega)

/-- **Parsing undoes printing**: for every `int`, the lowest included, any blanks before
and any tail behind that does not go on with a digit. `atol` has checked its arithmetic,
and `itoa_decimal` with its arithmetic checked is `itoa_decimal`. -/
theorem atoi_sprintf (w : Word) (memory : Memory) (buf : Word) (blanks tail : List Byte)
    (hblanks : ∀ c ∈ blanks, isSpace c = true) (htail : isDigit (tail.headD 0) = false) :
    ∃ r, simpleSprintf memory buf (.lit "%d") [.word w] = some r ∧
      (∀ s : CString, s.bytes = blanks ++ (cstringAt r.memory buf).bytes ++ tail →
        atoi s = some (w.setWidth 32).toInt) ∧
      (itoaDecimalChecked 32 (w.setWidth 32).toInt).isSome ∧
      itoaDecimalChecked 32 (w.setWidth 32).toInt = itoaDecimal 32 (w.setWidth 32).toInt := by
  obtain ⟨hlo, hhi⟩ := int_range w
  have hrenders : Renders (CString.lit "%d").bytes [.word w] (decimalText (w.setWidth 32).toInt ++ []) :=
    .decimal w (.done [])
  rw [List.append_nil] at hrenders
  have hchecked := itoaDecimalChecked_eq hlo hhi (show 22 ≤ 32 by decide) (by decide)
  refine ⟨_, simpleSprintf_renders hrenders memory buf, fun s hs => ?_, ?_, hchecked⟩
  · generalize hn : (w.setWidth 32).toInt = n at *
    have hnumeral := numeral_isNumeral (show 1 < 10 by decide) n.natAbs
    have hsmall : n.natAbs < 2 ^ 63 := by omega
    have htext : (cstringAt (formatted memory buf (decimalText n)).memory buf).bytes = decimalText n := by
      have hlength := naturalText_length hlo hhi
      have hshort : (decimalText n).length < 2 ^ 64 := by
        rw [decimalText, List.length_append]
        split <;> simp <;> omega
      have hplain : ∀ c ∈ decimalText n, (decide (c ≠ 0)) = true := fun c hc => by simpa using decimalText_noNul n c hc
      rw [formatted, cstringAt_written _ _ _ hshort, List.takeWhile_eq_self_iff.mpr hplain]
    rw [htext] at hs
    have hparse := atol_text (decide (n < 0)) hblanks htail hnumeral.digit hnumeral.nonempty
      (by rw [hnumeral.value]; exact hsmall) (by simpa [decimalText, naturalText] using hs)
    rw [hnumeral.value] at hparse
    have hnarrow : wrap32 n = n := hn ▸ wrap32_int (w.setWidth 32)
    have habs : (if decide (n < 0) = true then -(n.natAbs : Int) else n.natAbs) = n := by
      simp only [decide_eq_true_eq]
      split <;> omega
    rw [atoi, hparse, habs, Option.map_some, hnarrow]
  · rw [hchecked, itoaDecimal_decimal hlo hhi (by decide)]
    rfl

/-- The lowest `int`, between two blanks and a letter. -/
theorem atoi_sprintf_lowest :
    ∃ r, simpleSprintf (fun _ => 0xff) 0x1000 (.lit "%d") [.word 0x80000000] = some r ∧
      (∀ s : CString, s.bytes = [0x20, 0x09] ++ (cstringAt r.memory 0x1000).bytes ++ [0x78] →
        atoi s = some ((0x80000000 : Word).setWidth 32).toInt) ∧
      (itoaDecimalChecked 32 ((0x80000000 : Word).setWidth 32).toInt).isSome ∧
      itoaDecimalChecked 32 ((0x80000000 : Word).setWidth 32).toInt =
        itoaDecimal 32 ((0x80000000 : Word).setWidth 32).toInt :=
  atoi_sprintf 0x80000000 (fun _ => 0xff) 0x1000 [0x20, 0x09] [0x78] (by decide) (by decide)

end Testos.Lib
