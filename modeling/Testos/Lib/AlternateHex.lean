import Testos.Lib.Padding

/-! Alternate hexadecimal.

`print_unsigned` has two ways to put the prefix `0x`: in the buffer with the digits, or,
if the pad character is a zero, on the stream before the padding, with a correction of
the width that it makes for positive widths only. `alternate_hex_iff` says for which
flags and widths the field comes out right. -/
namespace Testos.Lib
open Foundation

/-! ### Digits and prefix -/

/-- The hexadecimal numeral of a natural number. -/
def hexText (m : Nat) : List Byte := (numeral 16 m).map fun d => digits.getD d 0

theorem hexText_noNul (m : Nat) : (0 : Byte) ∉ hexText m := tableText_noNul (by decide) (by decide) m

def hexString (m : Nat) : CString := ⟨hexText m, hexText_noNul m⟩

@[simp] theorem hexString_bytes (m : Nat) : (hexString m).bytes = hexText m := rfl

@[simp] theorem hexString_length (m : Nat) : (hexString m).length = (hexText m).length := rfl

/-- The numeral behind its prefix. -/
def prefixedString (m : Nat) : CString where
  bytes := 0x30 :: 0x78 :: hexText m
  noNul := by
    intro h
    rcases List.mem_cons.mp h with h | h
    · cases h
    · rcases List.mem_cons.mp h with h | h
      · cases h
      · exact hexText_noNul m h

@[simp] theorem prefixedString_bytes (m : Nat) : (prefixedString m).bytes = 0x30 :: 0x78 :: hexText m := rfl

@[simp] theorem prefixedString_length (m : Nat) : (prefixedString m).length = 2 + (hexText m).length := by
  rw [CString.length, prefixedString_bytes, List.length_cons, List.length_cons]
  omega

theorem lowDigits_hex {m : Nat} (h : m ≠ 0) : (lowDigits 16 m).reverse = hexText m := lowDigits_table h

section Prefix
variable {n : Word} (hn : n ≠ 0) (props : StrProps) (halternate : props.alternate = true)
include hn

theorem lowDigits_word : n.toNat ≠ 0 ∧ (lowDigits 16 n.toNat).length ≤ 16 ∧ lowDigits 16 n.toNat ≠ [] := by
  have hpos : n.toNat ≠ 0 := fun h => hn (BitVec.eq_of_toNat_eq h)
  exact ⟨hpos, lowDigits_length_le (by decide) (show n.toNat < 16 ^ 16 from n.isLt), lowDigits_ne_nil (by decide) hpos⟩

theorem hexText_length : (hexText n.toNat).length ≤ 16 := by
  obtain ⟨hpos, hlen, _⟩ := lowDigits_word hn
  rw [← lowDigits_hex hpos, List.length_reverse]
  exact hlen

theorem pushDigits_hex : pushDigits 16 n.toNat [] 27 = some (lowDigits 16 n.toNat) :=
  pushDigits_eq (show 2 ≤ 16 by decide) (by decide) n.toNat []
    (Nat.le_trans (lowDigits_word hn).2.1 (show 16 ≤ 27 by decide))

include halternate

/-- With zeros to pad with, the prefix goes out before them. -/
theorem printUnsigned_zeros (hpad : props.pad = 0x30) (ps : PStream) :
    printUnsigned ps n 16 props =
      some (emit addchar ps (0x30 :: 0x78 :: field (hexString n.toNat)
        { props with npad :=
            if props.npad > 0 then (if props.npad - 2 > 0 then props.npad - 2 else 0) else props.npad })) := by
  obtain ⟨hpos, hlen, hne⟩ := lowDigits_word hn
  rw [printUnsigned, pushDigits_hex hn, Option.bind_some, if_neg hne, if_pos ⟨halternate, rfl⟩, if_pos hpad]
  show printBuffer 27 (addchar (addchar ps 0x30) 0x78) (lowDigits 16 n.toNat) _ = _
  have hreverse : (lowDigits 16 n.toNat).reverse = (hexString n.toNat).bytes := lowDigits_hex hpos
  rw [printBuffer_text hreverse (by omega), printStr_emit]
  rfl

/-- With blanks it is part of what is padded. -/
theorem printUnsigned_blanks (hpad : props.pad ≠ 0x30) (ps : PStream) :
    printUnsigned ps n 16 props = some (emit addchar ps (field (prefixedString n.toNat) props)) := by
  obtain ⟨hpos, hlen, hne⟩ := lowDigits_word hn
  have hreverse : (lowDigits 16 n.toNat ++ [0x78] ++ [0x30]).reverse = (prefixedString n.toNat).bytes := by
    simp [lowDigits_hex hpos]
  rw [printUnsigned, pushDigits_hex hn, Option.bind_some, if_neg hne, if_pos ⟨halternate, rfl⟩, if_neg hpad,
    push_some (by omega), Option.bind_some, push_some (by simp; omega), Option.bind_some,
    printBuffer_text hreverse (by simp; omega), printStr_emit]

variable {w : Nat} (hw : w < 2 ^ 31)
include hw

/-- A positive width is corrected for the prefix, -/
theorem printUnsigned_zeros_front (hpad : props.pad = 0x30) (hnpad : props.npad = w) (ps : PStream) :
    printUnsigned ps n 16 props =
      some (emit addchar ps (0x30 :: 0x78 ::
        (List.replicate (w - (2 + (hexText n.toNat).length)) 0x30 ++ hexText n.toNat))) := by
  have hlen := hexText_length hn
  have hcorrected : (if props.npad > 0 then (if props.npad - 2 > 0 then props.npad - 2 else 0) else props.npad) =
      ((w - 2 : Nat) : Int) := by
    rw [hnpad]
    split
    · split <;> omega
    · omega
  rw [printUnsigned_zeros hn props halternate hpad]
  simp only [hcorrected]
  rw [field_front (w := w - 2) (by omega) (by simp; omega) rfl, hexString_length, Nat.sub_sub, hexString_bytes]
  simp only [hpad]

/-- a negative one is not. -/
theorem printUnsigned_zeros_back (hpad : props.pad = 0x30) (hnpad : props.npad = -(w : Int)) (ps : PStream) :
    printUnsigned ps n 16 props =
      some (emit addchar ps (0x30 :: 0x78 ::
        (hexText n.toNat ++ List.replicate (w - (hexText n.toNat).length) 0x20))) := by
  have hlen := hexText_length hn
  have hwidth : ¬ props.npad > 0 := by omega
  rw [printUnsigned_zeros hn props halternate hpad]
  simp only [if_neg hwidth]
  rw [field_back (Nat.le_of_lt hw) (by simp; omega) hnpad, hexString_length, hexString_bytes]

theorem printUnsigned_blanks_front (hpad : props.pad = 0x20) (hnpad : props.npad = w) (ps : PStream) :
    printUnsigned ps n 16 props =
      some (emit addchar ps
        (List.replicate (w - (2 + (hexText n.toNat).length)) 0x20 ++ 0x30 :: 0x78 :: hexText n.toNat)) := by
  have hlen := hexText_length hn
  rw [printUnsigned_blanks hn props halternate (by rw [hpad]; decide), field_front hw (by simp; omega) hnpad,
    prefixedString_length, prefixedString_bytes, hpad]

theorem printUnsigned_blanks_back (hpad : props.pad ≠ 0x30) (hnpad : props.npad = -(w : Int)) (ps : PStream) :
    printUnsigned ps n 16 props =
      some (emit addchar ps (0x30 :: 0x78 ::
        (hexText n.toNat ++ List.replicate (w - (2 + (hexText n.toNat).length)) 0x20))) := by
  have hlen := hexText_length hn
  rw [printUnsigned_blanks hn props halternate hpad, field_back (Nat.le_of_lt hw) (by simp; omega) hnpad,
    prefixedString_length, prefixedString_bytes]
  rfl

end Prefix

/-! ### Conversions -/

/-- `x`, which needs a `#`, and `p`, which does not. -/
inductive HexLetter where
  | x
  | p
deriving DecidableEq

namespace HexLetter

def byte : HexLetter → Byte
  | .x => 0x78
  | .p => 0x70

theorem byte_ne (letter : HexLetter) : letter.byte ≠ 0 := by
  cases letter <;> decide

/-- The number it prints. -/
def number (letter : HexLetter) (nlong : Nat) (slot : Word) : Word :=
  match letter with
  | .x => unsignedArg nlong slot
  | .p => slot

end HexLetter

/-- A conversion of alternate hexadecimal. -/
structure AlternateSpec extends FieldSpec where
  letter : HexLetter
  nlong : Nat
  alternate : letter = .p ∨ Flag.hash ∈ before ++ after

namespace AlternateSpec

def format (spec : AlternateSpec) : CString :=
  spec.toFieldSpec.format spec.nlong spec.letter.byte spec.letter.byte_ne

/-- Whether a `-` was given, anywhere. -/
def minus (spec : AlternateSpec) : Bool := decide (Flag.minus ∈ spec.before ++ spec.after)

/-- The loop prints the number under the properties of the flags, and the alternate
form. -/
theorem formatLoop_number (spec : AlternateSpec) (hw : spec.width < 2 ^ 31) (a : Arg) (s : PStream) :
    formatLoop spec.format (2 * spec.format.length + 2) .plain 0 [a] s =
      printUnsigned s (spec.letter.number spec.nlong a.slot) 16 { spec.props with alternate := true } := by
  have hbytes : spec.format.bytes = conversionText spec.body spec.nlong spec.letter.byte := rfl
  obtain ⟨printer, hprinter, hprint⟩ : ∃ printer : Printer,
      (directive spec.letter.byte).printer spec.nlong spec.props = some printer ∧
        printer.print a s =
          printUnsigned s (spec.letter.number spec.nlong a.slot) 16 { spec.props with alternate := true } := by
    have halternate := (spec.props_eq hw).1
    have hgiven := spec.alternate
    cases hletter : spec.letter with
    | p => exact ⟨.pointer spec.props, rfl, rfl⟩
    | x =>
      refine ⟨.hex spec.nlong spec.props, rfl, ?_⟩
      have htrue : spec.props.alternate = true := by
        rw [halternate, decide_eq_true_eq]
        exact hgiven.resolve_left fun hp => by rw [hletter] at hp; cases hp
      have hprops : { spec.props with alternate := true } = spec.props := by rw [← htrue]
      rw [hprops]
      rfl
  rw [formatLoop_single hbytes spec.body_specifies hprinter, hprint]

/-- What comes out: with the width taken back only the number; otherwise padding that
counts the prefix, unless a zero has sent it ahead and a minus sign made the width
negative. -/
def output (spec : AlternateSpec) (digits : List Byte) : List Byte :=
  if ¬ spec.Keeps then 0x30 :: 0x78 :: digits
  else if signs false spec.before then
    0x30 :: 0x78 :: (digits ++ List.replicate
      (if zeroPads false spec.before then spec.width - digits.length else spec.width - (2 + digits.length)) 0x20)
  else if zeroPads false spec.before then
    0x30 :: 0x78 :: (List.replicate (spec.width - (2 + digits.length)) 0x30 ++ digits)
  else List.replicate (spec.width - (2 + digits.length)) 0x20 ++ 0x30 :: 0x78 :: digits

theorem output_length_le (spec : AlternateSpec) (digits : List Byte) :
    (spec.output digits).length ≤ 2 + digits.length + spec.width := by
  rw [output]
  split
  · simp only [List.length_cons]
    omega
  · split
    · simp only [List.length_cons, List.length_append, List.length_replicate]
      split <;> omega
    · split <;> simp only [List.length_cons, List.length_append, List.length_replicate] <;> omega

section Output
variable (spec : AlternateSpec) (hw : spec.width < 2 ^ 31) {n : Word} (hn : n ≠ 0)
include hw hn

theorem printUnsigned_output (ps : PStream) :
    printUnsigned ps n 16 { spec.props with alternate := true } =
      some (emit addchar ps (spec.output (hexText n.toNat))) := by
  obtain ⟨_, hkept, hlost⟩ := spec.props_eq hw
  have hblank : (0x20 : Byte) ≠ 0x30 := by decide
  by_cases hkeeps : spec.Keeps
  · obtain ⟨hpad, hnpad⟩ := hkept hkeeps
    rw [output, if_neg (not_not.mpr hkeeps)]
    by_cases hsign : signs false spec.before = true
    · rw [if_pos hsign] at hnpad ⊢
      by_cases hzero : zeroPads false spec.before = true
      · rw [if_pos hzero] at hpad ⊢
        exact printUnsigned_zeros_back hn { spec.props with alternate := true } rfl hw hpad hnpad ps
      · rw [if_neg hzero] at hpad ⊢
        exact printUnsigned_blanks_back hn { spec.props with alternate := true } rfl hw
          (fun h => hblank (hpad.symm.trans h)) hnpad ps
    · rw [if_neg hsign] at hnpad ⊢
      by_cases hzero : zeroPads false spec.before = true
      · rw [if_pos hzero] at hpad ⊢
        exact printUnsigned_zeros_front hn { spec.props with alternate := true } rfl hw hpad hnpad ps
      · rw [if_neg hzero] at hpad ⊢
        exact printUnsigned_blanks_front hn { spec.props with alternate := true } rfl hw hpad hnpad ps
  · have hnpad := hlost hkeeps
    rw [output, if_pos hkeeps]
    by_cases hpad : spec.props.pad = 0x30
    · have hplain := printUnsigned_zeros_front hn { spec.props with alternate := true } rfl (w := 0) (by decide)
        hpad hnpad ps
      rwa [Nat.zero_sub] at hplain
    · have hplain := printUnsigned_blanks_back hn { spec.props with alternate := true } rfl (w := 0) (by decide)
        hpad (by rw [hnpad]; rfl) ps
      rwa [Nat.zero_sub, List.replicate_zero, List.append_nil] at hplain

theorem formatLoop_output {a : Arg} (ha : spec.letter.number spec.nlong a.slot = n) (s : PStream) :
    formatLoop spec.format (2 * spec.format.length + 2) .plain 0 [a] s =
      some (emit addchar s (spec.output (hexText n.toNat))) := by
  rw [spec.formatLoop_number hw, ha, spec.printUnsigned_output hw hn]

end Output

end AlternateSpec

/-! ### The field -/

/-- The field of a number with these digits: wide enough and no wider, the prefix, zeros
and the digits, and blanks on one side. -/
structure HexField (minus : Bool) (w : Nat) (digits text : List Byte) : Prop where
  width : text.length = max w (2 + digits.length)
  shape : ∃ l z r,
    text = List.replicate l 0x20 ++ (0x30 :: 0x78 :: (List.replicate z 0x30 ++ digits)) ++ List.replicate r 0x20 ∧
      if minus then l = 0 else r = 0

/-- A `-` that counts was given. -/
theorem signs_minus {b : Bool} {flags : List Flag} (h : signs b flags = true) : b = true ∨ Flag.minus ∈ flags := by
  induction flags generalizing b with
  | nil => exact .inl h
  | cons flag flags ih =>
    cases flag with
    | hash => exact .inr (List.mem_cons_of_mem _ ((ih h).resolve_left fun hf => by cases hf))
    | zero => exact (ih h).imp_right (List.mem_cons_of_mem _)
    | minus => exact .inr List.mem_cons_self

namespace AlternateSpec

/-- When the field comes out right: the width is an `int`, and the number fills it
where it cannot be padded as it should, because a `0` or a `-` behind the width takes it
back, because the correction of a width with both `0` and `-` is missing, or because a
`-` has been undone by a `#` and the blanks would be on the left. -/
structure Right (spec : AlternateSpec) (digits : Nat) : Prop where
  int : spec.width < 2 ^ 31
  kept : ¬ spec.Keeps → spec.width ≤ 2 + digits
  corrected : spec.Keeps → signs false spec.before = true → zeroPads false spec.before = true → spec.width ≤ digits
  sided : spec.Keeps → signs false spec.before = false → zeroPads false spec.before = false →
    Flag.minus ∈ spec.before → spec.width ≤ 2 + digits

section Right
variable {spec : AlternateSpec} {digits : List Byte}

/-- The text is right then. -/
theorem Right.field (h : spec.Right digits.length) : HexField spec.minus spec.width digits (spec.output digits) := by
  have hint := h.int
  have hgiven : signs false spec.before = true → spec.minus = true := fun hsign =>
    decide_eq_true (List.mem_append_left _ ((signs_minus hsign).resolve_left fun hf => by cases hf))
  rw [output]
  by_cases hkeeps : spec.Keeps
  · rw [if_neg (not_not.mpr hkeeps)]
    cases hsign : signs false spec.before with
    | true =>
      have hminus : ∀ r, (if spec.minus = true then 0 = 0 else r = 0) := fun r => by rw [if_pos (hgiven hsign)]
      cases hzero : zeroPads false spec.before with
      | true =>
        have hfull := h.corrected hkeeps hsign hzero
        rw [if_pos rfl, if_pos rfl]
        exact ⟨by simp; omega, 0, 0, _, rfl, hminus _⟩
      | false =>
        rw [if_pos rfl, if_neg Bool.false_ne_true]
        exact ⟨by simp; omega, 0, 0, _, rfl, hminus _⟩
    | false =>
      rw [if_neg Bool.false_ne_true]
      cases hzero : zeroPads false spec.before with
      | true =>
        rw [if_pos rfl]
        exact ⟨by simp; omega, 0, _, 0, (List.append_nil _).symm, by simp⟩
      | false =>
        rw [if_neg Bool.false_ne_true]
        refine ⟨by simp; omega, _, 0, 0, (List.append_nil _).symm, ?_⟩
        split
        · next hminus =>
          -- it stands before the width, where it does not count
          have hbefore : Flag.minus ∈ spec.before := by
            refine (List.mem_append.mp (of_decide_eq_true hminus)).resolve_right fun hafter => ?_
            cases hkeeps _ hafter
          have hfull := h.sided hkeeps hsign hzero hbefore
          omega
        · rfl
  · have hfull := h.kept hkeeps
    rw [if_pos hkeeps]
    exact ⟨by simp; omega, 0, 0, 0, (List.append_nil _).symm, by simp⟩

/-- Otherwise its length or its first character is wrong. -/
theorem Right.of_field {text : List Byte} (hint : spec.width < 2 ^ 31)
    (hlength : text.length = (spec.output digits).length) (hhead : text.head? = (spec.output digits).head?)
    (h : HexField spec.minus spec.width digits text) : spec.Right digits.length := by
  have hwidth := h.width
  rw [hlength, output] at hwidth
  refine ⟨hint, fun hlost => ?_, fun hkeeps hsign hzero => ?_, fun hkeeps hsign hzero hminus => ?_⟩
  · rw [if_pos hlost] at hwidth
    simp only [List.length_cons] at hwidth
    omega
  · rw [if_neg (not_not.mpr hkeeps), if_pos hsign, if_pos hzero] at hwidth
    simp only [List.length_cons, List.length_append, List.length_replicate] at hwidth
    omega
  · by_contra hwide
    obtain ⟨k, hk⟩ := Nat.exists_eq_succ_of_ne_zero (show spec.width - (2 + digits.length) ≠ 0 by omega)
    obtain ⟨l, z, r, htext, hside⟩ := h.shape
    have hgiven : spec.minus = true := decide_eq_true (List.mem_append_left _ hminus)
    rw [if_pos hgiven] at hside
    rw [output, if_neg (not_not.mpr hkeeps), hsign, hzero, if_neg Bool.false_ne_true, if_neg Bool.false_ne_true,
      hk, htext, hside] at hhead
    cases hhead

end Right

end AlternateSpec

section AlternateHex
variable {spec : AlternateSpec} {a : Arg} {n : Word} (hnumber : spec.letter.number spec.nlong a.slot = n) (hn : n ≠ 0)
include hnumber hn

theorem AlternateSpec.Right.of_prints {text : List Byte} (hprints : Prints spec.format [a] text)
    (hfield : HexField spec.minus spec.width (hexText n.toNat) text) : spec.Right (hexText n.toNat).length := by
  have hlen := hexText_length hn
  have hlt := hprints.length_lt
  have hwidth := hfield.width
  have hint : spec.width < 2 ^ 31 := by omega
  have hout := spec.output_length_le (hexText n.toNat)
  obtain ⟨hlength, hhead⟩ := hprints.agrees (spec.formatLoop_output hint hn hnumber) (by omega)
  exact .of_field hint hlength hhead hfield

theorem AlternateSpec.Right.prints (h : spec.Right (hexText n.toNat).length) :
    Prints spec.format [a] (spec.output (hexText n.toNat)) ∧
      HexField spec.minus spec.width (hexText n.toNat) (spec.output (hexText n.toNat)) := by
  have hlen := hexText_length hn
  have hint := h.int
  have hfield := h.field
  exact ⟨prints_loop (spec.formatLoop_output hint hn hnumber) (by rw [hfield.width]; omega), hfield⟩

end AlternateHex

/-- **The field width of alternate hexadecimal.** For every number but zero, the flags,
the width and the number of digits decide whether the field is right. -/
theorem alternate_hex_iff (spec : AlternateSpec) (a : Arg) (hn : spec.letter.number spec.nlong a.slot ≠ 0) :
    (∃ text, Prints spec.format [a] text ∧
        HexField spec.minus spec.width (hexText (spec.letter.number spec.nlong a.slot).toNat) text) ↔
      spec.Right (hexText (spec.letter.number spec.nlong a.slot).toNat).length := by
  refine ⟨fun h => ?_, fun hright => ⟨_, hright.prints rfl hn⟩⟩
  obtain ⟨text, hprints, hfield⟩ := h
  exact .of_prints rfl hn hprints hfield

/-- `%#-8x`, `%#0-8x` and `%-#8x`. -/
def leftHex : AlternateSpec := ⟨⟨[.hash, .minus], 8, [], FieldSpec.apart_nil⟩, .x, 0, .inr (.head _)⟩
def zeroLeftHex : AlternateSpec := ⟨⟨[.hash, .zero, .minus], 8, [], FieldSpec.apart_nil⟩, .x, 0, .inr (.head _)⟩
def undoneLeftHex : AlternateSpec := ⟨⟨[.minus, .hash], 8, [], FieldSpec.apart_nil⟩, .x, 0, .inr (.tail _ (.head _))⟩

/-- `%#-8x` of 0xab is right. -/
theorem left_hex_right : ∃ text, Prints leftHex.format [.word 0xab] text ∧
    HexField leftHex.minus leftHex.width (hexText (leftHex.letter.number leftHex.nlong (0xab : Word)).toNat) text :=
  (alternate_hex_iff leftHex (.word 0xab) (by decide)).mpr
    ⟨by decide, fun h => absurd (by decide) h, fun _ _ h => absurd h (by decide), fun _ h => absurd h (by decide)⟩

/-- `%#0-8x` of 0xab takes ten characters, and `%-#8x` puts its blanks on the left. -/
theorem left_hex_wrong :
    (Prints zeroLeftHex.format [.word 0xab] ([0x30, 0x78, 0x61, 0x62] ++ List.replicate 6 0x20) ∧
      ¬ ∃ text, Prints zeroLeftHex.format [.word 0xab] text ∧
        HexField zeroLeftHex.minus zeroLeftHex.width (hexText 0xab) text) ∧
    (Prints undoneLeftHex.format [.word 0xab] (List.replicate 4 0x20 ++ [0x30, 0x78, 0x61, 0x62]) ∧
      ¬ ∃ text, Prints undoneLeftHex.format [.word 0xab] text ∧
        HexField undoneLeftHex.minus undoneLeftHex.width (hexText 0xab) text) := by
  have hn : (0xab : Word) ≠ 0 := by decide
  refine ⟨⟨?_, fun h => ?_⟩, ⟨?_, fun h => ?_⟩⟩
  · exact prints_loop (zeroLeftHex.formatLoop_output (a := .word 0xab) (by decide) hn rfl) (by decide)
  · obtain ⟨text, hprints, hfield⟩ := h
    have hright : zeroLeftHex.Right 2 := .of_prints (n := 0xab) rfl hn hprints hfield
    exact absurd (hright.corrected (by decide) (by decide) (by decide)) (by decide)
  · exact prints_loop (undoneLeftHex.formatLoop_output (a := .word 0xab) (by decide) hn rfl) (by decide)
  · obtain ⟨text, hprints, hfield⟩ := h
    have hright : undoneLeftHex.Right 2 := .of_prints (n := 0xab) rfl hn hprints hfield
    exact absurd (hright.sided (by decide) (by decide) (by decide) (by decide)) (by decide)

end Testos.Lib
