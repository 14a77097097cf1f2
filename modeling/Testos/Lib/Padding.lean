import Testos.Lib.Atol
import Testos.Lib.Flags

/-! Padded numbers.

`print_str` pads on the left with the pad character, or on the right with blanks, and
does not know what it pads. `print_int` hands it the sign with the digits, so the zeros
of `%05d` come before the sign. `zero_padded_iff`: a negative number is zero-padded as it
should be exactly when there is nothing to pad. -/
namespace Testos.Lib
open Foundation

/-! ### Fields -/

section Field
variable {s : CString} {props : StrProps} {w : Nat}

/-- A width pads on the left. -/
theorem field_front (hw : w < 2 ^ 31) (hs : s.length < 2 ^ 31) (hnpad : props.npad = w) :
    field s props = List.replicate (w - s.length) props.pad ++ s.bytes := by
  by_cases hpos : props.npad > 0
  · have hfront : wrap32 (props.npad - s.length) = (w : Int) - s.length := by
      rw [hnpad, wrap32_of_lt (by omega) (by omega)]
    have hcount : ((w : Int) - s.length).toNat = w - s.length := by omega
    -- what the string leaves of the width is no width of the other kind
    have hback : (-wrap32 (min ((w : Int) - s.length) 0 + s.length)).toNat = 0 := by
      rw [wrap32_of_lt (by omega) (by omega)]
      omega
    simp only [field, if_pos hpos, hfront, hcount, hback, List.replicate_zero, ite_self, List.append_nil]
  · have h0 : props.npad = 0 := by omega
    have hcount : w - s.length = 0 := by omega
    simp [field, h0, hcount]

/-- A negative one on the right, with blanks. The loop counts up, so the lowest `int` is
a width like any other. -/
theorem field_back (hw : w ≤ 2 ^ 31) (hs : s.length < 2 ^ 31) (hnpad : props.npad = -(w : Int)) :
    field s props = s.bytes ++ List.replicate (w - s.length) 0x20 := by
  have hleft : ¬ props.npad > 0 := by omega
  have hwrap : wrap32 (props.npad + s.length) = (s.length : Int) - w := by
    rw [hnpad, wrap32_of_lt (by omega) (by omega)]
    omega
  have hcount : (-((s.length : Int) - w)).toNat = w - s.length := by omega
  simp only [field, if_neg hleft, hwrap, hcount, List.nil_append]
  split
  · rfl
  · have h0 : w - s.length = 0 := by omega
    rw [h0]
    rfl

/-- **The padding law of `print_str`.** Every width makes the field as long as its
magnitude or the string, whichever is longer: one that is not negative with the pad
character before the string, a negative one with blanks behind it. -/
theorem printStr_pads (s : CString) (hs : s.length < 2 ^ 31) (pad : Byte) (w : BitVec 32) (alternate : Bool) :
    ∃ out : List Byte, (∀ p, printStr p s ⟨pad, w.toInt, alternate⟩ = emit addchar p out) ∧
      out.length = max w.toInt.natAbs s.length ∧
      (0 ≤ w.toInt → out = List.replicate (max 0 (w.toInt - s.length)).toNat pad ++ s.bytes) ∧
      (w.toInt < 0 → out = s.bytes ++ List.replicate (max 0 (-w.toInt - s.length)).toNat 0x20) ∧
      (0 < w.toInt → w.toInt ≤ s.length → out = s.bytes) := by
  have hlo := BitVec.le_toInt w
  have hhi := BitVec.toInt_lt (x := w)
  by_cases hneg : w.toInt < 0
  · obtain ⟨m, hm⟩ : ∃ m : Nat, w.toInt = -(m : Int) := ⟨w.toInt.natAbs, by omega⟩
    have hfield : field s ⟨pad, w.toInt, alternate⟩ = _ := field_back (w := m) (by omega) hs hm
    have hcount : (max 0 (-w.toInt - s.length)).toNat = m - s.length := by omega
    refine ⟨_, fun p => by rw [printStr_emit, hfield], ?_, fun h => absurd h (by omega), fun _ => by rw [hcount],
      fun h => absurd h (by omega)⟩
    rw [List.length_append, List.length_replicate, ← CString.length]
    omega
  · obtain ⟨m, hm⟩ : ∃ m : Nat, w.toInt = m := ⟨w.toInt.natAbs, by omega⟩
    have hfield : field s ⟨pad, w.toInt, alternate⟩ = _ := field_front (w := m) (by omega) hs hm
    have hcount : (max 0 (w.toInt - s.length)).toNat = m - s.length := by omega
    refine ⟨_, fun p => by rw [printStr_emit, hfield], ?_, fun _ => by rw [hcount], fun h => absurd h (by omega),
      fun _ hlong => ?_⟩
    · rw [List.length_append, List.length_replicate, ← CString.length]
      omega
    · rw [show m - s.length = 0 by omega]
      rfl

/-- The lowest `int` as a width. -/
theorem printStr_pads_lowest :
    ∃ out : List Byte,
      (∀ p, printStr p (.lit "ab") ⟨0x30, (BitVec.intMin 32).toInt, false⟩ = emit addchar p out) ∧
      out.length = max (BitVec.intMin 32).toInt.natAbs (CString.lit "ab").length ∧
      (0 ≤ (BitVec.intMin 32).toInt → out =
        List.replicate (max 0 ((BitVec.intMin 32).toInt - (CString.lit "ab").length)).toNat 0x30 ++
          (CString.lit "ab").bytes) ∧
      ((BitVec.intMin 32).toInt < 0 → out = (CString.lit "ab").bytes ++
        List.replicate (max 0 (-(BitVec.intMin 32).toInt - (CString.lit "ab").length)).toNat 0x20) ∧
      (0 < (BitVec.intMin 32).toInt → (BitVec.intMin 32).toInt ≤ (CString.lit "ab").length →
        out = (CString.lit "ab").bytes) :=
  printStr_pads (.lit "ab") (by decide) 0x30 (BitVec.intMin 32) false

end Field

/-! ### What a call prints -/

/-- Every call of `my_snprintf` writes `text`, as far as its buffer goes, and returns its
length. -/
def Prints (fmt : CString) (va : List Arg) (text : List Byte) : Prop :=
  ∀ (before : Memory) (buf : Word) (size : Nat), 1 ≤ size → size < 2 ^ 31 →
    ∃ r, mySnprintf before buf (BitVec.ofNat 32 size) fmt va = some r ∧
      Truncated buf size text before r ∧ r.count.toInt = text.length

section Prints
variable {fmt : CString} {va : List Arg} {out text : List Byte}

theorem Prints.length_lt (h : Prints fmt va text) : text.length < 2 ^ 31 := by
  obtain ⟨r, _, _, hcount⟩ := h (fun _ => 0) 0 1 (by decide) (by decide)
  have hlt := BitVec.toInt_lt (x := r.count)
  omega

variable (hloop : ∀ s, formatLoop fmt (2 * fmt.length + 2) .plain 0 va s = some (emit addchar s out))
include hloop

/-- What the loop emits is what a call prints, if an `int` can count it. -/
theorem prints_loop (hout : out.length < 2 ^ 31) : Prints fmt va out := by
  intro before buf size hlo hhi
  obtain ⟨r, hr, htruncated⟩ := myVsnprintf_truncated hloop before buf size hlo hhi
  exact ⟨r, hr, htruncated, by rw [htruncated.count, toInt_count hout]⟩

/-- There is nothing else that it prints. -/
theorem Prints.agrees (h : Prints fmt va text) (hout : out.length < 2 ^ 32) :
    text.length = out.length ∧ text.head? = out.head? := by
  have hlt := h.length_lt
  obtain ⟨r, hr, htext, _⟩ := h (fun _ => 0) 0 2 (by decide) (by decide)
  obtain ⟨r', hr', hemitted⟩ := myVsnprintf_truncated hloop (fun _ => 0) 0 2 (by decide) (by decide)
  obtain rfl : r = r' := Option.some.inj (hr.symm.trans hr')
  have hcount := congrArg BitVec.toNat (htext.count.symm.trans hemitted.count)
  rw [BitVec.toNat_ofNat, BitVec.toNat_ofNat, Nat.mod_eq_of_lt (by omega), Nat.mod_eq_of_lt hout] at hcount
  refine ⟨hcount, ?_⟩
  cases text with
  | nil => rw [List.length_eq_zero_iff.mp hcount.symm]
  | cons c text =>
    obtain ⟨d, out, rfl⟩ := List.exists_cons_of_length_pos (show 0 < out.length by rw [← hcount]; simp)
    exact congrArg some ((htext.chars 0 (by simp) (by decide)).symm.trans (hemitted.chars 0 (by simp) (by decide)))

end Prints

/-! ### Formats of one conversion -/

theorem Specifies.ne_zero {c : Byte} (h : Specifies c) : c ≠ 0 := by
  rcases h with rfl | rfl | h
  · decide
  · decide
  · intro h0
    subst h0
    cases h

/-- The format that is `%`, flags, a width and flags again, `l`s and a letter. -/
def FieldSpec.format (spec : FieldSpec) (nlong : Nat) (letter : Byte) (hletter : letter ≠ 0) : CString where
  bytes := conversionText spec.body nlong letter
  noNul := by
    intro h
    rw [conversionText, List.mem_cons, List.mem_append, List.mem_append, List.mem_singleton] at h
    rcases h with h | h | h | h
    · cases h
    · exact (spec.body_specifies 0 h).ne_zero rfl
    · cases List.eq_of_mem_replicate h
    · exact hletter h.symm

/-- `%d` under any flags and width writes the numeral's field. -/
theorem formatLoop_decimal (spec : FieldSpec) (nlong : Nat) (slot : Word) (hlo : -2 ^ 63 < signedArg nlong slot)
    (hhi : signedArg nlong slot < 2 ^ 63) (s : PStream) :
    formatLoop (spec.format nlong 0x64 (by decide)) (2 * (spec.format nlong 0x64 (by decide)).length + 2) .plain 0
        [.word slot] s =
      some (emit addchar s (field (decimalString (signedArg nlong slot)) spec.props)) := by
  have hprinter : (directive 0x64).printer nlong (({} : Reading).bytes spec.body).close =
      some (.decimal nlong spec.props) := rfl
  rw [formatLoop_single rfl spec.body_specifies hprinter, ← printStr_emit]
  exact printInt_text hlo hhi s spec.props

/-! ### Zero padding -/

/-- `%0<w>d`, with `nlong` `l`s. -/
def zeroPaddedSpec (w : Nat) : FieldSpec := ⟨[.zero], w, [], FieldSpec.apart_nil⟩

def zeroPadded (w nlong : Nat) : CString := (zeroPaddedSpec w).format nlong 0x64 (by decide)

/-- A negative number in a field of width `w`: a minus sign, zeros and the digits, which
read back as the number. -/
structure SignedField (n : Int) (w : Nat) (text : List Byte) : Prop where
  zeros : ∃ z, text = 0x2d :: (List.replicate z 0x30 ++ naturalText n.natAbs)
  width : text.length = max w (1 + (naturalText n.natAbs).length)
  value : ∀ s : CString, s.bytes = text → atol s = some n

theorem decimalText_negative {n : Int} (hneg : n < 0) : decimalText n = 0x2d :: naturalText n.natAbs := by
  rw [decimalText, if_pos hneg]
  rfl

/-- A numeral without zeros fills a field it is too long for. -/
theorem decimalText_field {n : Int} (hneg : n < 0) (hlo : -2 ^ 63 < n) {w : Nat}
    (hw : w ≤ 1 + (naturalText n.natAbs).length) : SignedField n w (decimalText n) := by
  have hnumeral := numeral_isNumeral (show 1 < 10 by decide) n.natAbs
  refine ⟨⟨0, decimalText_negative hneg⟩, ?_, fun s hs => ?_⟩
  · rw [decimalText_negative hneg, List.length_cons, Nat.max_eq_right hw, Nat.add_comm]
  · have hbytes : s.bytes = [] ++ ((if true then [0x2d] else []) ++ (numeral 10 n.natAbs).map digitChar) ++ [] := by
      rw [hs, decimalText_negative hneg]
      simp [naturalText]
    have hparse := atol_text true (fun c hc => absurd hc List.not_mem_nil) rfl hnumeral.digit hnumeral.nonempty
      (by rw [hnumeral.value]; omega) hbytes
    rw [hparse, hnumeral.value, if_pos rfl]
    congr 1
    omega

section ZeroPadded
variable {nlong : Nat} {slot : Word} (hneg : signedArg nlong slot < 0) (hlo : -2 ^ 63 < signedArg nlong slot)
  {w : Nat}
include hneg hlo

/-- The zeros come before the sign. -/
theorem formatLoop_zeroPadded (hw : w < 2 ^ 31) (s : PStream) :
    formatLoop (zeroPadded w nlong) (2 * (zeroPadded w nlong).length + 2) .plain 0 [.word slot] s =
      some (emit addchar s (List.replicate (w - (decimalText (signedArg nlong slot)).length) 0x30 ++
        decimalText (signedArg nlong slot))) := by
  obtain ⟨_, hkept, _⟩ := (zeroPaddedSpec w).props_eq hw
  obtain ⟨hpad, hnpad⟩ := hkept fun flag hflag => absurd hflag List.not_mem_nil
  have hlength := naturalText_length hlo (show signedArg nlong slot < 2 ^ 63 by omega)
  have hshort : (decimalString (signedArg nlong slot)).length < 2 ^ 31 := by
    rw [CString.length, decimalString_bytes, decimalText_negative hneg, List.length_cons]
    omega
  have hfield := field_front hw hshort hnpad
  rw [hpad] at hfield
  rw [zeroPadded, formatLoop_decimal _ _ _ hlo (by omega), hfield]
  rfl

/-- So with a zero to put there is none behind the sign. -/
theorem zeroPadded_none (hw : 1 + (naturalText (signedArg nlong slot).natAbs).length < w) :
    ¬ ∃ text, Prints (zeroPadded w nlong) [.word slot] text ∧ SignedField (signedArg nlong slot) w text := by
  intro ⟨text, hprints, hfield⟩
  have hlt := hprints.length_lt
  have hlength := hfield.width
  obtain ⟨z, hz⟩ := hfield.zeros
  have hsmall : w < 2 ^ 31 := by omega
  obtain ⟨k, hk⟩ : ∃ k, w - (decimalText (signedArg nlong slot)).length = k + 1 := by
    refine Nat.exists_eq_succ_of_ne_zero ?_
    rw [decimalText_negative hneg, List.length_cons]
    omega
  have hloop := formatLoop_zeroPadded hneg hlo hsmall
  rw [hk] at hloop
  have hhead := (hprints.agrees hloop (by rw [List.length_append, List.length_replicate]; omega)).2
  rw [hz] at hhead
  cases hhead

end ZeroPadded

/-- **Zero padding of negative numbers.** A negative number is printed in its field
exactly when its numeral fills the field without a zero. -/
theorem zero_padded_iff (nlong : Nat) (slot : Word) (w : Nat) (hneg : signedArg nlong slot < 0)
    (hlo : -2 ^ 63 < signedArg nlong slot) :
    (∃ text, Prints (zeroPadded w nlong) [.word slot] text ∧ SignedField (signedArg nlong slot) w text) ↔
      w ≤ 1 + (naturalText (signedArg nlong slot).natAbs).length := by
  refine ⟨fun h => ?_, fun hw => ?_⟩
  · by_contra hwide
    exact zeroPadded_none hneg hlo (Nat.lt_of_not_le hwide) h
  · have hlength := naturalText_length hlo (show signedArg nlong slot < 2 ^ 63 by omega)
    have hfull : w - (decimalText (signedArg nlong slot)).length = 0 := by
      rw [decimalText_negative hneg, List.length_cons]
      omega
    have hloop := formatLoop_zeroPadded hneg hlo (show w < 2 ^ 31 by omega)
    rw [hfull, List.replicate_zero, List.nil_append] at hloop
    refine ⟨_, prints_loop hloop ?_, decimalText_field hneg hlo hw⟩
    rw [decimalText_negative hneg, List.length_cons]
    omega

/-- `%02d` of -5. -/
theorem zero_padded_filled :
    ∃ text, Prints (zeroPadded 2 0) [.word (BitVec.ofInt 64 (-5))] text ∧
      SignedField (signedArg 0 (BitVec.ofInt 64 (-5))) 2 text :=
  (zero_padded_iff 0 (BitVec.ofInt 64 (-5)) 2 (by decide) (by decide)).mpr (by decide)

/-- `%05d` of -5 is `000-5`, which reads as zero. -/
theorem zeros_before_sign :
    Prints (zeroPadded 5 0) [.word (BitVec.ofInt 64 (-5))] [0x30, 0x30, 0x30, 0x2d, 0x35] ∧
      atol (.lit "000-5") = some 0 ∧
      ¬ ∃ text, Prints (zeroPadded 5 0) [.word (BitVec.ofInt 64 (-5))] text ∧
        SignedField (signedArg 0 (BitVec.ofInt 64 (-5))) 5 text := by
  have hneg : signedArg 0 (BitVec.ofInt 64 (-5)) < 0 := by decide
  have hlo : -2 ^ 63 < signedArg 0 (BitVec.ofInt 64 (-5)) := by decide
  refine ⟨?_, by decide, zeroPadded_none hneg hlo (by decide)⟩
  exact prints_loop (formatLoop_zeroPadded hneg hlo (w := 5) (by decide)) (by decide)

end Testos.Lib
