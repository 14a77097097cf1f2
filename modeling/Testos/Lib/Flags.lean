import Testos.Lib.Conversion

/-! Flags and widths.

What the formatter makes of flags, a width and flags again: the sign of the width and
the pad character depend on the order of the flags, and a flag behind the width that is
no `#` takes it back. -/
namespace Testos.Lib
open Foundation

/-! ### Widths -/

/-- The digits of a width; none for no width. -/
def widthText (w : Nat) : List Byte := if w = 0 then [] else naturalText w

/-- Digits go on with a number. -/
theorem Reading.bytes_digits (p : StrProps) (negative : Bool) {ds : List Nat} (hds : ∀ d ∈ ds, d < 10)
    {v : Nat} (hv : ds.foldl (fun v d => 10 * v + d) v < 2 ^ 31) :
    (⟨p, some ⟨negative, v⟩⟩ : Reading).bytes (ds.map digitChar) =
      ⟨p, some ⟨negative, (ds.foldl (fun v d => 10 * v + d) v : Nat)⟩⟩ := by
  induction ds generalizing v with
  | nil => rfl
  | cons d ds ih =>
    obtain ⟨hdigit, hvalue⟩ := digitChar_isDigit (hds d List.mem_cons_self)
    -- the number so far is at most the final one
    have hle : 10 * v + d ≤ ds.foldl (fun v d => 10 * v + d) (10 * v + d) := le_readOn (by decide) _ ds
    have hbound : 10 * v + d < 2 ^ 31 := Nat.lt_of_le_of_lt hle hv
    have hwrap : wrap32 ((v : Int) * 10 + d) = ((10 * v + d : Nat) : Int) := by
      rw [wrap32_of_lt (by omega) (by omega)]
      omega
    rw [List.map_cons, Reading.bytes_cons, Reading.byte_digit p _ hdigit]
    simp only [hvalue, hwrap]
    exact ih (fun e he => hds e (List.mem_cons_of_mem d he)) hv

/-- Before a width: outside a number, or in one that has no digits but zeros. Without a
minus sign the first of them was a flag. -/
def Reading.Begins (r : Reading) (negative : Bool) : Prop :=
  r.number = none ∧ negative = false ∨
    r.number = some ⟨negative, 0⟩ ∧ (negative = false → r.props.pad = 0x30)

theorem Reading.bytes_width {r : Reading} {negative : Bool} (hr : r.Begins negative) {w : Nat} (hpos : w ≠ 0)
    (hw : w < 2 ^ 31) : r.bytes (naturalText w) = ⟨r.props, some ⟨negative, w⟩⟩ := by
  have hnumeral := numeral_isNumeral (show 1 < 10 by decide) w
  have hvalue : (numeral 10 w).foldl (fun v d => 10 * v + d) 0 = w := hnumeral.value
  have hopen : (⟨r.props, some ⟨negative, (0 : Nat)⟩⟩ : Reading).bytes (naturalText w) =
      ⟨r.props, some ⟨negative, w⟩⟩ := by
    rw [naturalText, Reading.bytes_digits r.props negative hnumeral.digit (by rw [hvalue]; exact hw), hvalue]
  obtain ⟨p, number⟩ := r
  rcases hr with ⟨hnone, rfl⟩ | ⟨hsome, _⟩
  · rw [← hopen]
    obtain rfl : number = none := hnone
    -- the first digit is no zero
    obtain ⟨d, ds, hds⟩ := List.exists_cons_of_ne_nil hnumeral.nonempty
    have hd : d < 10 := hnumeral.digit d (by rw [hds]; exact List.mem_cons_self)
    have hd0 : d ≠ 0 := by
      intro h0
      subst h0
      have hzero := hnumeral.noLeadingZero (by rw [hds]; rfl)
      rw [← hnumeral.value, hzero] at hpos
      exact hpos rfl
    have hall : ∀ d < 10, d ≠ 0 → ∀ p, (⟨p, none⟩ : Reading).byte (digitChar d) =
        (⟨p, some ⟨false, (0 : Nat)⟩⟩ : Reading).byte (digitChar d) := by
      intro d hd hd0 p
      have hplain : ∀ d < 10, d ≠ 0 → digitChar d ≠ 0x23 ∧ digitChar d ≠ 0x2d ∧ digitChar d ≠ 0x30 := by decide
      obtain ⟨hhash, hminus, hzero⟩ := hplain d hd hd0
      simp only [Reading.byte, if_neg hhash, if_neg hminus, if_neg hzero]
      rfl
    rw [naturalText, hds, List.map_cons, Reading.bytes_cons, Reading.bytes_cons, hall d hd hd0]
  · obtain rfl : number = some ⟨negative, 0⟩ := hsome
    exact hopen

theorem naturalText_specifies {w : Nat} {c : Byte} (h : c ∈ naturalText w) : Specifies c := by
  obtain ⟨d, hd, rfl⟩ := List.mem_map.mp h
  exact .inr (.inr (digitChar_isDigit ((numeral_isNumeral (show 1 < 10 by decide) w).digit d hd)).1)

/-! ### Flags -/

inductive Flag where
  | hash
  | zero
  | minus
deriving DecidableEq

def Flag.byte : Flag → Byte
  | .hash => 0x23
  | .zero => 0x30
  | .minus => 0x2d

/-- Whether a number that follows has a minus sign; `b` says so of one before the
flags. A zero goes on with it. -/
def signs (b : Bool) : List Flag → Bool
  | [] => b
  | .hash :: flags => signs false flags
  | .zero :: flags => signs b flags
  | .minus :: flags => signs true flags

/-- Whether a zero among the flags is a flag, and not a digit of a number that a minus
sign began. -/
def zeroPads (b : Bool) : List Flag → Bool
  | [] => false
  | .hash :: flags => zeroPads false flags
  | .zero :: flags => !b || zeroPads b flags
  | .minus :: flags => zeroPads true flags

/-- Flags set the pad character and leave no width. -/
theorem Reading.bytes_flags {r : Reading} {b : Bool} (hr : r.Begins b) (h0 : r.close.npad = 0) (flags : List Flag) :
    (r.bytes (flags.map Flag.byte)).Begins (signs b flags) ∧
      (r.bytes (flags.map Flag.byte)).close.npad = 0 ∧
      (r.bytes (flags.map Flag.byte)).props.pad = if zeroPads b flags then 0x30 else r.props.pad := by
  induction flags generalizing r b with
  | nil => exact ⟨hr, h0, rfl⟩
  | cons flag flags ih =>
    rw [List.map_cons, Reading.bytes_cons]
    cases flag with
    | hash =>
      obtain ⟨hbegins, hnpad, hp⟩ := ih (r := r.byte Flag.hash.byte) (b := false) (.inl ⟨rfl, rfl⟩) h0
      exact ⟨hbegins, hnpad, hp.trans (congrArg _ r.close_pad)⟩
    | minus =>
      obtain ⟨hbegins, hnpad, hp⟩ := ih (r := r.byte Flag.minus.byte) (b := true)
        (.inr ⟨rfl, fun h => by cases h⟩) rfl
      exact ⟨hbegins, hnpad, hp.trans (congrArg _ r.close_pad)⟩
    | zero =>
      obtain ⟨p, number⟩ := r
      rcases hr with ⟨hnone, rfl⟩ | ⟨hsome, hzero⟩
      · obtain rfl : number = none := hnone
        obtain ⟨hbegins, hnpad, hp⟩ := ih (r := ⟨{ p with pad := 0x30 }, some ⟨false, 0⟩⟩) (b := false)
          (.inr ⟨rfl, fun _ => rfl⟩) rfl
        refine ⟨hbegins, hnpad, hp.trans ?_⟩
        simp [zeroPads]
      · obtain rfl : number = some ⟨b, 0⟩ := hsome
        obtain ⟨hbegins, hnpad, hp⟩ := ih (r := ⟨p, some ⟨b, 0⟩⟩) (b := b) (.inr ⟨rfl, hzero⟩) h0
        refine ⟨hbegins, hnpad, hp.trans ?_⟩
        cases b with
        | true => rfl
        | false =>
          have hpad0 : p.pad = 0x30 := hzero rfl
          simp [zeroPads, hpad0]

/-- Every `#` counts, wherever it stands. -/
theorem Reading.bytes_alternate (r : Reading) (flags : List Flag) :
    (r.bytes (flags.map Flag.byte)).props.alternate = (r.props.alternate || decide (Flag.hash ∈ flags)) := by
  induction flags generalizing r with
  | nil => simp
  | cons flag flags ih =>
    rw [List.map_cons, Reading.bytes_cons, ih]
    cases flag with
    | hash => simp [Reading.byte, Flag.byte]
    | minus => simp [Reading.byte, Flag.byte]
    | zero =>
      have hzero : (r.byte Flag.zero.byte).props.alternate = r.props.alternate := by
        obtain ⟨p, _ | o⟩ := r <;> rfl
      simp [hzero]

/-- `#` after a width does not touch it. -/
theorem Reading.bytes_kept (r : Reading) {flags : List Flag} (h : ∀ flag ∈ flags, flag = .hash) :
    (r.bytes (flags.map Flag.byte)).close.npad = r.close.npad ∧
      (r.bytes (flags.map Flag.byte)).close.pad = r.close.pad := by
  induction flags generalizing r with
  | nil => exact ⟨rfl, rfl⟩
  | cons flag flags ih =>
    obtain rfl : flag = .hash := h flag List.mem_cons_self
    exact ih (r.byte Flag.hash.byte) fun f hf => h f (List.mem_cons_of_mem _ hf)

/-- Any other flag begins a number of its own, which is zero. -/
theorem Reading.bytes_lost {r : Reading} {flags : List Flag} (h : ¬ ∀ flag ∈ flags, flag = .hash)
    (hr : r.number = none ∨ flags.head? ≠ some .zero) : (r.bytes (flags.map Flag.byte)).close.npad = 0 := by
  induction flags generalizing r with
  | nil => exact absurd (fun flag hflag => absurd hflag List.not_mem_nil) h
  | cons flag flags ih =>
    rw [List.map_cons, Reading.bytes_cons]
    cases flag with
    | hash => exact ih (fun hall => h (List.forall_mem_cons.mpr ⟨rfl, hall⟩)) (.inl rfl)
    | minus => exact (Reading.bytes_flags (b := true) (.inr ⟨rfl, fun hb => by cases hb⟩) rfl flags).2.1
    | zero =>
      have hnone : r.number = none := hr.resolve_right fun hne => hne rfl
      obtain ⟨p, number⟩ := r
      obtain rfl : number = none := hnone
      exact (Reading.bytes_flags (r := ⟨{ p with pad := 0x30 }, some ⟨false, 0⟩⟩) (b := false)
        (.inr ⟨rfl, fun _ => rfl⟩) rfl flags).2.1

/-! ### A conversion's flags and width -/

/-- Flags, a width (or none, for zero), and flags again. A zero behind a width is one of
its digits. -/
structure FieldSpec where
  before : List Flag
  width : Nat
  after : List Flag
  apart : after.head? ≠ some .zero

namespace FieldSpec

theorem apart_nil : ([] : List Flag).head? ≠ some .zero := by
  intro h
  cases h

def body (spec : FieldSpec) : List Byte :=
  spec.before.map Flag.byte ++ (widthText spec.width ++ spec.after.map Flag.byte)

/-- Nothing behind the width begins another one. -/
def Keeps (spec : FieldSpec) : Prop := ∀ flag ∈ spec.after, flag = .hash

instance (spec : FieldSpec) : Decidable spec.Keeps :=
  inferInstanceAs (Decidable (∀ flag ∈ spec.after, flag = .hash))

/-- What the formatter makes of them. -/
def props (spec : FieldSpec) : StrProps := (({} : Reading).bytes spec.body).close

theorem body_specifies (spec : FieldSpec) : ∀ c ∈ spec.body, Specifies c := by
  have hflag : ∀ flag : Flag, Specifies flag.byte := by
    intro flag
    cases flag with
    | hash => exact .inl rfl
    | minus => exact .inr (.inl rfl)
    | zero => exact .inr (.inr rfl)
  intro c hc
  rw [body, List.mem_append, List.mem_append, List.mem_map, List.mem_map] at hc
  rcases hc with ⟨flag, _, rfl⟩ | hc | ⟨flag, _, rfl⟩
  · exact hflag flag
  · rw [widthText] at hc
    split at hc
    · exact absurd hc List.not_mem_nil
    · exact naturalText_specifies hc
  · exact hflag flag

/-- The width, with the sign the flags before it give it, unless a flag behind it has
begun another one. -/
theorem props_eq (spec : FieldSpec) (hw : spec.width < 2 ^ 31) :
    spec.props.alternate = decide (Flag.hash ∈ spec.before ++ spec.after) ∧
      (spec.Keeps →
        spec.props.pad = (if zeroPads false spec.before then 0x30 else 0x20) ∧
        spec.props.npad = if signs false spec.before then -(spec.width : Int) else spec.width) ∧
      (¬ spec.Keeps → spec.props.npad = 0) := by
  obtain ⟨hbegins, hzero, hpad⟩ := Reading.bytes_flags (r := {}) (b := false) (.inl ⟨rfl, rfl⟩) rfl spec.before
  have halternate := Reading.bytes_alternate {} spec.before
  obtain ⟨r, hr⟩ : ∃ r, ({} : Reading).bytes (spec.before.map Flag.byte) = r := ⟨_, rfl⟩
  rw [hr] at hbegins hzero hpad halternate
  -- what the width makes of it
  obtain ⟨hprops, hnpad⟩ : (r.bytes (widthText spec.width)).props = r.props ∧
      (r.bytes (widthText spec.width)).close.npad =
        if signs false spec.before then -(spec.width : Int) else spec.width := by
    rw [widthText]
    split
    · next h0 =>
      refine ⟨rfl, hzero.trans ?_⟩
      rw [h0]
      split <;> rfl
    · next hpos =>
      rw [Reading.bytes_width hbegins hpos hw]
      refine ⟨rfl, ?_⟩
      show (if signs false spec.before then wrap32 (-(spec.width : Int)) else (spec.width : Int)) = _
      split
      · rw [wrap32_of_lt (by omega) (by omega)]
      · rfl
  have hspec : spec.props = ((r.bytes (widthText spec.width)).bytes (spec.after.map Flag.byte)).close := by
    rw [props, body, Reading.bytes_append, Reading.bytes_append, hr]
  rw [hspec]
  refine ⟨?_, fun hkeeps => ?_, fun hlost => Reading.bytes_lost hlost (.inr spec.apart)⟩
  · rw [Reading.close_alternate, Reading.bytes_alternate, hprops, halternate]
    simp
  · obtain ⟨hn, hp⟩ := Reading.bytes_kept (r.bytes (widthText spec.width)) hkeeps
    rw [hn, hp, Reading.close_pad, hprops, hpad]
    exact ⟨rfl, hnpad⟩

end FieldSpec

end Testos.Lib
