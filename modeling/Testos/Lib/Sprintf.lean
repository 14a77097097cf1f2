import Testos.Lib.Decimals
import Testos.Lib.String

/-! `simple_sprintf` of `string.c`.

The kernel has two formatters. `simple_sprintf` looks one byte ahead for a conversion,
builds numbers in a buffer of its own and copies them over; it knows no flags, widths
or sizes. `sprintf_agree`: on the language the two have in common they write the same
bytes and return the same count. -/
namespace Testos.Lib
open Foundation

/-! ### Hexadecimal -/

/-- `while (value > 0) { *p++ = digits[value & 0xF]; value >>= 4; }`, with `room` bytes
left. -/
def hexDigits (table : List Byte) (value : Word) (buf : List Byte) : Nat → Option (List Byte)
  | 0 => if value = 0 then some buf else none
  | room + 1 =>
    if value = 0 then some buf
    else
      (table[(value &&& 0xf).toNat]?).bind fun c => hexDigits table (value >>> 4) (buf ++ [c]) room

/-- `"0123456789ABCDEF"`. -/
def upperDigits : List Byte :=
  [0x30, 0x31, 0x32, 0x33, 0x34, 0x35, 0x36, 0x37, 0x38, 0x39, 0x41, 0x42, 0x43, 0x44, 0x45, 0x46]

/-- `itoa_hex` into a buffer of `room` bytes: what it leaves there, up to the NUL, and
the length it reports. -/
def itoaHex (room : Nat) (value : Word) (uppercase : Bool) : Option (List Byte × Nat) :=
  let table := if uppercase then upperDigits else digits
  (push room [] 0x30).bind fun buf =>
  (push room buf (if uppercase then 0x58 else 0x78)).bind fun mark =>
  (if value = 0 then push room mark 0x30 else hexDigits table value mark (room - mark.length)).bind fun buf =>
  (push room buf 0).map fun closed =>
    (closeIn 0 closed mark.length (buf.length - 1) buf.length, buf.length)

/-! ### The formatter -/

/-- The labels of the `switch` of `simple_sprintf`. -/
inductive Letter where
  | decimal
  | hex
  | hexUpper
  | string
  | char
  | percent
  | other
deriving DecidableEq

def letter (f : Byte) : Letter :=
  if f = 0x64 then .decimal
  else if f = 0x78 then .hex
  else if f = 0x58 then .hexUpper
  else if f = 0x73 then .string
  else if f = 0x63 then .char
  else if f = 0x25 then .percent
  else .other

/-- The output pointer `p`, with the memory it points into. -/
structure Cursor where
  p : Word
  memory : Memory

/-- `*p++ = c`. -/
def Cursor.char (s : Cursor) (c : Byte) : Cursor := ⟨s.p + 1, s.memory.store s.p c⟩

/-- `strcpy(p, text); p += len`. -/
def Cursor.text (s : Cursor) (text : CString) (len : Nat) : Cursor :=
  ⟨s.p + BitVec.ofNat 64 len, strcpy s.memory s.p text⟩

/-- A local buffer, as the string it holds. -/
def stringIn (buf : List Byte) : CString := ⟨buf.takeWhile (· ≠ 0), CString.takeWhile_noNul buf⟩

/-- `va_arg`: the next argument and the rest. -/
def nextArg : List Arg → Option (Arg × List Arg)
  | [] => none
  | a :: va => some (a, va)

/-- The loop of `simple_sprintf`, from position `pos` of the format on, as far as `fuel`
steps take it. -/
def sprintfLoop (fmt : CString) : Nat → Nat → List Arg → Cursor → Option Cursor
  | 0, _, _, _ => none
  | fuel + 1, pos, va, s =>
    (fmt.at? pos).bind fun f =>
      if f = 0 then some s
      else if f = 0x25 then
        (fmt.at? (pos + 1)).bind fun g =>
          if g = 0 then sprintfLoop fmt fuel (pos + 1) va (s.char f)
          else
            match letter g with
            | .decimal =>
              (nextArg va).bind fun (a, va) =>
                (itoaDecimal 32 (a.slot.setWidth 32).toInt).bind fun (temp, len) =>
                  sprintfLoop fmt fuel (pos + 2) va (s.text (stringIn temp) len)
            | .hex =>
              (nextArg va).bind fun (a, va) =>
                (itoaHex 32 ((a.slot.setWidth 32).setWidth 64) false).bind fun (temp, len) =>
                  sprintfLoop fmt fuel (pos + 2) va (s.text (stringIn temp) len)
            | .hexUpper =>
              (nextArg va).bind fun (a, va) =>
                (itoaHex 32 ((a.slot.setWidth 32).setWidth 64) true).bind fun (temp, len) =>
                  sprintfLoop fmt fuel (pos + 2) va (s.text (stringIn temp) len)
            | .string =>
              (nextArg va).bind fun (a, va) =>
                match a with
                | .string _ val => sprintfLoop fmt fuel (pos + 2) va (s.text val val.length)
                | .word _ => none
            | .char =>
              (nextArg va).bind fun (a, va) =>
                sprintfLoop fmt fuel (pos + 2) va (s.char (a.slot.setWidth 8))
            | .percent => sprintfLoop fmt fuel (pos + 2) va (s.char 0x25)
            | .other => sprintfLoop fmt fuel (pos + 2) va ((s.char 0x25).char g)
      else sprintfLoop fmt fuel (pos + 1) va (s.char f)

/-- `simple_sprintf`, into a buffer that neither the format nor a string argument
overlaps. -/
def simpleSprintf (memory : Memory) (buf : Word) (fmt : CString) (va : List Arg) : Option Formatted :=
  (sprintfLoop fmt (fmt.length + 1) 0 va ⟨buf, memory⟩).map fun s =>
    ⟨s.memory.store s.p 0, (s.p - buf).setWidth 32⟩

/-- `my_snprintf`. -/
def mySnprintf (memory : Memory) (buf : Word) (size : BitVec 32) (fmt : CString) (va : List Arg) :
    Option Formatted :=
  myVsnprintf memory buf size fmt va

/-! ### The common language -/

/-- `out` is what a format of literals, `%%`, `%c`, `%d` and `%s` makes of matching
arguments. -/
inductive Renders : List Byte → List Arg → List Byte → Prop where
  | done (va : List Arg) : Renders [] va []
  | literal {f : Byte} {rest : List Byte} {va : List Arg} {out : List Byte} (hf : f ≠ 0x25)
      (h : Renders rest va out) : Renders (f :: rest) va (f :: out)
  | percent {rest : List Byte} {va : List Arg} {out : List Byte} (h : Renders rest va out) :
      Renders (0x25 :: 0x25 :: rest) va (0x25 :: out)
  | char (w : Word) {rest : List Byte} {va : List Arg} {out : List Byte} (h : Renders rest va out) :
      Renders (0x25 :: 0x63 :: rest) (.word w :: va) (w.setWidth 8 :: out)
  | decimal (w : Word) {rest : List Byte} {va : List Arg} {out : List Byte} (h : Renders rest va out) :
      Renders (0x25 :: 0x64 :: rest) (.word w :: va) (decimalText (w.setWidth 32).toInt ++ out)
  | string (p : Word) (s : CString) {rest : List Byte} {va : List Arg} {out : List Byte}
      (h : Renders rest va out) : Renders (0x25 :: 0x73 :: rest) (.string p s :: va) (s.bytes ++ out)

/-! ### The bounded formatter renders -/

/-- An `int` has a negation as a `long long`. -/
theorem int_range (w : Word) :
    -2 ^ 63 < (w.setWidth 32).toInt ∧ (w.setWidth 32).toInt < 2 ^ 63 := by
  have hlo := BitVec.le_toInt (w.setWidth 32)
  have hhi := BitVec.toInt_lt (x := w.setWidth 32)
  constructor <;> omega

/-- A conversion takes two steps of the loop. -/
theorem formatLoop_conversion {fmt : CString} {g : Byte} {rest : List Byte} {pos : Nat}
    (h : Here fmt pos (0x25 :: g :: rest)) (fuel : Nat) (va : List Arg) (s : PStream) :
    formatLoop fmt (fuel + 1) .plain pos va s = formatLoop fmt fuel (.more 0 {}) (pos + 1) va s ∧
      fmt.at? (pos + 1) = some g ∧ Here fmt (pos + 1 + 1) rest := by
  obtain ⟨hread, hne, hnext⟩ := h.read
  obtain ⟨hread', _, hafter⟩ := hnext.read
  refine ⟨?_, hread', hafter⟩
  rw [formatLoop, hread, Option.bind_some, if_neg hne, if_neg (fun hneq => hneq rfl)]

theorem formatLoop_renders {fmt : CString} {rest : List Byte} {va : List Arg} {out : List Byte}
    (h : Renders rest va out) {fuel pos : Nat} (hpos : Here fmt pos rest)
    (hfuel : 2 * rest.length + 1 ≤ fuel) (s : PStream) :
    formatLoop fmt fuel .plain pos va s = some (emit addchar s out) := by
  induction h generalizing fuel pos s with
  | done va =>
    obtain ⟨fuel, rfl⟩ := Nat.exists_eq_succ_of_ne_zero (show fuel ≠ 0 by omega)
    rw [formatLoop, hpos.nul, Option.bind_some, if_pos rfl]
    rfl
  | literal hf _ ih =>
    obtain ⟨fuel, rfl⟩ := Nat.exists_eq_succ_of_ne_zero (show fuel ≠ 0 by omega)
    obtain ⟨hread, hne, hnext⟩ := hpos.read
    rw [List.length_cons] at hfuel
    rw [formatLoop, hread, Option.bind_some, if_neg hne, if_pos hf]
    exact ih hnext (by omega) _
  | percent _ ih | char w _ ih =>
    simp only [List.length_cons] at hfuel
    obtain ⟨fuel, rfl⟩ := Nat.exists_eq_add_of_le' (show 2 ≤ fuel by omega)
    obtain ⟨hstep, hread, hnext⟩ := formatLoop_conversion hpos (fuel + 1) _ s
    rw [hstep, formatLoop, hread, Option.bind_some]
    exact ih hnext (by omega) _
  | decimal w _ ih =>
    simp only [List.length_cons] at hfuel
    obtain ⟨fuel, rfl⟩ := Nat.exists_eq_add_of_le' (show 2 ≤ fuel by omega)
    obtain ⟨hstep, hread, hnext⟩ := formatLoop_conversion hpos (fuel + 1) _ s
    obtain ⟨hlo, hhi⟩ := int_range w
    have hprint : printInt s (signedArg 0 w) 10 {} = _ := printInt_decimal hlo hhi s
    rw [hstep, formatLoop, hread, Option.bind_some, emit_append]
    show (printInt s (signedArg 0 w) 10 {}).bind _ = _
    rw [hprint, Option.bind_some]
    exact ih hnext (by omega) _
  | string p str _ ih =>
    simp only [List.length_cons] at hfuel
    obtain ⟨fuel, rfl⟩ := Nat.exists_eq_add_of_le' (show 2 ≤ fuel by omega)
    obtain ⟨hstep, hread, hnext⟩ := formatLoop_conversion hpos (fuel + 1) _ s
    rw [hstep, formatLoop, hread, Option.bind_some, emit_append, ← printStr_plain]
    exact ih hnext (by omega) _

/-! ### The simple formatter renders -/

/-- `m` and `m'` differ at most at `q`, where `simple_sprintf` leaves the terminator of
the last string it copied. -/
def AgreeOff (q : Word) (m m' : Memory) : Prop := ∀ x, x ≠ q → m x = m' x

/-- Writing there settles the difference. -/
theorem AgreeOff.store {q : Word} {m m' : Memory} (h : AgreeOff q m m') (c : Byte) :
    m.store q c = m'.store q c := by
  funext x
  by_cases hx : x = q
  · rw [hx, Memory.store_same, Memory.store_same]
  · rw [Memory.store_other _ _ hx, Memory.store_other _ _ hx, h x hx]

theorem AgreeOff.write {q : Word} {m m' : Memory} (h : AgreeOff q m m') {out : List Byte} (hne : out ≠ []) :
    m.write q out = m'.write q out := by
  obtain ⟨c, rest, rfl⟩ := List.exists_cons_of_ne_nil hne
  rw [Memory.write, Memory.write, h.store]

theorem AgreeOff.stored (q : Word) (m : Memory) (c : Byte) : AgreeOff q (m.store q c) m :=
  fun _ hx => Memory.store_other _ _ hx

/-- The cursor after `out`, up to what lies under it. -/
structure Printed (buf : Word) (m : Memory) (out : List Byte) (s : Cursor) : Prop where
  p : s.p = buf + BitVec.ofNat 64 out.length
  memory : AgreeOff s.p s.memory (m.write buf out)

section Cursor
variable {buf : Word} {m : Memory} {out : List Byte} {s : Cursor} (h : Printed buf m out s)
include h

theorem Printed.char (c : Byte) : Printed buf m (out ++ [c]) (s.char c) := by
  refine ⟨?_, ?_⟩
  · show s.p + 1 = _
    rw [h.p, List.length_append, List.length_singleton, BitVec.ofNat_add, ← BitVec.add_assoc]
    rfl
  · rw [Cursor.char, h.memory.store, Memory.write_concat, ← h.p]
    exact fun _ _ => rfl

theorem Printed.text (t : CString) : Printed buf m (out ++ t.bytes) (s.text t t.length) := by
  have hp : s.p + BitVec.ofNat 64 t.length = buf + BitVec.ofNat 64 (out ++ t.bytes).length := by
    rw [h.p, List.length_append, BitVec.ofNat_add, ← BitVec.add_assoc]
    rfl
  refine ⟨hp, ?_⟩
  show AgreeOff (s.p + BitVec.ofNat 64 t.length) (s.memory.write s.p (t.bytes ++ [0])) _
  rw [h.memory.write (by simp), Memory.write_concat, Memory.write_append, ← h.p]
  exact AgreeOff.stored _ _ 0

/-- Closing the output with a NUL. -/
theorem Printed.close : s.memory.store s.p 0 = m.write buf (out ++ [0]) := by
  rw [h.memory.store, Memory.write_concat, h.p]

end Cursor

/-- The same two bytes of lookahead. -/
theorem sprintfLoop_conversion {fmt : CString} {g : Byte} {rest : List Byte} {pos : Nat}
    (h : Here fmt pos (0x25 :: g :: rest)) :
    fmt.at? pos = some 0x25 ∧ fmt.at? (pos + 1) = some g ∧ g ≠ 0 ∧ Here fmt (pos + 2) rest := by
  obtain ⟨hread, _, hnext⟩ := h.read
  obtain ⟨hread', hne', hafter⟩ := hnext.read
  exact ⟨hread, hread', hne', hafter⟩

theorem sprintfLoop_renders {fmt : CString} {rest : List Byte} {va : List Arg} {out : List Byte}
    (h : Renders rest va out) {fuel pos : Nat} (hpos : Here fmt pos rest) (hfuel : rest.length < fuel)
    {buf : Word} {m : Memory} {before : List Byte} {s : Cursor} (hs : Printed buf m before s) :
    ∃ s', sprintfLoop fmt fuel pos va s = some s' ∧ Printed buf m (before ++ out) s' := by
  induction h generalizing fuel pos before s with
  | done va =>
    obtain ⟨fuel, rfl⟩ := Nat.exists_eq_succ_of_ne_zero (Nat.ne_of_gt hfuel)
    refine ⟨s, ?_, by rwa [List.append_nil]⟩
    rw [sprintfLoop, hpos.nul, Option.bind_some, if_pos rfl]
  | literal hf _ ih =>
    obtain ⟨fuel, rfl⟩ := Nat.exists_eq_succ_of_ne_zero (show fuel ≠ 0 by omega)
    obtain ⟨hread, hne, hnext⟩ := hpos.read
    rw [List.length_cons] at hfuel
    rw [sprintfLoop, hread, Option.bind_some, if_neg hne, if_neg hf, List.append_cons]
    exact ih hnext (by omega) (hs.char _)
  | percent _ ih =>
    simp only [List.length_cons] at hfuel
    obtain ⟨fuel, rfl⟩ := Nat.exists_eq_succ_of_ne_zero (show fuel ≠ 0 by omega)
    obtain ⟨hread, hread', hne, hnext⟩ := sprintfLoop_conversion hpos
    rw [sprintfLoop, hread, Option.bind_some, if_neg (by decide), if_pos rfl, hread', Option.bind_some,
      if_neg hne, List.append_cons]
    exact ih hnext (by omega) (hs.char 0x25)
  | char w _ ih =>
    simp only [List.length_cons] at hfuel
    obtain ⟨fuel, rfl⟩ := Nat.exists_eq_succ_of_ne_zero (show fuel ≠ 0 by omega)
    obtain ⟨hread, hread', hne, hnext⟩ := sprintfLoop_conversion hpos
    rw [sprintfLoop, hread, Option.bind_some, if_neg (by decide), if_pos rfl, hread', Option.bind_some,
      if_neg hne, List.append_cons]
    exact ih hnext (by omega) (hs.char (w.setWidth 8))
  | decimal w _ ih =>
    simp only [List.length_cons] at hfuel
    obtain ⟨fuel, rfl⟩ := Nat.exists_eq_succ_of_ne_zero (show fuel ≠ 0 by omega)
    obtain ⟨hread, hread', hne, hnext⟩ := sprintfLoop_conversion hpos
    obtain ⟨hlo, hhi⟩ := int_range w
    have hitoa := itoaDecimal_decimal hlo hhi (show 22 ≤ 32 by decide)
    have htemp : (stringIn (decimalText (w.setWidth 32).toInt ++ [0])).bytes =
        decimalText (w.setWidth 32).toInt := takeWhile_closed (decimalText_noNul _)
    have htext := hs.text (stringIn (decimalText (w.setWidth 32).toInt ++ [0]))
    rw [CString.length, htemp] at htext
    rw [sprintfLoop, hread, Option.bind_some, if_neg (by decide), if_pos rfl, hread', Option.bind_some,
      if_neg hne, ← List.append_assoc]
    show ∃ s', (itoaDecimal 32 (w.setWidth 32).toInt).bind _ = some s' ∧ _
    rw [hitoa, Option.bind_some]
    exact ih hnext (by omega) htext
  | string p str _ ih =>
    simp only [List.length_cons] at hfuel
    obtain ⟨fuel, rfl⟩ := Nat.exists_eq_succ_of_ne_zero (show fuel ≠ 0 by omega)
    obtain ⟨hread, hread', hne, hnext⟩ := sprintfLoop_conversion hpos
    rw [sprintfLoop, hread, Option.bind_some, if_neg (by decide), if_pos rfl, hread', Option.bind_some,
      if_neg hne, ← List.append_assoc]
    exact ih hnext (by omega) (hs.text str)

/-! ### Agreement -/

/-- What both formatters leave for the text `out`. -/
def formatted (memory : Memory) (buf : Word) (out : List Byte) : Formatted :=
  ⟨memory.write buf (out ++ [0]), BitVec.ofNat 32 out.length⟩

theorem mySnprintf_renders {fmt : CString} {va : List Arg} {out : List Byte}
    (h : Renders fmt.bytes va out) {size : BitVec 32} (hsize : (out.length : Int) < size.toInt)
    (memory : Memory) (buf : Word) :
    mySnprintf memory buf size fmt va = some (formatted memory buf out) := by
  have hroom : out.length ≤ (size - 1).toNat := by
    have hnat := BitVec.toInt_eq_toNat_cond size
    have hone : (1 : BitVec 32).toNat = 1 := rfl
    have hlt := size.isLt
    split at hnat
    · rw [BitVec.toNat_sub_of_le (by rw [BitVec.le_def]; omega)]
      omega
    · omega
  have hfuel : 2 * fmt.bytes.length + 1 ≤ 2 * fmt.length + 2 := Nat.le_succ _
  rw [mySnprintf, myVsnprintf, formatLoop_renders h (.start fmt) hfuel, Option.map_some,
    emit_room _ _ hroom, formatted, Memory.write_concat]
  simp

theorem simpleSprintf_renders {fmt : CString} {va : List Arg} {out : List Byte}
    (h : Renders fmt.bytes va out) (memory : Memory) (buf : Word) :
    simpleSprintf memory buf fmt va = some (formatted memory buf out) := by
  have hstart : Printed buf memory [] ⟨buf, memory⟩ := ⟨by simp, fun _ _ => rfl⟩
  have hfuel : fmt.bytes.length < fmt.length + 1 := Nat.lt_succ_self _
  obtain ⟨s, hs, hprinted⟩ := sprintfLoop_renders h (.start fmt) hfuel hstart
  have hcount : (s.p - buf).setWidth 32 = BitVec.ofNat 32 out.length := by
    rw [hprinted.p, BitVec.add_comm, BitVec.add_sub_cancel, List.nil_append]
    exact BitVec.setWidth_ofNat_of_le (by decide) _
  rw [simpleSprintf, hs, Option.map_some, hprinted.close, hcount]
  rfl

/-- **The two formatters agree** on their common language: into any buffer, of any size
that is larger than the output for the one that has a size, they write the same text and
its NUL, nothing else, and return its length. -/
theorem sprintf_agree (fmt : CString) (va : List Arg) (out : List Byte)
    (h : Renders fmt.bytes va out) (size : BitVec 32) (hsize : (out.length : Int) < size.toInt)
    (memory : Memory) (buf : Word) :
    ∃ r, simpleSprintf memory buf fmt va = some r ∧ mySnprintf memory buf size fmt va = some r ∧
      r.memory = memory.write buf (out ++ [0]) ∧ r.count.toInt = out.length := by
  refine ⟨formatted memory buf out, simpleSprintf_renders h memory buf,
    mySnprintf_renders h hsize memory buf, rfl, ?_⟩
  have hlt := BitVec.toInt_lt (x := size)
  show (BitVec.ofNat 32 out.length).toInt = _
  rw [BitVec.toInt_ofNat']
  exact Int.bmod_eq_of_le (by omega) (by omega)

/-- The lowest `int`, a string and a percent sign. -/
theorem sprintf_agree_lowest :
    ∃ r, simpleSprintf (fun _ => 0xff) 0x1000 (.lit "%d%s%%") [.word 0x80000000, .string 0x2000 (.lit "ab")] =
        some r ∧
      mySnprintf (fun _ => 0xff) 0x1000 15 (.lit "%d%s%%")
        [.word 0x80000000, .string 0x2000 (.lit "ab")] = some r ∧
      r.memory = Memory.write (fun _ => 0xff) 0x1000 ((CString.lit "-2147483648ab%").bytes ++ [0]) ∧
      r.count.toInt = (CString.lit "-2147483648ab%").bytes.length :=
  sprintf_agree _ _ _ (.decimal 0x80000000 (.string 0x2000 (.lit "ab") (.percent (.done _)))) 15 (by decide)
    _ _

end Testos.Lib
