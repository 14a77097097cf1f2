import Testos.Dev.Uart
import Testos.Lib.Truncation

/-! The signed decimal printers.

`print_int` of the formatter, `dw_uart_print_dec` and `generic_uart_print_dec` of the
drivers and `itoa_decimal` of `string.c` negate a negative number, produce the digits
of what they then have, and turn them round, each in its own way. `decimal_printers`:
they agree on the canonical numeral of every number but the lowest, which has no
negation. -/
namespace Testos.Lib
open Foundation Dev

/-! ### The printers outside the formatter -/

/-- `dw_uart_print_dec`; its buffer has 32 bytes. -/
def dwUartPrintDec (value : Int) : Option (List Byte) :=
  let negative := value < 0
  let value := if negative then wrap64 (-value) else value
  (doDigits value [] 32).bind fun buf =>
  (if negative then push 32 buf 0x2d else some buf).bind fun buf =>
  (push 32 (closeIn 0 buf 0 (buf.length - 1) buf.length) 0).map fun closed =>
    dwUartPuts ⟨closed.takeWhile (· ≠ 0), CString.takeWhile_noNul closed⟩

/-- `while (i > 0) uart_putchar(buffer[--i])`. -/
def putBackwards (t : UartType) (buffer : List Byte) : Nat → List Byte
  | 0 => []
  | i + 1 => uartPutchar t (buffer.getD i 0) ++ putBackwards t buffer i

/-- `generic_uart_print_dec`; its buffer has 20 bytes. -/
def genericUartPrintDec (t : UartType) (value : Int) : Option (List Byte) :=
  if value = 0 then some (uartPutchar t 0x30)
  else
    let sign := if value < 0 then uartPutchar t 0x2d else []
    let value := if value < 0 then wrap64 (-value) else value
    (whileDigits value [] 20).map fun buffer => sign ++ putBackwards t buffer buffer.length

/-- `itoa_decimal` into a buffer of `room` bytes: what it leaves there, up to the NUL, and
the length it reports. -/
def itoaDecimal (room : Nat) (value : Int) : Option (List Byte × Nat) :=
  let negative := value < 0
  (if negative then push room [] 0x2d else some []).bind fun sign =>
  let value := if negative then wrap64 (-value) else value
  (doDigits value sign (room - sign.length)).bind fun buf =>
  (push room buf 0).map fun closed =>
    (closeIn 0 closed sign.length (buf.length - 1) buf.length, buf.length)

/-! ### The magnitude and its digits -/

theorem naturalText_length {n : Int} (hlo : -2 ^ 63 < n) (hhi : n < 2 ^ 63) :
    (naturalText n.natAbs).length ≤ 19 := by
  have hlen := lowDigits_natAbs_length hlo hhi
  by_cases h0 : n.natAbs = 0
  · rw [h0, naturalText_zero]
    decide
  · rw [← lowDigits_reverse h0, List.length_reverse]
    exact hlen

/-- No character of a numeral is expanded on its way out. -/
theorem uartPutchar_decimal (t : UartType) {n : Int} {c : Byte} (h : c ∈ decimalText n) :
    uartPutchar t c = [c] := by
  cases t with
  | dw => exact if_neg (decimalText_plain h).2
  | pl011 => rfl

theorem flatMap_decimal (t : UartType) {n : Int} {text : List Byte} (h : ∀ c ∈ text, c ∈ decimalText n) :
    text.flatMap (uartPutchar t) = text :=
  (List.flatMap_congr fun c hc => uartPutchar_decimal t (h c hc)).trans (List.flatMap_singleton' text)

/-- Popping the whole buffer sends it backwards. -/
theorem putBackwards_eq (t : UartType) (buffer : List Byte) :
    putBackwards t buffer buffer.length = buffer.reverse.flatMap (uartPutchar t) := by
  have hpart : ∀ rest, putBackwards t (buffer ++ rest) buffer.length =
      buffer.reverse.flatMap (uartPutchar t) := by
    induction buffer using List.reverseRecOn with
    | nil => exact fun _ => rfl
    | append_singleton buffer c ih =>
      intro rest
      have hget : (buffer ++ [c] ++ rest).getD buffer.length 0 = c := by simp
      rw [List.length_append, List.length_singleton, putBackwards, hget, List.append_assoc, ih]
      simp
  have hwhole := hpart []
  rwa [List.append_nil] at hwhole

section Printers
variable {n : Int} (hlo : -2 ^ 63 < n) (hhi : n < 2 ^ 63)
include hlo hhi

/-- `print_int` without flags. -/
theorem printInt_decimal (ps : PStream) : printInt ps n 10 {} = some (emit addchar ps (decimalText n)) := by
  rw [printInt_text hlo hhi, printStr_plain]
  rfl

/-- The digits and the sign `dw_uart_print_dec` collects, backwards. -/
theorem dwUartPrintDec_decimal : dwUartPrintDec n = some (decimalText n) := by
  have hlen := naturalText_length hlo hhi
  have hdigits : doDigits (n.natAbs : Int) [] 32 = some (naturalText n.natAbs).reverse :=
    doDigits_eq n.natAbs [] (by decide) (Nat.le_trans (lowDigits_natAbs_length hlo hhi) (by decide))
  have hbuffer : ∀ buf : List Byte, buf.reverse = decimalText n → buf.length < 32 →
      (push 32 (closeIn 0 buf 0 (buf.length - 1) buf.length) 0).map
        (fun closed => dwUartPuts ⟨closed.takeWhile (· ≠ 0), CString.takeWhile_noNul closed⟩) =
      some (decimalText n) := by
    intro buf hreverse hroom
    have hclose : closeIn 0 buf 0 (buf.length - 1) buf.length = buf.reverse := by
      have hwhole := closeIn_reverse (0 : Byte) buf.length [] buf [] (Nat.le_refl _) rfl rfl
      simpa using hwhole
    rw [hclose, hreverse, push_some (by rw [← hreverse, List.length_reverse]; exact hroom),
      Option.map_some]
    simp only [takeWhile_closed (decimalText_noNul n), dwUartPuts]
    exact congrArg some (flatMap_decimal .dw fun c hc => hc)
  simp only [dwUartPrintDec, magnitude hlo hhi, hdigits, Option.bind_some]
  have hreversed : (naturalText n.natAbs).reverse.length ≤ 19 := by rwa [List.length_reverse]
  by_cases hneg : n < 0
  · rw [if_pos hneg, push_some (by omega), Option.bind_some]
    refine hbuffer _ ?_ (by rw [List.length_append, List.length_singleton]; omega)
    rw [List.reverse_append, List.reverse_reverse, decimalText, if_pos hneg]
    rfl
  · rw [if_neg hneg, Option.bind_some]
    refine hbuffer _ ?_ (by omega)
    rw [List.reverse_reverse, decimalText, if_neg hneg, List.nil_append]

/-- Zero and the sign `generic_uart_print_dec` sends at once. -/
theorem genericUartPrintDec_decimal (t : UartType) : genericUartPrintDec t n = some (decimalText n) := by
  have hdigits : whileDigits (n.natAbs : Int) [] 20 = some (lowDigits 10 n.natAbs) :=
    whileDigits_eq n.natAbs [] (Nat.le_trans (lowDigits_natAbs_length hlo hhi) (by decide))
  by_cases h0 : n = 0
  · subst h0
    rw [genericUartPrintDec, if_pos rfl]
    exact congrArg some (uartPutchar_decimal t (n := 0) (by decide))
  · have hne : n.natAbs ≠ 0 := by omega
    have hmember : ∀ c ∈ (if n < 0 then [0x2d] else []) ++ naturalText n.natAbs, c ∈ decimalText n :=
      fun c hc => hc
    simp only [genericUartPrintDec, if_neg h0, magnitude hlo hhi, hdigits, Option.map_some,
      putBackwards_eq, lowDigits_reverse hne]
    have hflat := flatMap_decimal t hmember
    rw [List.flatMap_append] at hflat
    rw [decimalText, ← hflat]
    by_cases hneg : n < 0
    · simp [hneg]
    · simp [hneg]

/-- The sign `itoa_decimal` writes first and leaves out of the reversal. -/
theorem itoaDecimal_decimal {room : Nat} (hroom : 22 ≤ room) :
    itoaDecimal room n = some (decimalText n ++ [0], (decimalText n).length) := by
  have hlen := naturalText_length hlo hhi
  have hlow := lowDigits_natAbs_length hlo hhi
  obtain ⟨sign, hsign, hsize⟩ : ∃ sign : List Byte, (if n < 0 then [0x2d] else []) = sign ∧
      sign.length ≤ 1 := ⟨_, rfl, by split <;> simp⟩
  have hpush : (if n < 0 then push room [] 0x2d else some []) = some sign := by
    rw [← hsign]
    split
    · exact push_some (show 0 < room by omega) _
    · rfl
  have hdigits := doDigits_eq n.natAbs sign (show 0 < room - sign.length by omega)
    (show (lowDigits 10 n.natAbs).length ≤ room - sign.length by omega)
  have hroom' : (sign ++ (naturalText n.natAbs).reverse).length < room := by
    rw [List.length_append, List.length_reverse]
    omega
  have hclose := closeIn_reverse (0 : Byte) (sign ++ (naturalText n.natAbs).reverse).length sign
    (naturalText n.natAbs).reverse [0] (by simp) rfl
    (show (sign ++ (naturalText n.natAbs).reverse).length - 1 = _ by rw [List.length_append])
  simp only [itoaDecimal, hpush, Option.bind_some, magnitude hlo hhi, hdigits, push_some hroom',
    Option.map_some]
  rw [List.append_assoc, hclose, List.reverse_reverse, decimalText, hsign]
  simp

end Printers

/-! ### Agreement -/

/-- All printers print `w`, as a signed number, as `text`, without leaving a table or a
buffer; `itoa_decimal` in the 32 bytes its callers give it. -/
structure PrintsAs (w : Word) (text : List Byte) : Prop where
  long : ∀ s, formatLoop (.lit "%ld") 8 .plain 0 [.word w] s = some (emit addchar s text)
  longLong : ∀ s, formatLoop (.lit "%lld") 10 .plain 0 [.word w] s = some (emit addchar s text)
  dwUart : dwUartPrintDec w.toInt = some text
  generic : ∀ t, genericUartPrintDec t w.toInt = some text
  itoa : itoaDecimal 32 w.toInt = some (text ++ [0], text.length)

/-- A conversion that is the whole format prints its argument and ends. -/
theorem performed_decimal (nlong : Nat) (w : Word) (s : PStream) :
    performed [.print (.decimal nlong {})] [.word w] s = printInt s (signedArg nlong w) 10 {} := by
  simp only [performed_print, Printer.print, Arg.slot]
  exact Option.bind_fun_some _

theorem formatLoop_long (w : Word) (s : PStream) :
    formatLoop (.lit "%ld") 8 .plain 0 [.word w] s = printInt s w.toInt 10 {} := by
  have hscan : scanLoop (.lit "%ld") 8 .plain 0 = some [.print (.decimal 1 {})] := rfl
  rw [formatLoop_scan, hscan, Option.bind_some]
  exact performed_decimal 1 w s

theorem formatLoop_longLong (w : Word) (s : PStream) :
    formatLoop (.lit "%lld") 10 .plain 0 [.word w] s = printInt s w.toInt 10 {} := by
  have hscan : scanLoop (.lit "%lld") 10 .plain 0 = some [.print (.decimal 2 {})] := rfl
  rw [formatLoop_scan, hscan, Option.bind_some]
  exact performed_decimal 2 w s

/-- The lowest number is its own negation, and its remainder is no index. -/
theorem printInt_lowest (ps : PStream) : printInt ps (-2 ^ 63) 10 {} = none := rfl

/-- **The printers agree** on the canonical numeral of every number that has a negation,
and on no other. -/
theorem decimal_printers (w : Word) :
    (∃ text, Canonical w.toInt text ∧ PrintsAs w text) ↔ w.toInt ≠ -2 ^ 63 := by
  constructor
  · intro ⟨text, _, hprints⟩ hlowest
    have hlong := hprints.long ⟨0, 0, 0, fun _ => 0⟩
    rw [formatLoop_long, hlowest, printInt_lowest] at hlong
    cases hlong
  · intro hne
    have hlo : -2 ^ 63 < w.toInt := by
      have hle := BitVec.le_toInt w
      omega
    have hhi : w.toInt < 2 ^ 63 := BitVec.toInt_lt
    exact ⟨decimalText w.toInt, decimalText_canonical _,
      fun s => by rw [formatLoop_long, printInt_decimal hlo hhi],
      fun s => by rw [formatLoop_longLong, printInt_decimal hlo hhi],
      dwUartPrintDec_decimal hlo hhi, genericUartPrintDec_decimal hlo hhi,
      itoaDecimal_decimal hlo hhi (by decide)⟩

/-- On the lowest number `print_int` indexes below its table, the DW driver and
`itoa_decimal` print a minus sign and a parenthesis, and the generic printer a minus
sign alone. -/
theorem decimal_printers_lowest :
    (∀ s, formatLoop (.lit "%lld") 10 .plain 0 [.word (BitVec.intMin 64)] s = none) ∧
      dwUartPrintDec (BitVec.intMin 64).toInt = some [0x2d, 0x28] ∧
      genericUartPrintDec .pl011 (BitVec.intMin 64).toInt = some [0x2d] ∧
      itoaDecimal 32 (BitVec.intMin 64).toInt = some ([0x2d, 0x28, 0], 2) ∧
      ¬ ∃ text, Canonical (BitVec.intMin 64).toInt text ∧ PrintsAs (BitVec.intMin 64) text := by
  refine ⟨fun s => ?_, rfl, rfl, rfl, ?_⟩
  · rw [formatLoop_longLong]
    rfl
  · intro h
    obtain ⟨text, _, hprints⟩ := h
    have hlong := hprints.longLong ⟨0, 0, 0, fun _ => 0⟩
    rw [formatLoop_longLong] at hlong
    cases hlong

end Testos.Lib
