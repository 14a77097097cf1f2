import Testos.Lib.Logger

/-! One program on both back ends.

`uart.h` maps the output calls to the DW driver, or to the PL011 driver and the generic
helpers of `uart.c`. No call makes the DW driver send less, and the calls that make it
send more are known by their arguments: `wire_eq_iff` says that a program sends the same
on both back ends if and only if it makes none of them. -/
namespace Testos.Dev
open Foundation Lib

/-! ### Output calls -/

/-- `uart_write`. -/
def uartWrite (t : UartType) (data : List Byte) : List Byte := data.flatMap (uartPutchar t)

/-- The output calls of `uart.h`. -/
inductive UartCall where
  | putchar (c : Byte)
  | puts (s : CString)
  | write (data : List Byte)
  | printHex (value : Word)
  | printDec (value : Word)
deriving DecidableEq

/-- What a call sends; `none` is a fault. -/
def UartCall.sent (t : UartType) : UartCall → Option (List Byte)
  | .putchar c => some (uartPutchar t c)
  | .puts s => some (uartPuts t s)
  | .write data => some (uartWrite t data)
  | .printHex value => some (uartPrintHex t value)
  | .printDec value => uartPrintDec t value

/-- What calls send one after the other. -/
def wire (t : UartType) : List UartCall → Option (List Byte)
  | [] => some []
  | call :: calls => (call.sent t).bind fun bytes => (wire t calls).map (bytes ++ ·)

/-- The calls on which the back ends agree: no newline outside of a string, no hexadecimal
number, and no lowest number. -/
def UartCall.Shared : UartCall → Prop
  | .putchar c => c ≠ 0x0a
  | .puts _ => True
  | .write data => (0x0a : Byte) ∉ data
  | .printHex _ => False
  | .printDec value => value ≠ BitVec.intMin 64

/-! ### The same or more -/

/-- Both send, the same if `same` holds, and otherwise the first more than the second. -/
def SameOrMore (same : Prop) (sent sent' : Option (List Byte)) : Prop :=
  ∃ a b, sent = some a ∧ sent' = some b ∧ (same → a = b) ∧ (¬ same → b.length < a.length)

namespace SameOrMore
variable {same same' : Prop} {sent sent' rest rest' : Option (List Byte)}

theorem of_eq {a : List Byte} (h : same) : SameOrMore same (some a) (some a) :=
  ⟨a, a, rfl, rfl, fun _ => rfl, fun hne => absurd h hne⟩

theorem of_lt {a b : List Byte} (h : ¬ same) (hlt : b.length < a.length) : SameOrMore same (some a) (some b) :=
  ⟨a, b, rfl, rfl, fun hsame => absurd hsame h, fun _ => hlt⟩

theorem lt {a b : List Byte} (h : SameOrMore same (some a) (some b)) (hne : ¬ same) : b.length < a.length := by
  obtain ⟨x, y, hx, hy, _, hmore⟩ := h
  cases hx
  cases hy
  exact hmore hne

/-- What is sent tells whether it was the same. -/
theorem eq_iff (h : SameOrMore same sent sent') : sent = sent' ↔ same := by
  obtain ⟨a, b, rfl, rfl, hsame, hmore⟩ := h
  refine ⟨fun heq => ?_, fun hs => congrArg some (hsame hs)⟩
  by_contra hne
  have hlt := hmore hne
  rw [Option.some.inj heq] at hlt
  exact Nat.lt_irrefl _ hlt

theorem le (h : SameOrMore same sent sent') : ∃ a b, sent = some a ∧ sent' = some b ∧ b.length ≤ a.length := by
  obtain ⟨a, b, ha, hb, hsame, hmore⟩ := h
  refine ⟨a, b, ha, hb, ?_⟩
  by_cases hs : same
  · rw [hsame hs]
  · exact Nat.le_of_lt (hmore hs)

/-- More in one part is more in the whole: nothing that follows can make up for it. -/
theorem append (h : SameOrMore same sent sent') (h' : SameOrMore same' rest rest') :
    SameOrMore (same ∧ same') (sent.bind fun bytes => rest.map (bytes ++ ·))
      (sent'.bind fun bytes => rest'.map (bytes ++ ·)) := by
  obtain ⟨a, b, rfl, rfl, hle⟩ := h.le
  obtain ⟨a', b', rfl, rfl, hle'⟩ := h'.le
  refine ⟨a ++ a', b ++ b', rfl, rfl, fun hs => ?_, fun hne => ?_⟩
  · rw [Option.some.inj (h.eq_iff.mpr hs.1), Option.some.inj (h'.eq_iff.mpr hs.2)]
  · rw [List.length_append, List.length_append]
    rcases not_and_or.mp hne with hmore | hmore
    · have hlt := h.lt hmore
      omega
    · have hlt := h'.lt hmore
      omega

end SameOrMore

/-! ### Each call -/

/-- A newline costs the DW driver two bytes. -/
theorem putchar_sameOrMore (c : Byte) :
    SameOrMore (c ≠ 0x0a) (some (uartPutchar .dw c)) (some (uartPutchar .pl011 c)) := by
  by_cases hc : c = 0x0a
  · subst hc
    exact .of_lt (fun h => h rfl) (by simp [uartPutchar, dwUartPutchar, pl011Putchar])
  · have hplain : uartPutchar .dw c = uartPutchar .pl011 c := if_neg hc
    rw [hplain]
    exact .of_eq hc

theorem write_sameOrMore (data : List Byte) :
    SameOrMore ((0x0a : Byte) ∉ data) (some (uartWrite .dw data)) (some (uartWrite .pl011 data)) := by
  induction data with
  | nil => exact .of_eq List.not_mem_nil
  | cons c data ih =>
    have hmem : ((0x0a : Byte) ∉ c :: data) ↔ c ≠ 0x0a ∧ (0x0a : Byte) ∉ data := by
      rw [List.mem_cons, not_or, ne_comm]
    rw [hmem]
    exact (putchar_sameOrMore c).append ih

/-- A hexadecimal digit is no NUL and no newline. -/
theorem hexNibbles_plain {value : Word} {c : Byte} (h : c ∈ hexNibbles value) : c ≠ 0 ∧ c ≠ 0x0a := by
  have hall : ∀ d < 16, upperDigits.getD d 0 ≠ 0 ∧ upperDigits.getD d 0 ≠ 0x0a := by decide
  obtain ⟨i, _, rfl⟩ := List.mem_map.mp h
  refine hall _ ?_
  rw [BitVec.toNat_and]
  exact Nat.lt_of_le_of_lt Nat.and_le_right (show (0xf : Word).toNat < 16 by decide)

/-- The DW driver puts `0x` before the digits, the generic helper does not. -/
theorem uartPrintHex_eq (value : Word) :
    uartPrintHex .dw value = 0x30 :: 0x78 :: hexNibbles value ∧ uartPrintHex .pl011 value = hexNibbles value := by
  have hsingle : ∀ c ∈ 0x30 :: 0x78 :: hexNibbles value, c ≠ 0 ∧ dwUartPutchar c = [c] := by
    intro c hc
    have hplain : c ≠ 0 ∧ c ≠ 0x0a := by
      rcases List.mem_cons.mp hc with rfl | hc
      · simp
      · rcases List.mem_cons.mp hc with rfl | hc
        · simp
        · exact hexNibbles_plain hc
    exact ⟨hplain.1, if_neg hplain.2⟩
  constructor
  · have htext : (stringIn (0x30 :: 0x78 :: hexNibbles value)).bytes = 0x30 :: 0x78 :: hexNibbles value :=
      List.takeWhile_eq_self_iff.mpr fun c hc => by simpa using (hsingle c hc).1
    show (stringIn (0x30 :: 0x78 :: hexNibbles value)).bytes.flatMap dwUartPutchar = _
    rw [htext, List.flatMap_congr fun c hc => (hsingle c hc).2]
    exact List.flatMap_singleton' _
  · exact List.flatMap_singleton' _

/-- The lowest number has no negation: the DW driver sends its sign and a parenthesis,
the generic helper the sign. -/
theorem printDec_sameOrMore (value : Word) :
    SameOrMore (value ≠ BitVec.intMin 64) (uartPrintDec .dw value) (uartPrintDec .pl011 value) := by
  by_cases hlowest : value = BitVec.intMin 64
  · subst hlowest
    have hdw : uartPrintDec .dw (BitVec.intMin 64) = some [0x2d, 0x28] := rfl
    have hpl011 : uartPrintDec .pl011 (BitVec.intMin 64) = some [0x2d] := rfl
    rw [hdw, hpl011]
    exact .of_lt (fun h => h rfl) (by simp)
  · have hlo : -2 ^ 63 < value.toInt := by
      have hle := BitVec.le_toInt value
      have hne : value.toInt ≠ (BitVec.intMin 64).toInt := fun h => hlowest (BitVec.eq_of_toInt_eq h)
      have hmin : (BitVec.intMin 64).toInt = -2 ^ 63 := rfl
      omega
    have hhi : value.toInt < 2 ^ 63 := BitVec.toInt_lt
    rw [uartPrintDec, uartPrintDec, dwUartPrintDec_decimal hlo hhi, genericUartPrintDec_decimal hlo hhi]
    exact .of_eq hlowest

/-- **One call.** -/
theorem UartCall.sent_sameOrMore (call : UartCall) :
    SameOrMore call.Shared (call.sent .dw) (call.sent .pl011) := by
  cases call with
  | putchar c => exact putchar_sameOrMore c
  | puts s =>
    simp only [sent, uartPuts_eq .dw .pl011]
    exact .of_eq trivial
  | write data => exact write_sameOrMore data
  | printHex value =>
    obtain ⟨hdw, hpl011⟩ := uartPrintHex_eq value
    simp only [sent, hdw, hpl011]
    exact .of_lt (fun h => h) (by simp)
  | printDec value => exact printDec_sameOrMore value

/-! ### Any calls -/

/-- **Any calls** one after the other. -/
theorem wire_sameOrMore (calls : List UartCall) :
    SameOrMore (∀ call ∈ calls, call.Shared) (wire .dw calls) (wire .pl011 calls) := by
  induction calls with
  | nil => exact .of_eq fun call hcall => absurd hcall List.not_mem_nil
  | cons call calls ih =>
    rw [List.forall_mem_cons]
    exact call.sent_sameOrMore.append ih

/-- **The back ends are interchangeable** for a program if and only if each of its calls
is shared: no newline by `uart_putchar` or `uart_write`, no `uart_print_hex`, and no
`uart_print_dec` of the lowest number. -/
theorem wire_eq_iff (calls : List UartCall) :
    wire .dw calls = wire .pl011 calls ↔ ∀ call ∈ calls, call.Shared :=
  (wire_sameOrMore calls).eq_iff

/-- A newline, and an address behind its own `0x`. -/
theorem wire_differs :
    (wire .dw [.putchar 0x0a] = some [0x0d, 0x0a] ∧ wire .pl011 [.putchar 0x0a] = some [0x0a]) ∧
      wire .dw [.puts (.lit "  Start: 0x"), .printHex 0x80300000] =
        some (CString.lit "  Start: 0x0x0000000080300000").bytes ∧
      wire .pl011 [.puts (.lit "  Start: 0x"), .printHex 0x80300000] =
        some (CString.lit "  Start: 0x0000000080300000").bytes ∧
      ¬ ∀ calls, wire .dw calls = wire .pl011 calls := by
  refine ⟨⟨rfl, rfl⟩, by decide, by decide, fun h => ?_⟩
  have hnewline := (wire_sameOrMore [.putchar 0x0a]).eq_iff.mp (h _)
  exact hnewline _ List.mem_cons_self rfl

end Testos.Dev
