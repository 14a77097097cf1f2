import Testos.Types

/-! The UART back ends, `dw_uart.c` and `pl011.c`, from the side of the wire.

What a back end does with a character is the list of the bytes it sends. Only the DW
driver expands a newline in `putchar`; both do in `puts`, so strings leave either
driver alike. -/
namespace Testos.Dev
open Foundation

/-- The driver `uart.h` selects: `UART_TYPE_DW` or `UART_TYPE_PL011`. -/
inductive UartType where
  | dw
  | pl011
deriving DecidableEq

/-- `dw_uart_putchar`. -/
def dwUartPutchar (c : Byte) : List Byte := if c = 0x0a then [0x0d, c] else [c]

/-- `dw_uart_puts`. -/
def dwUartPuts (s : CString) : List Byte := s.bytes.flatMap dwUartPutchar

/-- `pl011_putchar`. -/
def pl011Putchar (c : Byte) : List Byte := [c]

/-- `pl011_puts`. -/
def pl011Puts (s : CString) : List Byte :=
  s.bytes.flatMap fun c => if c = 0x0a then pl011Putchar 0x0d ++ pl011Putchar c else pl011Putchar c

/-- `uart_putchar`. -/
def uartPutchar : UartType → Byte → List Byte
  | .dw => dwUartPutchar
  | .pl011 => pl011Putchar

/-- `uart_puts`. -/
def uartPuts : UartType → CString → List Byte
  | .dw => dwUartPuts
  | .pl011 => pl011Puts

theorem uartPuts_eq (t t' : UartType) : uartPuts t = uartPuts t' := by
  have hpl011 : pl011Puts = dwUartPuts := rfl
  cases t <;> cases t' <;> simp only [uartPuts, hpl011]

end Testos.Dev
