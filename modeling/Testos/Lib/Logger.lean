import Testos.Lib.Sprintf

/-! The logger, and what goes over the wire.

`logger_output` formats into 512 bytes of its own and sends the result with the prefix
and the color of its level. `sent` is what any output call of the kernel sends;
`loggerOutput_renders` says what a message does. -/
namespace Testos.Lib
open Foundation Dev

/-! ### The driver's numbers -/

/-- The digits of a value in upper case, all sixteen. -/
def hexNibbles (value : Word) : List Byte :=
  (List.range 16).reverse.map fun i => upperDigits.getD ((value >>> (i * 4)) &&& 0xf).toNat 0

/-- `dw_uart_print_hex`. -/
def dwUartPrintHex (value : Word) : List Byte := dwUartPuts (stringIn (0x30 :: 0x78 :: hexNibbles value))

/-- `generic_uart_print_hex`. -/
def genericUartPrintHex (t : UartType) (value : Word) : List Byte :=
  (hexNibbles value).flatMap (uartPutchar t)

/-- `uart_print_hex`. -/
def uartPrintHex : UartType → Word → List Byte
  | .dw => dwUartPrintHex
  | .pl011 => genericUartPrintHex .pl011

/-- `uart_print_dec`. -/
def uartPrintDec : UartType → Word → Option (List Byte)
  | .dw, value => dwUartPrintDec value.toInt
  | .pl011, value => genericUartPrintDec .pl011 value.toInt

/-! ### The logger -/

/-- `BUFSZ`. -/
def bufsz : Nat := 512

/-- `log_config_t`. -/
structure LogConfig where
  color : Option CString
  showPrefix : Bool

/-- `log_configs`. -/
def logConfigs : LogLevel → LogConfig
  | .debug => ⟨some (.lit "\x1b[34m"), false⟩
  | .info => ⟨some (.lit "\x1b[32m"), true⟩
  | .warn => ⟨some (.lit "\x1b[33m"), true⟩
  | .error => ⟨some (.lit "\x1b[31m"), true⟩
  | .normal => ⟨none, true⟩

/-- `ANSI_RESET`. -/
def ansiReset : CString := .lit "\x1b[0m"

/-- The prefix of a message. -/
def logPrefix : CString := .lit "[TESTOS] "

/-- What `logger_output` sends with a message. -/
def LogConfig.message (config : LogConfig) (t : UartType) (buf : CString) : List Byte :=
  (match config.color with
    | some color => uartPuts t color
    | none => []) ++
  (if config.showPrefix then uartPuts t logPrefix else []) ++
  uartPuts t buf ++
  (match config.color with
    | some _ => uartPuts t ansiReset
    | none => [])

/-- `logger_output`, its buffer at `buf`: what it sends and what it returns. -/
def loggerOutput (t : UartType) (memory : Memory) (buf : Word) (level : LogLevel) (fmt : CString)
    (va : List Arg) : Option (List Byte × BitVec 32) :=
  (myVsnprintf memory buf (BitVec.ofNat 32 bufsz) fmt va).map fun r =>
    ((logConfigs level).message t (cstringAt r.memory buf), r.count)

/-- What an output call sends. -/
def sent (t : UartType) (memory : Memory) (buf : Word) : Event → Option (List Byte)
  | .putchar c => some (uartPutchar t c)
  | .puts s => some (uartPuts t s)
  | .printHex value => some (uartPrintHex t value)
  | .printDec value => uartPrintDec t value
  | .log level fmt va => (loggerOutput t memory buf level fmt va).map (·.1)

/-- What output calls send one after the other. -/
def sentAll (t : UartType) (memory : Memory) (buf : Word) : List Event → Option (List Byte)
  | [] => some []
  | event :: events =>
    (sent t memory buf event).bind fun bytes => (sentAll t memory buf events).map (bytes ++ ·)

/-- **A message** is sent as far as it fits the buffer and up to its first NUL, whatever
stood in the buffer. -/
theorem loggerOutput_renders {fmt : CString} {va : List Arg} {out : List Byte}
    (h : Renders fmt.bytes va out) (t : UartType) (memory : Memory) (buf : Word) (level : LogLevel) :
    loggerOutput t memory buf level fmt va =
      some ((logConfigs level).message t (stringIn (out.take 511)), BitVec.ofNat 32 out.length) := by
  have hfuel : 2 * fmt.bytes.length + 1 ≤ 2 * fmt.length + 2 := Nat.le_succ _
  obtain ⟨r, hr, htruncated⟩ := myVsnprintf_truncated
    (fun s => formatLoop_renders h (.start fmt) hfuel s) memory buf bufsz (by decide) (by decide)
  have htext : cstringAt r.memory buf = stringIn (out.take 511) := by
    rw [stringIn, CString.mk.injEq]
    exact htruncated.cstringAt (by decide)
  rw [loggerOutput, hr, Option.map_some, htext, htruncated.count]

/-- One that is sent alone. -/
theorem sentAll_logger {fmt : CString} {va : List Arg} {out : List Byte} (h : Renders fmt.bytes va out)
    (t : UartType) (memory : Memory) (buf : Word) : sentAll t memory buf [logger fmt va] =
      some (uartPuts t logPrefix ++ uartPuts t (stringIn (out.take 511))) := by
  rw [sentAll, logger, sent, loggerOutput_renders h]
  simp [sentAll, LogConfig.message, logConfigs]

end Testos.Lib
