import Testos.Types

/-! What the kernel says on its console.

Every output of the kernel is a call of the UART wrappers or of the logger, and a
function's output is the list of the calls it makes, in order, with the values it
passes. The bytes a call puts on the wire are the drivers' and the formatter's. -/
namespace Testos
open Foundation

/-- `log_level_t`. -/
inductive LogLevel where
  | debug
  | info
  | warn
  | error
  | normal
deriving DecidableEq

/-- A variadic argument: its 64-bit slot, and the string behind it when the slot is
a pointer to one. -/
inductive Arg where
  | word (w : Word)
  | string (p : Word) (s : CString)
deriving DecidableEq

/-- The slot as `va_arg` finds it. -/
def Arg.slot : Arg → Word
  | .word w => w
  | .string p _ => p

/-- One output call. -/
inductive Event where
  | putchar (c : Byte)
  | puts (s : CString)
  | printHex (value : Word)
  | printDec (value : Word)
  | log (level : LogLevel) (fmt : CString) (va : List Arg)
deriving DecidableEq

/-- `logger`. -/
def logger (fmt : CString) (va : List Arg) : Event := .log .normal fmt va

/-- `logger_debug`. -/
def loggerDebug (fmt : CString) (va : List Arg) : Event := .log .debug fmt va

/-- `logger_info`. -/
def loggerInfo (fmt : CString) (va : List Arg) : Event := .log .info fmt va

/-- `logger_warn`. -/
def loggerWarn (fmt : CString) (va : List Arg) : Event := .log .warn fmt va

/-- `logger_error`. -/
def loggerError (fmt : CString) (va : List Arg) : Event := .log .error fmt va

end Testos
