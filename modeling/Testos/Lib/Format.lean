import Testos.Console
import Testos.Lib.Stream

/-! The formatter of `logger.c`.

`my_vsnprintf` walks the format byte by byte and fetches an argument for each
conversion it completes. `none` is a fault: an argument that is not there, a string
that is not one, an index outside a table or a local buffer, a byte read past the
format's NUL. Integers of the C code are `Int`s brought back to 32 or 64 bits where an
operation can leave them. -/
namespace Testos.Lib
open Foundation

/-- Back to an `int`. -/
def wrap32 (n : Int) : Int := n.bmod (2 ^ 32)

/-- Back to a `long long`. -/
def wrap64 (n : Int) : Int := n.bmod (2 ^ 64)

/-- `strprops_t`, with the values a conversion starts from. -/
structure StrProps where
  pad : Byte := 0x20
  npad : Int := 0
  alternate : Bool := false
deriving DecidableEq

/-- `digits`. -/
def digits : List Byte :=
  [0x30, 0x31, 0x32, 0x33, 0x34, 0x35, 0x36, 0x37, 0x38, 0x39, 0x61, 0x62, 0x63, 0x64, 0x65, 0x66]

/-! ### Strings -/

/-- `n` times the same character. -/
def addPads (p : PStream) (pad : Byte) : Nat → PStream
  | 0 => p
  | n + 1 => addPads (addchar p pad) pad n

/-- `while (*s) addchar(p, *s++)`. -/
def addString (p : PStream) (s : CString) : PStream := s.bytes.foldl addchar p

/-- `print_str`. A loop that counts `npad` to zero leaves it at zero. -/
def printStr (p : PStream) (s : CString) (props : StrProps) : PStream :=
  let front := wrap32 (props.npad - s.length)
  let p := if props.npad > 0 then addPads p props.pad front.toNat else p
  let npad := if props.npad > 0 then min front 0 else props.npad
  let p := addString p s
  if npad < 0 then addPads p 0x20 (-wrap32 (npad + s.length)).toNat else p

/-! ### Numbers -/

/-- `*p++ = c` in a local buffer of `room` bytes, of which `buf` are written. -/
def push (room : Nat) (buf : List Byte) (c : Byte) : Option (List Byte) :=
  if buf.length < room then some (buf ++ [c]) else none

/-- `while (n) { *p++ = digits[n % base]; n /= base; }`, with `room` bytes left. -/
def pushDigits (base : Int) (n : Int) (buf : List Byte) : Nat → Option (List Byte)
  | 0 => if n = 0 then some buf else none
  | room + 1 =>
    if n = 0 then some buf
    else
      let i := n.tmod base
      if i < 0 then none
      else (digits[i.toNat]?).bind fun c => pushDigits base (n.tdiv base) (buf ++ [c]) room

/-- The swap of one pass of the reversal. -/
def swapEnds (buf : List Byte) (i : Nat) : List Byte :=
  (buf.set i (buf.getD (buf.length - 1 - i) 0)).set (buf.length - 1 - i) (buf.getD i 0)

/-- `for (i = 0; i < n; ++i)` around the swap. -/
def swapLoop (buf : List Byte) : Nat → List Byte
  | 0 => buf
  | n + 1 => swapEnds (swapLoop buf n) n

/-- The end of both number printers: reverse the buffer, close it with a NUL and print
it. -/
def printBuffer (room : Nat) (ps : PStream) (buf : List Byte) (props : StrProps) : Option PStream :=
  let buf := swapLoop buf (buf.length / 2)
  (push room buf 0).map fun closed =>
    printStr ps ⟨closed.takeWhile (· ≠ 0), CString.takeWhile_noNul closed⟩ props

/-- `print_int`; its buffer has `sizeof(long) * 3 + 2` bytes. -/
def printInt (ps : PStream) (n base : Int) (props : StrProps) : Option PStream :=
  let negative := n < 0
  let n := if negative then wrap64 (-n) else n
  (pushDigits base n [] 26).bind fun buf =>
  (if negative then push 26 buf 0x2d else some buf).bind fun buf =>
  (if buf = [] then push 26 buf 0x30 else some buf).bind fun buf =>
  printBuffer 26 ps buf props

/-- `print_unsigned`; its buffer has `sizeof(long) * 3 + 3` bytes. -/
def printUnsigned (ps : PStream) (n : Word) (base : Int) (props : StrProps) : Option PStream :=
  (pushDigits base n.toNat [] 27).bind fun buf =>
  if buf = [] then (push 27 buf 0x30).bind fun buf => printBuffer 27 ps buf props
  else if props.alternate ∧ base = 16 then
    if props.pad = 0x30 then
      let npad :=
        if props.npad > 0 then (if props.npad - 2 > 0 then props.npad - 2 else 0) else props.npad
      printBuffer 27 (addchar (addchar ps 0x30) 0x78) buf { props with npad }
    else
      (push 27 buf 0x78).bind fun buf => (push 27 buf 0x30).bind fun buf => printBuffer 27 ps buf props
  else printBuffer 27 ps buf props

/-! ### Widths -/

def isDigit (c : Byte) : Bool := decide (0x30 ≤ c) && decide (c ≤ 0x39)

/-- The digit loop of `fmtnum` from position `f` on; at most the whole format is
digits. -/
def fmtDigits (fmt : CString) : Nat → Nat → Int → Option (Int × Nat)
  | 0, _, _ => none
  | fuel + 1, f, num =>
    (fmt.at? f).bind fun c =>
      if isDigit c then fmtDigits fmt fuel (f + 1) (wrap32 (num * 10 + (c.toNat - 0x30)))
      else some (num, f)

/-- `fmtnum`: the number at a position of the format, and the position after it. -/
def fmtnum (fmt : CString) (pos : Nat) : Option (Int × Nat) :=
  (fmt.at? pos).bind fun c =>
    if c = 0x2d then
      (fmtDigits fmt (fmt.length + 1) (pos + 1) 0).map fun (num, f) => (wrap32 (-num), f)
    else fmtDigits fmt (fmt.length + 1) pos 0

/-! ### The format -/

/-- The labels of the `switch` of `my_vsnprintf`. -/
inductive Directive where
  | percent
  | char
  | nul
  | hash
  | zero
  | number
  | long
  | decimal
  | unsigned
  | hex
  | pointer
  | string
  | other
deriving DecidableEq

def directive (f : Byte) : Directive :=
  if f = 0x25 then .percent
  else if f = 0x63 then .char
  else if f = 0 then .nul
  else if f = 0x23 then .hash
  else if f = 0x30 then .zero
  else if isDigit f ∨ f = 0x2d then .number
  else if f = 0x6c then .long
  else if f = 0x64 then .decimal
  else if f = 0x75 then .unsigned
  else if f = 0x78 then .hex
  else if f = 0x70 then .pointer
  else if f = 0x73 then .string
  else .other

/-- `va_arg`, and what follows with the slot it fetched. -/
def vaArg (va : List Arg) (next : Arg → List Arg → Option PStream) : Option PStream :=
  match va with
  | [] => none
  | a :: va => next a va

/-- A signed argument of `int`, `long` or `long long`. -/
def signedArg (nlong : Nat) (slot : Word) : Int :=
  if nlong = 0 then (slot.setWidth 32).toInt else slot.toInt

/-- An unsigned one. -/
def unsignedArg (nlong : Nat) (slot : Word) : Word :=
  if nlong = 0 then (slot.setWidth 32).setWidth 64 else slot

/-- Where the loop of `my_vsnprintf` stands: at its head, or at `morefmt`. -/
inductive Mode where
  | plain
  | more (nlong : Nat) (props : StrProps)
deriving DecidableEq

/-- The loop of `my_vsnprintf`, from position `pos` of the format on, as far as `fuel`
steps take it. -/
def formatLoop (fmt : CString) : Nat → Mode → Nat → List Arg → PStream → Option PStream
  | 0, _, _, _, _ => none
  | fuel + 1, .plain, pos, va, s =>
    (fmt.at? pos).bind fun f =>
      if f = 0 then some s
      else if f ≠ 0x25 then formatLoop fmt fuel .plain (pos + 1) va (addchar s f)
      else formatLoop fmt fuel (.more 0 {}) (pos + 1) va s
  | fuel + 1, .more nlong props, pos, va, s =>
    (fmt.at? pos).bind fun f =>
      match directive f with
      | .percent => formatLoop fmt fuel .plain (pos + 1) va (addchar s 0x25)
      | .char =>
        vaArg va fun a va => formatLoop fmt fuel .plain (pos + 1) va (addchar s (a.slot.setWidth 8))
      | .nul => formatLoop fmt fuel .plain pos va s
      | .hash => formatLoop fmt fuel (.more nlong { props with alternate := true }) (pos + 1) va s
      | .zero =>
        (fmtnum fmt (pos + 1)).bind fun (npad, pos) =>
          formatLoop fmt fuel (.more nlong { props with pad := 0x30, npad }) pos va s
      | .number =>
        (fmtnum fmt pos).bind fun (npad, pos) =>
          formatLoop fmt fuel (.more nlong { props with npad }) pos va s
      | .long => formatLoop fmt fuel (.more (nlong + 1) props) (pos + 1) va s
      | .decimal =>
        vaArg va fun a va =>
          (printInt s (signedArg nlong a.slot) 10 props).bind (formatLoop fmt fuel .plain (pos + 1) va)
      | .unsigned =>
        vaArg va fun a va =>
          (printUnsigned s (unsignedArg nlong a.slot) 10 props).bind
            (formatLoop fmt fuel .plain (pos + 1) va)
      | .hex =>
        vaArg va fun a va =>
          (printUnsigned s (unsignedArg nlong a.slot) 16 props).bind
            (formatLoop fmt fuel .plain (pos + 1) va)
      | .pointer =>
        vaArg va fun a va =>
          (printUnsigned s a.slot 16 { props with alternate := true }).bind
            (formatLoop fmt fuel .plain (pos + 1) va)
      | .string =>
        vaArg va fun a va =>
          match a with
          | .string _ str => formatLoop fmt fuel .plain (pos + 1) va (printStr s str props)
          | .word _ => none
      | .other => formatLoop fmt fuel .plain (pos + 1) va (addchar s f)

/-- What a call of `my_vsnprintf` leaves and returns. -/
structure Formatted where
  memory : Memory
  count : BitVec 32

/-- `my_vsnprintf`, into a buffer that neither the format nor a string argument
overlaps. A step of the loop that does not move on in the format ends it, so twice its
length is fuel enough. -/
def myVsnprintf (memory : Memory) (buf : Word) (size : BitVec 32) (fmt : CString) (va : List Arg) :
    Option Formatted :=
  (formatLoop fmt (2 * fmt.length + 2) .plain 0 va ⟨buf, size - 1, 0, memory⟩).map fun s =>
    ⟨s.memory.store s.buffer 0, s.added⟩

end Testos.Lib
