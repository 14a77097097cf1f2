import Testos.Lib.Format

/-! The formatter's scan, apart from what it prints.

What `my_vsnprintf` does with its format does not depend on the arguments or on the
stream: the scan of a format is a list of actions, each putting a character or printing
the next argument. `formatLoop_scan` cuts the loop into the scan and the performance of
what it found, which records every argument fetched and the type it is fetched as. -/
namespace Testos.Lib
open Foundation

/-- The types named in `va_arg`. -/
inductive VaType where
  | int
  | long
  | longLong
  | unsigned
  | unsignedLong
  | unsignedLongLong
  | pointer
  | string
deriving DecidableEq

/-- A conversion that takes an argument, with its count of `l`s. -/
inductive Conversion where
  | signed (nlong : Nat)
  | unsigned (nlong : Nat)
  | pointer
  | char
  | string
deriving DecidableEq

/-- The type it fetches its argument as. -/
def Conversion.vaType : Conversion → VaType
  | .signed 0 => .int
  | .signed 1 => .long
  | .signed _ => .longLong
  | .unsigned 0 => .unsigned
  | .unsigned 1 => .unsignedLong
  | .unsigned _ => .unsignedLongLong
  | .pointer => .pointer
  | .char => .int
  | .string => .string

/-- The cases of the `switch` that print an argument, with what the scan has collected
for them. -/
inductive Printer where
  | char
  | decimal (nlong : Nat) (props : StrProps)
  | unsigned (nlong : Nat) (props : StrProps)
  | hex (nlong : Nat) (props : StrProps)
  | pointer (props : StrProps)
  | string (props : StrProps)

def Printer.conversion : Printer → Conversion
  | .char => .char
  | .decimal nlong _ => .signed nlong
  | .unsigned nlong _ | .hex nlong _ => .unsigned nlong
  | .pointer _ => .pointer
  | .string _ => .string

/-- What each of them does with the argument. -/
def Printer.print : Printer → Arg → PStream → Option PStream
  | .char, a, s => some (addchar s (a.slot.setWidth 8))
  | .decimal nlong props, a, s => printInt s (signedArg nlong a.slot) 10 props
  | .unsigned nlong props, a, s => printUnsigned s (unsignedArg nlong a.slot) 10 props
  | .hex nlong props, a, s => printUnsigned s (unsignedArg nlong a.slot) 16 props
  | .pointer props, a, s => printUnsigned s a.slot 16 { props with alternate := true }
  | .string props, .string _ str, s => some (printStr s str props)
  | .string _, .word _, _ => none

/-- One thing the loop does to its stream. -/
inductive Action where
  | put (c : Byte)
  | print (p : Printer)

/-- The conversion whose argument it takes, if any. -/
def Action.conversion : Action → Option Conversion
  | .put _ => none
  | .print p => some p.conversion

/-- The loop of `my_vsnprintf` without its stream and its arguments. -/
def scanLoop (fmt : CString) : Nat → Mode → Nat → Option (List Action)
  | 0, _, _ => none
  | fuel + 1, .plain, pos =>
    (fmt.at? pos).bind fun f =>
      if f = 0 then some []
      else if f ≠ 0x25 then (scanLoop fmt fuel .plain (pos + 1)).map (.put f :: ·)
      else scanLoop fmt fuel (.more 0 {}) (pos + 1)
  | fuel + 1, .more nlong props, pos =>
    (fmt.at? pos).bind fun f =>
      match directive f with
      | .percent => (scanLoop fmt fuel .plain (pos + 1)).map (.put 0x25 :: ·)
      | .char => (scanLoop fmt fuel .plain (pos + 1)).map (.print .char :: ·)
      | .nul => scanLoop fmt fuel .plain pos
      | .hash => scanLoop fmt fuel (.more nlong { props with alternate := true }) (pos + 1)
      | .zero =>
        (fmtnum fmt (pos + 1)).bind fun (npad, pos) =>
          scanLoop fmt fuel (.more nlong { props with pad := 0x30, npad }) pos
      | .number =>
        (fmtnum fmt pos).bind fun (npad, pos) => scanLoop fmt fuel (.more nlong { props with npad }) pos
      | .long => scanLoop fmt fuel (.more (nlong + 1) props) (pos + 1)
      | .decimal => (scanLoop fmt fuel .plain (pos + 1)).map (.print (.decimal nlong props) :: ·)
      | .unsigned => (scanLoop fmt fuel .plain (pos + 1)).map (.print (.unsigned nlong props) :: ·)
      | .hex => (scanLoop fmt fuel .plain (pos + 1)).map (.print (.hex nlong props) :: ·)
      | .pointer => (scanLoop fmt fuel .plain (pos + 1)).map (.print (.pointer props) :: ·)
      | .string => (scanLoop fmt fuel .plain (pos + 1)).map (.print (.string props) :: ·)
      | .other => (scanLoop fmt fuel .plain (pos + 1)).map (.put f :: ·)

/-- The stream after some actions, the arguments they fetched and those left. -/
structure Performed where
  stream : PStream
  fetched : List (VaType × Arg)
  left : List Arg

def perform : List Action → List Arg → PStream → Option Performed
  | [], va, s => some ⟨s, [], va⟩
  | .put c :: acts, va, s => perform acts va (addchar s c)
  | .print _ :: _, [], _ => none
  | .print p :: acts, a :: va, s =>
    (p.print a s).bind fun s =>
      (perform acts va s).map fun r => { r with fetched := (p.conversion.vaType, a) :: r.fetched }

/-- The stream alone. -/
def performed (acts : List Action) (va : List Arg) (s : PStream) : Option PStream :=
  (perform acts va s).map Performed.stream

theorem performed_put (c : Byte) (acts : List Action) (va : List Arg) (s : PStream) :
    performed (.put c :: acts) va s = performed acts va (addchar s c) := rfl

theorem performed_print (p : Printer) (acts : List Action) (va : List Arg) (s : PStream) :
    performed (.print p :: acts) va s =
      vaArg va fun a va => (p.print a s).bind fun s => performed acts va s := by
  cases va with
  | nil => rfl
  | cons a va =>
    rw [vaArg, performed, perform]
    cases p.print a s with
    | none => rfl
    | some s' =>
      rw [Option.bind_some, Option.bind_some, Option.map_map]
      rfl

/-- **The loop is its scan, performed.** -/
theorem formatLoop_scan (fmt : CString) (fuel : Nat) (mode : Mode) (pos : Nat) (va : List Arg)
    (s : PStream) :
    formatLoop fmt fuel mode pos va s =
      (scanLoop fmt fuel mode pos).bind fun acts => performed acts va s := by
  induction fuel generalizing mode pos va s with
  | zero => rfl
  | succ fuel ih =>
    have hput : ∀ c pos, formatLoop fmt fuel .plain pos va (addchar s c) =
        ((scanLoop fmt fuel .plain pos).map (.put c :: ·)).bind fun acts => performed acts va s := by
      intro c pos
      rw [ih, Option.bind_map]
      rfl
    have hprint : ∀ (p : Printer) pos,
        (vaArg va fun a va => (p.print a s).bind (formatLoop fmt fuel .plain pos va)) =
          ((scanLoop fmt fuel .plain pos).map (.print p :: ·)).bind fun acts => performed acts va s := by
      intro p pos
      have hloop : ∀ va, formatLoop fmt fuel .plain pos va = fun s =>
          (scanLoop fmt fuel .plain pos).bind fun acts => performed acts va s :=
        fun va => funext fun s => ih .plain pos va s
      simp only [hloop]
      cases scanLoop fmt fuel .plain pos with
      | none =>
        cases va with
        | nil => rfl
        | cons a va => exact Option.bind_fun_none _
      | some acts =>
        simp only [Option.bind_some, Option.map_some]
        rw [performed_print]
    cases mode with
    | plain =>
      rw [formatLoop, scanLoop]
      cases fmt.at? pos with
      | none => rfl
      | some f =>
        simp only [Option.bind_some]
        split
        · rfl
        · split
          · exact hput f (pos + 1)
          · exact ih _ _ _ _
    | more nlong props =>
      rw [formatLoop, scanLoop]
      cases fmt.at? pos with
      | none => rfl
      | some f =>
        simp only [Option.bind_some]
        cases directive f with
        | percent => exact hput 0x25 (pos + 1)
        | other => exact hput f (pos + 1)
        | nul | hash | long => exact ih _ _ _ _
        | zero =>
          simp only
          cases fmtnum fmt (pos + 1) with
          | none => rfl
          | some r => exact ih _ _ _ _
        | number =>
          simp only
          cases fmtnum fmt pos with
          | none => rfl
          | some r => exact ih _ _ _ _
        | char => exact hprint .char (pos + 1)
        | decimal => exact hprint (.decimal nlong props) (pos + 1)
        | unsigned => exact hprint (.unsigned nlong props) (pos + 1)
        | hex => exact hprint (.hex nlong props) (pos + 1)
        | pointer => exact hprint (.pointer props) (pos + 1)
        | string =>
          rw [← hprint (.string props) (pos + 1)]
          show vaArg va _ = vaArg va _
          congr 1
          funext a va
          cases a <;> rfl

end Testos.Lib
