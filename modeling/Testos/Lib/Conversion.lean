import Testos.Lib.Walk

/-! Single conversions.

Between a `%` and its letter `my_vsnprintf` takes `#`, `0`, `-` and digits in any order,
each run of digits at once through `fmtnum`. `Reading` takes them byte by byte.
`formatLoop_single`: a format that is one conversion prints its argument, with the
properties that reading its flags and digits leaves. -/
namespace Testos.Lib
open Foundation

/-! ### Reading byte by byte -/

/-- A number of the format: whether a minus sign began it, and its digits so far. -/
structure OpenNumber where
  negative : Bool
  num : Int

/-- What `fmtnum` returns at its end. -/
def OpenNumber.value (o : OpenNumber) : Int := if o.negative then wrap32 (-o.num) else o.num

/-- The properties so far, and the number that the next digit would go on with. -/
structure Reading where
  props : StrProps := {}
  number : Option OpenNumber := none

/-- The properties, if nothing more is read. -/
def Reading.close (r : Reading) : StrProps :=
  match r.number with
  | none => r.props
  | some o => { r.props with npad := o.value }

@[simp] theorem Reading.close_pad (r : Reading) : r.close.pad = r.props.pad := by
  rw [Reading.close]
  split <;> rfl

@[simp] theorem Reading.close_alternate (r : Reading) : r.close.alternate = r.props.alternate := by
  rw [Reading.close]
  split <;> rfl

/-- A zero is a flag unless it goes on with a number. -/
def Reading.byte (r : Reading) (c : Byte) : Reading :=
  if c = 0x23 then ⟨{ r.close with alternate := true }, none⟩
  else if c = 0x2d then ⟨r.close, some ⟨true, 0⟩⟩
  else
    match r.number with
    | some o => ⟨r.props, some { o with num := wrap32 (o.num * 10 + (c.toNat - 0x30)) }⟩
    | none =>
      if c = 0x30 then ⟨{ r.props with pad := 0x30 }, some ⟨false, 0⟩⟩
      else ⟨r.props, some ⟨false, wrap32 (0 * 10 + (c.toNat - 0x30))⟩⟩

def Reading.bytes (r : Reading) (body : List Byte) : Reading := body.foldl Reading.byte r

@[simp] theorem Reading.bytes_nil (r : Reading) : r.bytes [] = r := rfl

@[simp] theorem Reading.bytes_cons (r : Reading) (c : Byte) (body : List Byte) :
    r.bytes (c :: body) = (r.byte c).bytes body := rfl

theorem Reading.bytes_append (r : Reading) (a b : List Byte) : r.bytes (a ++ b) = (r.bytes a).bytes b :=
  List.foldl_append

/-- A number ends at a byte that is no digit. -/
theorem Reading.byte_close (r : Reading) {c : Byte} (hc : c = 0x23 ∨ c = 0x2d) :
    (⟨r.close, none⟩ : Reading).byte c = r.byte c := by
  rcases hc with rfl | rfl <;> rfl

theorem isDigit_ne {c : Byte} (hc : isDigit c = true) : c ≠ 0x23 ∧ c ≠ 0x2d := by
  refine ⟨fun h => ?_, fun h => ?_⟩ <;> subst h <;> cases hc

theorem Reading.byte_digit (p : StrProps) (o : OpenNumber) {c : Byte} (hc : isDigit c = true) :
    (⟨p, some o⟩ : Reading).byte c = ⟨p, some { o with num := wrap32 (o.num * 10 + (c.toNat - 0x30)) }⟩ := by
  rw [Reading.byte, if_neg (isDigit_ne hc).1, if_neg (isDigit_ne hc).2]

/-! ### The scan of a conversion -/

/-- The scan, with `rest` before it, finds `acts`. -/
structure Finds (fmt : CString) (mode : Mode) (pos : Nat) (rest : List Byte) (acts : List Action) : Prop where
  here : Here fmt pos rest
  scan : ∀ fuel, fuelFor rest mode ≤ fuel → scanLoop fmt fuel mode pos = some acts

/-- The same from inside `fmtnum`, in the number `o`. -/
structure FindsIn (fmt : CString) (nlong : Nat) (p : StrProps) (o : OpenNumber) (pos : Nat)
    (rest : List Byte) (acts : List Action) : Prop where
  here : Here fmt pos rest
  scan : ∀ dfuel fuel, rest.length < dfuel → 2 * rest.length + 2 ≤ fuel →
    ((fmtDigits fmt dfuel pos o.num).bind fun r =>
      scanLoop fmt fuel (.more nlong { p with npad := if o.negative then wrap32 (-r.1) else r.1 }) r.2) =
      some acts

section Scan
variable {fmt : CString} {nlong pos : Nat} {p : StrProps} {o : OpenNumber} {c : Byte} {rest : List Byte}
  {acts : List Action}

/-- The end of the format. -/
theorem Finds.nul (here : Here fmt pos []) : Finds fmt .plain pos [] [] := by
  refine ⟨here, fun fuel hfuel => ?_⟩
  obtain ⟨fuel, rfl⟩ := Nat.exists_eq_succ_of_ne_zero (Nat.ne_of_gt hfuel)
  rw [scanLoop, here.nul, Option.bind_some, if_pos rfl]

theorem FindsIn.digit (hc : isDigit c = true) (here : Here fmt pos (c :: rest))
    (h : FindsIn fmt nlong p { o with num := wrap32 (o.num * 10 + (c.toNat - 0x30)) } (pos + 1) rest acts) :
    FindsIn fmt nlong p o pos (c :: rest) acts := by
  refine ⟨here, fun dfuel fuel hdfuel hfuel => ?_⟩
  obtain ⟨dfuel, rfl⟩ := Nat.exists_eq_succ_of_ne_zero (Nat.ne_of_gt (Nat.lt_of_le_of_lt (Nat.zero_le _) hdfuel))
  rw [List.length_cons] at hdfuel hfuel
  rw [fmtDigits, here.read.1, Option.bind_some, if_pos hc]
  exact h.scan dfuel fuel (by omega) (by omega)

theorem FindsIn.stop (hc : isDigit (rest.headD 0) = false)
    (h : Finds fmt (.more nlong { p with npad := o.value }) pos rest acts) :
    FindsIn fmt nlong p o pos rest acts := by
  refine ⟨h.here, fun dfuel fuel hdfuel hfuel => ?_⟩
  obtain ⟨dfuel, rfl⟩ := Nat.exists_eq_succ_of_ne_zero (Nat.ne_of_gt (Nat.lt_of_le_of_lt (Nat.zero_le _) hdfuel))
  rw [fmtDigits, h.here.head, Option.bind_some, if_neg (by rw [hc]; exact Bool.false_ne_true), Option.bind_some]
  exact h.scan fuel hfuel

/-- Reading the next byte at `morefmt`. -/
theorem finds_more (here : Here fmt pos (c :: rest))
    (h : ∀ fuel, 2 * rest.length + 2 < fuel → scanLoop fmt (fuel + 1) (.more nlong p) pos = some acts) :
    Finds fmt (.more nlong p) pos (c :: rest) acts := by
  refine ⟨here, fun fuel hfuel => ?_⟩
  simp only [fuelFor, List.length_cons] at hfuel
  obtain ⟨fuel, rfl⟩ := Nat.exists_eq_succ_of_ne_zero (show fuel ≠ 0 by omega)
  exact h fuel (by omega)

theorem Finds.hash (here : Here fmt pos (0x23 :: rest))
    (h : Finds fmt (.more nlong { p with alternate := true }) (pos + 1) rest acts) :
    Finds fmt (.more nlong p) pos (0x23 :: rest) acts := by
  refine finds_more here fun fuel hfuel => ?_
  rw [scanLoop, here.read.1]
  exact h.scan fuel (Nat.le_of_lt hfuel)

theorem Finds.long (here : Here fmt pos (0x6c :: rest))
    (h : Finds fmt (.more (nlong + 1) p) (pos + 1) rest acts) :
    Finds fmt (.more nlong p) pos (0x6c :: rest) acts := by
  refine finds_more here fun fuel hfuel => ?_
  rw [scanLoop, here.read.1]
  exact h.scan fuel (Nat.le_of_lt hfuel)

/-- A minus sign begins a number. -/
theorem Finds.minus (here : Here fmt pos (0x2d :: rest))
    (h : FindsIn fmt nlong p ⟨true, 0⟩ (pos + 1) rest acts) : Finds fmt (.more nlong p) pos (0x2d :: rest) acts := by
  have hlen := here.length_le
  rw [List.length_cons] at hlen
  refine finds_more here fun fuel hfuel => ?_
  have hnumber : directive 0x2d = .number := rfl
  rw [scanLoop, here.read.1, Option.bind_some]
  simp only [hnumber]
  rw [fmtnum, here.read.1, Option.bind_some, if_pos rfl, Option.bind_map]
  exact h.scan _ fuel (by omega) (Nat.le_of_lt hfuel)

/-- So does a digit, the number it is the first digit of. -/
theorem Finds.digit (hc : isDigit c = true) (h0 : c ≠ 0x30) (here : Here fmt pos (c :: rest))
    (h : FindsIn fmt nlong p ⟨false, wrap32 (0 * 10 + (c.toNat - 0x30))⟩ (pos + 1) rest acts) :
    Finds fmt (.more nlong p) pos (c :: rest) acts := by
  have hlen := here.length_le
  rw [List.length_cons] at hlen
  have hnumber : directive c = .number := (directive_number_iff c).mpr ⟨h0, .inl hc⟩
  have hminus : c ≠ 0x2d := (isDigit_ne hc).2
  refine finds_more here fun fuel hfuel => ?_
  rw [scanLoop, here.read.1, Option.bind_some]
  simp only [hnumber]
  rw [fmtnum, here.read.1, Option.bind_some, if_neg hminus, fmtDigits, here.read.1, Option.bind_some, if_pos hc]
  exact h.scan _ fuel (by omega) (Nat.le_of_lt hfuel)

/-- A zero is a flag and the first digit of a number, unless a minus sign begins that. -/
theorem Finds.zero (here : Here fmt pos (0x30 :: rest))
    (h : FindsIn fmt nlong { p with pad := 0x30 } ⟨false, 0⟩ (pos + 1) rest acts) (hminus : rest.headD 0 ≠ 0x2d) :
    Finds fmt (.more nlong p) pos (0x30 :: rest) acts := by
  have hlen := here.length_le
  rw [List.length_cons] at hlen
  have hzero : directive 0x30 = .zero := rfl
  refine finds_more here fun fuel hfuel => ?_
  rw [scanLoop, here.read.1, Option.bind_some]
  simp only [hzero]
  rw [fmtnum, h.here.head, Option.bind_some, if_neg hminus]
  exact h.scan _ fuel (by omega) (Nat.le_of_lt hfuel)

theorem Finds.zero_minus (here : Here fmt pos (0x30 :: 0x2d :: rest))
    (h : Finds fmt (.more nlong { p with pad := 0x30, npad := 0 }) (pos + 1) (0x2d :: rest) acts) :
    Finds fmt (.more nlong p) pos (0x30 :: 0x2d :: rest) acts := by
  have hzero : directive 0x30 = .zero := rfl
  have hnumber : directive 0x2d = .number := rfl
  refine finds_more here fun fuel hfuel => ?_
  rw [← h.scan (fuel + 1) (Nat.le_succ_of_le (Nat.le_of_lt hfuel)), scanLoop, here.read.1, scanLoop, h.here.read.1]
  simp only [Option.bind_some, hzero, hnumber]

/-! ### A row of flags and digits -/

/-- What may stand before the letters. -/
def Specifies (c : Byte) : Prop := c = 0x23 ∨ c = 0x2d ∨ isDigit c = true

section Body
variable {tail : List Byte} (hdigit : isDigit (tail.headD 0) = false) (hminus : tail.headD 0 ≠ 0x2d)
include hdigit hminus

/-- Both ways into the row: at `morefmt`, and inside a number. -/
theorem finds_body {body : List Byte} (hbody : ∀ c ∈ body, Specifies c) (here : Here fmt pos (body ++ tail)) :
    (∀ p, Finds fmt (.more nlong ((⟨p, none⟩ : Reading).bytes body).close) (pos + body.length) tail acts →
        Finds fmt (.more nlong p) pos (body ++ tail) acts) ∧
      ∀ p o, Finds fmt (.more nlong ((⟨p, some o⟩ : Reading).bytes body).close) (pos + body.length) tail acts →
        FindsIn fmt nlong p o pos (body ++ tail) acts := by
  induction body generalizing pos with
  | nil => exact ⟨fun p h => h, fun p o h => .stop hdigit h⟩
  | cons c body ih =>
    have hnext := (show Here fmt pos (c :: (body ++ tail)) from here).read.2.2
    have hat : pos + (c :: body).length = pos + 1 + body.length := by
      rw [List.length_cons]
      omega
    obtain ⟨ihmore, ihin⟩ := ih (fun d hd => hbody d (List.mem_cons_of_mem c hd)) hnext
    have hmore : ∀ p, Finds fmt (.more nlong ((⟨p, none⟩ : Reading).bytes (c :: body)).close)
        (pos + (c :: body).length) tail acts → Finds fmt (.more nlong p) pos (c :: body ++ tail) acts := by
      intro p h
      rw [hat] at h
      rcases hbody c List.mem_cons_self with rfl | rfl | hc
      · exact .hash here (ihmore _ h)
      · exact .minus here (ihin _ _ h)
      · by_cases h0 : c = 0x30
        · subst h0
          cases body with
          | nil => exact .zero here (ihin _ _ h) hminus
          | cons d body =>
            by_cases hd : d = 0x2d
            · subst hd
              exact .zero_minus here (ihmore _ h)
            · exact .zero here (ihin _ _ h) hd
        · have hbyte : (⟨p, none⟩ : Reading).byte c =
              ⟨p, some ⟨false, wrap32 (0 * 10 + (c.toNat - 0x30))⟩⟩ := by
            simp only [Reading.byte, if_neg (isDigit_ne hc).1, if_neg (isDigit_ne hc).2, if_neg h0]
          rw [Reading.bytes_cons, hbyte] at h
          exact .digit hc h0 here (ihin _ _ h)
    refine ⟨hmore, fun p o h => ?_⟩
    have hstop : ∀ c : Byte, c = 0x23 ∨ c = 0x2d → isDigit c = false := by decide
    by_cases hc : c = 0x23 ∨ c = 0x2d
    · refine .stop (hstop c hc) (hmore _ ?_)
      rwa [Reading.bytes_cons, ← Reading.byte_close _ hc, ← Reading.bytes_cons] at h
    · have hc' : isDigit c = true := (or_assoc.mpr (hbody c List.mem_cons_self)).resolve_left hc
      rw [hat, Reading.bytes_cons, Reading.byte_digit p o hc'] at h
      exact .digit hc' here (ihin _ _ h)

end Body

/-! ### The letters -/

theorem finds_longs (k : Nat) (here : Here fmt pos (List.replicate k 0x6c ++ rest))
    (h : Finds fmt (.more (nlong + k) p) (pos + k) rest acts) :
    Finds fmt (.more nlong p) pos (List.replicate k 0x6c ++ rest) acts := by
  induction k generalizing nlong pos with
  | zero => exact h
  | succ k ih =>
    rw [List.replicate_succ, List.cons_append] at here ⊢
    refine .long here (ih here.read.2.2 ?_)
    rwa [Nat.add_assoc, Nat.add_assoc, Nat.add_comm 1 k]

/-- The printer of the `switch` that a letter selects, if it selects one. -/
def Directive.printer (nlong : Nat) (props : StrProps) : Directive → Option Printer
  | .char => some .char
  | .decimal => some (.decimal nlong props)
  | .unsigned => some (.unsigned nlong props)
  | .hex => some (.hex nlong props)
  | .pointer => some (.pointer props)
  | .string => some (.string props)
  | .percent | .nul | .hash | .zero | .number | .long | .other => none

theorem Finds.letter {printer : Printer} (hprinter : (directive c).printer nlong p = some printer)
    (here : Here fmt pos (c :: rest)) (h : Finds fmt .plain (pos + 1) rest acts) :
    Finds fmt (.more nlong p) pos (c :: rest) (.print printer :: acts) := by
  refine finds_more here fun fuel hfuel => ?_
  have hrest := h.scan fuel (by simp only [fuelFor]; omega)
  rw [scanLoop, here.read.1, Option.bind_some]
  cases hc : directive c <;> rw [hc] at hprinter <;> cases hprinter <;> simp only [hrest] <;> rfl

end Scan

/-- A conversion: flags and digits, `l`s, and a letter. -/
def conversionText (body : List Byte) (nlong : Nat) (letter : Byte) : List Byte :=
  0x25 :: (body ++ (List.replicate nlong 0x6c ++ [letter]))

/-- **A conversion that is the whole format** prints its argument. -/
theorem formatLoop_single {fmt : CString} {body : List Byte} {nlong : Nat} {letter : Byte}
    {printer : Printer} (hfmt : fmt.bytes = conversionText body nlong letter)
    (hbody : ∀ c ∈ body, Specifies c)
    (hprinter : (directive letter).printer nlong (({} : Reading).bytes body).close = some printer)
    (a : Arg) (s : PStream) :
    formatLoop fmt (2 * fmt.length + 2) .plain 0 [a] s = printer.print a s := by
  have hstart : Here fmt 0 (conversionText body nlong letter) := hfmt ▸ Here.start fmt
  have hbodyHere := hstart.read.2.2
  have hlongs := hbodyHere.skip body
  have hletter := hlongs.skip (List.replicate nlong 0x6c)
  rw [List.length_replicate] at hletter
  -- neither an `l` nor a letter goes on with a number
  have hother : isDigit letter = false ∧ letter ≠ 0x2d := by
    refine ⟨Bool.eq_false_iff.mpr fun hd => ?_, fun hd => ?_⟩
    · rcases directive_digit hd with h | h <;> rw [h] at hprinter <;> cases hprinter
    · subst hd
      cases hprinter
  have htail : isDigit ((List.replicate nlong 0x6c ++ [letter]).headD 0) = false ∧
      (List.replicate nlong 0x6c ++ [letter]).headD 0 ≠ 0x2d := by
    cases nlong with
    | zero => exact hother
    | succ k => exact ⟨rfl, show (0x6c : Byte) ≠ 0x2d by decide⟩
  have hfinds : Finds fmt (.more 0 {}) 1 (body ++ (List.replicate nlong 0x6c ++ [letter])) [.print printer] := by
    refine (finds_body htail.1 htail.2 hbody hbodyHere).1 {} (finds_longs nlong hlongs ?_)
    rw [Nat.zero_add]
    exact .letter hprinter hletter (.nul hletter.read.2.2)
  have hlen : fmt.length = (body ++ (List.replicate nlong 0x6c ++ [letter])).length + 1 :=
    congrArg List.length hfmt
  have hpercent : scanLoop fmt (2 * fmt.length + 2) .plain 0 = some [.print printer] := by
    rw [scanLoop, hstart.read.1, Option.bind_some, if_neg (by decide), if_neg (by decide)]
    exact hfinds.scan _ (by simp only [fuelFor]; omega)
  rw [formatLoop_scan, hpercent, Option.bind_some, performed_print]
  exact Option.bind_fun_some _

end Testos.Lib
