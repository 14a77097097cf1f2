import Testos.Lib.Digits
import Testos.Lib.Scan
import Testos.Lib.String

/-! The formatter's walk over its format.

`wants` reads off a format what arguments it takes. `format_scan`: whatever the format,
the scan ends at its NUL and fetches exactly those. `formatLoop_some`: on arguments that
match, the loop ends, and no number it prints is too long for the buffer it is built
in. -/
namespace Testos.Lib
open Foundation

/-! ### Matching arguments

What arguments a format wants, read off its bytes alone. -/

/-- The conversions of a format, from outside a conversion or, after `nlong` `l`s, from
inside one. -/
def wants : Option Nat → List Byte → List Conversion
  | _, [] => []
  | none, f :: rest => if f = 0x25 then wants (some 0) rest else wants none rest
  | some nlong, f :: rest =>
    match directive f with
    | .decimal => .signed nlong :: wants none rest
    | .unsigned | .hex => .unsigned nlong :: wants none rest
    | .pointer => .pointer :: wants none rest
    | .char => .char :: wants none rest
    | .string => .string :: wants none rest
    | .hash | .zero | .number => wants (some nlong) rest
    | .long => wants (some (nlong + 1)) rest
    | .percent | .nul | .other => wants none rest

/-- A string for `%s`, and for `%ld` and `%lld` a number above `LLONG_MIN`. -/
def Fits : Conversion → Arg → Prop
  | .signed nlong, .word w => 0 < nlong → -2 ^ 63 < w.toInt
  | .unsigned _, .word _ | .char, .word _ => True
  | .pointer, _ => True
  | .string, .string _ _ => True
  | _, _ => False

/-- The arguments a call passes are those its format wants, in order. -/
def Matches : List Conversion → List Arg → Prop
  | [], _ => True
  | _ :: _, [] => False
  | c :: wanted, a :: va => Fits c a ∧ Matches wanted va

theorem matches_cons {c : Conversion} {wanted : List Conversion} {va : List Arg}
    (h : Matches (c :: wanted) va) : ∃ a va', va = a :: va' ∧ Fits c a ∧ Matches wanted va' := by
  cases va with
  | nil => cases h
  | cons a va => exact ⟨a, va, rfl, h.1, h.2⟩

/-! ### The numbers fit their buffers -/

/-- A number below `base ^ k` takes at most `k` digits. -/
theorem pushDigits_fits {base : Nat} (hlo : 2 ≤ base) (hhi : base ≤ 16) (k : Nat) {n : Nat}
    (hn : n < base ^ k) (buf : List Byte) {room : Nat} (hk : k ≤ room) :
    ∃ l, pushDigits base n buf room = some (buf ++ l) ∧ l.length ≤ k := by
  have hlen : (lowDigits base n).length ≤ k := lowDigits_length_le (by omega) hn
  exact ⟨lowDigits base n, pushDigits_eq hlo hhi n buf (Nat.le_trans hlen hk), hlen⟩

theorem printBuffer_some {room : Nat} {buf : List Byte} (h : buf.length < room) (ps : PStream)
    (props : StrProps) : ∃ ps', printBuffer room ps buf props = some ps' := by
  have hlen : (swapLoop buf (buf.length / 2)).length < room := by
    rw [swapLoop_reverse, List.length_reverse]
    exact h
  simp only [printBuffer, push_some hlen, Option.map_some]
  exact ⟨_, rfl⟩

theorem printInt_some (ps : PStream) {n : Int} (hlo : -2 ^ 63 < n) (hhi : n < 2 ^ 63)
    (props : StrProps) : ∃ ps', printInt ps n 10 props = some ps' :=
  ⟨_, printInt_text hlo hhi ps props⟩

theorem printUnsigned_some (ps : PStream) (n : Word) {base : Int} (hbase : base = 10 ∨ base = 16)
    (props : StrProps) : ∃ ps', printUnsigned ps n base props = some ps' := by
  have hn := n.isLt
  obtain ⟨l, hl, hlen⟩ : ∃ l, pushDigits base n.toNat [] 27 = some l ∧ l.length ≤ 20 := by
    rcases hbase with rfl | rfl
    · exact pushDigits_fits (show 2 ≤ 10 by decide) (by decide) 20
        (show n.toNat < 10 ^ 20 by omega) [] (show 20 ≤ 27 by decide)
    · obtain ⟨l, hl, hlen⟩ := pushDigits_fits (show 2 ≤ 16 by decide) (by decide) 16
        (show n.toNat < 16 ^ 16 by omega) [] (show 16 ≤ 27 by decide)
      exact ⟨l, hl, by omega⟩
  unfold printUnsigned
  rw [hl, Option.bind_some]
  have hroom : l.length < 27 := by omega
  split
  · rw [push_some hroom, Option.bind_some]
    exact printBuffer_some (by rw [List.length_append, List.length_singleton]; omega) ps props
  · split
    · split
      · exact printBuffer_some hroom _ _
      · have h1 : (l ++ [0x78]).length < 27 := by rw [List.length_append, List.length_singleton]; omega
        have h2 : (l ++ [0x78] ++ [0x30]).length < 27 := by
          rw [List.length_append, List.length_append, List.length_singleton]
          show l.length + 1 + 1 < 27
          omega
        rw [push_some hroom, Option.bind_some, push_some h1, Option.bind_some]
        exact printBuffer_some h2 ps props
    · exact printBuffer_some hroom ps props

theorem signedArg_range {nlong : Nat} {w : Word} (h : 0 < nlong → -2 ^ 63 < w.toInt) :
    -2 ^ 63 < signedArg nlong w ∧ signedArg nlong w < 2 ^ 63 := by
  unfold signedArg
  split
  · have h1 := BitVec.le_toInt (w.setWidth 32)
    have h2 := BitVec.toInt_lt (x := w.setWidth 32)
    constructor <;> omega
  · next hne =>
    have h2 := BitVec.toInt_lt (x := w)
    exact ⟨h (Nat.pos_of_ne_zero hne), h2⟩

/-! ### The walk over the format -/

theorem wants_number {f : Byte} (h : directive f = .zero ∨ directive f = .number) (nlong : Nat)
    (rest : List Byte) : wants (some nlong) (f :: rest) = wants (some nlong) rest := by
  rcases h with h | h <;> simp only [wants, h]

theorem directive_number_iff (f : Byte) : directive f = .number ↔ f ≠ 0x30 ∧ (isDigit f = true ∨ f = 0x2d) := by
  have hall : ∀ f : Byte, directive f = .number ↔ f ≠ 0x30 ∧ (isDigit f = true ∨ f = 0x2d) := by decide
  exact hall f

theorem directive_digit {f : Byte} (h : isDigit f = true) :
    directive f = .zero ∨ directive f = .number := by
  by_cases h0 : f = 0x30
  · subst h0
    exact .inl rfl
  · exact .inr ((directive_number_iff f).mpr ⟨h0, .inl h⟩)

/-- A place further on from which the format wants the same. -/
structure Skips (fmt : CString) (rest : List Byte) (pos' : Nat) (rest' : List Byte) : Prop where
  here : Here fmt pos' rest'
  le : rest'.length ≤ rest.length
  wants : ∀ nlong, wants (some nlong) rest = wants (some nlong) rest'

theorem Skips.none {fmt : CString} {rest : List Byte} {pos : Nat} (h : Here fmt pos rest) :
    Skips fmt rest pos rest := ⟨h, Nat.le_refl _, fun _ => rfl⟩

theorem Skips.cons {fmt : CString} {f : Byte} {rest rest' : List Byte} {pos' : Nat}
    (hf : directive f = .zero ∨ directive f = .number) (h : Skips fmt rest pos' rest') :
    Skips fmt (f :: rest) pos' rest' :=
  ⟨h.here, Nat.le_succ_of_le h.le, fun nlong => by rw [wants_number hf, h.wants]⟩

theorem fmtDigits_some {fmt : CString} {rest : List Byte} {pos : Nat} (h : Here fmt pos rest)
    {fuel : Nat} (hfuel : rest.length < fuel) (num : Int) :
    ∃ num' pos' rest', fmtDigits fmt fuel pos num = some (num', pos') ∧ Skips fmt rest pos' rest' := by
  induction rest generalizing pos fuel num with
  | nil =>
    obtain ⟨fuel, rfl⟩ := Nat.exists_eq_succ_of_ne_zero (Nat.ne_of_gt hfuel)
    refine ⟨num, pos, [], ?_, .none h⟩
    rw [fmtDigits, h.nul]
    rfl
  | cons f rest ih =>
    obtain ⟨fuel, rfl⟩ := Nat.exists_eq_succ_of_ne_zero
      (Nat.ne_of_gt (Nat.lt_of_le_of_lt (Nat.zero_le _) hfuel))
    obtain ⟨hread, _, hnext⟩ := h.read
    rw [fmtDigits, hread, Option.bind_some]
    by_cases hd : isDigit f = true
    · obtain ⟨num', pos', rest', hloop, hskip⟩ :=
        ih hnext (Nat.lt_of_succ_lt_succ hfuel) (wrap32 (num * 10 + (f.toNat - 0x30)))
      rw [if_pos hd]
      exact ⟨num', pos', rest', hloop, hskip.cons (directive_digit hd)⟩
    · rw [if_neg hd]
      exact ⟨num, pos, f :: rest, rfl, .none h⟩

/-- A number is not empty where one begins. -/
theorem fmtnum_moves {fmt : CString} {f : Byte} {rest : List Byte} {pos : Nat}
    (h : Here fmt pos (f :: rest)) (hf : isDigit f = true ∨ f = 0x2d) :
    ∃ num pos' rest', fmtnum fmt pos = some (num, pos') ∧ Skips fmt rest pos' rest' := by
  have hlen := h.length_le
  obtain ⟨hread, _, hnext⟩ := h.read
  rw [fmtnum, hread, Option.bind_some]
  by_cases hminus : f = 0x2d
  · obtain ⟨num, pos', rest', hloop, hskip⟩ :=
      fmtDigits_some hnext (show rest.length < fmt.length + 1 from Nat.lt_succ_of_lt hlen) 0
    refine ⟨wrap32 (-num), pos', rest', ?_, hskip⟩
    rw [if_pos hminus, hloop]
    rfl
  · have hdigit : isDigit f = true := hf.resolve_right hminus
    obtain ⟨num, pos', rest', hloop, hskip⟩ :=
      fmtDigits_some hnext (show rest.length < fmt.length from hlen) (wrap32 (0 * 10 + (f.toNat - 0x30)))
    refine ⟨num, pos', rest', ?_, hskip⟩
    rw [if_neg hminus, fmtDigits, hread, Option.bind_some, if_pos hdigit]
    exact hloop

/-- Anywhere, a number that may be empty. -/
theorem fmtnum_some {fmt : CString} {rest : List Byte} {pos : Nat} (h : Here fmt pos rest) :
    ∃ num pos' rest', fmtnum fmt pos = some (num, pos') ∧ Skips fmt rest pos' rest' := by
  cases rest with
  | nil =>
    refine ⟨0, pos, [], ?_, .none h⟩
    rw [fmtnum, h.nul, Option.bind_some, if_neg (by decide), fmtDigits, h.nul]
    rfl
  | cons f rest =>
    by_cases hf : isDigit f = true ∨ f = 0x2d
    · obtain ⟨num, pos', rest', hnum, hskip⟩ := fmtnum_moves h hf
      have hdirective : directive f = .zero ∨ directive f = .number := by
        rcases hf with hdigit | rfl
        · exact directive_digit hdigit
        · exact .inr rfl
      exact ⟨num, pos', rest', hnum, hskip.cons hdirective⟩
    · obtain ⟨hdigit, hminus⟩ := not_or.mp hf
      obtain ⟨hread, _, _⟩ := h.read
      refine ⟨0, pos, f :: rest, ?_, .none h⟩
      rw [fmtnum, hread, Option.bind_some, if_neg hminus, fmtDigits, hread, Option.bind_some,
        if_neg hdigit]

/-- The steps the loop takes at most, with `rest` before it. -/
def fuelFor (rest : List Byte) : Mode → Nat
  | .plain => 2 * rest.length + 1
  | .more _ _ => 2 * rest.length + 2

/-- Whether a place is inside a conversion, and after how many `l`s. -/
def Mode.inside : Mode → Option Nat
  | .plain => none
  | .more nlong _ => some nlong

/-- The scan ends at the NUL, having read no further, and has found what the format
wants. -/
theorem scanLoop_wants {fmt : CString} (fuel : Nat) (mode : Mode) {pos : Nat} {rest : List Byte}
    (h : Here fmt pos rest) (hfuel : fuelFor rest mode ≤ fuel) :
    ∃ acts, scanLoop fmt fuel mode pos = some acts ∧
      acts.filterMap Action.conversion = wants mode.inside rest := by
  induction fuel generalizing mode pos rest with
  | zero => cases mode <;> exact absurd hfuel (Nat.not_succ_le_zero _)
  | succ fuel ih =>
    cases mode with
    | plain =>
      rw [scanLoop]
      cases rest with
      | nil =>
        rw [h.nul, Option.bind_some, if_pos rfl]
        exact ⟨[], rfl, rfl⟩
      | cons f rest =>
        obtain ⟨hread, hne, hnext⟩ := h.read
        have hroom : 2 * rest.length + 2 ≤ fuel := by
          simp only [fuelFor, List.length_cons] at hfuel
          omega
        rw [hread, Option.bind_some, if_neg hne, Mode.inside, wants]
        by_cases hpercent : f = 0x25
        · rw [if_neg (fun hneq => hneq hpercent), if_pos hpercent]
          exact ih (.more 0 {}) hnext hroom
        · obtain ⟨acts, hacts, hwants⟩ := ih .plain hnext (Nat.le_of_succ_le hroom)
          rw [if_pos hpercent, if_neg hpercent, hacts]
          exact ⟨.put f :: acts, rfl, hwants⟩
    | more nlong props =>
      rw [scanLoop]
      cases rest with
      | nil =>
        rw [h.nul, Option.bind_some]
        exact ih .plain h (Nat.le_of_succ_le_succ hfuel)
      | cons f rest =>
        obtain ⟨hread, hne, hnext⟩ := h.read
        have hmore : 2 * rest.length + 3 ≤ fuel := by
          simp only [fuelFor, List.length_cons] at hfuel
          omega
        obtain ⟨acts, hacts, hplain⟩ := ih .plain hnext (by simp only [fuelFor]; omega)
        have hwants : wants (Mode.more nlong props).inside (f :: rest) =
          wants (some nlong) (f :: rest) := rfl
        rw [hread, Option.bind_some, hwants]
        cases hf : directive f with
        | percent | other =>
          simp only [wants, hf, hacts]
          exact ⟨_, rfl, hplain⟩
        | nul =>
          have hall : ∀ f : Byte, directive f = .nul → f = 0 := by decide
          exact absurd (hall f hf) hne
        | hash =>
          simp only [wants, hf]
          exact ih (.more nlong _) hnext (by simp only [fuelFor]; omega)
        | long =>
          simp only [wants, hf]
          exact ih (.more (nlong + 1) props) hnext (by simp only [fuelFor]; omega)
        | zero =>
          obtain ⟨npad, pos', rest', hnum, hskip⟩ := fmtnum_some hnext
          have hle := hskip.le
          simp only [wants_number (.inl hf), hskip.wants, hnum, Option.bind_some]
          exact ih (.more nlong _) hskip.here (by simp only [fuelFor]; omega)
        | number =>
          obtain ⟨npad, pos', rest', hnum, hskip⟩ := fmtnum_moves h ((directive_number_iff f).mp hf).2
          have hle := hskip.le
          simp only [wants_number (.inr hf), hskip.wants, hnum, Option.bind_some]
          exact ih (.more nlong _) hskip.here (by simp only [fuelFor]; omega)
        | char | decimal | unsigned | hex | pointer | string =>
          simp only [wants, hf, hacts, Option.map_some]
          exact ⟨_, rfl, congrArg (List.cons _) hplain⟩

/-! ### The arguments it takes -/

/-- A printer accepts an argument that fits its conversion. -/
theorem print_some {p : Printer} {a : Arg} (h : Fits p.conversion a) (s : PStream) :
    ∃ s', p.print a s = some s' := by
  cases p with
  | char => exact ⟨_, rfl⟩
  | decimal nlong props =>
    cases a with
    | string p str => cases h
    | word w =>
      obtain ⟨hlo, hhi⟩ := signedArg_range h
      exact printInt_some s hlo hhi props
  | unsigned nlong props => exact printUnsigned_some s _ (.inl rfl) props
  | hex nlong props => exact printUnsigned_some s _ (.inr rfl) props
  | pointer props => exact printUnsigned_some s _ (.inr rfl) _
  | string props =>
    cases a with
    | word w => cases h
    | string p str => exact ⟨_, rfl⟩

/-- Matching arguments see all actions through. -/
theorem performed_some (acts : List Action) {va : List Arg}
    (h : Matches (acts.filterMap Action.conversion) va) (s : PStream) :
    ∃ s', performed acts va s = some s' := by
  induction acts generalizing va s with
  | nil => exact ⟨s, rfl⟩
  | cons act acts ih =>
    cases act with
    | put c =>
      rw [performed_put]
      exact ih h (addchar s c)
    | print p =>
      obtain ⟨a, va', rfl, hfits, hva'⟩ := matches_cons h
      obtain ⟨s', hs'⟩ := print_some hfits s
      rw [performed_print, vaArg, hs', Option.bind_some]
      exact ih hva' s'

/-- Actions fetch one argument for each conversion, in order, as the type it names. -/
theorem perform_fetched (acts : List Action) {va : List Arg} {s : PStream} {r : Performed}
    (h : perform acts va s = some r) :
    r.fetched.map Prod.fst = (acts.filterMap Action.conversion).map Conversion.vaType ∧
      va = r.fetched.map Prod.snd ++ r.left := by
  induction acts generalizing va s r with
  | nil =>
    cases h
    exact ⟨rfl, rfl⟩
  | cons act acts ih =>
    cases act with
    | put c => exact ih h
    | print p =>
      cases va with
      | nil => cases h
      | cons a va =>
        obtain ⟨s', _, hrest⟩ := Option.bind_eq_some_iff.mp h
        obtain ⟨r', hr', rfl⟩ := Option.map_eq_some_iff.mp hrest
        obtain ⟨htypes, hargs⟩ := ih hr'
        exact ⟨congrArg (List.cons _) htypes, congrArg (List.cons a) hargs⟩

/-- **The walk** ends without a fault on the arguments the format wants. -/
theorem formatLoop_some {fmt : CString} (fuel : Nat) (mode : Mode) {pos : Nat} {rest : List Byte}
    (h : Here fmt pos rest) (hfuel : fuelFor rest mode ≤ fuel) {va : List Arg}
    (hva : Matches (wants mode.inside rest) va) (s : PStream) :
    ∃ s', formatLoop fmt fuel mode pos va s = some s' := by
  obtain ⟨acts, hacts, hwants⟩ := scanLoop_wants fuel mode h hfuel
  rw [formatLoop_scan, hacts, Option.bind_some]
  exact performed_some acts (by rw [hwants]; exact hva) s

/-- **The scan of a format.** It ends, having read no byte after the NUL; the call does
what it found and nothing else; and whatever the arguments, those fetched are the first
of them, one for each conversion the format completes, in order, as the type its `l`s
name. -/
theorem format_scan (fmt : CString) :
    ∃ acts, scanLoop fmt (2 * fmt.length + 2) .plain 0 = some acts ∧
      acts.filterMap Action.conversion = wants none fmt.bytes ∧
      ∀ (memory : Memory) (buf : Word) (size : BitVec 32) (va : List Arg),
        myVsnprintf memory buf size fmt va =
          (perform acts va ⟨buf, size - 1, 0, memory⟩).map (fun r =>
            ⟨r.stream.memory.store r.stream.buffer 0, r.stream.added⟩) ∧
        (∀ r, perform acts va ⟨buf, size - 1, 0, memory⟩ = some r →
          r.fetched.map Prod.fst = (wants none fmt.bytes).map Conversion.vaType ∧
            va = r.fetched.map Prod.snd ++ r.left) ∧
        (Matches (wants none fmt.bytes) va → ∃ r, myVsnprintf memory buf size fmt va = some r) := by
  have hfuel : fuelFor fmt.bytes .plain ≤ 2 * fmt.length + 2 := Nat.le_succ _
  obtain ⟨acts, hacts, hwants⟩ := scanLoop_wants (2 * fmt.length + 2) .plain (Here.start fmt) hfuel
  refine ⟨acts, hacts, hwants, fun memory buf size va => ⟨?_, fun r hr => ?_, fun hva => ?_⟩⟩
  · rw [myVsnprintf, formatLoop_scan, hacts, Option.bind_some, performed, Option.map_map]
    rfl
  · have hfetched := perform_fetched acts hr
    rwa [hwants] at hfetched
  · obtain ⟨s', hs'⟩ := formatLoop_some _ .plain (Here.start fmt) hfuel hva ⟨buf, size - 1, 0, memory⟩
    exact ⟨_, by rw [myVsnprintf, hs', Option.map_some]⟩

example : (wants none (CString.lit "%-5d%%%0lu%y%12").bytes).map Conversion.vaType =
    [.int, .unsignedLong] := by
  rfl

end Testos.Lib
