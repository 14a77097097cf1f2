import Testos.Lib.Walk

/-! What a call of the formatter writes.

Every emitter of the formatter is oblivious: what it adds to the stream does not
depend on the stream. So a format and its arguments have one output, and a call with
a buffer of `n` bytes stores the first `n - 1` characters of it and a NUL, nothing
else, and returns its length. `truncation` says so of any two sizes. -/
namespace Testos.Lib
open Foundation

/-! ### The emitters are oblivious -/

theorem addPads_emit (p : PStream) (pad : Byte) (n : Nat) :
    addPads p pad n = emit addchar p (List.replicate n pad) := by
  induction n generalizing p with
  | zero => rfl
  | succ n ih => rw [addPads, ih, List.replicate_succ, emit_cons]

theorem addPads_if (c : Prop) [Decidable c] (p : PStream) (pad : Byte) (n : Nat) :
    (if c then addPads p pad n else p) = emit addchar p (if c then List.replicate n pad else []) := by
  split
  · exact addPads_emit p pad n
  · rfl

/-- The field `print_str` writes. -/
def field (s : CString) (props : StrProps) : List Byte :=
  let front := wrap32 (props.npad - s.length)
  let npad := if props.npad > 0 then min front 0 else props.npad
  (if props.npad > 0 then List.replicate front.toNat props.pad else []) ++ s.bytes ++
    if npad < 0 then List.replicate (-wrap32 (npad + s.length)).toNat 0x20 else []

theorem printStr_emit (p : PStream) (s : CString) (props : StrProps) :
    printStr p s props = emit addchar p (field s props) := by
  simp only [printStr, field, addPads_if, emit_append]
  rfl

/-- Without a width the field is the string. -/
theorem printStr_plain (p : PStream) (s : CString) : printStr p s {} = emit addchar p s.bytes := by
  rw [printStr_emit]
  simp [field]

theorem printBuffer_oblivious (room : Nat) (buf : List Byte) (props : StrProps) :
    Oblivious addchar fun ps => printBuffer room ps buf props := by
  simp only [printBuffer]
  cases push room (swapLoop buf (buf.length / 2)) 0 with
  | none => exact .fail
  | some closed => exact .writes _ fun ps => printStr_emit ps _ props

theorem printInt_oblivious (n base : Int) (props : StrProps) :
    Oblivious addchar fun ps => printInt ps n base props :=
  .read (fun _ => .read (fun _ => .read (fun buf => printBuffer_oblivious 26 buf props) _) _) _

theorem printUnsigned_oblivious (n : Word) (base : Int) (props : StrProps) :
    Oblivious addchar fun ps => printUnsigned ps n base props := by
  refine .read (fun buf => ?_) _
  split
  · exact .read (fun buf => printBuffer_oblivious 27 buf props) _
  · split
    · split
      · exact (printBuffer_oblivious 27 buf _).after [0x30, 0x78] fun ps => rfl
      · exact .read (fun _ => .read (fun buf => printBuffer_oblivious 27 buf props) _) _
    · exact printBuffer_oblivious 27 buf props

theorem print_oblivious (p : Printer) (a : Arg) : Oblivious addchar (p.print a) := by
  cases p with
  | char => exact .writes [a.slot.setWidth 8] fun s => rfl
  | decimal nlong props => exact printInt_oblivious _ _ _
  | unsigned nlong props | hex nlong props | pointer props => exact printUnsigned_oblivious _ _ _
  | string props =>
    cases a with
    | word w => exact .fail
    | string p str => exact .writes _ fun s => printStr_emit s str props

/-- Actions write what they and the arguments say. -/
theorem performed_oblivious (acts : List Action) (va : List Arg) :
    Oblivious addchar fun s => performed acts va s := by
  induction acts generalizing va with
  | nil => exact .stop
  | cons act acts ih =>
    cases act with
    | put c =>
      simp only [performed_put]
      exact (ih va).after [c] fun s => rfl
    | print p =>
      simp only [performed_print]
      cases va with
      | nil => exact .fail
      | cons a va => exact (print_oblivious p a).bind (ih va)

/-- **The loop** writes what its place in the format and its arguments say. -/
theorem formatLoop_oblivious (fmt : CString) (fuel : Nat) (mode : Mode) (pos : Nat) (va : List Arg) :
    Oblivious addchar fun s => formatLoop fmt fuel mode pos va s := by
  simp only [formatLoop_scan]
  exact .read (fun acts => performed_oblivious acts va) _

/-! ### Truncation -/

/-- What a call into `size` bytes at `buf` leaves of the output `out`. -/
structure Truncated (buf : Word) (size : Nat) (out : List Byte) (before : Memory) (r : Formatted) :
    Prop where
  count : r.count = BitVec.ofNat 32 out.length
  chars : ∀ i (h : i < out.length), i < size - 1 → r.memory (buf + BitVec.ofNat 64 i) = out[i]
  nul : r.memory (buf + BitVec.ofNat 64 (min out.length (size - 1))) = 0
  frame : ∀ x, ¬ Within buf size x → r.memory x = before x

/-- A count that is an `int`. -/
theorem toInt_count {n : Nat} (h : n < 2 ^ 31) : (BitVec.ofNat 32 n).toInt = n := by
  have hnat : (BitVec.ofNat 32 n).toNat = n := by
    rw [BitVec.toNat_ofNat, Nat.mod_eq_of_lt (by omega)]
  rw [BitVec.toInt_eq_toNat_of_lt (by omega), hnat]

/-- Closing the stream. -/
theorem written_truncated {buf : Word} {size : Nat} (hlo : 1 ≤ size) (hhi : size < 2 ^ 31)
    {out : List Byte} {before : Memory} {s : PStream}
    (h : Written ⟨buf, BitVec.ofNat 32 size - 1, 0, before⟩ (size - 1) out s) :
    Truncated buf size out before ⟨s.memory.store s.buffer 0, s.added⟩ := by
  obtain ⟨hbuffer, _, hadded, hchars, hframe⟩ := h
  have hat : s.buffer = buf + BitVec.ofNat 64 (min out.length (size - 1)) := hbuffer
  refine ⟨hadded.trans (BitVec.zero_add _), ?_, ?_, ?_⟩
  · intro i hi his
    show s.memory.store s.buffer 0 _ = _
    rw [hat, Memory.store_other _ _ (cell_ne (by omega) (by omega) (by omega))]
    exact hchars i hi his
  · show s.memory.store s.buffer 0 _ = 0
    rw [hat]
    exact Memory.store_same _ _ _
  · intro x hx
    show s.memory.store s.buffer 0 x = before x
    have hne : x ≠ s.buffer := by
      intro heq
      subst heq
      rw [hat] at hx
      exact hx (within_offset (by omega) (by omega))
    have hout : ¬ Within buf (size - 1) x := fun hw => hx (Nat.lt_of_lt_of_le hw (Nat.sub_le size 1))
    rw [Memory.store_other _ _ hne]
    exact hframe x hout

/-- What the buffer holds, read as a string. -/
theorem Truncated.cstringAt {buf : Word} {size : Nat} (hhi : size < 2 ^ 31) {out : List Byte}
    {before : Memory} {r : Formatted} (h : Truncated buf size out before r) :
    (Testos.cstringAt r.memory buf).bytes = (out.take (size - 1)).takeWhile (· ≠ 0) := by
  have hlength : (out.take (size - 1)).length = min out.length (size - 1) := by
    rw [List.length_take, Nat.min_comm]
  have htext : Text buf (out.take (size - 1)) r.memory := by
    refine ⟨fun i hi => ?_, by rw [hlength]; exact h.nul⟩
    rw [List.getElem_take]
    exact h.chars i (by omega) (by omega)
  exact bytesBefore_text htext (by omega)

/-- A call into `size` bytes truncates what the loop would write. -/
theorem myVsnprintf_truncated {fmt : CString} {va : List Arg} {out : List Byte}
    (hloop : ∀ s, formatLoop fmt (2 * fmt.length + 2) .plain 0 va s = some (emit addchar s out))
    (before : Memory) (buf : Word) (size : Nat) (hlo : 1 ≤ size) (hhi : size < 2 ^ 31) :
    ∃ r, myVsnprintf before buf (BitVec.ofNat 32 size) fmt va = some r ∧ Truncated buf size out before r := by
  refine ⟨_, by rw [myVsnprintf, hloop]; rfl, ?_⟩
  apply written_truncated hlo hhi
  have hremain : (BitVec.ofNat 32 size - 1).toNat = size - 1 := by
    have hone : (1 : BitVec 32).toNat = 1 := rfl
    have hsize : (BitVec.ofNat 32 size).toNat = size := by
      rw [BitVec.toNat_ofNat, Nat.mod_eq_of_lt (by omega)]
    rw [BitVec.toNat_sub_of_le (show (1 : BitVec 32).toNat ≤ (BitVec.ofNat 32 size).toNat by omega),
      hsize, hone]
  have hwritten := emit_written ⟨buf, BitVec.ofNat 32 size - 1, 0, before⟩ out
  rw [hremain] at hwritten
  exact hwritten

/-- A format and its arguments have one output. -/
theorem formatLoop_matches {fmt : CString} {va : List Arg} (h : Matches (wants none fmt.bytes) va) :
    ∃ out, ∀ s, formatLoop fmt (2 * fmt.length + 2) .plain 0 va s = some (emit addchar s out) := by
  obtain ⟨o, ho⟩ : ∃ o : Option (List Byte), ∀ s,
      formatLoop fmt (2 * fmt.length + 2) .plain 0 va s = o.map (emit addchar s) :=
    formatLoop_oblivious fmt (2 * fmt.length + 2) .plain 0 va
  have hfuel : fuelFor fmt.bytes .plain ≤ 2 * fmt.length + 2 := Nat.le_succ _
  have hsome := formatLoop_some _ .plain (Here.start fmt) hfuel h
  cases o with
  | none =>
    obtain ⟨s', hs'⟩ := hsome ⟨0, 0, 0, fun _ => 0⟩
    rw [ho] at hs'
    cases hs'
  | some out => exact ⟨out, ho⟩

/-- Every call truncates it. -/
theorem myVsnprintf_output (fmt : CString) (va : List Arg) (h : Matches (wants none fmt.bytes) va) :
    ∃ out, ∀ (before : Memory) (buf : Word) (size : Nat), 1 ≤ size → size < 2 ^ 31 →
      ∃ r, myVsnprintf before buf (BitVec.ofNat 32 size) fmt va = some r ∧
        Truncated buf size out before r := by
  obtain ⟨out, hloop⟩ := formatLoop_matches h
  exact ⟨out, fun before buf size hlo hhi => myVsnprintf_truncated hloop before buf size hlo hhi⟩

/-- **The truncation law.** A format with matching arguments has one output `out`. Calls
with any sizes `n ≤ m` return its length, as an `int`; the call with `n` stores into its
`n` bytes only, ends its text with a NUL at `min out.length (n - 1)`, and before that
has the characters the call with `m` has. -/
theorem truncation (fmt : CString) (va : List Arg) (h : Matches (wants none fmt.bytes) va) :
    ∃ out : List Byte, ∀ (before before' : Memory) (buf buf' : Word) (n m : Nat),
      1 ≤ n → n ≤ m → m < 2 ^ 31 →
        ∃ r r', myVsnprintf before buf (BitVec.ofNat 32 n) fmt va = some r ∧
          myVsnprintf before' buf' (BitVec.ofNat 32 m) fmt va = some r' ∧
          r.count = r'.count ∧
          (out.length < 2 ^ 31 → r.count.toInt = out.length) ∧
          (∀ x, ¬ Within buf n x → r.memory x = before x) ∧
          r.memory (buf + BitVec.ofNat 64 (min out.length (n - 1))) = 0 ∧
          (∀ i (h : i < out.length), i < n - 1 →
            r.memory (buf + BitVec.ofNat 64 i) = r'.memory (buf' + BitVec.ofNat 64 i) ∧
            r.memory (buf + BitVec.ofNat 64 i) = out[i]) := by
  obtain ⟨out, hout⟩ := myVsnprintf_output fmt va h
  refine ⟨out, fun before before' buf buf' n m hn hnm hm => ?_⟩
  obtain ⟨r, hr, hcount, hchars, hnul, hframe⟩ := hout before buf n hn (by omega)
  obtain ⟨r', hr', hcount', hchars', _, _⟩ := hout before' buf' m (by omega) hm
  refine ⟨r, r', hr, hr', hcount.trans hcount'.symm, ?_, hframe, hnul, fun i hi hin => ⟨?_, hchars i hi hin⟩⟩
  · intro hlen
    rw [hcount, toInt_count hlen]
  · rw [hchars i hi hin, hchars' i hi (by omega)]

/-- `Cause: 0x%llx (%-5d) in %s` and its arguments. -/
def causeLine : CString := .lit "Cause: 0x%llx (%-5d) in %s\n"

def causeArgs : List Arg := [.word 0x8000000000000005, .word 7, .string 0x80800000 (.lit "user_prog")]

theorem truncation_cause : ∃ (out : List Byte) (r r' : Formatted),
    myVsnprintf (fun _ => 0xff) 0x80300000 8 causeLine causeArgs = some r ∧
      myVsnprintf (fun _ => 0xff) 0x80300000 512 causeLine causeArgs = some r' ∧
      r.count = r'.count ∧ r.memory (0x80300000 + BitVec.ofNat 64 (min out.length 7)) = 0 := by
  obtain ⟨out, hout⟩ := truncation causeLine causeArgs ⟨trivial, fun h => absurd h (by decide), trivial, trivial⟩
  obtain ⟨r, r', hr, hr', hcount, _, _, hnul, _⟩ := hout (fun _ => 0xff) (fun _ => 0xff) 0x80300000
    0x80300000 8 512 (by decide) (by decide) (by decide)
  exact ⟨out, r, r', hr, hr', hcount, hnul⟩

end Testos.Lib
