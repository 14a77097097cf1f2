import Testos.Foundation.LineEditor
import Testos.Dev.Uart

/-! The line readers, `dw_uart_gets` and `generic_uart_gets`.

Each is a loop over the write index `i` that reads a byte a pass; the two bodies test
the special bytes in different orders and leave in different ways. `one_editor`: on
every stream on which the line ends, both do what the line editor does, down to the
last byte of memory, and differ at most in what they echo. -/
namespace Testos.Dev
open Foundation

/-! ### The loops -/

/-- The write index and the memory the buffer is in. -/
structure Line where
  i : Word
  memory : Memory

/-- `buffer[i] = c`. -/
def Line.put (buffer : Word) (l : Line) (c : Byte) : Line :=
  { l with memory := l.memory.store (buffer + l.i) c }

/-- The locals of a reader, with what it has echoed. -/
structure Reader extends Line where
  sent : List Byte

def Reader.put (buffer : Word) (r : Reader) (c : Byte) : Reader :=
  { r with toLine := r.toLine.put buffer c }

def Reader.echo (r : Reader) (bytes : List Byte) : Reader := { r with sent := r.sent ++ bytes }

/-- How a pass of a loop ends. -/
inductive Outcome where
  | next (r : Reader)
  | breaks (r : Reader)
  | returns (r : Reader)

/-- The body of the loop of `dw_uart_gets`, at the character it got. -/
def dwUartGetsPass (buffer : Word) (r : Reader) (c : Byte) : Outcome :=
  if c = 0x08 ∨ c = 0x7f then
    if r.i > 0 then .next { r.echo (dwUartPuts (.lit "\x08 \x08")) with i := r.i - 1 }
    else .next r
  else
    let r := r.echo (dwUartPutchar c)
    if c = 0x0d ∨ c = 0x0a then .returns ((r.put buffer 0).echo (dwUartPutchar 0x0a))
    else .next { r.put buffer c with i := r.i + 1 }

/-- The body of the loop of `generic_uart_gets`. -/
def genericUartGetsPass (t : UartType) (buffer : Word) (r : Reader) (c : Byte) : Outcome :=
  if c = 0x0d ∨ c = 0x0a then .breaks (r.echo (uartPutchar t 0x0d ++ uartPutchar t 0x0a))
  else if c = 0x08 ∨ c = 0x7f then
    if r.i > 0 then
      .next { r.echo (uartPutchar t 0x08 ++ uartPutchar t 0x20 ++ uartPutchar t 0x08) with i := r.i - 1 }
    else .next r
  else
    let r := r.echo (uartPutchar t c)
    .next { r.put buffer c with i := r.i + 1 }

/-- `while (i < buffer_size - 1)` around a body that gets a byte first; `none` is a
reader still waiting when the stream is over. -/
def getsLoop (pass : Reader → Byte → Outcome) (bufferSize : Word) (r : Reader) :
    List Byte → Option (Outcome × List Byte)
  | [] => if r.i < bufferSize - 1 then none else some (.breaks r, [])
  | c :: rest =>
    if r.i < bufferSize - 1 then
      match pass r c with
      | .next r' => getsLoop pass bufferSize r' rest
      | out => some (out, rest)
    else some (.breaks r, c :: rest)

/-- The reader at the head of every pass of the loop. -/
def heads (pass : Reader → Byte → Outcome) (bufferSize : Word) (r : Reader) :
    List Byte → List Reader
  | [] => [r]
  | c :: rest =>
    if r.i < bufferSize - 1 then
      match pass r c with
      | .next r' => r :: heads pass bufferSize r' rest
      | _ => [r]
    else [r]

/-- After the loop, `buffer[i] = '\0'`. -/
def Outcome.finish (buffer : Word) : Outcome → Reader
  | .returns r => r
  | .next r | .breaks r => r.put buffer 0

/-- What a call returns, does and leaves. -/
structure Reading where
  count : Int
  memory : Memory
  sent : List Byte
  rest : List Byte

/-- `i` as the `int` that is returned. -/
def Reader.reading (r : Reader) (rest : List Byte) : Reading :=
  ⟨(r.i.setWidth 32).toInt, r.memory, r.sent, rest⟩

def gets (pass : Reader → Byte → Outcome) (buffer bufferSize : Word) (memory : Memory)
    (input : List Byte) : Option Reading :=
  (getsLoop pass bufferSize ⟨⟨0, memory⟩, []⟩ input).map fun out =>
    (out.1.finish buffer).reading out.2

/-- `dw_uart_gets`. -/
def dwUartGets (buffer : Word) := gets (dwUartGetsPass buffer) buffer

/-- `generic_uart_gets`. -/
def genericUartGets (t : UartType) (buffer : Word) := gets (genericUartGetsPass t buffer) buffer

/-- `uart_gets`. -/
def uartGets (t : UartType) (buffer bufferSize : Word) (memory : Memory) (input : List Byte) :
    Option Reading :=
  match t with
  | .dw => dwUartGets buffer bufferSize memory input
  | .pl011 => genericUartGets .pl011 buffer bufferSize memory input

/-! ### The echo aside

Without their echo the two bodies are one: an index and a memory, and whether the
line is over. -/

/-- The terminal's editing keys: BS and DEL erase, CR and LF end. -/
def keys : Keys Byte where
  erases c := c = 0x08 || c = 0x7f
  ends c := c = 0x0d || c = 0x0a
  apart c h := by
    have hc : c = 0x08 ∨ c = 0x7f := by simpa using h
    rcases hc with rfl | rfl <;> rfl

theorem keys_erases {c : Byte} : keys.erases c = true ↔ c = 0x08 ∨ c = 0x7f := by simp [keys]

theorem keys_ends {c : Byte} : keys.ends c = true ↔ c = 0x0d ∨ c = 0x0a := by simp [keys]

def editLine (buffer : Word) (l : Line) (c : Byte) : Line × Bool :=
  if keys.ends c then (l.put buffer 0, true)
  else if keys.erases c then (if l.i > 0 then { l with i := l.i - 1 } else l, false)
  else ({ l.put buffer c with i := l.i + 1 }, false)

/-- The line an outcome leaves, and whether it is over. -/
def Outcome.line (buffer : Word) : Outcome → Line × Bool
  | .next r => (r.toLine, false)
  | .breaks r => ((r.put buffer 0).toLine, true)
  | .returns r => (r.toLine, true)

/-- A body that edits the line, whatever it echoes. -/
def Edits (buffer : Word) (pass : Reader → Byte → Outcome) : Prop :=
  ∀ r c, (pass r c).line buffer = editLine buffer r.toLine c

theorem dwUartGetsPass_edits (buffer : Word) : Edits buffer (dwUartGetsPass buffer) := by
  intro r c
  unfold dwUartGetsPass editLine
  by_cases he : c = 0x08 ∨ c = 0x7f
  · have hn : keys.ends c = false := keys.apart c (keys_erases.mpr he)
    rw [if_pos he, hn, keys_erases.mpr he, if_neg Bool.false_ne_true, if_pos rfl]
    by_cases hi : r.i > 0
    · rw [if_pos hi, if_pos hi]
      rfl
    · rw [if_neg hi, if_neg hi]
      rfl
  · rw [if_neg he]
    by_cases hn : c = 0x0d ∨ c = 0x0a
    · rw [if_pos (keys_ends.mpr hn)]
      simp only [if_pos hn]
      rfl
    · rw [if_neg (fun h => hn (keys_ends.mp h)), if_neg (fun h => he (keys_erases.mp h))]
      simp only [if_neg hn]
      rfl

theorem genericUartGetsPass_edits (t : UartType) (buffer : Word) :
    Edits buffer (genericUartGetsPass t buffer) := by
  intro r c
  unfold genericUartGetsPass editLine
  by_cases hn : c = 0x0d ∨ c = 0x0a
  · rw [if_pos hn, if_pos (keys_ends.mpr hn)]
    rfl
  · rw [if_neg hn, if_neg (fun h => hn (keys_ends.mp h))]
    by_cases he : c = 0x08 ∨ c = 0x7f
    · rw [if_pos he, if_pos (keys_erases.mpr he)]
      by_cases hi : r.i > 0
      · rw [if_pos hi, if_pos hi]
        rfl
      · rw [if_neg hi, if_neg hi]
        rfl
    · rw [if_neg he, if_neg (fun h => he (keys_erases.mp h))]
      rfl

/-- The loop without the echo. -/
def lineLoop (buffer bufferSize : Word) (l : Line) : List Byte → Option (Line × List Byte)
  | [] => if l.i < bufferSize - 1 then none else some (l.put buffer 0, [])
  | c :: rest =>
    if l.i < bufferSize - 1 then
      if (editLine buffer l c).2 then some ((editLine buffer l c).1, rest)
      else lineLoop buffer bufferSize (editLine buffer l c).1 rest
    else some (l.put buffer 0, c :: rest)

theorem getsLoop_line {buffer : Word} {pass : Reader → Byte → Outcome} (h : Edits buffer pass)
    (bufferSize : Word) (r : Reader) (input : List Byte) :
    (getsLoop pass bufferSize r input).map (fun out => ((out.1.finish buffer).toLine, out.2)) =
      lineLoop buffer bufferSize r.toLine input := by
  induction input generalizing r with
  | nil =>
    rw [getsLoop, lineLoop]
    split <;> rfl
  | cons c rest ih =>
    rw [getsLoop, lineLoop, ← h r c]
    split
    · cases hp : pass r c with
      | next r' => exact ih r'
      | breaks r' => rfl
      | returns r' => rfl
    · rfl

/-! ### The buffer holds the kept keys -/

/-- The line of the editor, as the buffer at `buffer` shows it. -/
structure Holds (buffer : Word) (limit : Nat) (before : Memory) (kept : List Byte) (l : Line) :
    Prop where
  index : l.i.toNat = kept.length
  room : kept.length ≤ limit
  bytes : ∀ j (h : j < kept.length), l.memory (buffer + BitVec.ofNat 64 j) = kept[j]
  frame : ∀ x, ¬ Within buffer (limit + 1) x → l.memory x = before x

section
variable {buffer : Word} {limit : Nat} {before : Memory} {kept : List Byte} {l : Line}

theorem Holds.cell (h : Holds buffer limit before kept l) :
    buffer + l.i = buffer + BitVec.ofNat 64 kept.length := by
  rw [← h.index, BitVec.ofNat_toNat, BitVec.setWidth_eq]

/-- A store at the index leaves the kept bytes and the outside alone. -/
theorem Holds.put (h : Holds buffer limit before kept l) (hl : limit < 2 ^ 64) (c : Byte) :
    Holds buffer limit before kept (l.put buffer c) ∧
      (l.put buffer c).memory (buffer + BitVec.ofNat 64 kept.length) = c := by
  have hroom := h.room
  refine ⟨⟨h.index, hroom, ?_, ?_⟩, ?_⟩
  · intro j hj
    show l.memory.store (buffer + l.i) c _ = _
    rw [h.cell, Memory.store_other _ _ (cell_ne (by omega) (by omega) (by omega))]
    exact h.bytes j hj
  · intro x hx
    show l.memory.store (buffer + l.i) c x = before x
    have hne : x ≠ buffer + l.i := by
      intro heq
      subst heq
      rw [h.cell] at hx
      exact hx (within_offset (by omega) (by omega))
    rw [Memory.store_other _ _ hne]
    exact h.frame x hx
  · show l.memory.store (buffer + l.i) c _ = c
    rw [h.cell]
    exact Memory.store_same _ _ _

/-- A character goes after the kept ones. -/
theorem Holds.append (h : Holds buffer limit before kept l) (hl : limit < 2 ^ 64)
    (hroom : kept.length < limit) (c : Byte) :
    Holds buffer limit before (kept ++ [c]) { l.put buffer c with i := l.i + 1 } := by
  obtain ⟨hput, hnew⟩ := h.put hl c
  have hindex := h.index
  refine ⟨?_, by simp; omega, ?_, hput.frame⟩
  · show (l.i + 1).toNat = (kept ++ [c]).length
    rw [BitVec.toNat_add, List.length_append, hindex]
    exact Nat.mod_eq_of_lt (show kept.length + 1 < 2 ^ 64 by omega)
  · intro j hj
    rw [List.length_append, List.length_singleton] at hj
    by_cases hlt : j < kept.length
    · rw [List.getElem_append_left hlt]
      exact hput.bytes j hlt
    · obtain rfl : j = kept.length := by omega
      simpa using hnew

/-- Erasing only moves the index. -/
theorem Holds.erase (h : Holds buffer limit before kept l) :
    Holds buffer limit before kept.dropLast (if l.i > 0 then { l with i := l.i - 1 } else l) := by
  obtain ⟨hindex, hroom, hbytes, hframe⟩ := h
  by_cases hi : l.i > 0
  · have hpos : 0 < l.i.toNat := hi
    have hone : (1 : Word).toNat = 1 := rfl
    rw [if_pos hi]
    refine ⟨?_, by simp; omega, ?_, hframe⟩
    · show (l.i - 1).toNat = _
      rw [BitVec.toNat_sub_of_le (show (1 : Word).toNat ≤ l.i.toNat from hpos), hindex, hone,
        List.length_dropLast]
    · intro j hj
      rw [List.getElem_dropLast]
      exact hbytes j _
  · have hzero : ¬ 0 < l.i.toNat := hi
    obtain rfl : kept = [] := List.length_eq_zero_iff.mp (by omega)
    rw [if_neg hi]
    exact ⟨hindex, hroom, hbytes, hframe⟩

/-- **One key** does to the buffer what it does to the kept keys. -/
theorem editLine_holds (h : Holds buffer limit before kept l) (hl : limit < 2 ^ 64)
    (hroom : kept.length < limit) {c : Byte} (hc : keys.ends c = false) :
    (editLine buffer l c).2 = false ∧
      Holds buffer limit before (edit keys kept c) (editLine buffer l c).1 := by
  unfold editLine edit
  rw [hc, if_neg Bool.false_ne_true]
  cases he : keys.erases c with
  | true =>
    rw [if_pos rfl, if_pos rfl]
    exact ⟨rfl, h.erase⟩
  | false =>
    rw [if_neg Bool.false_ne_true, if_neg Bool.false_ne_true, if_neg Bool.false_ne_true]
    exact ⟨rfl, h.append hl hroom c⟩

/-- The loop reads the line the editor reads, and closes it; it waits where the editor
does. -/
theorem lineLoop_refines {bufferSize : Word} (hsize : (bufferSize - 1).toNat = limit)
    (hl : limit < 2 ^ 64) (h : Holds buffer limit before kept l) (input : List Byte) :
    Option.Rel
      (fun out line => out.2 = line.2 ∧ Holds buffer limit before line.1 out.1 ∧
        out.1.memory (buffer + BitVec.ofNat 64 line.1.length) = 0)
      (lineLoop buffer bufferSize l input) (readLine keys limit kept input) := by
  have hguard : l.i < bufferSize - 1 ↔ kept.length < limit := by
    rw [BitVec.lt_def, h.index, hsize]
  induction input generalizing l kept with
  | nil =>
    rw [readLine, lineLoop]
    by_cases hroom : kept.length < limit
    · rw [if_pos hroom, if_pos (hguard.mpr hroom)]
      exact .none
    · rw [if_neg hroom, if_neg (fun hlt => hroom (hguard.mp hlt))]
      exact .some ⟨rfl, h.put hl 0⟩
  | cons c input ih =>
    rw [readLine, lineLoop]
    by_cases hroom : kept.length < limit
    · rw [if_pos hroom, if_pos (hguard.mpr hroom)]
      cases hc : keys.ends c with
      | true =>
        have hend : editLine buffer l c = (l.put buffer 0, true) := if_pos hc
        rw [hend, if_pos rfl, if_pos rfl]
        exact .some ⟨rfl, h.put hl 0⟩
      | false =>
        obtain ⟨hgo, hnext⟩ := editLine_holds h hl hroom hc
        rw [hgo, if_neg Bool.false_ne_true, if_neg Bool.false_ne_true]
        exact ih hnext (by rw [BitVec.lt_def, hnext.index, hsize])
    · rw [if_neg hroom, if_neg (fun hlt => hroom (hguard.mp hlt))]
      exact .some ⟨rfl, h.put hl 0⟩

end

/-! ### The write index -/

/-- A pass below the bound ends at most at the bound. -/
theorem editLine_index (buffer : Word) {l : Line} {bound : Word} (h : l.i < bound) (c : Byte) :
    (editLine buffer l c).1.i ≤ bound := by
  unfold editLine
  split
  · exact BitVec.le_of_lt h
  · split
    · split
      · show l.i - 1 ≤ bound
        bv_omega
      · exact BitVec.le_of_lt h
    · show l.i + 1 ≤ bound
      bv_omega

theorem heads_index {buffer : Word} {pass : Reader → Byte → Outcome} (h : Edits buffer pass)
    (bufferSize : Word) {r : Reader} (hr : r.i ≤ bufferSize - 1) (input : List Byte) :
    ∀ r' ∈ heads pass bufferSize r input, r'.i ≤ bufferSize - 1 := by
  induction input generalizing r with
  | nil =>
    intro r' hr'
    rw [List.mem_singleton.mp hr']
    exact hr
  | cons c rest ih =>
    intro r' hr'
    rw [heads] at hr'
    by_cases hlt : r.i < bufferSize - 1
    · rw [if_pos hlt] at hr'
      cases hp : pass r c with
      | next s =>
        rw [hp] at hr'
        have hs : s.i ≤ bufferSize - 1 := by
          have := editLine_index buffer hlt c
          rw [← h r c, hp] at this
          exact this
        rcases List.mem_cons.mp hr' with rfl | hr'
        · exact hr
        · exact ih hs r' hr'
      | breaks s | returns s =>
        rw [hp] at hr'
        rw [List.mem_singleton.mp hr']
        exact hr
    · rw [if_neg hlt] at hr'
      rw [List.mem_singleton.mp hr']
      exact hr

/-! ### The readers -/

/-- What a call that read the line `kept` returns and leaves. -/
structure Read (buffer bufferSize : Word) (before : Memory) (kept rest : List Byte) (r : Reading) :
    Prop where
  count : r.count = kept.length
  rest : r.rest = rest
  room : kept.length ≤ bufferSize.toNat - 1
  bytes : ∀ j (h : j < kept.length), r.memory (buffer + BitVec.ofNat 64 j) = kept[j]
  nul : r.memory (buffer + BitVec.ofNat 64 kept.length) = 0
  frame : ∀ x, ¬ Within buffer bufferSize.toNat x → r.memory x = before x

/-- What any call that read the line `kept` does, however long the line: the count is an
`int`. -/
structure Fills (buffer bufferSize : Word) (before : Memory) (kept rest : List Byte) (r : Reading) :
    Prop where
  count : r.count = (kept.length : Int).bmod (2 ^ 32)
  rest : r.rest = rest
  room : kept.length ≤ bufferSize.toNat - 1
  text : Text buffer kept r.memory
  frame : ∀ x, ¬ Within buffer bufferSize.toNat x → r.memory x = before x

theorem Fills.read {buffer bufferSize : Word} {before : Memory} {kept rest : List Byte} {r : Reading}
    (h : Fills buffer bufferSize before kept rest r) (hhi : bufferSize.toNat < 2 ^ 31) :
    Read buffer bufferSize before kept rest r := by
  have hroom := h.room
  exact ⟨h.count.trans (Int.bmod_eq_of_le (by omega) (by omega)), h.rest, hroom, h.text.bytes, h.text.nul,
    h.frame⟩

theorem start_holds (buffer : Word) (limit : Nat) (before : Memory) :
    Holds buffer limit before [] ⟨0, before⟩ :=
  ⟨rfl, Nat.zero_le _, fun j hj => absurd hj (Nat.not_lt_zero j), fun _ _ => rfl⟩

/-- A call reads what the editor reads, and waits where the editor does. -/
theorem gets_fills {buffer bufferSize : Word} {pass : Reader → Byte → Outcome} (hpass : Edits buffer pass)
    (hlo : 1 ≤ bufferSize.toNat) (before : Memory) (input : List Byte) :
    Option.Rel (fun r line => Fills buffer bufferSize before line.1 line.2 r)
      (gets pass buffer bufferSize before input)
      (readLine keys (bufferSize.toNat - 1) [] input) := by
  have hmax := bufferSize.isLt
  have hsize : (bufferSize - 1).toNat = bufferSize.toNat - 1 :=
    BitVec.toNat_sub_of_le (show (1 : Word).toNat ≤ bufferSize.toNat from hlo)
  have hrel := lineLoop_refines hsize (by omega) (start_holds buffer _ before) input
  have hline := getsLoop_line hpass bufferSize ⟨⟨0, before⟩, []⟩ input
  rw [← hline] at hrel
  unfold gets
  generalize getsLoop pass bufferSize ⟨⟨0, before⟩, []⟩ input = loop at hrel ⊢
  generalize readLine keys (bufferSize.toNat - 1) [] input = line at hrel ⊢
  cases loop with
  | none =>
    cases hrel
    exact .none
  | some out =>
    cases hrel with
    | some hout =>
      obtain ⟨hrest, ⟨hindex, hroom, hbytes, hframe⟩, hnul⟩ := hout
      refine .some ⟨?_, hrest, hroom, ⟨hbytes, hnul⟩, ?_⟩
      · show ((out.1.finish buffer).i.setWidth 32).toInt = _
        have hi : (out.1.finish buffer).i.toNat = _ := hindex
        rw [BitVec.toInt_eq_toNat_bmod, BitVec.toNat_setWidth, hi, Int.natCast_mod]
        exact Int.emod_bmod _ _
      · rw [show bufferSize.toNat - 1 + 1 = bufferSize.toNat by omega] at hframe
        exact hframe

/-- With a size that is an `int`, the count is the length. -/
theorem gets_refines {buffer bufferSize : Word} {pass : Reader → Byte → Outcome}
    (hpass : Edits buffer pass) (hlo : 1 ≤ bufferSize.toNat) (hhi : bufferSize.toNat < 2 ^ 31)
    (before : Memory) (input : List Byte) :
    Option.Rel (fun r line => Read buffer bufferSize before line.1 line.2 r)
      (gets pass buffer bufferSize before input)
      (readLine keys (bufferSize.toNat - 1) [] input) :=
  rel_mono (gets_fills hpass hlo before input) fun _ _ h => h.read hhi

theorem uartGets_fills (t : UartType) (buffer : Word) {bufferSize : Word} (hlo : 1 ≤ bufferSize.toNat)
    (before : Memory) (input : List Byte) :
    Option.Rel (fun r line => Fills buffer bufferSize before line.1 line.2 r)
      (uartGets t buffer bufferSize before input)
      (readLine keys (bufferSize.toNat - 1) [] input) := by
  cases t with
  | dw => exact gets_fills (dwUartGetsPass_edits buffer) hlo before input
  | pl011 => exact gets_fills (genericUartGetsPass_edits .pl011 buffer) hlo before input

/-- Either reader of the kernel. -/
theorem uartGets_refines (t : UartType) (buffer : Word) {bufferSize : Word}
    (hlo : 1 ≤ bufferSize.toNat) (hhi : bufferSize.toNat < 2 ^ 31) (before : Memory)
    (input : List Byte) :
    Option.Rel (fun r line => Read buffer bufferSize before line.1 line.2 r)
      (uartGets t buffer bufferSize before input)
      (readLine keys (bufferSize.toNat - 1) [] input) :=
  rel_mono (uartGets_fills t buffer hlo before input) fun _ _ h => h.read hhi

/-- The memory a call leaves does not depend on the reader. -/
theorem gets_memory {buffer : Word} {pass pass' : Reader → Byte → Outcome}
    (h : Edits buffer pass) (h' : Edits buffer pass') (bufferSize : Word) (before : Memory)
    (input : List Byte) :
    (gets pass buffer bufferSize before input).map Reading.memory =
      (gets pass' buffer bufferSize before input).map Reading.memory := by
  have hline := getsLoop_line h bufferSize ⟨⟨0, before⟩, []⟩ input
  have hline' := getsLoop_line h' bufferSize ⟨⟨0, before⟩, []⟩ input
  have hsame := congrArg (Option.map fun out : Line × List Byte => out.1.memory)
    (hline.trans hline'.symm)
  simp only [gets, Option.map_map] at hsame ⊢
  exact hsame

/-- **One line editor.** On a stream that begins with a line, both readers consume the
line, return how many bytes it keeps and leave one and the same memory: those bytes
and a NUL in the buffer, all else as before. Their indices stay in the buffer. -/
theorem one_editor (t : UartType) (buffer bufferSize : Word) (hlo : 1 ≤ bufferSize.toNat)
    (hhi : bufferSize.toNat < 2 ^ 31) (before : Memory) {consumed kept : List Byte}
    (hline : IsLine keys (bufferSize.toNat - 1) [] consumed kept) (rest : List Byte) :
    ∃ d g, dwUartGets buffer bufferSize before (consumed ++ rest) = some d ∧
      genericUartGets t buffer bufferSize before (consumed ++ rest) = some g ∧
      d.memory = g.memory ∧
      Read buffer bufferSize before kept rest d ∧ Read buffer bufferSize before kept rest g ∧
      (∀ r ∈ heads (dwUartGetsPass buffer) bufferSize ⟨⟨0, before⟩, []⟩ (consumed ++ rest),
        r.i.toNat ≤ bufferSize.toNat - 1) ∧
      ∀ r ∈ heads (genericUartGetsPass t buffer) bufferSize ⟨⟨0, before⟩, []⟩ (consumed ++ rest),
        r.i.toNat ≤ bufferSize.toNat - 1 := by
  have hread : readLine keys (bufferSize.toNat - 1) [] (consumed ++ rest) = some (kept, rest) :=
    readLine_iff.mpr ⟨consumed, rfl, hline⟩
  have hdw := dwUartGetsPass_edits buffer
  have hgeneric := genericUartGetsPass_edits t buffer
  have hd := gets_refines hdw hlo hhi before (consumed ++ rest)
  have hg := gets_refines hgeneric hlo hhi before (consumed ++ rest)
  have hmem := gets_memory hdw hgeneric bufferSize before (consumed ++ rest)
  rw [hread] at hd hg
  obtain ⟨d, hdget, hdread⟩ := rel_some hd
  obtain ⟨g, hgget, hgread⟩ := rel_some hg
  rw [hdget, hgget] at hmem
  have hsize : (bufferSize - 1).toNat = bufferSize.toNat - 1 :=
    BitVec.toNat_sub_of_le (show (1 : Word).toNat ≤ bufferSize.toNat from hlo)
  refine ⟨d, g, hdget, hgget, Option.some.inj hmem, hdread, hgread, ?_, ?_⟩
  · rw [← hsize]
    exact heads_index hdw bufferSize (Nat.zero_le _) _
  · rw [← hsize]
    exact heads_index hgeneric bufferSize (Nat.zero_le _) _

/-- A mistyped line: `a`, `b`, BS, `c`, CR. -/
theorem typed_line : IsLine keys 7 [] [0x61, 0x62, 0x08, 0x63, 0x0d] [0x61, 0x63] :=
  .cons (by decide) rfl (.cons (by decide) rfl (.cons (by decide) rfl (.cons (by decide) rfl
    (.stop (by decide) rfl))))

theorem one_editor_typed :
    ∃ d g, dwUartGets 0x80300000 8 (fun _ => 0xff) ([0x61, 0x62, 0x08, 0x63, 0x0d] ++ [0x64]) = some d ∧
      genericUartGets .pl011 0x80300000 8 (fun _ => 0xff)
        ([0x61, 0x62, 0x08, 0x63, 0x0d] ++ [0x64]) = some g ∧
      d.memory = g.memory ∧
      Read 0x80300000 8 (fun _ => 0xff) [0x61, 0x63] [0x64] d ∧
      Read 0x80300000 8 (fun _ => 0xff) [0x61, 0x63] [0x64] g ∧
      (∀ r ∈ heads (dwUartGetsPass 0x80300000) 8 ⟨⟨0, fun _ => 0xff⟩, []⟩
        ([0x61, 0x62, 0x08, 0x63, 0x0d] ++ [0x64]), r.i.toNat ≤ 7) ∧
      ∀ r ∈ heads (genericUartGetsPass .pl011 0x80300000) 8 ⟨⟨0, fun _ => 0xff⟩, []⟩
        ([0x61, 0x62, 0x08, 0x63, 0x0d] ++ [0x64]), r.i.toNat ≤ 7 :=
  one_editor .pl011 0x80300000 8 (by decide) (by decide) (fun _ => 0xff) typed_line [0x64]

end Testos.Dev
