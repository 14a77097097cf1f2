import Testos.Entry.Shell

/-! Two views of the command line.

The reader counts bytes, and the shell strips blanks by that count; `process_command`
sees a string that ends at the first NUL. A NUL on the serial line is kept like any other
byte, and then the two disagree. `one_view_iff`: the count is the string's length, and
the commands that run are the lines that name them, exactly when no NUL is left in the
edited line. -/
namespace Testos.Entry
open Foundation Dev Lib

/-! ### Names -/

/-- The names of a command's branch. -/
def names : Command → List String
  | .help => ["help", "h"]
  | .info => ["info", "i"]
  | .mem => ["mem", "m"]
  | .test => ["test", "t"]
  | .fp => ["fp", "float"]
  | .syscall => ["syscall", "s"]
  | .exception => ["exception", "e"]
  | .run => ["run", "u"]
  | .reboot => ["reboot", "r"]
  | .quit => ["quit", "q"]
  | .unknown | .nothing => []

theorem named_iff {cmd : CString} {a b : String} : named cmd a b = true ↔ ∃ name ∈ [a, b], cmd = .lit name := by
  simp [named, strcmp_eq_zero]

/-- No two branches share a name. -/
theorem command_lit (c : Command) : ∀ name ∈ names c, command (.lit name) = c := by
  cases c <;> decide

/-- A text that is no name selects a branch without names. -/
theorem command_other {cmd : CString} (h : ∀ c, ∀ name ∈ names c, cmd ≠ .lit name) : names (command cmd) = [] := by
  have hnot : ∀ c {a b}, names c = [a, b] → ¬ named cmd a b = true := by
    intro c a b hnames hnamed
    obtain ⟨name, hname, hcmd⟩ := named_iff.mp hnamed
    exact h c name (hnames ▸ hname) hcmd
  simp only [command, if_neg (hnot .help rfl), if_neg (hnot .info rfl), if_neg (hnot .mem rfl), if_neg (hnot .test rfl),
    if_neg (hnot .fp rfl), if_neg (hnot .syscall rfl), if_neg (hnot .exception rfl), if_neg (hnot .run rfl),
    if_neg (hnot .reboot rfl), if_neg (hnot .quit rfl)]
  split <;> rfl

theorem command_iff {c : Command} (hc : names c ≠ []) (cmd : CString) :
    command cmd = c ↔ ∃ name ∈ names c, cmd = .lit name := by
  constructor
  · intro h
    by_contra hno
    apply hc
    rw [← h]
    apply command_other
    intro c' name hname hcmd
    have hc' : command cmd = c' := hcmd ▸ command_lit c' name hname
    exact hno ⟨name, by rw [← h, hc']; exact hname, hcmd⟩
  · intro h
    obtain ⟨name, hname, rfl⟩ := h
    exact command_lit c name hname

/-! ### Bytes and strings -/

/-- The edited line without its trailing blanks and tabs. -/
def stripped (kept : List Byte) : List Byte := kept.rdropWhile blank

/-- A branch that has names runs exactly for the lines that are, byte for byte, one of
them. -/
def RunsByName (kept : List Byte) (ran : List Passed) : Prop :=
  ∀ c, names c ≠ [] →
    ((∃ e ∈ ran, command e.cmd = c) ↔ ∃ name ∈ names c, stripped kept = (CString.lit name).bytes)

/-- A NUL among the bytes cuts the string short. -/
theorem length_takeWhile_iff {kept : List Byte} :
    (kept.takeWhile (· ≠ 0)).length = kept.length ↔ (0 : Byte) ∉ kept := by
  constructor
  · intro h h0
    have hwhole := (List.takeWhile_prefix (fun c : Byte => decide (c ≠ 0)) (l := kept)).eq_of_length h
    rw [← hwhole] at h0
    exact CString.takeWhile_noNul kept h0
  · intro h0
    rw [List.takeWhile_eq_self_iff.mpr fun c hc => by simpa using ne_of_mem_of_not_mem hc h0]

/-- Without a NUL the command's text is the stripped line. -/
theorem commandText_stripped {kept : List Byte} (h0 : (0 : Byte) ∉ kept) :
    (commandText kept).bytes = stripped kept :=
  List.takeWhile_eq_self_iff.mpr fun c hc => by
    have hmem := (List.rdropWhile_prefix blank (l := kept)).subset hc
    simpa using ne_of_mem_of_not_mem hmem h0

/-- No name is empty. -/
theorem lit_ne_nil {c : Command} {name : String} (h : name ∈ names c) : (CString.lit name).bytes ≠ [] := by
  have hall : ∀ name ∈ names c, (CString.lit name).bytes ≠ [] := by
    cases c <;> decide
  exact hall name h

theorem runsByName {kept : List Byte} (h0 : (0 : Byte) ∉ kept) (first next : Nat) :
    RunsByName kept (passed first next kept) := by
  intro c hc
  unfold passed
  by_cases hnil : kept = []
  · subst hnil
    rw [if_pos rfl]
    constructor
    · intro h
      obtain ⟨e, he, _⟩ := h
      exact absurd he List.not_mem_nil
    · intro h
      obtain ⟨name, hname, hstripped⟩ := h
      exact absurd hstripped.symm (lit_ne_nil hname)
  · have hsame : ∀ name, commandText kept = .lit name ↔ stripped kept = (CString.lit name).bytes := by
      intro name
      rw [← commandText_stripped h0, CString.eq_iff]
    simp only [if_neg hnil, List.mem_singleton, exists_eq_left]
    rw [command_iff hc]
    simp only [hsame]

/-! ### The two views -/

/-- The string in the buffer is the line up to its first NUL. -/
theorem strlen_buffer {buffer bufferSize : Word} {before : Memory} {kept rest : List Byte} {r : Reading}
    (h : Fills buffer bufferSize before kept rest r) :
    (cstringAt r.memory buffer).length = (kept.takeWhile (· ≠ 0)).length := by
  have hroom := h.room
  have hmax := bufferSize.isLt
  exact congrArg List.length (bytesBefore_text h.text (by omega))

/-- **The count and the string.** For every stream on which the line ends, either reader
and every buffer size, the count is the length of the string in the buffer exactly when
the line keeps no NUL and is shorter than 2^31; or else its length, wrapped to an `int`,
happens to point at its first NUL. In the shell, the count is the string's length and
the commands run by name exactly when the line keeps no NUL. -/
theorem one_view_iff (t : UartType) :
    (∀ (buffer bufferSize : Word) (before : Memory) (consumed kept rest : List Byte), 1 ≤ bufferSize.toNat →
      IsLine keys (bufferSize.toNat - 1) [] consumed kept →
        ∃ r, uartGets t buffer bufferSize before (consumed ++ rest) = some r ∧
          (r.count = (cstringAt r.memory buffer).length ↔
            ((0 : Byte) ∉ kept ∧ kept.length < 2 ^ 31) ∨
              (2 ^ 32 ≤ kept.length ∧ (kept.takeWhile (· ≠ 0)).length < 2 ^ 31 ∧
                kept.length % 2 ^ 32 = (kept.takeWhile (· ≠ 0)).length))) ∧
      ∀ (bodies : Bodies) (cmdBuffer : Word) (s : Shell) (consumed kept rest : List Byte),
        s.rest = consumed ++ rest → IsLine keys 127 [] consumed kept →
          ∃ r s' ran, uartGets t cmdBuffer 128 s.memory s.rest = some r ∧
            shellPass t bodies cmdBuffer s = some s' ∧ s'.trace = s.trace ++ ran ∧
            ((r.count = (cstringAt r.memory cmdBuffer).length ∧ RunsByName kept ran) ↔ (0 : Byte) ∉ kept) := by
  constructor
  · intro buffer bufferSize before consumed kept rest hlo hline
    have hread : readLine keys (bufferSize.toNat - 1) [] (consumed ++ rest) = some (kept, rest) :=
      readLine_iff.mpr ⟨consumed, rfl, hline⟩
    have hrel := uartGets_fills t buffer hlo before (consumed ++ rest)
    rw [hread] at hrel
    obtain ⟨r, hr, hfills⟩ := rel_some hrel
    have hcount : r.count = (kept.length : Int).bmod (2 ^ 32) := hfills.count
    have hle := (List.takeWhile_prefix (fun c : Byte => decide (c ≠ 0)) (l := kept)).length_le
    refine ⟨r, hr, ?_⟩
    rw [strlen_buffer hfills, hcount, ← length_takeWhile_iff, Int.bmod_def]
    simp only
    split <;> omega
  · intro bodies cmdBuffer s consumed kept rest hs hline
    have hread : readLine keys 127 [] s.rest = some (kept, rest) := readLine_iff.mpr ⟨consumed, hs, hline⟩
    have hfills : Option.Rel (fun r line => Fills cmdBuffer 128 s.memory line.1 line.2 r)
        (uartGets t cmdBuffer 128 s.memory s.rest) (readLine keys 127 [] s.rest) :=
      uartGets_fills t cmdBuffer (by decide) s.memory s.rest
    have hpass := shellPass_refines t bodies cmdBuffer s
    rw [hread] at hfills hpass
    obtain ⟨r, hr, hfills⟩ := rel_some hfills
    obtain ⟨s', hs', hpasses⟩ := rel_some hpass
    have hroom : kept.length ≤ 127 := hpasses.room
    have hcount : r.count = kept.length := by
      have hwrapped : r.count = (kept.length : Int).bmod (2 ^ 32) := hfills.count
      exact hwrapped.trans (Int.bmod_eq_of_le (by omega) (by omega))
    refine ⟨r, s', _, hr, hs', hpasses.trace, ?_⟩
    rw [strlen_buffer hfills, hcount, Int.natCast_inj, eq_comm, length_takeWhile_iff]
    exact ⟨fun h => h.1, fun h0 => ⟨h0, runsByName h0 _ _⟩⟩

/-- `h`, NUL, BS, CR: the NUL is erased again, and both the reader's count and the
shell's command are as they should be. -/
theorem one_view_erased :
    ∃ r s' ran, uartGets .dw 0x80300000 128 (fun _ => 0xff) [0x68, 0x00, 0x08, 0x0d] = some r ∧
      r.count = (cstringAt r.memory 0x80300000).length ∧
      shellPass .dw (fun _ memory => ([], some memory)) 0x80300000
        { memory := fun _ => 0xff, rest := [0x68, 0x00, 0x08, 0x0d], sent := [] } = some s' ∧
      s'.trace = ran ∧ RunsByName [0x68] ran := by
  have hread : readLine keys 127 [] [0x68, 0x00, 0x08, 0x0d] = some ([0x68], []) := by decide
  obtain ⟨consumed, hconsumed, hline⟩ := readLine_iff.mp hread
  have hnul : (0 : Byte) ∉ ([0x68] : List Byte) := by decide
  obtain ⟨r, hr, hcount⟩ :=
    (one_view_iff .dw).1 0x80300000 128 (fun _ => 0xff) consumed [0x68] [] (by decide) hline
  obtain ⟨r', s', ran, hr', hs', htrace, hview⟩ :=
    (one_view_iff .dw).2 (fun _ memory => ([], some memory)) 0x80300000
      { memory := fun _ => 0xff, rest := [0x68, 0x00, 0x08, 0x0d], sent := [] } consumed [0x68] [] hconsumed hline
  rw [← hconsumed] at hr
  obtain rfl := Option.some.inj (hr.symm.trans hr')
  exact ⟨r, s', ran, hr, hcount.mpr (.inl ⟨hnul, by decide⟩), hs', htrace, (hview.mpr hnul).2⟩

/-- `h`, NUL, `x`, CR. -/
def nulLine : List Byte := [0x68, 0x00, 0x78, 0x0d]

/-- Of this line the reader counts three bytes, the string in the buffer has one, and
the shell runs `help`, which is not what the line says. -/
theorem nul_runs_help :
    ∃ r s' e, uartGets .dw 0x80300000 128 (fun _ => 0xff) nulLine = some r ∧ r.count = 3 ∧
      (cstringAt r.memory 0x80300000).length = 1 ∧
      shellPass .dw (fun _ memory => ([], some memory)) 0x80300000
        { memory := fun _ => 0xff, rest := nulLine, sent := [] } = some s' ∧
      s'.trace = [e] ∧ command e.cmd = .help ∧ ¬ RunsByName [0x68, 0x00, 0x78] [e] ∧
      ¬ (r.count = (cstringAt r.memory 0x80300000).length ∧ RunsByName [0x68, 0x00, 0x78] [e]) := by
  have hread : readLine keys 127 [] nulLine = some ([0x68, 0x00, 0x78], []) := by decide
  have hfills : Option.Rel (fun r line => Fills 0x80300000 128 (fun _ => 0xff) line.1 line.2 r)
      (uartGets .dw 0x80300000 128 (fun _ => 0xff) nulLine) (readLine keys 127 [] nulLine) :=
    uartGets_fills .dw 0x80300000 (by decide) (fun _ => 0xff) nulLine
  have hpass := shellPass_refines .dw (fun _ memory => ([], some memory)) 0x80300000
    { memory := fun _ => 0xff, rest := nulLine, sent := [] }
  rw [show Shell.rest _ = nulLine from rfl, hread] at hpass
  rw [hread] at hfills
  obtain ⟨r, hr, hfills⟩ := rel_some hfills
  obtain ⟨s', hs', hpasses⟩ := rel_some hpass
  have hhelp : command (commandText [0x68, 0x00, 0x78]) = .help := by decide
  have hnot : ¬ RunsByName [0x68, 0x00, 0x78] [⟨0, s'.read, commandText [0x68, 0x00, 0x78]⟩] := by
    intro h
    obtain ⟨name, hname, hstripped⟩ := (h .help (by decide)).mp ⟨_, List.mem_singleton.mpr rfl, hhelp⟩
    have hnames : ∀ name ∈ names .help, stripped [0x68, 0x00, 0x78] ≠ (CString.lit name).bytes := by decide
    exact hnames name hname hstripped
  refine ⟨r, s', ⟨0, s'.read, commandText [0x68, 0x00, 0x78]⟩, hr, hfills.count, ?_, hs', hpasses.trace, hhelp, hnot,
    fun h => hnot h.2⟩
  rw [strlen_buffer hfills]
  rfl

end Testos.Entry
