import Mathlib.Data.List.DropRight
import Testos.Dev.Gets
import Testos.Lib.String

/-! The interactive shell of `entry.c`.

The shell reads a line into 128 bytes, strips trailing blanks and hands the text to
`process_command`. A reader that returns because the buffer is full leaves the rest of
the line in the stream, and the shell reads it as a line of its own. `shellPass_refines`
says what a pass consumes and which command, if any, it makes of it.

What the branches of `process_command` that call other modules print and do is a
parameter, `Bodies`. -/
namespace Testos.Entry
open Foundation Dev Lib

/-! ### Commands -/

/-- The branches of `process_command`. -/
inductive Command where
  | help
  | info
  | mem
  | test
  | fp
  | syscall
  | exception
  | run
  | reboot
  | quit
  | unknown
  | nothing
deriving DecidableEq

/-- `strcmp(cmd, a) == 0 || strcmp(cmd, b) == 0`. -/
def named (cmd : CString) (a b : String) : Bool :=
  strcmp cmd (.lit a) = 0 || strcmp cmd (.lit b) = 0

/-- The branch a text selects. -/
def command (cmd : CString) : Command :=
  if named cmd "help" "h" then .help
  else if named cmd "info" "i" then .info
  else if named cmd "mem" "m" then .mem
  else if named cmd "test" "t" then .test
  else if named cmd "fp" "float" then .fp
  else if named cmd "syscall" "s" then .syscall
  else if named cmd "exception" "e" then .exception
  else if named cmd "run" "u" then .run
  else if named cmd "reboot" "r" then .reboot
  else if named cmd "quit" "q" then .quit
  else if cmd.length > 0 then .unknown
  else .nothing

/-- What a call of `process_command` sends and does; `ret` is `none` when control
does not come back. -/
structure Handled where
  sent : List Byte
  memory : Memory
  ret : Option Int

/-- The functions behind the branches: what each sends, and the memory it leaves if it
returns. -/
abbrev Bodies := Command → Memory → List Byte × Option Memory

/-- `uart_puts` of each text in turn. -/
def say (t : UartType) (texts : List String) : List Byte :=
  texts.flatMap fun text => uartPuts t (.lit text)

/-- The list `help` prints. -/
def helpText : List String :=
  ["Available commands:\r\n",
   "  help, h        - Show this help\r\n",
   "  info, i        - Show system information\r\n",
   "  mem, m         - Show memory statistics\r\n",
   "  test, t        - Run basic tests\r\n",
   "  fp, float      - Test floating point unit\r\n",
   "  syscall, s     - Test system calls\r\n",
   "  exception, e   - Test exception handling\r\n",
   "  run, u         - Run embedded user program\r\n",
   "  reboot, r      - Restart system\r\n",
   "  quit, q        - Enter idle loop\r\n"]

/-- `process_command`. -/
def processCommand (t : UartType) (bodies : Bodies) (cmd : CString) (memory : Memory) : Handled :=
  match command cmd with
  | .help => ⟨say t helpText, memory, some 1⟩
  | .reboot => ⟨say t ["Rebooting system...\r\n"], memory, none⟩
  | .quit => ⟨say t ["Entering idle loop. System will wait for interrupts.\r\n"], memory, some 0⟩
  | .unknown =>
    ⟨say t ["Unknown command: "] ++ uartPuts t cmd ++
      say t ["\r\nType 'help' for available commands.\r\n"], memory, some 1⟩
  | .nothing => ⟨[], memory, some 1⟩
  | body =>
    match bodies body memory with
    | (sent, some memory') => ⟨sent, memory', some 1⟩
    | (sent, none) => ⟨sent, memory, none⟩

/-! ### The loop -/

/-- A call of `process_command`: its text, and the stretch of the stream it was read
from. -/
structure Passed where
  first : Nat
  next : Nat
  cmd : CString
deriving DecidableEq

/-- The shell between two passes of its loop; `read` counts the bytes consumed. -/
structure Shell where
  memory : Memory
  rest : List Byte
  read : Nat := 0
  sent : List Byte
  trace : List Passed := []
  running : Bool := true

/-- The trailing-blank loop, on a text of `len` bytes. -/
def stripBlanks (cmdBuffer : Word) (memory : Memory) : Nat → Memory
  | 0 => memory
  | len + 1 =>
    let p := cmdBuffer + BitVec.ofNat 64 len
    if memory p = 0x20 ∨ memory p = 0x09 then stripBlanks cmdBuffer (memory.store p 0) len
    else memory

section
variable (t : UartType) (bodies : Bodies) (cmdBuffer : Word)

/-- The part of a pass under `if (len > 0)`; true when the loop goes on. -/
def handleLine (s : Shell) (first : Nat) (len : Int) : Shell × Bool :=
  if len > 0 then
    let memory := stripBlanks cmdBuffer s.memory len.toNat
    let cmd := cstringAt memory cmdBuffer
    let handled := processCommand t bodies cmd memory
    ({ s with
        memory := handled.memory
        sent := s.sent ++ handled.sent
        trace := s.trace ++ [⟨first, s.read, cmd⟩] },
      match handled.ret with
      | some ret => ret ≠ 0
      | none => false)
  else (s, true)

/-- One pass of the loop of `interactive_shell`; `none` while the reader waits. -/
def shellPass (s : Shell) : Option Shell :=
  match uartGets t cmdBuffer 128 s.memory s.rest with
  | none => none
  | some r =>
    let s' : Shell :=
      { s with
        memory := r.memory
        rest := r.rest
        read := s.read + (s.rest.length - r.rest.length)
        sent := s.sent ++ say t ["testos> "] ++ r.sent }
    let out := handleLine t bodies cmdBuffer s' s.read r.count
    some (if out.2 then { out.1 with sent := out.1.sent ++ say t ["\r\n"] }
      else { out.1 with running := false })

/-- Up to `n` passes. -/
def shellRun : Nat → Shell → Shell
  | 0, s => s
  | n + 1, s =>
    if s.running then
      match shellPass t bodies cmdBuffer s with
      | some s' => shellRun n s'
      | none => s
    else s

/-- `interactive_shell`, as far as `n` passes of its loop take it. -/
def interactiveShell (memory : Memory) (stream : List Byte) (n : Nat) : Shell :=
  shellRun t bodies cmdBuffer n
    { memory
      rest := stream
      sent := say t
        ["\r\n",
         "========================================\r\n",
         "     RISC-V testos Interactive Shell   \r\n",
         "========================================\r\n",
         "Type 'help' for available commands.\r\n\r\n"] }

end

/-! ### The text of a command -/

/-- Blank or tab. -/
def blank (c : Byte) : Bool := c = 0x20 || c = 0x09

/-- The command a line comes to: trailing blanks stripped, and cut at a NUL. -/
def commandText (kept : List Byte) : CString :=
  ⟨(kept.rdropWhile blank).takeWhile (· ≠ 0), CString.takeWhile_noNul _⟩

/-- Stripping the text in memory strips the text. -/
theorem stripBlanks_text {p : Word} {text : List Byte} {m : Memory} (h : Text p text m)
    (hlen : text.length < 2 ^ 64) : Text p (text.rdropWhile blank) (stripBlanks p m text.length) := by
  induction text using List.reverseRecOn generalizing m with
  | nil => exact h
  | append_singleton text c ih =>
    have hlength : (text ++ [c]).length = text.length + 1 := by simp
    rw [hlength] at hlen
    have hlast : m (p + BitVec.ofNat 64 text.length) = c := by
      have := h.bytes text.length (by omega)
      simpa using this
    rw [hlength, stripBlanks, hlast]
    by_cases hc : c = 0x20 ∨ c = 0x09
    · rw [List.rdropWhile_concat_pos _ _ _ (by simpa [blank] using hc)]
      simp only [if_pos hc]
      refine ih ⟨fun j hj => ?_, Memory.store_same _ _ _⟩ (by omega)
      rw [Memory.store_other _ _ (cell_ne (by omega) (by omega) (by omega)),
        h.bytes j (by omega), List.getElem_append_left hj]
    · rw [List.rdropWhile_concat_neg _ _ _ (by simpa [blank] using hc)]
      simp only [if_neg hc]
      exact h

/-- The string `process_command` is given. -/
theorem cstringAt_strip {p : Word} {text : List Byte} {m : Memory} (h : Text p text m)
    (hlen : text.length < 2 ^ 64) :
    cstringAt (stripBlanks p m text.length) p = commandText text := by
  have htext := stripBlanks_text h hlen
  have hle : (text.rdropWhile blank).length ≤ text.length := (List.rdropWhile_prefix _ _).length_le
  rw [cstringAt, commandText, CString.mk.injEq]
  exact bytesBefore_text htext (by omega)

/-! ### A pass -/

section
variable {t : UartType} {bodies : Bodies} {cmdBuffer : Word}

/-- The commands a line kept by the editor gives: one, unless nothing was kept. -/
def passed (first next : Nat) (kept : List Byte) : List Passed :=
  if kept = [] then [] else [⟨first, next, commandText kept⟩]

/-- A command the shell does not come back from. -/
def leaves (cmd : CString) : Bool := command cmd = .quit || command cmd = .reboot

/-- Every body comes back. -/
def Bodies.Return (bodies : Bodies) : Prop := ∀ c memory, (bodies c memory).2.isSome = true

/-- `s'` is `s` after the pass that reads `line`: the bytes the editor keeps and the
stream it leaves. -/
structure Passes (bodies : Bodies) (s : Shell) (line : List Byte × List Byte) (s' : Shell) : Prop where
  rest : s'.rest = line.2
  room : line.1.length ≤ 127
  read : s'.read = s.read + (s.rest.length - line.2.length)
  trace : s'.trace = s.trace ++ passed s.read s'.read line.1
  left : leaves (commandText line.1) = true → s'.running = false
  stayed : bodies.Return → leaves (commandText line.1) = false → s'.running = s.running

theorem handleLine_nil (s : Shell) (first : Nat) :
    handleLine t bodies cmdBuffer s first ([] : List Byte).length = (s, true) := rfl

theorem processCommand_leaves (t : UartType) (bodies : Bodies) {cmd : CString} (h : leaves cmd = true)
    (memory : Memory) : ∀ ret ∈ (processCommand t bodies cmd memory).ret, ret = 0 := by
  rw [leaves, Bool.or_eq_true, decide_eq_true_eq, decide_eq_true_eq] at h
  unfold processCommand
  rcases h with h | h
  · simp only [h]
    intro ret hret
    exact (Option.some.inj hret).symm
  · simp only [h]
    intro ret hret
    cases hret

theorem processCommand_stays (t : UartType) {bodies : Bodies} (hbodies : bodies.Return) {cmd : CString}
    (h : leaves cmd = false) (memory : Memory) : (processCommand t bodies cmd memory).ret = some 1 := by
  rw [leaves, Bool.or_eq_false_iff, decide_eq_false_iff_not, decide_eq_false_iff_not] at h
  have hbody : ∀ c, (match bodies c memory with
      | (sent, some memory') => (⟨sent, memory', some 1⟩ : Handled)
      | (sent, none) => ⟨sent, memory, none⟩).ret = some 1 := by
    intro c
    have hret := hbodies c memory
    match hc : bodies c memory with
    | (sent, some memory') => rfl
    | (sent, none) =>
      rw [hc] at hret
      cases hret
  unfold processCommand
  cases hcmd : command cmd with
  | reboot => exact absurd hcmd h.2
  | quit => exact absurd hcmd h.1
  | help => rfl
  | unknown => rfl
  | nothing => rfl
  | _ => exact hbody _

theorem handleLine_text (t : UartType) (bodies : Bodies) (s : Shell) (first : Nat) {kept : List Byte} (hne : kept ≠ [])
    (htext : Text cmdBuffer kept s.memory) (hkept : kept.length < 2 ^ 64) :
    ∃ memory sent go, handleLine t bodies cmdBuffer s first kept.length =
        ({ s with memory, sent, trace := s.trace ++ passed first s.read kept }, go) ∧
      (leaves (commandText kept) = true → go = false) ∧
      (bodies.Return → leaves (commandText kept) = false → go = true) := by
  have hpos : (kept.length : Int) > 0 := by
    have := List.length_pos_of_ne_nil hne
    omega
  unfold handleLine passed
  rw [if_pos hpos, if_neg hne, Int.toNat_natCast]
  simp only [cstringAt_strip htext hkept]
  refine ⟨_, _, _, rfl, fun hleaves => ?_, fun hbodies hstays => ?_⟩
  · have hret := processCommand_leaves t bodies hleaves (stripBlanks cmdBuffer s.memory kept.length)
    generalize (processCommand t bodies (commandText kept)
      (stripBlanks cmdBuffer s.memory kept.length)).ret = o at hret ⊢
    cases o with
    | none => rfl
    | some ret => simp [hret ret rfl]
  · rw [processCommand_stays t hbodies hstays]
    rfl

/-- **A pass** consumes what the editor reads and passes on the command it comes to. -/
theorem shellPass_refines (t : UartType) (bodies : Bodies) (cmdBuffer : Word) (s : Shell) :
    Option.Rel (fun s' line => Passes bodies s line s') (shellPass t bodies cmdBuffer s)
      (readLine keys 127 [] s.rest) := by
  have hsize : 1 ≤ (128 : Word).toNat := by decide
  have hrel : Option.Rel (fun r line => Read cmdBuffer 128 s.memory line.1 line.2 r)
      (uartGets t cmdBuffer 128 s.memory s.rest) (readLine keys 127 [] s.rest) :=
    uartGets_refines t cmdBuffer hsize (by decide) s.memory s.rest
  unfold shellPass
  generalize uartGets t cmdBuffer 128 s.memory s.rest = got at hrel
  generalize readLine keys 127 [] s.rest = line at hrel
  cases hrel with
  | none => exact .none
  | some hr =>
    next r line =>
    obtain ⟨kept, rest⟩ := line
    have hroom : kept.length ≤ 127 := hr.room
    have hrest : r.rest = rest := hr.rest
    simp only [hr.count, hrest]
    by_cases hne : kept = []
    · subst hne
      rw [handleLine_nil]
      have hstays : ¬ leaves (commandText []) = true := by decide
      exact .some ⟨rfl, hroom, rfl, (List.append_nil _).symm, fun h => absurd h hstays, fun _ _ => rfl⟩
    · obtain ⟨memory, sent, go, hout, hleaves, hstays⟩ := handleLine_text t bodies
        { s with
          memory := r.memory
          rest
          read := s.read + (s.rest.length - rest.length)
          sent := s.sent ++ say t ["testos> "] ++ r.sent }
        s.read hne ⟨hr.bytes, hr.nul⟩ (by omega)
      rw [hout]
      cases go with
      | true =>
        exact .some ⟨rfl, hroom, rfl, rfl, fun h => absurd (hleaves h).symm Bool.false_ne_true, fun _ _ => rfl⟩
      | false =>
        exact .some ⟨rfl, hroom, rfl, rfl, fun _ => rfl,
          fun hbodies h => absurd (hstays hbodies h) Bool.false_ne_true⟩

end

end Testos.Entry
