import Testos.Exception.Dispatch
import Testos.Entry.Syscalls

/-! The vector is armed before the tables.

`_start` points `stvec` at `trap_vector` and only then clears `.bss`, which holds the
tables; `exception_init` fills them much later, entry by entry, and null handlers can be
registered at any time after. `boot_trap_iff` says of every point of the boot, and any
registrations after it, which traps `handle_exception` dispatches to the handler
registered or the default; `handle_syscall`, which tests its entry, dispatches them all. -/
namespace Testos.Exception
open Foundation Riscv

/-! ### The boot, store by store -/

/-- The two tables `handle_exception` reads. -/
inductive TrapTable where
  | exception
  | interrupt
deriving DecidableEq

/-- Where in `.bss` the tables lie, in doublewords from `__bss_start`. -/
structure BssLayout where
  words : Nat
  exceptions : Nat
  interrupts : Nat
  syscalls : Nat
  exceptions_in : exceptions + 16 ≤ words
  interrupts_in : interrupts + 16 ≤ words
  syscalls_in : syscalls + 256 ≤ words

/-- The steps of the boot from `csrw stvec` on: the stores to `.bss` and to the tables,
and what stands between them. -/
inductive BootStep where
  | clear (k : Nat)
  | memInit
  | enableFpu
  | setEntry (table : TrapTable) (i : Word)
  | setSyscall (i : Word)
  | registerBreakpoint
  | setSscratch
  | timerInit
  | registerPutchar
  | registerPuts
  | shell
deriving DecidableEq

/-- `clear_bss`, turn by turn of its loop. -/
def clearBss (layout : BssLayout) : List BootStep := (List.range layout.words).map .clear

/-- `mem_init`, `kernel_main` up to `exception_init`, and the loops of that. -/
def initTables : List BootStep :=
  [.memInit, .enableFpu] ++
    ((Table.counter 16).flatMap (fun i => [.setEntry .exception i, .setEntry .interrupt i]) ++
      (Table.counter 256).map .setSyscall)

/-- The end of `exception_init`, and the rest of `kernel_main`. -/
def afterTables : List BootStep :=
  [.registerBreakpoint, .setSscratch, .timerInit, .registerPutchar, .registerPuts, .shell]

/-- The boot. -/
def boot (layout : BssLayout) : List BootStep := clearBss layout ++ (initTables ++ afterTables)

/-- The tables of `exception.c`. An entry that holds garbage, as before `clear_bss` any
may, points at whatever code lies there. -/
structure Tables (E H : Type) where
  exceptions : Table (Option (ExceptionHandler E)) 16
  interrupts : Table (Option (ExceptionHandler E)) 16
  syscalls : Table (Option (SyscallHandler H)) 256

/-- What of the kernel's image the boot depends on. -/
structure KernelImage (H : Type) where
  bss : BssLayout
  sysPutchar : H
  sysPuts : H

section
variable {E H : Type}

/-- `sd zero`, at the `k`-th doubleword of `.bss`, to a table that starts at `base`. -/
def clearEntry {α : Type} {n : Nat} (t : Table (Option α) n) (base k : Nat) : Table (Option α) n :=
  if base ≤ k ∧ k - base < n then t.put (BitVec.ofNat 64 (k - base)) none else t

def bootStep (image : KernelImage H) (tables : Tables E H) : BootStep → Tables E H
  | .clear k =>
    { exceptions := clearEntry tables.exceptions image.bss.exceptions k
      interrupts := clearEntry tables.interrupts image.bss.interrupts k
      syscalls := clearEntry tables.syscalls image.bss.syscalls k }
  | .setEntry .exception i =>
    { tables with exceptions := tables.exceptions.put i (some .defaultException) }
  | .setEntry .interrupt i =>
    { tables with interrupts := tables.interrupts.put i (some .defaultInterrupt) }
  | .setSyscall i => { tables with syscalls := tables.syscalls.put i (some .default) }
  | .registerBreakpoint =>
    { tables with exceptions := tables.exceptions.put causeBreakpoint (some .ebreak) }
  | .registerPutchar =>
    { tables with syscalls := tables.syscalls.put 0 (some (.registered image.sysPutchar)) }
  | .registerPuts =>
    { tables with syscalls := tables.syscalls.put 1 (some (.registered image.sysPuts)) }
  | .memInit | .enableFpu | .setSscratch | .timerInit | .shell => tables

/-- The tables after some steps of the boot, from whatever `.bss` held before. -/
def booted (image : KernelImage H) (tables : Tables E H) (steps : List BootStep) : Tables E H :=
  steps.foldl (bootStep image) tables

/-- The kernel with these tables. -/
def Kernel.install (kernel : Kernel E H) (tables : Tables E H) : Kernel E H :=
  { kernel with
    exceptionHandlers := tables.exceptions
    interruptHandlers := tables.interrupts
    syscallHandlers := tables.syscalls }

/-! ### Filling the tables

The steps of `exception_init` leave what `exceptionInit` does. -/

theorem booted_append (image : KernelImage H) (tables : Tables E H) (before after : List BootStep) :
    booted image tables (before ++ after) = booted image (booted image tables before) after :=
  List.foldl_append

theorem booted_entries (image : KernelImage H) (tables : Tables E H) (is : List Word) :
    booted image tables (is.flatMap fun i => [.setEntry .exception i, .setEntry .interrupt i]) =
      { tables with
        exceptions := is.foldl (fun t i => t.put i (some .defaultException)) tables.exceptions
        interrupts := is.foldl (fun t i => t.put i (some .defaultInterrupt)) tables.interrupts } := by
  induction is generalizing tables with
  | nil => rfl
  | cons i is ih =>
    rw [List.flatMap_cons, booted_append, ih]
    rfl

theorem booted_syscalls (image : KernelImage H) (tables : Tables E H) (is : List Word) :
    booted image tables (is.map .setSyscall) =
      { tables with syscalls := is.foldl (fun t i => t.put i (some .default)) tables.syscalls } := by
  induction is generalizing tables with
  | nil => rfl
  | cons i is ih =>
    rw [List.map_cons]
    exact ih (bootStep image tables (.setSyscall i))

theorem booted_exceptionInit (image : KernelImage H) (tables : Tables E H) (sp : Word)
    (kernel : Kernel E H) : exceptionInit sp kernel =
      some { kernel.install (booted image tables (initTables ++ [.registerBreakpoint])) with sscratch := sp } := by
  rw [exceptionInit, registerExceptionHandler_eq, initTables, booted_append, booted_append, booted_append,
    booted_entries, booted_syscalls, Table.fill_eq (by decide), Table.fill_eq (by decide),
    Table.fill_eq (by decide)]
  rfl

/-! ### Registrations, null ones included -/

/-- A call of `register_exception_handler` or `register_interrupt_handler`. -/
structure TableCall (E : Type) where
  table : TrapTable
  cause : Word
  handler : Option (ExceptionHandler E)

def tableCall (kernel : Kernel E H) (c : TableCall E) : Option (Kernel E H) :=
  match c.table with
  | .exception => registerExceptionHandler c.cause c.handler kernel
  | .interrupt => registerInterruptHandler c.cause c.handler kernel

/-! ### What is registered, and what is armed -/

/-- The handler of an entry nothing is registered for. -/
def TrapTable.default : TrapTable → ExceptionHandler E
  | .exception => .defaultException
  | .interrupt => .defaultInterrupt

/-- Where the table lies in `.bss`. -/
def TrapTable.base (layout : BssLayout) : TrapTable → Nat
  | .exception => layout.exceptions
  | .interrupt => layout.interrupts

def Tables.trap (tables : Tables E H) : TrapTable → Table (Option (ExceptionHandler E)) 16
  | .exception => tables.exceptions
  | .interrupt => tables.interrupts

/-- The table a cause is for, and its number there. -/
def entryOf (cause : Word) : TrapTable × Word :=
  if cause.msb then (.interrupt, BitVec.ofNat 64 (cause.toNat - 2 ^ 63)) else (.exception, cause)

/-- The calls' writes to a table. -/
def TrapTable.calls (t : TrapTable) (calls : List (TableCall E)) :
    List (Word × Option (ExceptionHandler E)) :=
  calls.filterMap fun c => if c.table = t then some (c.cause, c.handler) else none

/-- What is registered for an entry after some steps of the boot and some calls: by the
last call, or for breakpoints by the boot itself. -/
def TrapTable.registered (t : TrapTable) (steps : List BootStep) (calls : List (TableCall E))
    (n : Word) : Option (ExceptionHandler E) :=
  match lastWrite (t.calls calls) n with
  | some handler => handler
  | none =>
    if t = .exception ∧ n = causeBreakpoint ∧ BootStep.registerBreakpoint ∈ steps then some .ebreak
    else none

/-- The handler a trap is for: the registered one, or the default. -/
def intended (steps : List BootStep) (calls : List (TableCall E)) (cause : Word) : ExceptionHandler E :=
  let entry := entryOf cause
  if entry.2.toNat < 16 then (entry.1.registered steps calls entry.2).getD entry.1.default
  else entry.1.default

/-- The last call for the entry registered a handler; or there was none, and
`exception_init` has set it or `clear_bss` not yet reached a default it held. -/
def TrapTable.Armed (t : TrapTable) (layout : BssLayout) (tables : Tables E H) (steps : List BootStep)
    (calls : List (TableCall E)) (n : Word) : Prop :=
  match lastWrite (t.calls calls) n with
  | some handler => handler ≠ none
  | none =>
    BootStep.setEntry t n ∈ steps ∨
      BootStep.clear (t.base layout + n.toNat) ∉ steps ∧
        (tables.trap t).read n = some (some t.default)

/-- The cause is beyond the tables, or its entry is armed. -/
def Armed (layout : BssLayout) (tables : Tables E H) (steps : List BootStep)
    (calls : List (TableCall E)) (cause : Word) : Prop :=
  let entry := entryOf cause
  16 ≤ entry.2.toNat ∨ entry.1.Armed layout tables steps calls entry.2

/-! ### The tables follow the writes -/

/-- The writes of a step to a table. -/
def TrapTable.writes (t : TrapTable) (layout : BssLayout) :
    BootStep → List (Word × Option (ExceptionHandler E))
  | .clear k =>
    if t.base layout ≤ k ∧ k - t.base layout < 16 then [(BitVec.ofNat 64 (k - t.base layout), none)] else []
  | .setEntry t' i => if t' = t then [(i, some t.default)] else []
  | .registerBreakpoint => if t = .exception then [(causeBreakpoint, some .ebreak)] else []
  | _ => []

theorem clearEntry_eq {α : Type} (t : Table (Option α) 16) (base k : Nat) :
    clearEntry t base k =
      (if base ≤ k ∧ k - base < 16 then [(BitVec.ofNat 64 (k - base), none)] else []).foldl
        (fun t w => t.put w.1 w.2) t := by
  unfold clearEntry
  split <;> rfl

/-- **One step** of the boot makes its writes. -/
theorem bootStep_trap (image : KernelImage H) (tables : Tables E H) (t : TrapTable) (s : BootStep) :
    (bootStep image tables s).trap t =
      (t.writes image.bss s).foldl (fun table w => table.put w.1 w.2) (tables.trap t) := by
  cases t with
  | exception =>
    cases s with
    | clear k => exact clearEntry_eq _ _ _
    | setEntry t' i => cases t' <;> rfl
    | _ => rfl
  | interrupt =>
    cases s with
    | clear k => exact clearEntry_eq _ _ _
    | setEntry t' i => cases t' <;> rfl
    | _ => rfl

theorem booted_trap (image : KernelImage H) (tables : Tables E H) (t : TrapTable)
    (steps : List BootStep) : (booted image tables steps).trap t =
      (steps.flatMap (t.writes image.bss)).foldl (fun table w => table.put w.1 w.2) (tables.trap t) := by
  induction steps generalizing tables with
  | nil => rfl
  | cons s steps ih =>
    rw [List.flatMap_cons, List.foldl_append, ← bootStep_trap image]
    exact ih (bootStep image tables s)

/-- The tables of a kernel that `handle_exception` reads. -/
def Kernel.trap (kernel : Kernel E H) : TrapTable → Table (Option (ExceptionHandler E)) 16
  | .exception => kernel.exceptionHandlers
  | .interrupt => kernel.interruptHandlers

theorem install_trap (kernel : Kernel E H) (tables : Tables E H) (t : TrapTable) :
    (kernel.install tables).trap t = tables.trap t := by
  cases t <;> rfl

/-- **One call** makes its write. -/
theorem tableCall_trap (kernel : Kernel E H) (c : TableCall E) :
    ∃ kernel', tableCall kernel c = some kernel' ∧ ∀ t : TrapTable,
      kernel'.trap t = (t.calls [c]).foldl (fun table w => table.put w.1 w.2) (kernel.trap t) := by
  obtain ⟨table, cause, handler⟩ := c
  cases table with
  | exception =>
    refine ⟨_, registerExceptionHandler_eq cause handler kernel, fun t => ?_⟩
    cases t <;> rfl
  | interrupt =>
    refine ⟨_, registerInterruptHandler_eq cause handler kernel, fun t => ?_⟩
    cases t <;> rfl

theorem tableCalls_trap (kernel : Kernel E H) (calls : List (TableCall E)) :
    ∃ kernel', run tableCall kernel calls = some kernel' ∧ ∀ t : TrapTable,
      kernel'.trap t = (t.calls calls).foldl (fun table w => table.put w.1 w.2) (kernel.trap t) := by
  induction calls generalizing kernel with
  | nil => exact ⟨kernel, rfl, fun _ => rfl⟩
  | cons c calls ih =>
    obtain ⟨kernel₁, hc, h₁⟩ := tableCall_trap kernel c
    obtain ⟨kernel', hrun, h'⟩ := ih kernel₁
    refine ⟨kernel', by rw [run_cons, hc]; exact hrun, fun t => ?_⟩
    have hsplit : t.calls (c :: calls) = t.calls [c] ++ t.calls calls :=
      List.filterMap_append (l := [c])
    rw [h' t, h₁ t, hsplit, List.foldl_append]

/-! ### The last write of a prefix of the boot -/

/-- The parts of the boot. -/
inductive BootPart where
  | clearing
  | filling
  | rest

/-- The part a step is in. -/
def BootStep.part : BootStep → BootPart
  | .clear _ => .clearing
  | .memInit | .enableFpu | .setEntry _ _ | .setSyscall _ => .filling
  | .registerBreakpoint | .setSscratch | .timerInit | .registerPutchar | .registerPuts | .shell => .rest

theorem clearBss_part (layout : BssLayout) : ∀ s ∈ clearBss layout, s.part = .clearing := by
  simp [clearBss, BootStep.part]

theorem initTables_part : ∀ s ∈ initTables, s.part = .filling := by
  intro s hs
  simp only [initTables, List.mem_append, List.mem_cons, List.not_mem_nil, or_false, List.mem_flatMap,
    List.mem_map] at hs
  rcases hs with (rfl | rfl) | ⟨i, _, rfl | rfl⟩ | ⟨i, _, rfl⟩ <;> rfl

theorem afterTables_part : ∀ s ∈ afterTables, s.part = .rest := by
  simp [afterTables, BootStep.part]

/-- A prefix of the boot, in its parts. -/
structure Cut (steps clears inits after : List BootStep) : Prop where
  eq : steps = clears ++ (inits ++ after)
  clearing : ∀ s ∈ clears, s.part = .clearing
  filling : ∀ s ∈ inits, s.part = .filling
  rest : ∀ s ∈ after, s.part = .rest
  filled : after ≠ [] → inits = initTables

theorem take_boot (layout : BssLayout) (m : Nat) :
    ∃ clears inits after, Cut ((boot layout).take m) clears inits after := by
  refine ⟨_, _, _, by rw [boot, List.take_append, List.take_append],
    fun s hs => clearBss_part layout s (List.mem_of_mem_take hs),
    fun s hs => initTables_part s (List.mem_of_mem_take hs),
    fun s hs => afterTables_part s (List.mem_of_mem_take hs), fun hne => ?_⟩
  refine List.take_of_length_le (Nat.le_of_not_lt fun hlt => hne ?_)
  rw [Nat.sub_eq_zero_of_le (Nat.le_of_lt hlt), List.take_zero]

/-- A step was taken when it is in its part. -/
theorem Cut.mem {steps clears inits after : List BootStep} (h : Cut steps clears inits after)
    (s : BootStep) : s ∈ steps ↔
      match s.part with
      | .clearing => s ∈ clears
      | .filling => s ∈ inits
      | .rest => s ∈ after := by
  have hclears := h.clearing s
  have hinits := h.filling s
  have hafter := h.rest s
  rw [h.eq, List.mem_append, List.mem_append]
  cases hpart : s.part <;> simp_all

section
variable (t : TrapTable) (layout : BssLayout) {l : List BootStep} {n : Word}

theorem writes_clear (hn : n.toNat < 16) :
    t.writes (E := E) layout (.clear (t.base layout + n.toNat)) = [(n, none)] := by
  have hrange : t.base layout ≤ t.base layout + n.toNat ∧
      t.base layout + n.toNat - t.base layout < 16 := by omega
  rw [TrapTable.writes, if_pos hrange, Nat.add_sub_cancel_left, BitVec.ofNat_toNat, BitVec.setWidth_eq]

theorem lastWrite_clears (hl : ∀ s ∈ l, s.part = .clearing) (hn : n.toNat < 16) :
    lastWrite (l.flatMap (t.writes (E := E) layout)) n =
      if BootStep.clear (t.base layout + n.toNat) ∈ l then some none else none := by
  refine lastWrite_flatMap (writes_clear t layout hn) fun s hs b hb => ?_
  have hpart := hl s hs
  cases s with
  | clear k =>
    rw [TrapTable.writes] at hb
    split at hb
    · have hkey := congrArg BitVec.toNat (Prod.mk.inj (List.mem_singleton.mp hb)).1
      rw [BitVec.toNat_ofNat, Nat.mod_eq_of_lt (by omega)] at hkey
      congr 1
      omega
    · cases hb
  | _ => cases hpart

theorem lastWrite_inits (hl : ∀ s ∈ l, s.part = .filling) :
    lastWrite (l.flatMap (t.writes (E := E) layout)) n =
      if BootStep.setEntry t n ∈ l then some (some t.default) else none := by
  refine lastWrite_flatMap (show _ = [(n, some t.default)] by rw [TrapTable.writes, if_pos rfl])
    fun s hs b hb => ?_
  have hpart := hl s hs
  cases s with
  | setEntry t' i =>
    rw [TrapTable.writes] at hb
    split at hb
    · rename_i ht
      rw [ht, (Prod.mk.inj (List.mem_singleton.mp hb)).1]
    · cases hb
  | clear k => cases hpart
  | registerBreakpoint => cases hpart
  | _ => cases hb

theorem lastWrite_after (hl : ∀ s ∈ l, s.part = .rest) :
    lastWrite (l.flatMap (t.writes (E := E) layout)) n =
      if t = .exception ∧ n = causeBreakpoint ∧ BootStep.registerBreakpoint ∈ l then some (some .ebreak)
      else none := by
  have honly : ∀ s ∈ l, ∀ b, (n, b) ∈ t.writes (E := E) layout s →
      s = .registerBreakpoint ∧ t = .exception ∧ n = causeBreakpoint := by
    intro s hs b hb
    have hpart := hl s hs
    cases s with
    | registerBreakpoint =>
      rw [TrapTable.writes] at hb
      split at hb
      · rename_i ht
        exact ⟨rfl, ht, (Prod.mk.inj (List.mem_singleton.mp hb)).1⟩
      · cases hb
    | clear k => cases hpart
    | setEntry t' i => cases hpart
    | _ => cases hb
  by_cases h : t = .exception ∧ n = causeBreakpoint
  · have hself : t.writes (E := E) layout .registerBreakpoint = [(n, some .ebreak)] := by
      rw [TrapTable.writes, if_pos h.1, h.2]
    rw [lastWrite_flatMap hself fun s hs b hb => (honly s hs b hb).1]
    simp only [h.1, h.2, true_and]
  · rw [if_neg fun h' => h ⟨h'.1, h'.2.1⟩]
    refine lastWrite_eq_none fun w hw hwn => h ?_
    obtain ⟨s, hs, hw⟩ := List.mem_flatMap.mp hw
    exact (honly s hs w.2 (by rwa [← hwn])).2

theorem lastWrite_boot (m : Nat) (hn : n.toNat < 16) :
    lastWrite (((boot layout).take m).flatMap (t.writes (E := E) layout)) n =
      if t = .exception ∧ n = causeBreakpoint ∧ BootStep.registerBreakpoint ∈ (boot layout).take m then
        some (some .ebreak)
      else if BootStep.setEntry t n ∈ (boot layout).take m then some (some t.default)
      else if BootStep.clear (t.base layout + n.toNat) ∈ (boot layout).take m then some none
      else none := by
  obtain ⟨clears, inits, after, hcut⟩ := take_boot layout m
  have hbreak : BootStep.registerBreakpoint ∈ (boot layout).take m ↔ .registerBreakpoint ∈ after := hcut.mem _
  have hset : BootStep.setEntry t n ∈ (boot layout).take m ↔ .setEntry t n ∈ inits := hcut.mem _
  have hclear : BootStep.clear (t.base layout + n.toNat) ∈ (boot layout).take m ↔
      .clear (t.base layout + n.toNat) ∈ clears := hcut.mem _
  simp only [hbreak, hset, hclear]
  rw [hcut.eq, List.flatMap_append, List.flatMap_append, lastWrite_append, lastWrite_append,
    lastWrite_clears t layout hcut.clearing hn, lastWrite_inits t layout hcut.filling,
    lastWrite_after t layout hcut.rest]
  split
  · rfl
  · split <;> rfl

/-- `ebreak_handler` is registered over an entry already set. -/
theorem setEntry_of_breakpoint {m : Nat} (h : BootStep.registerBreakpoint ∈ (boot layout).take m) :
    BootStep.setEntry .exception causeBreakpoint ∈ (boot layout).take m := by
  obtain ⟨clears, inits, after, hcut⟩ := take_boot layout m
  have hafter : BootStep.registerBreakpoint ∈ after := (hcut.mem _).mp h
  refine (hcut.mem _).mpr ?_
  show BootStep.setEntry .exception causeBreakpoint ∈ inits
  rw [hcut.filled (List.ne_nil_of_mem hafter)]
  decide

end

/-! ### Which handler ran -/

/-- Where a trap comes back to, if it does; and if not, how many messages it left. -/
def Trap.mark (trap : Trap E H) : Word ⊕ Nat :=
  match trap.frame with
  | some frame => .inl frame.sepc
  | none => .inr trap.output.length

/-- Code whose handlers hang without a word, but for one that comes back at once. -/
def hanging (returns : E → Bool) : Code E H where
  exception e frame kernel := ⟨if returns e then some frame else none, kernel, []⟩
  syscall _ _ kernel := ⟨none, kernel, []⟩

section
variable (code : Code E H) (frame : TrapFrame) (kernel : Kernel E H)

@[simp] theorem mark_defaultException : (ExceptionHandler.defaultException.trap code frame kernel).mark = .inr 8 := rfl

@[simp] theorem mark_defaultInterrupt :
    (ExceptionHandler.defaultInterrupt.trap code frame kernel).mark = .inl frame.sepc := by
  unfold Trap.mark ExceptionHandler.trap
  simp only [defaultInterruptHandler_result]

@[simp] theorem mark_ebreak : (ExceptionHandler.ebreak.trap code frame kernel).mark = .inl (frame.sepc + 4) := rfl

@[simp] theorem mark_registered (returns : E → Bool) (e : E) :
    ((ExceptionHandler.registered e).trap (hanging returns) frame kernel).mark =
      if returns e then .inl frame.sepc else .inr 1 := by
  unfold Trap.mark ExceptionHandler.trap hanging
  by_cases he : returns e = true
  · simp only [if_pos he]
  · simp only [if_neg he]
    rfl

end

/-- What a trap comes to tells which handler ran. -/
theorem trap_injective {frame : TrapFrame} {kernel : Kernel E H} {handler handler' : ExceptionHandler E}
    (h : ∀ code : Code E H, handler.trap code frame kernel = handler'.trap code frame kernel) :
    handler = handler' := by
  have hmark (returns : E → Bool) := congrArg Trap.mark (h (hanging returns))
  have hhang := hmark fun _ => false
  cases handler with
  | defaultException => cases handler' <;> simp at hhang ⊢
  | defaultInterrupt => cases handler' <;> simp at hhang ⊢
  | ebreak => cases handler' <;> simp at hhang ⊢
  | registered e =>
    cases handler' with
    | registered e' =>
      classical
      have he := hmark fun x => decide (x = e)
      rw [mark_registered, mark_registered, if_pos (decide_eq_true rfl)] at he
      by_contra hne
      have he' : ¬ e' = e := fun heq => hne (congrArg _ heq.symm)
      rw [decide_eq_false he'] at he
      cases he
    | _ => simp at hhang

/-- A trap is the run of a handler, whatever the handlers do, exactly when its entry holds
that one. -/
theorem handleException_iff (frame : TrapFrame) (kernel : Kernel E H) (handler : ExceptionHandler E) :
    (∀ code, handleException code frame kernel = some (handler.trap code frame kernel)) ↔
      exceptionTarget kernel frame.scause = some handler := by
  constructor
  · intro h
    cases htarget : exceptionTarget kernel frame.scause with
    | none =>
      have := h (hanging fun _ => false)
      rw [handleException_trap, htarget] at this
      cases this
    | some handler' =>
      have heq : handler' = handler := trap_injective fun code => by
        have := h code
        rw [handleException_trap, htarget] at this
        exact Option.some.inj this
      rw [heq]
  · intro h code
    rw [handleException_trap, h, Option.map_some]

/-! ### A trap at any point -/

section
variable (image : KernelImage H) (tables : Tables E H) (m : Nat) (kernel : Kernel E H)
  (calls : List (TableCall E))

/-- A kernel whose tables are what the calls leave of the boot's. -/
def Kernel.Called (kernel : Kernel E H) : Prop :=
  ∀ t : TrapTable, kernel.trap t =
    (t.calls calls).foldl (fun table w => table.put w.1 w.2)
      ((booted image tables ((boot image.bss).take m)).trap t)

section
variable {kernel' : Kernel E H} (hkernel : kernel'.Called image tables m calls) (t : TrapTable) {n : Word}
  (hn : n.toNat < 16)
include hkernel hn

/-- What an entry holds then. -/
theorem entry_read : (kernel'.trap t).read n = (lastWrite (t.calls calls) n).or
    ((lastWrite (((boot image.bss).take m).flatMap (t.writes image.bss)) n).or ((tables.trap t).read n)) := by
  have hboot := (Table.follows_nil (tables.trap t)).puts
    (((boot image.bss).take m).flatMap (t.writes image.bss))
  rw [← booted_trap, List.nil_append] at hboot
  rw [hkernel, hboot.puts (t.calls calls) n hn, lastWrite_append, Option.or_assoc]

/-- An entry holds the handler it should exactly when it is armed. -/
theorem entry_iff : ((kernel'.trap t).read n).join =
      some ((t.registered ((boot image.bss).take m) calls n).getD t.default) ↔
    t.Armed image.bss tables ((boot image.bss).take m) calls n := by
  rw [entry_read image tables m calls hkernel t hn, lastWrite_boot t image.bss m hn]
  unfold TrapTable.registered TrapTable.Armed
  cases lastWrite (t.calls calls) n with
  | some handler =>
    cases handler with
    | some h => exact ⟨fun _ => Option.some_ne_none h, fun _ => rfl⟩
    | none => exact ⟨fun h => absurd h (Option.some_ne_none _).symm, fun h => absurd rfl h⟩
  | none =>
    simp only [Option.none_or]
    by_cases hbreak : t = .exception ∧ n = causeBreakpoint ∧
        BootStep.registerBreakpoint ∈ (boot image.bss).take m
    · obtain ⟨rfl, rfl, hmem⟩ := hbreak
      rw [if_pos ⟨rfl, rfl, hmem⟩, if_pos ⟨rfl, rfl, hmem⟩]
      exact ⟨fun _ => .inl (setEntry_of_breakpoint image.bss hmem), fun _ => rfl⟩
    · rw [if_neg hbreak, if_neg hbreak]
      by_cases hset : BootStep.setEntry t n ∈ (boot image.bss).take m
      · rw [if_pos hset]
        exact ⟨fun _ => .inl hset, fun _ => rfl⟩
      · rw [if_neg hset]
        by_cases hclear : BootStep.clear (t.base image.bss + n.toNat) ∈ (boot image.bss).take m
        · rw [if_pos hclear]
          exact ⟨fun h => absurd h (Option.some_ne_none _).symm,
            fun h => (h.resolve_left hset).1.elim hclear⟩
        · rw [if_neg hclear, Option.none_or, Option.getD_none]
          exact ⟨fun h => .inr ⟨hclear, Option.join_eq_some_iff.mp h⟩,
            fun h => Option.join_eq_some_iff.mpr (h.resolve_left hset).2⟩

end

/-- The entry a cause is for, behind its check. -/
theorem exceptionTarget_eq (kernel : Kernel E H) (cause : Word) :
    exceptionTarget kernel cause =
      if (entryOf cause).2.toNat < 16 then ((kernel.trap (entryOf cause).1).read (entryOf cause).2).join
      else some (entryOf cause).1.default := by
  unfold exceptionTarget entryOf
  by_cases hbit : cause.msb = true
  · rw [if_pos ((and_interruptBit _).mpr hbit), if_pos hbit, ← and_not_interruptBit hbit]
    rfl
  · rw [if_neg (fun hne => hbit ((and_interruptBit _).mp hne)), if_neg hbit]
    rfl

/-- **A trap at any point of the boot**, after any registrations, null ones included, is
the run of the handler it is for exactly when its entry is armed. A syscall is always
the run of some handler. -/
theorem boot_trap_iff :
    ∃ kernel', run tableCall (kernel.install (booted image tables ((boot image.bss).take m))) calls =
        some kernel' ∧
      (∀ frame, (∀ code, handleException code frame kernel' =
          some ((intended ((boot image.bss).take m) calls frame.scause).trap code frame kernel')) ↔
        Armed image.bss tables ((boot image.bss).take m) calls frame.scause) ∧
      ∀ frame, ∃ handler : SyscallHandler H, ∀ code,
        handleSyscall code frame kernel' = some (handler.trap code frame kernel') := by
  obtain ⟨kernel', hrun, htrap⟩ :=
    tableCalls_trap (kernel.install (booted image tables ((boot image.bss).take m))) calls
  have hcalled : kernel'.Called image tables m calls := fun t => by rw [htrap t, install_trap]
  refine ⟨kernel', hrun, fun frame => ?_, fun frame => ⟨syscallTarget kernel' (frame.x Reg.a7), fun code => ?_⟩⟩
  · rw [handleException_iff, exceptionTarget_eq]
    unfold intended Armed
    by_cases hn : (entryOf frame.scause).2.toNat < 16
    · simp only [if_pos hn]
      rw [entry_iff image tables m calls hcalled (entryOf frame.scause).1 hn]
      exact ⟨.inr, fun h => h.resolve_left (Nat.not_le_of_lt hn)⟩
    · simp only [if_neg hn]
      exact ⟨fun _ => .inl (Nat.le_of_not_lt hn), fun _ => trivial⟩
  · rw [handleSyscall_eq, callSyscall_trap]

end

end

/-! ### Entries that are null -/

/-- A placement of the tables at the start of `.bss`. -/
def tablesFirst : KernelImage Entry.KernelSyscall where
  bss :=
    { words := 288
      exceptions := 0
      interrupts := 16
      syscalls := 32
      exceptions_in := by decide
      interrupts_in := by decide
      syscalls_in := by decide }
  sysPutchar := .sysPutchar
  sysPuts := .sysPuts

/-- Tables in memory that is zero at power-on. -/
def zeroTables : Tables Empty Entry.KernelSyscall where
  exceptions := .replicate 16 none
  interrupts := .replicate 16 none
  syscalls := .replicate 256 none

/-- The frame of an illegal instruction. -/
def illegalFrame : TrapFrame where
  x := fun _ => 0
  f := fun _ => 0
  sepc := 0x80200000
  scause := causeIllegalInstruction
  stval := 0
  sstatus := 0
  fcsr := 0

/-- An illegal instruction just after `csrw stvec`, and one after the boot and a null
registration, call through a null entry. -/
theorem boot_trap_null :
    handleException Entry.kernelCode illegalFrame
        (Entry.emptyKernel.install (booted tablesFirst zeroTables ((boot tablesFirst.bss).take 0))) = none ∧
      ∃ kernel, run tableCall
          (Entry.emptyKernel.install
            (booted tablesFirst zeroTables ((boot tablesFirst.bss).take (boot tablesFirst.bss).length)))
          [⟨.exception, causeIllegalInstruction, none⟩] = some kernel ∧
        handleException Entry.kernelCode illegalFrame kernel = none := by
  refine ⟨by rw [handleException_eq]; rfl, _,
    (run_singleton _ _).trans (registerExceptionHandler_eq _ _ _), ?_⟩
  rw [handleException_eq, exceptionTarget_eq]
  show Option.map _ (Table.read (Table.put _ causeIllegalInstruction none) causeIllegalInstruction).join = none
  rw [Table.read_put _ _ _ (by decide), if_pos rfl]
  rfl

end Testos.Exception
