import Mathlib.Data.List.DropRight
import Testos.Console

/-! The timer module, `timer.c`.

A timer interrupt bumps two tick counts, the statistics, and once in a hundred the
seconds; resets clear the statistics and nothing else. `bookkeeping` says what the
counters are worth after any sequence of calls: the two clocks agree, and the
statistics describe the interrupts since the last reset.

The supervisor's `sie` register and the deadline the firmware holds stand with the
globals; the time a call reads from the `time` register is its argument. -/
namespace Testos.Timer
open Foundation

/-- `TIMER_FREQ_HZ`. -/
def timerFreqHz : Word := 10000000

/-- `TIMER_TICK_MS`. -/
def timerTickMs : Word := 10

/-- `TIMER_FREQUENCY_HZ`. -/
def timerFrequencyHz : Word := 1000 / timerTickMs

/-- `SIE_STIE`. -/
def sieStie : Word := 1 <<< 5

/-- `timer_stats_t`. -/
structure TimerStats where
  totalInterrupts : Word := 0
  totalSeconds : Word := 0
  lastInterruptTime : Word := 0
deriving DecidableEq

/-- The module's globals, with the two registers it drives. -/
structure Globals where
  gSystemTicks : Word := 0
  gTimerFrequency : Word := timerFreqHz
  gUptimeSeconds : Word := 0
  gTickCounter : BitVec 32 := 0
  gTimerStats : TimerStats := {}
  sie : Word := 0
  deadline : Word := 0
deriving DecidableEq

/-! ### The functions -/

/-- `timer_get_system_ticks`. -/
def timerGetSystemTicks (g : Globals) : Word := g.gSystemTicks

/-- `timer_get_uptime_ms`. -/
def timerGetUptimeMs (g : Globals) : Word := g.gSystemTicks * timerTickMs

/-- `timer_get_uptime_seconds`. -/
def timerGetUptimeSeconds (g : Globals) : Word := g.gUptimeSeconds

/-- `timer_reset_stats`. -/
def timerResetStats (g : Globals) : Globals := { g with gTimerStats := {} }

/-- `timer_disable`. -/
def timerDisable (g : Globals) : Globals × List Event :=
  ({ g with sie := g.sie &&& ~~~sieStie }, [loggerInfo (.lit "Timer disabled\n") []])

/-- `timer_init`. -/
def timerInit (g : Globals) : Globals × List Event :=
  let (g', disabled) := timerDisable g
  (timerResetStats g',
    [loggerInfo (.lit "Timer initialization:\n") [],
     loggerInfo (.lit "  Timer frequency: %llu Hz\n") [.word g.gTimerFrequency],
     loggerInfo (.lit "  Target frequency: %d Hz\n") [.word timerFrequencyHz],
     loggerInfo (.lit "  Tick interval: %d ms\n") [.word timerTickMs]] ++ disabled ++
    [loggerInfo (.lit "Timer initialized successfully\n") []])

/-- `timer_set_next_interrupt`. -/
def timerSetNextInterrupt (now ticksFromNow : Word) (g : Globals) : Globals :=
  { g with deadline := now + ticksFromNow }

/-- `timer_enable`. -/
def timerEnable (now : Word) (g : Globals) : Globals × List Event :=
  let ticksPerInterrupt := g.gTimerFrequency / timerFrequencyHz
  let g' := timerSetNextInterrupt now ticksPerInterrupt g
  ({ g' with sie := g'.sie ||| sieStie },
    [loggerDebug (.lit "Starting timer_enable...\n") [],
     loggerInfo (.lit "Timer enabled with %llu ticks per interrupt\n") [.word ticksPerInterrupt],
     loggerDebug (.lit "Setting next interrupt...\n") [],
     loggerDebug (.lit "Interrupt time set, enabling MTIE...\n") [],
     loggerInfo (.lit "Machine timer interrupt enabled\n") []])

/-- `timer_schedule_next_tick`. -/
def timerScheduleNextTick (now : Word) (g : Globals) : Globals :=
  timerSetNextInterrupt now (g.gTimerFrequency / timerFrequencyHz) g

/-- The first half of `timer_handler`: the ticks and the statistics. -/
def countTick (g : Globals) : Globals :=
  let g := { g with gSystemTicks := g.gSystemTicks + 1, gTickCounter := g.gTickCounter + 1 }
  { g with
    gTimerStats := { g.gTimerStats with
      totalInterrupts := g.gTimerStats.totalInterrupts + 1
      lastInterruptTime := timerGetUptimeMs g } }

/-- The second half: once the counter reaches a second's worth of ticks, the seconds. -/
def countSecond (g : Globals) : Globals × List Event :=
  if g.gTickCounter.setWidth 64 ≥ timerFrequencyHz then
    ({ g with
        gUptimeSeconds := g.gUptimeSeconds + 1
        gTickCounter := 0
        gTimerStats := { g.gTimerStats with totalSeconds := g.gUptimeSeconds + 1 } },
      [loggerInfo (.lit "System running - Uptime: %llus\n") [.word (g.gUptimeSeconds + 1)]])
  else (g, [])

/-- `timer_handler`. -/
def timerHandler (now : Word) (g : Globals) : Globals × List Event :=
  let (g', output) := countSecond (countTick g)
  (timerScheduleNextTick now g', output)

/-! ### Runs -/

/-- A call of the module. -/
inductive Call where
  | timerHandler (now : Word)
  | timerInit
  | timerEnable (now : Word)
  | timerDisable
  | timerResetStats
deriving DecidableEq

def Call.isHandler : Call → Bool
  | .timerHandler _ => true
  | _ => false

/-- The calls that reset the statistics. -/
def Call.isReset : Call → Bool
  | .timerInit | .timerResetStats => true
  | _ => false

def step (g : Globals) : Call → Globals
  | .timerHandler now => (timerHandler now g).1
  | .timerInit => (timerInit g).1
  | .timerEnable now => (timerEnable now g).1
  | .timerDisable => (timerDisable g).1
  | .timerResetStats => timerResetStats g

/-- The globals after the calls, from their initial values. -/
def after (calls : List Call) : Globals := calls.foldl step {}

theorem after_concat (calls : List Call) (c : Call) : after (calls ++ [c]) = step (after calls) c := by
  simp [after]

/-- The handler calls of a run. -/
def handled (calls : List Call) : Nat := calls.countP Call.isHandler

/-- The calls after the last reset. -/
def sinceReset (calls : List Call) : List Call := calls.rtakeWhile fun c => !c.isReset

/-- The run up to its latest handler call. -/
def upToHandler (calls : List Call) : List Call := calls.rdropWhile fun c => !c.isHandler

/-- What `last_interrupt_time` records: the uptime as of the latest handler call, if
there was one since the last reset. -/
def lastHandled (calls : List Call) : Word :=
  if (sinceReset calls).any Call.isHandler then timerGetUptimeMs (after (upToHandler calls)) else 0

theorem handled_concat (calls : List Call) (c : Call) :
    handled (calls ++ [c]) = handled calls + if c.isHandler then 1 else 0 := by
  simp [handled, List.countP_append, List.countP_cons]

theorem sinceReset_concat (calls : List Call) (c : Call) :
    sinceReset (calls ++ [c]) = if c.isReset then [] else sinceReset calls ++ [c] := by
  cases h : c.isReset <;> simp [sinceReset, h]

theorem upToHandler_concat (calls : List Call) (c : Call) :
    upToHandler (calls ++ [c]) = if c.isHandler then calls ++ [c] else upToHandler calls := by
  cases h : c.isHandler <;> simp [upToHandler, h]

/-! ### What a call does to the counters -/

/-- The clocks after `n` handler calls. -/
structure Clocks (n : Nat) (g : Globals) : Prop where
  ticks : g.gSystemTicks.toNat = n
  counter : g.gTickCounter.toNat < 100
  split : g.gSystemTicks.toNat = 100 * g.gUptimeSeconds.toNat + g.gTickCounter.toNat

/-- Only the handler moves the clocks. -/
theorem step_clocks {n : Nat} {g : Globals} (h : Clocks n g) {c : Call} (hc : c.isHandler = false) :
    Clocks n (step g c) := by
  obtain ⟨hticks, hcounter, hsplit⟩ := h
  cases c with
  | timerHandler now => cases hc
  | timerInit | timerEnable now | timerDisable | timerResetStats => exact ⟨hticks, hcounter, hsplit⟩

theorem countTick_clocks {n : Nat} {g : Globals} (h : Clocks n g) (hn : n + 1 < 2 ^ 64) :
    (countTick g).gSystemTicks.toNat = n + 1 ∧
      (countTick g).gTickCounter.toNat = g.gTickCounter.toNat + 1 ∧
      (countTick g).gUptimeSeconds = g.gUptimeSeconds := by
  obtain ⟨hticks, hcounter, _⟩ := h
  refine ⟨?_, ?_, rfl⟩
  · show (g.gSystemTicks + 1).toNat = n + 1
    rw [BitVec.toNat_add, hticks]
    exact Nat.mod_eq_of_lt hn
  · show (g.gTickCounter + 1).toNat = g.gTickCounter.toNat + 1
    rw [BitVec.toNat_add]
    exact Nat.mod_eq_of_lt (show g.gTickCounter.toNat + 1 < 2 ^ 32 by omega)

/-- The handler moves both clocks on by one tick. -/
theorem timerHandler_clocks {n : Nat} {g : Globals} (h : Clocks n g) (hn : n + 1 < 2 ^ 64)
    (now : Word) : Clocks (n + 1) (timerHandler now g).1 := by
  obtain ⟨hticks, hcounter, hseconds⟩ := countTick_clocks h hn
  have hsplit := h.split
  have hbefore := h.ticks
  have hlimit := h.counter
  suffices hclocks : Clocks (n + 1) (countSecond (countTick g)).1 from
    ⟨hclocks.ticks, hclocks.counter, hclocks.split⟩
  have hwide : ((countTick g).gTickCounter.setWidth 64).toNat = g.gTickCounter.toNat + 1 := by
    rw [BitVec.toNat_setWidth, hcounter]
    exact Nat.mod_eq_of_lt (by omega)
  have hhz : timerFrequencyHz.toNat = 100 := rfl
  by_cases hfull : (countTick g).gTickCounter.setWidth 64 ≥ timerFrequencyHz
  · have hnat : 100 ≤ g.gTickCounter.toNat + 1 := by
      rw [← hhz, ← hwide]
      exact hfull
    rw [countSecond, if_pos hfull]
    have hup : (g.gUptimeSeconds + 1).toNat = g.gUptimeSeconds.toNat + 1 := by
      rw [BitVec.toNat_add]
      exact Nat.mod_eq_of_lt (show g.gUptimeSeconds.toNat + 1 < 2 ^ 64 by omega)
    refine ⟨hticks, Nat.zero_lt_succ 99, ?_⟩
    show (countTick g).gSystemTicks.toNat = 100 * ((countTick g).gUptimeSeconds + 1).toNat + 0
    rw [hseconds, hup, hticks]
    omega
  · have hnat : ¬ 100 ≤ g.gTickCounter.toNat + 1 := by
      rw [← hhz, ← hwide]
      exact hfull
    rw [countSecond, if_neg hfull]
    have hroom : (countTick g).gTickCounter.toNat < 100 := by omega
    refine ⟨hticks, hroom, ?_⟩
    show (countTick g).gSystemTicks.toNat =
      100 * (countTick g).gUptimeSeconds.toNat + (countTick g).gTickCounter.toNat
    rw [hseconds, hticks, hcounter]
    omega

/-- What the handler leaves in the statistics that resets clear. -/
theorem timerHandler_stats (now : Word) (g : Globals) :
    (timerHandler now g).1.gTimerStats.totalInterrupts = g.gTimerStats.totalInterrupts + 1 ∧
      (timerHandler now g).1.gTimerStats.lastInterruptTime =
        timerGetUptimeMs (timerHandler now g).1 := by
  have hsecond : ∀ g' : Globals,
      (countSecond g').1.gTimerStats.totalInterrupts = g'.gTimerStats.totalInterrupts ∧
        (countSecond g').1.gTimerStats.lastInterruptTime = g'.gTimerStats.lastInterruptTime ∧
        (countSecond g').1.gSystemTicks = g'.gSystemTicks := by
    intro g'
    unfold countSecond
    split <;> exact ⟨rfl, rfl, rfl⟩
  obtain ⟨htotal, hlast, hticks⟩ := hsecond (countTick g)
  refine ⟨htotal, ?_⟩
  show (countSecond (countTick g)).1.gTimerStats.lastInterruptTime =
    (countSecond (countTick g)).1.gSystemTicks * timerTickMs
  rw [hlast, hticks]
  rfl

/-! ### The invariant -/

/-- What the counters are worth after the calls. -/
structure Booked (calls : List Call) (g : Globals) : Prop where
  clocks : Clocks (handled calls) g
  total : g.gTimerStats.totalInterrupts.toNat = handled (sinceReset calls)
  last : g.gTimerStats.lastInterruptTime = lastHandled calls

theorem handled_sinceReset_le (calls : List Call) : handled (sinceReset calls) ≤ handled calls :=
  List.Sublist.countP_le (List.rtakeWhile_suffix _ calls).sublist

/-- A call that is neither a handler nor a reset leaves the reference values alone. -/
theorem lastHandled_concat (calls : List Call) (c : Call) :
    lastHandled (calls ++ [c]) =
      if c.isReset then 0
      else if c.isHandler then timerGetUptimeMs (after (calls ++ [c]))
      else lastHandled calls := by
  unfold lastHandled
  rw [sinceReset_concat, upToHandler_concat]
  cases hr : c.isReset <;> cases hh : c.isHandler <;> simp [hh]

/-- One more call. -/
theorem booked_concat {calls : List Call} {c : Call} (h : Booked calls (after calls))
    (hn : 10 * handled (calls ++ [c]) < 2 ^ 64) : Booked (calls ++ [c]) (after (calls ++ [c])) := by
  obtain ⟨hclocks, htotal, hlast⟩ := h
  have hsince := handled_sinceReset_le calls
  have hlastc := lastHandled_concat calls c
  have hhandled := handled_concat calls c
  have hreset := sinceReset_concat calls c
  cases c with
  | timerHandler now =>
    have hcount : handled (calls ++ [.timerHandler now]) = handled calls + 1 := hhandled
    rw [after_concat] at hlastc ⊢
    obtain ⟨hinterrupts, htime⟩ := timerHandler_stats now (after calls)
    refine ⟨by rw [hcount]; exact timerHandler_clocks hclocks (by omega) now, ?_, ?_⟩
    · show (timerHandler now (after calls)).1.gTimerStats.totalInterrupts.toNat = _
      have hnew : sinceReset (calls ++ [.timerHandler now]) = sinceReset calls ++ [.timerHandler now] :=
        hreset
      rw [hinterrupts, hnew, handled_concat, BitVec.toNat_add, htotal]
      exact Nat.mod_eq_of_lt (show handled (sinceReset calls) + 1 < 2 ^ 64 by omega)
    · rw [hlastc]
      exact htime
  | timerInit | timerResetStats =>
    have hcount : handled (calls ++ [_]) = handled calls := hhandled
    rw [after_concat]
    refine ⟨by rw [hcount]; exact step_clocks hclocks rfl, ?_, hlastc.symm⟩
    rw [hreset]
    rfl
  | timerEnable now | timerDisable =>
    have hcount : handled (calls ++ [_]) = handled calls := hhandled
    rw [after_concat]
    refine ⟨by rw [hcount]; exact step_clocks hclocks rfl, ?_, ?_⟩
    · rw [hreset]
      show (after calls).gTimerStats.totalInterrupts.toNat = handled (sinceReset calls ++ [_])
      rw [handled_concat, htotal]
      rfl
    · rw [hlastc]
      exact hlast

theorem booked_after (calls : List Call) (hn : 10 * handled calls < 2 ^ 64) :
    Booked calls (after calls) := by
  induction calls using List.reverseRecOn with
  | nil => exact ⟨⟨rfl, by decide, rfl⟩, rfl, rfl⟩
  | append_singleton calls c ih =>
    have hle : handled calls ≤ handled (calls ++ [c]) := by
      rw [handled_concat]
      exact Nat.le_add_right _ _
    exact booked_concat (ih (by omega)) hn

/-- **The books of the timer.** After any calls with `n` handler calls among them,
while `10 * n` fits a word, the tick count is `n`, the two clocks agree, and the
statistics cover exactly the calls since the last reset. -/
theorem bookkeeping (calls : List Call) (hn : 10 * handled calls < 2 ^ 64) :
    (after calls).gSystemTicks.toNat = handled calls ∧
      (after calls).gTickCounter.toNat < 100 ∧
      (after calls).gSystemTicks.toNat =
        100 * (after calls).gUptimeSeconds.toNat + (after calls).gTickCounter.toNat ∧
      timerGetUptimeSeconds (after calls) = timerGetUptimeMs (after calls) / 1000 ∧
      (after calls).gTimerStats.totalInterrupts.toNat = handled (sinceReset calls) ∧
      (after calls).gTimerStats.lastInterruptTime = lastHandled calls := by
  obtain ⟨⟨hticks, hcounter, hsplit⟩, htotal, hlast⟩ := booked_after calls hn
  refine ⟨hticks, hcounter, hsplit, ?_, htotal, hlast⟩
  apply BitVec.eq_of_toNat_eq
  have hms : (timerGetUptimeMs (after calls)).toNat = 10 * handled calls := by
    rw [timerGetUptimeMs, BitVec.toNat_mul, hticks, Nat.mul_comm]
    exact Nat.mod_eq_of_lt hn
  have hthousand : (1000 : Word).toNat = 1000 := rfl
  rw [BitVec.toNat_udiv, hms, hthousand, timerGetUptimeSeconds]
  omega

/-- A run with a reset between ticks. -/
theorem bookkeeping_reset :
    (after [.timerEnable 7, .timerHandler 9, .timerInit, .timerHandler 20]).gTimerStats.lastInterruptTime =
      lastHandled [.timerEnable 7, .timerHandler 9, .timerInit, .timerHandler 20] :=
  (bookkeeping [.timerEnable 7, .timerHandler 9, .timerInit, .timerHandler 20] (by decide)).2.2.2.2.2

end Testos.Timer
