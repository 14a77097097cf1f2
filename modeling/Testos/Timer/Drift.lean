import Testos.Timer

/-! How far the tick clock drifts.

Every interrupt re-arms the timer one period after the time the handler reads, not
one period after the deadline it was serving, so what an interrupt is late by is
never made up. `tick_iff` gives the price: a tick stands for its own period exactly
when the latencies of all interrupts before it, with its own, stay below one period.

Time is a natural number here and the `time` register shows it modulo 2^64. -/
namespace Testos.Timer
open Foundation

/-- How late an interrupt gets to `timer_handler`, and from there to the reading of
`time` that the next deadline is counted from; both after its own deadline. -/
structure Latency where
  entry : Nat
  reading : Nat
  ordered : entry ≤ reading

/-- The timer between interrupts: the time last read to arm it, and the globals. -/
structure Armed where
  last : Nat
  globals : Globals

/-- The `time` register at a time. -/
def readTime (t : Nat) : Word := BitVec.ofNat 64 t

/-- When the register next shows the deadline. -/
def due (s : Armed) : Nat := s.last + (s.globals.deadline - readTime s.last).toNat

/-- The timer after `timer_enable` at time `t0`. -/
def enabled (t0 : Nat) (g : Globals) : Armed := ⟨t0, (timerEnable (readTime t0) g).1⟩

/-- The timer after an interrupt. -/
def interrupt (s : Armed) (l : Latency) : Armed :=
  ⟨due s + l.reading, (timerHandler (readTime (due s + l.reading)) s.globals).1⟩

/-- The timer after interrupts, one after the other. -/
def interrupted (t0 : Nat) (g : Globals) (ls : List Latency) : Armed :=
  ls.foldl interrupt (enabled t0 g)

/-- One tick, in units of the `time` register. -/
def period (g : Globals) : Nat := (g.gTimerFrequency / timerFrequencyHz).toNat

/-- What the readings so far came late by, in all. -/
def lag (ls : List Latency) : Nat := (ls.map Latency.reading).sum

/-- The `k`-th call of the handler, at time `t`, falls in the `k`-th period after
`t0`, and the tick count it leaves is the number of periods elapsed. -/
structure OnTick (t0 period k t : Nat) (ticks : Word) : Prop where
  lower : t0 + k * period ≤ t
  upper : t < t0 + (k + 1) * period
  count : ticks = BitVec.ofNat 64 ((t - t0) / period)

theorem interrupted_concat (t0 : Nat) (g : Globals) (ls : List Latency) (l : Latency) :
    interrupted t0 g (ls ++ [l]) = interrupt (interrupted t0 g ls) l := by
  simp [interrupted]

/-! ### What an interrupt does to the clock -/

/-- The handler counts one tick and arms the timer from the time it reads. -/
theorem timerHandler_arms (now : Word) (g : Globals) :
    (timerHandler now g).1.gSystemTicks = g.gSystemTicks + 1 ∧
      (timerHandler now g).1.gTimerFrequency = g.gTimerFrequency ∧
      (timerHandler now g).1.deadline = now + g.gTimerFrequency / timerFrequencyHz := by
  have hsecond : (countSecond (countTick g)).1.gSystemTicks = (countTick g).gSystemTicks ∧
      (countSecond (countTick g)).1.gTimerFrequency = (countTick g).gTimerFrequency := by
    unfold countSecond
    split <;> exact ⟨rfl, rfl⟩
  obtain ⟨hticks, hfrequency⟩ := hsecond
  refine ⟨hticks, hfrequency, ?_⟩
  show now + (countSecond (countTick g)).1.gTimerFrequency / timerFrequencyHz = _
  rw [hfrequency]
  rfl

/-- A deadline counted from a reading is a period after it. -/
theorem due_of_deadline {s : Armed} {ticks : Word} (h : s.globals.deadline = readTime s.last + ticks) :
    due s = s.last + ticks.toNat := by
  have hsub : readTime s.last + ticks - readTime s.last = ticks := by
    rw [BitVec.add_comm, BitVec.add_sub_cancel]
  rw [due, h, hsub]

/-- The clock after `k` interrupts with a total latency of `late`. -/
structure Drifted (t0 : Nat) (g : Globals) (k late : Nat) (s : Armed) : Prop where
  last : s.last = t0 + k * period g + late
  due : due s = s.last + period g
  frequency : s.globals.gTimerFrequency = g.gTimerFrequency
  ticks : s.globals.gSystemTicks = g.gSystemTicks + BitVec.ofNat 64 k

theorem enabled_drifted (t0 : Nat) (g : Globals) : Drifted t0 g 0 0 (enabled t0 g) :=
  ⟨by simp [enabled], due_of_deadline rfl, rfl, (BitVec.add_zero _).symm⟩

/-- One more interrupt adds its latency. -/
theorem interrupt_drifted {t0 k late : Nat} {g : Globals} {s : Armed} (h : Drifted t0 g k late s)
    (l : Latency) : Drifted t0 g (k + 1) (late + l.reading) (interrupt s l) := by
  obtain ⟨hticks, hfrequency, hdeadline⟩ :=
    timerHandler_arms (readTime (due s + l.reading)) s.globals
  refine ⟨?_, ?_, ?_, ?_⟩
  · show due s + l.reading = t0 + (k + 1) * period g + (late + l.reading)
    rw [h.due, h.last, Nat.succ_mul]
    omega
  · rw [h.frequency] at hdeadline
    exact due_of_deadline hdeadline
  · exact hfrequency.trans h.frequency
  · show (timerHandler (readTime (due s + l.reading)) s.globals).1.gSystemTicks = _
    rw [hticks, h.ticks, BitVec.ofNat_add, BitVec.add_assoc]
    rfl

theorem interrupted_drifted (t0 : Nat) (g : Globals) (ls : List Latency) :
    Drifted t0 g ls.length (lag ls) (interrupted t0 g ls) := by
  induction ls using List.reverseRecOn with
  | nil => exact enabled_drifted t0 g
  | append_singleton ls l ih =>
    have hlag : lag (ls ++ [l]) = lag ls + l.reading := by simp [lag]
    rw [interrupted_concat, List.length_append, hlag]
    exact interrupt_drifted ih l

/-- **The tick clock drifts.** In every run whose interrupts are each served within a
period of their deadline, a call of the handler falls in its own period, and leaves
the count of periods elapsed, exactly when the latencies before it and its own stay
below one period. -/
theorem tick_iff (t0 : Nat) (g : Globals) (ls : List Latency) (l : Latency)
    (hticks : g.gSystemTicks = 0) (hserved : ∀ x ∈ ls ++ [l], x.reading < period g) :
    OnTick t0 (period g) (ls.length + 1) (due (interrupted t0 g ls) + l.entry)
        (timerGetSystemTicks (interrupted t0 g (ls ++ [l])).globals) ↔
      lag ls + l.entry < period g := by
  have hdrift := interrupted_drifted t0 g ls
  have hafter := interrupted_drifted t0 g (ls ++ [l])
  have hpos : 0 < period g := Nat.zero_lt_of_lt (hserved l (by simp))
  have htime : due (interrupted t0 g ls) + l.entry =
      t0 + (ls.length + 1) * period g + (lag ls + l.entry) := by
    rw [hdrift.due, hdrift.last, Nat.succ_mul]
    omega
  have hnext : t0 + (ls.length + 1 + 1) * period g =
      t0 + (ls.length + 1) * period g + period g := by
    rw [Nat.succ_mul (ls.length + 1), Nat.add_assoc]
  constructor
  · intro hon
    have hupper := hon.upper
    rw [htime, hnext] at hupper
    omega
  · intro hlate
    refine ⟨by omega, by omega, ?_⟩
    have hperiods : (due (interrupted t0 g ls) + l.entry - t0) / period g = ls.length + 1 := by
      rw [htime, Nat.add_assoc, Nat.add_sub_cancel_left, Nat.mul_comm, Nat.mul_add_div hpos,
        Nat.div_eq_of_lt hlate, Nat.add_zero]
    rw [timerGetSystemTicks, hafter.ticks, hticks, hperiods, List.length_append]
    exact BitVec.zero_add _

/-- Two interrupts, a tenth of a period late each. -/
theorem tick_iff_prompt :
    OnTick 5000 (period {}) 2 (due (interrupted 5000 {} [⟨9000, 10000, by decide⟩]) + 9000)
        (timerGetSystemTicks
          (interrupted 5000 {} [⟨9000, 10000, by decide⟩, ⟨9000, 10000, by decide⟩]).globals) ↔
      lag [⟨9000, 10000, by decide⟩] + 9000 < period {} :=
  tick_iff 5000 {} [⟨9000, 10000, by decide⟩] ⟨9000, 10000, by decide⟩ rfl (by decide)

/-- Six tenths of a default period. -/
def late : Latency := ⟨60000, 60000, by decide⟩

/-- Two interrupts late by that much, each well within its period, put the second tick
into the third period. -/
theorem tick_drifts : (∀ x ∈ [late, late], x.reading < period {}) ∧
    ¬ OnTick 0 (period {}) 2 (due (interrupted 0 {} [late]) + late.entry)
      (timerGetSystemTicks (interrupted 0 {} [late, late]).globals) := by
  refine ⟨by decide, fun hon => ?_⟩
  exact absurd hon.upper (by decide)

end Testos.Timer
