import Testos.Timer

/-! What `total_seconds` counts.

A reset clears the statistic, and the next full second sets it again, not to one but to
the seconds since the start. `total_seconds_iff`: it counts the seconds since the last
reset, as `total_interrupts` counts the interrupts, exactly when no second has passed
since then, or none had before. -/
namespace Testos.Timer
open Foundation

/-- How often the calls increment `g_uptime_seconds`. -/
def increments (g : Globals) : List Call → Nat
  | [] => 0
  | c :: rest =>
    (if (step g c).gUptimeSeconds = g.gUptimeSeconds then 0 else 1) + increments (step g c) rest

/-- The run up to its last reset, and that included. -/
def upToReset (calls : List Call) : List Call := calls.rdropWhile fun c => !c.isReset

/-- The full seconds' worth of handler calls. -/
def seconds (calls : List Call) : Nat := handled calls / 100

theorem upToReset_concat (calls : List Call) (c : Call) :
    upToReset (calls ++ [c]) = if c.isReset then calls ++ [c] else upToReset calls := by
  cases h : c.isReset <;> simp [upToReset, h]

theorem upToReset_sinceReset (calls : List Call) : upToReset calls ++ sinceReset calls = calls :=
  List.rdropWhile_append_rtakeWhile

/-! ### One call -/

section
variable (now : Word) {g : Globals}

/-- A tick within a second. -/
theorem timerHandler_tick (h : g.gTickCounter.toNat + 1 < 100) :
    (timerHandler now g).1.gTickCounter.toNat = g.gTickCounter.toNat + 1 ∧
      (timerHandler now g).1.gUptimeSeconds = g.gUptimeSeconds ∧
      (timerHandler now g).1.gTimerStats.totalSeconds = g.gTimerStats.totalSeconds := by
  have hcounter : (countTick g).gTickCounter.toNat = g.gTickCounter.toNat + 1 := by
    show (g.gTickCounter + 1).toNat = _
    rw [BitVec.toNat_add]
    exact Nat.mod_eq_of_lt (show g.gTickCounter.toNat + 1 < 2 ^ 32 by omega)
  have hhz : timerFrequencyHz.toNat = 100 := rfl
  have hpart : ¬ (countTick g).gTickCounter.setWidth 64 ≥ timerFrequencyHz := by
    rw [ge_iff_le, BitVec.le_def, BitVec.toNat_setWidth, hcounter, hhz]
    omega
  have hstay : (countSecond (countTick g)).1 = countTick g := by rw [countSecond, if_neg hpart]
  refine ⟨?_, ?_, ?_⟩
  · show (countSecond (countTick g)).1.gTickCounter.toNat = _
    rw [hstay, hcounter]
  · show (countSecond (countTick g)).1.gUptimeSeconds = _
    rw [hstay]
    rfl
  · show (countSecond (countTick g)).1.gTimerStats.totalSeconds = _
    rw [hstay]
    rfl

/-- The hundredth tick of a second. -/
theorem timerHandler_second (h : g.gTickCounter.toNat + 1 = 100) :
    (timerHandler now g).1.gTickCounter.toNat = 0 ∧
      (timerHandler now g).1.gUptimeSeconds = g.gUptimeSeconds + 1 ∧
      (timerHandler now g).1.gTimerStats.totalSeconds = g.gUptimeSeconds + 1 := by
  have hhz : timerFrequencyHz.toNat = 100 := rfl
  have hfull : (countTick g).gTickCounter.setWidth 64 ≥ timerFrequencyHz := by
    have hcounter : (countTick g).gTickCounter.toNat = 100 := by
      show (g.gTickCounter + 1).toNat = _
      rw [BitVec.toNat_add]
      exact (Nat.mod_eq_of_lt (show g.gTickCounter.toNat + 1 < 2 ^ 32 by omega)).trans h
    rw [ge_iff_le, BitVec.le_def, BitVec.toNat_setWidth, hcounter, hhz]
  refine ⟨?_, ?_, ?_⟩
  · show (countSecond (countTick g)).1.gTickCounter.toNat = 0
    rw [countSecond, if_pos hfull]
    rfl
  · show (countSecond (countTick g)).1.gUptimeSeconds = _
    rw [countSecond, if_pos hfull]
    rfl
  · show (countSecond (countTick g)).1.gTimerStats.totalSeconds = _
    rw [countSecond, if_pos hfull]
    rfl

end

/-- The globals after a run, as far as the seconds go: what the last reset left of the
statistic is overwritten at the first second after it. -/
structure Counted (calls : List Call) (g : Globals) : Prop where
  counter : g.gTickCounter.toNat = handled calls % 100
  uptime : g.gUptimeSeconds = BitVec.ofNat 64 (seconds calls)
  total : g.gTimerStats.totalSeconds =
    if seconds calls = seconds (upToReset calls) then 0 else BitVec.ofNat 64 (seconds calls)

theorem handled_upToReset_le (calls : List Call) : handled (upToReset calls) ≤ handled calls :=
  List.Sublist.countP_le (List.rdropWhile_prefix _ calls).sublist

theorem counted_concat {calls : List Call} (h : Counted calls (after calls)) (c : Call) :
    Counted (calls ++ [c]) (after (calls ++ [c])) := by
  obtain ⟨hcounter, huptime, htotal⟩ := h
  have hhandled := handled_concat calls c
  have hreset := upToReset_concat calls c
  have hle := handled_upToReset_le calls
  have hlimit := Nat.mod_lt (handled calls) (show 0 < 100 by decide)
  rw [after_concat]
  cases c with
  | timerHandler now =>
    have hcount : handled (calls ++ [.timerHandler now]) = handled calls + 1 := hhandled
    have hup : upToReset (calls ++ [.timerHandler now]) = upToReset calls := hreset
    by_cases hfull : (after calls).gTickCounter.toNat + 1 = 100
    · obtain ⟨hzero, hsecond, hstat⟩ := timerHandler_second now hfull
      have hseconds : seconds (calls ++ [.timerHandler now]) = seconds calls + 1 := by
        unfold seconds
        omega
      have hlater : seconds calls + 1 ≠ seconds (upToReset calls) := by
        unfold seconds
        omega
      refine ⟨?_, ?_, ?_⟩
      · rw [hcount]
        exact hzero.trans (by omega)
      · rw [hseconds, BitVec.ofNat_add, ← huptime]
        exact hsecond
      · rw [hseconds, hup, if_neg hlater, BitVec.ofNat_add, ← huptime]
        exact hstat
    · obtain ⟨hnext, hsame, hstat⟩ := timerHandler_tick now
        (show (after calls).gTickCounter.toNat + 1 < 100 by omega)
      have hseconds : seconds (calls ++ [.timerHandler now]) = seconds calls := by
        unfold seconds
        omega
      refine ⟨?_, ?_, ?_⟩
      · rw [hcount]
        exact hnext.trans (by omega)
      · rw [hseconds, ← huptime]
        exact hsame
      · rw [hseconds, hup, ← htotal]
        exact hstat
  | timerInit | timerResetStats =>
    have hcount : handled (calls ++ [_]) = handled calls := hhandled
    have hseconds : seconds (calls ++ [_]) = seconds calls := congrArg (· / 100) hcount
    have hup : upToReset (calls ++ [_]) = calls ++ [_] := hreset
    refine ⟨by rw [hcount]; exact hcounter, by rw [hseconds]; exact huptime, ?_⟩
    rw [hup, if_pos rfl]
    rfl
  | timerEnable now | timerDisable =>
    have hcount : handled (calls ++ [_]) = handled calls := hhandled
    have hseconds : seconds (calls ++ [_]) = seconds calls := congrArg (· / 100) hcount
    refine ⟨by rw [hcount]; exact hcounter, by rw [hseconds]; exact huptime, ?_⟩
    rw [hseconds, hreset]
    exact htotal

/-- **Any run** leaves the counters so. -/
theorem counted_after (calls : List Call) : Counted calls (after calls) := by
  induction calls using List.reverseRecOn with
  | nil => exact ⟨rfl, rfl, rfl⟩
  | append_singleton calls c ih => exact counted_concat ih c

/-! ### The increments -/

/-- A call increments the seconds when it completes one. -/
theorem step_increments (calls : List Call) (c : Call) :
    (if (step (after calls) c).gUptimeSeconds = (after calls).gUptimeSeconds then 0 else 1) + seconds calls =
      seconds (calls ++ [c]) := by
  have hcounter := (counted_after calls).counter
  have hhandled := handled_concat calls c
  have hlimit := Nat.mod_lt (handled calls) (show 0 < 100 by decide)
  cases c with
  | timerHandler now =>
    have hcount : handled (calls ++ [.timerHandler now]) = handled calls + 1 := hhandled
    by_cases hfull : (after calls).gTickCounter.toNat + 1 = 100
    · have hup : (step (after calls) (.timerHandler now)).gUptimeSeconds ≠ (after calls).gUptimeSeconds := by
        show (timerHandler now (after calls)).1.gUptimeSeconds ≠ _
        rw [(timerHandler_second now hfull).2.1]
        bv_omega
      rw [if_neg hup]
      unfold seconds
      omega
    · have hsame : (step (after calls) (.timerHandler now)).gUptimeSeconds = (after calls).gUptimeSeconds :=
        (timerHandler_tick now (by omega)).2.1
      rw [if_pos hsame]
      unfold seconds
      omega
  | timerInit | timerResetStats | timerEnable now | timerDisable =>
    have hcount : handled (calls ++ [_]) = handled calls := hhandled
    rw [if_pos (show (step (after calls) _).gUptimeSeconds = (after calls).gUptimeSeconds from rfl), Nat.zero_add]
    exact congrArg (· / 100) hcount.symm

theorem increments_eq (before since : List Call) :
    increments (after before) since + seconds before = seconds (before ++ since) := by
  induction since generalizing before with
  | nil => rw [increments, Nat.zero_add, List.append_nil]
  | cons c since ih =>
    have hrest := ih (before ++ [c])
    have hfirst := step_increments before c
    rw [after_concat, List.append_assoc] at hrest
    have hsame : before ++ c :: since = before ++ ([c] ++ since) := rfl
    rw [increments, hsame]
    omega

/-- **`total_seconds` counts the seconds since the last reset** exactly when none has
passed since then, or none before it, as far as 64 bits can count them. -/
theorem total_seconds_iff (calls : List Call) :
    (after calls).gTimerStats.totalSeconds.toNat = increments (after (upToReset calls)) (sinceReset calls) ↔
      seconds calls = seconds (upToReset calls) ∨
        (2 ^ 64 ∣ seconds (upToReset calls) ∧ seconds calls - seconds (upToReset calls) < 2 ^ 64) := by
  have hincrements := increments_eq (upToReset calls) (sinceReset calls)
  rw [upToReset_sinceReset] at hincrements
  rw [(counted_after calls).total]
  by_cases hnone : seconds calls = seconds (upToReset calls)
  · rw [if_pos hnone]
    have hzero : (0 : Word).toNat = 0 := rfl
    exact ⟨fun _ => .inl hnone, fun _ => by omega⟩
  · rw [if_neg hnone, BitVec.toNat_ofNat, or_iff_right hnone]
    omega

/-- A second, a reset, and another second. -/
def resetBetween : List Call :=
  List.replicate 100 (.timerHandler 0) ++ .timerResetStats :: List.replicate 100 (.timerHandler 0)

/-- One second has passed since the reset, and the statistic says two. -/
theorem total_seconds_between :
    (after resetBetween).gTimerStats.totalSeconds = 2 ∧
      (after resetBetween).gTimerStats.totalInterrupts = 100 ∧
      increments (after (upToReset resetBetween)) (sinceReset resetBetween) = 1 ∧
      ¬ (after resetBetween).gTimerStats.totalSeconds.toNat =
        increments (after (upToReset resetBetween)) (sinceReset resetBetween) := by
  decide +kernel

end Testos.Timer
