import Mathlib.Algebra.Order.Field.Basic
import Mathlib.Algebra.Order.Field.Rat
import Mathlib.Tactic.Linarith
import Mathlib.Tactic.NormNum
import Medusa.Algorithms.Data

/-! `RunningTime`: the run time is returned in hours but compared with the setpoint in
seconds. -/

namespace Medusa

open Resample

namespace RunningTime

def globals : List String := ["datetime", "Algorithm"]

/-- The sum is NaN, which compares false, if the series has seconds but no value. -/
def run (data : Data) : Option (Option ℚ × Bool) := do
  let enable ← data.latestTime "Fan Enable" (← timedelta globals 24)
  let setpoint ← data.latestQty "Run Hours Maintenance Setpoint" 1
  let secondsActive := enable.seconds.sum
  -- `setpoint[0]` raises on an empty series
  let (_, limit) ← setpoint.head?
  pure (secondsActive.map (fun seconds => seconds / 3600), lessThan secondsActive limit)

end RunningTime

noncomputable def enabledSeconds (enable : Series) : Nat := {k | enable.At k 1}.ncard

theorem count_enabled (enable : Series) :
    enable.seconds.count (fun x => decide (x = 1)) = enabledSeconds enable := by
  rw [Column.count_eq_ncard, enabledSeconds]
  congr 1
  ext k
  simp [Series.seconds_eq_some_iff]

/-- A digital series adds up to the seconds on which it is on. -/
theorem sum_of_digital {enable : Series} (hdigital : enable.Digital)
    (hsome : enable.samples ≠ [] → ∃ k x, enable.At k x) :
    enable.seconds.sum = some (enabledSeconds enable : ℚ) := by
  rw [Column.sum_eq_count, count_enabled]
  · intro k x hx
    exact hdigital.at (Series.seconds_eq_some_iff.mp hx)
  · intro hne
    obtain ⟨k, x, hx⟩ := hsome (fun hnil => hne.ne_empty (bins_eq_empty_iff.mpr hnil))
    exact ⟨k, x, Series.seconds_eq_some_iff.mpr hx⟩

section

variable {data : Data} {enable rest : Series} {time : Option Int} {limit : ℚ}

theorem RunningTime.run_eq (henable : data.latestTime "Fan Enable" (hours 24) = some enable)
    (hsetpoint : data.latestQty "Run Hours Maintenance Setpoint" 1 =
      some ((time, some limit) :: rest)) :
    RunningTime.run data = some (enable.seconds.sum.map (fun seconds => seconds / 3600),
      lessThan enable.seconds.sum (some limit)) := by
  simp [RunningTime.run, timedelta, globals, henable, hsetpoint]

/-- The enabled time in hours is returned and decides the verdict exactly if the values add
up to the enabled seconds, and the setpoint does not lie between the hours and the seconds. -/
theorem runningTime_iff (henable : data.latestTime "Fan Enable" (hours 24) = some enable)
    (hsetpoint : data.latestQty "Run Hours Maintenance Setpoint" 1 =
      some ((time, some limit) :: rest)) :
    (∃ result passed, RunningTime.run data = some (some result, passed) ∧
      result = (enabledSeconds enable : ℚ) / 3600 ∧ (passed = true ↔ result < limit)) ↔
      enable.seconds.sum = some (enabledSeconds enable : ℚ) ∧
        ¬ ((enabledSeconds enable : ℚ) / 3600 < limit ∧ limit ≤ enabledSeconds enable) := by
  have hhours : (enabledSeconds enable : ℚ) / 3600 ≤ enabledSeconds enable :=
    div_le_self (Nat.cast_nonneg _) (by norm_num)
  rw [RunningTime.run_eq henable hsetpoint]
  constructor
  · rintro ⟨result, passed, hrun, rfl, hpassed⟩
    obtain ⟨hresult, rfl⟩ := Prod.mk.inj (Option.some.inj hrun)
    obtain ⟨seconds, hsum, hseconds⟩ := Option.map_eq_some_iff.mp hresult
    rw [div_left_inj' (by norm_num)] at hseconds
    rw [hseconds] at hsum
    refine ⟨hsum, ?_⟩
    rintro ⟨hlt, hle⟩
    have hverdict := hpassed.mpr hlt
    simp only [hsum, lessThan, decide_eq_true_eq] at hverdict
    exact absurd hverdict (not_lt.mpr hle)
  · rintro ⟨hsum, hnot⟩
    refine ⟨_, lessThan enable.seconds.sum (some limit), ?_, rfl, ?_⟩
    · rw [hsum]
      rfl
    · simp only [hsum, lessThan, decide_eq_true_eq]
      constructor
      · exact lt_of_le_of_lt hhours
      · intro hlt
        exact not_le.mp (fun hle => hnot ⟨hlt, hle⟩)

end

/-- Two hours of run time and a setpoint. -/
def fanHours (limit : ℚ) : Data :=
  .ofSeries (fun name => if name = "Fan Enable" then steady 1 7199 else [(some 0, some limit)])

theorem enabledSeconds_steady : enabledSeconds (steady 1 7199) = 7200 :=
  steady_ncard (by norm_num)

theorem sum_steady : (steady 1 7199).seconds.sum = some (enabledSeconds (steady 1 7199) : ℚ) :=
  sum_of_digital (steady_digital 7199) (fun _ => ⟨0, 1, steady_at le_rfl (by norm_num)⟩)

theorem runningTime_iff_fanHours :
    (fanHours 1).latestTime "Fan Enable" (hours 24) = some (steady 1 7199) ∧
      (fanHours 1).latestQty "Run Hours Maintenance Setpoint" 1 = some [(some 0, some 1)] ∧
      ∃ result passed, RunningTime.run (fanHours 1) = some (some result, passed) ∧
        result = (enabledSeconds (steady 1 7199) : ℚ) / 3600 ∧ (passed = true ↔ result < 1) := by
  refine ⟨rfl, rfl, (runningTime_iff rfl rfl).mpr ⟨sum_steady, ?_⟩⟩
  rw [enabledSeconds_steady]
  norm_num

theorem fanHours_fails :
    RunningTime.run (fanHours 100) = some (some 2, false) ∧
      (enabledSeconds (steady 1 7199) : ℚ) / 3600 = 2 ∧ (2 : ℚ) < 100 := by
  have henable : (fanHours 100).latestTime "Fan Enable" (hours 24) = some (steady 1 7199) := rfl
  have hsetpoint : (fanHours 100).latestQty "Run Hours Maintenance Setpoint" 1 =
      some [(some 0, some 100)] := rfl
  rw [RunningTime.run_eq henable hsetpoint, sum_steady, enabledSeconds_steady]
  norm_num [lessThan]

end Medusa
