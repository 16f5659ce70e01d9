import Medusa.Algorithms.Data

/-! `PIDLoopHunting`: the last day is cut into hours, each hour gets a metric of its fast
oscillations, and the loop hunts if the largest metric exceeds the cutoff. The metric of a
window is a parameter; what the code does with it is not. -/

namespace Medusa

open Resample

structure PIDLoopHunting where
  controlVariable : Option String
  freqCutoff : ℚ

def PIDLoopHunting.init : PIDLoopHunting := ⟨none, 100⟩

def ChwValveHunting.init : PIDLoopHunting := ⟨none, 100⟩

namespace PidControl

/-- `fft` is not among the names that the module imports. -/
def globals : List String := ["datetime", "numpy", "Algorithm"]

def minute : Int := 60 * second

def freqSum (metric : List (Sample ℚ) → ℚ) (samples : Series) : Option ℚ :=
  if (bins minute samples.samples).card > 0 then
    if "fft" ∈ globals then some (metric samples.samples) else none
  else some 0

/-- `range(24, 1, -1)` -/
def visited : List Nat := (List.range' 2 23).reverse

end PidControl

open PidControl

namespace PIDLoopHunting

variable (self : PIDLoopHunting) (metric : List (Sample ℚ) → ℚ) (data : Data)

/-- One turn of the loop: the dictionary gets the metric of the window under its hour. -/
def visit (freqSums : List (Nat × ℚ)) (n : Nat) : Option (List (Nat × ℚ)) := do
  let samples ← data.timeRange self.controlVariable (← timedelta globals n)
    (← timedelta globals (n - 1))
  let sum ← freqSum metric samples
  pure (freqSums ++ [(n, sum)])

/-- The maximum of a dictionary is the largest of its keys. -/
def run : Option (Bool × Bool) := do
  let freqSums ← visited.foldlM (self.visit metric data) []
  let top ← (freqSums.map Prod.fst).max?
  let result := decide (self.freqCutoff < top)
  pure (result, !result)

end PIDLoopHunting

theorem PidControl.freqSum_eq (metric : List (Sample ℚ) → ℚ) (samples : Series) :
    freqSum metric samples = if samples.samples = [] then some 0 else none := by
  unfold freqSum
  by_cases hnil : samples.samples = []
  · simp [hnil, bins_eq_empty_iff.mpr]
  · have hpos : (bins minute samples.samples).card > 0 :=
      Finset.card_pos.mpr (Finset.nonempty_iff_ne_empty.mpr (fun h => hnil (bins_eq_empty_iff.mp h)))
    simp [hnil, hpos, globals]

theorem PidControl.mem_visited {n : Nat} : n ∈ visited ↔ 2 ≤ n ∧ n ≤ 24 := by
  simp only [visited, List.mem_reverse, List.mem_range'_1]
  omega

section

variable {self : PIDLoopHunting} {metric : List (Sample ℚ) → ℚ} {data : Data}
  {windows : Nat → Series}

/-- The loop gets through exactly if no window has a sample, and then it has seen no
oscillation. -/
theorem PIDLoopHunting.foldlM_visit {turns : List Nat} {freqSums : List (Nat × ℚ)}
    (hwindows : ∀ n ∈ turns, data.timeRange self.controlVariable (hours n) (hours (n - 1)) =
      some (windows n)) :
    turns.foldlM (self.visit metric data) freqSums =
      if ∀ n ∈ turns, (windows n).samples = [] then some (freqSums ++ turns.map (fun n => (n, 0)))
      else none := by
  induction turns generalizing freqSums with
  | nil => simp
  | cons n rest ih =>
    have hstep : self.visit metric data freqSums n =
        if (windows n).samples = [] then some (freqSums ++ [(n, 0)]) else none := by
      simp only [visit, timedelta, globals, List.mem_cons, true_or, if_true, Option.bind_eq_bind,
        Option.bind_some, hwindows n List.mem_cons_self, freqSum_eq]
      split <;> rfl
    rw [List.foldlM_cons, hstep]
    by_cases hn : (windows n).samples = []
    · simp only [hn, if_true, Option.bind_eq_bind, Option.bind_some, List.forall_mem_cons, true_and]
      rw [ih (fun m hm => hwindows m (List.mem_cons_of_mem n hm))]
      simp
    · simp [hn]

theorem PidControl.visited_max : visited.max? = some 24 := by decide

theorem PIDLoopHunting.foldlM_keys {turns : List Nat} {freqSums out : List (Nat × ℚ)}
    (h : turns.foldlM (self.visit metric data) freqSums = some out) :
    out.map Prod.fst = freqSums.map Prod.fst ++ turns := by
  induction turns generalizing freqSums with
  | nil =>
    obtain rfl : freqSums = out := by simpa using h
    simp
  | cons n rest ih =>
    rw [List.foldlM_cons] at h
    obtain ⟨middle, hmiddle, hrest⟩ := Option.bind_eq_some_iff.mp h
    simp only [visit, Option.bind_eq_bind, Option.bind_eq_some_iff, Option.pure_def,
      Option.some.injEq] at hmiddle
    obtain ⟨_, -, _, -, _, -, _, -, rfl⟩ := hmiddle
    rw [ih hrest]
    simp

/-- Whatever is measured, a verdict that is returned says only whether the cutoff is below 24. -/
theorem PIDLoopHunting.run_verdict {result passed : Bool}
    (h : self.run metric data = some (result, passed)) :
    result = decide (self.freqCutoff < 24) ∧ passed = !result := by
  simp only [run, Option.bind_eq_bind, Option.bind_eq_some_iff, Option.pure_def, Option.some.injEq,
    Prod.mk.injEq] at h
  obtain ⟨freqSums, hloop, top, htop, rfl, rfl⟩ := h
  rw [foldlM_keys hloop, List.map_nil, List.nil_append, visited_max] at htop
  obtain rfl := Option.some.inj htop
  exact ⟨rfl, rfl⟩

theorem PIDLoopHunting.never_hunting (hself : self = PIDLoopHunting.init ∨ self = ChwValveHunting.init)
    (passed : Bool) : self.run metric data ≠ some (true, passed) := by
  intro h
  have hverdict := (run_verdict h).1
  rcases hself with rfl | rfl
  · exact absurd hverdict (by decide +kernel)
  · exact absurd hverdict (by decide +kernel)

theorem PIDLoopHunting.run_eq
    (hwindows : ∀ n : Nat, 1 ≤ n → n ≤ 24 →
      data.timeRange self.controlVariable (hours n) (hours (n - 1)) = some (windows n)) :
    self.run metric data =
      if ∀ n ∈ visited, (windows n).samples = [] then
        some (decide (self.freqCutoff < 24), !decide (self.freqCutoff < 24))
      else none := by
  have hkeys : ((visited.map (fun n => (n, (0 : ℚ)))).map Prod.fst).max? = some 24 := visited_max
  have hvisited : ∀ n ∈ visited,
      data.timeRange self.controlVariable (hours n) (hours (n - 1)) = some (windows n) := by
    intro n hn
    obtain ⟨hlow, hhigh⟩ := mem_visited.mp hn
    exact hwindows n (by omega) hhigh
  unfold run
  rw [foldlM_visit hvisited]
  split
  · simp only [List.nil_append, Option.bind_eq_bind, Option.bind_some, hkeys]
    rfl
  · rfl

/-- A verdict that is right for the 24 windows is returned exactly if the windows that are
visited have no samples and the cutoff happens to be on the right side of 24. -/
theorem pidLoopHunting_iff
    (hwindows : ∀ n : Nat, 1 ≤ n → n ≤ 24 →
      data.timeRange self.controlVariable (hours n) (hours (n - 1)) = some (windows n)) :
    (∃ result, self.run metric data = some (result, !result) ∧
      (result = true ↔ ∃ n, 1 ≤ n ∧ n ≤ 24 ∧ self.freqCutoff < metric (windows n).samples)) ↔
      (∀ n, 2 ≤ n → n ≤ 24 → (windows n).samples = []) ∧
        (self.freqCutoff < 24 ↔
          ∃ n, 1 ≤ n ∧ n ≤ 24 ∧ self.freqCutoff < metric (windows n).samples) := by
  have hvisited : (∀ n ∈ visited, (windows n).samples = []) ↔
      ∀ n, 2 ≤ n → n ≤ 24 → (windows n).samples = [] := by
    simp only [mem_visited, and_imp]
  rw [PIDLoopHunting.run_eq hwindows, ← hvisited]
  by_cases hempty : ∀ n ∈ visited, (windows n).samples = []
  · rw [if_pos hempty, and_iff_right hempty]
    constructor
    · rintro ⟨result, hrun, hverdict⟩
      obtain ⟨rfl, -⟩ := Prod.mk.inj (Option.some.inj hrun)
      simpa using hverdict
    · intro hverdict
      exact ⟨_, rfl, by simpa using hverdict⟩
  · rw [if_neg hempty]
    constructor
    · rintro ⟨result, hrun, -⟩
      simp at hrun
    · rintro ⟨hall, -⟩
      exact absurd hall hempty

end

/-- No samples but in the last hour, on a loop whose metric there is 200. -/
def lateHunting : Data where
  latestQty _ _ := none
  latestTime _ _ := none
  timeRange _ start _ := some (if start = hours 1 then [(some 0, some 1)] else [])

def spectrum (samples : List (Sample ℚ)) : ℚ := if samples.isEmpty then 0 else 200

def lateWindows (n : Nat) : Series := if n = 1 then [(some 0, some 1)] else []

theorem lateHunting_windows : ∀ n : Nat, 1 ≤ n → n ≤ 24 →
    lateHunting.timeRange PIDLoopHunting.init.controlVariable (hours n) (hours (n - 1)) =
      some (lateWindows n) := by
  intro n _ _
  have hone : hours n = hours 1 ↔ n = 1 := by
    simp only [hours, second]
    omega
  simp only [lateHunting, lateWindows, hone]

theorem pidLoopHunting_iff_allowed :
    ∃ result, PIDLoopHunting.run ⟨none, 10⟩ spectrum lateHunting = some (result, !result) ∧
      (result = true ↔ ∃ n, 1 ≤ n ∧ n ≤ 24 ∧ (10 : ℚ) < spectrum (lateWindows n).samples) := by
  have hwindow : (10 : ℚ) < spectrum (lateWindows 1).samples := by decide +kernel
  refine (@pidLoopHunting_iff ⟨none, 10⟩ spectrum lateHunting lateWindows
    lateHunting_windows).mpr ⟨?_, ?_⟩
  · intro n hn _
    have hne : n ≠ 1 := by omega
    simp [lateWindows, hne, Series.samples]
  · exact iff_of_true (by decide +kernel) ⟨1, le_rfl, by decide, hwindow⟩

theorem lateHunting_unseen :
    PIDLoopHunting.init.run spectrum lateHunting = some (false, true) ∧
      PIDLoopHunting.init.freqCutoff < spectrum (lateWindows 1).samples := by
  constructor
  · decide +kernel
  · decide +kernel

end Medusa
