import Mathlib.Algebra.Order.Ring.Int
import Medusa.LogQueries
import Medusa.Resample

/-! What an algorithm is run on. Times are counted in microseconds, the resolution of a
time stamp, and a series is filled forward to whole seconds. `data` is any object with the
three queries of `DataGrab`, and `none` is an exception. -/

namespace Medusa

open Relational Resample

def second : Int := 1000000

def hours (n : Int) : Int := n * 3600 * second

/-- `datetime.timedelta(hours=n)` in a module: the name is looked up among its globals. -/
def timedelta (globals : List String) (n : Int) : Option Int :=
  if "datetime" ∈ globals then some (hours n) else none

/-- A comparison with a missing value is false. -/
def lessThan (x y : Option ℚ) : Bool :=
  match x, y with
  | some x, some y => decide (x < y)
  | _, _ => false

theorem lessThan_eq_true {x y : Option ℚ} :
    lessThan x y = true ↔ ∃ a b, x = some a ∧ y = some b ∧ a < b := by
  cases x with
  | none => simp [lessThan]
  | some a =>
    cases y with
    | none => simp [lessThan]
    | some b => simp [lessThan]

namespace Series

def samples (series : Series) : List (Sample ℚ) :=
  series.filterMap (fun p => p.1.map (fun time => ⟨time, p.2⟩))

/-- `resample('1S').ffill()` -/
def seconds (series : Series) : Column ℚ := ffill second series.samples

/-- At the whole second `k` the series that is filled forward has the value `x`. -/
def At (series : Series) (k : Int) (x : ℚ) : Prop := FilledAt second series.samples k x

def Digital (series : Series) : Prop :=
  ∀ s ∈ series.samples, s.value = some 0 ∨ s.value = some 1

variable {series : Series} {k : Int} {x : ℚ}

theorem seconds_eq_some_iff : series.seconds.value k = some x ↔ series.At k x :=
  ffill_eq_some_iff (by decide)

theorem Digital.at (h : series.Digital) (hx : series.At k x) : x = 0 ∨ x = 1 := by
  obtain ⟨s, hs, hvalue⟩ := hx.mem
  simpa [hvalue] using h s hs

theorem finite_at (series : Series) : {k | ∃ x, series.At k x}.Finite := by
  refine series.seconds.index.finite_toSet.subset ?_
  rintro k ⟨x, hx⟩
  exact Column.mem_index (seconds_eq_some_iff.mpr hx)

theorem mem_samples {s : Sample ℚ} :
    s ∈ series.samples ↔ (some s.time, s.value) ∈ series := by
  simp only [samples, List.mem_filterMap, Option.map_eq_some_iff]
  constructor
  · rintro ⟨⟨_, value⟩, hp, time, rfl, rfl⟩
    exact hp
  · intro hp
    exact ⟨_, hp, s.time, rfl, rfl⟩

end Series

structure Data where
  latestQty : String → Nat → Option Series
  latestTime : String → Int → Option Series
  timeRange : Option String → Int → Int → Option Series

/-- The queries on the asset, with the readings of the clock: one for each point whose
latest samples are asked for, and two for each range. No point type has a missing name. -/
def DataGrab.data (db : Db) (asset : Nat) (now : String → Int) (range : Int → Int → Int × Int) :
    Data where
  latestQty name quantity := latestQty db asset name quantity
  latestTime name delta := latestTime db asset name delta (now name)
  timeRange name start finish := name.bind (fun name =>
    timeRange db asset name start finish (range start finish).1 (range start finish).2)

/-- Two samples of one value, at the second 0 and at the given one. -/
def steady (x : ℚ) (last : Int) : Series := [(some 0, some x), (some (last * second), some x)]

theorem steady_at {x : ℚ} {last k : Int} (hk : 0 ≤ k) (hlast : k ≤ last) : (steady x last).At k x := by
  have hpos : (0 : Int) ≤ second := by decide
  refine filledAt_of_constant ?_ ?_ ?_
  · simp [steady, Series.samples]
  · exact ⟨⟨0, some x⟩, by simp [steady, Series.samples], Int.mul_nonneg hk hpos⟩
  · exact ⟨⟨last * second, some x⟩, by simp [steady, Series.samples],
      Int.mul_le_mul_of_nonneg_right hlast hpos⟩

theorem steady_value {x y : ℚ} {last k : Int} (h : (steady x last).At k y) : y = x := by
  obtain ⟨s, hs, hvalue⟩ := h.mem
  simp only [steady, Series.samples, List.filterMap_cons, Option.map_some, List.filterMap_nil,
    List.mem_cons, List.not_mem_nil, or_false] at hs
  rcases hs with rfl | rfl <;> simpa using hvalue.symm

theorem steady_seconds {x : ℚ} {last k : Int} (hlast : 0 ≤ last) :
    (steady x last).At k x ↔ 0 ≤ k ∧ k ≤ last := by
  have hpos : (0 : Int) < second := by decide
  refine ⟨?_, fun h => steady_at h.1 h.2⟩
  intro h
  obtain ⟨⟨s, hs, hle⟩, s', hs', hge⟩ := h.between
  have hmem : ∀ s ∈ (steady x last).samples, 0 ≤ s.time ∧ s.time ≤ last * second := by
    have hnonneg := Int.mul_nonneg hlast hpos.le
    simp [steady, Series.samples, hnonneg]
  constructor
  · exact nonneg_of_mul_nonneg_left ((hmem s hs).1.trans hle) hpos
  · exact le_of_mul_le_mul_right (hge.trans (hmem s' hs').2) hpos

theorem steady_ncard {x : ℚ} {last : Int} (hlast : 0 ≤ last) :
    {k | (steady x last).At k x}.ncard = (last + 1).toNat := by
  have hall : {k | (steady x last).At k x} = Set.Icc 0 last := by
    ext k
    rw [Set.mem_ofPred_eq, steady_seconds hlast, Set.mem_Icc]
  rw [hall, ncard_Icc, sub_zero]

/-- A source that knows each point by one series. -/
def Data.ofSeries (series : String → Series) : Data where
  latestQty name quantity := some ((series name).take quantity)
  latestTime name _ := some (series name)
  timeRange name _ _ := name.map series

theorem steady_digital (last : Int) : (steady 1 last).Digital := by
  simp [Series.Digital, steady, Series.samples]

/-- The samples that are asked for are not older than the time given. -/
theorem DataGrab.latestTime_samples {db : Db} {asset : Nat} {name : String} {delta now : Int}
    {series : Series} (h : DataGrab.latestTime db asset name delta now = some series)
    {s : Sample ℚ} (hs : s ∈ series.samples) :
    now - delta ≤ s.time ∧ ∃ v ∈ db.logTimeValues.rows, v.datetimestamp = some s.time := by
  simp only [DataGrab.latestTime, Option.bind_eq_bind, Option.bind_eq_some_iff, Option.pure_def,
    Option.some.injEq] at h
  obtain ⟨point, -, rfl⟩ := h
  have hmem := Series.mem_samples.mp hs
  simp only [toSeries, List.mem_map, List.mem_filter, Db.samplesOf, Prod.mk.injEq] at hmem
  obtain ⟨v, ⟨⟨hv, -⟩, hnot⟩, htime, -⟩ := hmem
  simp only [LogTimeValue.notBefore, htime, decide_eq_true_eq] at hnot
  exact ⟨hnot, v, hv, htime⟩

end Medusa
