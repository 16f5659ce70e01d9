import Mathlib.Algebra.Order.Field.Basic
import Mathlib.Algebra.Order.Field.Rat
import Mathlib.Tactic.NormNum
import Mathlib.Tactic.Positivity
import Medusa.Algorithms.Data

/-! The algorithms that count the seconds of the last 24 hours on which something is wrong
and return them as a fraction of 86400. -/

namespace Medusa

open Relational Resample

namespace ZoneTempHeatingCheck

def globals : List String := ["pandas", "numpy", "datetime", "Algorithm"]

def secondsInError (heating roomTemp roomSetpoint : Series) : Nat :=
  let allData : Frame ℚ := ⟨[heating.seconds, roomTemp.seconds, roomSetpoint.seconds]⟩
  allData.countRows (fun row => lessThan (row 1) (row 2) && row 0 == some 1)

def run (data : Data) : Option (ℚ × Bool) := do
  let heating ← data.latestTime "Heater Enable" (← timedelta globals 24)
  let roomTemp ← data.latestTime "Room Air Temp" (← timedelta globals 24)
  let roomSetpoint ← data.latestTime "Room Air Temp Setpoint" (← timedelta globals 24)
  let result : ℚ := secondsInError heating roomTemp roomSetpoint / 86400
  pure (result, decide (result < 1 / 20))

end ZoneTempHeatingCheck

/-- The checks that combine the columns of two points into one and count one of its values. -/
structure PairCheck where
  globals : List String
  first : String
  second : String
  combine : ℚ → ℚ → ℚ
  target : ℚ
  passes : ℚ → Bool

def PairCheck.status (check : PairCheck) (a b : Series) : Column ℚ :=
  Column.map₂ check.combine a.seconds b.seconds

def PairCheck.run (check : PairCheck) (data : Data) : Option (ℚ × Bool) := do
  let a ← data.latestTime check.first (← timedelta check.globals 24)
  let b ← data.latestTime check.second (← timedelta check.globals 24)
  let result : ℚ := (check.status a b).count (fun x => decide (x = check.target)) / 86400
  pure (result, check.passes result)

/-- The module does not import `datetime`. -/
def SimultnsHeatCool : PairCheck where
  globals := ["Algorithm"]
  first := "Heater Enable"
  second := "Chilled Water Valve Enable"
  combine heating cooling := heating + cooling
  target := 2
  passes result := decide (result = 0)

def UnitRunZoneUnoccupied : PairCheck where
  globals := ["datetime", "Algorithm"]
  first := "occupancy"
  second := "supply air fan run cmd"
  combine occupancy enable := enable - occupancy
  target := 1
  passes result := decide (result < 1 / 20)

def UnitOffZoneOccupied : PairCheck where
  globals := ["datetime", "Algorithm"]
  first := "Room Occupancy"
  second := "Fan Enable"
  combine occupancy enable := enable - occupancy
  target := -1
  passes result := decide (result < 1 / 20)

inductive DigitalCheck
  | simultnsHeatCool
  | unitRunZoneUnoccupied
  | unitOffZoneOccupied
deriving DecidableEq

def DigitalCheck.body : DigitalCheck → PairCheck
  | simultnsHeatCool => SimultnsHeatCool
  | unitRunZoneUnoccupied => UnitRunZoneUnoccupied
  | unitOffZoneOccupied => UnitOffZoneOccupied

inductive DayCheck
  | digital (check : DigitalCheck)
  | zoneTempHeatingCheck
deriving DecidableEq

namespace DayCheck

def run : DayCheck → Data → Option (ℚ × Bool)
  | digital check => check.body.run
  | zoneTempHeatingCheck => ZoneTempHeatingCheck.run

def points : DayCheck → List String
  | digital check => [check.body.first, check.body.second]
  | zoneTempHeatingCheck => ["Heater Enable", "Room Air Temp", "Room Air Temp Setpoint"]

end DayCheck

section Counts

/-- The seconds at which the heating is on and the two temperatures, both known, are in the
given relation. -/
def heatingSeconds (related : ℚ → ℚ → Prop) (heating roomTemp roomSetpoint : Series) : Set Int :=
  {k | heating.At k 1 ∧ ∃ temp setpoint, roomTemp.At k temp ∧ roomSetpoint.At k setpoint ∧
    related temp setpoint}

def pairSeconds (related : ℚ → ℚ → Prop) (a b : Series) : Set Int :=
  {k | ∃ x y, a.At k x ∧ b.At k y ∧ related x y}

theorem ZoneTempHeatingCheck.secondsInError_eq (heating roomTemp roomSetpoint : Series) :
    secondsInError heating roomTemp roomSetpoint =
      (heatingSeconds (· < ·) heating roomTemp roomSetpoint).ncard := by
  rw [secondsInError, Frame.countRows_eq_ncard _ (by rfl)]
  congr 1
  ext k
  simp only [Set.mem_ofPred_eq, heatingSeconds, Bool.and_eq_true, lessThan_eq_true, beq_iff_eq,
    Frame.cell, List.getElem?_cons_zero, List.getElem?_cons_succ, Option.bind_some,
    Series.seconds_eq_some_iff]
  constructor
  · rintro ⟨⟨temp, setpoint, htemp, hsetpoint, hlt⟩, hheating⟩
    exact ⟨hheating, temp, setpoint, htemp, hsetpoint, hlt⟩
  · rintro ⟨hheating, temp, setpoint, htemp, hsetpoint, hlt⟩
    exact ⟨⟨temp, setpoint, htemp, hsetpoint, hlt⟩, hheating⟩

theorem PairCheck.count_eq (check : PairCheck) (a b : Series) :
    (check.status a b).count (fun x => decide (x = check.target)) =
      (pairSeconds (fun x y => check.combine x y = check.target) a b).ncard := by
  rw [Column.count_eq_ncard]
  congr 1
  ext k
  simp only [Set.mem_ofPred_eq, pairSeconds, status, Column.map₂, Option.map₂_eq_some_iff,
    Series.seconds_eq_some_iff, Option.mem_def, decide_eq_true_eq]
  constructor
  · rintro ⟨_, ⟨x, y, hx, hy, rfl⟩, htarget⟩
    exact ⟨x, y, hx, hy, htarget⟩
  · rintro ⟨x, y, hx, hy, htarget⟩
    exact ⟨_, ⟨x, y, hx, hy, rfl⟩, htarget⟩

theorem fraction_inj {m n : Nat} : (m : ℚ) / 86400 = n / 86400 ↔ m = n := by
  rw [div_left_inj' (by norm_num)]
  exact Nat.cast_inj

theorem finite_pairSeconds (related : ℚ → ℚ → Prop) (a b : Series) :
    (pairSeconds related a b).Finite := by
  refine a.finite_at.subset ?_
  rintro k ⟨x, -, hx, -⟩
  exact ⟨x, hx⟩

/-- Seconds on which the values are in one of two relations that exclude each other. -/
theorem ncard_pairSeconds_or {related related' : ℚ → ℚ → Prop} {a b : Series}
    (hnot : ∀ x y, related x y → ¬ related' x y) :
    (pairSeconds (fun x y => related x y ∨ related' x y) a b).ncard =
      (pairSeconds related a b).ncard + (pairSeconds related' a b).ncard := by
  have hunion : pairSeconds (fun x y => related x y ∨ related' x y) a b =
      pairSeconds related a b ∪ pairSeconds related' a b := by
    ext k
    simp only [pairSeconds, Set.mem_ofPred_eq, Set.mem_union, and_or_left, exists_or]
  have hdisjoint : Disjoint (pairSeconds related a b) (pairSeconds related' a b) := by
    rw [Set.disjoint_left]
    rintro k ⟨x, y, hx, hy, hxy⟩ ⟨x', y', hx', hy', hxy'⟩
    rw [hx'.unique hx, hy'.unique hy] at hxy'
    exact hnot x y hxy hxy'
  rw [hunion, Set.ncard_union_eq hdisjoint (finite_pairSeconds _ a b) (finite_pairSeconds _ a b)]

end Counts

section Runs

variable {data : Data} {a b heating roomTemp roomSetpoint : Series}

theorem PairCheck.run_eq {check : PairCheck} (hglobals : "datetime" ∈ check.globals)
    (ha : data.latestTime check.first (hours 24) = some a)
    (hb : data.latestTime check.second (hours 24) = some b) :
    check.run data =
      let result : ℚ :=
        (pairSeconds (fun x y => check.combine x y = check.target) a b).ncard / 86400
      some (result, check.passes result) := by
  simp [PairCheck.run, timedelta, hglobals, ha, hb, check.count_eq]

theorem DigitalCheck.imports_datetime (check : DigitalCheck) (h : check ≠ .simultnsHeatCool) :
    "datetime" ∈ check.body.globals := by
  cases check with
  | simultnsHeatCool => exact absurd rfl h
  | unitRunZoneUnoccupied => exact List.mem_cons_self
  | unitOffZoneOccupied => exact List.mem_cons_self

theorem SimultnsHeatCool_raises (data : Data) : SimultnsHeatCool.run data = none := by
  simp [PairCheck.run, timedelta, SimultnsHeatCool]

theorem ZoneTempHeatingCheck.run_eq
    (hheating : data.latestTime "Heater Enable" (hours 24) = some heating)
    (htemp : data.latestTime "Room Air Temp" (hours 24) = some roomTemp)
    (hsetpoint : data.latestTime "Room Air Temp Setpoint" (hours 24) = some roomSetpoint) :
    ZoneTempHeatingCheck.run data =
      let result : ℚ := (heatingSeconds (· < ·) heating roomTemp roomSetpoint).ncard / 86400
      some (result, decide (result < 1 / 20)) := by
  simp [ZoneTempHeatingCheck.run, timedelta, globals, hheating, htemp, hsetpoint,
    secondsInError_eq]

/-- The seconds of heating above the setpoint are reported exactly if there are as many of
them as below it, which are counted in their place. -/
theorem zoneTempHeatingCheck_iff
    (hheating : data.latestTime "Heater Enable" (hours 24) = some heating)
    (htemp : data.latestTime "Room Air Temp" (hours 24) = some roomTemp)
    (hsetpoint : data.latestTime "Room Air Temp Setpoint" (hours 24) = some roomSetpoint) :
    (∃ result passed, ZoneTempHeatingCheck.run data = some (result, passed) ∧
      result = ((heatingSeconds (· > ·) heating roomTemp roomSetpoint).ncard : ℚ) / 86400 ∧
      (passed = true ↔ result < 1 / 20)) ↔
    (heatingSeconds (· < ·) heating roomTemp roomSetpoint).ncard =
      (heatingSeconds (· > ·) heating roomTemp roomSetpoint).ncard := by
  rw [ZoneTempHeatingCheck.run_eq hheating htemp hsetpoint]
  constructor
  · rintro ⟨result, passed, hrun, hresult, -⟩
    obtain ⟨rfl, -⟩ := Prod.mk.inj (Option.some.inj hrun)
    exact fraction_inj.mp hresult
  · intro hcount
    refine ⟨_, _, rfl, ?_, by simp⟩
    rw [hcount]

theorem zoneTempHeatingCheck_iff_quiet :
    (Data.ofSeries (fun _ => steady 0 9)).latestTime "Heater Enable" (hours 24) =
        some (steady 0 9) ∧
      ∃ result passed,
        ZoneTempHeatingCheck.run (.ofSeries (fun _ => steady 0 9)) = some (result, passed) ∧
        result = ((heatingSeconds (· > ·) (steady 0 9) (steady 0 9) (steady 0 9)).ncard : ℚ) /
          86400 ∧
        (passed = true ↔ result < 1 / 20) := by
  refine ⟨rfl, (zoneTempHeatingCheck_iff rfl rfl rfl).mpr ?_⟩
  have hnone : ∀ related : ℚ → ℚ → Prop,
      heatingSeconds related (steady 0 9) (steady 0 9) (steady 0 9) = ∅ := by
    intro related
    rw [Set.eq_empty_iff_forall_notMem]
    rintro k ⟨hheating, -⟩
    exact one_ne_zero (steady_value hheating)
  rw [hnone, hnone]

/-- Two hours of heating a room that is too warm. -/
def warmRoom : String → Series
  | "Heater Enable" => steady 1 7199
  | "Room Air Temp" => steady 25 7199
  | _ => steady 20 7199

theorem warmRoom_passes :
    ZoneTempHeatingCheck.run (.ofSeries warmRoom) = some (0, true) ∧
      (heatingSeconds (· > ·) (warmRoom "Heater Enable") (warmRoom "Room Air Temp")
        (warmRoom "Room Air Temp Setpoint")).ncard = 7200 := by
  constructor
  · have hnone : heatingSeconds (· < ·) (steady 1 7199) (steady 25 7199) (steady 20 7199) = ∅ := by
      rw [Set.eq_empty_iff_forall_notMem]
      rintro k ⟨-, temp, setpoint, htemp, hsetpoint, hlt⟩
      rw [steady_value htemp, steady_value hsetpoint] at hlt
      norm_num at hlt
    have hheating : (Data.ofSeries warmRoom).latestTime "Heater Enable" (hours 24) =
        some (steady 1 7199) := rfl
    have htemp : (Data.ofSeries warmRoom).latestTime "Room Air Temp" (hours 24) =
        some (steady 25 7199) := rfl
    have hsetpoint : (Data.ofSeries warmRoom).latestTime "Room Air Temp Setpoint" (hours 24) =
        some (steady 20 7199) := rfl
    rw [ZoneTempHeatingCheck.run_eq hheating htemp hsetpoint]
    simp [hnone]
  · have hall : heatingSeconds (· > ·) (steady 1 7199) (steady 25 7199) (steady 20 7199) =
        {k | (steady 1 7199).At k 1} := by
      ext k
      refine ⟨And.left, ?_⟩
      intro hheating
      obtain ⟨hlow, hhigh⟩ := (steady_seconds (by norm_num)).mp hheating
      exact ⟨hheating, 25, 20, steady_at hlow hhigh, steady_at hlow hhigh, by norm_num⟩
    show (heatingSeconds (· > ·) (steady 1 7199) (steady 25 7199) (steady 20 7199)).ncard = 7200
    rw [hall]
    exact steady_ncard (by norm_num)

end Runs

section Digital

/-- The seconds that a check of two digital points is for, with the points in the order in
which they are read. -/
def DigitalCheck.meant : DigitalCheck → Series → Series → Set Int
  | simultnsHeatCool, heating, cooling => {k | heating.At k 1 ∧ cooling.At k 1}
  | unitRunZoneUnoccupied, occupancy, enable => {k | enable.At k 1 ∧ occupancy.At k 0}
  | unitOffZoneOccupied, occupancy, enable => {k | enable.At k 0 ∧ occupancy.At k 1}

variable {a b : Series}

/-- On digital points a sum or a difference takes the value that is counted at the seconds
that are meant, and only there. -/
theorem DigitalCheck.pairSeconds_eq_meant (check : DigitalCheck) (ha : a.Digital)
    (hb : b.Digital) :
    pairSeconds (fun x y => check.body.combine x y = check.body.target) a b = check.meant a b := by
  ext k
  constructor
  · rintro ⟨x, y, hx, hy, htarget⟩
    rcases ha.at hx with rfl | rfl <;> rcases hb.at hy with rfl | rfl <;> cases check <;>
      norm_num [DigitalCheck.body, SimultnsHeatCool, UnitRunZoneUnoccupied,
        UnitOffZoneOccupied] at htarget
    · exact ⟨hy, hx⟩
    · exact ⟨hy, hx⟩
    · exact ⟨hx, hy⟩
  · cases check with
    | simultnsHeatCool =>
      rintro ⟨hx, hy⟩
      exact ⟨1, 1, hx, hy, by norm_num [DigitalCheck.body, SimultnsHeatCool]⟩
    | unitRunZoneUnoccupied =>
      rintro ⟨hy, hx⟩
      exact ⟨0, 1, hx, hy, by norm_num [DigitalCheck.body, UnitRunZoneUnoccupied]⟩
    | unitOffZoneOccupied =>
      rintro ⟨hy, hx⟩
      exact ⟨1, 0, hx, hy, by norm_num [DigitalCheck.body, UnitOffZoneOccupied]⟩

/-- The two series agree, or one of them is on and the other is off. -/
theorem digital_partition (ha : a.Digital) (hb : b.Digital) :
    (DigitalCheck.unitRunZoneUnoccupied.meant a b).ncard +
      (DigitalCheck.unitOffZoneOccupied.meant a b).ncard +
      (pairSeconds (fun x y => x = y) a b).ncard =
        (pairSeconds (fun _ _ => True) a b).ncard := by
  have hrun : DigitalCheck.unitRunZoneUnoccupied.meant a b =
      pairSeconds (fun x y => x = 0 ∧ y = 1) a b := by
    ext k
    simp [DigitalCheck.meant, pairSeconds, and_comm]
  have hoff : DigitalCheck.unitOffZoneOccupied.meant a b =
      pairSeconds (fun x y => x = 1 ∧ y = 0) a b := by
    ext k
    simp [DigitalCheck.meant, pairSeconds, and_comm]
  have hcases : pairSeconds (fun _ _ => True) a b =
      pairSeconds (fun x y => (x = 0 ∧ y = 1 ∨ x = 1 ∧ y = 0) ∨ x = y) a b := by
    ext k
    constructor
    · rintro ⟨x, y, hx, hy, -⟩
      refine ⟨x, y, hx, hy, ?_⟩
      rcases ha.at hx with rfl | rfl <;> rcases hb.at hy with rfl | rfl <;> simp
    · rintro ⟨x, y, hx, hy, -⟩
      exact ⟨x, y, hx, hy, trivial⟩
  rw [hrun, hoff, hcases, ncard_pairSeconds_or, ncard_pairSeconds_or]
  · rintro x y ⟨rfl, -⟩ ⟨hone, -⟩
    norm_num at hone
  · rintro x y (⟨rfl, rfl⟩ | ⟨rfl, rfl⟩) hsame
    · norm_num at hsame
    · norm_num at hsame

/-- The seconds that are meant are counted by the checks of the occupancy, and the counts
make a partition. The check for simultaneous heating and cooling raises on every input. -/
theorem digitalCheck_counts_iff (check : DigitalCheck) {data : Data}
    (ha : data.latestTime check.body.first (hours 24) = some a)
    (hb : data.latestTime check.body.second (hours 24) = some b) (hda : a.Digital)
    (hdb : b.Digital) :
    ((∃ passed, check.body.run data = some (((check.meant a b).ncard : ℚ) / 86400, passed)) ∧
      (DigitalCheck.unitRunZoneUnoccupied.meant a b).ncard +
        (DigitalCheck.unitOffZoneOccupied.meant a b).ncard +
        (pairSeconds (fun x y => x = y) a b).ncard =
          (pairSeconds (fun _ _ => True) a b).ncard) ↔
      check ≠ .simultnsHeatCool := by
  constructor
  · rintro ⟨⟨passed, hrun⟩, -⟩ rfl
    simp [DigitalCheck.body, SimultnsHeatCool_raises] at hrun
  · intro hcheck
    refine ⟨?_, digital_partition hda hdb⟩
    rw [PairCheck.run_eq (check.imports_datetime hcheck) ha hb, check.pairSeconds_eq_meant hda hdb]
    exact ⟨_, rfl⟩

theorem digitalCheck_counts_iff_steady :
    (Data.ofSeries (fun _ => steady 1 9)).latestTime "Room Occupancy" (hours 24) =
        some (steady 1 9) ∧ (steady 1 9).Digital ∧
      ∃ passed, UnitOffZoneOccupied.run (.ofSeries (fun _ => steady 1 9)) = some
        (((DigitalCheck.unitOffZoneOccupied.meant (steady 1 9) (steady 1 9)).ncard : ℚ) / 86400,
          passed) :=
  ⟨rfl, steady_digital 9, ((digitalCheck_counts_iff .unitOffZoneOccupied rfl rfl (steady_digital 9)
    (steady_digital 9)).mpr (by decide)).1⟩

theorem simultnsHeatCool_raises_on_ten_seconds :
    SimultnsHeatCool.run (.ofSeries (fun _ => steady 1 9)) = none ∧
      (DigitalCheck.simultnsHeatCool.meant (steady 1 9) (steady 1 9)).ncard = 10 := by
  refine ⟨SimultnsHeatCool_raises _, ?_⟩
  simp only [DigitalCheck.meant, and_self]
  exact steady_ncard (by norm_num)

end Digital

section Fractions

namespace DayCheck

def counted (check : DayCheck) (series : String → Series) : Set Int :=
  match check with
  | digital check =>
    pairSeconds (fun x y => check.body.combine x y = check.body.target) (series check.body.first)
      (series check.body.second)
  | zoneTempHeatingCheck =>
    heatingSeconds (· < ·) (series "Heater Enable") (series "Room Air Temp")
      (series "Room Air Temp Setpoint")

/-- The clock is at a whole second whenever it is read, and each of the 86401 seconds from
24 hours before until then is counted. -/
def Full (check : DayCheck) (now : String → Int) (series : String → Series) : Prop :=
  ∃ last, (∀ name ∈ check.points, now name = last * second) ∧
    ∀ k, last - 86400 ≤ k → k ≤ last → k ∈ check.counted series

variable {check : DayCheck} {series : String → Series} {k : Int}

theorem run_counted {data : Data} (hcheck : check ≠ digital .simultnsHeatCool)
    (hseries : ∀ name ∈ check.points, data.latestTime name (hours 24) = some (series name)) :
    ∃ passed, check.run data = some (((check.counted series).ncard : ℚ) / 86400, passed) := by
  cases check with
  | digital check =>
    have himports := check.imports_datetime (fun he => hcheck (he ▸ rfl))
    exact ⟨_, PairCheck.run_eq himports (hseries _ (by simp [points])) (hseries _ (by simp [points]))⟩
  | zoneTempHeatingCheck =>
    exact ⟨_, ZoneTempHeatingCheck.run_eq (hseries _ (by simp [points]))
      (hseries _ (by simp [points])) (hseries _ (by simp [points]))⟩

theorem counted_at (h : k ∈ check.counted series) :
    ∀ name ∈ check.points, ∃ x, (series name).At k x := by
  cases check with
  | digital check =>
    obtain ⟨x, y, hx, hy, -⟩ := h
    simp only [points, List.forall_mem_cons, List.not_mem_nil, false_imp_iff, implies_true, and_true]
    exact ⟨⟨x, hx⟩, y, hy⟩
  | zoneTempHeatingCheck =>
    obtain ⟨hheating, temp, setpoint, htemp, hsetpoint, -⟩ := h
    simp only [points, List.forall_mem_cons, List.not_mem_nil, false_imp_iff, implies_true, and_true]
    exact ⟨⟨1, hheating⟩, ⟨temp, htemp⟩, setpoint, hsetpoint⟩

theorem exists_point (check : DayCheck) : ∃ name, name ∈ check.points := by
  cases check with
  | digital check => exact ⟨check.body.first, List.mem_cons_self⟩
  | zoneTempHeatingCheck => exact ⟨"Heater Enable", List.mem_cons_self⟩

variable {db : Db} {asset : Nat} {now : String → Int}

/-- What is counted lies in the window of each query. -/
theorem counted_window
    (hseries : ∀ name ∈ check.points,
      DataGrab.latestTime db asset name (hours 24) (now name) = some (series name))
    (hpast : ∀ v ∈ db.logTimeValues.rows, ∀ t, v.datetimestamp = some t →
      ∀ name ∈ check.points, t ≤ now name)
    {name : String} (hname : name ∈ check.points) (hk : k ∈ check.counted series) :
    now name - (86400 : Nat) * second ≤ k * second ∧ k * second ≤ now name := by
  obtain ⟨x, hx⟩ := counted_at hk name hname
  obtain ⟨⟨s, hs, hle⟩, s', hs', hge⟩ := hx.between
  have hwindow : hours 24 = (86400 : Nat) * second := rfl
  obtain ⟨hstart, -⟩ := DataGrab.latestTime_samples (hseries name hname) hs
  obtain ⟨-, v, hv, htime⟩ := DataGrab.latestTime_samples (hseries name hname) hs'
  rw [← hwindow]
  exact ⟨hstart.trans hle, hge.trans (hpast v hv s'.time htime name hname)⟩

theorem counted_le_iff
    (hseries : ∀ name ∈ check.points,
      DataGrab.latestTime db asset name (hours 24) (now name) = some (series name))
    (hpast : ∀ v ∈ db.logTimeValues.rows, ∀ t, v.datetimestamp = some t →
      ∀ name ∈ check.points, t ≤ now name) :
    (check.counted series).ncard ≤ 86400 ↔ ¬ check.Full now series := by
  obtain ⟨name, hname⟩ := check.exists_point
  have hwindow := fun {name} (hname : name ∈ check.points) k hk =>
    counted_window (k := k) hseries hpast hname hk
  constructor
  · rintro hle ⟨last, -, hall⟩
    have hsub : Set.Icc (last - 86400) last ⊆ check.counted series := fun k hk => hall k hk.1 hk.2
    have hfinite : (check.counted series).Finite := by
      refine (series name).finite_at.subset ?_
      intro k hk
      exact counted_at hk name hname
    have hcard : (Set.Icc (last - 86400) last).ncard = 86401 := by
      rw [ncard_Icc]
      omega
    have hmono := Set.ncard_le_ncard hsub hfinite
    omega
  · intro hnot
    rcases ncard_le_or_eq_Icc (by decide) (hwindow hname) with hle | ⟨last, -, hall⟩
    · exact hle
    · refine absurd ⟨last, ?_, ?_⟩ hnot
      · intro name' hname'
        have hlast := (hwindow hname' last (by rw [hall]; simp)).2
        have hfirst := (hwindow hname' (last - (86400 : Nat)) (by rw [hall]; simp)).1
        rw [sub_mul, sub_le_sub_iff_right] at hfirst
        exact le_antisymm hfirst hlast
      · intro k hlow hhigh
        rw [hall]
        exact ⟨hlow, hhigh⟩

end DayCheck

/-- The result is a fraction unless every second of a window that begins and ends on a whole
second is counted. -/
theorem dayCheck_fraction_iff (check : DayCheck) {db : Db} {asset : Nat} {now : String → Int}
    {range : Int → Int → Int × Int} {series : String → Series}
    (hseries : ∀ name ∈ check.points,
      DataGrab.latestTime db asset name (hours 24) (now name) = some (series name))
    (hpast : ∀ v ∈ db.logTimeValues.rows, ∀ t, v.datetimestamp = some t →
      ∀ name ∈ check.points, t ≤ now name) :
    (∃ result passed, check.run (DataGrab.data db asset now range) = some (result, passed) ∧
      0 ≤ result ∧ result ≤ 1) ↔
      check ≠ .digital .simultnsHeatCool ∧ ¬ check.Full now series := by
  have hfraction : ∀ n : Nat, (n : ℚ) / 86400 ≤ 1 ↔ n ≤ 86400 := by
    intro n
    rw [div_le_one (by norm_num)]
    exact_mod_cast Iff.rfl
  by_cases hcheck : check = .digital .simultnsHeatCool
  · subst hcheck
    simp [DayCheck.run, DigitalCheck.body, SimultnsHeatCool_raises]
  · have hdata : ∀ name ∈ check.points,
        (DataGrab.data db asset now range).latestTime name (hours 24) = some (series name) := hseries
    obtain ⟨passed, hrun⟩ := DayCheck.run_counted hcheck hdata
    rw [← DayCheck.counted_le_iff hseries hpast, ← hfraction, hrun]
    constructor
    · rintro ⟨result, passed', hresult, -, hle⟩
      obtain ⟨rfl, -⟩ := Prod.mk.inj (Option.some.inj hresult)
      exact ⟨hcheck, hle⟩
    · rintro ⟨-, hle⟩
      exact ⟨_, passed, rfl, by positivity, hle⟩

/-- A zone that is occupied while its fan is off, from one midnight to the next. -/
def darkFan : Db :=
  { plant with
    pointTypes := ⟨[⟨1, "Room Occupancy"⟩, ⟨2, "Fan Enable"⟩], by decide⟩
    assetPoints := ⟨[⟨1, "occupancy", 1, 1, some 1⟩, ⟨2, "fan", 1, 2, some 2⟩], by decide⟩
    logTimeValues := ⟨[⟨1, 1, some 0, some 1, some 1⟩, ⟨2, 1, some (86400 * second), some 1, some 1⟩,
      ⟨3, 1, some 0, some 0, some 2⟩, ⟨4, 1, some (86400 * second), some 0, some 2⟩], by decide⟩ }

theorem darkFan_past {now : Int} (h : 86400 * second ≤ now) :
    ∀ v ∈ darkFan.logTimeValues.rows, ∀ t, v.datetimestamp = some t → t ≤ now := by
  have hzero : (0 : Int) ≤ now := le_trans (by decide) h
  simp [darkFan, h, hzero]

def darkFanLast (name : String) : Series :=
  [(some (86400 * second), some (if name = "Room Occupancy" then 1 else 0))]

theorem dayCheck_fraction_iff_darkFan :
    (∀ v ∈ darkFan.logTimeValues.rows, ∀ t, v.datetimestamp = some t → t ≤ 86400 * second + 1) ∧
      ∃ result passed, DayCheck.run (.digital .unitOffZoneOccupied) (DataGrab.data darkFan 1
        (fun _ => 86400 * second + 1) (fun _ _ => (0, 0))) = some (result, passed) ∧
          0 ≤ result ∧ result ≤ 1 := by
  have hpast := darkFan_past (show 86400 * second ≤ 86400 * second + 1 by decide)
  have hseries : ∀ name ∈ DayCheck.points (.digital .unitOffZoneOccupied),
      DataGrab.latestTime darkFan 1 name (hours 24) (86400 * second + 1) =
        some (darkFanLast name) := by
    simp only [DayCheck.points, DigitalCheck.body, UnitOffZoneOccupied, List.forall_mem_cons]
    exact ⟨rfl, rfl, by simp⟩
  refine ⟨hpast, (dayCheck_fraction_iff _ hseries (fun v hv t ht _ _ => hpast v hv t ht)).mpr
    ⟨by decide, ?_⟩⟩
  rintro ⟨last, hlast, -⟩
  have hwhole := hlast "Fan Enable" (by decide)
  simp only [second] at hwhole
  omega

theorem darkFan_exceeds :
    (∀ v ∈ darkFan.logTimeValues.rows, ∀ t, v.datetimestamp = some t → t ≤ 86400 * second) ∧
      DayCheck.run (.digital .unitOffZoneOccupied) (DataGrab.data darkFan 1
        (fun _ => 86400 * second) (fun _ _ => (0, 0))) = some (86401 / 86400, false) := by
  refine ⟨darkFan_past le_rfl, ?_⟩
  have hall : pairSeconds (fun x y => y - x = -1) (steady 1 86400) (steady 0 86400) =
      Set.Icc 0 86400 := by
    ext k
    constructor
    · rintro ⟨x, y, hx, -⟩
      rw [steady_value hx] at hx
      exact (steady_seconds (by norm_num)).mp hx
    · intro hk
      exact ⟨1, 0, steady_at hk.1 hk.2, steady_at hk.1 hk.2, by norm_num⟩
  have hcard : (Set.Icc (0 : Int) 86400).ncard = 86401 := ncard_Icc 0 86400
  have hoccupancy : (DataGrab.data darkFan 1 (fun _ => 86400 * second)
      (fun _ _ => (0, 0))).latestTime "Room Occupancy" (hours 24) = some (steady 1 86400) := rfl
  have henable : (DataGrab.data darkFan 1 (fun _ => 86400 * second)
      (fun _ _ => (0, 0))).latestTime "Fan Enable" (hours 24) = some (steady 0 86400) := rfl
  have himports : "datetime" ∈ UnitOffZoneOccupied.globals := List.mem_cons_self
  rw [DayCheck.run, DigitalCheck.body, PairCheck.run_eq himports hoccupancy henable]
  simp only [UnitOffZoneOccupied, hall, hcard]
  norm_num

end Fractions

end Medusa
