import Mathlib.Data.List.Sort
import Medusa.MapAlgorithms

/-! The queries that read trend logs: `DataGrab` for the algorithms, which asks
for the asset's point by the name of its type, and `LogSampleFetcher` for the
charts. `none` is the exception that a query raises. Times are numbers, and the
current time is an argument wherever the code reads the clock. -/

namespace Medusa

open Relational

abbrev Series := List (Option Int × Option ℚ)

def toSeries (samples : List LogTimeValue) : Series :=
  samples.map (fun v => (v.datetimestamp, v.floatValue))

namespace LogTimeValue

/-- The descending order by time stamp. A missing time stamp comes last. -/
def later (v w : LogTimeValue) : Bool :=
  match v.datetimestamp, w.datetimestamp with
  | _, none => true
  | none, some _ => false
  | some t, some u => decide (u ≤ t)

/-- A missing time stamp passes no comparison. -/
def notBefore (start : Int) (v : LogTimeValue) : Bool :=
  match v.datetimestamp with
  | none => false
  | some t => decide (start ≤ t)

def notAfter (finish : Int) (v : LogTimeValue) : Bool :=
  match v.datetimestamp with
  | none => false
  | some t => decide (t ≤ finish)

end LogTimeValue

def Db.samplesOf (db : Db) (log : Option Nat) : List LogTimeValue :=
  db.logTimeValues.rows.filter (fun v => v.parentId == log)

namespace DataGrab

def point (db : Db) (asset : Nat) (pointName : String) : Option AssetPoint :=
  db.assetPoints.one? (fun p =>
    db.pointTypes.rows.any (fun t => t.id == p.typeId && t.name == pointName) && p.assetId == asset)

def latestQty (db : Db) (asset : Nat) (pointName : String) (quantity : Nat) : Option Series := do
  let point ← point db asset pointName
  pure (toSeries (((db.samplesOf point.loggedentityId).insertionSort
    (fun v w => v.later w = true)).take quantity))

def latestTime (db : Db) (asset : Nat) (pointName : String) (timedelta now : Int) :
    Option Series := do
  let point ← point db asset pointName
  pure (toSeries ((db.samplesOf point.loggedentityId).filter
    (LogTimeValue.notBefore (now - timedelta))))

/-- The clock is read twice. -/
def timeRange (db : Db) (asset : Nat) (pointName : String)
    (timedeltaStart timedeltaFinish now now' : Int) : Option Series := do
  let point ← point db asset pointName
  pure (toSeries ((db.samplesOf point.loggedentityId).filter (fun v =>
    v.notBefore (now - timedeltaStart) && v.notAfter (now' - timedeltaFinish))))

end DataGrab

structure LogSampleFetcher where
  point : AssetPoint
  siteId : Nat
  loggedEntity : Option LoggedEntity

inductive SampleRow
  | header (time value : String)
  | sample (time : Option Int) (value : Option ℚ)
  | blank (time value : Nat)
deriving DecidableEq

inductive Samples
  | series (samples : Series)
  | list (rows : List SampleRow)
deriving DecidableEq

namespace LogSampleFetcher

def init (db : Db) (assetPointId : Nat) : Option LogSampleFetcher := do
  let point ← db.assetPoints.one? (fun p => p.id == assetPointId)
  let asset ← db.assets.one? (fun a => a.id == point.assetId)
  pure
    { point := point
      siteId := asset.siteId
      loggedEntity := db.loggedEntities.first? (fun e =>
        e.id == point.loggedentityId && e.siteId == asset.siteId) }

def toList (samples : List LogTimeValue) : List SampleRow :=
  let series := samples.map (fun v => SampleRow.sample v.datetimestamp v.floatValue)
  .header "Time" "Value" :: if series.isEmpty then [.blank 0 0] else series

/-- Without a logged entity, reading its id raises. -/
def range (db : Db) (fetcher : LogSampleFetcher) (startDatetime endDatetime : Int)
    (asList : Bool) : Option Samples := do
  let entity ← fetcher.loggedEntity
  let samples := (db.samplesOf entity.id).filter (fun v =>
    v.notBefore startDatetime && v.notAfter endDatetime)
  pure (if asList then .list (toList samples) else .series (toSeries samples))

end LogSampleFetcher

/-- If the name is the name of one type only, the lookup succeeds exactly if the
asset has one point of that type. -/
theorem DataGrab.point_isSome_iff {db : Db} {asset : Nat} {pointName : String} {t : PointType}
    (ht : t ∈ db.pointTypes.rows) (hname : t.name = pointName)
    (hone : ∀ t' ∈ db.pointTypes.rows, t'.name = pointName → t' = t) :
    (DataGrab.point db asset pointName).isSome ↔
      ∃! p, p ∈ db.pointsOf asset ∧ p.typeId = t.id := by
  have htype : ∀ p : AssetPoint,
      db.pointTypes.rows.any (fun t' => t'.id == p.typeId && t'.name == pointName) = true ↔
        p.typeId = t.id := by
    intro p
    simp only [List.any_eq_true, Bool.and_eq_true, beq_iff_eq]
    constructor
    · rintro ⟨t', ht', hid, hn⟩
      rw [← hid, hone t' ht' hn]
    · intro h
      exact ⟨t, ht, h.symm, hname⟩
  rw [DataGrab.point, Table.one?_isSome]
  apply existsUnique_congr
  intro p
  simp only [Bool.and_eq_true, htype, beq_iff_eq, Db.pointsOf, List.mem_filter]
  tauto

section Queries

variable {db : Db} {asset : Nat} {pointName : String}

theorem DataGrab.latestQty_isSome {quantity : Nat} :
    (DataGrab.latestQty db asset pointName quantity).isSome =
      (DataGrab.point db asset pointName).isSome := by
  unfold DataGrab.latestQty
  cases DataGrab.point db asset pointName <;> rfl

theorem DataGrab.latestTime_isSome {timedelta now : Int} :
    (DataGrab.latestTime db asset pointName timedelta now).isSome =
      (DataGrab.point db asset pointName).isSome := by
  unfold DataGrab.latestTime
  cases DataGrab.point db asset pointName <;> rfl

theorem DataGrab.timeRange_isSome {timedeltaStart timedeltaFinish now now' : Int} :
    (DataGrab.timeRange db asset pointName timedeltaStart timedeltaFinish now now').isSome =
      (DataGrab.point db asset pointName).isSome := by
  unfold DataGrab.timeRange
  cases DataGrab.point db asset pointName <;> rfl

end Queries

/-- Where the mapper relates an algorithm to an asset, the asset has a point of each
type that the algorithm asks for, and the queries for it succeed exactly if there
is only one. -/
theorem related_queries_succeed_iff (classes : String → Option AlgorithmClass) (db : Db)
    (loads : Nat → Bool) (order : IterationOrder Nat) (rebuilds : List Rebuild) :
    let s := rebuilds.foldl (Rebuild.run classes) (mapAlgorithms classes order (.start db loads))
    ∀ a ∈ db.assets.rows, ∀ g ∈ db.algorithms.rows, (a.id, g.id) ∈ s.relation →
      ∃ cls, classes g.name = some cls ∧ ∀ name ∈ cls.pointsRequired,
        ∃ t ∈ db.pointTypes.rows, t.name = name ∧
          (∃ p ∈ db.pointsOf a.id, p.typeId = t.id) ∧
          ∀ (quantity : Nat) (timedelta timedeltaStart timedeltaFinish now now' : Int),
            let single := ∃! p, p ∈ db.pointsOf a.id ∧ p.typeId = t.id
            ((DataGrab.latestQty s.db a.id name quantity).isSome ↔ single) ∧
            ((DataGrab.latestTime s.db a.id name timedelta now).isSome ↔ single) ∧
            ((DataGrab.timeRange s.db a.id name timedeltaStart timedeltaFinish now now').isSome ↔
              single) := by
  intro s a ha g hg hrelated
  obtain ⟨hbase, hsettled⟩ := rebuild_settled classes db loads order rebuilds
  obtain ⟨cls, hcls, htypes, -, hpoints, -⟩ := (hsettled.applies hbase ha hg).mp hrelated
  refine ⟨cls, hcls, ?_⟩
  intro name hn
  obtain ⟨t, ⟨ht, hname⟩, hone⟩ := htypes name hn
  refine ⟨t, ht, hname, hpoints name hn t ht hname, ?_⟩
  have hpoint : DataGrab.point s.db a.id name = DataGrab.point db a.id name :=
    congrArg (fun b => DataGrab.point b.1 a.id name) hbase
  have hsingle : (DataGrab.point s.db a.id name).isSome ↔
      ∃! p, p ∈ db.pointsOf a.id ∧ p.typeId = t.id := by
    rw [hpoint]
    exact DataGrab.point_isSome_iff ht hname (fun t' ht' hn' => hone t' ⟨ht', hn'⟩)
  intro quantity timedelta timedeltaStart timedeltaFinish now now'
  rw [DataGrab.latestQty_isSome, DataGrab.latestTime_isSome, DataGrab.timeRange_isSome]
  exact ⟨hsingle, hsingle, hsingle⟩

theorem related_queries_succeed_iff_fanPlant :
    fanUnit ∈ fanPlant.assets.rows ∧ fanCheck ∈ fanPlant.algorithms.rows ∧
      (1, 1) ∈ (mapAlgorithms fanClasses (.listed Nat) (.start fanPlant fun _ => true)).relation ∧
      ∃ t ∈ fanPlant.pointTypes.rows, t.name = "fan status" ∧
        ∃ p ∈ fanPlant.pointsOf 1, p.typeId = t.id := by
  have hrelated : (1, 1) ∈
      (mapAlgorithms fanClasses (.listed Nat) (.start fanPlant fun _ => true)).relation := by
    decide +kernel
  refine ⟨List.mem_singleton.mpr rfl, List.mem_singleton.mpr rfl, hrelated, ?_⟩
  obtain ⟨cls, hcls, hnames⟩ := related_queries_succeed_iff fanClasses fanPlant (fun _ => true)
    (.listed Nat) [] fanUnit (List.mem_singleton.mpr rfl) fanCheck (List.mem_singleton.mpr rfl)
    hrelated
  have hclass : fanClasses fanCheck.name = some ⟨["fan status"], []⟩ := by decide
  obtain rfl := Option.some.inj (hcls.symm.trans hclass)
  obtain ⟨t, ht, hname, hpoint, -⟩ := hnames "fan status" List.mem_cons_self
  exact ⟨t, ht, hname, hpoint⟩

def twoStatusPlant : Db :=
  { fanPlant with
    assetPoints := ⟨[⟨1, "fan status", 1, 1, none⟩, ⟨2, "fan status", 1, 1, none⟩], by decide⟩ }

theorem related_query_raises :
    let s := mapAlgorithms fanClasses (.listed Nat) (.start twoStatusPlant fun _ => true)
    fanClasses fanCheck.name = some ⟨["fan status"], []⟩ ∧ (1, 1) ∈ s.relation ∧
      DataGrab.latestQty s.db 1 "fan status" 1 = none ∧
      DataGrab.latestTime s.db 1 "fan status" 60 0 = none ∧
      DataGrab.timeRange s.db 1 "fan status" 60 0 0 0 = none := by
  decide +kernel

end Medusa
