import Mathlib.Data.Finset.Basic
import Mathlib.Data.Rat.Defs
import Medusa.Table

/-! The rows of the Medusa database and the relationships between them. Foreign
keys are numbers; the many-to-many tables are finite sets of pairs, since both
columns make up their primary key. -/

namespace Medusa

open Relational

structure InbuildingsConfig where
  enabled : Bool
  key : String
deriving DecidableEq

structure Site where
  id : Nat
  name : String
  emailTriggerPriority : Int
  cmmsTriggerPriority : Int
  inbuildingsConfig : Option InbuildingsConfig
  emails : List String
deriving DecidableEq

structure AssetType where
  id : Nat
  name : String
deriving DecidableEq

structure PointType where
  id : Nat
  name : String
deriving DecidableEq

structure FunctionalDescriptor where
  id : Nat
  name : String
deriving DecidableEq

/-- A row of the algorithm table. `name` is the name of the class that holds the
code, `descr` the text shown to the user. -/
structure Algorithm where
  id : Nat
  name : String
  descr : String
  isMapped : Bool
deriving DecidableEq

structure Asset where
  id : Nat
  name : String
  location : String
  group : String
  health : ℚ
  priority : Int
  notes : String
  siteId : Nat
  typeId : Nat
  -- the linked row of the Inbuildings equipment list, if any
  inbuildings : Option Nat
deriving DecidableEq

structure AssetPoint where
  id : Nat
  name : String
  assetId : Nat
  typeId : Nat
  loggedentityId : Option Nat
deriving DecidableEq

structure Result where
  id : Nat
  firstTimestamp : Nat
  recentTimestamp : Nat
  assetId : Nat
  algorithmId : Nat
  value : ℚ
  passed : Bool
  priority : Int
  active : Bool
  acknowledged : Bool
  occurances : Nat
  recent : Bool
  notes : String
  points : List Nat
deriving DecidableEq

/-- A sample of a trend log, replicated from the database of a site. `parentId`
is the log's number in that database. -/
structure LogTimeValue where
  medusaId : Nat
  siteId : Nat
  datetimestamp : Option Int
  floatValue : Option ℚ
  parentId : Option Nat
deriving DecidableEq

structure LoggedEntity where
  medusaId : Nat
  siteId : Nat
  id : Option Nat
  path : Option String
deriving DecidableEq

abbrev Results := Table Result Result.id

structure Db where
  sites : Table Site Site.id
  assetTypes : Table AssetType AssetType.id
  pointTypes : Table PointType PointType.id
  functionalDescriptors : Table FunctionalDescriptor FunctionalDescriptor.id
  algorithms : Table Algorithm Algorithm.id
  assets : Table Asset Asset.id
  assetPoints : Table AssetPoint AssetPoint.id
  results : Results
  loggedEntities : Table LoggedEntity LoggedEntity.medusaId
  logTimeValues : Table LogTimeValue LogTimeValue.medusaId
  -- algorithm and point type it requires
  algoPointMapping : Finset (Nat × Nat)
  -- algorithm and functional descriptor it requires
  algoFunctionMapping : Finset (Nat × Nat)
  -- asset and functional descriptor that applies to it
  assetFunctionMapping : Finset (Nat × Nat)
  -- asset and algorithm that applies to it
  algoAssetMapping : Finset (Nat × Nat)
  -- asset and algorithm that is excluded from it
  algoExclusions : Finset (Nat × Nat)

def Db.empty : Db where
  sites := .empty
  assetTypes := .empty
  pointTypes := .empty
  functionalDescriptors := .empty
  algorithms := .empty
  assets := .empty
  assetPoints := .empty
  results := .empty
  loggedEntities := .empty
  logTimeValues := .empty
  algoPointMapping := ∅
  algoFunctionMapping := ∅
  assetFunctionMapping := ∅
  algoAssetMapping := ∅
  algoExclusions := ∅

def Db.siteOf (db : Db) (asset : Asset) : Option Site := db.sites.get? asset.siteId

def Db.pointsOf (db : Db) (asset : Nat) : List AssetPoint :=
  db.assetPoints.rows.filter (fun p => p.assetId == asset)

/-- `set(asset.algorithms) - set(asset.exclusions)`, as the list of its members. -/
def Db.toRun (db : Db) (asset : Asset) : List Algorithm :=
  db.algorithms.rows.filter (fun g =>
    decide ((asset.id, g.id) ∈ db.algoAssetMapping) &&
      !decide ((asset.id, g.id) ∈ db.algoExclusions))

/-- A result is unresolved while it is active, or was active and is not yet
acknowledged. -/
def Result.unresolved (r : Result) : Bool := r.active || !r.acknowledged

def plantSite : Site where
  id := 1
  name := "plant"
  emailTriggerPriority := 3
  cmmsTriggerPriority := 2
  inbuildingsConfig := some ⟨true, "key"⟩
  emails := ["operator"]

def fanUnit : Asset where
  id := 1
  name := "fan unit"
  location := "roof"
  group := ""
  health := 1
  priority := 1
  notes := ""
  siteId := 1
  typeId := 1
  inbuildings := none

def fanCheck : Algorithm := ⟨1, "FanCheck", "fan runs without need", true⟩

theorem plantSite_nodup : ([plantSite].map Site.id).Nodup := by simp

def plant : Db :=
  { Db.empty with
    sites := ⟨[plantSite], plantSite_nodup⟩
    assets := ⟨[fanUnit], by simp⟩
    algorithms := ⟨[fanCheck], by simp⟩
    algoAssetMapping := {(1, 1)} }

def fanPlant : Db :=
  { plant with
    assetTypes := ⟨[⟨1, "fan"⟩], by simp⟩
    pointTypes := ⟨[⟨1, "fan status"⟩], by simp⟩
    assetPoints := ⟨[⟨1, "fan status", 1, 1, none⟩], by simp⟩
    algoPointMapping := {(1, 1)} }

end Medusa
