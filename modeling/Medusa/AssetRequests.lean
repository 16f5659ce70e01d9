import Medusa.Mapping

/-! The requests that add, edit and delete assets. Each runs in a session of its
own. An exception ends the request and takes back what was not committed yet. -/

namespace Medusa

open Relational

/-- The fields of a form with the same number. The id of a previous point is
`none` if it is the id of no row. -/
structure PointField where
  prevPoint : Option (Option Nat)
  point : Option String
  log : Option String

/-- A posted form. `valid` says whether it passes the checks that the form class
makes, and `algorithms` are the descriptions that are ticked. -/
structure AssetForm where
  valid : Bool
  type : String
  name : String
  location : String
  group : String
  priority : Option Int
  notes : String
  fields : Nat → PointField
  functions : List String
  algorithms : List String

def AssetPoint.setLog (log : Option Nat) (p : AssetPoint) : AssetPoint :=
  { p with loggedentityId := log }

@[simp] theorem AssetPoint.setLog_id (log : Option Nat) (p : AssetPoint) :
    (p.setLog log).id = p.id := rfl

def AssetForm.newAsset (form : AssetForm) (site type id : Nat) : Asset where
  id := id
  name := form.name
  location := form.location
  group := form.group
  health := 0
  -- the column has a default, which is used for a missing value
  priority := form.priority.getD 0
  notes := form.notes
  siteId := site
  typeId := type
  inbuildings := none

theorem AssetForm.newAsset_id (form : AssetForm) (site type id : Nat) :
    (form.newAsset site type id).id = id := rfl

def AssetForm.setAttributes (form : AssetForm) (type : Nat) (priority : Int) (a : Asset) : Asset :=
  { a with
    typeId := type
    name := form.name
    location := form.location
    group := form.group
    priority := priority
    notes := form.notes }

theorem AssetForm.setAttributes_id (form : AssetForm) (type : Nat) (priority : Int) (a : Asset) :
    (form.setAttributes type priority a).id = a.id := rfl

def newPoint (asset type : Nat) (name : String) (id : Nat) : AssetPoint :=
  ⟨id, name, asset, type, none⟩

theorem newPoint_id (asset type : Nat) (name : String) (id : Nat) :
    (newPoint asset type name id).id = id := rfl

def Result.forgetPoints (old : List Nat) (r : Result) : Result :=
  { r with points := r.points.filter (fun id => decide (id ∉ old)) }

theorem Result.forgetPoints_id (old : List Nat) (r : Result) : (r.forgetPoints old).id = r.id := rfl

namespace Session

def createPoint (s : Session) (asset type : Nat) (name : String) : Session :=
  { s with
    db := { s.db with
      assetPoints := s.db.assetPoints.insert (newPoint asset type name)
        (newPoint_id asset type name) }
    dirty := asset :: s.dirty }

def assignLog (s : Session) (asset point : Nat) (log : Option Nat) : Session :=
  { s with
    db := { s.db with
      assetPoints := s.db.assetPoints.update (fun p => p.id == point) (AssetPoint.setLog log)
        (AssetPoint.setLog_id log) }
    dirty := asset :: s.dirty }

/-- The deleted points stay in the loaded collection. -/
def deletePoints (s : Session) (asset : Nat) (old : List Nat) : Session :=
  { s with
    db := { s.db with
      assetPoints := s.db.assetPoints.delete (fun p => decide (p.id ∈ old))
      results := s.db.results.update (fun _ => true) (Result.forgetPoints old)
        (Result.forgetPoints_id old) }
    ghosts := s.db.assetPoints.rows.filter (fun p => decide (p.id ∈ old)) ++ s.ghosts
    dirty := if old.isEmpty then s.dirty else asset :: s.dirty }

def clearDescriptors (s : Session) (asset : Nat) : Session :=
  { s with
    db := { s.db with
      assetFunctionMapping := s.db.assetFunctionMapping.filter (fun q => q.1 ≠ asset) }
    dirty := if ∃ q ∈ s.db.assetFunctionMapping, q.1 = asset then asset :: s.dirty else s.dirty }

def addDescriptor (s : Session) (asset descriptor : Nat) : Session :=
  { s with
    db := { s.db with
      assetFunctionMapping := insert (asset, descriptor) s.db.assetFunctionMapping }
    dirty := asset :: s.dirty }

def clearExclusions (s : Session) (asset : Nat) : Session :=
  { s with
    db := { s.db with algoExclusions := s.db.algoExclusions.filter (fun q => q.1 ≠ asset) }
    dirty := if ∃ q ∈ s.db.algoExclusions, q.1 = asset then asset :: s.dirty else s.dirty }

def exclude (s : Session) (asset : Nat) (inclusions : List Nat) : Session :=
  let exclusions := s.db.algorithms.rows.filter (fun g => decide (g.id ∉ inclusions))
  { s with
    db := { s.db with
      algoExclusions := s.db.algoExclusions ∪
        (exclusions.map (fun g => (asset, g.id))).toFinset }
    dirty := if exclusions.isEmpty then s.dirty else asset :: s.dirty }

end Session

def setFunction (asset : Nat) (s : Session) (name : String) : Option Session :=
  if name = "" then some s
  else do
    let f ← s.access.db.functionalDescriptors.one? (fun f => f.name == name)
    pure (s.access.addDescriptor asset f.id)

/-- A log field that is empty binds no log. -/
def bindLog (asset point : Nat) (s : Session) (log : Option String) : Option Session :=
  if log = some "" then some s
  else do
    let entity ← s.access.db.loggedEntities.one? (fun e => e.path == log)
    pure (s.access.assignLog asset point entity.id)

/-- With a log in the form, `add_asset` asks a session that is not defined. -/
def addField (asset : Nat) (form : AssetForm) (s : Session) (i : Nat) : Option Session :=
  match (form.fields i).point with
  | none => some s
  | some name => do
    let type ← s.access.db.pointTypes.one? (fun t => t.name == name)
    if (form.fields i).log = some "" then some (s.access.createPoint asset type.id name) else none

/-- The exclusions are extended inside the loop, after each ticked algorithm. An
exception ends the loop and is caught. -/
def addExclusions (asset : Nat) : List Nat → Session → List String → Session
  | _, s, [] => s
  | inclusions, s, descr :: rest =>
    match s.access.db.algorithms.one? (fun g => g.descr == descr) with
    | none => s.access
    | some g =>
      addExclusions asset (g.id :: inclusions)
        (s.access.access.exclude asset (g.id :: inclusions)) rest

def addDetails (asset : Nat) (form : AssetForm) (s : Session) : Option Session := do
  let s ← (List.range' 1 99).foldlM (addField asset form) s
  let s ← form.functions.foldlM (setFunction asset) s
  pure (addExclusions asset [] s form.algorithms)

def createAsset (loads : Nat → Bool) (db : Db) (sitename : String) (form : AssetForm) :
    Option Session := do
  let site ← db.sites.one? (fun s => s.name == sitename)
  let type ← (if form.valid then db.assetTypes.one? (fun t => t.name == form.type) else none)
  pure
    { Session.start db loads with
      db := { db with
        assets := db.assets.insert (form.newAsset site.id type.id)
          (form.newAsset_id site.id type.id) }
      dirty := [db.assets.nextKey] }

def addAsset (loads : Nat → Bool) (db : Db) (sitename : String) (form : AssetForm) : Db :=
  match createAsset loads db sitename form with
  | none => db
  | some s =>
    match addDetails db.assets.nextKey form s.commit with
    | none => s.commit.db
    | some s' => s'.commit.db

/-- `old` are the points that no field has named yet. -/
def editField (asset : Nat) (form : AssetForm) (state : Session × List Nat) (i : Nat) :
    Option (Session × List Nat) :=
  match (form.fields i).prevPoint with
  | some pointId => do
    let id ← pointId
    let point ← state.1.access.db.assetPoints.one? (fun p => p.id == id)
    if point.id ∈ state.2 then do
      let s ← bindLog asset point.id state.1.access (form.fields i).log
      pure (s, state.2.erase point.id)
    else none
  | none =>
    match (form.fields i).point with
    | none => some state
    | some name => do
      let type ← state.1.access.db.pointTypes.one? (fun t => t.name == name)
      let s ← bindLog asset state.1.access.db.assetPoints.nextKey
        (state.1.access.createPoint asset type.id name) (form.fields i).log
      pure (s, state.2)

def includeAlgorithm (state : Session × List Nat) (descr : String) : Option (Session × List Nat) := do
  let g ← state.1.access.db.algorithms.one? (fun g => g.descr == descr)
  pure (state.1.access, g.id :: state.2)

def editDetails (asset : Nat) (form : AssetForm) (s : Session) : Option Session := do
  let (s, old) ← (List.range' 1 99).foldlM (editField asset form)
    (s.access, (s.access.db.pointsOf asset).map AssetPoint.id)
  let s := (s.deletePoints asset old).access.clearDescriptors asset
  let s ← form.functions.foldlM (setFunction asset) s
  let (s, inclusions) ← form.algorithms.foldlM includeAlgorithm (s.access.clearExclusions asset, [])
  pure (s.access.exclude asset inclusions)

def editAttributes (loads : Nat → Bool) (db : Db) (sitename : String) (assetId : Nat)
    (form : AssetForm) : Option Session := do
  let _ ← db.sites.one? (fun s => s.name == sitename)
  let asset ← db.assets.one? (fun a => a.id == assetId)
  let type ← (if form.valid then db.assetTypes.one? (fun t => t.name == form.type) else none)
  -- a missing value cannot be stored in an existing row
  let priority ← form.priority
  pure
    { Session.start db loads with
      db := { db with
        assets := db.assets.update (fun a => a.id == asset.id)
          (form.setAttributes type.id priority) (form.setAttributes_id type.id priority) }
      dirty := [asset.id] }

def editAsset (loads : Nat → Bool) (db : Db) (sitename : String) (assetId : Nat)
    (form : AssetForm) : Db :=
  match editAttributes loads db sitename assetId form with
  | none => db
  | some s =>
    match editDetails assetId form s.commit with
    | none => s.commit.db
    | some s' => s'.commit.db

def Db.removeAsset (db : Db) (asset : Nat) : Db :=
  { db with
    assets := db.assets.delete (fun a => a.id == asset)
    assetPoints := db.assetPoints.delete (fun p => p.assetId == asset)
    results := db.results.delete (fun r => r.assetId == asset)
    assetFunctionMapping := db.assetFunctionMapping.filter (fun q => q.1 ≠ asset)
    algoAssetMapping := db.algoAssetMapping.filter (fun q => q.1 ≠ asset)
    algoExclusions := db.algoExclusions.filter (fun q => q.1 ≠ asset) }

def deleteAsset (loads : Nat → Bool) (db : Db) (assetId : Nat) : Db :=
  match db.assets.one? (fun a => a.id == assetId) with
  | none => db
  | some asset => { Session.start db loads with dirty := [asset.id] }.flush.db.removeAsset asset.id

end Medusa
