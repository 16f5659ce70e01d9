import Mathlib.Data.List.ReduceOption
import Medusa.MappingInvariant
import Medusa.Requests
import Medusa.Ticket.Attachments

/-! Assets from a workbook. The upload reads a sheet for each type of asset and shows what it
found, without saving it. When the page is submitted, a script sends the fields of the page
back as texts, and they are saved in one commit, in the order in which the dictionary of the
rows happens to be traversed. -/

namespace Medusa

open Relational

/-- The value of a cell: its text, and whether the database takes it for a priority. -/
structure CellValue where
  str : String
  stores : Bool

/-- A cell without a value is `none`. All rows of a sheet have its width. -/
structure Worksheet where
  title : String
  rows : List (List (Option CellValue))

/-- `sheets` is missing if the content is no workbook. -/
structure WorkbookFile where
  filename : String
  sheets : Option (List Worksheet)

/-- A row of the page, as it is printed and sent back. -/
structure UploadedAsset where
  name : String
  type : String
  location : String
  group : String
  priority : String
  notes : String
deriving DecidableEq

inductive UploadReply
  | flash (message : String)
  | page (assets : List UploadedAsset)
deriving DecidableEq

/-- An optional text: `str` makes the word "None" of a cell without a value. -/
def optionalText (cell : Option CellValue) : String :=
  let text := (cell.map CellValue.str).getD "None"
  if text = "None" then "" else text

/-- The asset of a row, and whether its priority can be written. A row without a name,
location or priority is skipped. `none` is the exception for a row that is too short, which
is raised at the first cell that is not there. -/
def readRow (type : String) (row : List (Option CellValue)) :
    Option (Option (UploadedAsset × Bool)) := do
  let some name ← row[0]? | pure none
  let some location ← row[1]? | pure none
  let some priority ← row[3]? | pure none
  let group ← row[2]?
  let notes ← row[4]?
  pure (some (⟨name.str, type, optionalText (some location), optionalText group, priority.str,
    optionalText notes⟩, priority.stores))

/-- One turn of the loop over the sheets. The query for the type writes the assets of the
sheets before, which belong to the session since they belong to the site. -/
def readSheet (db : Db) (found : List (UploadedAsset × Bool)) (sheet : Worksheet) :
    Option (List (UploadedAsset × Bool)) := do
  guard (found.all Prod.snd)
  let type ← db.assetTypes.one? (fun t => t.name == sheet.title)
  let assets ← (sheet.rows.drop 1).mapM (readRow type.name)
  pure (found ++ assets.reduceOption)

def isWorkbookName (filename : String) : Bool :=
  match getExtension filename with
  | some extension => String.ofList (extension.toList.map Char.toLower) ∈ ["xlsx", "xlsm"]
  | none => false

def addAssetUpload (db : Db) (sitename : String) (file : Option WorkbookFile) :
    Option UploadReply := do
  let _ ← db.sites.one? (fun s => s.name == sitename)
  match file with
  | none => pure (.flash "No file selected")
  | some file =>
    if file.filename = "" then pure (.flash "No file selected")
    else if isWorkbookName file.filename = false then pure (.flash "File must be xlsx/xlsm")
    else do
      let sheets ← file.sheets
      let found ← sheets.foldlM (readSheet db) []
      pure (.page (found.map Prod.fst))

def UploadedAsset.newAsset (row : UploadedAsset) (site type : Nat) (priority : Int) (id : Nat) :
    Asset where
  id := id
  name := row.name
  location := row.location
  group := row.group
  health := 0
  priority := priority
  notes := row.notes
  siteId := site
  typeId := type
  inbuildings := none

theorem UploadedAsset.newAsset_id (row : UploadedAsset) (site type : Nat) (priority : Int) (id : Nat) :
    (row.newAsset site type priority id).id = id := rfl

def Session.createAsset (s : Session) (row : UploadedAsset) (site type : Nat) (priority : Int) :
    Session :=
  { s with
    db := { s.db with
      assets := s.db.assets.insert (row.newAsset site type priority)
        (row.newAsset_id site type priority) }
    dirty := s.db.assets.nextKey :: s.dirty }

/-- `asInteger` is what the database makes of a text for an integer column. A text that it
refuses raises when the asset is written, before the commit is complete. -/
def confirmAsset (asInteger : String → Option Int) (site : Nat) (s : Session) (row : UploadedAsset) :
    Option Session := do
  let type ← s.access.db.assetTypes.one? (fun t => t.name == row.type)
  let priority ← asInteger row.priority
  pure (s.access.createAsset row site type.id priority)

/-- `values` are the values of the dictionary that was sent. What is returned raises, but
after the commit. -/
def addAssetConfirm (asInteger : String → Option Int) (loads : Nat → Bool) (db : Db)
    (sitename : String) (values : List UploadedAsset) : Option Db := do
  let site ← db.sites.one? (fun s => s.name == sitename)
  let s ← values.foldlM (confirmAsset asInteger site.id) (Session.start db loads)
  pure s.commit.db

/-- A row with the cells that an asset must have. -/
def completeRow (row : List (Option CellValue)) : Bool :=
  [0, 1, 3].all (fun i => (row[i]?.bind id).isSome)

def cellText (row : List (Option CellValue)) (i : Nat) : Option String :=
  (row[i]?.bind id).map CellValue.str

/-- The asset that a complete row describes. -/
def rowAsset (type : String) (row : List (Option CellValue)) : UploadedAsset where
  name := (cellText row 0).getD ""
  type := type
  location := optionalText (row[1]?.bind id)
  group := optionalText (row[2]?.bind id)
  priority := (cellText row 3).getD ""
  notes := optionalText (row[4]?.bind id)

/-- The complete rows below the header. -/
def Worksheet.assets (sheet : Worksheet) : List UploadedAsset :=
  ((sheet.rows.drop 1).filter completeRow).map (rowAsset sheet.title)

/-- The row of the asset table for an asset of the page, under whatever id. -/
def Db.Saves (db : Db) (asInteger : String → Option Int) (site : Nat) (row : UploadedAsset)
    (a : Asset) : Prop :=
  ∃ type priority, db.assetTypes.one? (fun t => t.name == row.type) = some type ∧
    asInteger row.priority = some priority ∧ a = row.newAsset site type.id priority a.id

def Db.savable (db : Db) (asInteger : String → Option Int) (row : UploadedAsset) : Bool :=
  (db.assetTypes.one? (fun t => t.name == row.type)).isSome && (asInteger row.priority).isSome

section Reading

variable {type : String} {row : List (Option CellValue)}

theorem readRow_eq_some {found : Option (UploadedAsset × Bool)} (h : readRow type row = some found) :
    found.map Prod.fst = if completeRow row then some (rowAsset type row) else none := by
  simp only [completeRow, rowAsset, cellText, List.all_cons, List.all_nil, Bool.and_true]
  unfold readRow at h
  generalize row[0]? = name, row[1]? = location, row[2]? = group, row[3]? = priority,
    row[4]? = notes at h ⊢
  rcases name with _ | _ | name
  · exact absurd h (by simp)
  · obtain rfl : none = found := by simpa using h
    rfl
  rcases location with _ | _ | location
  · exact absurd h (by simp)
  · obtain rfl : none = found := by simpa using h
    rfl
  rcases priority with _ | _ | priority
  · exact absurd h (by simp)
  · obtain rfl : none = found := by simpa using h
    rfl
  rcases group with _ | group
  · exact absurd h (by simp)
  rcases notes with _ | notes
  · exact absurd h (by simp)
  obtain rfl := Option.some.inj h
  rfl

theorem mapM_readRow {rows : List (List (Option CellValue))}
    {found : List (Option (UploadedAsset × Bool))} (h : rows.mapM (readRow type) = some found) :
    found.reduceOption.map Prod.fst = (rows.filter completeRow).map (rowAsset type) := by
  rw [mapM_eq_some] at h
  induction rows generalizing found with
  | nil =>
    obtain rfl : found = [] := by simpa using h.symm
    rfl
  | cons row rows ih =>
    cases found with
    | nil => simp at h
    | cons first found =>
      rw [List.map_cons, List.map_cons, List.cons.injEq] at h
      have hfirst := readRow_eq_some h.1
      have hrest := ih h.2
      cases hcomplete : completeRow row with
      | false =>
        obtain rfl : first = none := by simpa [hcomplete] using hfirst
        rw [List.reduceOption_cons_of_none, hrest, List.filter_cons_of_neg (by simp [hcomplete])]
      | true =>
        obtain ⟨asset, rfl, hasset⟩ : ∃ asset, first = some asset ∧ asset.1 = rowAsset type row := by
          simpa [hcomplete, Option.map_eq_some_iff] using hfirst
        rw [List.reduceOption_cons_of_some, List.map_cons, hasset, hrest,
          List.filter_cons_of_pos hcomplete, List.map_cons]

theorem readSheet_eq_some {db : Db} {found found' : List (UploadedAsset × Bool)} {sheet : Worksheet}
    (h : readSheet db found sheet = some found') :
    found'.map Prod.fst = found.map Prod.fst ++ sheet.assets := by
  simp only [readSheet, Option.bind_eq_bind, Option.bind_eq_some_iff, guard_eq_some,
    Option.pure_def, Option.some.injEq] at h
  obtain ⟨-, -, type, htype, assets, hassets, rfl⟩ := h
  have htitle : type.name = sheet.title := by simpa using (Table.one?_eq_some.mp htype).1.2
  rw [htitle] at hassets
  rw [List.map_append, mapM_readRow hassets, Worksheet.assets]

theorem foldlM_readSheet {db : Db} {sheets : List Worksheet}
    {found found' : List (UploadedAsset × Bool)}
    (h : sheets.foldlM (readSheet db) found = some found') :
    found'.map Prod.fst = found.map Prod.fst ++ sheets.flatMap Worksheet.assets := by
  induction sheets generalizing found with
  | nil =>
    obtain rfl := Option.some.inj h
    simp
  | cons sheet sheets ih =>
    rw [List.foldlM_cons, Option.bind_eq_bind, Option.bind_eq_some_iff] at h
    obtain ⟨middle, hsheet, hrest⟩ := h
    rw [ih hrest, readSheet_eq_some hsheet, List.flatMap_cons, List.append_assoc]

theorem addAssetUpload_page {db : Db} {sitename : String} {file : Option WorkbookFile}
    {assets : List UploadedAsset} (h : addAssetUpload db sitename file = some (.page assets)) :
    ∃ filename sheets, file = some ⟨filename, some sheets⟩ ∧
      assets = sheets.flatMap Worksheet.assets := by
  obtain ⟨site, -, h⟩ := Option.bind_eq_some_iff.mp h
  rcases file with _ | ⟨filename, sheets⟩
  · simp at h
  · simp only at h
    split at h
    · simp at h
    · split at h
      · simp at h
      · simp only [Option.bind_eq_bind, Option.bind_eq_some_iff, Option.pure_def,
          Option.some.injEq, UploadReply.page.injEq] at h
        obtain ⟨sheets, rfl, found, hfound, rfl⟩ := h
        exact ⟨filename, sheets, rfl, by simpa using foldlM_readSheet hfound⟩

end Reading

section Confirming

variable {asInteger : String → Option Int} {db : Db} {site : Nat} {s s' : Session}
  {row : UploadedAsset} {done : List UploadedAsset}

/-- The rows of all tables but for those of assets and the mapping. -/
def Db.besideAssets (db : Db) : Db := { db with assets := .empty, algoAssetMapping := ∅ }

/-- The session after the rows `done` of the page. -/
structure Confirmed (asInteger : String → Option Int) (db : Db) (site : Nat)
    (done : List UploadedAsset) (s : Session) : Prop where
  editing : Editing db s
  beside : s.db.besideAssets = db.besideAssets
  saved : ∃ new, s.db.assets.rows = db.assets.rows ++ new ∧
    List.Forall₂ (db.Saves asInteger site) done new

theorem Editing.createAsset (h : Editing db s) (row : UploadedAsset) (site type : Nat)
    (priority : Int) : Editing db (s.createAsset row site type priority) := by
  refine ⟨?_, h.ghosts, h.stored⟩
  intro a ha g hg hd
  have hne : a ≠ s.db.assets.nextKey := fun he => hd (he ▸ List.mem_cons_self)
  have hold : a ∈ s.db.assets.rows.map Asset.id := by
    have ha' : a ∈ s.db.assets.rows.map Asset.id ++ [s.db.assets.nextKey] :=
      (s.db.assets.keys_insert _ (row.newAsset_id site type priority)) ▸ ha
    rcases List.mem_append.mp ha' with ha' | ha'
    · exact ha'
    · exact absurd (List.mem_singleton.mp ha') hne
  exact h.tidy a hold g hg (fun hm => hd (List.mem_cons_of_mem _ hm))

theorem Session.besideAssets_access (s : Session) :
    s.access.db.besideAssets = s.db.besideAssets :=
  congrArg (fun db : Db => { db with assets := .empty }) s.rows_access

theorem Session.assets_access (s : Session) : s.access.db.assets = s.db.assets :=
  Session.assets_store s.access_remapped.store

theorem Db.assetTypes_besideAssets {db db' : Db} (h : db'.besideAssets = db.besideAssets) :
    db'.assetTypes = db.assetTypes := by
  have htypes : db'.besideAssets.assetTypes = db.besideAssets.assetTypes := by rw [h]
  exact htypes

theorem Confirmed.access (h : Confirmed asInteger db site done s) :
    Confirmed asInteger db site done s.access := by
  refine ⟨h.editing.access, s.besideAssets_access.trans h.beside, ?_⟩
  rw [s.assets_access]
  exact h.saved

theorem Confirmed.confirmAsset (h : Confirmed asInteger db site done s)
    (hs : confirmAsset asInteger site s row = some s') :
    Confirmed asInteger db site (done ++ [row]) s' := by
  simp only [Medusa.confirmAsset, Option.bind_eq_bind, Option.bind_eq_some_iff, Option.pure_def,
    Option.some.injEq] at hs
  obtain ⟨type, htype, priority, hpriority, rfl⟩ := hs
  obtain ⟨hediting, hbeside, new, hrows, hsaved⟩ := h.access
  rw [Db.assetTypes_besideAssets hbeside] at htype
  refine ⟨hediting.createAsset row site type.id priority, hbeside,
    new ++ [row.newAsset site type.id priority s.access.db.assets.nextKey], ?_, ?_⟩
  · simp only [Session.createAsset, Table.rows_insert, hrows, List.append_assoc]
  · refine List.rel_append hsaved (List.Forall₂.cons ?_ List.Forall₂.nil)
    exact ⟨type, priority, htype, hpriority, rfl⟩

theorem Confirmed.foldlM {rows : List UploadedAsset} (h : Confirmed asInteger db site done s)
    (hs : rows.foldlM (Medusa.confirmAsset asInteger site) s = some s') :
    Confirmed asInteger db site (done ++ rows) s' := by
  induction rows generalizing s done with
  | nil =>
    obtain rfl := Option.some.inj hs
    rwa [List.append_nil]
  | cons row rows ih =>
    rw [List.foldlM_cons, Option.bind_eq_bind, Option.bind_eq_some_iff] at hs
    obtain ⟨middle, hrow, hrest⟩ := hs
    have hall := ih (h.confirmAsset hrow) hrest
    rwa [List.append_assoc] at hall

theorem MappingCorrect.confirmed (h : MappingCorrect db) (asInteger : String → Option Int)
    (site : Nat) (loads : Nat → Bool) : Confirmed asInteger db site [] (Session.start db loads) := by
  refine ⟨h.editing loads db.assets [] (fun a ha _ => ha), rfl, [], ?_, List.Forall₂.nil⟩
  exact (List.append_nil _).symm

theorem confirmAsset_isSome (h : s.db.besideAssets = db.besideAssets) :
    (Medusa.confirmAsset asInteger site s row).isSome ↔ db.savable asInteger row = true := by
  have htypes : s.access.db.assetTypes = db.assetTypes :=
    Db.assetTypes_besideAssets (s.besideAssets_access.trans h)
  unfold Medusa.confirmAsset Db.savable
  rw [htypes]
  cases db.assetTypes.one? (fun t => t.name == row.type) with
  | none => simp
  | some type => cases asInteger row.priority <;> simp

theorem confirmAsset_beside (hs : Medusa.confirmAsset asInteger site s row = some s')
    (h : s.db.besideAssets = db.besideAssets) : s'.db.besideAssets = db.besideAssets := by
  simp only [Medusa.confirmAsset, Option.bind_eq_bind, Option.bind_eq_some_iff, Option.pure_def,
    Option.some.injEq] at hs
  obtain ⟨type, -, priority, -, rfl⟩ := hs
  exact s.besideAssets_access.trans h

theorem addAssetConfirm_isSome {loads : Nat → Bool} {sitename : String}
    {rows : List UploadedAsset} :
    (addAssetConfirm asInteger loads db sitename rows).isSome ↔
      (db.sites.one? (fun s => s.name == sitename)).isSome ∧
        ∀ row ∈ rows, db.savable asInteger row = true := by
  unfold addAssetConfirm
  cases db.sites.one? (fun s => s.name == sitename) with
  | none => simp
  | some site =>
    have hstep : ∀ (s : Session) (row : UploadedAsset), s.db.besideAssets = db.besideAssets →
        ((Medusa.confirmAsset asInteger site.id s row).isSome ↔ db.savable asInteger row = true) :=
      fun _ _ hs => confirmAsset_isSome hs
    have hloop : (rows.foldlM (Medusa.confirmAsset asInteger site.id)
        (Session.start db loads)).isSome ↔ ∀ row ∈ rows, db.savable asInteger row = true :=
      foldlM_isSome_iff hstep confirmAsset_beside rfl
    rw [← hloop]
    cases hfold : rows.foldlM (Medusa.confirmAsset asInteger site.id) (Session.start db loads) <;>
      simp [hfold]

end Confirming

/-- The page of an upload shows the complete rows of the sheets. Submitting it, maybe after
other requests have changed the database, saves all of them or none: it succeeds if the
types and the priorities can be stored, adds each row once as an asset of its sheet's type
and changes nothing else but the mapping, which is right again. -/
theorem uploaded_assets_saved (asInteger : String → Option Int) (loads : Nat → Bool)
    (order : IterationOrder UploadedAsset) {shown db : Db} {sitename : String}
    {file : Option WorkbookFile} {assets : List UploadedAsset}
    (hpage : addAssetUpload shown sitename file = some (.page assets)) (hmapped : MappingCorrect db) :
    (∃ filename sheets, file = some ⟨filename, some sheets⟩ ∧
      assets = sheets.flatMap Worksheet.assets) ∧
    ((addAssetConfirm asInteger loads db sitename (order.visit assets)).isSome ↔
      (db.sites.one? (fun s => s.name == sitename)).isSome ∧
        ∀ row ∈ assets, db.savable asInteger row = true) ∧
    ∀ db', addAssetConfirm asInteger loads db sitename (order.visit assets) = some db' →
      MappingCorrect db' ∧ db'.besideAssets = db.besideAssets ∧
        ∃ site new listed, db.sites.one? (fun s => s.name == sitename) = some site ∧
          db'.assets.rows = db.assets.rows ++ new ∧ listed.Perm assets ∧
          List.Forall₂ (db.Saves asInteger site.id) listed new := by
  refine ⟨addAssetUpload_page hpage, ?_, ?_⟩
  · rw [addAssetConfirm_isSome]
    simp only [(order.perm assets).mem_iff]
  · intro db' hdb
    simp only [addAssetConfirm, Option.bind_eq_bind, Option.bind_eq_some_iff, Option.pure_def,
      Option.some.injEq] at hdb
    obtain ⟨site, hsite, s, hs, rfl⟩ := hdb
    obtain ⟨hediting, hbeside, new, hrows, hsaved⟩ :=
      (hmapped.confirmed asInteger site.id loads).foldlM hs
    have hassets : s.commit.db.assets = s.db.assets :=
      Session.assets_store hediting.kept.commit_store
    refine ⟨hediting.commit_correct, ?_, site, new, order.visit assets, hsite, ?_, order.perm assets,
      hsaved⟩
    · exact (congrArg (fun db : Db => { db with assets := .empty }) s.rows_commit).trans hbeside
    · rw [hassets, hrows]

/-- A site and a type of asset, and no asset yet. -/
def chillerDb : Db :=
  { Db.empty with
    sites := ⟨[plantSite], plantSite_nodup⟩
    assetTypes := ⟨[⟨1, "chiller"⟩], by simp⟩ }

def chillerFile : WorkbookFile where
  filename := "assets.XLSX"
  sheets := some [⟨"chiller", [
    [some ⟨"Name", false⟩, some ⟨"Location", false⟩, some ⟨"Group", false⟩, some ⟨"Priority", false⟩,
      some ⟨"Notes", false⟩],
    [some ⟨"CH-1", false⟩, some ⟨"roof", false⟩, none, some ⟨"3", true⟩, none],
    [some ⟨"CH-2", false⟩, none, none, some ⟨"3", true⟩, none]]⟩]

theorem uploaded_assets_saved_chiller :
    addAssetUpload chillerDb plantSite.name (some chillerFile) =
      some (.page [⟨"CH-1", "chiller", "roof", "", "3", ""⟩]) ∧
    (addAssetConfirm (fun text => if text = "3" then some 3 else none) (fun _ => true) chillerDb
      plantSite.name [⟨"CH-1", "chiller", "roof", "", "3", ""⟩]).isSome = true := by
  have hpage : addAssetUpload chillerDb plantSite.name (some chillerFile) =
      some (.page [⟨"CH-1", "chiller", "roof", "", "3", ""⟩]) := by decide
  have hmapped : MappingCorrect chillerDb := fun a ha => absurd ha List.not_mem_nil
  have hsaved := uploaded_assets_saved (fun text => if text = "3" then some 3 else none)
    (fun _ => true) (IterationOrder.listed _) hpage hmapped
  exact ⟨hpage, hsaved.2.1.mpr ⟨by decide, by decide⟩⟩

end Medusa
