import Mathlib.Data.Rat.Floor
import Medusa.Model

/-! The tables behind the inspection and test plans (ITPs). A deliverable of an
ITP has inspection and test checks (ITCs), each made from a template ITC, and an
ITC has the checks of its checklist, each made from a check of the template.
Foreign keys are nullable: the relationships have no delete cascade, so deleting
a row sets the references to it to NULL. -/

namespace Medusa

open Relational

structure Project where
  id : Nat
  name : String
  jobNumber : String
  siteId : Option Nat
deriving DecidableEq

structure Itp where
  id : Nat
  name : String
  projectId : Option Nat
  status : Option String
  percentageComplete : Option Int
deriving DecidableEq

structure Location where
  id : Nat
  name : String
deriving DecidableEq

structure SecondaryLocation where
  id : Nat
  name : String
deriving DecidableEq

structure DeliverableType where
  id : Nat
  name : String
deriving DecidableEq

structure Deliverable where
  id : Nat
  name : String
  description : String
  deliverableTypeId : Option Nat
  locationId : Option Nat
  secondaryLocationId : Option Nat
  itpId : Option Nat
  status : Option String
  percentageComplete : Option Int
  startDate : Option Nat
  completionDate : Option Nat
deriving DecidableEq

structure CheckGeneric where
  id : Nat
  checkDescription : String
deriving DecidableEq

structure ItcGroup where
  id : Nat
  name : String
deriving DecidableEq

/-- A template ITC. -/
structure Itc where
  id : Nat
  name : String
  description : Option String
  deliverableTypeId : Option Nat
  itcGroupId : Option Nat
deriving DecidableEq

/-- A check of a template ITC. -/
structure ItcCheckMap where
  id : Nat
  checkGeneric : Option Nat
  itcId : Option Nat
deriving DecidableEq

/-- An ITC of a deliverable. -/
structure DeliverableItcMap where
  id : Nat
  comments : Option String
  deliverableId : Option Nat
  itcId : Option Nat
  status : Option String
  percentageComplete : Option Int
  itcGroupNumber : Option Int
deriving DecidableEq

/-- A check of an ITC of a deliverable. -/
structure DeliverableCheckMap where
  id : Nat
  deliverableItcMapId : Option Nat
  itcCheckId : Option Nat
  isDone : Option Bool
  completionDatetime : Option Nat
  completionByUserId : Option Nat
  comments : Option String
  status : Option String
  checkNumber : Option Int
deriving DecidableEq

abbrev Itcs := Table Itc Itc.id

abbrev DeliverableItcs := Table DeliverableItcMap DeliverableItcMap.id

abbrev DeliverableChecks := Table DeliverableCheckMap DeliverableCheckMap.id

structure ItpDb where
  sites : Table Site Site.id
  projects : Table Project Project.id
  itps : Table Itp Itp.id
  locations : Table Location Location.id
  secondaryLocations : Table SecondaryLocation SecondaryLocation.id
  deliverableTypes : Table DeliverableType DeliverableType.id
  deliverables : Table Deliverable Deliverable.id
  checkGenerics : Table CheckGeneric CheckGeneric.id
  itcGroups : Table ItcGroup ItcGroup.id
  itcs : Itcs
  itcCheckMaps : Table ItcCheckMap ItcCheckMap.id
  deliverableItcMaps : DeliverableItcs
  deliverableCheckMaps : DeliverableChecks

def ItpDb.empty : ItpDb where
  sites := .empty
  projects := .empty
  itps := .empty
  locations := .empty
  secondaryLocations := .empty
  deliverableTypes := .empty
  deliverables := .empty
  checkGenerics := .empty
  itcGroups := .empty
  itcs := .empty
  itcCheckMaps := .empty
  deliverableItcMaps := .empty
  deliverableCheckMaps := .empty

def itcsOf (t : DeliverableItcs) (deliverable : Nat) : List DeliverableItcMap :=
  t.rows.filter (fun m => m.deliverableId == some deliverable)

def checksOf (t : DeliverableChecks) (itc : Nat) : List DeliverableCheckMap :=
  t.rows.filter (fun c => c.deliverableItcMapId == some itc)

/-- The checks of a template. A filter by a missing ITC finds the rows whose
column is NULL. -/
def ItpDb.templateChecks (db : ItpDb) (itcId : Option Nat) : List ItcCheckMap :=
  db.itcCheckMaps.rows.filter (fun c => c.itcId == itcId)

/-- `m.ITC`, the template that an ITC was made from. -/
def DeliverableItcMap.template (m : DeliverableItcMap) (itcs : Itcs) : Option Itc :=
  m.itcId.bind itcs.get?

structure ItpUrl where
  siteid : Nat
  projectid : Nat
  itpid : Nat

structure DeliverableUrl extends ItpUrl where
  deliverableid : Nat

/-- The site, project and ITP of a URL. Each is looked up under the one before,
whose id is read then, so a missing row raises at the next lookup. -/
def ItpDb.itpOf (db : ItpDb) (url : ItpUrl) : Option Itp := do
  let site ← db.sites.get? url.siteid
  let project ← db.projects.first? (fun p => p.id == url.projectid && p.siteId == some site.id)
  db.itps.first? (fun i => i.id == url.itpid && i.projectId == some project.id)

def ItpDb.deliverableOf (db : ItpDb) (url : DeliverableUrl) : Option Deliverable := do
  let itp ← db.itpOf url.toItpUrl
  db.deliverables.first? (fun d => d.id == url.deliverableid && d.itpId == some itp.id)

def ItpDb.itcOf (db : ItpDb) (url : DeliverableUrl) (itcid : Nat) : Option DeliverableItcMap := do
  let deliverable ← db.deliverableOf url
  db.deliverableItcMaps.first? (fun m => m.deliverableId == some deliverable.id && m.id == itcid)

theorem mem_itcsOf {t : DeliverableItcs} {d : Nat} {m : DeliverableItcMap} :
    m ∈ itcsOf t d ↔ m ∈ t.rows ∧ m.deliverableId = some d := by
  simp [itcsOf]

theorem mem_checksOf {t : DeliverableChecks} {k : Nat} {c : DeliverableCheckMap} :
    c ∈ checksOf t k ↔ c ∈ t.rows ∧ c.deliverableItcMapId = some k := by
  simp [checksOf]

theorem checksOf_delete (t : DeliverableChecks) (p : DeliverableCheckMap → Bool) (k : Nat) :
    checksOf (t.delete p) k = (checksOf t k).filter (fun c => !p c) := by
  simp only [checksOf, Table.rows_delete, List.filter_filter]
  apply List.filter_congr
  intro c _
  exact Bool.and_comm _ _

theorem checksOf_update {t : DeliverableChecks} {p : DeliverableCheckMap → Bool}
    {f : DeliverableCheckMap → DeliverableCheckMap} (hf : ∀ c, (f c).id = c.id)
    (hitc : ∀ c, (f c).deliverableItcMapId = c.deliverableItcMapId) (k : Nat) :
    checksOf (t.update p f hf) k = (checksOf t k).map (fun c => if p c then f c else c) :=
  Table.filter_update_map hf (fun c => by rw [hitc])

theorem checksOf_ids_nodup (t : DeliverableChecks) (k : Nat) :
    ((checksOf t k).map DeliverableCheckMap.id).Nodup :=
  t.nodup.sublist (List.filter_sublist.map _)

theorem ItpDb.mem_templateChecks {db : ItpDb} {itcId : Option Nat} {c : ItcCheckMap} :
    c ∈ db.templateChecks itcId ↔ c ∈ db.itcCheckMaps.rows ∧ c.itcId = itcId := by
  simp [ItpDb.templateChecks]

theorem ItpDb.mem_of_deliverableOf {db : ItpDb} {url : DeliverableUrl} {d : Deliverable}
    (h : db.deliverableOf url = some d) : d ∈ db.deliverables.rows := by
  simp only [ItpDb.deliverableOf, Option.bind_eq_bind, Option.bind_eq_some_iff] at h
  obtain ⟨itp, -, hd⟩ := h
  exact (Table.mem_of_first? hd).1

theorem ItpDb.id_of_deliverableOf {db : ItpDb} {url : DeliverableUrl} {d : Deliverable}
    (h : db.deliverableOf url = some d) : d.id = url.deliverableid := by
  simp only [ItpDb.deliverableOf, Option.bind_eq_bind, Option.bind_eq_some_iff] at h
  obtain ⟨itp, -, hd⟩ := h
  have hrow := (Table.mem_of_first? hd).2
  rw [Bool.and_eq_true, beq_iff_eq] at hrow
  exact hrow.1

theorem ItpDb.itcOf_eq_some {db : ItpDb} {url : DeliverableUrl} {itcid : Nat}
    {m : DeliverableItcMap} (h : db.itcOf url itcid = some m) :
    ∃ d, db.deliverableOf url = some d ∧ m ∈ db.deliverableItcMaps.rows ∧
      m.deliverableId = some d.id ∧ m.id = itcid := by
  simp only [ItpDb.itcOf, Option.bind_eq_bind, Option.bind_eq_some_iff] at h
  obtain ⟨d, hd, hm⟩ := h
  have hrow := Table.mem_of_first? hm
  simp only [Bool.and_eq_true, beq_iff_eq] at hrow
  exact ⟨d, hd, hrow.1, hrow.2.1, hrow.2.2⟩

def upgradeProject : Project := ⟨1, "upgrade", "J1", some 1⟩

theorem upgradeProject_nodup : ([upgradeProject].map Project.id).Nodup := by simp

/-- A project with an ITP and the templates for a pump, but no deliverable yet. -/
def pumpProject : ItpDb :=
  { ItpDb.empty with
    sites := ⟨[plantSite], plantSite_nodup⟩
    projects := ⟨[upgradeProject], upgradeProject_nodup⟩
    itps := ⟨[⟨1, "commissioning", some 1, none, some 0⟩], by simp⟩
    locations := ⟨[⟨1, "plant room"⟩], by simp⟩
    deliverableTypes := ⟨[⟨1, "pump"⟩], by simp⟩
    checkGenerics := ⟨[⟨1, "wired"⟩, ⟨2, "labelled"⟩], by simp⟩
    itcGroups := ⟨[⟨1, "electrical"⟩], by simp⟩
    -- the second template is for no type of deliverable
    itcs := ⟨[⟨1, "pump wiring", none, some 1, some 1⟩, ⟨2, "panel wiring", none, none, some 1⟩],
      by simp⟩
    itcCheckMaps := ⟨[⟨1, some 1, some 1⟩, ⟨2, some 2, some 1⟩], by simp⟩ }

def pumpItp : ItpUrl := ⟨1, 1, 1⟩

end Medusa
