import Medusa.Itp.Store
import Medusa.Numbering

/-! The requests that make checklists from the templates: a new deliverable, an
ITC that is added to a deliverable, and the start of the tests of an ITC, which
makes its checklist anew. A result of `none` says that the request committed
nothing, because it was refused or raised an exception first. -/

namespace Medusa

open Relational

def newCheck (itc check : Nat) (number : Int) (id : Nat) : DeliverableCheckMap where
  id := id
  deliverableItcMapId := some itc
  itcCheckId := some check
  isDone := some false
  completionDatetime := none
  completionByUserId := none
  comments := none
  status := some "Not Started"
  checkNumber := some number

@[simp] theorem newCheck_id (itc check : Nat) (number : Int) (id : Nat) :
    (newCheck itc check number id).id = id := rfl

/-- The number is the length of the collection, which is loaded with the new row in it. -/
def addCheck (itc : Nat) (t : DeliverableChecks) (check : ItcCheckMap) : DeliverableChecks :=
  t.insert (newCheck itc check.id ((checksOf t itc).length + 1)) (newCheck_id _ _ _)

def generateChecks (t : DeliverableChecks) (itc : Nat) (checks : List ItcCheckMap) :
    DeliverableChecks :=
  checks.foldl (addCheck itc) t

def newItc (deliverable itc : Nat) (number : Option Int) (id : Nat) : DeliverableItcMap where
  id := id
  comments := none
  deliverableId := some deliverable
  itcId := some itc
  status := some "Not Started"
  percentageComplete := some 0
  itcGroupNumber := number

@[simp] theorem newItc_id (deliverable itc : Nat) (number : Option Int) (id : Nat) :
    (newItc deliverable itc number id).id = id := rfl

/-- `Counter(x.group for x in created_ITCs)[group]`: how many templates of the
group are among those that the ITCs of the deliverable were made from. -/
def groupCount (itcs : Itcs) (t : DeliverableItcs) (deliverable : Nat) (group : Option Nat) : Nat :=
  (itcs.rows.filter (fun i =>
    decide (some i.id ∈ (itcsOf t deliverable).map DeliverableItcMap.itcId) &&
      i.itcGroupId == group)).length

def addItc (itcs : Itcs) (deliverable : Nat) (t : DeliverableItcs) (itc : Itc) : DeliverableItcs :=
  -- the query that counts writes the new row first, still without its number
  let flushed := t.insert (newItc deliverable itc.id none) (newItc_id _ _ _)
  t.insert (newItc deliverable itc.id (some (groupCount itcs flushed deliverable itc.itcGroupId)))
    (newItc_id _ _ _)

theorem mem_addItc {itcs : Itcs} {d : Nat} {t : DeliverableItcs} {itc : Itc}
    {m : DeliverableItcMap} (h : m ∈ (addItc itcs d t itc).rows) :
    m ∈ t.rows ∨ ∃ number, m = newItc d itc.id number t.nextKey := by
  unfold addItc at h
  rcases Table.mem_insert.mp h with hm | rfl
  · exact Or.inl hm
  · exact Or.inr ⟨_, rfl⟩

structure DeliverableForm where
  name : String
  type : String
  location : String
  secondaryLocation : String
  description : String

def newDeliverable (form : DeliverableForm) (type location : Nat) (secondary : Option Nat)
    (itp : Nat) (id : Nat) : Deliverable where
  id := id
  name := form.name
  description := form.description
  deliverableTypeId := some type
  locationId := some location
  secondaryLocationId := secondary
  itpId := some itp
  status := some "Not Started"
  percentageComplete := some 0
  startDate := none
  completionDate := none

theorem newDeliverable_id (form : DeliverableForm) (type location : Nat) (secondary : Option Nat)
    (itp id : Nat) : (newDeliverable form type location secondary itp id).id = id := rfl

def Deliverable.start (now : Nat) (d : Deliverable) : Deliverable := { d with startDate := some now }

theorem Deliverable.start_id (now : Nat) (d : Deliverable) : (d.start now).id = d.id := rfl

def generateAll (db : ItpDb) (itcs : List DeliverableItcMap) : DeliverableChecks :=
  itcs.foldl (fun t m => generateChecks t m.id (db.templateChecks m.itcId)) db.deliverableCheckMaps

def deliverableNew (db : ItpDb) (url : ItpUrl) (form : DeliverableForm) (now : Nat) :
    Option ItpDb := do
  let itp ← db.itpOf url
  guard (form.name ≠ "" ∧ form.type ≠ "" ∧ form.location ≠ "")
  guard ((db.deliverables.first? (fun d => d.name == form.name && d.itpId == some itp.id)).isNone)
  let location ← db.locations.first? (fun l => l.name == form.location)
  let type ← db.deliverableTypes.first? (fun t => t.name == form.type)
  let secondary := db.secondaryLocations.first? (fun l => l.name == form.secondaryLocation)
  let created := db.deliverables.insert
    (newDeliverable form type.id location.id (secondary.map SecondaryLocation.id) itp.id)
    (newDeliverable_id _ _ _ _ _)
  -- the committed row is looked up again by its name
  let deliverable ← created.first? (fun d => d.name == form.name && d.itpId == some itp.id)
  let itcs := db.itcs.rows.filter (fun i => i.deliverableTypeId == some type.id)
  let maps := itcs.foldl (addItc db.itcs deliverable.id) db.deliverableItcMaps
  pure { db with
    -- the start date is committed with the first ITC, and without ITCs it is lost
    deliverables := created.update (fun d => d.id == deliverable.id && !itcs.isEmpty)
      (Deliverable.start now) (Deliverable.start_id now)
    deliverableItcMaps := maps
    deliverableCheckMaps := generateAll db (itcsOf maps deliverable.id) }

def itcAdd (db : ItpDb) (url : DeliverableUrl) (itcid : Nat) : Option ItpDb := do
  let deliverable ← db.deliverableOf url
  let itc ← db.itcs.get? itcid
  pure { db with
    deliverableItcMaps := addItc db.itcs deliverable.id db.deliverableItcMaps itc
    deliverableCheckMaps := generateChecks db.deliverableCheckMaps db.deliverableItcMaps.nextKey
      (db.templateChecks (some itc.id)) }

def DeliverableItcMap.inProgress (m : DeliverableItcMap) : DeliverableItcMap :=
  { m with status := some "In Progress" }

theorem DeliverableItcMap.inProgress_id (m : DeliverableItcMap) : m.inProgress.id = m.id := rfl

def startItcTesting (db : ItpDb) (url : DeliverableUrl) (itcid : Nat) : Option ItpDb := do
  let itc ← db.itcOf url itcid
  let cleared := db.deliverableCheckMaps.delete (fun c => c.deliverableItcMapId == some itc.id)
  pure { db with
    deliverableCheckMaps := generateChecks cleared itc.id (db.templateChecks itc.itcId)
    deliverableItcMaps := db.deliverableItcMaps.update (fun m => m.id == itc.id)
      DeliverableItcMap.inProgress DeliverableItcMap.inProgress_id }

def pumpForm (name : String) : DeliverableForm := ⟨name, "pump", "plant room", "", ""⟩

/-- The deliverable with id `n` of `pumpItp`. -/
def pumpUrl (n : Nat) : DeliverableUrl := ⟨pumpItp, n⟩

theorem checksOf_addCheck (itc : Nat) (t : DeliverableChecks) (check : ItcCheckMap) (k : Nat) :
    checksOf (addCheck itc t check) k =
      if k = itc then checksOf t k ++ [newCheck itc check.id ((checksOf t itc).length + 1) t.nextKey]
      else checksOf t k := by
  by_cases hk : k = itc
  · subst hk
    simp [checksOf, addCheck, newCheck]
  · have hne : itc ≠ k := fun h => hk h.symm
    simp [checksOf, addCheck, newCheck, hk, hne]

theorem subset_addItc (itcs : Itcs) (d : Nat) (t : DeliverableItcs) (itc : Itc) :
    t.rows ⊆ (addItc itcs d t itc).rows := by
  unfold addItc
  exact fun m hm => Table.mem_insert.mpr (Or.inl hm)

theorem subset_foldl_addItc (itcs : Itcs) (d : Nat) (l : List Itc) (t : DeliverableItcs) :
    t.rows ⊆ (l.foldl (addItc itcs d) t).rows := by
  induction l generalizing t with
  | nil => exact fun m hm => hm
  | cons itc rest ih => exact fun m hm => ih _ (subset_addItc itcs d t itc hm)

theorem mem_foldl_addItc {itcs : Itcs} {d : Nat} {l : List Itc} {t : DeliverableItcs}
    {m : DeliverableItcMap} (h : m ∈ (l.foldl (addItc itcs d) t).rows) :
    m ∈ t.rows ∨ ∃ itc ∈ l, ∃ number id, m = newItc d itc.id number id := by
  induction l generalizing t with
  | nil => exact Or.inl h
  | cons itc rest ih =>
    rcases ih h with hm | ⟨itc', hitc', hnew⟩
    · rcases mem_addItc hm with hm | ⟨number, rfl⟩
      · exact Or.inl hm
      · exact Or.inr ⟨itc, List.mem_cons_self, number, _, rfl⟩
    · exact Or.inr ⟨itc', List.mem_cons_of_mem itc hitc', hnew⟩

/-- What a new deliverable is given: a fresh id, an ITC for each template of its
type, and the checks of these ITCs. -/
theorem deliverableNew_cases {db db' : ItpDb} {url : ItpUrl} {form : DeliverableForm} {now : Nat}
    (h : deliverableNew db url form now = some db') :
    ∃ type deliverables,
      deliverables.rows.map Deliverable.id =
        db.deliverables.rows.map Deliverable.id ++ [db.deliverables.nextKey] ∧
      db' = { db with
        deliverables := deliverables
        deliverableItcMaps :=
          (db.itcs.rows.filter (fun i => i.deliverableTypeId == some type)).foldl
            (addItc db.itcs db.deliverables.nextKey) db.deliverableItcMaps
        deliverableCheckMaps := generateAll db (itcsOf
          ((db.itcs.rows.filter (fun i => i.deliverableTypeId == some type)).foldl
            (addItc db.itcs db.deliverables.nextKey) db.deliverableItcMaps)
          db.deliverables.nextKey) } := by
  simp only [deliverableNew, Option.bind_eq_bind, Option.bind_eq_some_iff, Option.pure_def,
    Option.some.injEq] at h
  obtain ⟨itp, -, _, -, _, hfree, location, -, type, -, deliverable, hfound, rfl⟩ := h
  have hfresh : deliverable.id = db.deliverables.nextKey := by
    have hd := Table.mem_of_first? hfound
    rcases Table.mem_insert.mp hd.1 with hold | rfl
    · -- a row of that name would have stopped the request
      have hnone : db.deliverables.first?
          (fun d => d.name == form.name && d.itpId == some itp.id) = none := by
        simpa [guard] using hfree
      have hno := Table.first?_eq_none hnone deliverable hold
      rw [hd.2] at hno
      exact Bool.noConfusion hno
    · rfl
  rw [hfresh]
  refine ⟨type.id, _, ?_, rfl⟩
  rw [Table.keys_update, Table.keys_insert]

theorem generateChecks_keeps {P : DeliverableChecks → Prop} {itc : Nat}
    (hstep : ∀ t check, P t → P (addCheck itc t check)) {t : DeliverableChecks}
    {checks : List ItcCheckMap} (h : P t) : P (generateChecks t itc checks) := by
  unfold generateChecks
  induction checks generalizing t with
  | nil => exact h
  | cons check rest ih => exact ih (hstep t check h)

theorem mem_generateChecks {t : DeliverableChecks} {itc : Nat} {checks : List ItcCheckMap}
    {c : DeliverableCheckMap} (h : c ∈ (generateChecks t itc checks).rows) :
    c ∈ t.rows ∨ ∃ check ∈ checks, ∃ number id, c = newCheck itc check.id number id := by
  unfold generateChecks at h
  induction checks generalizing t with
  | nil => exact Or.inl h
  | cons check rest ih =>
    rcases ih h with hc | ⟨check', hcheck', hnew⟩
    · unfold addCheck at hc
      rcases Table.mem_insert.mp hc with hc | rfl
      · exact Or.inl hc
      · exact Or.inr ⟨check, List.mem_cons_self, _, _, rfl⟩
    · exact Or.inr ⟨check', List.mem_cons_of_mem check hcheck', hnew⟩

theorem mem_generateAll {db : ItpDb} {itcs : List DeliverableItcMap} {c : DeliverableCheckMap}
    (h : c ∈ (generateAll db itcs).rows) :
    c ∈ db.deliverableCheckMaps.rows ∨ ∃ m ∈ itcs, ∃ check ∈ db.templateChecks m.itcId,
      ∃ number id, c = newCheck m.id check.id number id := by
  unfold generateAll at h
  generalize db.deliverableCheckMaps = t at h ⊢
  induction itcs generalizing t with
  | nil => exact Or.inl h
  | cons m rest ih =>
    rcases ih _ h with hc | ⟨m', hm', hnew⟩
    · rcases mem_generateChecks hc with hc | hnew
      · exact Or.inl hc
      · exact Or.inr ⟨m, List.mem_cons_self, hnew⟩
    · exact Or.inr ⟨m', List.mem_cons_of_mem m hm', hnew⟩

theorem generateAll_keeps {P : DeliverableChecks → Prop}
    (hstep : ∀ itc t check, P t → P (addCheck itc t check)) {db : ItpDb}
    {itcs : List DeliverableItcMap} (h : P db.deliverableCheckMaps) : P (generateAll db itcs) := by
  have hloop : ∀ t, P t →
      P (itcs.foldl (fun t m => generateChecks t m.id (db.templateChecks m.itcId)) t) := by
    induction itcs with
    | nil => exact fun t ht => ht
    | cons m rest ih => exact fun t ht => ih _ (generateChecks_keeps (hstep m.id) ht)
  exact hloop _ h

/-- What a request that makes checklists leaves: checks were taken out of one
checklist at most, and then checks were added one by one. -/
theorem deliverableNew_checks {P : DeliverableChecks → Prop}
    (hstep : ∀ itc t check, P t → P (addCheck itc t check)) {db db' : ItpDb} {url : ItpUrl}
    {form : DeliverableForm} {now : Nat} (h : deliverableNew db url form now = some db')
    (hP : P db.deliverableCheckMaps) : P db'.deliverableCheckMaps := by
  simp only [deliverableNew, Option.bind_eq_bind, Option.bind_eq_some_iff, Option.pure_def,
    Option.some.injEq] at h
  obtain ⟨itp, -, -, -, -, -, location, -, type, -, deliverable, -, rfl⟩ := h
  exact generateAll_keeps hstep hP

theorem itcAdd_checks {P : DeliverableChecks → Prop}
    (hstep : ∀ itc t check, P t → P (addCheck itc t check)) {db db' : ItpDb} {url : DeliverableUrl}
    {itcid : Nat} (h : itcAdd db url itcid = some db') (hP : P db.deliverableCheckMaps) :
    P db'.deliverableCheckMaps := by
  simp only [itcAdd, Option.bind_eq_bind, Option.bind_eq_some_iff, Option.pure_def,
    Option.some.injEq] at h
  obtain ⟨deliverable, -, itc, -, rfl⟩ := h
  exact generateChecks_keeps (hstep _) hP

theorem startItcTesting_checks {P : DeliverableChecks → Prop}
    (hstep : ∀ itc t check, P t → P (addCheck itc t check)) {db db' : ItpDb} {url : DeliverableUrl}
    {itcid : Nat} (h : startItcTesting db url itcid = some db')
    (hP : ∀ itc, P (db.deliverableCheckMaps.delete (fun c => c.deliverableItcMapId == some itc))) :
    P db'.deliverableCheckMaps := by
  simp only [startItcTesting, Option.bind_eq_bind, Option.bind_eq_some_iff, Option.pure_def,
    Option.some.injEq] at h
  obtain ⟨itc, -, rfl⟩ := h
  exact generateChecks_keeps (hstep _) (hP itc.id)

end Medusa
