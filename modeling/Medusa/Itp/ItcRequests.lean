import Medusa.Itp.CheckRequests
import Medusa.Requests

/-! The requests that edit or delete the ITCs of a deliverable, that delete
deliverables, and that make or delete the templates: template ITCs, their checks
and the generic checks. What a deletion does to the rows that refer to the
deleted one is what the object-relational mapper does: it sets their foreign key
to NULL, unless they are deleted in the same request. -/

namespace Medusa

open Relational

def DeliverableItcMap.forgetDeliverable (m : DeliverableItcMap) : DeliverableItcMap :=
  { m with deliverableId := none }

def DeliverableItcMap.setGroupNumber (number : Option Int) (m : DeliverableItcMap) :
    DeliverableItcMap :=
  { m with itcGroupNumber := number }

def DeliverableCheckMap.forgetItc (c : DeliverableCheckMap) : DeliverableCheckMap :=
  { c with deliverableItcMapId := none }

def DeliverableCheckMap.forgetTemplate (c : DeliverableCheckMap) : DeliverableCheckMap :=
  { c with itcCheckId := none }

def ItcCheckMap.forgetItc (c : ItcCheckMap) : ItcCheckMap := { c with itcId := none }

def Itc.rename (name : String) (i : Itc) : Itc := { i with name := name }

theorem DeliverableItcMap.forgetDeliverable_id (m : DeliverableItcMap) :
    m.forgetDeliverable.id = m.id := rfl

theorem DeliverableItcMap.setGroupNumber_id (number : Option Int) (m : DeliverableItcMap) :
    (m.setGroupNumber number).id = m.id := rfl

theorem DeliverableCheckMap.forgetItc_id (c : DeliverableCheckMap) : c.forgetItc.id = c.id := rfl

theorem DeliverableCheckMap.forgetTemplate_id (c : DeliverableCheckMap) :
    c.forgetTemplate.id = c.id := rfl

theorem ItcCheckMap.forgetItc_id (c : ItcCheckMap) : c.forgetItc.id = c.id := rfl

theorem Itc.rename_id (name : String) (i : Itc) : (i.rename name).id = i.id := rfl

/-- Delete ITCs of deliverables. Their checks stay, without an ITC. -/
def ItpDb.dropItcs (db : ItpDb) (p : DeliverableItcMap → Bool) : ItpDb :=
  { db with
    deliverableItcMaps := db.deliverableItcMaps.delete p
    deliverableCheckMaps := db.deliverableCheckMaps.update
      (fun c => db.deliverableItcMaps.rows.any
        (fun m => p m && c.deliverableItcMapId == some m.id))
      DeliverableCheckMap.forgetItc DeliverableCheckMap.forgetItc_id }

/-- Delete checks of templates. The checks made from them stay, without a template. -/
def ItpDb.dropTemplateChecks (db : ItpDb) (p : ItcCheckMap → Bool) : ItpDb :=
  { db with
    itcCheckMaps := db.itcCheckMaps.delete p
    deliverableCheckMaps := db.deliverableCheckMaps.update
      (fun c => db.itcCheckMaps.rows.any (fun x => p x && c.itcCheckId == some x.id))
      DeliverableCheckMap.forgetTemplate DeliverableCheckMap.forgetTemplate_id }

structure ItcForm where
  name : String
  status : String
  comment : String
  groupNumber : Option Int

/-- The row after `ITC_edit`: an empty field leaves the value as it is. -/
def DeliverableItcMap.edit (form : ItcForm) (number : Option Int) (m : DeliverableItcMap) :
    DeliverableItcMap :=
  { m with
    status := if form.status = "" then m.status else some form.status
    comments := if form.comment = "" then m.comments else some form.comment
    itcGroupNumber := number }

theorem DeliverableItcMap.edit_id (form : ItcForm) (number : Option Int) (m : DeliverableItcMap) :
    (m.edit form number).id = m.id := rfl

/-- The new number of another ITC of the deliverable when `itc` moves within its
group. The template of each is read, and numbers are compared within the group. -/
def shiftInGroup (itcs : Itcs) (group : Option Nat) (shift : Option Int → Option (Option Int))
    (moves : Bool) (m : DeliverableItcMap) : Option (Option Int) :=
  if moves then do
    let template ← m.template itcs
    if template.itcGroupId = group then shift m.itcGroupNumber else pure m.itcGroupNumber
  else pure m.itcGroupNumber

def itcEdit (db : ItpDb) (url : DeliverableUrl) (itcid : Nat) (form : ItcForm) :
    Option ItpDb := do
  let deliverable ← db.deliverableOf url
  let itc ← db.deliverableItcMaps.get? itcid
  let template ← itc.template db.itcs
  -- names of templates are unique in the database
  guard (form.name = "" ∨ form.name = template.name ∨ ∀ i ∈ db.itcs.rows, i.name ≠ form.name)
  let counts := groupCount db.itcs db.deliverableItcMaps deliverable.id template.itcGroupId
  let target ← form.groupNumber
  let shift := shiftInGroup db.itcs template.itcGroupId
    (shiftNumber counts itc.itcGroupNumber target) (decide (itc.itcGroupNumber ≠ some target))
  guard (∀ m ∈ itcsOf db.deliverableItcMaps deliverable.id, (shift m).isSome = true)
  let shifted := db.deliverableItcMaps.update (fun m => m.deliverableId == some deliverable.id)
    (fun m => m.setGroupNumber ((shift m).getD m.itcGroupNumber))
    (fun _ => DeliverableItcMap.setGroupNumber_id _ _)
  pure { db with
    itcs := db.itcs.update (fun i => i.id == template.id && form.name != "") (Itc.rename form.name)
      (Itc.rename_id _)
    deliverableItcMaps := shifted.update (fun m => m.id == itc.id)
      (DeliverableItcMap.edit form (landing counts itc.itcGroupNumber target))
      (DeliverableItcMap.edit_id form _) }

/-- The project is not looked up under the site here. -/
def ItpDb.deliverableOfProject (db : ItpDb) (url : DeliverableUrl) : Option Deliverable := do
  let project ← db.projects.get? url.projectid
  let itp ← db.itps.first? (fun i => i.projectId == some project.id && i.id == url.itpid)
  db.deliverables.first? (fun d => d.itpId == some itp.id && d.id == url.deliverableid)

def itcDelete (db : ItpDb) (url : DeliverableUrl) (itcid : Nat) : Option ItpDb := do
  let deliverable ← db.deliverableOfProject url
  let itc ← db.deliverableItcMaps.get? itcid
  let template ← itc.template db.itcs
  let counts := groupCount db.itcs db.deliverableItcMaps deliverable.id template.itcGroupId
  let gap := gapAfter counts itc.itcGroupNumber
  let dropped := db.dropItcs (fun m => m.id == itc.id)
  guard (gap = none ∨ ∀ m ∈ itcsOf dropped.deliverableItcMaps deliverable.id,
    m.itcGroupNumber.isSome = true)
  pure { dropped with
    deliverableItcMaps := dropped.deliverableItcMaps.update
      (fun m => m.deliverableId == some deliverable.id)
      (fun m => m.setGroupNumber (closeUp gap m.itcGroupNumber))
      (fun _ => DeliverableItcMap.setGroupNumber_id _ _) }

/-- The group numbers that `ITC_delete` compares are all there, or it compares none. -/
def ItpDb.GapCloses (db : ItpDb) (deliverable : Nat) (itc : DeliverableItcMap) (template : Itc) :
    Prop :=
  gapAfter (groupCount db.itcs db.deliverableItcMaps deliverable template.itcGroupId)
      itc.itcGroupNumber = none ∨
    ∀ m ∈ itcsOf db.deliverableItcMaps deliverable, m.id ≠ itc.id → m.itcGroupNumber.isSome = true

def deliverableDelete (db : ItpDb) (url : DeliverableUrl) : Option ItpDb := do
  let deliverable ← db.deliverableOf url
  pure { db with
    deliverables := db.deliverables.delete (fun d => d.id == deliverable.id)
    deliverableItcMaps := db.deliverableItcMaps.update
      (fun m => m.deliverableId == some deliverable.id)
      DeliverableItcMap.forgetDeliverable DeliverableItcMap.forgetDeliverable_id }

structure ItcGeneralForm where
  name : String
  deliverableType : Nat
  description : String
  group : Nat

def newTemplate (form : ItcGeneralForm) (type : Nat) (group : Option Nat) (id : Nat) : Itc :=
  ⟨id, form.name, some form.description, some type, group⟩

theorem newTemplate_id (form : ItcGeneralForm) (type : Nat) (group : Option Nat) (id : Nat) :
    (newTemplate form type group id).id = id := rfl

/-- The page that led to the request is read first and has to have three parts. -/
def itcGeneralNew (db : ItpDb) (referrerParts : Option Nat) (form : ItcGeneralForm) :
    Option ItpDb := do
  let parts ← referrerParts
  guard (3 ≤ parts)
  guard (form.name ≠ "")
  guard ((db.itcs.first? (fun i => i.name == form.name)).isNone)
  let type ← db.deliverableTypes.get? form.deliverableType
  let group := db.itcGroups.get? form.group
  pure { db with
    itcs := db.itcs.insert (newTemplate form type.id (group.map ItcGroup.id))
      (newTemplate_id _ _ _) }

def itcGeneralDelete (db : ItpDb) (itcid : Nat) : Option ItpDb := do
  let template ← db.itcs.get? itcid
  let dropped := db.dropItcs (fun m => m.itcId == some template.id)
  pure { dropped with
    itcs := db.itcs.delete (fun i => i.id == template.id)
    itcCheckMaps := db.itcCheckMaps.update (fun c => c.itcId == some template.id)
      ItcCheckMap.forgetItc ItcCheckMap.forgetItc_id }

def newTemplateCheck (check itc : Nat) (id : Nat) : ItcCheckMap := ⟨id, some check, some itc⟩

theorem newTemplateCheck_id (check itc id : Nat) : (newTemplateCheck check itc id).id = id := rfl

/-- No choice in the form leaves the name of the check unbound, which raises. -/
def itcCheckGeneralNew (db : ItpDb) (itcid : Nat) (check : Option Nat) : Option ItpDb := do
  let checkid ← check
  let check ← db.checkGenerics.get? checkid
  let template ← db.itcs.get? itcid
  pure { db with
    itcCheckMaps := db.itcCheckMaps.insert (newTemplateCheck check.id template.id)
      (newTemplateCheck_id _ _) }

/-- The ITC of the URL is read only to redirect. -/
def itcCheckGeneralDelete (db : ItpDb) (checkid : Nat) : Option ItpDb := do
  let check ← db.itcCheckMaps.get? checkid
  pure { db with
    itcCheckMaps := db.itcCheckMaps.delete (fun x => x.id == check.id)
    deliverableCheckMaps := db.deliverableCheckMaps.delete (fun c => c.itcCheckId == some check.id) }

def newCheckGeneric (description : String) (id : Nat) : CheckGeneric := ⟨id, description⟩

theorem newCheckGeneric_id (description : String) (id : Nat) :
    (newCheckGeneric description id).id = id := rfl

def genericCheckNew (db : ItpDb) (description : String) : Option ItpDb := do
  guard (description ≠ "")
  guard ((db.checkGenerics.first? (fun g => g.checkDescription == description)).isNone)
  pure { db with
    checkGenerics := db.checkGenerics.insert (newCheckGeneric description)
      (newCheckGeneric_id description) }

def genericCheckDelete (db : ItpDb) (checkid : Nat) : Option ItpDb := do
  let check ← db.checkGenerics.get? checkid
  let dropped := db.dropTemplateChecks (fun x => x.checkGeneric == some check.id)
  pure { dropped with checkGenerics := db.checkGenerics.delete (fun g => g.id == check.id) }

theorem itcDelete_isSome {db : ItpDb} {url : DeliverableUrl} {itcid : Nat} :
    (itcDelete db url itcid).isSome ↔ ∃ d, db.deliverableOfProject url = some d ∧
      ∃ itc, db.deliverableItcMaps.get? itcid = some itc ∧
        ∃ template, itc.template db.itcs = some template ∧ db.GapCloses d.id itc template := by
  have hclose : ∀ (d : Nat) (itc : DeliverableItcMap) (template : Itc),
      db.GapCloses d itc template ↔
        (gapAfter (groupCount db.itcs db.deliverableItcMaps d template.itcGroupId)
            itc.itcGroupNumber = none ∨
          ∀ m ∈ itcsOf (db.dropItcs (fun m => m.id == itc.id)).deliverableItcMaps d,
            m.itcGroupNumber.isSome = true) := by
    intro d itc template
    unfold ItpDb.GapCloses
    refine or_congr Iff.rfl (forall_congr' fun m => ?_)
    simp only [mem_itcsOf, ItpDb.dropItcs, Table.mem_delete, beq_eq_false_iff_ne, and_imp]
    exact ⟨fun hh hm hid hd => hh hm hd hid, fun hh hm hd hid => hh hm hid hd⟩
  simp only [itcDelete, Option.isSome_iff_exists, Option.bind_eq_bind, Option.bind_eq_some_iff,
    guard_eq_some, hclose]
  constructor
  · rintro ⟨db', d, hd, itc, hitc, template, htemplate, -, hguard, -⟩
    exact ⟨d, hd, itc, hitc, template, htemplate, hguard⟩
  · rintro ⟨d, hd, itc, hitc, template, htemplate, hguard⟩
    exact ⟨_, d, hd, itc, hitc, template, htemplate, (), hguard, rfl⟩

end Medusa
