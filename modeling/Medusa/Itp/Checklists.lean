import Medusa.Children
import Medusa.Following
import Medusa.Interned
import Medusa.Itp.Integrity

/-! The checklists of the templates. Their checks do not have a text, but name one in the
catalogue of generic checks, and templates share the texts. As texts are added and deleted
but never rewritten, every checklist is as good as one with texts of its own: to change a
check of one template changes no other. -/

namespace Medusa

open Relational

def Itc.edit (name : String) (group : Option Nat) (i : Itc) : Itc :=
  { i with name := if name = "" then i.name else name, itcGroupId := group }

theorem Itc.edit_id (name : String) (group : Option Nat) (i : Itc) : (i.edit name group).id = i.id := rfl

/-- The name is not looked up first, but the names of templates are unique in the database. -/
def itcGeneralEdit (db : ItpDb) (itcid : Nat) (name : String) (group : Nat) : Option ItpDb := do
  let template ← db.itcs.get? itcid
  guard (name = "" ∨ name = template.name ∨ ∀ i ∈ db.itcs.rows, i.name ≠ name)
  pure { db with
    itcs := db.itcs.update (fun i => i.id == template.id)
      (Itc.edit name ((db.itcGroups.get? group).map ItcGroup.id)) (Itc.edit_id _ _) }

def ItcCheckMap.setCheck (generic : Nat) (x : ItcCheckMap) : ItcCheckMap :=
  { x with checkGeneric := some generic }

theorem ItcCheckMap.setCheck_id (generic : Nat) (x : ItcCheckMap) : (x.setCheck generic).id = x.id := rfl

/-- The check names another generic check, which is made if there is none of that text.
The ITC of the URL is read only to redirect. -/
def itcCheckGeneralEdit (db : ItpDb) (checkid : Nat) (description : String) : Option ItpDb :=
  if description = "" then some db else do
    let check ← db.itcCheckMaps.get? checkid
    let generic ← check.checkGeneric.bind db.checkGenerics.get?
    if description = generic.checkDescription then some db else
      match db.checkGenerics.first? (fun g => g.checkDescription == description) with
      | none =>
        some { db with
          checkGenerics := db.checkGenerics.insert (newCheckGeneric description)
            (newCheckGeneric_id description)
          itcCheckMaps := db.itcCheckMaps.update (fun x => x.id == check.id)
            (ItcCheckMap.setCheck db.checkGenerics.nextKey) (ItcCheckMap.setCheck_id _) }
      | some old =>
        some { db with
          itcCheckMaps := db.itcCheckMaps.update (fun x => x.id == check.id)
            (ItcCheckMap.setCheck old.id) (ItcCheckMap.setCheck_id _) }

/-- The generic check itself stays as it is. -/
def genericCheckEdit (db : ItpDb) (checkid : Nat) (description : String) : Option ItpDb :=
  if description = "" then some db else do
    let check ← db.checkGenerics.get? checkid
    if description = check.checkDescription then some db else
      match db.checkGenerics.first? (fun g => g.checkDescription == description) with
      | none =>
        some { db with
          checkGenerics := db.checkGenerics.insert (newCheckGeneric description)
            (newCheckGeneric_id description) }
      | some _ => some db

/-- The requests on templates and generic checks. -/
def StoreRequest.onTemplates : StoreRequest → Bool
  | itcGeneralNew _ _ | itcGeneralDelete _ | itcCheckGeneralNew _ _ | itcCheckGeneralDelete _
  | genericCheckNew _ | genericCheckDelete _ => true
  | _ => false

inductive CatalogueRequest
  | itcGeneralEdit (itcid : Nat) (name : String) (group : Nat)
  | itcCheckGeneralEdit (checkid : Nat) (description : String)
  | genericCheckEdit (checkid : Nat) (description : String)
  | store (r : StoreRequest)

def CatalogueRequest.commit (db : ItpDb) : CatalogueRequest → Option ItpDb
  | itcGeneralEdit itcid name group => Medusa.itcGeneralEdit db itcid name group
  | itcCheckGeneralEdit checkid description => Medusa.itcCheckGeneralEdit db checkid description
  | genericCheckEdit checkid description => Medusa.genericCheckEdit db checkid description
  | store r => r.commit db

/-- A check of a template, with a text of its own. A check whose template was deleted is
under none. -/
structure ChecklistItem where
  id : Nat
  template : Option Nat
  text : Option String
deriving DecidableEq

/-- The texts that can be chosen, the templates with their names, and the checks. -/
structure Checklists where
  catalogue : List CheckGeneric
  templates : List (Nat × String)
  items : List ChecklistItem
deriving DecidableEq

namespace Checklists

variable (lists : Checklists)

/-- A text that is not there is added to the catalogue. -/
def offer (id : Nat) (text : String) : Checklists :=
  { lists with
    catalogue := if lists.catalogue.any (fun g => g.checkDescription == text) then lists.catalogue
      else lists.catalogue ++ [⟨id, text⟩] }

def setText (id : Nat) (text : String) : Checklists :=
  { lists with
    items := lists.items.map (fun i => if i.id = id then { i with text := some text } else i) }

/-- A text that is deleted from the catalogue is deleted from every checklist. -/
def dropText (generic : CheckGeneric) : Checklists :=
  { lists with
    catalogue := lists.catalogue.filter (fun g => g.id != generic.id)
    items := lists.items.filter (fun i => i.text != some generic.checkDescription) }

def dropTemplate (id : Nat) : Checklists :=
  { lists with
    templates := lists.templates.filter (fun i => i.1 != id)
    items := lists.items.map (fun i => if i.template = some id then { i with template := none } else i) }

def rename (id : Nat) (name : String) : Checklists :=
  { lists with templates := lists.templates.map (fun i => if i.1 = id then (id, name) else i) }

end Checklists

/-- What a request does to checklists that share nothing. `id` is the id of what is new. -/
def CatalogueRequest.step (types : Table DeliverableType DeliverableType.id) (id : Nat)
    (lists : Checklists) : CatalogueRequest → Option Checklists
  | itcGeneralEdit itcid name _ => do
    let template ← lists.templates.find? (fun i => i.1 == itcid)
    guard (name = "" ∨ name = template.2 ∨ ∀ i ∈ lists.templates, i.2 ≠ name)
    pure (if name = "" then lists else lists.rename itcid name)
  | itcCheckGeneralEdit checkid description =>
    if description = "" then some lists else do
      let item ← lists.items.find? (fun i => i.id == checkid)
      let text ← item.text
      if description = text then some lists else
        some ((lists.offer id description).setText checkid description)
  | genericCheckEdit checkid description =>
    if description = "" then some lists else do
      let generic ← lists.catalogue.find? (fun g => g.id == checkid)
      if description = generic.checkDescription then some lists else
        some (lists.offer id description)
  | store (.itcGeneralNew referrerParts form) => do
    let parts ← referrerParts
    guard (3 ≤ parts)
    guard (form.name ≠ "")
    guard (∀ i ∈ lists.templates, i.2 ≠ form.name)
    guard ((types.get? form.deliverableType).isSome)
    pure { lists with templates := lists.templates ++ [(id, form.name)] }
  | store (.itcGeneralDelete itcid) => do
    let _ ← lists.templates.find? (fun i => i.1 == itcid)
    pure (lists.dropTemplate itcid)
  | store (.itcCheckGeneralNew itcid check) => do
    let checkid ← check
    let generic ← lists.catalogue.find? (fun g => g.id == checkid)
    let _ ← lists.templates.find? (fun i => i.1 == itcid)
    pure { lists with items := lists.items ++ [⟨id, some itcid, some generic.checkDescription⟩] }
  | store (.itcCheckGeneralDelete checkid) => do
    let _ ← lists.items.find? (fun i => i.id == checkid)
    pure { lists with items := lists.items.filter (fun i => i.id != checkid) }
  | store (.genericCheckNew description) => do
    guard (description ≠ "")
    guard (∀ g ∈ lists.catalogue, g.checkDescription ≠ description)
    pure { lists with catalogue := lists.catalogue ++ [⟨id, description⟩] }
  | store (.genericCheckDelete checkid) => do
    let generic ← lists.catalogue.find? (fun g => g.id == checkid)
    pure (lists.dropText generic)
  | store _ => none

namespace ItpDb

def item (db : ItpDb) (x : ItcCheckMap) : ChecklistItem :=
  ⟨x.id, x.itcId, db.checkGenerics.valueOf CheckGeneric.checkDescription x.checkGeneric⟩

/-- The checklists that the tables hold. -/
def checklists (db : ItpDb) : Checklists where
  catalogue := db.checkGenerics.rows
  templates := db.itcs.rows.map (fun i => (i.id, i.name))
  items := db.itcCheckMaps.rows.map db.item

/-- Every check of a template has a text, and no text is there twice. -/
structure Catalogued (db : ItpDb) : Prop where
  checks : db.itcCheckMaps.Refers ItcCheckMap.checkGeneric db.checkGenerics
  texts : db.checkGenerics.Distinct (fun g => some g.checkDescription)

end ItpDb

/-- The key that a new row of the request gets. -/
def CatalogueRequest.newKey (db : ItpDb) : CatalogueRequest → Nat
  | store (.itcGeneralNew _ _) => db.itcs.nextKey
  | store (.itcCheckGeneralNew _ _) => db.itcCheckMaps.nextKey
  | _ => db.checkGenerics.nextKey

namespace ItpDb

variable {db db' : ItpDb}

section Lookups

theorem find?_template (k : Nat) : db.checklists.templates.find? (fun i => i.1 == k) =
    (db.itcs.get? k).map (fun i => (i.id, i.name)) :=
  List.find?_map

theorem find?_item (k : Nat) : db.checklists.items.find? (fun i => i.id == k) =
    (db.itcCheckMaps.get? k).map db.item :=
  List.find?_map

theorem find?_generic (k : Nat) : db.checklists.catalogue.find? (fun g => g.id == k) =
    db.checkGenerics.get? k := rfl

theorem generic_isNone_iff (description : String) :
    (db.checkGenerics.first? (fun g => g.checkDescription == description)).isNone = true ↔
      ∀ g ∈ db.checklists.catalogue, g.checkDescription ≠ description := by
  simp [Table.first?, checklists]

end Lookups

section Changes

/-- The items, where each check names what it named before. -/
theorem items_congr (db db' : ItpDb) {checks : Table ItcCheckMap ItcCheckMap.id}
    (hchecks : ∀ x ∈ checks.rows, db'.checkGenerics.valueOf CheckGeneric.checkDescription x.checkGeneric =
      db.checkGenerics.valueOf CheckGeneric.checkDescription x.checkGeneric) :
    checks.rows.map db'.item = checks.rows.map db.item := by
  refine List.map_congr_left ?_
  intro x hx
  rw [item, item, hchecks x hx]

theorem Catalogued.checklists_offer (h : db.Catalogued) {description : String}
    (hnone : db.checkGenerics.first? (fun g => g.checkDescription == description) = none) :
    { db with
      checkGenerics := db.checkGenerics.insert (newCheckGeneric description)
        (newCheckGeneric_id description) }.checklists =
      db.checklists.offer db.checkGenerics.nextKey description := by
  have hfresh : db.checkGenerics.rows.any (fun g => g.checkDescription == description) = false := by
    rw [List.any_eq_false]
    intro g hg
    simpa using Table.first?_eq_none hnone g hg
  have hitems := items_congr db { db with
    checkGenerics := db.checkGenerics.insert (newCheckGeneric description)
      (newCheckGeneric_id description) }
    (fun x hx => Table.valueOf_insert (newCheckGeneric_id description) (h.checks x hx))
  simp only [checklists, Checklists.offer, hitems, hfresh, Table.rows_insert]
  rfl

theorem checklists_offer_old {description : String} {old : CheckGeneric} (id : Nat)
    (hold : db.checkGenerics.first? (fun g => g.checkDescription == description) = some old) :
    db.checklists.offer id description = db.checklists := by
  obtain ⟨hmem, htext⟩ := Table.mem_of_first? hold
  have hany : db.checkGenerics.rows.any (fun g => g.checkDescription == description) = true :=
    List.any_eq_true.mpr ⟨old, hmem, htext⟩
  simp only [checklists, Checklists.offer, hany, if_true]

theorem checklists_setText (db : ItpDb) {generic : Nat} {text : String}
    (htext : db.checkGenerics.valueOf CheckGeneric.checkDescription (some generic) = some text)
    (checkid : Nat) :
    { db with
      itcCheckMaps := db.itcCheckMaps.update (fun x => x.id == checkid)
        (ItcCheckMap.setCheck generic) (ItcCheckMap.setCheck_id generic) }.checklists =
      db.checklists.setText checkid text := by
  simp only [checklists, Checklists.setText, Table.rows_update, List.map_map]
  congr 1
  refine List.map_congr_left ?_
  intro x _
  by_cases hx : x.id = checkid
  · simp [hx, item, ItcCheckMap.setCheck, htext]
  · simp [hx, item]

theorem Catalogued.checklists_dropText (h : db.Catalogued) {generic : CheckGeneric}
    (hgeneric : generic ∈ db.checkGenerics.rows) :
    { db.dropTemplateChecks (fun x => x.checkGeneric == some generic.id) with
      checkGenerics := db.checkGenerics.delete (fun g => g.id == generic.id) }.checklists =
      db.checklists.dropText generic := by
  have hkept : ∀ x ∈ (db.itcCheckMaps.delete (fun x => x.checkGeneric == some generic.id)).rows,
      (db.checkGenerics.delete (fun g => g.id == generic.id)).valueOf CheckGeneric.checkDescription
        x.checkGeneric = db.checkGenerics.valueOf CheckGeneric.checkDescription x.checkGeneric := by
    intro x hx
    refine Table.valueOf_delete ?_
    simpa using (Table.mem_delete.mp hx).2
  have hitems := items_congr db { db.dropTemplateChecks
    (fun x => x.checkGeneric == some generic.id) with
      checkGenerics := db.checkGenerics.delete (fun g => g.id == generic.id) } hkept
  simp only [checklists, Checklists.dropText, dropTemplateChecks]
  congr 1
  refine hitems.trans ?_
  rw [Table.rows_delete, List.filter_map]
  congr 1
  refine List.filter_congr ?_
  intro x _
  -- the checks of that text are those that name the generic check
  have htext : db.checkGenerics.valueOf CheckGeneric.checkDescription x.checkGeneric =
      some generic.checkDescription ↔ x.checkGeneric = some generic.id := h.texts.valueOf_iff hgeneric
  rw [Bool.eq_iff_iff]
  simp [item, htext]

theorem checklists_dropTemplate (itcid : Nat) (maps : DeliverableItcs) (checks : DeliverableChecks) :
    { db with
      deliverableItcMaps := maps
      deliverableCheckMaps := checks
      itcs := db.itcs.delete (fun i => i.id == itcid)
      itcCheckMaps := db.itcCheckMaps.update (fun c => c.itcId == some itcid)
        ItcCheckMap.forgetItc ItcCheckMap.forgetItc_id }.checklists =
      db.checklists.dropTemplate itcid := by
  simp only [checklists, Checklists.dropTemplate, Table.rows_delete, Table.rows_update, List.map_map,
    List.filter_map]
  congr 1
  refine List.map_congr_left ?_
  intro x _
  by_cases hx : x.itcId = some itcid
  · simp [hx, item, ItcCheckMap.forgetItc]
  · simp [hx, item]

theorem checklists_rename (itcid : Nat) (name : String) (group : Option Nat) :
    { db with
      itcs := db.itcs.update (fun i => i.id == itcid) (Itc.edit name group)
        (Itc.edit_id name group) }.checklists =
      if name = "" then db.checklists else db.checklists.rename itcid name := by
  have htemplates : (db.itcs.update (fun i => i.id == itcid) (Itc.edit name group)
      (Itc.edit_id name group)).rows.map (fun i => (i.id, i.name)) = db.itcs.rows.map (fun i =>
        (i.id, if i.id = itcid ∧ name ≠ "" then name else i.name)) := by
    rw [Table.rows_update, List.map_map]
    refine List.map_congr_left ?_
    intro i _
    by_cases hi : i.id = itcid <;> by_cases hname : name = "" <;> simp [hi, hname, Itc.edit]
  simp only [checklists, htemplates]
  by_cases hname : name = ""
  · simp only [hname, ne_eq, not_true, and_false, if_false, if_true]
    rfl
  · simp only [hname, ne_eq, not_false_iff, and_true, if_false, Checklists.rename, List.map_map]
    congr 1
    refine List.map_congr_left ?_
    intro i _
    by_cases hi : i.id = itcid <;> simp [hi]

end Changes

section Requests

variable (types : Table DeliverableType DeliverableType.id)

theorem itcGeneralEdit_lists (itcid : Nat) (name : String) (group id : Nat) :
    (itcGeneralEdit db itcid name group).map checklists =
      (CatalogueRequest.itcGeneralEdit itcid name group).step types id db.checklists := by
  simp only [itcGeneralEdit, CatalogueRequest.step, find?_template]
  cases htemplate : db.itcs.get? itcid with
  | none => rfl
  | some template =>
    obtain ⟨-, rfl⟩ := Table.get?_eq_some.mp htemplate
    refine map_guard_bind ?_ (fun _ => congrArg some (checklists_rename template.id name _))
    simp [checklists]

theorem Catalogued.itcCheckGeneralEdit_lists (h : db.Catalogued) (checkid : Nat)
    (description : String) :
    (itcCheckGeneralEdit db checkid description).map checklists =
      (CatalogueRequest.itcCheckGeneralEdit checkid description).step types db.checkGenerics.nextKey
        db.checklists := by
  simp only [itcCheckGeneralEdit, CatalogueRequest.step, find?_item]
  by_cases hdescription : description = ""
  · simp [hdescription]
  · simp only [hdescription, if_false]
    cases hcheck : db.itcCheckMaps.get? checkid with
    | none => rfl
    | some check =>
      obtain ⟨hmem, rfl⟩ := Table.get?_eq_some.mp hcheck
      obtain ⟨generic, hgeneric, href⟩ := h.checks check hmem
      have hget : db.checkGenerics.get? generic.id = some generic :=
        Table.get?_eq_some.mpr ⟨hgeneric, rfl⟩
      simp only [Option.bind_eq_bind, Option.bind_some, Option.map_some, item, href, hget,
        Table.valueOf_mem hgeneric]
      by_cases hsame : description = generic.checkDescription
      · simp [hsame]
      · simp only [hsame, if_false]
        cases hold : db.checkGenerics.first? (fun g => g.checkDescription == description) with
        | none =>
          rw [← h.checklists_offer hold]
          exact congrArg some (checklists_setText { db with
            checkGenerics := db.checkGenerics.insert (newCheckGeneric description)
              (newCheckGeneric_id description) }
              (Table.valueOf_nextKey (newCheckGeneric_id description)) check.id)
        | some old =>
          obtain ⟨holdmem, htext⟩ := Table.mem_of_first? hold
          rw [checklists_offer_old _ hold, ← beq_iff_eq.mp htext]
          exact congrArg some (checklists_setText db (Table.valueOf_mem holdmem) check.id)

theorem Catalogued.genericCheckEdit_lists (h : db.Catalogued) (checkid : Nat) (description : String) :
    (genericCheckEdit db checkid description).map checklists =
      (CatalogueRequest.genericCheckEdit checkid description).step types db.checkGenerics.nextKey
        db.checklists := by
  simp only [genericCheckEdit, CatalogueRequest.step, find?_generic]
  by_cases hdescription : description = ""
  · simp [hdescription]
  · simp only [hdescription, if_false]
    cases db.checkGenerics.get? checkid with
    | none => rfl
    | some generic =>
      simp only [Option.bind_eq_bind, Option.bind_some]
      by_cases hsame : description = generic.checkDescription
      · simp [hsame]
      · simp only [hsame, if_false]
        cases hold : db.checkGenerics.first? (fun g => g.checkDescription == description) with
        | none => exact congrArg some (h.checklists_offer hold)
        | some old => exact congrArg some (checklists_offer_old _ hold).symm

theorem itcGeneralNew_lists (referrerParts : Option Nat) (form : ItcGeneralForm) :
    (itcGeneralNew db referrerParts form).map checklists =
      (CatalogueRequest.store (.itcGeneralNew referrerParts form)).step db.deliverableTypes
        db.itcs.nextKey db.checklists := by
  cases referrerParts with
  | none => rfl
  | some parts =>
    refine map_guard_bind Iff.rfl (fun _ => map_guard_bind Iff.rfl (fun _ => map_guard_bind ?_
      (fun _ => map_bind_isSome (fun type _ => congrArg some ?_))))
    · simp [checklists, Table.first?]
    · simp only [checklists, Table.rows_insert, List.map_append, List.map_singleton]
      rfl

theorem itcGeneralDelete_lists (itcid id : Nat) :
    (itcGeneralDelete db itcid).map checklists =
      (CatalogueRequest.store (.itcGeneralDelete itcid)).step types id db.checklists := by
  simp only [itcGeneralDelete, CatalogueRequest.step, find?_template]
  cases htemplate : db.itcs.get? itcid with
  | none => rfl
  | some template =>
    obtain ⟨-, rfl⟩ := Table.get?_eq_some.mp htemplate
    exact congrArg some (checklists_dropTemplate template.id _ _)

theorem itcCheckGeneralNew_lists (itcid : Nat) (check : Option Nat) :
    (itcCheckGeneralNew db itcid check).map checklists =
      (CatalogueRequest.store (.itcCheckGeneralNew itcid check)).step types db.itcCheckMaps.nextKey
        db.checklists := by
  simp only [itcCheckGeneralNew, CatalogueRequest.step, find?_template, find?_generic]
  cases check with
  | none => rfl
  | some checkid =>
    simp only [Option.bind_eq_bind, Option.bind_some]
    cases hgeneric : db.checkGenerics.get? checkid with
    | none => rfl
    | some generic =>
      cases htemplate : db.itcs.get? itcid with
      | none => rfl
      | some template =>
        obtain ⟨hmem, -⟩ := Table.get?_eq_some.mp hgeneric
        obtain ⟨-, rfl⟩ := Table.get?_eq_some.mp htemplate
        refine congrArg some ?_
        simp only [checklists, Table.rows_insert, List.map_append, List.map_singleton]
        congr 2
        simp only [item, newTemplateCheck, Table.valueOf_mem hmem]

theorem itcCheckGeneralDelete_lists (checkid id : Nat) :
    (itcCheckGeneralDelete db checkid).map checklists =
      (CatalogueRequest.store (.itcCheckGeneralDelete checkid)).step types id db.checklists := by
  simp only [itcCheckGeneralDelete, CatalogueRequest.step, find?_item]
  cases hcheck : db.itcCheckMaps.get? checkid with
  | none => rfl
  | some check =>
    obtain ⟨-, rfl⟩ := Table.get?_eq_some.mp hcheck
    refine congrArg some ?_
    simp only [checklists, Table.rows_delete, List.filter_map]
    rfl

theorem Catalogued.genericCheckNew_lists (h : db.Catalogued) (description : String) :
    (genericCheckNew db description).map checklists =
      (CatalogueRequest.store (.genericCheckNew description)).step types db.checkGenerics.nextKey
        db.checklists := by
  refine map_guard_bind Iff.rfl (fun _ => map_guard_bind (generic_isNone_iff description) ?_)
  intro hfree
  have hnone := Option.isNone_iff_eq_none.mp ((generic_isNone_iff description).mpr hfree)
  refine congrArg some ((h.checklists_offer hnone).trans ?_)
  have hany : db.checklists.catalogue.any (fun g => g.checkDescription == description) = false := by
    simpa using hfree
  simp only [Checklists.offer, hany]
  rfl

theorem Catalogued.genericCheckDelete_lists (h : db.Catalogued) (checkid id : Nat) :
    (genericCheckDelete db checkid).map checklists =
      (CatalogueRequest.store (.genericCheckDelete checkid)).step types id db.checklists := by
  simp only [genericCheckDelete, CatalogueRequest.step, find?_generic]
  cases hgeneric : db.checkGenerics.get? checkid with
  | none => rfl
  | some generic =>
    exact congrArg some (h.checklists_dropText (Table.get?_eq_some.mp hgeneric).1)

end Requests

section Runs

/-- The requests on deliverables and their ITCs leave the templates and the catalogue alone. -/
theorem store_aside {r : StoreRequest} (hr : r.commit db = some db') (haside : r.onTemplates = false) :
    ∃ deliverables maps checks, db' = { db with
      deliverables := deliverables
      deliverableItcMaps := maps
      deliverableCheckMaps := checks } := by
  cases r with
  | deliverableNew url form now =>
    obtain ⟨type, deliverables, -, rfl⟩ := deliverableNew_cases hr
    exact ⟨_, _, _, rfl⟩
  | deliverableDelete url =>
    obtain ⟨d, -, hdb⟩ := Option.bind_eq_some_iff.mp hr
    cases hdb
    exact ⟨_, _, _, rfl⟩
  | itcAdd url itcid =>
    simp only [StoreRequest.commit, itcAdd, Option.bind_eq_bind, Option.bind_eq_some_iff,
      Option.pure_def, Option.some.injEq] at hr
    obtain ⟨d, -, itc, -, rfl⟩ := hr
    exact ⟨_, _, _, rfl⟩
  | itcDelete url itcid =>
    simp only [StoreRequest.commit, itcDelete, Option.bind_eq_bind, Option.bind_eq_some_iff,
      Option.pure_def, Option.some.injEq] at hr
    obtain ⟨d, -, itc, -, template, -, _, -, rfl⟩ := hr
    exact ⟨_, _, _, rfl⟩
  | startItcTesting url itcid =>
    obtain ⟨itc, -, hdb⟩ := Option.bind_eq_some_iff.mp hr
    cases hdb
    exact ⟨_, _, _, rfl⟩
  | checkDelete url itcid checkid =>
    simp only [StoreRequest.commit, checkDelete, Option.bind_eq_bind, Option.bind_eq_some_iff,
      Option.pure_def, Option.some.injEq] at hr
    obtain ⟨itp, -, itc, -, check, -, -, -, rfl⟩ := hr
    exact ⟨_, _, _, rfl⟩
  | _ => exact absurd haside (by simp [StoreRequest.onTemplates])

theorem store_aside_lists {r : StoreRequest} (haside : r.onTemplates = false) (id : Nat) :
    (((CatalogueRequest.store r).commit db).map checklists).getD db.checklists =
      ((CatalogueRequest.store r).step db.deliverableTypes id db.checklists).getD db.checklists := by
  have hnone : (CatalogueRequest.store r).step db.deliverableTypes id db.checklists = none := by
    cases r with
    | deliverableNew _ _ _ | deliverableDelete _ | itcAdd _ _ | itcDelete _ _ | startItcTesting _ _
    | checkDelete _ _ _ => rfl
    | _ => exact absurd haside (by simp [StoreRequest.onTemplates])
  rw [hnone, CatalogueRequest.commit]
  cases hr : r.commit db with
  | none => rfl
  | some db' =>
    obtain ⟨_, _, _, rfl⟩ := store_aside hr haside
    rfl

variable (h : db.Catalogued)

include h

/-- One request, on the tables and on checklists that share nothing. -/
theorem Catalogued.serve_lists (r : CatalogueRequest) :
    (serve CatalogueRequest.commit db r).checklists =
      (r.step db.deliverableTypes (r.newKey db) db.checklists).getD db.checklists := by
  rw [serve, ← Option.getD_map checklists]
  have getD_congr : ∀ {x y : Option Checklists}, x = y →
      x.getD db.checklists = y.getD db.checklists := by
    rintro x _ rfl
    rfl
  cases r with
  | itcGeneralEdit itcid name group => exact getD_congr (itcGeneralEdit_lists _ itcid name group _)
  | itcCheckGeneralEdit checkid description =>
    exact getD_congr (h.itcCheckGeneralEdit_lists _ checkid description)
  | genericCheckEdit checkid description =>
    exact getD_congr (h.genericCheckEdit_lists _ checkid description)
  | store r =>
    cases r with
    | itcGeneralNew referrerParts form => exact getD_congr (itcGeneralNew_lists referrerParts form)
    | itcGeneralDelete itcid => exact getD_congr (itcGeneralDelete_lists _ itcid _)
    | itcCheckGeneralNew itcid check => exact getD_congr (itcCheckGeneralNew_lists _ itcid check)
    | itcCheckGeneralDelete checkid => exact getD_congr (itcCheckGeneralDelete_lists _ checkid _)
    | genericCheckNew description => exact getD_congr (h.genericCheckNew_lists _ description)
    | genericCheckDelete checkid => exact getD_congr (h.genericCheckDelete_lists _ checkid _)
    | _ => exact store_aside_lists rfl _

theorem Catalogued.insert_text {description : String}
    (hnone : db.checkGenerics.first? (fun g => g.checkDescription == description) = none) :
    { db with
      checkGenerics := db.checkGenerics.insert (newCheckGeneric description)
        (newCheckGeneric_id description) }.Catalogued where
  checks := h.checks.insert_target (newCheckGeneric_id description)
  texts := h.texts.insert_new (newCheckGeneric_id description) hnone (fun g he => by
    simpa [newCheckGeneric] using he)

/-- A check may name any generic check that there is. -/
theorem Catalogued.setCheck {generic : CheckGeneric} (hgeneric : generic ∈ db.checkGenerics.rows)
    (p : ItcCheckMap → Bool) :
    { db with
      itcCheckMaps := db.itcCheckMaps.update p (ItcCheckMap.setCheck generic.id)
        (ItcCheckMap.setCheck_id generic.id) }.Catalogued where
  checks := h.checks.repoint (ItcCheckMap.setCheck_id generic.id) (fun _ => ⟨generic, hgeneric, rfl⟩)
  texts := h.texts

theorem Catalogued.itcCheckGeneralEdit (checkid : Nat) (description : String)
    (hr : itcCheckGeneralEdit db checkid description = some db') :
    db'.Catalogued ∧ db'.deliverableTypes = db.deliverableTypes := by
  unfold Medusa.itcCheckGeneralEdit at hr
  by_cases hdescription : description = ""
  · rw [if_pos hdescription] at hr
    cases hr
    exact ⟨h, rfl⟩
  · rw [if_neg hdescription] at hr
    obtain ⟨check, -, hr⟩ := Option.bind_eq_some_iff.mp hr
    obtain ⟨generic, -, hr⟩ := Option.bind_eq_some_iff.mp hr
    by_cases hsame : description = generic.checkDescription
    · rw [if_pos hsame] at hr
      cases hr
      exact ⟨h, rfl⟩
    · rw [if_neg hsame] at hr
      cases hold : db.checkGenerics.first? (fun g => g.checkDescription == description) with
      | none =>
        rw [hold] at hr
        cases hr
        have hnew := Table.new_mem_insert db.checkGenerics (newCheckGeneric_id description)
        exact ⟨(h.insert_text hold).setCheck hnew _, rfl⟩
      | some old =>
        rw [hold] at hr
        cases hr
        exact ⟨h.setCheck (Table.mem_of_first? hold).1 _, rfl⟩

theorem Catalogued.genericCheckEdit (checkid : Nat) (description : String)
    (hr : genericCheckEdit db checkid description = some db') :
    db'.Catalogued ∧ db'.deliverableTypes = db.deliverableTypes := by
  unfold Medusa.genericCheckEdit at hr
  by_cases hdescription : description = ""
  · rw [if_pos hdescription] at hr
    cases hr
    exact ⟨h, rfl⟩
  · rw [if_neg hdescription] at hr
    obtain ⟨generic, -, hr⟩ := Option.bind_eq_some_iff.mp hr
    by_cases hsame : description = generic.checkDescription
    · rw [if_pos hsame] at hr
      cases hr
      exact ⟨h, rfl⟩
    · rw [if_neg hsame] at hr
      cases hold : db.checkGenerics.first? (fun g => g.checkDescription == description) with
      | none =>
        rw [hold] at hr
        cases hr
        exact ⟨h.insert_text hold, rfl⟩
      | some old =>
        rw [hold] at hr
        cases hr
        exact ⟨h, rfl⟩

theorem Catalogued.store (r : StoreRequest) (hr : r.commit db = some db') :
    db'.Catalogued ∧ db'.deliverableTypes = db.deliverableTypes := by
  cases haside : r.onTemplates with
  | false =>
    obtain ⟨_, _, _, rfl⟩ := store_aside hr haside
    exact ⟨⟨h.checks, h.texts⟩, rfl⟩
  | true =>
    cases r with
    | itcGeneralNew referrerParts form =>
      simp only [StoreRequest.commit, itcGeneralNew, Option.bind_eq_bind, Option.bind_eq_some_iff,
        Option.pure_def, Option.some.injEq] at hr
      obtain ⟨parts, -, -, -, -, -, -, -, type, -, rfl⟩ := hr
      exact ⟨⟨h.checks, h.texts⟩, rfl⟩
    | itcGeneralDelete itcid =>
      obtain ⟨template, -, hdb⟩ := Option.bind_eq_some_iff.mp hr
      cases hdb
      exact ⟨⟨h.checks.update ItcCheckMap.forgetItc_id (fun _ => rfl), h.texts⟩, rfl⟩
    | itcCheckGeneralNew itcid check =>
      simp only [StoreRequest.commit, itcCheckGeneralNew, Option.bind_eq_bind,
        Option.bind_eq_some_iff, Option.pure_def, Option.some.injEq] at hr
      obtain ⟨checkid, -, generic, hgeneric, template, -, rfl⟩ := hr
      exact ⟨⟨h.checks.insert (newTemplateCheck_id _ _)
        ⟨generic, (Table.get?_eq_some.mp hgeneric).1, rfl⟩, h.texts⟩, rfl⟩
    | itcCheckGeneralDelete checkid =>
      obtain ⟨check, -, hdb⟩ := Option.bind_eq_some_iff.mp hr
      cases hdb
      exact ⟨⟨h.checks.delete _, h.texts⟩, rfl⟩
    | genericCheckNew description =>
      simp only [StoreRequest.commit, genericCheckNew, Option.bind_eq_bind, Option.bind_eq_some_iff,
        guard_eq_some, Option.isNone_iff_eq_none, Option.pure_def, Option.some.injEq] at hr
      obtain ⟨_, -, _, hnone, rfl⟩ := hr
      exact ⟨h.insert_text hnone, rfl⟩
    | genericCheckDelete checkid =>
      obtain ⟨generic, -, hdb⟩ := Option.bind_eq_some_iff.mp hr
      cases hdb
      have hboth : ∀ x ∈ db.itcCheckMaps.rows, ∀ g ∈ db.checkGenerics.rows,
          x.checkGeneric = some g.id → (g.id == generic.id) = true →
            (x.checkGeneric == some generic.id) = true := by
        intro x _ g _ href hid
        rw [href, beq_iff_eq.mp hid]
        exact beq_self_eq_true _
      exact ⟨⟨h.checks.delete_both hboth, h.texts.delete _⟩, rfl⟩
    | _ => exact absurd haside (by simp [StoreRequest.onTemplates])

theorem Catalogued.commit (r : CatalogueRequest) (hr : r.commit db = some db') :
    db'.Catalogued ∧ db'.deliverableTypes = db.deliverableTypes := by
  cases r with
  | itcGeneralEdit itcid name group =>
    simp only [CatalogueRequest.commit, Medusa.itcGeneralEdit, Option.bind_eq_bind,
      Option.bind_eq_some_iff, Option.pure_def, Option.some.injEq] at hr
    obtain ⟨template, -, _, -, rfl⟩ := hr
    exact ⟨⟨h.checks, h.texts⟩, rfl⟩
  | itcCheckGeneralEdit checkid description => exact h.itcCheckGeneralEdit checkid description hr
  | genericCheckEdit checkid description => exact h.genericCheckEdit checkid description hr
  | store r => exact h.store r hr

end Runs

end ItpDb

theorem pumpProject_catalogued : pumpProject.Catalogued where
  checks := by
    intro x hx
    have hx' : x = ⟨1, some 1, some 1⟩ ∨ x = ⟨2, some 2, some 1⟩ := by simpa [pumpProject] using hx
    rcases hx' with rfl | rfl
    · exact ⟨⟨1, "wired"⟩, by simp [pumpProject], rfl⟩
    · exact ⟨⟨2, "labelled"⟩, by simp [pumpProject], rfl⟩
  texts := by
    intro g hg g' hg' _ he
    have hg₁ : g = ⟨1, "wired"⟩ ∨ g = ⟨2, "labelled"⟩ := by simpa [pumpProject] using hg
    have hg₂ : g' = ⟨1, "wired"⟩ ∨ g' = ⟨2, "labelled"⟩ := by simpa [pumpProject] using hg'
    rcases hg₁ with rfl | rfl <;> rcases hg₂ with rfl | rfl <;> simp_all

/-- The panel template is given the check of the pump template, which is then edited. -/
def relabelled : List CatalogueRequest :=
  [.store (.itcCheckGeneralNew 2 (some 2)), .itcCheckGeneralEdit 2 "labelled twice"]

end Medusa
