import Medusa.Itp.ItcRequests
import Medusa.References

/-! The references of the ITP store. Everything that is made refers to rows that are
there. Of the requests that delete, the one on a check and the one on a check of a
template leave no reference behind; the others leave references without a value
unless nothing depended on the deleted row. -/

namespace Medusa

open Relational

/-- Every check has its ITC and its check of the template, every ITC its deliverable
and its template, and every check of a template its template and its generic check. -/
structure ItpDb.Intact (db : ItpDb) : Prop where
  checkItc : db.deliverableCheckMaps.Refers DeliverableCheckMap.deliverableItcMapId
    db.deliverableItcMaps
  checkTemplate : db.deliverableCheckMaps.Refers DeliverableCheckMap.itcCheckId db.itcCheckMaps
  itcDeliverable : db.deliverableItcMaps.Refers DeliverableItcMap.deliverableId db.deliverables
  itcTemplate : db.deliverableItcMaps.Refers DeliverableItcMap.itcId db.itcs
  templateItc : db.itcCheckMaps.Refers ItcCheckMap.itcId db.itcs
  templateGeneric : db.itcCheckMaps.Refers ItcCheckMap.checkGeneric db.checkGenerics

inductive StoreRequest
  | deliverableNew (url : ItpUrl) (form : DeliverableForm) (now : Nat)
  | deliverableDelete (url : DeliverableUrl)
  | itcAdd (url : DeliverableUrl) (itcid : Nat)
  | itcDelete (url : DeliverableUrl) (itcid : Nat)
  | startItcTesting (url : DeliverableUrl) (itcid : Nat)
  | checkDelete (url : ItpUrl) (itcid checkid : Nat)
  | itcGeneralNew (referrerParts : Option Nat) (form : ItcGeneralForm)
  | itcGeneralDelete (itcid : Nat)
  | itcCheckGeneralNew (itcid : Nat) (check : Option Nat)
  | itcCheckGeneralDelete (checkid : Nat)
  | genericCheckNew (description : String)
  | genericCheckDelete (checkid : Nat)

def StoreRequest.commit (db : ItpDb) : StoreRequest → Option ItpDb
  | deliverableNew url form now => Medusa.deliverableNew db url form now
  | deliverableDelete url => Medusa.deliverableDelete db url
  | itcAdd url itcid => Medusa.itcAdd db url itcid
  | itcDelete url itcid => Medusa.itcDelete db url itcid
  | startItcTesting url itcid => Medusa.startItcTesting db url itcid
  | checkDelete url itcid checkid => Medusa.checkDelete db url itcid checkid
  | itcGeneralNew referrerParts form => Medusa.itcGeneralNew db referrerParts form
  | itcGeneralDelete itcid => Medusa.itcGeneralDelete db itcid
  | itcCheckGeneralNew itcid check => Medusa.itcCheckGeneralNew db itcid check
  | itcCheckGeneralDelete checkid => Medusa.itcCheckGeneralDelete db checkid
  | genericCheckNew description => Medusa.genericCheckNew db description
  | genericCheckDelete checkid => Medusa.genericCheckDelete db checkid

/-- Nothing depends on the row that is deleted, beyond what the request deletes. -/
def StoreRequest.Unused (db : ItpDb) : StoreRequest → Prop
  | deliverableDelete url =>
    ∀ d, db.deliverableOf url = some d → itcsOf db.deliverableItcMaps d.id = []
  | itcDelete url itcid =>
    ∀ d, db.deliverableOfProject url = some d → ∀ itc, db.deliverableItcMaps.get? itcid = some itc →
      ∀ template, itc.template db.itcs = some template → db.GapCloses d.id itc template →
        checksOf db.deliverableCheckMaps itc.id = []
  | itcGeneralDelete itcid =>
    ∀ template, db.itcs.get? itcid = some template → db.templateChecks (some template.id) = [] ∧
      ∀ m ∈ db.deliverableItcMaps.rows, m.itcId = some template.id →
        checksOf db.deliverableCheckMaps m.id = []
  | genericCheckDelete checkid =>
    ∀ generic, db.checkGenerics.get? checkid = some generic →
      ∀ x ∈ db.itcCheckMaps.rows, x.checkGeneric = some generic.id →
        ∀ c ∈ db.deliverableCheckMaps.rows, c.itcCheckId ≠ some x.id
  | _ => True

namespace ItpDb.Intact

variable {db : ItpDb}

/-- Checks that are added name an ITC and a check of a template. -/
theorem addChecks (h : db.Intact) {checks : DeliverableChecks} {maps : DeliverableItcs}
    (hmaps : db.deliverableItcMaps.rows ⊆ maps.rows)
    (hnew : ∀ c ∈ checks.rows, c ∈ db.deliverableCheckMaps.rows ∨
      ∃ m ∈ maps.rows, ∃ x ∈ db.itcCheckMaps.rows, ∃ number id, c = newCheck m.id x.id number id) :
    checks.Refers DeliverableCheckMap.deliverableItcMapId maps ∧
      checks.Refers DeliverableCheckMap.itcCheckId db.itcCheckMaps := by
  constructor
  · intro c hc
    rcases hnew c hc with hc | ⟨m, hm, x, -, number, id, rfl⟩
    · exact h.checkItc.of_subset hmaps c hc
    · exact ⟨m, hm, rfl⟩
  · intro c hc
    rcases hnew c hc with hc | ⟨m, -, x, hx, number, id, rfl⟩
    · exact h.checkTemplate c hc
    · exact ⟨x, hx, rfl⟩

theorem deliverableNew (h : db.Intact) {db' : ItpDb} {url : ItpUrl} {form : DeliverableForm}
    {now : Nat} (hr : deliverableNew db url form now = some db') : db'.Intact := by
  obtain ⟨type, deliverables, hids, rfl⟩ := deliverableNew_cases hr
  have hkeys : ∀ k, (k ∈ db.deliverables.rows.map Deliverable.id ∨ k = db.deliverables.nextKey) →
      ∃ d ∈ deliverables.rows, d.id = k := by
    intro k hk
    apply List.mem_map.mp
    rw [hids, List.mem_append, List.mem_singleton]
    exact hk
  refine ⟨(h.addChecks ?sub ?new).1, (h.addChecks ?sub ?new).2, ?_, ?_, h.templateItc,
    h.templateGeneric⟩
  case sub => exact subset_foldl_addItc db.itcs db.deliverables.nextKey _ _
  case new =>
    intro c hc
    rcases mem_generateAll hc with hc | ⟨m, hm, x, hx, hnew⟩
    · exact Or.inl hc
    · exact Or.inr ⟨m, (mem_itcsOf.mp hm).1, x, (ItpDb.mem_templateChecks.mp hx).1, hnew⟩
  · intro m hm
    rcases mem_foldl_addItc hm with hm | ⟨itc, -, number, id, rfl⟩
    · obtain ⟨d, hd, he⟩ := h.itcDeliverable m hm
      obtain ⟨d', hd', hid⟩ := hkeys d.id (Or.inl (List.mem_map_of_mem hd))
      exact ⟨d', hd', by rw [he, hid]⟩
    · obtain ⟨d', hd', hid⟩ := hkeys _ (Or.inr rfl)
      exact ⟨d', hd', congrArg some hid.symm⟩
  · intro m hm
    rcases mem_foldl_addItc hm with hm | ⟨itc, hitc, number, id, rfl⟩
    · exact h.itcTemplate m hm
    · exact ⟨itc, (List.mem_filter.mp hitc).1, rfl⟩

theorem itcAdd (h : db.Intact) {db' : ItpDb} {url : DeliverableUrl} {itcid : Nat}
    (hr : itcAdd db url itcid = some db') : db'.Intact := by
  simp only [Medusa.itcAdd, Option.bind_eq_bind, Option.bind_eq_some_iff, Option.pure_def,
    Option.some.injEq] at hr
  obtain ⟨d, hd, itc, hitc, rfl⟩ := hr
  have hnewItc : ∃ m ∈ (addItc db.itcs d.id db.deliverableItcMaps itc).rows,
      m.id = db.deliverableItcMaps.nextKey := by
    unfold addItc
    exact ⟨_, Table.mem_insert.mpr (Or.inr rfl), rfl⟩
  obtain ⟨m₀, hm₀, hid⟩ := hnewItc
  refine ⟨(h.addChecks ?sub ?new).1, (h.addChecks ?sub ?new).2, ?_, ?_, h.templateItc,
    h.templateGeneric⟩
  case sub => exact subset_addItc db.itcs d.id db.deliverableItcMaps itc
  case new =>
    intro c hc
    rcases mem_generateChecks hc with hc | ⟨x, hx, number, id, rfl⟩
    · exact Or.inl hc
    · exact Or.inr ⟨m₀, hm₀, x, (ItpDb.mem_templateChecks.mp hx).1, number, id, by rw [hid]⟩
  · intro m hm
    rcases mem_addItc hm with hm | ⟨number, rfl⟩
    · exact h.itcDeliverable m hm
    · exact ⟨d, ItpDb.mem_of_deliverableOf hd, rfl⟩
  · intro m hm
    rcases mem_addItc hm with hm | ⟨number, rfl⟩
    · exact h.itcTemplate m hm
    · exact ⟨itc, (Table.get?_eq_some.mp hitc).1, rfl⟩

theorem startItcTesting (h : db.Intact) {db' : ItpDb} {url : DeliverableUrl} {itcid : Nat}
    (hr : startItcTesting db url itcid = some db') : db'.Intact := by
  simp only [Medusa.startItcTesting, Option.bind_eq_bind, Option.bind_eq_some_iff, Option.pure_def,
    Option.some.injEq] at hr
  obtain ⟨itc, hitc, rfl⟩ := hr
  obtain ⟨-, -, hitc, -, -⟩ := ItpDb.itcOf_eq_some hitc
  have hnew : ∀ c ∈ (generateChecks
      (db.deliverableCheckMaps.delete (fun c => c.deliverableItcMapId == some itc.id)) itc.id
      (db.templateChecks itc.itcId)).rows, c ∈ db.deliverableCheckMaps.rows ∨
        ∃ m ∈ db.deliverableItcMaps.rows, ∃ x ∈ db.itcCheckMaps.rows,
          ∃ number id, c = newCheck m.id x.id number id := by
    intro c hc
    rcases mem_generateChecks hc with hc | ⟨x, hx, number, id, rfl⟩
    · exact Or.inl (Table.mem_delete.mp hc).1
    · exact Or.inr ⟨itc, hitc, x, (ItpDb.mem_templateChecks.mp hx).1, number, id, rfl⟩
  obtain ⟨hcheckItc, hcheckTemplate⟩ := h.addChecks (List.Subset.refl _) hnew
  exact ⟨(Table.Refers.update_target_iff DeliverableItcMap.inProgress_id).mpr hcheckItc, hcheckTemplate,
    h.itcDeliverable.update DeliverableItcMap.inProgress_id (fun _ => rfl),
    h.itcTemplate.update DeliverableItcMap.inProgress_id (fun _ => rfl),
    h.templateItc, h.templateGeneric⟩

theorem checkDelete (h : db.Intact) {db' : ItpDb} {url : ItpUrl} {itcid checkid : Nat}
    (hr : checkDelete db url itcid checkid = some db') : db'.Intact := by
  simp only [Medusa.checkDelete, Option.bind_eq_bind, Option.bind_eq_some_iff, Option.pure_def,
    Option.some.injEq] at hr
  obtain ⟨itp, -, itc, -, check, -, -, -, rfl⟩ := hr
  exact ⟨(h.checkItc.delete _).update (fun _ => DeliverableCheckMap.setNumber_id _ _) (fun _ => rfl),
    (h.checkTemplate.delete _).update (fun _ => DeliverableCheckMap.setNumber_id _ _) (fun _ => rfl),
    h.itcDeliverable, h.itcTemplate, h.templateItc, h.templateGeneric⟩

theorem itcGeneralNew (h : db.Intact) {db' : ItpDb} {referrerParts : Option Nat}
    {form : ItcGeneralForm} (hr : itcGeneralNew db referrerParts form = some db') : db'.Intact := by
  simp only [Medusa.itcGeneralNew, Option.bind_eq_bind, Option.bind_eq_some_iff, Option.pure_def,
    Option.some.injEq] at hr
  obtain ⟨parts, -, -, -, -, -, -, -, type, -, rfl⟩ := hr
  exact ⟨h.checkItc, h.checkTemplate, h.itcDeliverable,
    h.itcTemplate.insert_target (newTemplate_id _ _ _),
    h.templateItc.insert_target (newTemplate_id _ _ _), h.templateGeneric⟩

theorem itcCheckGeneralNew (h : db.Intact) {db' : ItpDb} {itcid : Nat} {check : Option Nat}
    (hr : itcCheckGeneralNew db itcid check = some db') : db'.Intact := by
  simp only [Medusa.itcCheckGeneralNew, Option.bind_eq_bind, Option.bind_eq_some_iff,
    Option.pure_def, Option.some.injEq] at hr
  obtain ⟨checkid, -, generic, hgeneric, template, htemplate, rfl⟩ := hr
  exact ⟨h.checkItc, h.checkTemplate.insert_target (newTemplateCheck_id _ _),
    h.itcDeliverable, h.itcTemplate,
    h.templateItc.insert (newTemplateCheck_id _ _)
      ⟨template, (Table.get?_eq_some.mp htemplate).1, rfl⟩,
    h.templateGeneric.insert (newTemplateCheck_id _ _)
      ⟨generic, (Table.get?_eq_some.mp hgeneric).1, rfl⟩⟩

theorem itcCheckGeneralDelete (h : db.Intact) {db' : ItpDb} {checkid : Nat}
    (hr : itcCheckGeneralDelete db checkid = some db') : db'.Intact := by
  simp only [Medusa.itcCheckGeneralDelete, Option.bind_eq_bind, Option.bind_eq_some_iff,
    Option.pure_def, Option.some.injEq] at hr
  obtain ⟨check, -, rfl⟩ := hr
  refine ⟨h.checkItc.delete _, h.checkTemplate.delete_both ?_, h.itcDeliverable, h.itcTemplate,
    h.templateItc.delete _, h.templateGeneric.delete _⟩
  intro c _ x _ href hp
  simpa [href] using hp

theorem genericCheckNew (h : db.Intact) {db' : ItpDb} {description : String}
    (hr : genericCheckNew db description = some db') : db'.Intact := by
  simp only [Medusa.genericCheckNew, Option.bind_eq_bind, Option.bind_eq_some_iff,
    Option.pure_def, Option.some.injEq] at hr
  obtain ⟨-, -, -, -, rfl⟩ := hr
  exact ⟨h.checkItc, h.checkTemplate, h.itcDeliverable, h.itcTemplate, h.templateItc,
    h.templateGeneric.insert_target (newCheckGeneric_id description)⟩

/-- The ITCs of the deliverable lose it. -/
theorem deliverableDelete_iff (h : db.Intact) {db' : ItpDb} {url : DeliverableUrl} {d : Deliverable}
    (hd : db.deliverableOf url = some d) (hr : deliverableDelete db url = some db') :
    db'.Intact ↔ itcsOf db.deliverableItcMaps d.id = [] := by
  simp only [deliverableDelete, hd, Option.bind_eq_bind, Option.bind_some, Option.pure_def,
    Option.some.injEq] at hr
  subst hr
  have hforget := h.itcDeliverable.forget_iff
    (q := fun m => m.deliverableId == some d.id) (p := fun d' => d'.id == d.id)
    (f := DeliverableItcMap.forgetDeliverable)
    (fun m _ d' _ href => by simp [href]) DeliverableItcMap.forgetDeliverable_id (fun _ => rfl)
  have hempty : itcsOf db.deliverableItcMaps d.id = [] ↔
      ∀ m ∈ db.deliverableItcMaps.rows, (m.deliverableId == some d.id) = false := by
    simp [itcsOf]
  rw [hempty, ← hforget]
  exact ⟨fun hi => hi.itcDeliverable, fun hi =>
    ⟨(Table.Refers.update_target_iff DeliverableItcMap.forgetDeliverable_id).mpr h.checkItc, h.checkTemplate, hi,
      h.itcTemplate.update DeliverableItcMap.forgetDeliverable_id (fun _ => rfl), h.templateItc,
      h.templateGeneric⟩⟩

/-- The checks of ITCs that are deleted lose them. -/
theorem dropItcs_iff (h : db.Intact) (p : DeliverableItcMap → Bool) :
    (db.dropItcs p).deliverableCheckMaps.Refers DeliverableCheckMap.deliverableItcMapId
        (db.dropItcs p).deliverableItcMaps ↔
      ∀ m ∈ db.deliverableItcMaps.rows, p m = true → checksOf db.deliverableCheckMaps m.id = [] := by
  have hforget := h.checkItc.forget_iff
    (q := fun c => db.deliverableItcMaps.rows.any
      (fun m => p m && c.deliverableItcMapId == some m.id)) (p := p)
    (f := DeliverableCheckMap.forgetItc) ?_ DeliverableCheckMap.forgetItc_id (fun _ => rfl)
  · unfold ItpDb.dropItcs
    rw [hforget]
    simp only [checksOf, List.any_eq_false, Bool.and_eq_true, beq_iff_eq, not_and,
      List.filter_eq_nil_iff]
    exact ⟨fun hh m hm hp c hc => hh c hc m hm hp, fun hh c hc m hm hp => hh m hm hp c hc⟩
  · intro c _ m hm href
    simp only [href, List.any_eq_true, Bool.and_eq_true, beq_iff_eq, Option.some.injEq]
    constructor
    · rintro ⟨m', hm', hp, hid⟩
      rwa [Table.eq_of_key_eq hm hm' hid]
    · exact fun hp => ⟨m, hm, hp, rfl⟩

/-- The checks made from checks of templates that are deleted lose them. -/
theorem dropTemplateChecks_iff (h : db.Intact) (p : ItcCheckMap → Bool) :
    (db.dropTemplateChecks p).deliverableCheckMaps.Refers DeliverableCheckMap.itcCheckId
        (db.dropTemplateChecks p).itcCheckMaps ↔
      ∀ x ∈ db.itcCheckMaps.rows, p x = true →
        ∀ c ∈ db.deliverableCheckMaps.rows, c.itcCheckId ≠ some x.id := by
  have hforget := h.checkTemplate.forget_iff
    (q := fun c => db.itcCheckMaps.rows.any (fun x => p x && c.itcCheckId == some x.id)) (p := p)
    (f := DeliverableCheckMap.forgetTemplate) ?_ DeliverableCheckMap.forgetTemplate_id
    (fun _ => rfl)
  · unfold ItpDb.dropTemplateChecks
    rw [hforget]
    simp only [List.any_eq_false, Bool.and_eq_true, beq_iff_eq, not_and]
    exact ⟨fun hh x hx hp c hc => hh c hc x hx hp, fun hh c hc x hx hp => hh x hx hp c hc⟩
  · intro c _ x hx href
    simp only [href, List.any_eq_true, Bool.and_eq_true, beq_iff_eq, Option.some.injEq]
    constructor
    · rintro ⟨x', hx', hp, hid⟩
      rwa [Table.eq_of_key_eq hx hx' hid]
    · exact fun hp => ⟨x, hx, hp, rfl⟩

theorem itcDelete_iff (h : db.Intact) {db' : ItpDb} {url : DeliverableUrl} {itcid : Nat}
    {itc : DeliverableItcMap} (hitc : db.deliverableItcMaps.get? itcid = some itc)
    (hr : itcDelete db url itcid = some db') :
    db'.Intact ↔ checksOf db.deliverableCheckMaps itc.id = [] := by
  simp only [itcDelete, hitc, Option.bind_eq_bind, Option.bind_eq_some_iff, Option.some.injEq,
    Option.pure_def] at hr
  obtain ⟨d, -, _, rfl, template, -, -, -, rfl⟩ := hr
  have hempty : checksOf db.deliverableCheckMaps itc.id = [] ↔
      ∀ m ∈ db.deliverableItcMaps.rows, (m.id == itc.id) = true →
        checksOf db.deliverableCheckMaps m.id = [] := by
    constructor
    · intro hh m _ hid
      rw [beq_iff_eq.mp hid]
      exact hh
    · exact fun hh => hh itc (Table.get?_eq_some.mp hitc).1 (beq_self_eq_true _)
  rw [hempty, ← h.dropItcs_iff]
  constructor
  · exact fun hi => (Table.Refers.update_target_iff
      (fun _ => DeliverableItcMap.setGroupNumber_id _ _)).mp hi.checkItc
  · intro hi
    exact ⟨(Table.Refers.update_target_iff
        (fun _ => DeliverableItcMap.setGroupNumber_id _ _)).mpr hi,
      h.checkTemplate.update DeliverableCheckMap.forgetItc_id (fun _ => rfl),
      (h.itcDeliverable.delete _).update (fun _ => DeliverableItcMap.setGroupNumber_id _ _)
        (fun _ => rfl),
      (h.itcTemplate.delete _).update (fun _ => DeliverableItcMap.setGroupNumber_id _ _)
        (fun _ => rfl),
      h.templateItc, h.templateGeneric⟩

theorem itcGeneralDelete_iff (h : db.Intact) {db' : ItpDb} {itcid : Nat} {template : Itc}
    (htemplate : db.itcs.get? itcid = some template) (hr : itcGeneralDelete db itcid = some db') :
    db'.Intact ↔ db.templateChecks (some template.id) = [] ∧
      ∀ m ∈ db.deliverableItcMaps.rows, m.itcId = some template.id →
        checksOf db.deliverableCheckMaps m.id = [] := by
  simp only [itcGeneralDelete, htemplate, Option.bind_eq_bind, Option.bind_some, Option.pure_def,
    Option.some.injEq] at hr
  subst hr
  have hforget := h.templateItc.forget_iff
    (q := fun x => x.itcId == some template.id) (p := fun i => i.id == template.id)
    (f := ItcCheckMap.forgetItc) (fun x _ i _ href => by simp [href]) ItcCheckMap.forgetItc_id
    (fun _ => rfl)
  have hempty : db.templateChecks (some template.id) = [] ↔
      ∀ x ∈ db.itcCheckMaps.rows, (x.itcId == some template.id) = false := by
    simp [ItpDb.templateChecks]
  have hdrop := h.dropItcs_iff (fun m => m.itcId == some template.id)
  simp only [beq_iff_eq] at hdrop
  rw [hempty, ← hforget, ← hdrop]
  constructor
  · exact fun hi => ⟨hi.templateItc, hi.checkItc⟩
  · intro hi
    refine ⟨hi.2, ?_, h.itcDeliverable.delete _, h.itcTemplate.delete_both ?_, hi.1,
      h.templateGeneric.update ItcCheckMap.forgetItc_id (fun _ => rfl)⟩
    · exact (Table.Refers.update_target_iff ItcCheckMap.forgetItc_id).mpr
        (h.checkTemplate.update DeliverableCheckMap.forgetItc_id (fun _ => rfl))
    · intro m _ i _ href hp
      simpa [href] using hp

theorem genericCheckDelete_iff (h : db.Intact) {db' : ItpDb} {checkid : Nat}
    {generic : CheckGeneric} (hgeneric : db.checkGenerics.get? checkid = some generic)
    (hr : genericCheckDelete db checkid = some db') :
    db'.Intact ↔ ∀ x ∈ db.itcCheckMaps.rows, x.checkGeneric = some generic.id →
      ∀ c ∈ db.deliverableCheckMaps.rows, c.itcCheckId ≠ some x.id := by
  simp only [genericCheckDelete, hgeneric, Option.bind_eq_bind, Option.bind_some, Option.pure_def,
    Option.some.injEq] at hr
  subst hr
  have hdrop := h.dropTemplateChecks_iff (fun x => x.checkGeneric == some generic.id)
  simp only [beq_iff_eq] at hdrop
  rw [← hdrop]
  constructor
  · exact fun hi => hi.checkTemplate
  · intro hi
    refine ⟨h.checkItc.update DeliverableCheckMap.forgetTemplate_id (fun _ => rfl), hi,
      h.itcDeliverable, h.itcTemplate, h.templateItc.delete _, h.templateGeneric.delete_both ?_⟩
    intro x _ g _ href hp
    simpa [href] using hp

theorem serve_iff (h : db.Intact) (r : StoreRequest) :
    (serve StoreRequest.commit db r).Intact ↔ r.Unused db := by
  cases r with
  | deliverableNew url form now =>
    exact iff_of_true (serve_of_commit h (fun _ hr => h.deliverableNew hr)) trivial
  | itcAdd url itcid => exact iff_of_true (serve_of_commit h (fun _ hr => h.itcAdd hr)) trivial
  | startItcTesting url itcid =>
    exact iff_of_true (serve_of_commit h (fun _ hr => h.startItcTesting hr)) trivial
  | checkDelete url itcid checkid =>
    exact iff_of_true (serve_of_commit h (fun _ hr => h.checkDelete hr)) trivial
  | itcGeneralNew referrerParts form =>
    exact iff_of_true (serve_of_commit h (fun _ hr => h.itcGeneralNew hr)) trivial
  | itcCheckGeneralNew itcid check =>
    exact iff_of_true (serve_of_commit h (fun _ hr => h.itcCheckGeneralNew hr)) trivial
  | itcCheckGeneralDelete checkid =>
    exact iff_of_true (serve_of_commit h (fun _ hr => h.itcCheckGeneralDelete hr)) trivial
  | genericCheckNew description =>
    exact iff_of_true (serve_of_commit h (fun _ hr => h.genericCheckNew hr)) trivial
  | deliverableDelete url =>
    refine Relational.serve_iff h ?_ ?_
    · intro hn d hd
      simp [StoreRequest.commit, Medusa.deliverableDelete, hd] at hn
    · intro db' hr
      obtain ⟨d, hd, -⟩ := Option.bind_eq_some_iff.mp hr
      rw [h.deliverableDelete_iff hd hr]
      simp [StoreRequest.Unused, hd]
  | itcDelete url itcid =>
    refine Relational.serve_iff h ?_ ?_
    · intro hn d hd itc hitc template htemplate hclose
      have hsome := itcDelete_isSome.mpr ⟨d, hd, itc, hitc, template, htemplate, hclose⟩
      rw [show Medusa.itcDelete db url itcid = none from hn] at hsome
      exact absurd hsome Bool.false_ne_true
    · intro db' hr
      obtain ⟨d, hd, itc, hitc, template, htemplate, hclose⟩ :=
        itcDelete_isSome.mp (Option.isSome_iff_exists.mpr ⟨db', hr⟩)
      rw [h.itcDelete_iff hitc hr]
      simp [StoreRequest.Unused, hd, hitc, htemplate, hclose]
  | itcGeneralDelete itcid =>
    refine Relational.serve_iff h ?_ ?_
    · intro hn template htemplate
      simp [StoreRequest.commit, Medusa.itcGeneralDelete, htemplate] at hn
    · intro db' hr
      obtain ⟨template, htemplate, -⟩ := Option.bind_eq_some_iff.mp hr
      rw [h.itcGeneralDelete_iff htemplate hr]
      simp [StoreRequest.Unused, htemplate]
  | genericCheckDelete checkid =>
    refine Relational.serve_iff h ?_ ?_
    · intro hn generic hgeneric
      simp [StoreRequest.commit, Medusa.genericCheckDelete, hgeneric] at hn
    · intro db' hr
      obtain ⟨generic, hgeneric, -⟩ := Option.bind_eq_some_iff.mp hr
      rw [h.genericCheckDelete_iff hgeneric hr]
      simp [StoreRequest.Unused, hgeneric]

end ItpDb.Intact

def runStore (db : ItpDb) (requests : List StoreRequest) : ItpDb :=
  serveAll StoreRequest.commit db requests

/-- From an intact store, the store is intact after every request of a run exactly
if no request deletes a row on which, in the state before it, something depends. -/
theorem runStore_intact_iff (db : ItpDb) (requests : List StoreRequest) (h : db.Intact) :
    (∀ pre post, requests = pre ++ post → (runStore db pre).Intact) ↔
      ∀ pre request post, requests = pre ++ request :: post →
        request.Unused (runStore db pre) :=
  serveAll_good_iff (fun _ r hI => hI.serve_iff r) requests h

theorem pumpProject_intact : pumpProject.Intact where
  checkItc := fun _ hc => absurd hc List.not_mem_nil
  checkTemplate := fun _ hc => absurd hc List.not_mem_nil
  itcDeliverable := fun _ hm => absurd hm List.not_mem_nil
  itcTemplate := fun _ hm => absurd hm List.not_mem_nil
  templateItc := by
    unfold Table.Refers
    decide
  templateGeneric := by
    unfold Table.Refers
    decide

theorem runStore_intact_iff_pumpProject :
    pumpProject.Intact ∧
    ∀ pre post, [StoreRequest.deliverableNew pumpItp (pumpForm "pump 1") 10,
      .itcCheckGeneralDelete 1, .itcCheckGeneralDelete 2, .itcDelete (pumpUrl 1) 1,
      .deliverableDelete (pumpUrl 1)] = pre ++ post → (runStore pumpProject pre).Intact := by
  refine ⟨pumpProject_intact, (runStore_intact_iff _ _ pumpProject_intact).mpr ?_⟩
  simp only [forall_split_cons, forall_split_nil, and_true]
  refine ⟨trivial, trivial, trivial, ?_, ?_⟩
  · intro d _ itc hitc template _ _
    have hid := (Table.get?_eq_some.mp hitc).2
    rw [hid]
    decide +kernel
  · intro d hd
    have hdeliverable : ((runStore pumpProject
        [.deliverableNew pumpItp (pumpForm "pump 1") 10, .itcCheckGeneralDelete 1,
          .itcCheckGeneralDelete 2, .itcDelete (pumpUrl 1) 1]).deliverableOf (pumpUrl 1)).map
            Deliverable.id = some 1 := by decide +kernel
    rw [hd, Option.map_some, Option.some.injEq] at hdeliverable
    rw [hdeliverable]
    decide +kernel

/-- A deliverable is deleted and its ITC stays, without a deliverable. -/
theorem deliverableDelete_leaves_itc :
    pumpProject.Intact ∧
    ¬ (runStore pumpProject [.deliverableNew pumpItp (pumpForm "pump 1") 10,
      .deliverableDelete (pumpUrl 1)]).Intact := by
  refine ⟨pumpProject_intact, ?_⟩
  intro h
  have hrows : ∃ m ∈ (runStore pumpProject [.deliverableNew pumpItp (pumpForm "pump 1") 10,
      .deliverableDelete (pumpUrl 1)]).deliverableItcMaps.rows, m.deliverableId = none := by
    decide +kernel
  obtain ⟨m, hm, hnone⟩ := hrows
  obtain ⟨d, -, hd⟩ := h.itcDeliverable m hm
  rw [hnone] at hd
  exact absurd hd.symm (Option.some_ne_none _)

end Medusa
