import Medusa.Itp.GroupNumbers

/-! What is made from the templates: the ITCs of a new deliverable with their
checklists, and the checklist of an ITC when its tests are started. Both make one
row for each row of the template, in the order of the template, and touch no other
row. -/

namespace Medusa

open Relational

/-- The checks were made from these checks of a template, one from each and in this
order, and nothing has been done about them since. -/
structure MadeFrom (source : List ItcCheckMap) (checks : List DeliverableCheckMap) : Prop where
  templates : checks.map DeliverableCheckMap.itcCheckId = source.map (fun x => some x.id)
  numbers : checks.map DeliverableCheckMap.checkNumber = numbersTo checks.length
  untouched : ∀ c ∈ checks, c.status = some "Not Started" ∧ c.isDone = some false ∧
    c.completionDatetime = none ∧ c.completionByUserId = none ∧ c.comments = none

theorem MadeFrom.concat {source : List ItcCheckMap} {checks : List DeliverableCheckMap}
    (h : MadeFrom source checks) (itc : Nat) (x : ItcCheckMap) (id : Nat) :
    MadeFrom (source ++ [x]) (checks ++ [newCheck itc x.id (checks.length + 1) id]) where
  templates := by
    rw [List.map_append, List.map_append, h.templates]
    rfl
  numbers := by
    rw [List.map_append, h.numbers, List.length_append, List.length_singleton, numbersTo_succ]
    rfl
  untouched := by
    intro c hc
    rcases List.mem_append.mp hc with hc | hc
    · exact h.untouched c hc
    · rw [List.mem_singleton.mp hc]
      exact ⟨rfl, rfl, rfl, rfl, rfl⟩

section Checklists

variable {t : DeliverableChecks} {itc : Nat}

theorem generateChecks_concat (checks : List ItcCheckMap) (x : ItcCheckMap) :
    generateChecks t itc (checks ++ [x]) = addCheck itc (generateChecks t itc checks) x := by
  unfold generateChecks
  rw [List.foldl_append]
  rfl

/-- An ITC without checks gets those of the template. -/
theorem generateChecks_madeFrom (h : checksOf t itc = []) (checks : List ItcCheckMap) :
    MadeFrom checks (checksOf (generateChecks t itc checks) itc) := by
  induction checks using List.reverseRecOn with
  | nil =>
    simp only [generateChecks, List.foldl_nil, h]
    exact ⟨rfl, rfl, fun c hc => absurd hc List.not_mem_nil⟩
  | append_singleton checks x ih =>
    rw [generateChecks_concat, checksOf_addCheck, if_pos rfl]
    exact ih.concat itc x _

theorem rows_generateChecks (h : checksOf t itc = []) (checks : List ItcCheckMap) :
    (generateChecks t itc checks).rows = t.rows ++ checksOf (generateChecks t itc checks) itc := by
  induction checks using List.reverseRecOn with
  | nil => simp [generateChecks, h]
  | append_singleton checks x ih =>
    rw [generateChecks_concat, checksOf_addCheck, if_pos rfl, ← List.append_assoc, ← ih]
    rfl

theorem checksOf_generateChecks_of_ne {k : Nat} (hk : k ≠ itc) (checks : List ItcCheckMap) :
    checksOf (generateChecks t itc checks) k = checksOf t k := by
  refine generateChecks_keeps (P := fun t' => checksOf t' k = checksOf t k) ?_ rfl
  intro t' x ht'
  rw [checksOf_addCheck, if_neg hk, ht']

end Checklists

/-- The row without its id. -/
def DeliverableCheckMap.withoutId (c : DeliverableCheckMap) : DeliverableCheckMap :=
  { c with id := 0 }

/-- Two checklists of an ITC that were made from the same template differ only in the
ids of their rows. -/
theorem MadeFrom.unique {source : List ItcCheckMap} {checks checks' : List DeliverableCheckMap}
    (h : MadeFrom source checks) (h' : MadeFrom source checks') {itc : Nat}
    (hitc : ∀ c ∈ checks, c.deliverableItcMapId = some itc)
    (hitc' : ∀ c ∈ checks', c.deliverableItcMapId = some itc) :
    checks.map DeliverableCheckMap.withoutId = checks'.map DeliverableCheckMap.withoutId := by
  have htemplates := h.templates.trans h'.templates.symm
  have hlen : checks.length = checks'.length := by simpa using congrArg List.length htemplates
  have hnumbers : checks.map DeliverableCheckMap.checkNumber =
      checks'.map DeliverableCheckMap.checkNumber := by
    rw [h.numbers, h'.numbers, hlen]
  apply List.ext_getElem (by simpa using hlen)
  intro i hi hi'
  rw [List.length_map] at hi hi'
  rw [List.getElem_map, List.getElem_map]
  have hc := h.untouched _ (List.getElem_mem hi)
  have hc' := h'.untouched _ (List.getElem_mem hi')
  have htemplate := List.getElem_of_eq htemplates (i := i) (by simpa using hi)
  have hnumber := List.getElem_of_eq hnumbers (i := i) (by simpa using hi)
  rw [List.getElem_map, List.getElem_map] at htemplate hnumber
  simp only [DeliverableCheckMap.withoutId, DeliverableCheckMap.mk.injEq, true_and]
  exact ⟨(hitc _ (List.getElem_mem hi)).trans (hitc' _ (List.getElem_mem hi')).symm, htemplate,
    hc.2.1.trans hc'.2.1.symm, hc.2.2.1.trans hc'.2.2.1.symm, hc.2.2.2.1.trans hc'.2.2.2.1.symm,
    hc.2.2.2.2.trans hc'.2.2.2.2.symm, hc.1.trans hc'.1.symm, hnumber⟩

section Itcs

variable {itcs : Itcs} {d : Nat} {t : DeliverableItcs}

theorem itcsOf_addItc (t : DeliverableItcs) (itc : Itc) :
    itcsOf (addItc itcs d t itc) d = itcsOf t d ++ [newItc d itc.id
      (some (groupCount itcs (t.insert (newItc d itc.id none) (newItc_id _ _ _)) d itc.itcGroupId))
      t.nextKey] := by
  unfold addItc
  rw [itcsOf_insert, if_pos rfl]

theorem groupMembers_insert {itc : Itc} (hitc : itc ∈ itcs.rows) (number : Option Int)
    (group : Option Nat) :
    groupMembers itcs (t.insert (newItc d itc.id number) (newItc_id _ _ _)) d group =
      if itc.itcGroupId = group then
        groupMembers itcs t d group ++ [newItc d itc.id number t.nextKey]
      else groupMembers itcs t d group := by
  unfold groupMembers
  rw [itcsOf_insert, if_pos rfl, List.filter_append]
  by_cases hg : itc.itcGroupId = group <;> simp [hg, template_newItc hitc]

variable (itcs)

/-- The templates of the loop, one ITC from each of them in their order. -/
theorem foldl_addItc_itcIds (h : itcsOf t d = []) (l : List Itc) :
    (itcsOf (l.foldl (addItc itcs d) t) d).map DeliverableItcMap.itcId =
      l.map (fun i => some i.id) := by
  induction l using List.reverseRecOn with
  | nil => simp [h]
  | append_singleton l itc ih =>
    rw [List.foldl_append, List.foldl_cons, List.foldl_nil, itcsOf_addItc, List.map_append, ih,
      List.map_append]
    rfl

theorem rows_foldl_addItc (h : itcsOf t d = []) (l : List Itc) :
    (l.foldl (addItc itcs d) t).rows = t.rows ++ itcsOf (l.foldl (addItc itcs d) t) d := by
  induction l using List.reverseRecOn with
  | nil => simp [h]
  | append_singleton l itc ih =>
    rw [List.foldl_append, List.foldl_cons, List.foldl_nil, itcsOf_addItc, ← List.append_assoc,
      ← ih]
    rfl

theorem foldl_addItc_notStarted (h : itcsOf t d = []) (l : List Itc) :
    ∀ m ∈ itcsOf (l.foldl (addItc itcs d) t) d,
      m.status = some "Not Started" ∧ m.percentageComplete = some 0 ∧ m.comments = none := by
  induction l using List.reverseRecOn with
  | nil => simp [h]
  | append_singleton l itc ih =>
    intro m hm
    rw [List.foldl_append, List.foldl_cons, List.foldl_nil, itcsOf_addItc] at hm
    rcases List.mem_append.mp hm with hm | hm
    · exact ih m hm
    · rw [List.mem_singleton.mp hm]
      exact ⟨rfl, rfl, rfl⟩

/-- Different templates are numbered within their groups in the order of the loop. -/
theorem foldl_addItc_groupNumbers (h : itcsOf t d = []) {l : List Itc}
    (hl : ∀ i ∈ l, i ∈ itcs.rows) (hnd : (l.map Itc.id).Nodup) (group : Option Nat) :
    (groupMembers itcs (l.foldl (addItc itcs d) t) d group).map DeliverableItcMap.itcGroupNumber =
      numbersTo (groupMembers itcs (l.foldl (addItc itcs d) t) d group).length := by
  induction l using List.reverseRecOn with
  | nil => simp [groupMembers, h, numbersTo]
  | append_singleton l itc ih =>
    have hitc : itc ∈ itcs.rows := hl itc (List.mem_append_right l List.mem_cons_self)
    have hprev := ih (fun i hi => hl i (List.mem_append_left [itc] hi))
      (hnd.sublist ((List.sublist_append_left l [itc]).map Itc.id))
    rw [List.foldl_append, List.foldl_cons, List.foldl_nil]
    have hids : (itcsOf (l.foldl (addItc itcs d) t) d).map DeliverableItcMap.itcId =
        l.map (fun i => some i.id) := foldl_addItc_itcIds itcs h l
    generalize l.foldl (addItc itcs d) t = t' at hprev hids ⊢
    unfold addItc
    rw [groupMembers_insert hitc]
    by_cases hg : itc.itcGroupId = group
    · -- the templates so far and the new one are all different, so all of them count
      have hnodup : ((groupMembers itcs (t'.insert (newItc d itc.id none) (newItc_id _ _ _)) d
          group).map DeliverableItcMap.itcId).Nodup := by
        refine List.Nodup.sublist (List.filter_sublist.map _) ?_
        rw [itcsOf_insert, if_pos rfl, List.map_append, hids]
        have hsome := hnd.map (Option.some_injective Nat)
        rw [List.map_map, List.map_append] at hsome
        exact hsome
      have hcount := (groupCount_members itcs
        (t'.insert (newItc d itc.id none) (newItc_id _ _ _)) d group).trans
          ((length_dedup_iff _).mpr hnodup)
      rw [List.length_map, groupMembers_insert hitc, if_pos hg, List.length_append,
        List.length_singleton] at hcount
      rw [if_pos hg, hg, hcount, List.map_append, hprev, List.length_append,
        List.length_singleton, numbersTo_succ]
      simp [newItc]
    · rw [if_neg hg]
      exact hprev

end Itcs

section Loops

variable {db : ItpDb}

theorem generateAll_concat (ms : List DeliverableItcMap) (m : DeliverableItcMap) :
    generateAll db (ms ++ [m]) =
      generateChecks (generateAll db ms) m.id (db.templateChecks m.itcId) := by
  unfold generateAll
  rw [List.foldl_append]
  rfl

theorem checksOf_generateAll_of_ne {ms : List DeliverableItcMap} {k : Nat}
    (hk : ∀ m ∈ ms, k ≠ m.id) : checksOf (generateAll db ms) k = checksOf db.deliverableCheckMaps k := by
  induction ms using List.reverseRecOn with
  | nil => rfl
  | append_singleton ms m ih =>
    rw [generateAll_concat, checksOf_generateChecks_of_ne
      (hk m (List.mem_append_right ms List.mem_cons_self))]
    exact ih (fun m' hm' => hk m' (List.mem_append_left [m] hm'))

/-- ITCs without checks get those of their templates, one ITC after the other. -/
theorem generateAll_made {ms : List DeliverableItcMap}
    (hnone : ∀ m ∈ ms, checksOf db.deliverableCheckMaps m.id = [])
    (hnd : (ms.map DeliverableItcMap.id).Nodup) :
    (∀ m ∈ ms, MadeFrom (db.templateChecks m.itcId) (checksOf (generateAll db ms) m.id)) ∧
      (generateAll db ms).rows = db.deliverableCheckMaps.rows ++
        ms.flatMap (fun m => checksOf (generateAll db ms) m.id) := by
  induction ms using List.reverseRecOn with
  | nil => simp [generateAll]
  | append_singleton ms m ih =>
    rw [List.map_append, List.nodup_append] at hnd
    have hne : ∀ m' ∈ ms, m'.id ≠ m.id := fun m' hm' =>
      hnd.2.2 m'.id (List.mem_map_of_mem hm') m.id List.mem_cons_self
    have hprev := ih (fun m' hm' => hnone m' (List.mem_append_left [m] hm')) hnd.1
    have hempty : checksOf (generateAll db ms) m.id = [] := by
      rw [checksOf_generateAll_of_ne (fun m' hm' => (hne m' hm').symm)]
      exact hnone m (List.mem_append_right ms List.mem_cons_self)
    have hkeep : ∀ m' ∈ ms, checksOf (generateAll db (ms ++ [m])) m'.id =
        checksOf (generateAll db ms) m'.id := by
      intro m' hm'
      rw [generateAll_concat]
      exact checksOf_generateChecks_of_ne (hne m' hm') _
    constructor
    · intro m' hm'
      rcases List.mem_append.mp hm' with hm' | hm'
      · rw [hkeep m' hm']
        exact hprev.1 m' hm'
      · rw [List.mem_singleton.mp hm', generateAll_concat]
        exact generateChecks_madeFrom hempty _
    · have hflat : ms.flatMap (fun m' => checksOf (generateAll db (ms ++ [m])) m'.id) =
          ms.flatMap (fun m' => checksOf (generateAll db ms) m'.id) := by
        rw [List.flatMap_def, List.flatMap_def, List.map_congr_left hkeep]
      rw [List.flatMap_append, hflat, List.flatMap_singleton, ← List.append_assoc, ← hprev.2,
        generateAll_concat]
      exact rows_generateChecks hempty _

end Loops

/-- What the form of a new deliverable needs: a name that is not taken in the ITP, and
a location and a type that are there. -/
structure DeliverableForm.Accepted (db : ItpDb) (itp : Itp) (form : DeliverableForm)
    (type : DeliverableType) : Prop where
  filled : form.name ≠ "" ∧ form.type ≠ "" ∧ form.location ≠ ""
  free : ∀ d ∈ db.deliverables.rows, d.name = form.name → d.itpId ≠ some itp.id
  location : ∃ l ∈ db.locations.rows, l.name = form.location
  type : db.deliverableTypes.first? (fun t => t.name == form.type) = some type

theorem deliverableNew_eq {db : ItpDb} {url : ItpUrl} {itp : Itp} {form : DeliverableForm}
    {type : DeliverableType} (hitp : db.itpOf url = some itp) (h : form.Accepted db itp type)
    (now : Nat) :
    ∃ (d : Deliverable) (deliverables : Table Deliverable Deliverable.id),
      (d.id = db.deliverables.nextKey ∧ d.name = form.name ∧ d.itpId = some itp.id ∧
        d.deliverableTypeId = some type.id ∧ d.status = some "Not Started") ∧
      deliverables.rows = db.deliverables.rows ++ [d] ∧
      deliverableNew db url form now = some { db with
        deliverables := deliverables
        deliverableItcMaps :=
          (db.itcs.rows.filter (fun i => i.deliverableTypeId == some type.id)).foldl
            (addItc db.itcs db.deliverables.nextKey) db.deliverableItcMaps
        deliverableCheckMaps := generateAll db (itcsOf
          ((db.itcs.rows.filter (fun i => i.deliverableTypeId == some type.id)).foldl
            (addItc db.itcs db.deliverables.nextKey) db.deliverableItcMaps)
          db.deliverables.nextKey) } := by
  obtain ⟨location, hlocation⟩ : ∃ l, db.locations.first? (fun l => l.name == form.location) =
      some l := by
    obtain ⟨l, hl, hname⟩ := h.location
    exact Option.isSome_iff_exists.mp (List.find?_isSome.mpr ⟨l, hl, by simp [hname]⟩)
  have hfree : db.deliverables.first? (fun d => d.name == form.name && d.itpId == some itp.id) =
      none := by
    refine List.find?_eq_none.mpr (fun d hd => ?_)
    have hne := h.free d hd
    simpa using hne
  generalize hsecondary : (db.secondaryLocations.first?
    (fun l => l.name == form.secondaryLocation)).map SecondaryLocation.id = secondary
  have hfound : (db.deliverables.insert (newDeliverable form type.id location.id secondary itp.id)
      (newDeliverable_id _ _ _ _ _)).first?
        (fun d => d.name == form.name && d.itpId == some itp.id) =
      some (newDeliverable form type.id location.id secondary itp.id db.deliverables.nextKey) := by
    unfold Table.first? at hfree ⊢
    rw [Table.rows_insert, List.find?_append, hfree]
    simp [newDeliverable]
  have hguard : form.name ≠ "" ∧ form.type ≠ "" ∧ form.location ≠ "" := h.filled
  simp only [deliverableNew, hitp, guard, if_pos hguard, hfree, Option.isNone_none, if_true,
    hlocation, h.type, hsecondary, hfound, Option.bind_eq_bind, Option.bind_some, Option.pure_def,
    newDeliverable_id]
  refine ⟨_, _, ?_, Table.rows_update_inserted _ _ (newDeliverable_id _ _ _ _ _)
    (!(db.itcs.rows.filter (fun i => i.deliverableTypeId == some type.id)).isEmpty) _
    (Deliverable.start_id now), rfl⟩
  split <;> exact ⟨rfl, rfl, rfl, rfl, rfl⟩

/-- The foreign key from the checks to the ITCs. -/
def ItpDb.ItcsExist (db : ItpDb) : Prop :=
  db.deliverableCheckMaps.ForeignKey DeliverableCheckMap.deliverableItcMapId db.deliverableItcMaps

/-- The deliverable `d` was added, with one ITC from each of the templates and the
checklists of these ITCs, and every other row is as before. -/
structure ItpDb.Instantiated (db db' : ItpDb) (d : Deliverable) (templates : List Itc) : Prop where
  store : db' = { db with
    deliverables := db'.deliverables
    deliverableItcMaps := db'.deliverableItcMaps
    deliverableCheckMaps := db'.deliverableCheckMaps }
  deliverables : db'.deliverables.rows = db.deliverables.rows ++ [d]
  itcs : db'.deliverableItcMaps.rows =
    db.deliverableItcMaps.rows ++ itcsOf db'.deliverableItcMaps d.id
  checks : db'.deliverableCheckMaps.rows = db.deliverableCheckMaps.rows ++
    (itcsOf db'.deliverableItcMaps d.id).flatMap (fun m => checksOf db'.deliverableCheckMaps m.id)
  templates : (itcsOf db'.deliverableItcMaps d.id).map DeliverableItcMap.itcId =
    templates.map (fun i => some i.id)
  notStarted : ∀ m ∈ itcsOf db'.deliverableItcMaps d.id,
    m.status = some "Not Started" ∧ m.percentageComplete = some 0 ∧ m.comments = none
  groupNumbers : ∀ group, (groupMembers db.itcs db'.deliverableItcMaps d.id group).map
      DeliverableItcMap.itcGroupNumber =
    numbersTo (groupMembers db.itcs db'.deliverableItcMaps d.id group).length
  checklists : ∀ m ∈ itcsOf db'.deliverableItcMaps d.id,
    MadeFrom (db.templateChecks m.itcId) (checksOf db'.deliverableCheckMaps m.id)

theorem deliverableNew_instantiated {db : ItpDb} (hdeliverables : db.DeliverablesExist)
    (hitcs : db.ItcsExist) {url : ItpUrl} {itp : Itp} {form : DeliverableForm}
    {type : DeliverableType} (hitp : db.itpOf url = some itp) (h : form.Accepted db itp type)
    (now : Nat) :
    ∃ db' d, deliverableNew db url form now = some db' ∧ d.name = form.name ∧
      d.itpId = some itp.id ∧ d.deliverableTypeId = some type.id ∧
      db.Instantiated db' d
        (db.itcs.rows.filter (fun i => i.deliverableTypeId == some type.id)) := by
  obtain ⟨d, deliverables, ⟨hid, hname, hd, htype, -⟩, hrows, hnew⟩ := deliverableNew_eq hitp h now
  -- the ids of the deliverable and of its ITCs are new, so nothing refers to them yet
  have hnone : itcsOf db.deliverableItcMaps db.deliverables.nextKey = [] := by
    apply List.filter_eq_nil_iff.mpr
    intro m hm hk
    exact Table.ForeignKey.ne_nextKey hdeliverables hm (beq_iff_eq.mp hk)
  generalize htemplates : db.itcs.rows.filter (fun i => i.deliverableTypeId == some type.id) =
    templates at hnew ⊢
  have hsub : ∀ i ∈ templates, i ∈ db.itcs.rows := by
    intro i hi
    rw [← htemplates] at hi
    exact (List.mem_filter.mp hi).1
  have hnd : (templates.map Itc.id).Nodup :=
    htemplates ▸ db.itcs.nodup.sublist (List.filter_sublist.map _)
  have hadded := rows_foldl_addItc db.itcs hnone templates
  have hitcIds := foldl_addItc_itcIds db.itcs hnone templates
  have hstarted := foldl_addItc_notStarted db.itcs hnone templates
  have hgroups := foldl_addItc_groupNumbers db.itcs hnone hsub hnd
  generalize templates.foldl (addItc db.itcs db.deliverables.nextKey) db.deliverableItcMaps = maps
    at hnew hadded hitcIds hstarted hgroups
  have hids := maps.nodup
  rw [hadded, List.map_append, List.nodup_append] at hids
  have hempty : ∀ m ∈ itcsOf maps db.deliverables.nextKey,
      checksOf db.deliverableCheckMaps m.id = [] := by
    intro m hm
    apply List.filter_eq_nil_iff.mpr
    intro c hc hk
    obtain ⟨m', hm', he⟩ := hitcs c hc m.id (beq_iff_eq.mp hk)
    exact hids.2.2 m'.id (List.mem_map_of_mem hm') m.id (List.mem_map_of_mem hm) he
  have hmade := generateAll_made hempty hids.2.1
  refine ⟨_, d, hnew, hname, hd, htype, ?_⟩
  rw [← hid] at *
  exact ⟨rfl, hrows, hadded, hmade.2, hitcIds, hstarted, hgroups, hmade.1⟩

/-- The checklist of the ITC was made anew from its template, and every other check is
as before. -/
structure ItpDb.Restarted (db db' : ItpDb) (itc : DeliverableItcMap) : Prop where
  made : MadeFrom (db.templateChecks itc.itcId) (checksOf db'.deliverableCheckMaps itc.id)
  checks : db'.deliverableCheckMaps.rows =
    db.deliverableCheckMaps.rows.filter (fun c => !(c.deliverableItcMapId == some itc.id)) ++
      checksOf db'.deliverableCheckMaps itc.id

/-- The stores differ in the ids of their checks at most. -/
def ItpDb.SameUpToIds (db db' : ItpDb) : Prop :=
  db' = { db with deliverableCheckMaps := db'.deliverableCheckMaps } ∧
    db'.deliverableCheckMaps.rows.map DeliverableCheckMap.withoutId =
      db.deliverableCheckMaps.rows.map DeliverableCheckMap.withoutId

/-- A second restart finds the other checks as the first left them. -/
theorem ItpDb.Restarted.again {db db' db'' : ItpDb} {itc : DeliverableItcMap}
    (h : db.Restarted db' itc) (h' : db'.Restarted db'' itc)
    (htemplates : db'.itcCheckMaps = db.itcCheckMaps) :
    db''.deliverableCheckMaps.rows.map DeliverableCheckMap.withoutId =
      db'.deliverableCheckMaps.rows.map DeliverableCheckMap.withoutId := by
  have hnone : (checksOf db'.deliverableCheckMaps itc.id).filter
      (fun c => !(c.deliverableItcMapId == some itc.id)) = [] := by
    apply List.filter_eq_nil_iff.mpr
    intro c hc
    simp [(mem_checksOf.mp hc).2]
  have hothers : db'.deliverableCheckMaps.rows.filter
      (fun c => !(c.deliverableItcMapId == some itc.id)) =
        db.deliverableCheckMaps.rows.filter
          (fun c => !(c.deliverableItcMapId == some itc.id)) := by
    rw [h.checks, List.filter_append, hnone, List.append_nil, List.filter_filter]
    simp only [Bool.and_self]
  have hmade := h'.made
  unfold ItpDb.templateChecks at hmade
  rw [htemplates] at hmade
  have hsame := hmade.unique h.made (fun c hc => (mem_checksOf.mp hc).2)
    (fun c hc => (mem_checksOf.mp hc).2)
  rw [h'.checks, hothers, List.map_append, hsame, ← List.map_append, ← h.checks]

theorem startItcTesting_eq {db : ItpDb} {url : DeliverableUrl} {itcid : Nat}
    {itc : DeliverableItcMap} (hitc : db.itcOf url itcid = some itc) :
    ∃ checks, startItcTesting db url itcid = some { db with
        deliverableCheckMaps := checks
        deliverableItcMaps := db.deliverableItcMaps.update (fun m => m.id == itc.id)
          DeliverableItcMap.inProgress DeliverableItcMap.inProgress_id } ∧
      db.Restarted { db with deliverableCheckMaps := checks } itc := by
  have hcleared : checksOf (db.deliverableCheckMaps.delete
      (fun c => c.deliverableItcMapId == some itc.id)) itc.id = [] := by
    rw [checksOf_delete]
    apply List.filter_eq_nil_iff.mpr
    intro c hc
    simp [(mem_checksOf.mp hc).2]
  simp only [startItcTesting, hitc, Option.bind_eq_bind, Option.bind_some, Option.pure_def]
  exact ⟨_, rfl, generateChecks_madeFrom hcleared _, rows_generateChecks hcleared _⟩

theorem startItcTesting_twice {db : ItpDb} {url : DeliverableUrl} {itcid : Nat}
    {itc : DeliverableItcMap} (hitc : db.itcOf url itcid = some itc) :
    ∃ db', startItcTesting db url itcid = some db' ∧ db.Restarted db' itc ∧
      ∃ db'', startItcTesting db' url itcid = some db'' ∧ db'.SameUpToIds db'' := by
  obtain ⟨checks, hstart, hfirst⟩ := startItcTesting_eq hitc
  have hitc' : ItpDb.itcOf { db with
      deliverableCheckMaps := checks
      deliverableItcMaps := db.deliverableItcMaps.update (fun m => m.id == itc.id)
        DeliverableItcMap.inProgress DeliverableItcMap.inProgress_id } url itcid =
      some itc.inProgress := by
    obtain ⟨d, hd, hrow⟩ := Option.bind_eq_some_iff.mp hitc
    refine Option.bind_eq_some_iff.mpr ⟨d, hd, ?_⟩
    rw [Table.first?_update DeliverableItcMap.inProgress_id (fun _ => rfl), hrow]
    simp
  obtain ⟨checks', hstart', hsecond⟩ := startItcTesting_eq hitc'
  have hmaps := Table.update_update_key (t := db.deliverableItcMaps)
    DeliverableItcMap.inProgress_id DeliverableItcMap.inProgress_id itc.id
  refine ⟨_, hstart, ⟨hfirst.made, hfirst.checks⟩, _, hstart', ?_, ?_⟩
  · exact congrArg (fun maps => { db with
      deliverableCheckMaps := checks'
      deliverableItcMaps := maps }) hmaps
  · exact hfirst.again ⟨hsecond.made, hsecond.checks⟩ rfl

/-- A new deliverable gets exactly one ITC from each template of its type, and each ITC
exactly the checks of its template. Starting the tests of an ITC gives it exactly these
checks again, whatever checks it had; starting them twice is starting them once. -/
theorem instantiation_exact (db : ItpDb) (hdeliverables : db.DeliverablesExist)
    (hitcs : db.ItcsExist) :
    (∀ (url : ItpUrl) (itp : Itp) (form : DeliverableForm) (type : DeliverableType) (now : Nat),
      db.itpOf url = some itp → form.Accepted db itp type →
      ∃ db' d, deliverableNew db url form now = some db' ∧ d.name = form.name ∧
        d.itpId = some itp.id ∧ d.deliverableTypeId = some type.id ∧
        db.Instantiated db' d
          (db.itcs.rows.filter (fun i => i.deliverableTypeId == some type.id))) ∧
    ∀ (url : DeliverableUrl) (itcid : Nat) (itc : DeliverableItcMap),
      db.itcOf url itcid = some itc →
      ∃ db', startItcTesting db url itcid = some db' ∧ db.Restarted db' itc ∧
        ∃ db'', startItcTesting db' url itcid = some db'' ∧ db'.SameUpToIds db'' :=
  ⟨fun _ _ _ _ now hitp h => deliverableNew_instantiated hdeliverables hitcs hitp h now,
    fun _ _ _ hitc => startItcTesting_twice hitc⟩

def onePump : ItpDb := (deliverableNew pumpProject pumpItp (pumpForm "pump 1") 10).getD pumpProject

theorem instantiation_exact_onePump :
    (∃ db' d, deliverableNew onePump pumpItp (pumpForm "pump 2") 20 = some db' ∧
      onePump.Instantiated db' d
        (onePump.itcs.rows.filter (fun i => i.deliverableTypeId == some 1))) ∧
    ∃ itc, onePump.itcOf (pumpUrl 1) 1 = some itc ∧
      ∃ db', startItcTesting onePump (pumpUrl 1) 1 = some db' ∧ onePump.Restarted db' itc := by
  have hdeliverables : onePump.DeliverablesExist := by
    have hone : ∀ m ∈ onePump.deliverableItcMaps.rows, m.deliverableId = some 1 := by decide +kernel
    have hthere : ∃ d ∈ onePump.deliverables.rows, d.id = 1 := by decide +kernel
    intro m hm k hk
    rw [hone m hm] at hk
    exact Option.some.inj hk ▸ hthere
  have hitcs : onePump.ItcsExist := by
    have hone : ∀ c ∈ onePump.deliverableCheckMaps.rows, c.deliverableItcMapId = some 1 := by
      decide +kernel
    have hthere : ∃ m ∈ onePump.deliverableItcMaps.rows, m.id = 1 := by decide +kernel
    intro c hc k hk
    rw [hone c hc] at hk
    exact Option.some.inj hk ▸ hthere
  have hitp : onePump.itpOf pumpItp = some ⟨1, "commissioning", some 1, none, some 0⟩ := by
    decide +kernel
  have haccepted : (pumpForm "pump 2").Accepted onePump ⟨1, "commissioning", some 1, none, some 0⟩
      ⟨1, "pump"⟩ := by
    constructor <;> decide +kernel
  obtain ⟨itc, hitc⟩ : ∃ itc, onePump.itcOf (pumpUrl 1) 1 = some itc :=
    Option.isSome_iff_exists.mp (by decide +kernel)
  have hexact := instantiation_exact onePump hdeliverables hitcs
  obtain ⟨db', d, hnew, -, -, -, hmade⟩ := hexact.1 pumpItp _ _ _ 20 hitp haccepted
  obtain ⟨db'', hstart, hrestarted, -⟩ := hexact.2 (pumpUrl 1) 1 itc hitc
  exact ⟨⟨db', d, hnew, hmade⟩, itc, hitc, db'', hstart, hrestarted⟩

end Medusa
