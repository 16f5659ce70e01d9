import Mathlib.Data.List.Dedup
import Medusa.Itp.Generate
import Medusa.References
import Medusa.Requests

/-! The ITCs of a deliverable are numbered within each ITC group. The number of a
new ITC is taken from a count of templates, so it is the next one only as long as
no template of the group has been used twice for the deliverable. -/

namespace Medusa

open Relational

/-- The ITCs of a deliverable whose template is in the group. -/
def groupItcs (itcs : Itcs) (t : DeliverableItcs) (deliverable group : Nat) :
    List DeliverableItcMap :=
  (itcsOf t deliverable).filter (fun m => (m.template itcs).bind Itc.itcGroupId == some group)

/-- The ITCs of a deliverable whose template has this group, or no group at all. -/
def groupMembers (itcs : Itcs) (t : DeliverableItcs) (deliverable : Nat) (group : Option Nat) :
    List DeliverableItcMap :=
  (itcsOf t deliverable).filter (fun m => (m.template itcs).map Itc.itcGroupId == some group)

theorem groupItcs_eq (itcs : Itcs) (t : DeliverableItcs) (d group : Nat) :
    groupItcs itcs t d group = groupMembers itcs t d (some group) := by
  apply List.filter_congr
  intro m _
  cases m.template itcs <;> rfl

def GroupsNumbered (itcs : Itcs) (t : DeliverableItcs) : Prop :=
  ∀ deliverable group,
    Numbered ((groupItcs itcs t deliverable group).map DeliverableItcMap.itcGroupNumber)

/-- The foreign key from the ITCs to the deliverables. -/
def ItpDb.DeliverablesExist (db : ItpDb) : Prop :=
  ∀ m ∈ db.deliverableItcMaps.rows, ∀ k, m.deliverableId = some k →
    ∃ d ∈ db.deliverables.rows, d.id = k

inductive GroupingRequest
  | deliverableNew (url : ItpUrl) (form : DeliverableForm) (now : Nat)
  | itcAdd (url : DeliverableUrl) (itcid : Nat)

def GroupingRequest.commit (db : ItpDb) : GroupingRequest → Option ItpDb
  | deliverableNew url form now => Medusa.deliverableNew db url form now
  | itcAdd url itcid => Medusa.itcAdd db url itcid

/-- The templates of the group that the deliverable's ITCs were made from. -/
def groupTemplates (itcs : Itcs) (t : DeliverableItcs) (deliverable group : Nat) :
    List (Option Nat) :=
  (groupItcs itcs t deliverable group).map DeliverableItcMap.itcId

/-- An ITC that is added has a template without a group, or a template which the
deliverable does not have yet, in a group of which it has no template twice. -/
def GroupingRequest.NewTemplate (db : ItpDb) : GroupingRequest → Prop
  | deliverableNew _ _ _ => True
  | itcAdd url itcid =>
    ∀ d, db.deliverableOf url = some d → ∀ itc, db.itcs.get? itcid = some itc →
      ∀ group, itc.itcGroupId = some group →
        some itc.id ∉ groupTemplates db.itcs db.deliverableItcMaps d.id group ∧
          (groupTemplates db.itcs db.deliverableItcMaps d.id group).Nodup

theorem template_newItc {itcs : Itcs} {itc : Itc} (hitc : itc ∈ itcs.rows) (deliverable : Nat)
    (number : Option Int) (id : Nat) :
    (newItc deliverable itc.id number id).template itcs = some itc :=
  Table.get?_eq_some.mpr ⟨hitc, rfl⟩

theorem itcsOf_insert (t : DeliverableItcs) (d i : Nat) (number : Option Int) (k : Nat) :
    itcsOf (t.insert (newItc d i number) (newItc_id _ _ _)) k =
      if k = d then itcsOf t k ++ [newItc d i number t.nextKey] else itcsOf t k := by
  by_cases hk : k = d
  · subst hk
    simp [itcsOf, newItc]
  · have hne : d ≠ k := fun h => hk h.symm
    simp [itcsOf, newItc, hk, hne]

theorem groupItcs_insert {itcs : Itcs} {itc : Itc} (hitc : itc ∈ itcs.rows) (t : DeliverableItcs)
    (d : Nat) (number : Option Int) (k group : Nat) :
    groupItcs itcs (t.insert (newItc d itc.id number) (newItc_id _ _ _)) k group =
      if k = d ∧ itc.itcGroupId = some group then
        groupItcs itcs t k group ++ [newItc d itc.id number t.nextKey]
      else groupItcs itcs t k group := by
  unfold groupItcs
  rw [itcsOf_insert]
  by_cases hk : k = d
  · by_cases hg : itc.itcGroupId = some group
    · simp [hk, hg, List.filter_append, template_newItc hitc]
    · simp [hk, hg, List.filter_append, template_newItc hitc]
  · simp [hk]

theorem length_dedup_iff {α : Type*} [DecidableEq α] (l : List α) :
    l.dedup.length = l.length ↔ l.Nodup := by
  rw [← List.dedup_eq_self]
  constructor
  · exact fun h => (List.dedup_sublist l).eq_of_length h
  · exact congrArg List.length

/-- The templates that are counted are the different ones of the group. -/
theorem groupCount_members (itcs : Itcs) (t : DeliverableItcs) (d : Nat) (group : Option Nat) :
    groupCount itcs t d group =
      ((groupMembers itcs t d group).map DeliverableItcMap.itcId).dedup.length := by
  unfold groupCount
  generalize hcounted : itcs.rows.filter (fun i =>
    decide (some i.id ∈ (itcsOf t d).map DeliverableItcMap.itcId) &&
      i.itcGroupId == group) = counted
  have hnd : (counted.map (fun i => some i.id)).Nodup := by
    have hids : (counted.map Itc.id).Nodup :=
      hcounted ▸ itcs.nodup.sublist (List.filter_sublist.map Itc.id)
    have hsome := hids.map (Option.some_injective Nat)
    rw [List.map_map] at hsome
    exact hsome
  have hmem : ∀ x, x ∈ counted.map (fun i => some i.id) ↔
      x ∈ ((groupMembers itcs t d group).map DeliverableItcMap.itcId).dedup := by
    intro x
    rw [List.mem_dedup, ← hcounted]
    unfold groupMembers
    simp only [List.mem_map, List.mem_filter, Bool.and_eq_true, decide_eq_true_eq, beq_iff_eq]
    constructor
    · rintro ⟨i, ⟨hi, ⟨m, hm, hmi⟩, hg⟩, rfl⟩
      have htemplate : m.template itcs = some i := by
        unfold DeliverableItcMap.template
        rw [hmi]
        exact Table.get?_eq_some.mpr ⟨hi, rfl⟩
      exact ⟨m, ⟨hm, by rw [htemplate, Option.map_some, hg]⟩, hmi⟩
    · rintro ⟨m, ⟨hm, hg⟩, rfl⟩
      obtain ⟨i, htemplate, hg⟩ := Option.map_eq_some_iff.mp hg
      obtain ⟨k, hmk, hget⟩ := Option.bind_eq_some_iff.mp htemplate
      obtain ⟨hi, rfl⟩ := Table.get?_eq_some.mp hget
      exact ⟨i, ⟨hi, ⟨m, hm, hmk⟩, hg⟩, hmk.symm⟩
  have hperm := (List.perm_ext_iff_of_nodup hnd (List.nodup_dedup _)).mpr hmem
  have hlen := hperm.length_eq
  rw [List.length_map] at hlen
  exact hlen

theorem groupCount_eq (itcs : Itcs) (t : DeliverableItcs) (d group : Nat) :
    groupCount itcs t d (some group) = (groupTemplates itcs t d group).dedup.length := by
  rw [groupCount_members, ← groupItcs_eq]
  rfl

/-- An ITC that is added gets the next number of its group exactly if the templates
of the group are all different then. -/
theorem addItc_numbered_iff {itcs : Itcs} {itc : Itc} (hitc : itc ∈ itcs.rows)
    {t : DeliverableItcs} (h : GroupsNumbered itcs t) (d : Nat) :
    GroupsNumbered itcs (addItc itcs d t itc) ↔
      ∀ group, itc.itcGroupId = some group →
        some itc.id ∉ groupTemplates itcs t d group ∧ (groupTemplates itcs t d group).Nodup := by
  have hat : ∀ group, itc.itcGroupId = some group →
      (Numbered ((groupItcs itcs (addItc itcs d t itc) d group).map
        DeliverableItcMap.itcGroupNumber) ↔
        some itc.id ∉ groupTemplates itcs t d group ∧ (groupTemplates itcs t d group).Nodup) := by
    intro group hg
    have htemplates : groupTemplates itcs
        (t.insert (newItc d itc.id none) (newItc_id _ _ _)) d group =
          groupTemplates itcs t d group ++ [some itc.id] := by
      unfold groupTemplates
      rw [groupItcs_insert hitc]
      simp [hg, newItc]
    unfold addItc
    rw [groupItcs_insert hitc, if_pos ⟨rfl, hg⟩, List.map_append, List.map_singleton,
      numbered_concat_iff (h d group)]
    simp only [newItc, Option.some.injEq]
    rw [hg, groupCount_eq, htemplates]
    have hlen : ((groupItcs itcs t d group).map DeliverableItcMap.itcGroupNumber).length + 1 =
        (groupTemplates itcs t d group ++ [some itc.id]).length := by
      simp [groupTemplates]
    have hnodup : (groupTemplates itcs t d group ++ [some itc.id]).Nodup ↔
        some itc.id ∉ groupTemplates itcs t d group ∧ (groupTemplates itcs t d group).Nodup := by
      rw [List.nodup_append_comm, List.singleton_append, List.nodup_cons]
    rw [← hnodup, ← length_dedup_iff, ← hlen]
    norm_cast
  constructor
  · intro hn group hg
    exact (hat group hg).mp (hn d group)
  · intro hnew k group
    by_cases hk : k = d ∧ itc.itcGroupId = some group
    · rw [hk.1]
      exact (hat group hk.2).mpr (hnew group hk.2)
    · unfold addItc
      rw [groupItcs_insert hitc, if_neg hk]
      exact h k group

/-- The loop of a new deliverable: from one without ITCs, templates that are all
different are added. -/
theorem foldl_addItc_numbered {itcs : Itcs} {d : Nat} {l : List Itc} (hl : ∀ i ∈ l, i ∈ itcs.rows)
    (hnd : (l.map Itc.id).Nodup) {t : DeliverableItcs} (h : GroupsNumbered itcs t)
    (hnodup : ((itcsOf t d).map DeliverableItcMap.itcId).Nodup)
    (hnew : ∀ i ∈ l, some i.id ∉ (itcsOf t d).map DeliverableItcMap.itcId) :
    GroupsNumbered itcs (l.foldl (addItc itcs d) t) := by
  induction l generalizing t with
  | nil => exact h
  | cons itc rest ih =>
    rw [List.map_cons, List.nodup_cons] at hnd
    have hitc := hl itc List.mem_cons_self
    have hids : (itcsOf (addItc itcs d t itc) d).map DeliverableItcMap.itcId =
        (itcsOf t d).map DeliverableItcMap.itcId ++ [some itc.id] := by
      unfold addItc
      rw [itcsOf_insert]
      simp [newItc]
    have hsub : ∀ group, (groupTemplates itcs t d group).Sublist
        ((itcsOf t d).map DeliverableItcMap.itcId) :=
      fun group => List.filter_sublist.map _
    rw [List.foldl_cons]
    apply ih (fun i hi => hl i (List.mem_cons_of_mem itc hi)) hnd.2
    · refine (addItc_numbered_iff hitc h d).mpr ?_
      intro group _
      exact ⟨fun hm => hnew itc List.mem_cons_self ((hsub group).subset hm),
        hnodup.sublist (hsub group)⟩
    · rw [hids, List.nodup_append_comm, List.singleton_append, List.nodup_cons]
      exact ⟨hnew itc List.mem_cons_self, hnodup⟩
    · intro i hi hm
      rw [hids, List.mem_append, List.mem_singleton, Option.some.injEq] at hm
      rcases hm with hm | hm
      · exact hnew i (List.mem_cons_of_mem itc hi) hm
      · exact hnd.1 (hm ▸ List.mem_map_of_mem hi)

theorem ItpDb.DeliverablesExist.serve {db : ItpDb} (h : db.DeliverablesExist)
    (r : GroupingRequest) : (serve GroupingRequest.commit db r).DeliverablesExist := by
  refine serve_of_commit h ?_
  intro db' hr
  cases r with
  | deliverableNew url form now =>
    obtain ⟨type, deliverables, hids, rfl⟩ := deliverableNew_cases hr
    intro m hm k hk
    apply List.mem_map.mp
    rw [hids, List.mem_append, List.mem_singleton]
    rcases mem_foldl_addItc hm with hm | ⟨itc, -, number, id, rfl⟩
    · obtain ⟨d, hd, rfl⟩ := h m hm k hk
      exact Or.inl (List.mem_map_of_mem hd)
    · exact Or.inr (Option.some.inj hk).symm
  | itcAdd url itcid =>
    simp only [GroupingRequest.commit, Medusa.itcAdd, Option.bind_eq_bind, Option.bind_eq_some_iff,
      Option.pure_def, Option.some.injEq] at hr
    obtain ⟨d, hd, itc, -, rfl⟩ := hr
    intro m hm k hk
    rcases mem_addItc hm with hm | ⟨number, rfl⟩
    · exact h m hm k hk
    · exact ⟨d, ItpDb.mem_of_deliverableOf hd, Option.some.inj hk⟩

theorem GroupsNumbered.serve_iff {db : ItpDb} (hexist : db.DeliverablesExist)
    (h : GroupsNumbered db.itcs db.deliverableItcMaps) (r : GroupingRequest) :
    GroupsNumbered (serve GroupingRequest.commit db r).itcs
        (serve GroupingRequest.commit db r).deliverableItcMaps ↔ r.NewTemplate db := by
  cases r with
  | deliverableNew url form now =>
    refine iff_of_true ?_ trivial
    refine serve_of_commit (P := fun db : ItpDb => GroupsNumbered db.itcs db.deliverableItcMaps)
      h ?_
    intro db' hr
    obtain ⟨type, deliverables, -, rfl⟩ := deliverableNew_cases hr
    -- the id of the deliverable is new, so no ITC refers to it
    have hnone : itcsOf db.deliverableItcMaps db.deliverables.nextKey = [] := by
      apply List.filter_eq_nil_iff.mpr
      intro m hm hk
      exact Table.ForeignKey.ne_nextKey hexist hm (beq_iff_eq.mp hk)
    apply foldl_addItc_numbered (fun i hi => (List.mem_filter.mp hi).1)
      (db.itcs.nodup.sublist (List.filter_sublist.map _)) h
    · simp [hnone]
    · simp [hnone]
  | itcAdd url itcid =>
    refine Relational.serve_iff
      (I := fun db : ItpDb => GroupsNumbered db.itcs db.deliverableItcMaps) h ?_ ?_
    · intro hnone d hd itc hitc
      simp [GroupingRequest.commit, Medusa.itcAdd, hd, hitc] at hnone
    · intro db' hr
      simp only [GroupingRequest.commit, Medusa.itcAdd, Option.bind_eq_bind,
        Option.bind_eq_some_iff, Option.pure_def, Option.some.injEq] at hr
      obtain ⟨d, hd, itc, hitc, rfl⟩ := hr
      simp only [GroupingRequest.NewTemplate, forall_eq_some_iff hd, forall_eq_some_iff hitc]
      exact addItc_numbered_iff (Table.get?_eq_some.mp hitc).1 h d.id

def runGrouping (db : ItpDb) (requests : List GroupingRequest) : ItpDb :=
  serveAll GroupingRequest.commit db requests

/-- From ITCs that are numbered within their groups, they are so after every request
of a run exactly if no request adds a template of a group a second time. -/
theorem runGrouping_numbered_iff (db : ItpDb) (requests : List GroupingRequest)
    (hexist : db.DeliverablesExist) (h : GroupsNumbered db.itcs db.deliverableItcMaps) :
    (∀ pre post, requests = pre ++ post → ∀ deliverable group,
      Numbered ((groupItcs (runGrouping db pre).itcs (runGrouping db pre).deliverableItcMaps
        deliverable group).map DeliverableItcMap.itcGroupNumber)) ↔
      ∀ pre request post, requests = pre ++ request :: post →
        request.NewTemplate (runGrouping db pre) :=
  serveAll_good_iff_of_keeps (I := fun db : ItpDb => GroupsNumbered db.itcs db.deliverableItcMaps)
    (fun _ r hJ => hJ.serve r) (fun _ r hJ hI => hI.serve_iff hJ r) requests hexist h

theorem pumpProject_deliverablesExist : pumpProject.DeliverablesExist :=
  fun _ hm => absurd hm List.not_mem_nil

theorem pumpProject_groupsNumbered :
    GroupsNumbered pumpProject.itcs pumpProject.deliverableItcMaps :=
  fun _ _ => numbered_nil

theorem runGrouping_numbered_iff_pumpProject :
    pumpProject.DeliverablesExist ∧
    GroupsNumbered pumpProject.itcs pumpProject.deliverableItcMaps ∧
    ∀ pre post, [GroupingRequest.deliverableNew pumpItp (pumpForm "pump 1") 10,
      .itcAdd (pumpUrl 1) 2] = pre ++ post → ∀ deliverable group,
        Numbered ((groupItcs (runGrouping pumpProject pre).itcs
          (runGrouping pumpProject pre).deliverableItcMaps deliverable group).map
            DeliverableItcMap.itcGroupNumber) := by
  refine ⟨pumpProject_deliverablesExist, pumpProject_groupsNumbered,
    (runGrouping_numbered_iff _ _ pumpProject_deliverablesExist
      pumpProject_groupsNumbered).mpr ?_⟩
  simp only [forall_split_cons, forall_split_nil, and_true]
  refine ⟨trivial, ?_⟩
  intro d hd itc hitc group hgroup
  have hdeliverable : ((runGrouping pumpProject
      [.deliverableNew pumpItp (pumpForm "pump 1") 10]).deliverableOf (pumpUrl 1)).map
        Deliverable.id = some 1 := by decide +kernel
  have hsecond : (runGrouping pumpProject
      [.deliverableNew pumpItp (pumpForm "pump 1") 10]).itcs.get? 2 =
      some ⟨2, "panel wiring", none, none, some 1⟩ := by decide +kernel
  have htemplates : groupTemplates (runGrouping pumpProject
      [.deliverableNew pumpItp (pumpForm "pump 1") 10]).itcs (runGrouping pumpProject
      [.deliverableNew pumpItp (pumpForm "pump 1") 10]).deliverableItcMaps 1 1 = [some 1] := by
    decide +kernel
  rw [hd, Option.map_some, Option.some.injEq] at hdeliverable
  obtain rfl := Option.some.inj (hitc.symm.trans hsecond)
  obtain rfl := Option.some.inj hgroup
  rw [hdeliverable, htemplates]
  decide

/-- The template of the first ITC is added again, and both ITCs have number 1. -/
theorem itcAdd_repeats_number :
    pumpProject.DeliverablesExist ∧
    GroupsNumbered pumpProject.itcs pumpProject.deliverableItcMaps ∧
    ¬ Numbered ((groupItcs
      (runGrouping pumpProject [.deliverableNew pumpItp (pumpForm "pump 1") 10,
        .itcAdd (pumpUrl 1) 1]).itcs
      (runGrouping pumpProject [.deliverableNew pumpItp (pumpForm "pump 1") 10,
        .itcAdd (pumpUrl 1) 1]).deliverableItcMaps 1 1).map DeliverableItcMap.itcGroupNumber) :=
  ⟨pumpProject_deliverablesExist, pumpProject_groupsNumbered, by decide +kernel⟩

end Medusa
