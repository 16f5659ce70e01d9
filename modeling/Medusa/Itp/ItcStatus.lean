import Medusa.Itp.Completion
import Medusa.Percent

/-! The status and the percentage that are stored with an ITC. Two pages compute them
again, the page of the ITC and the list of the ITCs of a deliverable, and each leaves the
stored status as it is in some cases. -/

namespace Medusa

open Relational

def DoneTally.percent (t : DoneTally) : ℚ := Percent.percent t.completed t.total

namespace DeliverableItcMap

/-- What `ITC_testing` makes of an ITC. -/
def testing (tally : DoneTally) (m : DeliverableItcMap) : DeliverableItcMap :=
  { m with
    percentageComplete := some (round tally.percent)
    status :=
      if tally.percent = 100 then some "Completed"
      else if 0 < tally.percent ∧ tally.percent < 100 then some "In Progress"
      else m.status }

/-- What the list of the ITCs makes of an ITC. -/
def listed (tally : DoneTally) (m : DeliverableItcMap) : DeliverableItcMap :=
  { m with
    percentageComplete := some (round tally.percent)
    status :=
      if tally.percent = 100 then some "Completed"
      else if tally.percent ≠ 100 ∧ m.status = some "Completed" then some "In Progress"
      else m.status }

theorem testing_id (tally : DoneTally) (m : DeliverableItcMap) : (m.testing tally).id = m.id := rfl

theorem listed_id (tally : DoneTally) (m : DeliverableItcMap) : (m.listed tally).id = m.id := rfl

end DeliverableItcMap

/-- Where a row of the URL is missing, the page redirects to the list and stores nothing. -/
def itcTesting (db : ItpDb) (url : DeliverableUrl) (itcid : Nat) : Option ItpDb := do
  let itc ← db.itcOf url itcid
  pure { db with
    deliverableItcMaps := db.deliverableItcMaps.update (fun m => m.id == itc.id)
      (DeliverableItcMap.testing (db.itcPage itc.id)) (DeliverableItcMap.testing_id _) }

/-- Each ITC is committed, and then the group of its template is read. An ITC without a
template ends the loop with an exception. -/
def listItcs (db : ItpDb) (t : DeliverableItcs) : List DeliverableItcMap → DeliverableItcs
  | [] => t
  | m :: rest =>
    let saved := t.update (fun m' => m'.id == m.id) (DeliverableItcMap.listed (db.itcPage m.id))
      (DeliverableItcMap.listed_id _)
    if (m.template db.itcs).isSome then listItcs db saved rest else saved

def itcList (db : ItpDb) (url : DeliverableUrl) : Option ItpDb := do
  let deliverable ← db.deliverableOf url
  pure { db with
    deliverableItcMaps := listItcs db db.deliverableItcMaps
      (itcsOf db.deliverableItcMaps deliverable.id) }

def ItpDb.ItcComplete (db : ItpDb) (itc : Nat) : Prop :=
  checksOf db.deliverableCheckMaps itc ≠ [] ∧
    ∀ c ∈ checksOf db.deliverableCheckMaps itc, c.isDone = some true

instance (db : ItpDb) (itc : Nat) : Decidable (db.ItcComplete itc) :=
  inferInstanceAs (Decidable (_ ∧ _))

/-- The list of the ITCs comes to this one: those before it have their templates. -/
def ItpDb.ListComesTo (db : ItpDb) (deliverable itc : Nat) : Prop :=
  ∀ m ∈ (itcsOf db.deliverableItcMaps deliverable).takeWhile (fun m => m.id != itc),
    (m.template db.itcs).isSome

section Tally

variable (db : ItpDb) (itc : Nat)

theorem ItpDb.itcPage_total : (db.itcPage itc).total = (checksOf db.deliverableCheckMaps itc).length :=
  (DoneTally.foldl_total _ _).trans (Nat.zero_add _)

theorem ItpDb.itcPage_completed : (db.itcPage itc).completed =
    (checksOf db.deliverableCheckMaps itc).countP (fun c => c.isDone == some true) :=
  (DoneTally.foldl_completed _ _).trans (Nat.zero_add _)

theorem ItpDb.itcPage_le : (db.itcPage itc).completed ≤ (db.itcPage itc).total := by
  rw [itcPage_total, itcPage_completed]
  exact List.countP_le_length

theorem ItpDb.itcPage_percent_eq_hundred_iff :
    (db.itcPage itc).percent = 100 ↔ db.ItcComplete itc := by
  unfold DoneTally.percent ItcComplete
  rw [Percent.percent_eq_hundred_iff, itcPage_total, itcPage_completed, List.length_pos_iff,
    List.countP_eq_length]
  simp only [beq_iff_eq]

theorem ItpDb.itcPage_percent_pos_iff :
    0 < (db.itcPage itc).percent ↔
      ∃ c ∈ checksOf db.deliverableCheckMaps itc, c.isDone = some true := by
  unfold DoneTally.percent
  rw [Percent.percent_pos_iff (db.itcPage_le itc), itcPage_completed, List.countP_pos_iff]
  simp only [beq_iff_eq]

end Tally

/-- The page of an ITC leaves the status as it is where no check is done. -/
theorem DeliverableItcMap.testing_completed_iff (db : ItpDb) (m : DeliverableItcMap) :
    (m.testing (db.itcPage m.id)).status = some "Completed" ↔
      db.ItcComplete m.id ∨ m.status = some "Completed" ∧
        ∀ c ∈ checksOf db.deliverableCheckMaps m.id, c.isDone ≠ some true := by
  have hle : (db.itcPage m.id).percent ≤ 100 := Percent.percent_le_hundred (db.itcPage_le m.id)
  have hnone : (∀ c ∈ checksOf db.deliverableCheckMaps m.id, c.isDone ≠ some true) ↔
      ¬ 0 < (db.itcPage m.id).percent := by
    rw [db.itcPage_percent_pos_iff]
    push Not
    rfl
  rw [← db.itcPage_percent_eq_hundred_iff, hnone]
  unfold testing
  by_cases hall : (db.itcPage m.id).percent = 100
  · simp [hall]
  · by_cases hpos : 0 < (db.itcPage m.id).percent
    · have hlt : (db.itcPage m.id).percent < 100 := lt_of_le_of_ne hle hall
      simp [hall, hpos, hlt]
    · simp [hall, hpos]

theorem DeliverableItcMap.listed_completed_iff (db : ItpDb) (m : DeliverableItcMap) :
    (m.listed (db.itcPage m.id)).status = some "Completed" ↔ db.ItcComplete m.id := by
  rw [← db.itcPage_percent_eq_hundred_iff]
  unfold listed
  by_cases hall : (db.itcPage m.id).percent = 100
  · simp [hall]
  · by_cases hstatus : m.status = some "Completed"
    · simp [hall, hstatus]
    · simp [hall, hstatus]

theorem itcTesting_row {db : ItpDb} {url : DeliverableUrl} {itcid : Nat} {itc : DeliverableItcMap}
    (hitc : db.itcOf url itcid = some itc) :
    (itcTesting db url itcid).bind (fun db' => db'.deliverableItcMaps.get? itc.id) =
      some (itc.testing (db.itcPage itc.id)) := by
  obtain ⟨d, -, hrow, -, -⟩ := ItpDb.itcOf_eq_some hitc
  have hget : db.deliverableItcMaps.get? itc.id = some itc := Table.get?_eq_some.mpr ⟨hrow, rfl⟩
  simp only [itcTesting, hitc, Option.bind_eq_bind, Option.bind_some, Option.pure_def]
  rw [Table.get?_update, hget]
  rfl

theorem listItcs_get?_other (db : ItpDb) {l : List DeliverableItcMap} {k : Nat}
    (hk : k ∉ l.map DeliverableItcMap.id) (t : DeliverableItcs) :
    (listItcs db t l).get? k = t.get? k := by
  induction l generalizing t with
  | nil => rfl
  | cons m rest ih =>
    rw [List.map_cons, List.mem_cons, not_or] at hk
    have hfirst : ∀ m' ∈ t.rows, (m'.id == m.id) = true → m'.id ≠ k := by
      intro m' _ hm'
      rw [beq_iff_eq.mp hm']
      exact Ne.symm hk.1
    unfold listItcs
    split
    · rw [ih hk.2, Table.get?_update_of_ne _ hfirst]
    · rw [Table.get?_update_of_ne _ hfirst]

theorem listItcs_get? (db : ItpDb) {l : List DeliverableItcMap}
    (hl : (l.map DeliverableItcMap.id).Nodup) {m : DeliverableItcMap} (hm : m ∈ l)
    (hreach : ∀ m' ∈ l.takeWhile (fun m' => m'.id != m.id), (m'.template db.itcs).isSome)
    (t : DeliverableItcs) :
    (listItcs db t l).get? m.id =
      (t.get? m.id).map (DeliverableItcMap.listed (db.itcPage m.id)) := by
  induction l generalizing t with
  | nil => exact absurd hm List.not_mem_nil
  | cons x rest ih =>
    rw [List.map_cons, List.nodup_cons] at hl
    by_cases hx : x.id = m.id
    · -- the list does not come to an id again
      have hrest : m.id ∉ rest.map DeliverableItcMap.id := hx ▸ hl.1
      have hupdate := Table.get?_update (t := t) (DeliverableItcMap.listed_id (db.itcPage m.id)) m.id
      unfold listItcs
      rw [hx]
      split
      · rw [listItcs_get?_other db hrest]
        exact hupdate
      · exact hupdate
    · have hm' : m ∈ rest := by
        rcases List.mem_cons.mp hm with rfl | h
        · exact absurd rfl hx
        · exact h
      have hbefore : (x.id != m.id) = true := by simpa using hx
      rw [List.takeWhile_cons, if_pos hbefore, List.forall_mem_cons] at hreach
      unfold listItcs
      rw [if_pos hreach.1, ih hl.2 hm' hreach.2, Table.get?_update_of_ne]
      intro m' _ hm'
      rw [beq_iff_eq.mp hm']
      exact hx

theorem itcList_row {db : ItpDb} {url : DeliverableUrl} {d : Deliverable}
    (hd : db.deliverableOf url = some d) {itc : DeliverableItcMap}
    (hitc : itc ∈ itcsOf db.deliverableItcMaps d.id) (hreach : db.ListComesTo d.id itc.id) :
    (itcList db url).bind (fun db' => db'.deliverableItcMaps.get? itc.id) =
      some (itc.listed (db.itcPage itc.id)) := by
  have hget : db.deliverableItcMaps.get? itc.id = some itc :=
    Table.get?_eq_some.mpr ⟨(mem_itcsOf.mp hitc).1, rfl⟩
  have hnodup : ((itcsOf db.deliverableItcMaps d.id).map DeliverableItcMap.id).Nodup :=
    db.deliverableItcMaps.nodup.sublist (List.filter_sublist.map _)
  simp only [itcList, hd, Option.bind_eq_bind, Option.bind_some, Option.pure_def]
  rw [listItcs_get? db hnodup hitc hreach, hget]
  rfl

structure ItpDb.PagesAgree (db : ItpDb) (itc : Nat) (m m' : DeliverableItcMap) : Prop where
  tested : m.status = some "Completed" ↔ db.ItcComplete itc
  listed : m'.status = some "Completed" ↔ db.ItcComplete itc
  percentage : m.percentageComplete = m'.percentageComplete

/-- The page of an ITC and the list of the ITCs store the right status and the same
percentage, exactly if the ITC was not stored as completed while none of its checks is done. -/
theorem itcPages_agree_iff {db : ItpDb} {url : DeliverableUrl} {itcid : Nat}
    {d : Deliverable} {itc : DeliverableItcMap} (hd : db.deliverableOf url = some d)
    (hitc : db.itcOf url itcid = some itc) (hreach : db.ListComesTo d.id itcid) :
    (∃ m m', (itcTesting db url itcid).bind (fun db' => db'.deliverableItcMaps.get? itcid) = some m ∧
      (itcList db url).bind (fun db' => db'.deliverableItcMaps.get? itcid) = some m' ∧
      db.PagesAgree itcid m m') ↔
    ¬ (itc.status = some "Completed" ∧
      ∀ c ∈ checksOf db.deliverableCheckMaps itcid, c.isDone ≠ some true) := by
  obtain ⟨d', hd', hrow, hown, rfl⟩ := ItpDb.itcOf_eq_some hitc
  obtain rfl := Option.some.inj (hd.symm.trans hd')
  rw [itcTesting_row hitc, itcList_row hd (mem_itcsOf.mpr ⟨hrow, hown⟩) hreach]
  simp only [Option.some.injEq, exists_and_left, exists_eq_left']
  constructor
  · rintro h ⟨hstatus, hnone⟩
    have hcomplete := h.tested.mp ((itc.testing_completed_iff db).mpr (Or.inr ⟨hstatus, hnone⟩))
    obtain ⟨c, hc⟩ := List.exists_mem_of_ne_nil _ hcomplete.1
    exact hnone c hc (hcomplete.2 c hc)
  · intro hnot
    refine ⟨?_, itc.listed_completed_iff db, rfl⟩
    rw [itc.testing_completed_iff db]
    exact or_iff_left hnot

def testedPump : ItpDb :=
  runChecklist pumpProject [.deliverableNew pumpItp (pumpForm "pump 1") 10,
    .completeAllChecks (pumpUrl 1) 1 7 20]

theorem itcPages_agree_iff_testedPump :
    ∃ d itc, testedPump.deliverableOf (pumpUrl 1) = some d ∧
      testedPump.itcOf (pumpUrl 1) 1 = some itc ∧ testedPump.ListComesTo d.id 1 ∧
      itc.status = some "Not Started" ∧ testedPump.ItcComplete 1 ∧
      ∃ m m', (itcTesting testedPump (pumpUrl 1) 1).bind
          (fun db' => db'.deliverableItcMaps.get? 1) = some m ∧
        (itcList testedPump (pumpUrl 1)).bind (fun db' => db'.deliverableItcMaps.get? 1) = some m' ∧
        testedPump.PagesAgree 1 m m' := by
  obtain ⟨d, hd⟩ : ∃ d, testedPump.deliverableOf (pumpUrl 1) = some d :=
    Option.isSome_iff_exists.mp (by decide +kernel)
  obtain ⟨itc, hitc⟩ : ∃ itc, testedPump.itcOf (pumpUrl 1) 1 = some itc :=
    Option.isSome_iff_exists.mp (by decide +kernel)
  have hid : (testedPump.deliverableOf (pumpUrl 1)).map Deliverable.id = some 1 := by
    decide +kernel
  rw [hd, Option.map_some, Option.some.injEq] at hid
  have hstatus : (testedPump.itcOf (pumpUrl 1) 1).bind DeliverableItcMap.status =
      some "Not Started" := by
    decide +kernel
  rw [hitc, Option.bind_some] at hstatus
  have hfirst : (itcsOf testedPump.deliverableItcMaps 1).takeWhile (fun m => m.id != 1) = [] := by
    decide +kernel
  have hreach : testedPump.ListComesTo d.id 1 := by
    intro m hm
    rw [hid, hfirst] at hm
    exact absurd hm List.not_mem_nil
  refine ⟨d, itc, hd, hitc, hreach, hstatus, by decide +kernel,
    (itcPages_agree_iff hd hitc hreach).mpr ?_⟩
  rw [hstatus]
  rintro ⟨h, -⟩
  exact absurd (Option.some.inj h) (by decide)

/-- The page of the ITC stores that it is completed. Then the ticks are taken back, and the
page leaves the status, where the list corrects it. -/
theorem itcTesting_keeps_completed :
    ((itcTesting testedPump (pumpUrl 1) 1).bind (fun db =>
      itcChange db (pumpUrl 1) 1 ⟨[], ""⟩ 7 30)).map (fun db =>
        ((checksOf db.deliverableCheckMaps 1).map DeliverableCheckMap.isDone,
          ((itcTesting db (pumpUrl 1) 1).map (fun db' =>
            db'.deliverableItcMaps.rows.map DeliverableItcMap.status)),
          ((itcList db (pumpUrl 1)).map (fun db' =>
            db'.deliverableItcMaps.rows.map DeliverableItcMap.status)))) =
      some ([some false, some false], some [some "Completed"], some [some "In Progress"]) := by
  decide +kernel

end Medusa
