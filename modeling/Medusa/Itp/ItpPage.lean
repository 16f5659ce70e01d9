import Mathlib.Order.Bounds.Basic
import Medusa.Itp.ItcStatus

/-! The page of an ITP and the list of its deliverables. Both pages count the checks of
each deliverable and assign it a status by the percentage. The list decides by the
quotient itself, while the page of the ITP commits it first and reads it back from a column
of integers. -/

namespace Medusa

open Relational

def CheckTally.percent (t : CheckTally) : ℚ := Percent.percent t.completed t.total

theorem CheckTally.percent_eq_hundred_iff {l : List DeliverableCheckMap} :
    (l.foldl CheckTally.add CheckTally.zero).percent = 100 ↔
      l ≠ [] ∧ ∀ c ∈ l, c.status = some "Completed" := by
  have htotal : (l.foldl CheckTally.add CheckTally.zero).total = l.length :=
    (CheckTally.foldl_total _ _).trans (Nat.zero_add _)
  have hcompleted : (l.foldl CheckTally.add CheckTally.zero).completed =
      l.countP (fun c => c.status == some "Completed") :=
    (CheckTally.foldl_completed _ _).trans (Nat.zero_add _)
  unfold CheckTally.percent
  rw [Percent.percent_eq_hundred_iff, htotal, hcompleted, List.length_pos_iff,
    List.countP_eq_length]
  simp only [beq_iff_eq]

/-- The round of the loops that count ITCs by their status. -/
def CheckTally.addItc (t : CheckTally) (m : DeliverableItcMap) : CheckTally :=
  let t := { t with total := t.total + 1 }
  if m.status = some "Completed" then { t with completed := t.completed + 1 }
  else if m.status = some "In Progress" then { t with inProgress := t.inProgress + 1 }
  else if m.status = some "Not Applicable" then { t with notApplicable := t.notApplicable + 1 }
  else { t with notStarted := t.notStarted + 1 }

def statusOf (percentage : ℚ) : String :=
  if 0 < percentage ∧ percentage < 100 then "In Progress"
  else if percentage = 100 then "Completed"
  else "Not Started"

def Deliverable.setPercentage (percentage : Int) (d : Deliverable) : Deliverable :=
  { d with percentageComplete := some percentage }

def Deliverable.setStatus (status : String) (d : Deliverable) : Deliverable :=
  { d with status := some status }

theorem Deliverable.setPercentage_id (percentage : Int) (d : Deliverable) :
    (d.setPercentage percentage).id = d.id := rfl

theorem Deliverable.setStatus_id (status : String) (d : Deliverable) :
    (d.setStatus status).id = d.id := rfl

/-- The variables of `site_project_ITP`: the deliverables as they are committed, the counts
of checks and of ITCs, the last value of `checks`, and the statuses that were assigned. -/
structure ItpView where
  deliverables : Table Deliverable Deliverable.id
  tally : CheckTally
  itcTally : CheckTally
  checks : Option (List DeliverableCheckMap)
  statuses : List (Nat × String)

/-- A status is assigned after the commit of its round, so the next commit stores it. The
last one is never committed. -/
def ItpView.withStatus (v : ItpView) : Table Deliverable Deliverable.id :=
  match v.statuses.getLast? with
  | none => v.deliverables
  | some (id, status) => v.deliverables.update (fun d => d.id == id) (Deliverable.setStatus status)
      (Deliverable.setStatus_id status)

def itpRound (db : ItpDb) (v : ItpView) (d : Deliverable) : ItpView :=
  let itcs := itcsOf db.deliverableItcMaps d.id
  let both := (db.deliverableChecks d.id).foldl
    (fun (t : CheckTally × CheckTally) c => (t.1.add c, t.2.add c)) (v.tally, CheckTally.zero)
  let percentage := round both.2.percent
  { deliverables := v.withStatus.update (fun d' => d'.id == d.id)
      (Deliverable.setPercentage percentage) (Deliverable.setPercentage_id percentage)
    tally := both.1
    itcTally := itcs.foldl CheckTally.addItc v.itcTally
    checks := (itcs.getLast?.map (fun m => checksOf db.deliverableCheckMaps m.id)).or v.checks
    statuses := v.statuses ++ [(d.id, statusOf percentage)] }

def siteProjectItp (db : ItpDb) (url : ItpUrl) : Option ItpView := do
  let itp ← db.itpOf url
  pure ((db.deliverablesOf itp.id).foldl (itpRound db)
    ⟨db.deliverables, CheckTally.zero, CheckTally.zero, none, []⟩)

def ItpView.percents (v : ItpView) : List ℚ :=
  [v.tally.percent, Percent.percent v.tally.inProgress v.tally.total,
    Percent.percent v.tally.notApplicable v.tally.total,
    Percent.percent v.tally.notStarted v.tally.total]

-- without checks the page shows one number less
def ItpView.totals (v : ItpView) : List Nat :=
  if v.tally.total ≠ 0 then
    [v.itcTally.total, v.itcTally.completed, v.itcTally.inProgress, v.itcTally.notApplicable,
      v.itcTally.notStarted]
  else [0, 0, 0, 0]

/-- The round of the loop that chooses the date. Comparing a missing date raises. -/
def earlierCompletion (date : Nat) (c : DeliverableCheckMap) : Option Nat :=
  c.completionDatetime.map (fun t => if t < date then t else date)

/-- The date that the page shows, or "-", which is `some none`. -/
def ItpView.completionDate (v : ItpView) : Option (Option Nat) :=
  if v.tally.percent = 100 then do
    let checks ← v.checks
    let first ← checks.head?
    let start ← first.completionDatetime
    let date ← checks.foldlM earlierCompletion start
    pure (some date)
  else pure none

def Deliverable.listed (tally : DoneTally) (d : Deliverable) : Deliverable :=
  { d with
    percentageComplete := some (round tally.percent)
    status := some (statusOf tally.percent) }

theorem Deliverable.listed_id (tally : DoneTally) (d : Deliverable) : (d.listed tally).id = d.id := rfl

def deliverableList (db : ItpDb) (url : ItpUrl) : Option ItpDb := do
  let itp ← db.itpOf url
  pure { db with
    deliverables := (db.deliverablesOf itp.id).foldl (fun t d =>
      t.update (fun d' => d'.id == d.id) (Deliverable.listed (db.deliverableListPage d.id))
        (Deliverable.listed_id _)) db.deliverables }

namespace ItpDb

def itpItcs (db : ItpDb) (itp : Nat) : List DeliverableItcMap :=
  (db.deliverablesOf itp).flatMap (fun d => itcsOf db.deliverableItcMaps d.id)

def itpChecks (db : ItpDb) (itp : Nat) : List DeliverableCheckMap :=
  (db.deliverablesOf itp).flatMap (fun d => db.deliverableChecks d.id)

def completionTimes (db : ItpDb) (itp : Nat) : Set Nat :=
  {t | ∃ c ∈ db.itpChecks itp, c.completionDatetime = some t}

def rightStatus (db : ItpDb) (deliverable : Nat) : String :=
  if db.deliverableChecks deliverable ≠ [] ∧
      db.doneCount deliverable = (db.deliverableChecks deliverable).length then "Completed"
  else if db.doneCount deliverable = 0 then "Not Started"
  else "In Progress"

end ItpDb

/-- What the page has done after it came to the deliverables of the list. -/
structure ItpView.Covers (db : ItpDb) (l : List Deliverable) (v : ItpView) : Prop where
  tally : v.tally = (l.flatMap (fun d => db.deliverableChecks d.id)).foldl CheckTally.add
    CheckTally.zero
  checks : v.checks = (l.flatMap (fun d => itcsOf db.deliverableItcMaps d.id)).getLast?.map
    (fun m => checksOf db.deliverableCheckMaps m.id)
  statuses : v.statuses = l.map (fun d => (d.id, statusOf (round (db.deliverablePage d.id).percent)))

theorem ItpView.Covers.next {db : ItpDb} {l : List Deliverable} {v : ItpView} (h : v.Covers db l)
    (d : Deliverable) : (itpRound db v d).Covers db (l ++ [d]) := by
  refine ⟨?_, ?_, ?_⟩
  · simp only [itpRound, foldl_both, h.tally, List.flatMap_append, List.foldl_append,
      List.flatMap_singleton]
  · simp only [itpRound, h.checks, List.flatMap_append, List.flatMap_singleton,
      List.getLast?_append, Option.map_or]
  · simp only [itpRound, foldl_both, h.statuses, List.map_append, List.map_singleton]
    rfl

theorem ItpView.covers (db : ItpDb) (t : Table Deliverable Deliverable.id) (l : List Deliverable) :
    (l.foldl (itpRound db) ⟨t, CheckTally.zero, CheckTally.zero, none, []⟩).Covers db l := by
  induction l using List.reverseRecOn with
  | nil => exact ⟨rfl, rfl, rfl⟩
  | append_singleton l d ih =>
    rw [List.foldl_append]
    exact ih.next d

theorem siteProjectItp_covers {db : ItpDb} {url : ItpUrl} {itp : Itp}
    (hitp : db.itpOf url = some itp) :
    ∃ v, siteProjectItp db url = some v ∧ v.Covers db (db.deliverablesOf itp.id) := by
  refine ⟨_, ?_, ItpView.covers db db.deliverables (db.deliverablesOf itp.id)⟩
  simp only [siteProjectItp, hitp, Option.bind_eq_bind, Option.bind_some, Option.pure_def]

theorem deliverableList_row {db : ItpDb} {url : ItpUrl} {itp : Itp}
    (hitp : db.itpOf url = some itp) {d : Deliverable} (hd : d ∈ db.deliverablesOf itp.id) :
    ∃ db', deliverableList db url = some db' ∧
      db'.deliverables.get? d.id = some (d.listed (db.deliverableListPage d.id)) := by
  have hget : db.deliverables.get? d.id = some d :=
    Table.get?_eq_some.mpr ⟨(List.mem_filter.mp hd).1, rfl⟩
  have hnodup : ((db.deliverablesOf itp.id).map Deliverable.id).Nodup :=
    db.deliverables.nodup.sublist (List.filter_sublist.map _)
  have hrow := Table.get?_foldl_update
    (f := fun (d : Deliverable) => Deliverable.listed (db.deliverableListPage d.id))
    (fun d => Deliverable.listed_id _) hnodup hd db.deliverables
  rw [hget] at hrow
  simp only [deliverableList, hitp, Option.bind_eq_bind, Option.bind_some, Option.pure_def]
  exact ⟨_, rfl, hrow⟩

section Status

theorem statusOf_eq_iff {p q : ℚ} (hp : 0 ≤ p ∧ p ≤ 100) (hq : 0 ≤ q ∧ q ≤ 100) :
    statusOf p = statusOf q ↔ (p = 0 ↔ q = 0) ∧ (p = 100 ↔ q = 100) := by
  have hcases : ∀ x : ℚ, 0 ≤ x ∧ x ≤ 100 → x = 0 ∧ statusOf x = "Not Started" ∨
      x = 100 ∧ statusOf x = "Completed" ∨ x ≠ 0 ∧ x ≠ 100 ∧ statusOf x = "In Progress" := by
    intro x hx
    by_cases h0 : x = 0
    · simp [statusOf, h0]
    by_cases h100 : x = 100
    · simp [statusOf, h100]
    have hpos : 0 < x := lt_of_le_of_ne hx.1 (Ne.symm h0)
    have hlt : x < 100 := lt_of_le_of_ne hx.2 h100
    simp [statusOf, h0, h100, hpos, hlt]
  rcases hcases p hp with ⟨hp', hs⟩ | ⟨hp', hs⟩ | ⟨hp', hp'', hs⟩ <;>
    rcases hcases q hq with ⟨hq', hs'⟩ | ⟨hq', hs'⟩ | ⟨hq', hq'', hs'⟩ <;>
      rw [hs, hs'] <;> simp [*]

variable {part whole : Nat}

theorem statusOf_percent (h : part ≤ whole) :
    statusOf (Percent.percent part whole) =
      if 0 < whole ∧ part = whole then "Completed"
      else if part = 0 then "Not Started" else "In Progress" := by
  have hle := Percent.percent_le_hundred h
  unfold statusOf
  simp only [Percent.percent_pos_iff h, Percent.percent_eq_hundred_iff]
  by_cases hall : 0 < whole ∧ part = whole
  · have hp := Percent.percent_eq_hundred_iff.mpr hall
    rw [if_neg (fun hlt => ne_of_lt hlt.2 hp), if_pos hall, if_pos hall]
  · have hlt : Percent.percent part whole < 100 :=
      lt_of_le_of_ne hle (mt Percent.percent_eq_hundred_iff.mp hall)
    rw [if_neg hall, if_neg hall]
    by_cases hnone : part = 0
    · simp [hnone]
    · simp [hnone, hlt, Nat.pos_of_ne_zero hnone]

/-- Rounding changes the status of a share that is less than half a percent away from
nothing, or at most half a percent from the whole. -/
theorem statusOf_round_percent (h : part ≤ whole) :
    statusOf (round (Percent.percent part whole)) = statusOf (Percent.percent part whole) ↔
      (0 < part → part < whole → whole ≤ 200 * part ∧ whole < 200 * (whole - part)) := by
  have hnonneg := Percent.percent_nonneg part whole
  have hle := Percent.percent_le_hundred h
  have hround : (0 : ℚ) ≤ (round (Percent.percent part whole) : ℚ) ∧
      (round (Percent.percent part whole) : ℚ) ≤ 100 := by
    exact_mod_cast Percent.round_percent_mem h
  have hzero := Percent.round_percent_eq_zero_iff h
  have hall := Percent.round_percent_eq_hundred_iff h
  rw [statusOf_eq_iff hround ⟨hnonneg, hle⟩, Percent.percent_eq_zero_iff h,
    Percent.percent_eq_hundred_iff]
  norm_cast
  rw [hzero, hall]
  omega

end Status

/-- The statuses that the page assigned to the deliverable, of which there is one. -/
def ItpView.Assigns (v : ItpView) (deliverable : Nat) (status : String) : Prop :=
  ∀ assigned, (deliverable, assigned) ∈ v.statuses ↔ assigned = status

theorem ItpView.Covers.assigns {db : ItpDb} {l : List Deliverable} {v : ItpView}
    (h : v.Covers db l) {d : Deliverable} (hd : d ∈ l) :
    v.Assigns d.id (statusOf (round (db.deliverablePage d.id).percent)) := by
  intro assigned
  rw [h.statuses, List.mem_map]
  constructor
  · rintro ⟨d', -, he⟩
    obtain ⟨hid, rfl⟩ := Prod.mk.inj he
    rw [hid]
  · rintro rfl
    exact ⟨d, hd, rfl⟩

theorem ItpView.Assigns.iff {v : ItpView} {deliverable : Nat} {status : String}
    (h : v.Assigns deliverable status) (status' : String) :
    v.Assigns deliverable status' ↔ status = status' := by
  constructor
  · intro h'
    exact (h' status).mp ((h status).mpr rfl)
  · rintro rfl
    exact h

namespace ItpDb

variable (db : ItpDb) (deliverable : Nat)

theorem doneCount_le : db.doneCount deliverable ≤ (db.deliverableChecks deliverable).length :=
  List.countP_le_length

theorem rightStatus_eq : db.rightStatus deliverable =
    statusOf (Percent.percent (db.doneCount deliverable)
      (db.deliverableChecks deliverable).length) := by
  rw [statusOf_percent (db.doneCount_le deliverable)]
  simp only [List.length_pos_iff]
  rfl

end ItpDb

/-- Where the two columns of each check agree, the list of the deliverables and the page of
the ITP assign a deliverable the right status, exactly if rounding its percentage does not
make a deliverable in progress one that is not started or one that is completed. -/
theorem deliverablePages_agree_iff {db : ItpDb} {url : ItpUrl} {itp : Itp} {d : Deliverable}
    (hitp : db.itpOf url = some itp) (hd : d ∈ db.deliverablesOf itp.id)
    (hagrees : ∀ c ∈ db.deliverableChecks d.id, c.Agrees) :
    (∃ v db', siteProjectItp db url = some v ∧ deliverableList db url = some db' ∧
      v.Assigns d.id (db.rightStatus d.id) ∧
      (db'.deliverables.get? d.id).bind Deliverable.status = some (db.rightStatus d.id)) ↔
    (0 < db.doneCount d.id → db.doneCount d.id < (db.deliverableChecks d.id).length →
      (db.deliverableChecks d.id).length ≤ 200 * db.doneCount d.id ∧
      (db.deliverableChecks d.id).length <
        200 * ((db.deliverableChecks d.id).length - db.doneCount d.id)) := by
  obtain ⟨v, hv, hcovers⟩ := siteProjectItp_covers hitp
  obtain ⟨db', hdb', hrow⟩ := deliverableList_row hitp hd
  have hlist : (db'.deliverables.get? d.id).bind Deliverable.status = some (db.rightStatus d.id) := by
    rw [hrow, db.rightStatus_eq, ← db.deliverableListPage_completed, ← db.deliverableListPage_total]
    rfl
  have hpage : (db.deliverablePage d.id).percent =
      Percent.percent (db.doneCount d.id) (db.deliverableChecks d.id).length := by
    rw [← ItpDb.deliverablePage_completed hagrees, ← ItpDb.deliverablePage_total]
    rfl
  simp only [hv, hdb', Option.some.injEq, exists_and_left, exists_eq_left', hlist, and_true]
  rw [(hcovers.assigns hd).iff, hpage, db.rightStatus_eq]
  exact statusOf_round_percent (db.doneCount_le d.id)

def newPump : ItpDb := runChecklist pumpProject [.deliverableNew pumpItp (pumpForm "pump 1") 10]

def longCheck (done i : Nat) : DeliverableCheckMap :=
  if i < done then (newCheck 1 1 (i + 1) i).complete 7 20 else newCheck 1 1 (i + 1) i

theorem longCheck_id (done : Nat) : DeliverableCheckMap.id ∘ longCheck done = id := by
  funext i
  unfold longCheck
  rw [Function.comp_apply]
  split <;> rfl

/-- A pump with 201 checks, of which the first ones are done. -/
def longPump (done : Nat) : ItpDb :=
  { newPump with
    deliverableCheckMaps := ⟨(List.range 201).map (longCheck done), by
      rw [List.map_map, longCheck_id, List.map_id]
      exact List.nodup_range⟩ }

theorem deliverablePages_agree_iff_longPump :
    ∃ itp d, (longPump 100).itpOf pumpItp = some itp ∧ d ∈ (longPump 100).deliverablesOf itp.id ∧
      (∀ c ∈ (longPump 100).deliverableChecks d.id, c.Agrees) ∧
      (longPump 100).rightStatus d.id = "In Progress" ∧
      ∃ v db', siteProjectItp (longPump 100) pumpItp = some v ∧
        deliverableList (longPump 100) pumpItp = some db' ∧
        v.Assigns d.id ((longPump 100).rightStatus d.id) ∧
        (db'.deliverables.get? d.id).bind Deliverable.status =
          some ((longPump 100).rightStatus d.id) := by
  obtain ⟨itp, hitp⟩ : ∃ itp, (longPump 100).itpOf pumpItp = some itp :=
    Option.isSome_iff_exists.mp (by decide +kernel)
  have hid : ((longPump 100).itpOf pumpItp).map Itp.id = some 1 := by decide +kernel
  rw [hitp, Option.map_some, Option.some.injEq] at hid
  obtain ⟨d, hd⟩ : ∃ d, (longPump 100).deliverablesOf 1 = [d] :=
    List.length_eq_one_iff.mp (by decide +kernel)
  have hdid : ((longPump 100).deliverablesOf 1).map Deliverable.id = [1] := by decide +kernel
  rw [hd, List.map_singleton, List.singleton_inj] at hdid
  have hagrees : ∀ c ∈ (longPump 100).deliverableChecks d.id, c.Agrees := by
    rw [hdid]
    decide +kernel
  have hmem : d ∈ (longPump 100).deliverablesOf itp.id := by
    rw [hid, hd]
    exact List.mem_singleton_self d
  refine ⟨itp, d, hitp, hmem, hagrees, ?_,
    (deliverablePages_agree_iff hitp hmem hagrees).mpr (fun _ _ => ?_)⟩
  · rw [hdid]
    decide +kernel
  · rw [hdid]
    decide +kernel

/-- One check of 201 is done, and then all but one: the list shows both deliverables as in
progress. -/
theorem siteProjectItp_rounds_status :
    ((siteProjectItp (longPump 1) pumpItp).map ItpView.statuses = some [(1, "Not Started")] ∧
      (deliverableList (longPump 1) pumpItp).map (fun db => db.deliverables.rows.map
        Deliverable.status) = some [some "In Progress"]) ∧
    (siteProjectItp (longPump 200) pumpItp).map ItpView.statuses = some [(1, "Completed")] ∧
      (deliverableList (longPump 200) pumpItp).map (fun db => db.deliverables.rows.map
        Deliverable.status) = some [some "In Progress"] := by
  decide +kernel

section Date

/-- The loop over the checks finds the earliest of their times and the one it starts with. -/
theorem foldlM_earlierCompletion {l : List DeliverableCheckMap}
    (hl : ∀ c ∈ l, c.completionDatetime.isSome) (start : Nat) :
    ∃ date, l.foldlM earlierCompletion start = some date ∧
      IsLeast (insert start {t | ∃ c ∈ l, c.completionDatetime = some t}) date := by
  induction l generalizing start with
  | nil => exact ⟨start, rfl, by simp⟩
  | cons c rest ih =>
    rw [List.forall_mem_cons] at hl
    obtain ⟨t, ht⟩ := Option.isSome_iff_exists.mp hl.1
    obtain ⟨date, hdate, hleast⟩ := ih hl.2 (min t start)
    refine ⟨date, ?_, ?_⟩
    · have hstep : earlierCompletion start c = some (min t start) := by
        simp [earlierCompletion, ht, min_def_lt]
      rw [List.foldlM_cons, hstep]
      exact hdate
    · obtain ⟨hmem, hlow⟩ := hleast
      have hle : date ≤ min t start := hlow (Set.mem_insert _ _)
      constructor
      · rcases hmem with rfl | ⟨c', hc', ht'⟩
        · rcases min_choice t start with h | h
          · exact Or.inr ⟨c, List.mem_cons_self, by rw [h, ht]⟩
          · exact Or.inl h
        · exact Or.inr ⟨c', List.mem_cons_of_mem _ hc', ht'⟩
      · rintro x (rfl | ⟨c', hc', hx⟩)
        · exact hle.trans (min_le_right _ _)
        rcases List.mem_cons.mp hc' with rfl | hc'
        · obtain rfl := Option.some.inj (ht.symm.trans hx)
          exact hle.trans (min_le_left _ _)
        · exact hlow (Or.inr ⟨c', hc', hx⟩)

variable {db : ItpDb} {itp : Nat}

theorem ItpDb.itpChecks_eq : db.itpChecks itp =
    (db.itpItcs itp).flatMap (fun m => checksOf db.deliverableCheckMaps m.id) := by
  unfold itpChecks itpItcs deliverableChecks
  rw [List.flatMap_assoc]

variable {v : ItpView} (hcovers : v.Covers db (db.deliverablesOf itp))

include hcovers

theorem ItpView.Covers.percent_eq_hundred (hsome : db.itpChecks itp ≠ [])
    (hall : ∀ c ∈ db.itpChecks itp, c.status = some "Completed") : v.tally.percent = 100 := by
  have htally : v.tally = (db.itpChecks itp).foldl CheckTally.add CheckTally.zero := hcovers.tally
  rw [htally, CheckTally.percent_eq_hundred_iff]
  exact ⟨hsome, hall⟩

/-- With every check completed, the page shows the earliest time of the ITC that it came
to last. -/
theorem ItpView.Covers.completionDate_eq {last : DeliverableItcMap}
    (hpercent : v.tally.percent = 100) (hlast : (db.itpItcs itp).getLast? = some last)
    (hsome : checksOf db.deliverableCheckMaps last.id ≠ [])
    (hdates : ∀ c ∈ checksOf db.deliverableCheckMaps last.id, c.completionDatetime.isSome) :
    ∃ date, v.completionDate = some (some date) ∧
      IsLeast {t | ∃ c ∈ checksOf db.deliverableCheckMaps last.id, c.completionDatetime = some t}
        date := by
  have hchecks : v.checks = some (checksOf db.deliverableCheckMaps last.id) := by
    rw [hcovers.checks]
    exact congrArg _ hlast
  obtain ⟨first, rest, hl⟩ := List.exists_cons_of_ne_nil hsome
  have hfirst : first ∈ checksOf db.deliverableCheckMaps last.id := hl ▸ List.mem_cons_self
  obtain ⟨start, hstart⟩ := Option.isSome_iff_exists.mp (hdates first hfirst)
  obtain ⟨date, hdate, hleast⟩ := foldlM_earlierCompletion hdates start
  have hmem : start ∈ {t | ∃ c ∈ checksOf db.deliverableCheckMaps last.id,
      c.completionDatetime = some t} := ⟨first, hfirst, hstart⟩
  rw [Set.insert_eq_of_mem hmem] at hleast
  refine ⟨date, ?_, hleast⟩
  unfold completionDate
  have hhead : (checksOf db.deliverableCheckMaps last.id).head? = some first := by
    rw [hl, List.head?_cons]
  rw [if_pos hpercent, hchecks]
  simp [hhead, hstart, hdate]

end Date

/-- With every check of the ITP completed at a known time, the page shows the latest of the
times, exactly if the ITC that the loops come to last has checks and none of them was
completed before the latest time. -/
theorem completionDate_latest_iff {db : ItpDb} {url : ItpUrl} {itp : Itp}
    (hitp : db.itpOf url = some itp) (hsome : db.itpChecks itp.id ≠ [])
    (hall : ∀ c ∈ db.itpChecks itp.id,
      c.status = some "Completed" ∧ c.completionDatetime.isSome) :
    (∃ v date, siteProjectItp db url = some v ∧ v.completionDate = some (some date) ∧
      IsGreatest (db.completionTimes itp.id) date) ↔
    ∃ last, (db.itpItcs itp.id).getLast? = some last ∧
      checksOf db.deliverableCheckMaps last.id ≠ [] ∧
      ∀ c ∈ checksOf db.deliverableCheckMaps last.id, ∀ t, c.completionDatetime = some t →
        t ∈ upperBounds (db.completionTimes itp.id) := by
  obtain ⟨v, hv, hcovers⟩ := siteProjectItp_covers hitp
  have hpercent := hcovers.percent_eq_hundred hsome (fun c hc => (hall c hc).1)
  have hitcs : db.itpItcs itp.id ≠ [] := by
    intro h
    rw [ItpDb.itpChecks_eq, h] at hsome
    exact hsome rfl
  have hlast := List.getLast?_eq_some_getLast hitcs
  have hmem : ∀ c ∈ checksOf db.deliverableCheckMaps ((db.itpItcs itp.id).getLast hitcs).id,
      c ∈ db.itpChecks itp.id := by
    intro c hc
    rw [ItpDb.itpChecks_eq]
    exact List.mem_flatMap.mpr ⟨_, List.getLast_mem hitcs, hc⟩
  generalize (db.itpItcs itp.id).getLast hitcs = last at hlast hmem
  simp only [hv, hlast, Option.some.injEq, exists_and_left, exists_eq_left']
  by_cases hempty : checksOf db.deliverableCheckMaps last.id = []
  · -- the first check of an empty list is asked for
    refine iff_of_false ?_ (fun h => h.1 hempty)
    rintro ⟨date, hdate, -⟩
    have hchecks : v.checks = some [] := by
      rw [hcovers.checks, ← hempty]
      exact congrArg _ hlast
    simp [ItpView.completionDate, hpercent, hchecks] at hdate
  · obtain ⟨date, hdate, hleast⟩ :=
      hcovers.completionDate_eq hpercent hlast hempty (fun c hc => (hall c (hmem c hc)).2)
    simp only [hdate, Option.some.injEq, exists_eq_left', and_iff_right (show _ ≠ [] from hempty)]
    constructor
    · rintro ⟨-, hup⟩ c hc t ht
      exact upperBounds_mono_mem (hleast.2 ⟨c, hc, ht⟩) hup
    · intro h
      obtain ⟨c, hc, ht⟩ := hleast.1
      exact ⟨⟨c, hmem c hc, ht⟩, h c hc date ht⟩

/-- Two checks of a pump, the second of them completed later. With `extra`, an ITC that has
no checks is added. -/
def slowPump (extra : Bool) : ItpDb :=
  runChecklist pumpProject ([.deliverableNew pumpItp (pumpForm "pump 1") 10,
    .itcChange (pumpUrl 1) 1 ⟨[⟨1, true⟩], ""⟩ 7 20,
    .itcChange (pumpUrl 1) 1 ⟨[⟨1, true⟩, ⟨2, true⟩], ""⟩ 7 30] ++
    if extra then [.itcAdd (pumpUrl 1) 2] else [])

theorem completionDate_latest_iff_testedPump :
    ∃ itp, testedPump.itpOf pumpItp = some itp ∧ testedPump.itpChecks itp.id ≠ [] ∧
      (∀ c ∈ testedPump.itpChecks itp.id,
        c.status = some "Completed" ∧ c.completionDatetime.isSome) ∧
      ∃ v date, siteProjectItp testedPump pumpItp = some v ∧ v.completionDate = some (some date) ∧
        IsGreatest (testedPump.completionTimes itp.id) date := by
  obtain ⟨itp, hitp⟩ : ∃ itp, testedPump.itpOf pumpItp = some itp :=
    Option.isSome_iff_exists.mp (by decide +kernel)
  have hid : (testedPump.itpOf pumpItp).map Itp.id = some 1 := by decide +kernel
  rw [hitp, Option.map_some, Option.some.injEq] at hid
  have hsome : testedPump.itpChecks itp.id ≠ [] := by
    rw [hid]
    decide +kernel
  have hall : ∀ c ∈ testedPump.itpChecks itp.id,
      c.status = some "Completed" ∧ c.completionDatetime = some 20 := by
    rw [hid]
    decide +kernel
  have hdates : ∀ c ∈ testedPump.itpChecks itp.id,
      c.status = some "Completed" ∧ c.completionDatetime.isSome := by
    intro c hc
    rw [(hall c hc).2]
    exact ⟨(hall c hc).1, rfl⟩
  refine ⟨itp, hitp, hsome, hdates, (completionDate_latest_iff hitp hsome hdates).mpr ?_⟩
  obtain ⟨last, hlast⟩ : ∃ last, testedPump.itpItcs itp.id = [last] := by
    rw [hid]
    exact List.length_eq_one_iff.mp (by decide +kernel)
  have hchecks : testedPump.itpChecks itp.id = checksOf testedPump.deliverableCheckMaps last.id := by
    rw [ItpDb.itpChecks_eq, hlast, List.flatMap_singleton]
  refine ⟨last, by rw [hlast, List.getLast?_singleton], hchecks ▸ hsome, ?_⟩
  intro c hc t ht
  rw [← hchecks] at hc
  rintro t' ⟨c', hc', ht'⟩
  -- all the times are the same
  rw [(hall c hc).2] at ht
  rw [(hall c' hc').2] at ht'
  exact le_of_eq (Option.some.inj (ht'.symm.trans ht))

/-- The page shows the time of the first check, and raises where the last ITC has no checks. -/
theorem completionDate_shows_earliest :
    ((slowPump false).itpChecks 1).map DeliverableCheckMap.completionDatetime = [some 20, some 30] ∧
    (siteProjectItp (slowPump false) pumpItp).map ItpView.completionDate = some (some (some 20)) ∧
    ((slowPump true).itpChecks 1).map DeliverableCheckMap.status =
      [some "Completed", some "Completed"] ∧
    (siteProjectItp (slowPump true) pumpItp).map ItpView.completionDate = some none := by
  decide +kernel

end Medusa
