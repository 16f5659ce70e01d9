import Medusa.Itp.CheckRequests
import Medusa.Requests

/-! A check is stored as done in two columns, `is_done` and `status`. Every request
on checklists keeps them in agreement, and so the pages that count the completed
checks by either column show the same numbers. -/

namespace Medusa

open Relational

/-- The requests that write checks, with the user and the time where they matter. -/
inductive ChecklistRequest
  | deliverableNew (url : ItpUrl) (form : DeliverableForm) (now : Nat)
  | itcAdd (url : DeliverableUrl) (itcid : Nat)
  | startItcTesting (url : DeliverableUrl) (itcid : Nat)
  | itcChange (url : DeliverableUrl) (itcid : Nat) (form : TickForm) (user now : Nat)
  | completeAllChecks (url : DeliverableUrl) (itcid user now : Nat)
  | checkEdit (url : ItpUrl) (itcid checkid : Nat) (form : CheckForm)
  | checkDelete (url : ItpUrl) (itcid checkid : Nat)

def ChecklistRequest.commit (db : ItpDb) : ChecklistRequest → Option ItpDb
  | deliverableNew url form now => Medusa.deliverableNew db url form now
  | itcAdd url itcid => Medusa.itcAdd db url itcid
  | startItcTesting url itcid => Medusa.startItcTesting db url itcid
  | itcChange url itcid form user now => Medusa.itcChange db url itcid form user now
  | completeAllChecks url itcid user now => Medusa.completeAllChecks db url itcid user now
  | checkEdit url itcid checkid form => Medusa.checkEdit db url itcid checkid form
  | checkDelete url itcid checkid => Medusa.checkDelete db url itcid checkid

def runChecklist (db : ItpDb) (requests : List ChecklistRequest) : ItpDb :=
  serveAll ChecklistRequest.commit db requests

def DeliverableCheckMap.Agrees (c : DeliverableCheckMap) : Prop :=
  c.isDone = some true ↔ c.status = some "Completed"

instance (c : DeliverableCheckMap) : Decidable c.Agrees := by
  unfold DeliverableCheckMap.Agrees
  infer_instance

def CompletionAgrees (t : DeliverableChecks) : Prop := ∀ c ∈ t.rows, c.Agrees

instance (t : DeliverableChecks) : Decidable (CompletionAgrees t) :=
  inferInstanceAs (Decidable (∀ c ∈ t.rows, c.Agrees))

structure CheckTally where
  total : Nat
  completed : Nat
  inProgress : Nat
  notApplicable : Nat
  notStarted : Nat

def CheckTally.zero : CheckTally := ⟨0, 0, 0, 0, 0⟩

/-- The round of the loops that count by `status`. -/
def CheckTally.add (t : CheckTally) (c : DeliverableCheckMap) : CheckTally :=
  let t := { t with total := t.total + 1 }
  if c.status = some "Completed" then { t with completed := t.completed + 1 }
  else if c.status = some "In Progress" then { t with inProgress := t.inProgress + 1 }
  else if c.status = some "Not Applicable" then { t with notApplicable := t.notApplicable + 1 }
  else { t with notStarted := t.notStarted + 1 }

structure DoneTally where
  total : Nat
  completed : Nat

def DoneTally.zero : DoneTally := ⟨0, 0⟩

/-- The round of the loops that count by `is_done`. -/
def DoneTally.add (t : DoneTally) (c : DeliverableCheckMap) : DoneTally where
  total := t.total + 1
  completed := if c.isDone = some true then t.completed + 1 else t.completed

namespace ItpDb

/-- The checks in the order in which the loops over the ITCs of a deliverable, and
the checks of each, come to them. -/
def deliverableChecks (db : ItpDb) (deliverable : Nat) : List DeliverableCheckMap :=
  (itcsOf db.deliverableItcMaps deliverable).flatMap (fun m => checksOf db.deliverableCheckMaps m.id)

def deliverablesOf (db : ItpDb) (itp : Nat) : List Deliverable :=
  db.deliverables.rows.filter (fun d => d.itpId == some itp)

/-- `site_project_ITP_deliverable` -/
def deliverablePage (db : ItpDb) (deliverable : Nat) : CheckTally :=
  (db.deliverableChecks deliverable).foldl CheckTally.add CheckTally.zero

/-- A deliverable on the ITP page: its checks are counted for the ITP and for the
deliverable at once. -/
def itpPageRound (db : ItpDb) (counts : CheckTally × List (Nat × CheckTally)) (d : Deliverable) :
    CheckTally × List (Nat × CheckTally) :=
  let both := (db.deliverableChecks d.id).foldl
    (fun (t : CheckTally × CheckTally) c => (t.1.add c, t.2.add c)) (counts.1, CheckTally.zero)
  (both.1, counts.2 ++ [(d.id, both.2)])

/-- `site_project_ITP`: the counts of the ITP, and of each deliverable those that
its percentage is made of. -/
def itpPage (db : ItpDb) (itp : Nat) : CheckTally × List (Nat × CheckTally) :=
  (db.deliverablesOf itp).foldl db.itpPageRound (CheckTally.zero, [])

/-- `site_project`, which shows the first ITP of the project. -/
def projectPage (db : ItpDb) (project : Nat) : CheckTally :=
  match db.itps.first? (fun i => i.projectId == some project) with
  | none => CheckTally.zero
  | some itp => (db.deliverablesOf itp.id).foldl
      (fun t d => (db.deliverableChecks d.id).foldl CheckTally.add t) CheckTally.zero

/-- `site_project_ITP_deliverable_list` -/
def deliverableListPage (db : ItpDb) (deliverable : Nat) : DoneTally :=
  (db.deliverableChecks deliverable).foldl DoneTally.add DoneTally.zero

/-- `site_project_ITP_deliverable_ITC_list`, with a count for each ITC. -/
def itcListPage (db : ItpDb) (deliverable : Nat) : List DoneTally :=
  (itcsOf db.deliverableItcMaps deliverable).map (fun m =>
    (checksOf db.deliverableCheckMaps m.id).foldl DoneTally.add DoneTally.zero)

/-- `ITC_testing` -/
def itcPage (db : ItpDb) (itc : Nat) : DoneTally :=
  (checksOf db.deliverableCheckMaps itc).foldl DoneTally.add DoneTally.zero

/-- How many checks of a deliverable are done. -/
def doneCount (db : ItpDb) (deliverable : Nat) : Nat :=
  (db.deliverableChecks deliverable).countP (fun c => c.isDone == some true)

end ItpDb

theorem newCheck_agrees (itc check : Nat) (number : Int) (id : Nat) :
    (newCheck itc check number id).Agrees := by
  simp [DeliverableCheckMap.Agrees, newCheck]

theorem DeliverableCheckMap.setStatus_agrees (status : String) {c : DeliverableCheckMap}
    (h : c.Agrees) : (c.setStatus status).Agrees := by
  unfold DeliverableCheckMap.setStatus
  split
  · next hs =>
    -- a check that is not done yet becomes done exactly by the new status
    have hnot := hs.2.2
    by_cases hc : status = "Completed"
    · simp [DeliverableCheckMap.Agrees, hc]
    · simp [DeliverableCheckMap.Agrees, hc, hnot]
  · exact h

/-- A property of a check that every write of a checklist keeps or establishes, apart from
a new status. -/
structure CheckRule (P : DeliverableCheckMap → Prop) : Prop where
  newCheck : ∀ itc check number id, P (newCheck itc check number id)
  complete : ∀ c user now, P (DeliverableCheckMap.complete user now c)
  uncomplete : ∀ c, P (DeliverableCheckMap.uncomplete c)
  setNumber : ∀ c number, P (DeliverableCheckMap.setNumber number c) ↔ P c

/-- The check that the request gives a status, if it is there, meets `P` with it. -/
def ChecklistRequest.StatusMeets (P : DeliverableCheckMap → Prop) (db : ItpDb) :
    ChecklistRequest → Prop
  | checkEdit _ _ checkid form =>
    ∀ c, db.deliverableCheckMaps.get? checkid = some c → P (c.setStatus form.status)
  | _ => True

namespace CheckRule

variable {P : DeliverableCheckMap → Prop} (hP : CheckRule P)

include hP

theorem addCheck (itc : Nat) (t : DeliverableChecks) (check : ItcCheckMap)
    (h : ∀ c ∈ t.rows, P c) : ∀ c ∈ (Medusa.addCheck itc t check).rows, P c := by
  intro c hc
  rcases Table.mem_insert.mp hc with hc | rfl
  · exact h c hc
  · exact hP.newCheck _ _ _ _

theorem edit_iff (c : DeliverableCheckMap) (status : String) (number : Option Int) :
    P (c.edit status number) ↔ P (c.setStatus status) :=
  hP.setNumber _ _

theorem completed {t : DeliverableChecks} (h : ∀ c ∈ t.rows, P c)
    (p : DeliverableCheckMap → Bool) (user now : Nat) :
    ∀ c ∈ (t.update p (·.complete user now) (DeliverableCheckMap.complete_id user now)).rows, P c :=
  Table.forall_mem_update h (fun c _ _ => hP.complete c user now)

theorem uncompleted {t : DeliverableChecks} (h : ∀ c ∈ t.rows, P c)
    (p : DeliverableCheckMap → Bool) :
    ∀ c ∈ (t.update p DeliverableCheckMap.uncomplete DeliverableCheckMap.uncomplete_id).rows, P c :=
  Table.forall_mem_update h (fun c _ _ => hP.uncomplete c)

theorem setNumbers {t : DeliverableChecks} (h : ∀ c ∈ t.rows, P c)
    (p : DeliverableCheckMap → Bool) (number : DeliverableCheckMap → Option Int) :
    ∀ c ∈ (t.update p (fun c => c.setNumber (number c))
      (fun _ => DeliverableCheckMap.setNumber_id _ _)).rows, P c :=
  Table.forall_mem_update h (fun c hc _ => (hP.setNumber c _).mpr hc)

/-- A check among the checks with new numbers. -/
theorem numbered {t : DeliverableChecks} {check : DeliverableCheckMap} (hcheck : check ∈ t.rows)
    (p : DeliverableCheckMap → Bool) (number : DeliverableCheckMap → Option Int) :
    ∃ check' ∈ (t.update p (fun c => c.setNumber (number c))
      (fun _ => DeliverableCheckMap.setNumber_id _ _)).rows, check'.id = check.id ∧
        ∀ status, P (check'.setStatus status) ↔ P (check.setStatus status) := by
  refine ⟨_, Table.mem_update.mpr ⟨check, hcheck, rfl⟩, ?_⟩
  split
  · refine ⟨rfl, fun status => ?_⟩
    rw [DeliverableCheckMap.setStatus_setNumber]
    exact hP.setNumber _ _
  · exact ⟨rfl, fun _ => Iff.rfl⟩

/-- A request that commits keeps the property of all checks exactly if the check that it
gives a status meets it. -/
theorem commit_iff {db db' : ItpDb} (h : ∀ c ∈ db.deliverableCheckMaps.rows, P c)
    {r : ChecklistRequest} (hr : r.commit db = some db') :
    (∀ c ∈ db'.deliverableCheckMaps.rows, P c) ↔ r.StatusMeets P db := by
  cases r with
  | deliverableNew url form now => exact iff_of_true (deliverableNew_checks hP.addCheck hr h) trivial
  | itcAdd url itcid => exact iff_of_true (itcAdd_checks hP.addCheck hr h) trivial
  | startItcTesting url itcid =>
    refine iff_of_true (startItcTesting_checks hP.addCheck hr ?_) trivial
    exact fun itc c hc => h c (Table.mem_delete.mp hc).1
  | itcChange url itcid form user now =>
    obtain ⟨itc, itps, completed, -, -, rfl⟩ := itcChange_cases hr
    have hticked : ∀ c ∈ (tickChecks db user now db.deliverableCheckMaps form.checked).1.rows, P c :=
      tickChecks_keeps (P := fun t => ∀ c ∈ t.rows, P c)
        (fun t id ht => hP.completed ht _ user now) h
    exact iff_of_true (hP.uncompleted hticked _) trivial
  | completeAllChecks url itcid user now =>
    obtain ⟨itc, itps, -, rfl⟩ := completeAllChecks_cases hr
    exact iff_of_true (hP.completed h _ user now) trivial
  | checkEdit url itcid checkid form =>
    simp only [ChecklistRequest.commit, Medusa.checkEdit, Option.bind_eq_bind,
      Option.bind_eq_some_iff, Option.pure_def, Option.some.injEq] at hr
    obtain ⟨itp, -, itc, -, check, hcheck, target, -, -, -, rfl⟩ := hr
    -- the numbers are shifted first, in the edited check as in the others
    have hshifted := hP.setNumbers h (fun c => c.deliverableItcMapId == some itc.id)
      (fun c => (shiftNumber (checksOf db.deliverableCheckMaps itc.id).length check.checkNumber
        target c.checkNumber).getD c.checkNumber)
    simp only [ChecklistRequest.StatusMeets, hcheck, Option.some.injEq, forall_eq']
    obtain ⟨check', hcheck', hid, hstatus⟩ := hP.numbered (Table.get?_eq_some.mp hcheck).1
      (fun c => c.deliverableItcMapId == some itc.id)
      (fun c => (shiftNumber (checksOf db.deliverableCheckMaps itc.id).length check.checkNumber
        target c.checkNumber).getD c.checkNumber)
    rw [← hid, ← hstatus form.status, ← hP.edit_iff]
    exact Table.forall_mem_update_key_iff hshifted hcheck' (DeliverableCheckMap.edit_id _ _)
  | checkDelete url itcid checkid =>
    simp only [ChecklistRequest.commit, Medusa.checkDelete, Option.bind_eq_bind,
      Option.bind_eq_some_iff, Option.pure_def, Option.some.injEq] at hr
    obtain ⟨itp, -, itc, -, check, -, -, -, rfl⟩ := hr
    have hleft : ∀ c ∈ (db.deliverableCheckMaps.delete (fun c => c.id == check.id)).rows, P c :=
      fun c hc => h c (Table.mem_delete.mp hc).1
    exact iff_of_true (hP.setNumbers hleft _ _) trivial

end CheckRule

theorem DeliverableCheckMap.agrees_rule : CheckRule DeliverableCheckMap.Agrees where
  newCheck := newCheck_agrees
  complete c user now := by simp [Agrees, DeliverableCheckMap.complete]
  uncomplete c := by simp [Agrees, DeliverableCheckMap.uncomplete]
  setNumber c number := Iff.rfl

namespace CompletionAgrees

theorem request {db db' : ItpDb} (h : CompletionAgrees db.deliverableCheckMaps)
    {r : ChecklistRequest} (hr : r.commit db = some db') :
    CompletionAgrees db'.deliverableCheckMaps := by
  refine (DeliverableCheckMap.agrees_rule.commit_iff h hr).mpr ?_
  cases r with
  | checkEdit url itcid checkid form =>
    intro c hc
    exact DeliverableCheckMap.setStatus_agrees form.status (h c (Table.get?_eq_some.mp hc).1)
  | _ => trivial

theorem run {db : ItpDb} (h : CompletionAgrees db.deliverableCheckMaps)
    (requests : List ChecklistRequest) :
    CompletionAgrees (runChecklist db requests).deliverableCheckMaps :=
  serveAll_keeps (P := fun db => CompletionAgrees db.deliverableCheckMaps)
    (fun hr h => request h hr) requests h

end CompletionAgrees

theorem CheckTally.foldl_completed (l : List DeliverableCheckMap) (t : CheckTally) :
    (l.foldl CheckTally.add t).completed =
      t.completed + l.countP (fun c => c.status == some "Completed") := by
  induction l generalizing t with
  | nil => rfl
  | cons c rest ih =>
    rw [List.foldl_cons, ih, List.countP_cons]
    by_cases hc : c.status = some "Completed"
    · simp [CheckTally.add, hc]
      omega
    · simp only [CheckTally.add, hc, if_false, beq_iff_eq]
      split
      · simp
      · split <;> simp

theorem DoneTally.foldl_completed (l : List DeliverableCheckMap) (t : DoneTally) :
    (l.foldl DoneTally.add t).completed =
      t.completed + l.countP (fun c => c.isDone == some true) := by
  induction l generalizing t with
  | nil => rfl
  | cons c rest ih =>
    rw [List.foldl_cons, ih, List.countP_cons]
    by_cases hc : c.isDone = some true
    · simp [DoneTally.add, hc]
      omega
    · simp [DoneTally.add, hc]

theorem DoneTally.foldl_total (l : List DeliverableCheckMap) (t : DoneTally) :
    (l.foldl DoneTally.add t).total = t.total + l.length := by
  induction l generalizing t with
  | nil => rfl
  | cons c rest ih =>
    rw [List.foldl_cons, ih, List.length_cons]
    simp only [DoneTally.add]
    omega

theorem CheckTally.foldl_total (l : List DeliverableCheckMap) (t : CheckTally) :
    (l.foldl CheckTally.add t).total = t.total + l.length := by
  induction l generalizing t with
  | nil => rfl
  | cons c rest ih =>
    have hadd : (t.add c).total = t.total + 1 := by
      unfold CheckTally.add
      split
      · rfl
      · split
        · rfl
        · split <;> rfl
    rw [List.foldl_cons, ih, List.length_cons, hadd]
    omega

theorem foldl_both (l : List DeliverableCheckMap) (t t' : CheckTally) :
    l.foldl (fun (t : CheckTally × CheckTally) c => (t.1.add c, t.2.add c)) (t, t') =
      (l.foldl CheckTally.add t, l.foldl CheckTally.add t') := by
  induction l generalizing t t' with
  | nil => rfl
  | cons c rest ih => exact ih _ _

namespace ItpDb

variable {db : ItpDb}

theorem mem_deliverableChecks {d : Nat} {c : DeliverableCheckMap} (h : c ∈ db.deliverableChecks d) :
    c ∈ db.deliverableCheckMaps.rows := by
  obtain ⟨m, -, hc⟩ := List.mem_flatMap.mp h
  exact (mem_checksOf.mp hc).1

theorem countP_status {d : Nat} (h : ∀ c ∈ db.deliverableChecks d, c.Agrees) :
    (db.deliverableChecks d).countP (fun c => c.status == some "Completed") = db.doneCount d := by
  apply List.countP_congr
  intro c hc
  have hagrees := h c hc
  simpa using hagrees.symm

theorem deliverablePage_completed {d : Nat} (h : ∀ c ∈ db.deliverableChecks d, c.Agrees) :
    (db.deliverablePage d).completed = db.doneCount d := by
  unfold deliverablePage
  rw [CheckTally.foldl_completed, countP_status h]
  exact Nat.zero_add _

theorem deliverablePage_total (d : Nat) :
    (db.deliverablePage d).total = (db.deliverableChecks d).length :=
  (CheckTally.foldl_total _ _).trans (Nat.zero_add _)

theorem deliverableListPage_completed (d : Nat) :
    (db.deliverableListPage d).completed = db.doneCount d :=
  (DoneTally.foldl_completed _ _).trans (Nat.zero_add _)

theorem deliverableListPage_total (d : Nat) :
    (db.deliverableListPage d).total = (db.deliverableChecks d).length :=
  (DoneTally.foldl_total _ _).trans (Nat.zero_add _)

theorem foldl_deliverables_completed (h : CompletionAgrees db.deliverableCheckMaps)
    (l : List Deliverable) (t : CheckTally) :
    (l.foldl (fun t d => (db.deliverableChecks d.id).foldl CheckTally.add t) t).completed =
      t.completed + (l.map (fun d => db.doneCount d.id)).sum := by
  induction l generalizing t with
  | nil => rfl
  | cons d rest ih =>
    have hd : ∀ c ∈ db.deliverableChecks d.id, c.Agrees :=
      fun c hc => h c (mem_deliverableChecks hc)
    rw [List.foldl_cons, ih, CheckTally.foldl_completed, countP_status hd, List.map_cons,
      List.sum_cons, Nat.add_assoc]

theorem itpPage_eq (itp : Nat) :
    db.itpPage itp =
      ((db.deliverablesOf itp).foldl
        (fun t d => (db.deliverableChecks d.id).foldl CheckTally.add t) CheckTally.zero,
        (db.deliverablesOf itp).map (fun d => (d.id, db.deliverablePage d.id))) := by
  have hloop : ∀ (l : List Deliverable) (t : CheckTally) (shown : List (Nat × CheckTally)),
      l.foldl db.itpPageRound (t, shown) =
        (l.foldl (fun t d => (db.deliverableChecks d.id).foldl CheckTally.add t) t,
          shown ++ l.map (fun d => (d.id, db.deliverablePage d.id))) := by
    intro l
    induction l with
    | nil => simp
    | cons d rest ih =>
      intro t shown
      rw [List.foldl_cons, itpPageRound, foldl_both, ih]
      simp [deliverablePage]
  have hh := hloop (db.deliverablesOf itp) CheckTally.zero []
  rw [List.nil_append] at hh
  exact hh

theorem sum_itcList (d : Nat) :
    ((db.itcListPage d).map DoneTally.completed).sum = db.doneCount d := by
  unfold doneCount deliverableChecks itcListPage
  rw [List.countP_flatMap, List.map_map]
  congr 1
  apply List.map_congr_left
  intro m _
  simp [DoneTally.foldl_completed, DoneTally.zero]

/-- Every page that counts the completed checks of a deliverable by `status` shows
the number that every page which counts by `is_done` shows. -/
structure CountsAgree (db : ItpDb) : Prop where
  deliverable : ∀ d, (db.deliverablePage d).completed = (db.deliverableListPage d).completed
  itcList : ∀ d, (db.deliverablePage d).completed =
    ((db.itcListPage d).map DoneTally.completed).sum
  itcPages : ∀ d, (db.deliverablePage d).completed =
    ((itcsOf db.deliverableItcMaps d).map (fun m => (db.itcPage m.id).completed)).sum
  itpDeliverables : ∀ itp, (db.itpPage itp).2.map (fun shown => (shown.1, shown.2.completed)) =
    (db.deliverablesOf itp).map (fun d => (d.id, (db.deliverableListPage d.id).completed))
  itp : ∀ itp, (db.itpPage itp).1.completed =
    ((db.deliverablesOf itp).map (fun d => (db.deliverableListPage d.id).completed)).sum
  project : ∀ project itp, db.itps.first? (fun i => i.projectId == some project) = some itp →
    (db.projectPage project).completed =
      ((db.deliverablesOf itp.id).map (fun d => (db.deliverableListPage d.id).completed)).sum

theorem countsAgree (h : CompletionAgrees db.deliverableCheckMaps) : db.CountsAgree := by
  have hpage : ∀ d, (db.deliverablePage d).completed = db.doneCount d := by
    intro d
    exact deliverablePage_completed (fun c hc => h c (mem_deliverableChecks hc))
  have hlist : ∀ d, (db.deliverableListPage d).completed = db.doneCount d :=
    deliverableListPage_completed
  have hsum : ∀ l : List Deliverable,
      (l.foldl (fun t d => (db.deliverableChecks d.id).foldl CheckTally.add t)
        CheckTally.zero).completed =
        (l.map (fun d => (db.deliverableListPage d.id).completed)).sum := by
    intro l
    rw [foldl_deliverables_completed h]
    simp only [hlist]
    exact Nat.zero_add _
  refine ⟨?_, ?_, ?_, ?_, ?_, ?_⟩
  · exact fun d => (hpage d).trans (hlist d).symm
  · exact fun d => (hpage d).trans (sum_itcList d).symm
  · intro d
    have hitcs := @sum_itcList db d
    rw [itcListPage, List.map_map] at hitcs
    exact (hpage d).trans hitcs.symm
  · intro itp
    rw [itpPage_eq, List.map_map]
    apply List.map_congr_left
    intro d _
    simp [hpage, hlist]
  · intro itp
    rw [itpPage_eq]
    exact hsum _
  · intro project itp hitp
    unfold projectPage
    rw [hitp]
    exact hsum _

end ItpDb

/-- Along every run of requests on checklists a check is done exactly if its status
is 'Completed', and all pages agree on how many checks are completed. -/
theorem runChecklist_completion_agrees (db : ItpDb) (requests : List ChecklistRequest)
    (h : CompletionAgrees db.deliverableCheckMaps) :
    (∀ c ∈ (runChecklist db requests).deliverableCheckMaps.rows,
      c.isDone = some true ↔ c.status = some "Completed") ∧
    (runChecklist db requests).CountsAgree :=
  ⟨h.run requests, ItpDb.countsAgree (h.run requests)⟩

/-- A pump with two checks, of which one is ticked and the other one is edited. -/
def pumpRun : List ChecklistRequest :=
  [.deliverableNew pumpItp (pumpForm "pump 1") 10,
    .itcChange (pumpUrl 1) 1 ⟨[⟨1, true⟩], ""⟩ 7 20,
    .checkEdit pumpItp 1 2 ⟨"Completed", some 1⟩]

theorem runChecklist_completion_agrees_pumpRun :
    CompletionAgrees pumpProject.deliverableCheckMaps ∧
    ((runChecklist pumpProject pumpRun).deliverablePage 1).completed = 2 ∧
    (runChecklist pumpProject pumpRun).CountsAgree :=
  ⟨by decide, by decide +kernel,
    (runChecklist_completion_agrees pumpProject pumpRun (by decide)).2⟩

end Medusa
