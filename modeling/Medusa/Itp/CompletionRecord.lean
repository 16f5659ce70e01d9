import Medusa.Itp.Completion

/-! When and by whom a check was completed. The reports and the page of the ITP read both
of a check that is done without asking whether they are there. -/

namespace Medusa

open Relational

namespace DeliverableCheckMap

/-- What a row of the report shows of the completion, which is nothing for a check that is
not done. To format a missing date or to read the name of a missing user raises. -/
def reportRow (c : DeliverableCheckMap) : Option (Option (Nat × Nat)) :=
  if c.isDone = some true then do
    let date ← c.completionDatetime
    let user ← c.completionByUserId
    pure (some (date, user))
  else pure none

/-- The date and the user are stored exactly with the completion. -/
structure Recorded (c : DeliverableCheckMap) : Prop where
  done : c.isDone = some true → c.completionDatetime.isSome ∧ c.completionByUserId.isSome
  undone : c.isDone = some false → c.completionDatetime = none ∧ c.completionByUserId = none

theorem Recorded.reportRow_isSome {c : DeliverableCheckMap} (h : c.Recorded) :
    c.reportRow.isSome := by
  unfold reportRow
  split
  · next hdone =>
    obtain ⟨hdate, huser⟩ := h.done hdone
    obtain ⟨date, hdate⟩ := Option.isSome_iff_exists.mp hdate
    obtain ⟨user, huser⟩ := Option.isSome_iff_exists.mp huser
    simp [hdate, huser]
  · rfl

theorem recorded_rule : CheckRule Recorded where
  newCheck _ _ _ _ := ⟨fun h => by simp [newCheck] at h, fun _ => ⟨rfl, rfl⟩⟩
  complete _ _ _ := ⟨fun _ => ⟨rfl, rfl⟩, fun h => by simp [complete] at h⟩
  uncomplete _ := ⟨fun h => by simp [uncomplete] at h, fun _ => ⟨rfl, rfl⟩⟩
  setNumber _ _ := ⟨fun h => ⟨h.done, h.undone⟩, fun h => ⟨h.done, h.undone⟩⟩

/-- A new status makes a check done without a date and a user. -/
theorem recorded_setStatus_iff {c : DeliverableCheckMap} (h : c.Recorded) (status : String) :
    (c.setStatus status).Recorded ↔
      ¬ (status = "Completed" ∧ c.isDone ≠ some true ∧ c.status ≠ some "Completed" ∧
        (c.completionDatetime = none ∨ c.completionByUserId = none)) := by
  unfold setStatus
  by_cases hs : status = "Completed"
  · subst hs
    split
    · next hnew =>
      constructor
      · rintro hrec ⟨-, -, -, hmissing⟩
        obtain ⟨hdate, huser⟩ := hrec.done rfl
        rcases hmissing with hnone | hnone
        · simp [hnone] at hdate
        · simp [hnone] at huser
      · intro hnot
        refine ⟨fun _ => ?_, fun hfalse => by simp at hfalse⟩
        have hboth : ¬ (c.completionDatetime = none ∨ c.completionByUserId = none) :=
          fun hmissing => hnot ⟨rfl, hnew.2.2, hnew.2.1, hmissing⟩
        rw [not_or] at hboth
        exact ⟨Option.isSome_iff_ne_none.mpr hboth.1, Option.isSome_iff_ne_none.mpr hboth.2⟩
    · next hold =>
      refine iff_of_true h ?_
      rintro ⟨-, hdone, hstatus, -⟩
      exact hold ⟨by decide, hstatus, hdone⟩
  · refine iff_of_true ?_ (fun hnew => hs hnew.1)
    split
    · exact ⟨h.done, h.undone⟩
    · exact h

end DeliverableCheckMap

structure ItpDb.CompletionRecorded (db : ItpDb) : Prop where
  checks : ∀ c ∈ db.deliverableCheckMaps.rows, c.Recorded
  report : ∀ c ∈ db.deliverableCheckMaps.rows, c.reportRow.isSome

theorem ItpDb.completionRecorded_iff {db : ItpDb} :
    db.CompletionRecorded ↔ ∀ c ∈ db.deliverableCheckMaps.rows, c.Recorded :=
  ⟨fun h => h.checks, fun h => ⟨h, fun c hc => (h c hc).reportRow_isSome⟩⟩

/-- What `check_edit` asks of a request before it writes. -/
def ItpDb.AcceptsEdit (db : ItpDb) (url : ItpUrl) (itcid : Nat) (check : DeliverableCheckMap)
    (form : CheckForm) : Prop :=
  (db.itpOf url).isSome ∧ ∃ itc target, db.deliverableItcMaps.get? itcid = some itc ∧
    form.number = some target ∧ ∀ c ∈ checksOf db.deliverableCheckMaps itc.id,
      (shiftNumber (checksOf db.deliverableCheckMaps itc.id).length check.checkNumber target
        c.checkNumber).isSome = true

/-- An edit that is accepted and gives the status 'Completed' to a check that is not done and
has no date or no user. -/
def ChecklistRequest.CompletesByEdit (db : ItpDb) : ChecklistRequest → Prop
  | checkEdit url itcid checkid form =>
    form.status = "Completed" ∧ ∃ check, db.deliverableCheckMaps.get? checkid = some check ∧
      db.AcceptsEdit url itcid check form ∧ check.isDone ≠ some true ∧
      check.status ≠ some "Completed" ∧
      (check.completionDatetime = none ∨ check.completionByUserId = none)
  | _ => False

theorem checkEdit_isSome_iff {db : ItpDb} {url : ItpUrl} {itcid checkid : Nat} {form : CheckForm} :
    (checkEdit db url itcid checkid form).isSome ↔
      ∃ check, db.deliverableCheckMaps.get? checkid = some check ∧
        db.AcceptsEdit url itcid check form := by
  simp only [checkEdit, ItpDb.AcceptsEdit, Option.isSome_iff_exists, Option.bind_eq_bind,
    Option.bind_eq_some_iff, guard_eq_some]
  constructor
  · rintro ⟨db', itp, hitp, itc, hitc, check, hcheck, target, htarget, -, hshift, -⟩
    exact ⟨check, hcheck, ⟨itp, hitp⟩, itc, target, hitc, htarget, hshift⟩
  · rintro ⟨check, hcheck, ⟨itp, hitp⟩, itc, target, hitc, htarget, hshift⟩
    exact ⟨_, itp, hitp, itc, hitc, check, hcheck, target, htarget, (), hshift, rfl⟩

theorem ChecklistRequest.serve_recorded_iff (db : ItpDb) (r : ChecklistRequest)
    (h : db.CompletionRecorded) :
    (serve ChecklistRequest.commit db r).CompletionRecorded ↔ ¬ r.CompletesByEdit db := by
  refine serve_iff h ?_ ?_
  · intro hnone
    cases r with
    | checkEdit url itcid checkid form =>
      rintro ⟨-, check, hcheck, haccepts, -⟩
      have hsome := checkEdit_isSome_iff.mpr ⟨check, hcheck, haccepts⟩
      simp only [commit] at hnone
      simp [hnone] at hsome
    | _ => exact fun hedit => hedit
  · intro db' hr
    rw [ItpDb.completionRecorded_iff, DeliverableCheckMap.recorded_rule.commit_iff h.checks hr]
    cases r with
    | checkEdit url itcid checkid form =>
      obtain ⟨check, hcheck, haccepts⟩ := checkEdit_isSome_iff.mp (Option.isSome_of_eq_some hr)
      have hrec := h.checks check (Table.get?_eq_some.mp hcheck).1
      simp only [StatusMeets, CompletesByEdit, hcheck, Option.some.injEq, forall_eq',
        exists_eq_left', DeliverableCheckMap.recorded_setStatus_iff hrec, haccepts, true_and]
    | _ => exact iff_of_true trivial (fun hedit => hedit)

/-- Along a run of requests on checklists the date and the user of every completion are
recorded, and the report can show them, exactly if no check is completed by an edit. -/
theorem runChecklist_recorded_iff {db : ItpDb} (h : db.CompletionRecorded)
    (requests : List ChecklistRequest) :
    (∀ pre post, requests = pre ++ post → (runChecklist db pre).CompletionRecorded) ↔
      ∀ pre r post, requests = pre ++ r :: post → ¬ r.CompletesByEdit (runChecklist db pre) :=
  serveAll_good_iff ChecklistRequest.serve_recorded_iff requests h

theorem pumpProject_completionRecorded : pumpProject.CompletionRecorded :=
  ⟨fun _ hc => absurd hc List.not_mem_nil, fun _ hc => absurd hc List.not_mem_nil⟩

def pumpTicks : List ChecklistRequest :=
  [.deliverableNew pumpItp (pumpForm "pump 1") 10,
    .itcChange (pumpUrl 1) 1 ⟨[⟨1, true⟩], ""⟩ 7 20,
    .checkEdit pumpItp 1 2 ⟨"Not Applicable", some 1⟩]

theorem runChecklist_recorded_iff_pumpTicks :
    pumpProject.CompletionRecorded ∧
    (runChecklist pumpProject pumpTicks).deliverableCheckMaps.rows.map
      DeliverableCheckMap.reportRow = [some (some (20, 7)), some none] ∧
    (runChecklist pumpProject pumpTicks).CompletionRecorded := by
  refine ⟨pumpProject_completionRecorded, by decide +kernel, ?_⟩
  refine (runChecklist_recorded_iff pumpProject_completionRecorded pumpTicks).mpr ?_ pumpTicks []
    (List.append_nil _).symm
  simp only [pumpTicks, forall_split_cons, forall_split_nil, ChecklistRequest.CompletesByEdit]
  simp

/-- The second check is completed by an edit. It is done then, and the report fails at it. -/
theorem checkEdit_records_nothing :
    pumpProject.CompletionRecorded ∧
    (runChecklist pumpProject pumpRun).deliverableCheckMaps.rows.map (fun c =>
      (c.isDone, c.completionDatetime, c.completionByUserId)) =
        [(some true, some 20, some 7), (some true, none, none)] ∧
    (runChecklist pumpProject pumpRun).deliverableCheckMaps.rows.map
      DeliverableCheckMap.reportRow = [some (some (20, 7)), none] ∧
    ¬ (runChecklist pumpProject pumpRun).CompletionRecorded := by
  have hrows : (runChecklist pumpProject pumpRun).deliverableCheckMaps.rows.map
      DeliverableCheckMap.reportRow = [some (some (20, 7)), none] := by decide +kernel
  refine ⟨pumpProject_completionRecorded, by decide +kernel, hrows, ?_⟩
  intro h
  have hmem : none ∈ (runChecklist pumpProject pumpRun).deliverableCheckMaps.rows.map
      DeliverableCheckMap.reportRow := by simp [hrows]
  obtain ⟨c, hc, hnone⟩ := List.mem_map.mp hmem
  have hsome := h.report c hc
  simp [hnone] at hsome

end Medusa
