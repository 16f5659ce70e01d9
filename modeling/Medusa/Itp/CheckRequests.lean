import Mathlib.Algebra.Order.Round
import Medusa.Itp.Generate

/-! The requests on the checks of an ITC: saving the ticks of a checklist, ticking
all of them, and editing or deleting one check. Only a POST writes, so that is
what is modelled; the deliverable of the URL is not used by the last two before
they redirect. -/

namespace Medusa

open Relational

namespace DeliverableCheckMap

def complete (user now : Nat) (c : DeliverableCheckMap) : DeliverableCheckMap :=
  { c with
    completionDatetime := some now
    completionByUserId := some user
    isDone := some true
    status := some "Completed" }

def uncomplete (c : DeliverableCheckMap) : DeliverableCheckMap :=
  { c with
    completionDatetime := none
    completionByUserId := none
    isDone := some false
    status := some "In Progress" }

def setNumber (number : Option Int) (c : DeliverableCheckMap) : DeliverableCheckMap :=
  { c with checkNumber := number }

def setStatus (status : String) (c : DeliverableCheckMap) : DeliverableCheckMap :=
  if status ≠ "" ∧ c.status ≠ some status ∧ c.isDone ≠ some true then
    { c with
      status := some status
      isDone := if status = "Completed" then some true else c.isDone }
  else c

@[simp] theorem complete_id (user now : Nat) (c : DeliverableCheckMap) :
    (c.complete user now).id = c.id := rfl

@[simp] theorem uncomplete_id (c : DeliverableCheckMap) : c.uncomplete.id = c.id := rfl

@[simp] theorem setNumber_id (number : Option Int) (c : DeliverableCheckMap) :
    (c.setNumber number).id = c.id := rfl

@[simp] theorem setStatus_id (status : String) (c : DeliverableCheckMap) :
    (c.setStatus status).id = c.id := by
  unfold setStatus
  split <;> rfl

@[simp] theorem setStatus_itc (status : String) (c : DeliverableCheckMap) :
    (c.setStatus status).deliverableItcMapId = c.deliverableItcMapId := by
  unfold setStatus
  split <;> rfl

theorem setStatus_setNumber (status : String) (number : Option Int) (c : DeliverableCheckMap) :
    (c.setNumber number).setStatus status = (c.setStatus status).setNumber number := by
  unfold setStatus setNumber
  split <;> rfl

/-- The row after `check_edit`. -/
def edit (status : String) (number : Option Int) (c : DeliverableCheckMap) : DeliverableCheckMap :=
  (c.setStatus status).setNumber number

@[simp] theorem edit_id (status : String) (number : Option Int) (c : DeliverableCheckMap) :
    (c.edit status number).id = c.id := setStatus_id status c

end DeliverableCheckMap

def DeliverableItcMap.setComments (comments : String) (m : DeliverableItcMap) : DeliverableItcMap :=
  { m with comments := some comments }

theorem DeliverableItcMap.setComments_id (comments : String) (m : DeliverableItcMap) :
    (m.setComments comments).id = m.id := rfl

def Itp.setPercentage (percentage : Int) (i : Itp) : Itp :=
  { i with percentageComplete := some percentage }

theorem Itp.setPercentage_id (percentage : Int) (i : Itp) : (i.setPercentage percentage).id = i.id :=
  rfl

/-- A value of `check_box`: the id that the database reads it as, and whether it
is written in the way in which Python writes that id. -/
structure Tick where
  id : Nat
  plain : Bool

/-- `check.ITC_check` is printed for each ticked check, so the check and its
template have to be there. -/
def ItpDb.printable (db : ItpDb) (c : DeliverableCheckMap) : Bool :=
  ((c.itcCheckId.bind db.itcCheckMaps.get?)).isSome

/-- The loop over the ticked checks, which commits each of them. It says as well
whether it came to its end; otherwise an exception ended the request. -/
def tickChecks (db : ItpDb) (user now : Nat) (t : DeliverableChecks) :
    List Tick → DeliverableChecks × Bool
  | [] => (t, true)
  | tick :: rest =>
    match t.get? tick.id with
    | none => (t, false)
    | some c =>
      if db.printable c then
        tickChecks db user now
          (t.update (fun c => c.id == tick.id && c.isDone != some true) (·.complete user now)
            (DeliverableCheckMap.complete_id user now)) rest
      else (t, false)

/-- The percentage of the ITCs of the project's first ITP whose stored percentage
is 100, rounded by the column's type. Without ITCs the division raises. -/
def siteProjectUpdate (db : ItpDb) (url : ItpUrl) : Option ItpDb := do
  let site ← db.sites.get? url.siteid
  let project ← db.projects.first? (fun p => p.id == url.projectid && p.siteId == some site.id)
  let itp ← db.itps.first? (fun i => i.projectId == some project.id)
  let deliverables := db.deliverables.rows.filter (fun d => d.itpId == some itp.id)
  let itcs := db.deliverableItcMaps.rows.filter (fun m =>
    decide (m.deliverableId ∈ deliverables.map (fun d => some d.id)))
  guard (itcs ≠ [])
  let total := (itcs.filter (fun m => m.percentageComplete == some 100)).length
  pure { db with
    itps := db.itps.update (fun i => i.id == itp.id)
      (Itp.setPercentage (round ((total : ℚ) / itcs.length * 100))) (Itp.setPercentage_id _) }

structure TickForm where
  checked : List Tick
  comments : String

theorem TickForm.setComments_id (form : TickForm) (m : DeliverableItcMap) :
    (m.setComments form.comments).id = m.id := rfl

/-- The checks that were done before and are not ticked any more. -/
def TickForm.unticked (form : TickForm) (completed : List DeliverableCheckMap)
    (c : DeliverableCheckMap) : Bool :=
  completed.any (fun c' => c'.id == c.id) && !form.checked.any (fun v => v.plain && v.id == c.id)

def itcChange (db : ItpDb) (url : DeliverableUrl) (itcid : Nat) (form : TickForm)
    (user now : Nat) : Option ItpDb := do
  let itc ← db.itcOf url itcid
  let completed := (checksOf db.deliverableCheckMaps itc.id).filter (fun c => c.isDone == some true)
  let ticked := tickChecks db user now db.deliverableCheckMaps form.checked
  let saved := { db with
    deliverableItcMaps := db.deliverableItcMaps.update (fun m => m.id == itc.id)
      (DeliverableItcMap.setComments form.comments) form.setComments_id
    -- after an exception only what was committed before it stays
    deliverableCheckMaps := ticked.1.update (fun c => ticked.2 && form.unticked completed c)
      DeliverableCheckMap.uncomplete DeliverableCheckMap.uncomplete_id }
  pure (if ticked.2 then (siteProjectUpdate saved url.toItpUrl).getD saved else saved)

def completeAllChecks (db : ItpDb) (url : DeliverableUrl) (itcid user now : Nat) :
    Option ItpDb := do
  let itc ← db.itcOf url itcid
  let saved := { db with
    deliverableCheckMaps := db.deliverableCheckMaps.update
      (fun c => c.deliverableItcMapId == some itc.id && c.isDone != some true)
      (·.complete user now) (DeliverableCheckMap.complete_id user now) }
  pure ((siteProjectUpdate saved url.toItpUrl).getD saved)

/-- The number that a row gets when another row, or the row itself, moves from
`old` to `target` in a list of `count` rows. Comparing with a missing number
raises, which is `none`. -/
def shiftNumber (count : Int) (old : Option Int) (target : Int) (number : Option Int) :
    Option (Option Int) :=
  if old = some target then some number
  else if count ≤ target then do
    let o ← old
    let n ← number
    pure (some (if o < n then n - 1 else n))
  else do
    let n ← number
    if target ≤ n then do
      let o ← old
      pure (some (if n < o then n + 1 else n))
    else pure (some n)

/-- Where the moved row lands. -/
def landing (count : Int) (old : Option Int) (target : Int) : Option Int :=
  if old = some target then old else some (min target count)

/-- A number is missing if the text is not one. The comment of the form is not
modelled: it is stored only where it is the comment already stored. -/
structure CheckForm where
  status : String
  number : Option Int

def checkEdit (db : ItpDb) (url : ItpUrl) (itcid checkid : Nat) (form : CheckForm) :
    Option ItpDb := do
  let _ ← db.itpOf url
  let itc ← db.deliverableItcMaps.get? itcid
  let check ← db.deliverableCheckMaps.get? checkid
  let target ← form.number
  let checks := checksOf db.deliverableCheckMaps itc.id
  let shift := shiftNumber checks.length check.checkNumber target
  guard (∀ c ∈ checks, (shift c.checkNumber).isSome = true)
  let shifted := db.deliverableCheckMaps.update (fun c => c.deliverableItcMapId == some itc.id)
    (fun c => c.setNumber ((shift c.checkNumber).getD c.checkNumber))
    (fun _ => DeliverableCheckMap.setNumber_id _ _)
  pure { db with
    deliverableCheckMaps := shifted.update (fun c => c.id == check.id)
      (·.edit form.status (landing checks.length check.checkNumber target))
      (DeliverableCheckMap.edit_id _ _) }

/-- The numbers above the deleted check are closed up, unless it was the last. -/
def gapAfter (count : Int) (number : Option Int) : Option Int :=
  number.filter (fun n => decide (n < count))

def closeUp (gap number : Option Int) : Option Int :=
  match gap with
  | none => number
  | some k => closeGap k number

theorem gapAfter_some (count n : Int) :
    gapAfter count (some n) = if n < count then some n else none := by
  simp [gapAfter, Option.filter_some]

/-- Delete a check and close the gap in the checklist of an ITC. -/
def removeCheck (t : DeliverableChecks) (itc : Nat) (check : DeliverableCheckMap) :
    DeliverableChecks :=
  (t.delete (fun c => c.id == check.id)).update (fun c => c.deliverableItcMapId == some itc)
    (fun c => c.setNumber
      (closeUp (gapAfter (checksOf t itc).length check.checkNumber) c.checkNumber))
    (fun _ => DeliverableCheckMap.setNumber_id _ _)

def checkDelete (db : ItpDb) (url : ItpUrl) (itcid checkid : Nat) : Option ItpDb := do
  let _ ← db.itpOf url
  let itc ← db.deliverableItcMaps.get? itcid
  let check ← db.deliverableCheckMaps.get? checkid
  let checks := checksOf db.deliverableCheckMaps itc.id
  -- the numbers of all of them are compared where there is a gap
  guard (gapAfter checks.length check.checkNumber = none ∨
    ∀ c ∈ checks, c.checkNumber.isSome = true)
  pure { db with deliverableCheckMaps := removeCheck db.deliverableCheckMaps itc.id check }

theorem checksOf_setNumber (t : DeliverableChecks) (p : DeliverableCheckMap → Bool)
    (number : DeliverableCheckMap → Option Int) (k : Nat) :
    checksOf (t.update p (fun c => c.setNumber (number c))
      (fun _ => DeliverableCheckMap.setNumber_id _ _)) k =
      (checksOf t k).map (fun c => if p c then c.setNumber (number c) else c) :=
  checksOf_update (f := fun c => c.setNumber (number c)) _ (fun _ => rfl) k

theorem siteProjectUpdate_cases {db db' : ItpDb} {url : ItpUrl}
    (h : siteProjectUpdate db url = some db') : ∃ itps, db' = { db with itps := itps } := by
  simp only [siteProjectUpdate, Option.bind_eq_bind, Option.bind_eq_some_iff, Option.pure_def,
    Option.some.injEq] at h
  obtain ⟨site, -, project, -, itp, -, -, -, rfl⟩ := h
  exact ⟨_, rfl⟩

theorem siteProjectUpdate_getD (db : ItpDb) (url : ItpUrl) :
    ∃ itps, (siteProjectUpdate db url).getD db = { db with itps := itps } := by
  cases h : siteProjectUpdate db url with
  | none => exact ⟨db.itps, rfl⟩
  | some db' => exact siteProjectUpdate_cases h

theorem tickChecks_keeps {P : DeliverableChecks → Prop} {db : ItpDb} {user now : Nat}
    (hstep : ∀ t id, P t → P (t.update (fun c => c.id == id && c.isDone != some true)
      (·.complete user now) (DeliverableCheckMap.complete_id user now)))
    {ticks : List Tick} {t : DeliverableChecks} (h : P t) :
    P (tickChecks db user now t ticks).1 := by
  induction ticks generalizing t with
  | nil => exact h
  | cons tick rest ih =>
    unfold tickChecks
    split
    · exact h
    · split
      · exact ih (hstep t tick.id h)
      · exact h

/-- What `ITC_change` leaves, apart from the percentage of the ITP. -/
theorem itcChange_cases {db db' : ItpDb} {url : DeliverableUrl} {itcid : Nat} {form : TickForm}
    {user now : Nat} (h : itcChange db url itcid form user now = some db') :
    ∃ itc itps completed, db.itcOf url itcid = some itc ∧
      completed = (checksOf db.deliverableCheckMaps itc.id).filter (fun c => c.isDone == some true) ∧
      db' = { db with
        itps := itps
        deliverableItcMaps := db.deliverableItcMaps.update (fun m => m.id == itc.id)
          (DeliverableItcMap.setComments form.comments) form.setComments_id
        deliverableCheckMaps :=
          (tickChecks db user now db.deliverableCheckMaps form.checked).1.update
            (fun c => (tickChecks db user now db.deliverableCheckMaps form.checked).2 &&
              form.unticked completed c)
            DeliverableCheckMap.uncomplete DeliverableCheckMap.uncomplete_id } := by
  simp only [itcChange, Option.bind_eq_bind, Option.bind_eq_some_iff, Option.pure_def,
    Option.some.injEq] at h
  obtain ⟨itc, hitc, rfl⟩ := h
  split
  · obtain ⟨itps, he⟩ := siteProjectUpdate_getD _ url.toItpUrl
    exact ⟨itc, itps, _, hitc, rfl, he⟩
  · exact ⟨itc, db.itps, _, hitc, rfl, rfl⟩

theorem completeAllChecks_cases {db db' : ItpDb} {url : DeliverableUrl} {itcid user now : Nat}
    (h : completeAllChecks db url itcid user now = some db') :
    ∃ itc itps, db.itcOf url itcid = some itc ∧ db' = { db with
      itps := itps
      deliverableCheckMaps := db.deliverableCheckMaps.update
        (fun c => c.deliverableItcMapId == some itc.id && c.isDone != some true)
        (·.complete user now) (DeliverableCheckMap.complete_id user now) } := by
  simp only [completeAllChecks, Option.bind_eq_bind, Option.bind_eq_some_iff, Option.pure_def,
    Option.some.injEq] at h
  obtain ⟨itc, hitc, rfl⟩ := h
  obtain ⟨itps, he⟩ := siteProjectUpdate_getD _ url.toItpUrl
  exact ⟨itc, itps, hitc, he⟩

end Medusa
