import Medusa.Itp.ItpPage

/-! The completion date of a deliverable. The page of the deliverable stores the time of the
view when it finds it complete for the first time, and a blank in every other case. What
becomes of a blank in a column of dates is up to the mode of the database. -/

namespace Medusa

open Relational

/-- In strict mode the blank is refused, so that the commit raises. Otherwise it is stored as
the date 0, which the driver reads back as no date. -/
inductive SqlMode
  | strict
  | permissive
deriving DecidableEq

def Deliverable.view (percentage : ℚ) (completionDate : Option Nat) (d : Deliverable) :
    Deliverable :=
  { d with percentageComplete := some (round percentage), completionDate := completionDate }

theorem Deliverable.view_id (percentage : ℚ) (completionDate : Option Nat) (d : Deliverable) :
    (d.view percentage completionDate).id = d.id := rfl

def ItpDb.viewDeliverable (db : ItpDb) (d : Deliverable) (completionDate : Option Nat) : ItpDb :=
  { db with
    deliverables := db.deliverables.update (fun d' => d'.id == d.id)
      (Deliverable.view (db.deliverablePage d.id).percent completionDate)
      (Deliverable.view_id _ _) }

def siteProjectItpDeliverable (mode : SqlMode) (db : ItpDb) (url : DeliverableUrl) (now : Nat) :
    Option ItpDb := do
  let d ← db.deliverableOf url
  if (db.deliverablePage d.id).percent = 100 ∧ d.completionDate = none then
    pure (db.viewDeliverable d (some now))
  else
    match mode with
    | .strict => none
    | .permissive => pure (db.viewDeliverable d none)

/-- What happens to the deliverable: its page is viewed, or a request leaves other ITCs and
checks. -/
inductive DeliverableEvent
  | view (now : Nat)
  | change (itcs : DeliverableItcs) (checks : DeliverableChecks)

namespace ItpDb

def DeliverableComplete (db : ItpDb) (deliverable : Nat) : Prop :=
  db.deliverableChecks deliverable ≠ [] ∧
    ∀ c ∈ db.deliverableChecks deliverable, c.status = some "Completed"

instance (db : ItpDb) (deliverable : Nat) : Decidable (db.DeliverableComplete deliverable) :=
  inferInstanceAs (Decidable (_ ∧ _))

theorem deliverablePage_percent_eq_hundred_iff (db : ItpDb) (deliverable : Nat) :
    (db.deliverablePage deliverable).percent = 100 ↔ db.DeliverableComplete deliverable :=
  CheckTally.percent_eq_hundred_iff

def completionDateOf (db : ItpDb) (url : DeliverableUrl) : Option Nat :=
  (db.deliverableOf url).bind Deliverable.completionDate

end ItpDb

/-- The database and what the views should lead to. While the deliverable is complete,
`since` is the time of the first view since it became complete, if there was one. The date
that the last view should have left is `due`. -/
structure Watch where
  db : ItpDb
  since : Option (Option Nat)
  due : Option Nat

namespace Watch

def start (db : ItpDb) (url : DeliverableUrl) : Watch :=
  ⟨db, if db.DeliverableComplete url.deliverableid then some none else none, none⟩

def firstView (w : Watch) (now : Nat) : Option (Option Nat) := w.since.map (·.or (some now))

def step (mode : SqlMode) (url : DeliverableUrl) (w : Watch) : DeliverableEvent → Watch
  | .view now => ⟨(siteProjectItpDeliverable mode w.db url now).getD w.db, w.firstView now,
      (w.firstView now).join⟩
  | .change itcs checks =>
    let db := { w.db with deliverableItcMaps := itcs, deliverableCheckMaps := checks }
    ⟨db, if db.DeliverableComplete url.deliverableid then some w.since.join else none, w.due⟩

def run (mode : SqlMode) (url : DeliverableUrl) (db : ItpDb) (events : List DeliverableEvent) :
    Watch :=
  events.foldl (step mode url) (start db url)

def DateRight (url : DeliverableUrl) (w : Watch) : Prop := w.db.completionDateOf url = w.due

/-- The view stores the right date: without strict mode, the deliverable is not complete or has
no date yet. In strict mode, it has no date yet, or it has been complete ever since the view
that stored the date. -/
def ViewSafe (mode : SqlMode) (url : DeliverableUrl) (w : Watch) : DeliverableEvent → Prop
  | .view now =>
    match mode with
    | .permissive => w.db.DeliverableComplete url.deliverableid → w.db.completionDateOf url = none
    | .strict => w.db.completionDateOf url = none ∨
        w.firstView now = some (w.db.completionDateOf url)
  | .change _ _ => True

instance (mode : SqlMode) (url : DeliverableUrl) (w : Watch) (event : DeliverableEvent) :
    Decidable (w.ViewSafe mode url event) := by
  cases event <;> cases mode <;> unfold ViewSafe <;> infer_instance

structure Sound (url : DeliverableUrl) (w : Watch) : Prop where
  found : (w.db.deliverableOf url).isSome
  complete : w.since.isSome ↔ w.db.DeliverableComplete url.deliverableid
  viewed : ∀ t, w.since = some (some t) → w.due = some t

end Watch

theorem ItpDb.deliverableOf_viewDeliverable {db : ItpDb} {url : DeliverableUrl} {d : Deliverable}
    (hd : db.deliverableOf url = some d) (completionDate : Option Nat) :
    (db.viewDeliverable d completionDate).deliverableOf url =
      some (d.view (db.deliverablePage d.id).percent completionDate) := by
  simp only [deliverableOf, Option.bind_eq_bind, Option.bind_eq_some_iff] at hd ⊢
  obtain ⟨itp, hitp, hrow⟩ := hd
  refine ⟨itp, hitp, ?_⟩
  have hupdate := Table.first?_update (t := db.deliverables) (p := fun d' => d'.id == d.id)
    (q := fun d => d.id == url.deliverableid && d.itpId == some itp.id)
    (Deliverable.view_id (db.deliverablePage d.id).percent completionDate) (fun _ => rfl)
  rw [hrow, Option.map_some, if_pos (beq_self_eq_true _)] at hupdate
  exact hupdate

def SqlMode.dateAfter (mode : SqlMode) (complete : Bool) (date : Option Nat) (now : Nat) :
    Option Nat :=
  if complete ∧ date = none then some now
  else match mode with
    | .strict => date
    | .permissive => none

theorem view_spec (mode : SqlMode) {db : ItpDb} {url : DeliverableUrl}
    (hfound : (db.deliverableOf url).isSome) (now : Nat) :
    ∃ db', (siteProjectItpDeliverable mode db url now).getD db = db' ∧
      (db'.deliverableOf url).isSome ∧ db'.deliverableChecks = db.deliverableChecks ∧
      db'.completionDateOf url =
        mode.dateAfter (decide (db.DeliverableComplete url.deliverableid)) (db.completionDateOf url)
          now := by
  obtain ⟨d, hd⟩ := Option.isSome_iff_exists.mp hfound
  have hid : d.id = url.deliverableid := ItpDb.id_of_deliverableOf hd
  have hdate : db.completionDateOf url = d.completionDate := by
    rw [ItpDb.completionDateOf, hd, Option.bind_some]
  have hview : ∀ date, ((db.viewDeliverable d date).deliverableOf url).isSome ∧
      (db.viewDeliverable d date).deliverableChecks = db.deliverableChecks ∧
      (db.viewDeliverable d date).completionDateOf url = date := by
    intro date
    have hrow := ItpDb.deliverableOf_viewDeliverable hd date
    refine ⟨by rw [hrow, Option.isSome_some], rfl, ?_⟩
    rw [ItpDb.completionDateOf, hrow]
    rfl
  simp only [siteProjectItpDeliverable, hd, Option.bind_eq_bind, Option.bind_some,
    db.deliverablePage_percent_eq_hundred_iff, hid, SqlMode.dateAfter, hdate, decide_eq_true_eq]
  split
  · exact ⟨_, rfl, hview _⟩
  · cases mode with
    | strict => exact ⟨db, rfl, hfound, rfl, hdate⟩
    | permissive => exact ⟨_, rfl, hview _⟩

namespace Watch

variable {mode : SqlMode} {url : DeliverableUrl}

theorem Sound.step {w : Watch} (h : w.Sound url) (event : DeliverableEvent) :
    (w.step mode url event).Sound url := by
  cases event with
  | view now =>
    obtain ⟨db', hdb', hfound, hchecks, -⟩ := view_spec mode h.found now
    refine ⟨?_, ?_, ?_⟩
    · rw [← hdb'] at hfound
      exact hfound
    · rw [Watch.step, hdb', firstView, Option.isSome_map, h.complete]
      unfold ItpDb.DeliverableComplete
      rw [hchecks]
    · intro t ht
      exact congrArg Option.join ht
  | change itcs checks =>
    refine ⟨h.found, ?_, ?_⟩
    · simp only [Watch.step]
      split
      · next hc => exact iff_of_true rfl hc
      · next hc => exact iff_of_false (by simp) hc
    · intro t ht
      simp only [Watch.step, Option.ite_none_right_eq_some, Option.some.injEq] at ht
      exact h.viewed t (Option.join_eq_some_iff.mp ht.2)

/-- From the right date a view leads to the right date exactly if it is safe. -/
theorem Sound.view_iff {w : Watch} (h : w.Sound url) (hright : w.DateRight url) (now : Nat) :
    (w.step mode url (.view now)).DateRight url ↔ w.ViewSafe mode url (.view now) := by
  obtain ⟨db', hdb', -, -, hdate⟩ := view_spec mode h.found now
  have hnew : (w.step mode url (.view now)).DateRight url ↔
      mode.dateAfter (decide (w.db.DeliverableComplete url.deliverableid)) w.due now =
        (w.firstView now).join := by
    unfold DateRight
    rw [Watch.step, hdb', hdate, hright]
  rw [hnew]
  unfold ViewSafe
  rw [hright]
  cases hs : w.since with
  | none =>
    have hnot : ¬ w.db.DeliverableComplete url.deliverableid := by simp [← h.complete, hs]
    cases mode <;> simp [SqlMode.dateAfter, firstView, hs, hnot]
  | some first =>
    have hc : w.db.DeliverableComplete url.deliverableid := by simp [← h.complete, hs]
    cases hdue : w.due with
    | none =>
      -- a view since it became complete would have left a date
      have hfirst : first = none := by
        cases first with
        | none => rfl
        | some t => simpa [hdue] using h.viewed t hs
      cases mode <;> simp [SqlMode.dateAfter, firstView, hs, hc, hfirst]
    | some t =>
      cases mode with
      | strict => simp [SqlMode.dateAfter, firstView, hs, eq_comm]
      | permissive => cases first <;> simp [SqlMode.dateAfter, firstView, hs, hc]

theorem Sound.step_iff {w : Watch} (h : w.Sound url) (hright : w.DateRight url)
    (event : DeliverableEvent) :
    (w.step mode url event).DateRight url ↔ w.ViewSafe mode url event := by
  cases event with
  | view now => exact h.view_iff hright now
  | change itcs checks => exact iff_of_true hright trivial

theorem start_sound {db : ItpDb} (hfound : (db.deliverableOf url).isSome) :
    (start db url).Sound url := by
  refine ⟨hfound, ?_, ?_⟩
  · unfold start
    split
    · next hc => exact iff_of_true rfl hc
    · next hc => exact iff_of_false (by simp) hc
  · intro t ht
    unfold start at ht
    split at ht <;> simp at ht

end Watch

/-- From a deliverable without a date on, every view leaves the date of the first view since
the deliverable became complete, and no date if it is not complete, exactly if every view is
safe: without strict mode, no view finds a date on a complete deliverable, and in strict mode
no view comes after the deliverable ceased to be complete with a date. -/
theorem views_date_iff (mode : SqlMode) {db : ItpDb} {url : DeliverableUrl} {d : Deliverable}
    (hd : db.deliverableOf url = some d) (hdate : d.completionDate = none)
    (events : List DeliverableEvent) :
    (∀ pre post, events = pre ++ post → (Watch.run mode url db pre).DateRight url) ↔
      ∀ pre event post, events = pre ++ event :: post →
        (Watch.run mode url db pre).ViewSafe mode url event := by
  have hfound : (db.deliverableOf url).isSome := by rw [hd, Option.isSome_some]
  have hstart : (Watch.start db url).DateRight url := by
    unfold Watch.DateRight Watch.start ItpDb.completionDateOf
    rw [hd]
    exact hdate
  exact foldl_good_iff_of_keeps (fun _ event h => h.step event)
    (fun _ event h hright => h.step_iff hright event) (Watch.start_sound hfound) hstart

def untick : DeliverableEvent := .change newPump.deliverableItcMaps newPump.deliverableCheckMaps

def tickAll : DeliverableEvent :=
  .change testedPump.deliverableItcMaps testedPump.deliverableCheckMaps

/-- The pump is completed, taken back and completed again, with one view each time. -/
theorem views_date_iff_newPump :
    ∃ d, newPump.deliverableOf (pumpUrl 1) = some d ∧ d.completionDate = none ∧
      (∀ pre post, [.view 15, tickAll, .view 20, untick, .view 30, tickAll, .view 40] = pre ++ post →
        (Watch.run .permissive (pumpUrl 1) newPump pre).DateRight (pumpUrl 1)) ∧
      (Watch.run .permissive (pumpUrl 1) newPump
        [.view 15, tickAll, .view 20, untick, .view 30, tickAll, .view 40]).due = some 40 := by
  obtain ⟨d, hd⟩ : ∃ d, newPump.deliverableOf (pumpUrl 1) = some d :=
    Option.isSome_iff_exists.mp (by decide +kernel)
  have hdate : (newPump.deliverableOf (pumpUrl 1)).bind Deliverable.completionDate = none := by
    decide +kernel
  rw [hd, Option.bind_some] at hdate
  refine ⟨d, hd, hdate, (views_date_iff .permissive hd hdate _).mpr ?_, by decide +kernel⟩
  simp only [forall_split_cons, forall_split_nil, and_true]
  decide +kernel

/-- Without strict mode a second view removes the date of a complete deliverable. In strict
mode the date stays when the deliverable is not complete any more. -/
theorem second_view_removes_date :
    ((Watch.run .permissive (pumpUrl 1) newPump [tickAll, .view 20]).db.completionDateOf (pumpUrl 1) =
        some 20 ∧
      (Watch.run .permissive (pumpUrl 1) newPump [tickAll, .view 20, .view 30]).db.completionDateOf
        (pumpUrl 1) = none ∧
      (Watch.run .permissive (pumpUrl 1) newPump
        [tickAll, .view 20, .view 30]).db.DeliverableComplete 1) ∧
    (Watch.run .strict (pumpUrl 1) newPump [tickAll, .view 20, untick, .view 30]).db.completionDateOf
        (pumpUrl 1) = some 20 ∧
      ¬ (Watch.run .strict (pumpUrl 1) newPump
        [tickAll, .view 20, untick, .view 30]).db.DeliverableComplete 1 := by
  decide +kernel

end Medusa
