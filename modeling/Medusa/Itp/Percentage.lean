import Mathlib.Data.List.TakeWhile
import Medusa.Itp.ItpPage
import Medusa.Itp.Scope

/-! The percentage that is stored with an ITP. Saving ticks computes it again, but for the
first ITP of the project, whichever ITP the ticks are of, and from the percentages that are
stored with its ITCs. Those are only brought up to date when a page of the ITCs is viewed. -/

namespace Medusa

open Relational

inductive TickRequest
  | change (form : TickForm) (user now : Nat)
  | completeAll (user now : Nat)

namespace ItpDb

def itcsUnder (db : ItpDb) (itp : Nat) : List DeliverableItcMap :=
  db.deliverableItcMaps.rows.filter (fun m =>
    decide (m.deliverableId ∈ (db.deliverablesOf itp).map (fun d => some d.id)))

/-- The percentage of the ITCs that satisfy `p`, as the column stores it. -/
def shareOf (db : ItpDb) (itp : Nat) (p : DeliverableItcMap → Bool) : Int :=
  round (Percent.percent ((db.itcsUnder itp).countP p) (db.itcsUnder itp).length)

def storedShare (db : ItpDb) (itp : Nat) : Int :=
  db.shareOf itp (fun m => m.percentageComplete == some 100)

def completeShare (db : ItpDb) (itp : Nat) : Int :=
  db.shareOf itp (fun m => decide (db.ItcComplete m.id))

end ItpDb

namespace TickRequest

def handle (db : ItpDb) (url : DeliverableUrl) (itcid : Nat) : TickRequest → Option ItpDb
  | change form user now => itcChange db url itcid form user now
  | completeAll user now => completeAllChecks db url itcid user now

/-- What is committed when the request comes to `site_project_update`, if it does. -/
def saved (db : ItpDb) (url : DeliverableUrl) (itcid : Nat) : TickRequest → Option ItpDb
  | change form user now => do
    let itc ← db.itcOf url itcid
    let completed := (checksOf db.deliverableCheckMaps itc.id).filter
      (fun c => c.isDone == some true)
    let ticked := tickChecks db user now db.deliverableCheckMaps form.checked
    guard ticked.2
    pure { db with
      deliverableItcMaps := db.deliverableItcMaps.update (fun m => m.id == itc.id)
        (DeliverableItcMap.setComments form.comments) form.setComments_id
      deliverableCheckMaps := ticked.1.update (fun c => ticked.2 && form.unticked completed c)
        DeliverableCheckMap.uncomplete DeliverableCheckMap.uncomplete_id }
  | completeAll user now => do
    let itc ← db.itcOf url itcid
    pure { db with
      deliverableCheckMaps := db.deliverableCheckMaps.update
        (fun c => c.deliverableItcMapId == some itc.id && c.isDone != some true)
        (·.complete user now) (DeliverableCheckMap.complete_id user now) }

/-- Whether a check is done once the ticks are saved. -/
def done (itcid : Nat) : TickRequest → DeliverableCheckMap → Bool
  | change form _ _, c =>
    if c.isDone = some true then
      c.deliverableItcMapId != some itcid || form.checked.any (fun v => v.plain && v.id == c.id)
    else form.checked.any (fun v => v.id == c.id)
  | completeAll _ _, c => c.isDone == some true || c.deliverableItcMapId == some itcid

/-- The percentage that the ITP should have, by the state before the request. -/
def doneShare (r : TickRequest) (db : ItpDb) (itcid itp : Nat) : Int :=
  db.shareOf itp (fun m => !(checksOf db.deliverableCheckMaps m.id).isEmpty &&
    (checksOf db.deliverableCheckMaps m.id).all (r.done itcid))

/-- The first ITP of the project has ITCs. If it is the ITP of the request, the stored
percentages of its ITCs come to what the ticks make of them. Otherwise both ITPs have the right
percentages already. -/
def Fits (r : TickRequest) (db : ItpDb) (itcid : Nat) (p : Itp) : Prop :=
  ∃ f, db.itps.first? (fun i => i.projectId == p.projectId) = some f ∧ db.itcsUnder f.id ≠ [] ∧
    if f.id = p.id then db.storedShare f.id = r.doneShare db itcid p.id
    else p.percentageComplete = some (r.doneShare db itcid p.id) ∧
      f.percentageComplete = some (db.storedShare f.id)

/-- The request returns with the right percentage of the ITP, and leaves those of the other
ITPs of the project. -/
structure Updates (r : TickRequest) (db : ItpDb) (url : DeliverableUrl) (itcid : Nat) (p : Itp)
    (saved db' : ItpDb) : Prop where
  returns : siteProjectUpdate saved url.toItpUrl = some db'
  committed : r.handle db url itcid = some db'
  percentage : (db'.itps.get? p.id).bind Itp.percentageComplete = some (db'.completeShare p.id)
  others : ∀ i ∈ db.itps.rows, i.projectId = p.projectId → i.id ≠ p.id →
    (db'.itps.get? i.id).bind Itp.percentageComplete = i.percentageComplete

structure Ticked (r : TickRequest) (db : ItpDb) (itcid : Nat) (s : ItpDb) : Prop where
  sites : s.sites = db.sites
  projects : s.projects = db.projects
  itps : s.itps = db.itps
  deliverables : s.deliverables = db.deliverables
  itcs : ∃ g : DeliverableItcMap → DeliverableItcMap, s.deliverableItcMaps.rows =
    db.deliverableItcMaps.rows.map g ∧ ∀ m, (g m).id = m.id ∧
      (g m).deliverableId = m.deliverableId ∧ (g m).percentageComplete = m.percentageComplete
  checks : ∃ g : DeliverableCheckMap → DeliverableCheckMap, s.deliverableCheckMaps.rows =
    db.deliverableCheckMaps.rows.map g ∧ ∀ c ∈ db.deliverableCheckMaps.rows,
      (g c).deliverableItcMapId = c.deliverableItcMapId ∧
        ((g c).isDone = some true ↔ r.done itcid c = true)

variable {r : TickRequest} {db s : ItpDb} {url : DeliverableUrl} {itcid : Nat}

theorem handle_of_saved (h : r.saved db url itcid = some s) :
    r.handle db url itcid = some ((siteProjectUpdate s url.toItpUrl).getD s) := by
  cases r with
  | change form user now =>
    simp only [saved, Option.bind_eq_bind, Option.bind_eq_some_iff, guard_eq_some, Option.pure_def,
      Option.some.injEq] at h
    obtain ⟨itc, hitc, -, hfinished, rfl⟩ := h
    simp only [handle, itcChange, hitc, hfinished, Option.bind_eq_bind, Option.bind_some,
      Option.pure_def, if_true]
  | completeAll user now =>
    simp only [saved, Option.bind_eq_bind, Option.bind_eq_some_iff, Option.pure_def,
      Option.some.injEq] at h
    obtain ⟨itc, hitc, rfl⟩ := h
    simp only [handle, completeAllChecks, hitc, Option.bind_eq_bind, Option.bind_some,
      Option.pure_def]

/-- A check after both loops of `ITC_change`. -/
theorem change_row {c : DeliverableCheckMap} (hc : c ∈ db.deliverableCheckMaps.rows)
    (form : TickForm) (user now : Nat) {ticked c' : DeliverableCheckMap}
    (hticked : ticked = if c.isDone ≠ some true ∧ c.id ∈ form.checked.map Tick.id then
      c.complete user now else c)
    (hc' : c' = if form.unticked ((checksOf db.deliverableCheckMaps itcid).filter
      (fun c => c.isDone == some true)) ticked then ticked.uncomplete else ticked) :
    c'.deliverableItcMapId = c.deliverableItcMapId ∧
      (c'.isDone = some true ↔ (change form user now).done itcid c = true) := by
  have hid : ticked.id = c.id := by
    rw [hticked]
    split <;> rfl
  have hcompleted := @completed_any _ itcid _ hc
  rw [TickForm.unticked, hid, hcompleted] at hc'
  by_cases hdone : c.isDone = some true
  · rw [if_neg (fun h => h.1 hdone)] at hticked
    subst hc' hticked
    by_cases hitc : ticked.deliverableItcMapId = some itcid
    · by_cases hplain : form.checked.any (fun v => v.plain && v.id == ticked.id) = true
      · simp [done, hdone, hitc, hplain]
      · simp [done, hdone, hitc, hplain, DeliverableCheckMap.uncomplete]
    · simp [done, hdone, hitc]
  · have hnot : (c.isDone == some true) = false := beq_false_of_ne hdone
    rw [hnot, Bool.and_false, Bool.false_and, if_neg Bool.false_ne_true, hticked] at hc'
    subst hc'
    by_cases htick : c.id ∈ form.checked.map Tick.id
    · obtain ⟨tick, hmem, htid⟩ := List.mem_map.mp htick
      have hany : form.checked.any (fun v => v.id == c.id) = true :=
        List.any_eq_true.mpr ⟨tick, hmem, beq_iff_eq.mpr htid⟩
      rw [if_pos ⟨hdone, htick⟩]
      simp [done, hdone, hany, DeliverableCheckMap.complete]
    · have hany : form.checked.any (fun v => v.id == c.id) = false := by simpa using htick
      rw [if_neg (fun h => htick h.2)]
      simp [done, hdone, hany]

theorem ticked_of_saved (h : r.saved db url itcid = some s) : r.Ticked db itcid s := by
  cases r with
  | change form user now =>
    simp only [saved, Option.bind_eq_bind, Option.bind_eq_some_iff, guard_eq_some, Option.pure_def,
      Option.some.injEq] at h
    obtain ⟨itc, hitc, -, hfinished, rfl⟩ := h
    obtain ⟨-, -, -, -, rfl⟩ := ItpDb.itcOf_eq_some hitc
    have hall : form.checked.takeWhile (db.tickable db.deliverableCheckMaps) = form.checked := by
      rw [tickChecks_finished, List.all_eq_true] at hfinished
      exact List.takeWhile_eq_self_iff.mpr hfinished
    refine ⟨rfl, rfl, rfl, rfl,
      ⟨_, Table.rows_update _ _ _ (DeliverableItcMap.setComments_id form.comments), ?_⟩, ?_⟩
    · intro m
      split <;> exact ⟨rfl, rfl, rfl⟩
    · refine ⟨_, by rw [Table.rows_update, tickChecks_rows, List.map_map], ?_⟩
      intro c hc
      simp only [hall, hfinished, Bool.true_and, Function.comp_apply]
      exact change_row hc form user now rfl rfl
  | completeAll user now =>
    simp only [saved, Option.bind_eq_bind, Option.bind_eq_some_iff, Option.pure_def,
      Option.some.injEq] at h
    obtain ⟨itc, hitc, rfl⟩ := h
    obtain ⟨-, -, -, -, rfl⟩ := ItpDb.itcOf_eq_some hitc
    refine ⟨rfl, rfl, rfl, rfl, ⟨id, (List.map_id _).symm, fun m => ⟨rfl, rfl, rfl⟩⟩,
      ⟨_, Table.rows_update _ _ _ (DeliverableCheckMap.complete_id user now), ?_⟩⟩
    intro c _
    by_cases hdone : c.isDone = some true
    · simp [done, hdone]
    · by_cases hown : c.deliverableItcMapId = some itc.id
      · simp [done, hdone, hown, DeliverableCheckMap.complete]
      · simp [done, hdone, hown]

namespace Ticked

variable (h : r.Ticked db itcid s)

include h

theorem checksOf_eq (k : Nat) : ∃ g : DeliverableCheckMap → DeliverableCheckMap,
    checksOf s.deliverableCheckMaps k = (checksOf db.deliverableCheckMaps k).map g ∧
      ∀ c ∈ checksOf db.deliverableCheckMaps k, ((g c).isDone = some true ↔ r.done itcid c = true) := by
  obtain ⟨g, hrows, hg⟩ := h.checks
  refine ⟨g, ?_, fun c hc => (hg c (mem_checksOf.mp hc).1).2⟩
  unfold checksOf
  rw [hrows, List.filter_map]
  congr 1
  apply List.filter_congr
  intro c hc
  rw [Function.comp_apply, (hg c hc).1]

theorem itcComplete (k : Nat) : decide (s.ItcComplete k) =
    (!(checksOf db.deliverableCheckMaps k).isEmpty &&
      (checksOf db.deliverableCheckMaps k).all (r.done itcid)) := by
  obtain ⟨g, hchecks, hg⟩ := h.checksOf_eq k
  rw [Bool.eq_iff_iff, decide_eq_true_eq, Bool.and_eq_true, List.all_eq_true]
  unfold ItpDb.ItcComplete
  rw [hchecks, List.forall_mem_map, forall₂_congr hg, ne_eq, List.map_eq_nil_iff]
  simp

theorem itcsUnder_eq (itp : Nat) : ∃ g : DeliverableItcMap → DeliverableItcMap,
    s.itcsUnder itp = (db.itcsUnder itp).map g ∧
      ∀ m, (g m).id = m.id ∧ (g m).percentageComplete = m.percentageComplete := by
  obtain ⟨g, hrows, hg⟩ := h.itcs
  refine ⟨g, ?_, fun m => ⟨(hg m).1, (hg m).2.2⟩⟩
  unfold ItpDb.itcsUnder ItpDb.deliverablesOf
  rw [h.deliverables, hrows, List.filter_map]
  congr 1
  apply List.filter_congr
  intro m _
  rw [Function.comp_apply, (hg m).2.1]

theorem shareOf_eq {itp : Nat} {p p' : DeliverableItcMap → Bool}
    (hp : ∀ m m', m'.id = m.id → m'.percentageComplete = m.percentageComplete → p m' = p' m) :
    s.shareOf itp p = db.shareOf itp p' := by
  obtain ⟨g, hitcs, hg⟩ := h.itcsUnder_eq itp
  have hcount : ((db.itcsUnder itp).map g).countP p = (db.itcsUnder itp).countP p' := by
    rw [List.countP_map]
    apply List.countP_congr
    intro m _
    rw [Function.comp_apply, hp m (g m) (hg m).1 (hg m).2]
  unfold ItpDb.shareOf
  rw [hitcs, hcount, List.length_map]

theorem storedShare_eq (itp : Nat) : s.storedShare itp = db.storedShare itp :=
  h.shareOf_eq (fun m m' _ hpercent => by rw [hpercent])

theorem completeShare_eq (itp : Nat) : s.completeShare itp = r.doneShare db itcid itp :=
  h.shareOf_eq (fun m m' hid _ => by rw [h.itcComplete, hid])

theorem itpOf_eq (url : ItpUrl) : s.itpOf url = db.itpOf url := by
  unfold ItpDb.itpOf
  rw [h.sites, h.projects, h.itps]

end Ticked

end TickRequest

theorem ItpDb.mem_of_itpOf {db : ItpDb} {url : ItpUrl} {p : Itp} (h : db.itpOf url = some p) :
    p ∈ db.itps.rows := by
  simp only [ItpDb.itpOf, Option.bind_eq_bind, Option.bind_eq_some_iff] at h
  obtain ⟨site, -, project, -, hrow⟩ := h
  exact (Table.mem_of_first? hrow).1

theorem siteProjectUpdate_eq {db : ItpDb} {url : ItpUrl} {p f : Itp} (hp : db.itpOf url = some p)
    (hf : db.itps.first? (fun i => i.projectId == p.projectId) = some f) :
    siteProjectUpdate db url =
      if db.itcsUnder f.id = [] then none
      else some { db with
        itps := db.itps.update (fun i => i.id == f.id) (Itp.setPercentage (db.storedShare f.id))
          (Itp.setPercentage_id _) } := by
  simp only [ItpDb.itpOf, Option.bind_eq_bind, Option.bind_eq_some_iff] at hp
  obtain ⟨site, hsite, project, hproject, hrow⟩ := hp
  have hown := (Table.mem_of_first? hrow).2
  rw [Bool.and_eq_true, beq_iff_eq, beq_iff_eq] at hown
  rw [hown.2] at hf
  have hitcs : db.deliverableItcMaps.rows.filter (fun m => decide (m.deliverableId ∈
      (db.deliverables.rows.filter (fun d => d.itpId == some f.id)).map (fun d => some d.id))) =
        db.itcsUnder f.id := rfl
  simp only [siteProjectUpdate, hsite, hproject, hf, Option.bind_eq_bind, Option.bind_some, hitcs]
  by_cases hnone : db.itcsUnder f.id = []
  · simp [hnone, guard]
  · have hshare : db.storedShare f.id = round ((((db.itcsUnder f.id).filter
        (fun m => m.percentageComplete == some 100)).length : ℚ) / (db.itcsUnder f.id).length * 100) := by
      unfold ItpDb.storedShare ItpDb.shareOf
      rw [Percent.percent_of_pos (List.length_pos_iff.mpr hnone), List.countP_eq_length_filter]
    simp [hnone, guard, hshare]

theorem TickRequest.Ticked.update_eq {r : TickRequest} {db s : ItpDb} {itcid : Nat}
    (h : r.Ticked db itcid s) {url : ItpUrl} {p f : Itp} (hp : db.itpOf url = some p)
    (hf : db.itps.first? (fun i => i.projectId == p.projectId) = some f) :
    siteProjectUpdate s url =
      if db.itcsUnder f.id = [] then none
      else some { s with
        itps := db.itps.update (fun i => i.id == f.id) (Itp.setPercentage (db.storedShare f.id))
          (Itp.setPercentage_id _) } := by
  obtain ⟨g, hitcs, -⟩ := h.itcsUnder_eq f.id
  have hupdate := siteProjectUpdate_eq (h.itpOf_eq _ ▸ hp) (h.itps ▸ hf)
  rw [h.storedShare_eq, h.itps, hitcs] at hupdate
  simpa only [List.map_eq_nil_iff] using hupdate

theorem percentage_setPercentage {itps : Table Itp Itp.id} {i : Itp} (hi : i ∈ itps.rows) (f : Nat)
    (percentage : Int) :
    ((itps.update (fun i => i.id == f) (Itp.setPercentage percentage)
      (Itp.setPercentage_id percentage)).get? i.id).bind Itp.percentageComplete =
      if i.id = f then some percentage else i.percentageComplete := by
  have hget : itps.get? i.id = some i := Table.get?_eq_some.mpr ⟨hi, rfl⟩
  rw [Table.get?_update_map, hget, Option.map_some, Option.bind_some]
  by_cases hif : i.id = f <;> simp [hif, Itp.setPercentage]

/-- What the percentages come to, where only that of `f` is computed. -/
theorem percentages_right_iff {itps : Table Itp Itp.id} {p f : Itp} (hf : f ∈ itps.rows)
    (hproject : f.projectId = p.projectId) (stored right : Int) :
    ((if p.id = f.id then some stored else p.percentageComplete) = some right ∧
      ∀ i ∈ itps.rows, i.projectId = p.projectId → i.id ≠ p.id →
        (if i.id = f.id then some stored else i.percentageComplete) = i.percentageComplete) ↔
    if f.id = p.id then stored = right
    else p.percentageComplete = some right ∧ f.percentageComplete = some stored := by
  by_cases hfp : f.id = p.id
  · rw [if_pos hfp, if_pos hfp.symm, hfp, Option.some.injEq]
    refine and_iff_left ?_
    intro i _ _ hne
    rw [if_neg hne]
  · rw [if_neg hfp, if_neg (Ne.symm hfp)]
    refine and_congr_right fun _ => ?_
    constructor
    · intro h
      have hself := h f hf hproject hfp
      rw [if_pos rfl] at hself
      exact hself.symm
    · intro h i hi _ _
      split
      · next hif => rw [Table.eq_of_key_eq hi hf hif, h]
      · rfl

/-- A request that comes to the computation of the percentage leaves the right percentage of
the ITP, and those of the other ITPs as they were, exactly if it `Fits`. -/
theorem itpPercentage_iff {r : TickRequest} {db s : ItpDb} {url : DeliverableUrl} {itcid : Nat}
    {p : Itp} (hp : db.itpOf url.toItpUrl = some p) (hsaved : r.saved db url itcid = some s) :
    (∃ db', r.Updates db url itcid p s db') ↔ r.Fits db itcid p := by
  have hticked := TickRequest.ticked_of_saved hsaved
  have hrow := ItpDb.mem_of_itpOf hp
  obtain ⟨f, hf⟩ : ∃ f, db.itps.first? (fun i => i.projectId == p.projectId) = some f := by
    cases h : db.itps.first? (fun i => i.projectId == p.projectId) with
    | none => simpa using Table.first?_eq_none h p hrow
    | some f => exact ⟨f, rfl⟩
  obtain ⟨hfrow, hproject⟩ := Table.mem_of_first? hf
  have hupdate := hticked.update_eq hp hf
  have hhandle := TickRequest.handle_of_saved hsaved
  unfold TickRequest.Fits
  simp only [hf, Option.some.injEq, exists_eq_left']
  by_cases hnone : db.itcsUnder f.id = []
  · -- the division raises
    rw [if_pos hnone] at hupdate
    refine iff_of_false ?_ (fun h => h.1 hnone)
    rintro ⟨db', h⟩
    exact Option.some_ne_none db' (h.returns.symm.trans hupdate)
  · rw [if_neg hnone] at hupdate
    rw [hupdate, Option.getD_some] at hhandle
    rw [and_iff_right hnone, ← percentages_right_iff hfrow (beq_iff_eq.mp hproject),
      ← percentage_setPercentage hrow, ← hticked.completeShare_eq]
    constructor
    · rintro ⟨db', h⟩
      obtain rfl := Option.some.inj (h.returns.symm.trans hupdate)
      refine ⟨h.percentage, ?_⟩
      intro i hi hown hne
      rw [← percentage_setPercentage hi]
      exact h.others i hi hown hne
    · rintro ⟨hright, hothers⟩
      refine ⟨_, hupdate, hhandle, hright, ?_⟩
      intro i hi hown hne
      exact (percentage_setPercentage hi _ _).trans (hothers i hi hown hne)

def viewedPump : ItpDb := (itcTesting testedPump (pumpUrl 1) 1).getD testedPump

theorem itpPercentage_iff_viewedPump :
    ∃ p s db', viewedPump.itpOf pumpItp = some p ∧
      (TickRequest.completeAll 7 40).saved viewedPump (pumpUrl 1) 1 = some s ∧
      (TickRequest.completeAll 7 40).Updates viewedPump (pumpUrl 1) 1 p s db' ∧
      db'.completeShare p.id = 100 := by
  obtain ⟨p, hp⟩ : ∃ p, viewedPump.itpOf pumpItp = some p :=
    Option.isSome_iff_exists.mp (by decide +kernel)
  obtain ⟨s, hs⟩ : ∃ s, (TickRequest.completeAll 7 40).saved viewedPump (pumpUrl 1) 1 = some s :=
    Option.isSome_iff_exists.mp (by decide +kernel)
  have hfirst : viewedPump.itps.first? (fun i => i.projectId == some 1) =
      viewedPump.itpOf pumpItp := by
    decide +kernel
  have hrow : (viewedPump.itpOf pumpItp).map (fun p => (p.id, p.projectId)) = some (1, some 1) := by
    decide +kernel
  rw [hp, Option.map_some, Option.some.injEq, Prod.mk.injEq] at hrow
  have hfits : (TickRequest.completeAll 7 40).Fits viewedPump 1 p := by
    refine ⟨p, by rw [hrow.2, hfirst, hp], ?_, ?_⟩
    · rw [hrow.1]
      decide +kernel
    · rw [if_pos rfl, hrow.1]
      decide +kernel
  obtain ⟨db', h⟩ := (itpPercentage_iff hp hs).mpr hfits
  refine ⟨p, s, db', hp, hs, h, ?_⟩
  have hshare : ((TickRequest.completeAll 7 40).handle viewedPump (pumpUrl 1) 1).map
      (fun db => db.completeShare 1) = some 100 := by
    decide +kernel
  rw [h.committed, Option.map_some, Option.some.injEq] at hshare
  rw [hrow.1]
  exact hshare

/-- The same pump, in the second ITP of a project whose first one is empty. -/
def secondItp : ItpDb :=
  runChecklist { pumpProject with
    itps := ⟨[⟨1, "commissioning", some 1, none, some 0⟩, ⟨2, "handover", some 1, none, some 0⟩],
      by simp⟩ } [.deliverableNew ⟨1, 1, 2⟩ (pumpForm "pump 1") 10]

/-- All the checks of the only ITC are ticked, and the percentage is computed from what the
ITC had before. In the second ITP of a project the division raises. -/
theorem completeAllChecks_stale_percentage :
    (completeAllChecks newPump (pumpUrl 1) 1 7 20).map (fun db =>
      (db.completeShare 1, db.itps.rows.map Itp.percentageComplete)) = some (100, [some 0]) ∧
    ((TickRequest.completeAll 7 20).saved secondItp ⟨⟨1, 1, 2⟩, 1⟩ 1).map (fun s =>
      (s.completeShare 2, (siteProjectUpdate s ⟨1, 1, 2⟩).isSome)) = some (100, false) := by
  decide +kernel

end Medusa
