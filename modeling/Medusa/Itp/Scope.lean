import Medusa.Itp.ItcRequests

/-! A request on the ITCs of a deliverable and the rows of other deliverables. The
site, the project, the ITP and the deliverable of the URL are looked up each under
the one before, but ITCs and checks are looked up by their ids alone. -/

namespace Medusa

open Relational

inductive ItcRequest
  | change (itcid : Nat) (form : TickForm) (user now : Nat)
  | edit (itcid : Nat) (form : ItcForm)
  | delete (itcid : Nat)
  | checkEdit (itcid checkid : Nat) (form : CheckForm)
  | checkDelete (itcid checkid : Nat)

def ItcRequest.commit (url : DeliverableUrl) (db : ItpDb) : ItcRequest → Option ItpDb
  | change itcid form user now => itcChange db url itcid form user now
  | edit itcid form => itcEdit db url itcid form
  | delete itcid => itcDelete db url itcid
  | checkEdit itcid checkid form => Medusa.checkEdit db url.toItpUrl itcid checkid form
  | checkDelete itcid checkid => Medusa.checkDelete db url.toItpUrl itcid checkid

/-- An ITC of another deliverable. -/
def DeliverableItcMap.foreign (deliverable : Nat) (m : DeliverableItcMap) : Bool :=
  m.deliverableId.any (fun d => d != deliverable)

/-- A check of an ITC of another deliverable. -/
def ItpDb.foreignCheck (db : ItpDb) (deliverable : Nat) (c : DeliverableCheckMap) : Bool :=
  (c.deliverableItcMapId.bind db.deliverableItcMaps.get?).any
    (DeliverableItcMap.foreign deliverable)

/-- No ITC and no check of another deliverable was changed or deleted. -/
def ItpDb.Untouched (db : ItpDb) (deliverable : Nat) (db' : ItpDb) : Prop :=
  (∀ m ∈ db.deliverableItcMaps.rows, m.foreign deliverable = true →
    m ∈ db'.deliverableItcMaps.rows) ∧
  ∀ c ∈ db.deliverableCheckMaps.rows, db.foreignCheck deliverable c = true →
    c ∈ db'.deliverableCheckMaps.rows

/-- The loop over the ticked checks goes on after this one. -/
def ItpDb.tickable (db : ItpDb) (t : DeliverableChecks) (tick : Tick) : Bool :=
  (t.get? tick.id).any db.printable

/-- What `ITC_edit` asks of the form before it writes: the name is free, and the
numbers that it compares are there. -/
def ItcForm.Accepted (db : ItpDb) (form : ItcForm) (deliverable : Nat) (itc : DeliverableItcMap)
    (template : Itc) (target : Int) : Prop :=
  (form.name = "" ∨ form.name = template.name ∨ ∀ i ∈ db.itcs.rows, i.name ≠ form.name) ∧
  ∀ m ∈ itcsOf db.deliverableItcMaps deliverable,
    (shiftInGroup db.itcs template.itcGroupId
      (shiftNumber (groupCount db.itcs db.deliverableItcMaps deliverable template.itcGroupId)
        itc.itcGroupNumber target)
      (decide (itc.itcGroupNumber ≠ some target)) m).isSome = true

/-- The form has nothing new for the ITC. -/
def ItcForm.Keeps (form : ItcForm) (count target : Int) (m : DeliverableItcMap) : Prop :=
  (form.status = "" ∨ m.status = some form.status) ∧
  (form.comment = "" ∨ m.comments = some form.comment) ∧
  landing count m.itcGroupNumber target = m.itcGroupNumber

/-- The form has nothing new for the check; a check that is done keeps its status. -/
def CheckForm.Keeps (form : CheckForm) (count target : Int) (c : DeliverableCheckMap) : Prop :=
  (form.status = "" ∨ c.status = some form.status ∨ c.isDone = some true) ∧
  landing count c.checkNumber target = c.checkNumber

/-- The rows that the request finds by their ids and would write are not those of
another deliverable, or stay as they are. -/
def ItcRequest.Scoped (url : DeliverableUrl) (db : ItpDb) (deliverable : Nat) : ItcRequest → Prop
  | change itcid form _ _ =>
    ∀ itc, db.itcOf url itcid = some itc →
      ∀ tick ∈ form.checked.takeWhile (db.tickable db.deliverableCheckMaps),
        ∀ c, db.deliverableCheckMaps.get? tick.id = some c →
          db.foreignCheck deliverable c = true → c.isDone = some true
  | edit itcid form =>
    ∀ itc, db.deliverableItcMaps.get? itcid = some itc →
      ∀ template, itc.template db.itcs = some template →
        ∀ target, form.groupNumber = some target → form.Accepted db deliverable itc template target →
          itc.foreign deliverable = true →
            form.Keeps (groupCount db.itcs db.deliverableItcMaps deliverable template.itcGroupId)
              target itc
  | delete itcid =>
    ∀ itc, db.deliverableItcMaps.get? itcid = some itc →
      ∀ template, itc.template db.itcs = some template →
        db.GapCloses deliverable itc template → itc.foreign deliverable = false
  | checkEdit itcid checkid form =>
    ∀ itc, db.deliverableItcMaps.get? itcid = some itc →
      ∀ check, db.deliverableCheckMaps.get? checkid = some check →
        ∀ target, form.number = some target →
          (∀ c ∈ checksOf db.deliverableCheckMaps itc.id,
            (shiftNumber (checksOf db.deliverableCheckMaps itc.id).length check.checkNumber target
              c.checkNumber).isSome = true) →
          (db.foreignCheck deliverable check = true →
            form.Keeps (checksOf db.deliverableCheckMaps itc.id).length target check) ∧
          (itc.foreign deliverable = true →
            ∀ c ∈ checksOf db.deliverableCheckMaps itc.id, c.id ≠ check.id →
              shiftNumber (checksOf db.deliverableCheckMaps itc.id).length check.checkNumber target
                c.checkNumber = some c.checkNumber)
  | checkDelete itcid checkid =>
    ∀ itc, db.deliverableItcMaps.get? itcid = some itc →
      ∀ check, db.deliverableCheckMaps.get? checkid = some check →
        (gapAfter (checksOf db.deliverableCheckMaps itc.id).length check.checkNumber = none ∨
          ∀ c ∈ checksOf db.deliverableCheckMaps itc.id, c.checkNumber.isSome = true) →
        db.foreignCheck deliverable check = false ∧
        (itc.foreign deliverable = true →
          ∀ c ∈ checksOf db.deliverableCheckMaps itc.id,
            closeUp (gapAfter (checksOf db.deliverableCheckMaps itc.id).length check.checkNumber)
              c.checkNumber = c.checkNumber)

theorem DeliverableItcMap.foreign_of_own {d : Nat} {m : DeliverableItcMap}
    (h : m.deliverableId = some d) : m.foreign d = false := by
  simp [DeliverableItcMap.foreign, h]

theorem DeliverableItcMap.ne_of_foreign {d : Nat} {m : DeliverableItcMap}
    (h : m.foreign d = true) : (m.deliverableId == some d) = false := by
  rw [beq_eq_false_iff_ne]
  intro hown
  rw [foreign_of_own hown] at h
  exact Bool.noConfusion h

theorem ItcForm.keeps_iff (form : ItcForm) (count target : Int) (m : DeliverableItcMap) :
    form.Keeps count target m ↔ m.edit form (landing count m.itcGroupNumber target) = m := by
  unfold ItcForm.Keeps DeliverableItcMap.edit
  obtain ⟨id, comments, deliverableId, itcId, status, percentage, number⟩ := m
  simp only [DeliverableItcMap.mk.injEq, true_and, ite_eq_left_iff, or_iff_not_imp_left,
    eq_comm (a := some form.status), eq_comm (a := some form.comment)]
  exact and_left_comm

theorem CheckForm.keeps_iff (form : CheckForm) (count target : Int) (c : DeliverableCheckMap) :
    form.Keeps count target c ↔ c.edit form.status (landing count c.checkNumber target) = c := by
  have hstatus : (form.status = "" ∨ c.status = some form.status ∨ c.isDone = some true) ↔
      ¬ (form.status ≠ "" ∧ c.status ≠ some form.status ∧ c.isDone ≠ some true) := by
    tauto
  unfold CheckForm.Keeps DeliverableCheckMap.edit DeliverableCheckMap.setStatus
  rw [hstatus]
  constructor
  · intro hh
    rw [if_neg hh.1, hh.2]
    rfl
  · intro hh
    refine ⟨?_, congrArg DeliverableCheckMap.checkNumber hh⟩
    intro hnew
    rw [if_pos hnew] at hh
    exact hnew.2.1 (congrArg DeliverableCheckMap.status hh).symm

namespace ItpDb

variable {db : ItpDb} {d : Nat}

theorem Untouched.refl (db : ItpDb) (d : Nat) : db.Untouched d db :=
  ⟨fun _ hm _ => hm, fun _ hc _ => hc⟩

/-- A check is as foreign as its ITC. -/
theorem foreignCheck_eq {c : DeliverableCheckMap} {m : DeliverableItcMap}
    (hm : m ∈ db.deliverableItcMaps.rows) (hc : c.deliverableItcMapId = some m.id) :
    db.foreignCheck d c = m.foreign d := by
  have hget : db.deliverableItcMaps.get? m.id = some m := Table.get?_eq_some.mpr ⟨hm, rfl⟩
  simp [foreignCheck, hc, hget]

theorem deliverableOfProject_eq {url : DeliverableUrl} {deliverable : Deliverable}
    (h : db.deliverableOf url = some deliverable) :
    db.deliverableOfProject url = some deliverable := by
  simp only [deliverableOf, itpOf, Option.bind_eq_bind, Option.bind_eq_some_iff] at h
  obtain ⟨itp, ⟨site, -, project, hproject, hitp⟩, hd⟩ := h
  have hrow := Table.mem_of_first? hproject
  simp only [Bool.and_eq_true, beq_iff_eq] at hrow
  have hget : db.projects.get? url.projectid = some project :=
    Table.get?_eq_some.mpr ⟨hrow.1, hrow.2.1⟩
  have hitp' : db.itps.first? (fun i => i.projectId == some project.id && i.id == url.itpid) =
      some itp := by
    simpa only [Bool.and_comm] using hitp
  have hd' : db.deliverables.first? (fun d => d.itpId == some itp.id && d.id == url.deliverableid) =
      some deliverable := by
    simpa only [Bool.and_comm] using hd
  simp [deliverableOfProject, hget, hitp', hd']

end ItpDb

theorem tickable_update {db : ItpDb} {t : DeliverableChecks} {p : DeliverableCheckMap → Bool}
    {user now : Nat} :
    db.tickable (t.update p (·.complete user now) (DeliverableCheckMap.complete_id user now)) =
      db.tickable t := by
  funext tick
  unfold ItpDb.tickable
  rw [Table.get?_update_map]
  cases t.get? tick.id with
  | none => rfl
  | some c =>
    by_cases hp : p c = true
    · simp only [Option.map_some, hp, if_true, Option.any_some]
      rfl
    · simp [hp]

/-- All the checks of the list are ticked off at once, up to the first that cannot be. -/
theorem tickChecks_rows (db : ItpDb) (user now : Nat) (ticks : List Tick) (t : DeliverableChecks) :
    (tickChecks db user now t ticks).1.rows = t.rows.map (fun c =>
      if c.isDone ≠ some true ∧ c.id ∈ (ticks.takeWhile (db.tickable t)).map Tick.id then
        c.complete user now
      else c) := by
  induction ticks generalizing t with
  | nil => simp [tickChecks]
  | cons tick rest ih =>
    unfold tickChecks
    split
    · next hget => simp [ItpDb.tickable, hget]
    · next c hget =>
      by_cases hprint : db.printable c = true
      · have htick : db.tickable t tick = true := by simp [ItpDb.tickable, hget, hprint]
        rw [if_pos hprint, ih, tickable_update, List.takeWhile_cons, if_pos htick,
          Table.rows_update, List.map_map]
        apply List.map_congr_left
        intro c _
        by_cases hdone : c.isDone = some true
        · simp [hdone]
        · by_cases hid : c.id = tick.id
          · simp [hdone, hid, DeliverableCheckMap.complete]
          · simp [hdone, hid]
      · have htick : db.tickable t tick = false := by simp [ItpDb.tickable, hget, hprint]
        simp [hprint, htick]

theorem tickChecks_finished (db : ItpDb) (user now : Nat) (ticks : List Tick)
    (t : DeliverableChecks) :
    (tickChecks db user now t ticks).2 = ticks.all (db.tickable t) := by
  induction ticks generalizing t with
  | nil => rfl
  | cons tick rest ih =>
    unfold tickChecks
    split
    · next hget => simp [ItpDb.tickable, hget]
    · next c hget =>
      by_cases hprint : db.printable c = true
      · have htick : db.tickable t tick = true := by simp [ItpDb.tickable, hget, hprint]
        rw [if_pos hprint, ih, tickable_update, List.all_cons, htick, Bool.true_and]
      · have htick : db.tickable t tick = false := by simp [ItpDb.tickable, hget, hprint]
        simp [hprint, htick]

/-- What the loop over the ticked checks makes of a check. -/
def TickForm.tick (form : TickForm) (db : ItpDb) (user now : Nat) (c : DeliverableCheckMap) :
    DeliverableCheckMap :=
  if c.isDone ≠ some true ∧
      c.id ∈ (form.checked.takeWhile (db.tickable db.deliverableCheckMaps)).map Tick.id then
    c.complete user now
  else c

@[simp] theorem TickForm.tick_id (form : TickForm) (db : ItpDb) (user now : Nat)
    (c : DeliverableCheckMap) : (form.tick db user now c).id = c.id := by
  unfold TickForm.tick
  split <;> rfl

theorem TickForm.tick_eq_self_iff (form : TickForm) (db : ItpDb) (user now : Nat)
    (c : DeliverableCheckMap) :
    form.tick db user now c = c ↔
      (c.id ∈ (form.checked.takeWhile (db.tickable db.deliverableCheckMaps)).map Tick.id →
        c.isDone = some true) := by
  unfold TickForm.tick
  by_cases hdone : c.isDone = some true
  · simp [hdone]
  · have hne : c.complete user now ≠ c :=
      fun he => hdone (congrArg DeliverableCheckMap.isDone he).symm
    split
    · next h => exact iff_of_false hne (fun himp => h.1 (himp h.2))
    · next h => exact iff_of_true rfl (fun hid => absurd ⟨hdone, hid⟩ h)

theorem completed_any {t : DeliverableChecks} {itc : Nat} {c : DeliverableCheckMap}
    (hc : c ∈ t.rows) :
    ((checksOf t itc).filter (fun c => c.isDone == some true)).any (fun c' => c'.id == c.id) =
      (c.deliverableItcMapId == some itc && c.isDone == some true) := by
  rw [Bool.eq_iff_iff, List.any_eq_true, Bool.and_eq_true, beq_iff_eq]
  constructor
  · rintro ⟨c', hc', hid⟩
    obtain ⟨hc', hdone⟩ := List.mem_filter.mp hc'
    obtain ⟨hrow, hitc⟩ := mem_checksOf.mp hc'
    obtain rfl := Table.eq_of_key_eq hrow hc (beq_iff_eq.mp hid)
    exact ⟨hitc, hdone⟩
  · rintro ⟨hitc, hdone⟩
    exact ⟨c, List.mem_filter.mpr ⟨mem_checksOf.mpr ⟨hc, hitc⟩, hdone⟩, beq_self_eq_true _⟩

/-- What `ITC_change` makes of a check: it is ticked, and then unticked if it is a check of
the ITC that was done and is not submitted, where the loop came to its end. -/
theorem itcChange_check {db db' : ItpDb} {url : DeliverableUrl} {itcid : Nat}
    {itc : DeliverableItcMap} {form : TickForm} {user now : Nat}
    (hitc : db.itcOf url itcid = some itc) (h : itcChange db url itcid form user now = some db')
    {c : DeliverableCheckMap} (hc : c ∈ db.deliverableCheckMaps.rows) :
    db'.deliverableCheckMaps.get? c.id = some (
      if form.checked.all (db.tickable db.deliverableCheckMaps) &&
          ((c.deliverableItcMapId == some itc.id && c.isDone == some true) &&
            !form.checked.any (fun v => v.plain && v.id == c.id)) then
        (form.tick db user now c).uncomplete
      else form.tick db user now c) := by
  obtain ⟨itc', itps, completed, hitc', rfl, rfl⟩ := itcChange_cases h
  obtain rfl := Option.some.inj (hitc.symm.trans hitc')
  have hrow : (tickChecks db user now db.deliverableCheckMaps form.checked).1.get? c.id =
      some (form.tick db user now c) := by
    have hget : db.deliverableCheckMaps.get? c.id = some c := Table.get?_eq_some.mpr ⟨hc, rfl⟩
    unfold Table.get? at hget ⊢
    rw [Table.first?_of_map (tickChecks_rows db user now form.checked db.deliverableCheckMaps),
      hget, Option.map_some]
    · rfl
    · intro r
      split <;> rfl
  simp only [Table.get?_update_map, hrow, Option.map_some, tickChecks_finished, TickForm.unticked,
    TickForm.tick_id, completed_any hc]

/-- A check is as before exactly if it is the edited one and nothing is new for it, or
if it is another one and does not move. -/
theorem mem_shift_edit {t : DeliverableChecks} {itc checkid : Nat}
    {shift : Option Int → Option (Option Int)}
    (hshift : ∀ c ∈ checksOf t itc, (shift c.checkNumber).isSome = true) {status : String}
    {number : Option Int} {c : DeliverableCheckMap} (hc : c ∈ t.rows) :
    c ∈ ((t.update (fun c => c.deliverableItcMapId == some itc)
        (fun c => c.setNumber ((shift c.checkNumber).getD c.checkNumber))
        (fun _ => DeliverableCheckMap.setNumber_id _ _)).update (fun c => c.id == checkid)
        (·.edit status number) (DeliverableCheckMap.edit_id _ _)).rows ↔
      (c.id = checkid → c.edit status number = c) ∧
      (c.id ≠ checkid → c.deliverableItcMapId = some itc →
        shift c.checkNumber = some c.checkNumber) := by
  have hedit : ∀ n, (c.setNumber n).edit status number = c.edit status number := by
    intro n
    unfold DeliverableCheckMap.edit DeliverableCheckMap.setStatus DeliverableCheckMap.setNumber
    split <;> rfl
  have hmoved : ∀ n, c.setNumber n = c ↔ n = c.checkNumber := by
    intro n
    constructor
    · exact fun he => (congrArg DeliverableCheckMap.checkNumber he)
    · rintro rfl
      rfl
  rw [Table.mem_update_update_iff _ _ hc]
  by_cases hid : c.id = checkid
  · by_cases hitc : c.deliverableItcMapId = some itc
    · simp [hid, hitc, hedit]
    · simp [hid, hitc]
  · by_cases hitc : c.deliverableItcMapId = some itc
    · obtain ⟨n, hn⟩ := Option.isSome_iff_exists.mp (hshift c (mem_checksOf.mpr ⟨hc, hitc⟩))
      simp [hid, hitc, hn, hmoved]
    · simp [hid, hitc]

theorem mem_removeCheck {t : DeliverableChecks} {itc : Nat} {check c : DeliverableCheckMap}
    (hc : c ∈ t.rows) :
    c ∈ (removeCheck t itc check).rows ↔ c.id ≠ check.id ∧
      (c.deliverableItcMapId = some itc →
        closeUp (gapAfter (checksOf t itc).length check.checkNumber) c.checkNumber =
          c.checkNumber) := by
  unfold removeCheck
  by_cases hid : c.id = check.id
  · refine iff_of_false ?_ (fun h => h.1 hid)
    intro hm
    obtain ⟨c₀, hc₀, he⟩ := Table.mem_update.mp hm
    have hid₀ : c₀.id = check.id := by
      rw [← hid, ← he]
      split <;> rfl
    simpa [hid₀] using (Table.mem_delete.mp hc₀).2
  · have hkept : c ∈ (t.delete (fun c => c.id == check.id)).rows :=
      Table.mem_delete.mpr ⟨hc, beq_eq_false_iff_ne.mpr hid⟩
    rw [Table.mem_update_iff _ hkept]
    simp only [beq_iff_eq, ne_eq, hid, not_false_eq_true, true_and]
    refine imp_congr_right fun _ => ?_
    constructor
    · exact fun he => congrArg DeliverableCheckMap.checkNumber he
    · intro he
      rw [he]
      rfl

namespace ItpDb.Untouched

variable {db db' : ItpDb} {url : DeliverableUrl} {deliverable : Deliverable}

theorem itcChange_iff {itcid : Nat} {form : TickForm} {user now : Nat}
    (hr : itcChange db url itcid form user now = some db')
    (hd : db.deliverableOf url = some deliverable) :
    db.Untouched deliverable.id db' ↔
      (ItcRequest.change itcid form user now).Scoped url db deliverable.id := by
  obtain ⟨itc, itps, completed, hitc, -, hdb'⟩ := itcChange_cases hr
  obtain ⟨d, hd', hrow, hown, -⟩ := ItpDb.itcOf_eq_some hitc
  obtain rfl := Option.some.inj (hd'.symm.trans hd)
  have hitcs : ∀ m ∈ db.deliverableItcMaps.rows, m.foreign d.id = true →
      m ∈ db'.deliverableItcMaps.rows := by
    intro m hm hf
    rw [hdb']
    refine (Table.mem_update_iff (DeliverableItcMap.setComments_id _) hm).mpr ?_
    intro hid
    rw [Table.eq_of_key_eq hm hrow (beq_iff_eq.mp hid),
      DeliverableItcMap.foreign_of_own hown] at hf
    exact Bool.noConfusion hf
  have hchecks : ∀ c ∈ db.deliverableCheckMaps.rows, db.foreignCheck d.id c = true →
      (c ∈ db'.deliverableCheckMaps.rows ↔
        (c.id ∈ (form.checked.takeWhile (db.tickable db.deliverableCheckMaps)).map Tick.id →
          c.isDone = some true)) := by
    intro c hc hf
    -- a check of another deliverable does not lose its tick
    have hother : (c.deliverableItcMapId == some itc.id) = false := by
      rw [beq_eq_false_iff_ne]
      intro hc'
      rw [ItpDb.foreignCheck_eq hrow hc', DeliverableItcMap.foreign_of_own hown] at hf
      exact Bool.noConfusion hf
    have hget := itcChange_check hitc hr hc
    simp only [hother, Bool.false_and, Bool.and_false, Bool.false_eq_true, if_false] at hget
    rw [← form.tick_eq_self_iff db user now c, ← Option.some.injEq, ← hget, Table.get?_eq_some,
      and_iff_left rfl]
  simp only [ItpDb.Untouched, ItcRequest.Scoped, hitc, Option.some.injEq, forall_eq']
  constructor
  · intro hu tick htick c hget hf
    obtain ⟨hc, hid⟩ := Table.get?_eq_some.mp hget
    exact (hchecks c hc hf).mp (hu.2 c hc hf) (List.mem_map.mpr ⟨tick, htick, hid.symm⟩)
  · intro hs
    refine ⟨hitcs, ?_⟩
    intro c hc hf
    refine (hchecks c hc hf).mpr ?_
    intro hid
    obtain ⟨tick, htick, hid⟩ := List.mem_map.mp hid
    exact hs tick htick c (Table.get?_eq_some.mpr ⟨hc, hid.symm⟩) hf

/-- The ITC is written whatever deliverable it is of, and the numbers of the ITCs of
the deliverable. -/
theorem itcEdit_iff {itcid : Nat} {form : ItcForm} (hr : itcEdit db url itcid form = some db')
    (hd : db.deliverableOf url = some deliverable) :
    db.Untouched deliverable.id db' ↔ (ItcRequest.edit itcid form).Scoped url db deliverable.id := by
  simp only [itcEdit, hd, Option.bind_eq_bind, Option.bind_some, Option.bind_eq_some_iff,
    guard_eq_some, Option.pure_def, Option.some.injEq] at hr
  obtain ⟨itc, hitc, template, htemplate, -, hname, target, htarget, -, hshift, rfl⟩ := hr
  have haccepted : form.Accepted db deliverable.id itc template target := ⟨hname, hshift⟩
  have hrow := (Table.get?_eq_some.mp hitc).1
  simp only [ItpDb.Untouched, ItcRequest.Scoped, hitc, htemplate, htarget, Option.some.injEq,
    forall_eq', haccepted, true_imp_iff, ItcForm.keeps_iff]
  constructor
  · intro hu hf
    have hedit := hu.1 itc hrow hf
    rw [Table.mem_update_update_iff _ _ hrow] at hedit
    simpa [DeliverableItcMap.ne_of_foreign hf] using hedit
  · intro hs
    refine ⟨?_, fun c hc _ => hc⟩
    intro m hm hf
    rw [Table.mem_update_update_iff _ _ hm]
    by_cases hid : m.id = itc.id
    · have hm := Table.eq_of_key_eq hm hrow hid
      subst hm
      simpa [DeliverableItcMap.ne_of_foreign hf] using hs hf
    · simp [DeliverableItcMap.ne_of_foreign hf, hid]

/-- The ITC is deleted whatever deliverable it is of, and its checks lose it. -/
theorem itcDelete_iff {itcid : Nat} (hr : itcDelete db url itcid = some db')
    (hd : db.deliverableOf url = some deliverable) :
    db.Untouched deliverable.id db' ↔ (ItcRequest.delete itcid).Scoped url db deliverable.id := by
  obtain ⟨d, hd', itc, hitc, template, htemplate, hclose⟩ :=
    itcDelete_isSome.mp (Option.isSome_iff_exists.mpr ⟨db', hr⟩)
  obtain rfl := Option.some.inj ((ItpDb.deliverableOfProject_eq hd).symm.trans hd')
  simp only [itcDelete, hd', hitc, htemplate, Option.bind_eq_bind, Option.bind_some,
    Option.bind_eq_some_iff, guard_eq_some, Option.pure_def, Option.some.injEq] at hr
  obtain ⟨-, -, rfl⟩ := hr
  have hrow := (Table.get?_eq_some.mp hitc).1
  simp only [ItpDb.Untouched, ItcRequest.Scoped, hitc, htemplate, Option.some.injEq, forall_eq',
    hclose, true_imp_iff]
  constructor
  · intro hu
    by_contra hf
    obtain ⟨m, hm, he⟩ := Table.mem_update.mp (hu.1 itc hrow (by simpa using hf))
    have hid : m.id = itc.id := by
      rw [← he]
      split <;> rfl
    simpa [hid] using (Table.mem_delete.mp hm).2
  · intro hown
    constructor
    · intro m hm hf
      have hid : m.id ≠ itc.id := by
        intro hid
        rw [Table.eq_of_key_eq hm hrow hid, hown] at hf
        exact Bool.noConfusion hf
      have hkept : m ∈ (db.dropItcs (fun m => m.id == itc.id)).deliverableItcMaps.rows :=
        Table.mem_delete.mpr ⟨hm, beq_eq_false_iff_ne.mpr hid⟩
      rw [Table.mem_update_iff _ hkept, DeliverableItcMap.ne_of_foreign hf]
      exact fun h => Bool.noConfusion h
    · intro c hc hf
      refine (Table.mem_update_iff DeliverableCheckMap.forgetItc_id hc).mpr ?_
      intro hdropped
      obtain ⟨m, hm, hmc⟩ := List.any_eq_true.mp hdropped
      simp only [Bool.and_eq_true, beq_iff_eq] at hmc
      rw [ItpDb.foreignCheck_eq hm hmc.2, Table.eq_of_key_eq hm hrow hmc.1, hown] at hf
      exact Bool.noConfusion hf

/-- The check is written whatever deliverable it is of, and so are the numbers of the
checks of the ITC. -/
theorem checkEdit_iff {itcid checkid : Nat} {form : CheckForm}
    (hr : checkEdit db url.toItpUrl itcid checkid form = some db') {d : Nat} :
    db.Untouched d db' ↔ (ItcRequest.checkEdit itcid checkid form).Scoped url db d := by
  simp only [checkEdit, Option.bind_eq_bind, Option.bind_eq_some_iff, guard_eq_some,
    Option.pure_def, Option.some.injEq] at hr
  obtain ⟨itp, -, itc, hitc, check, hcheck, target, htarget, -, hshift, rfl⟩ := hr
  have hitcRow := (Table.get?_eq_some.mp hitc).1
  have hcheckRow := (Table.get?_eq_some.mp hcheck).1
  simp only [ItpDb.Untouched, ItcRequest.Scoped, hitc, hcheck, htarget, Option.some.injEq,
    forall_eq', CheckForm.keeps_iff]
  constructor
  · intro hu _
    constructor
    · intro hf
      exact ((mem_shift_edit hshift hcheckRow).mp (hu.2 check hcheckRow hf)).1 rfl
    · intro hf c hc hne
      obtain ⟨hc, hcitc⟩ := mem_checksOf.mp hc
      have hfc : db.foreignCheck d c = true := by rw [ItpDb.foreignCheck_eq hitcRow hcitc, hf]
      exact ((mem_shift_edit hshift hc).mp (hu.2 c hc hfc)).2 hne hcitc
  · intro hs
    obtain ⟨hown, hothers⟩ := hs hshift
    refine ⟨fun m hm _ => hm, ?_⟩
    intro c hc hf
    refine (mem_shift_edit hshift hc).mpr ⟨?_, ?_⟩
    · intro hid
      obtain rfl := Table.eq_of_key_eq hc hcheckRow hid
      exact hown hf
    · intro hne hcitc
      rw [ItpDb.foreignCheck_eq hitcRow hcitc] at hf
      exact hothers hf c (mem_checksOf.mpr ⟨hc, hcitc⟩) hne

theorem checkDelete_iff {itcid checkid : Nat}
    (hr : checkDelete db url.toItpUrl itcid checkid = some db') {d : Nat} :
    db.Untouched d db' ↔ (ItcRequest.checkDelete itcid checkid).Scoped url db d := by
  simp only [checkDelete, Option.bind_eq_bind, Option.bind_eq_some_iff, guard_eq_some,
    Option.pure_def, Option.some.injEq] at hr
  obtain ⟨itp, -, itc, hitc, check, hcheck, -, hnumbers, rfl⟩ := hr
  have hitcRow := (Table.get?_eq_some.mp hitc).1
  have hcheckRow := (Table.get?_eq_some.mp hcheck).1
  simp only [ItpDb.Untouched, ItcRequest.Scoped, hitc, hcheck, Option.some.injEq, forall_eq']
  constructor
  · intro hu _
    constructor
    · by_contra hf
      have hkept := hu.2 check hcheckRow (by simpa using hf)
      exact ((mem_removeCheck hcheckRow).mp hkept).1 rfl
    · intro hf c hc
      obtain ⟨hc, hcitc⟩ := mem_checksOf.mp hc
      have hfc : db.foreignCheck d c = true := by rw [ItpDb.foreignCheck_eq hitcRow hcitc, hf]
      exact ((mem_removeCheck hc).mp (hu.2 c hc hfc)).2 hcitc
  · intro hs
    obtain ⟨hown, hothers⟩ := hs hnumbers
    refine ⟨fun m hm _ => hm, ?_⟩
    intro c hc hf
    refine (mem_removeCheck hc).mpr ⟨?_, ?_⟩
    · intro hid
      rw [Table.eq_of_key_eq hc hcheckRow hid, hown] at hf
      exact Bool.noConfusion hf
    · intro hcitc
      rw [ItpDb.foreignCheck_eq hitcRow hcitc] at hf
      exact hothers hf c (mem_checksOf.mpr ⟨hc, hcitc⟩)

end ItpDb.Untouched

theorem ItpDb.itpOf_of_deliverableOf {db : ItpDb} {url : DeliverableUrl} {d : Deliverable}
    (h : db.deliverableOf url = some d) : ∃ itp, db.itpOf url.toItpUrl = some itp := by
  obtain ⟨itp, hitp, -⟩ := Option.bind_eq_some_iff.mp h
  exact ⟨itp, hitp⟩

/-- A request under the URL of a deliverable leaves the rows of the other deliverables
as they are exactly if it is scoped. -/
theorem itcRequest_untouched_iff (db : ItpDb) (url : DeliverableUrl) (deliverable : Deliverable)
    (hd : db.deliverableOf url = some deliverable) (request : ItcRequest) :
    db.Untouched deliverable.id (serve (ItcRequest.commit url) db request) ↔
      request.Scoped url db deliverable.id := by
  obtain ⟨itp, hitp⟩ := ItpDb.itpOf_of_deliverableOf hd
  refine serve_iff (ItpDb.Untouched.refl db deliverable.id) ?_ ?_
  · intro hn
    -- a request that commits nothing lacks one of the rows or values it reads
    cases request with
    | change itcid form user now =>
      intro itc hitc
      simp [ItcRequest.commit, itcChange, hitc] at hn
    | edit itcid form =>
      intro itc hitc template htemplate target htarget haccepted
      have hsome : ∃ db', itcEdit db url itcid form = some db' := by
        simp only [itcEdit, Option.bind_eq_bind, Option.bind_eq_some_iff, guard_eq_some]
        exact ⟨_, deliverable, hd, itc, hitc, template, htemplate, (), haccepted.1, target, htarget,
          (), haccepted.2, rfl⟩
      obtain ⟨db', hr⟩ := hsome
      exact absurd (hn.symm.trans hr).symm (Option.some_ne_none _)
    | delete itcid =>
      intro itc hitc template htemplate hclose
      obtain ⟨db', hr⟩ := Option.isSome_iff_exists.mp (itcDelete_isSome.mpr
        ⟨deliverable, ItpDb.deliverableOfProject_eq hd, itc, hitc, template, htemplate, hclose⟩)
      exact absurd (hn.symm.trans hr).symm (Option.some_ne_none _)
    | checkEdit itcid checkid form =>
      intro itc hitc check hcheck target htarget hshift
      have hsome : ∃ db', checkEdit db url.toItpUrl itcid checkid form = some db' := by
        simp only [checkEdit, Option.bind_eq_bind, Option.bind_eq_some_iff, guard_eq_some]
        exact ⟨_, itp, hitp, itc, hitc, check, hcheck, target, htarget, (), hshift, rfl⟩
      obtain ⟨db', hr⟩ := hsome
      exact absurd (hn.symm.trans hr).symm (Option.some_ne_none _)
    | checkDelete itcid checkid =>
      intro itc hitc check hcheck hnumbers
      have hsome : ∃ db', checkDelete db url.toItpUrl itcid checkid = some db' := by
        simp only [checkDelete, Option.bind_eq_bind, Option.bind_eq_some_iff, guard_eq_some]
        exact ⟨_, itp, hitp, itc, hitc, check, hcheck, (), hnumbers, rfl⟩
      obtain ⟨db', hr⟩ := hsome
      exact absurd (hn.symm.trans hr).symm (Option.some_ne_none _)
  · intro db' hr
    cases request with
    | change itcid form user now => exact ItpDb.Untouched.itcChange_iff hr hd
    | edit itcid form => exact ItpDb.Untouched.itcEdit_iff hr hd
    | delete itcid => exact ItpDb.Untouched.itcDelete_iff hr hd
    | checkEdit itcid checkid form => exact ItpDb.Untouched.checkEdit_iff hr
    | checkDelete itcid checkid => exact ItpDb.Untouched.checkDelete_iff hr

/-- The project after the pumps 1 and 2 are made: ITC 1 has the checks 1 and 2, and
ITC 2 the checks 3 and 4. -/
def twoPumps : ItpDb :=
  ((deliverableNew pumpProject pumpItp (pumpForm "pump 1") 10).bind
    (fun db => deliverableNew db pumpItp (pumpForm "pump 2") 10)).getD pumpProject

theorem itcRequest_untouched_iff_twoPumps :
    ∃ deliverable, twoPumps.deliverableOf (pumpUrl 1) = some deliverable ∧
      twoPumps.Untouched deliverable.id
        (serve (ItcRequest.commit (pumpUrl 1)) twoPumps (.change 1 ⟨[⟨1, true⟩], ""⟩ 1 20)) := by
  obtain ⟨d, hd⟩ : ∃ d, twoPumps.deliverableOf (pumpUrl 1) = some d :=
    Option.isSome_iff_exists.mp (by decide +kernel)
  have hid : (twoPumps.deliverableOf (pumpUrl 1)).map Deliverable.id = some 1 := by decide +kernel
  rw [hd, Option.map_some, Option.some.injEq] at hid
  refine ⟨d, hd, (itcRequest_untouched_iff _ _ d hd _).mpr ?_⟩
  intro itc _ tick htick c hget hf
  have hcheck : twoPumps.deliverableCheckMaps.get? 1 = some (newCheck 1 1 1 1) := by decide +kernel
  have hown : twoPumps.foreignCheck 1 (newCheck 1 1 1 1) = false := by decide +kernel
  obtain rfl := List.mem_singleton.mp (List.takeWhile_subset _ htick)
  obtain rfl := Option.some.inj (hget.symm.trans hcheck)
  rw [hid, hown] at hf
  exact Bool.noConfusion hf

/-- The checklist of an ITC of pump 1 is saved with a tick for a check of pump 2. -/
theorem itcChange_ticks_foreign_check :
    ∃ deliverable, twoPumps.deliverableOf (pumpUrl 1) = some deliverable ∧
      ¬ twoPumps.Untouched deliverable.id
        (serve (ItcRequest.commit (pumpUrl 1)) twoPumps (.change 1 ⟨[⟨3, true⟩], ""⟩ 1 20)) := by
  obtain ⟨d, hd⟩ : ∃ d, twoPumps.deliverableOf (pumpUrl 1) = some d :=
    Option.isSome_iff_exists.mp (by decide +kernel)
  have hid : (twoPumps.deliverableOf (pumpUrl 1)).map Deliverable.id = some 1 := by decide +kernel
  rw [hd, Option.map_some, Option.some.injEq] at hid
  refine ⟨d, hd, ?_⟩
  intro hu
  have hlost : ∃ c ∈ twoPumps.deliverableCheckMaps.rows, twoPumps.foreignCheck 1 c = true ∧
      c ∉ (serve (ItcRequest.commit (pumpUrl 1)) twoPumps
        (.change 1 ⟨[⟨3, true⟩], ""⟩ 1 20)).deliverableCheckMaps.rows := by
    decide +kernel
  obtain ⟨c, hc, hf, hlost⟩ := hlost
  rw [← hid] at hf
  exact hlost (hu.2 c hc hf)

end Medusa
