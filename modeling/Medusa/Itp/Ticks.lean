import Medusa.Itp.Scope

/-! Saving the ticks of a checklist. The loop over the submitted checks prints the
template of each of them and ends with an exception at one that has none; what it
ticked before stays, and nothing is unticked then. -/

namespace Medusa

open Relational

def TickForm.ids (form : TickForm) : List Nat := form.checked.map Tick.id

/-- What saving the ticks should make of a check. -/
structure TicksSaved (form : TickForm) (user now : Nat) (c c' : DeliverableCheckMap) : Prop where
  done : c'.isDone = some true ↔ c.id ∈ form.ids
  kept : c.isDone = some true → c.id ∈ form.ids →
    c'.completionDatetime = c.completionDatetime ∧ c'.completionByUserId = c.completionByUserId
  ticked : c.isDone ≠ some true → c.id ∈ form.ids →
    c'.status = some "Completed" ∧ c'.completionByUserId = some user ∧
      c'.completionDatetime = some now
  unticked : c.isDone = some true → c.id ∉ form.ids →
    c'.status = some "In Progress" ∧ c'.completionDatetime = none ∧ c'.completionByUserId = none
  others : c.isDone ≠ some true → c.id ∉ form.ids → c' = c

/-- Every submitted check is there and has its template. -/
def TickForm.AllTickable (form : TickForm) (db : ItpDb) : Prop :=
  ∀ tick ∈ form.checked, db.tickable db.deliverableCheckMaps tick = true

/-- The loop comes to every check that it has to tick, and to its end if there is a
check to untick. A check that was done is submitted as Python writes its id. -/
structure TickForm.Saves (form : TickForm) (db : ItpDb) (itc : Nat) : Prop where
  kept : ∀ c ∈ checksOf db.deliverableCheckMaps itc, c.isDone = some true → c.id ∈ form.ids →
    form.AllTickable db → ∃ tick ∈ form.checked, tick.plain = true ∧ tick.id = c.id
  ticked : ∀ c ∈ checksOf db.deliverableCheckMaps itc, c.isDone ≠ some true → c.id ∈ form.ids →
    c.id ∈ (form.checked.takeWhile (db.tickable db.deliverableCheckMaps)).map Tick.id
  unticked : ∀ c ∈ checksOf db.deliverableCheckMaps itc, c.isDone = some true → c.id ∉ form.ids →
    form.AllTickable db

/-- What the request makes of a check of the ITC. -/
def TickForm.after (form : TickForm) (db : ItpDb) (user now : Nat) (c : DeliverableCheckMap) :
    DeliverableCheckMap :=
  if c.isDone = some true then
    if form.checked.all (db.tickable db.deliverableCheckMaps) &&
        !form.checked.any (fun v => v.plain && v.id == c.id) then
      c.uncomplete
    else c
  else if c.id ∈ (form.checked.takeWhile (db.tickable db.deliverableCheckMaps)).map Tick.id then
    c.complete user now
  else c

namespace TickForm

variable (form : TickForm) {db : ItpDb} {user now : Nat} {c : DeliverableCheckMap}

theorem after_unticked (hdone : c.isDone = some true) (hall : form.AllTickable db)
    (hplain : ¬ ∃ tick ∈ form.checked, tick.plain = true ∧ tick.id = c.id) :
    form.after db user now c = c.uncomplete := by
  have hnone : form.checked.any (fun v => v.plain && v.id == c.id) = false := by
    simpa using hplain
  rw [after, if_pos hdone, List.all_eq_true.mpr hall, hnone]
  rfl

theorem after_kept (hdone : c.isDone = some true) (h : form.AllTickable db →
    ∃ tick ∈ form.checked, tick.plain = true ∧ tick.id = c.id) : form.after db user now c = c := by
  rw [after, if_pos hdone, if_neg]
  intro hb
  rw [Bool.and_eq_true, Bool.not_eq_true'] at hb
  obtain ⟨tick, htick, hplain, hid⟩ := h (List.all_eq_true.mp hb.1)
  have hany : form.checked.any (fun v => v.plain && v.id == c.id) = true :=
    List.any_eq_true.mpr ⟨tick, htick, by simp [hplain, hid]⟩
  rw [hb.2] at hany
  exact Bool.false_ne_true hany

theorem after_ticked (hdone : c.isDone ≠ some true)
    (htick : c.id ∈ (form.checked.takeWhile (db.tickable db.deliverableCheckMaps)).map Tick.id) :
    form.after db user now c = c.complete user now := by
  rw [after, if_neg hdone, if_pos htick]

theorem after_others (hdone : c.isDone ≠ some true)
    (htick : c.id ∉ (form.checked.takeWhile (db.tickable db.deliverableCheckMaps)).map Tick.id) :
    form.after db user now c = c := by
  rw [after, if_neg hdone, if_neg htick]

end TickForm

theorem itcChange_row {db db' : ItpDb} {url : DeliverableUrl} {itcid : Nat}
    {itc : DeliverableItcMap} {form : TickForm} {user now : Nat}
    (hitc : db.itcOf url itcid = some itc) (h : itcChange db url itcid form user now = some db')
    {c : DeliverableCheckMap} (hc : c ∈ checksOf db.deliverableCheckMaps itc.id) :
    db'.deliverableCheckMaps.get? c.id = some (form.after db user now c) := by
  obtain ⟨hrow, hown⟩ := mem_checksOf.mp hc
  rw [itcChange_check hitc h hrow, beq_iff_eq.mpr hown, Bool.true_and]
  unfold TickForm.after TickForm.tick
  by_cases hdone : c.isDone = some true
  · simp [hdone]
  · have hnot : (c.isDone == some true) = false := beq_false_of_ne hdone
    simp only [hnot, Bool.false_and, Bool.and_false, Bool.false_eq_true, if_false, hdone, ne_eq,
      not_false_eq_true, true_and]

theorem ticksSaved_after_iff (form : TickForm) (db : ItpDb) (user now : Nat)
    (c : DeliverableCheckMap) :
    TicksSaved form user now c (form.after db user now c) ↔
      (c.isDone = some true → c.id ∈ form.ids → form.AllTickable db →
        ∃ tick ∈ form.checked, tick.plain = true ∧ tick.id = c.id) ∧
      (c.isDone ≠ some true → c.id ∈ form.ids →
        c.id ∈ (form.checked.takeWhile (db.tickable db.deliverableCheckMaps)).map Tick.id) ∧
      (c.isDone = some true → c.id ∉ form.ids → form.AllTickable db) := by
  by_cases hdone : c.isDone = some true <;> by_cases hin : c.id ∈ form.ids
  · constructor
    · intro hsaved
      refine ⟨fun _ _ hall => ?_, fun hn => absurd hdone hn, fun _ hn => absurd hin hn⟩
      by_contra hplain
      have hfalse := hsaved.done.mpr hin
      rw [form.after_unticked hdone hall hplain] at hfalse
      exact absurd (Option.some.inj hfalse) Bool.false_ne_true
    · intro hcond
      rw [form.after_kept hdone (hcond.1 hdone hin)]
      exact ⟨iff_of_true hdone hin, fun _ _ => ⟨rfl, rfl⟩, fun hn => absurd hdone hn,
        fun _ hn => absurd hin hn, fun hn => absurd hdone hn⟩
  · have hplain : ¬ ∃ tick ∈ form.checked, tick.plain = true ∧ tick.id = c.id := by
      rintro ⟨tick, htick, -, hid⟩
      exact hin (hid ▸ List.mem_map_of_mem htick)
    constructor
    · intro hsaved
      refine ⟨fun _ hh => absurd hh hin, fun hn => absurd hdone hn, fun _ _ => ?_⟩
      by_contra hall
      have htrue := hsaved.done.mp
      rw [form.after_kept hdone (fun hh => absurd hh hall)] at htrue
      exact hin (htrue hdone)
    · intro hcond
      rw [form.after_unticked hdone (hcond.2.2 hdone hin) hplain]
      exact ⟨iff_of_false (by simp [DeliverableCheckMap.uncomplete]) hin,
        fun _ hh => absurd hh hin, fun hn => absurd hdone hn, fun _ _ => ⟨rfl, rfl, rfl⟩,
        fun hn => absurd hdone hn⟩
  · constructor
    · intro hsaved
      refine ⟨fun hh => absurd hh hdone, fun _ _ => ?_, fun hh => absurd hh hdone⟩
      by_contra htick
      have htrue := hsaved.done.mpr hin
      rw [form.after_others hdone htick] at htrue
      exact hdone htrue
    · intro hcond
      rw [form.after_ticked hdone (hcond.2.1 hdone hin)]
      exact ⟨iff_of_true rfl hin, fun hh => absurd hh hdone, fun _ _ => ⟨rfl, rfl, rfl⟩,
        fun hh => absurd hh hdone, fun _ hn => absurd hin hn⟩
  · refine iff_of_true ?_ ⟨fun hh => absurd hh hdone, fun _ hh => absurd hh hin,
      fun hh => absurd hh hdone⟩
    rw [form.after_others hdone (fun htick => hin
      (((List.takeWhile_sublist _).map Tick.id).subset htick))]
    exact ⟨iff_of_false hdone hin, fun hh => absurd hh hdone, fun _ hh => absurd hh hin,
      fun hh => absurd hh hdone, fun _ _ => rfl⟩

/-- Saving ticks makes of every check of the ITC what it should, exactly if the loop over
the submitted checks gets far enough. -/
theorem itcChange_saves_iff {db : ItpDb} {url : DeliverableUrl} {itcid : Nat}
    {itc : DeliverableItcMap} (hitc : db.itcOf url itcid = some itc) (form : TickForm)
    (user now : Nat) :
    (∃ db', itcChange db url itcid form user now = some db' ∧
      ∀ c ∈ checksOf db.deliverableCheckMaps itc.id, ∃ c' ∈ db'.deliverableCheckMaps.rows,
        c'.id = c.id ∧ TicksSaved form user now c c') ↔ form.Saves db itc.id := by
  obtain ⟨db', hchange⟩ : ∃ db', itcChange db url itcid form user now = some db' := by
    simp only [itcChange, hitc, Option.bind_eq_bind, Option.bind_some, Option.pure_def]
    exact ⟨_, rfl⟩
  have hrow : ∀ c ∈ checksOf db.deliverableCheckMaps itc.id,
      ((∃ c' ∈ db'.deliverableCheckMaps.rows, c'.id = c.id ∧ TicksSaved form user now c c') ↔
        TicksSaved form user now c (form.after db user now c)) := by
    intro c hc
    have hafter := itcChange_row hitc hchange hc
    constructor
    · rintro ⟨c', hc', hid, hsaved⟩
      obtain rfl := Option.some.inj ((Table.get?_eq_some.mpr ⟨hc', hid⟩).symm.trans hafter)
      exact hsaved
    · intro hsaved
      have hmem := Table.get?_eq_some.mp hafter
      exact ⟨_, hmem.1, hmem.2, hsaved⟩
  constructor
  · rintro ⟨db'', hchange', hsaved⟩
    obtain rfl := Option.some.inj (hchange.symm.trans hchange')
    have hcond := fun c hc => (ticksSaved_after_iff form db user now c).mp
      ((hrow c hc).mp (hsaved c hc))
    exact ⟨fun c hc => (hcond c hc).1, fun c hc => (hcond c hc).2.1, fun c hc => (hcond c hc).2.2⟩
  · intro h
    exact ⟨db', hchange, fun c hc => (hrow c hc).mpr ((ticksSaved_after_iff form db user now c).mpr
      ⟨h.kept c hc, h.ticked c hc, h.unticked c hc⟩)⟩

/-- All checks of an ITC are saved as ticked. -/
theorem itcChange_saves_iff_twoPumps :
    ∃ itc, twoPumps.itcOf (pumpUrl 1) 1 = some itc ∧
      ∃ db', itcChange twoPumps (pumpUrl 1) 1 ⟨[⟨1, true⟩, ⟨2, true⟩], ""⟩ 1 20 = some db' ∧
        ∀ c ∈ checksOf twoPumps.deliverableCheckMaps itc.id,
          ∃ c' ∈ db'.deliverableCheckMaps.rows, c'.id = c.id ∧
            TicksSaved ⟨[⟨1, true⟩, ⟨2, true⟩], ""⟩ 1 20 c c' := by
  obtain ⟨itc, hitc⟩ : ∃ itc, twoPumps.itcOf (pumpUrl 1) 1 = some itc :=
    Option.isSome_iff_exists.mp (by decide +kernel)
  have hid : (twoPumps.itcOf (pumpUrl 1) 1).map DeliverableItcMap.id = some 1 := by decide +kernel
  rw [hitc, Option.map_some, Option.some.injEq] at hid
  refine ⟨itc, hitc, (itcChange_saves_iff hitc _ 1 20).mpr ?_⟩
  have hopen : ∀ c ∈ checksOf twoPumps.deliverableCheckMaps 1, c.isDone ≠ some true := by
    decide +kernel
  have hall : ([⟨1, true⟩, ⟨2, true⟩] : List Tick).takeWhile
      (twoPumps.tickable twoPumps.deliverableCheckMaps) = [⟨1, true⟩, ⟨2, true⟩] := by
    rfl
  rw [hid]
  exact ⟨fun c hc hdone => absurd hdone (hopen c hc), fun c hc _ hin => by rw [hall]; exact hin,
    fun c hc hdone => absurd hdone (hopen c hc)⟩

/-- The generic check behind the first check is deleted. Both checks are submitted then,
and neither is done afterwards. -/
theorem itcChange_stops_at_missing_template :
    (((genericCheckDelete twoPumps 1).bind (fun db =>
      itcChange db (pumpUrl 1) 1 ⟨[⟨1, true⟩, ⟨2, true⟩], ""⟩ 1 20)).map (fun db' =>
        (checksOf db'.deliverableCheckMaps 1).map (fun c => (c.id, c.isDone)))) =
      some [(1, some false), (2, some false)] := by
  decide +kernel

end Medusa
