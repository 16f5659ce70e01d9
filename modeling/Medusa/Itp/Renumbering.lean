import Medusa.Itp.CheckNumbers
import Medusa.Itp.GroupNumbers

/-! Moving and deleting the rows of a numbered list: the checks of an ITC, and the
ITCs of a deliverable within an ITC group. A row that is moved down by less than to
the last place gets a number that another row keeps. An ITC that is deleted closes
a gap in all groups of the deliverable, although only its own group has one. -/

namespace Medusa

open Relational

/-- The row moves down, but not to the last place. -/
def MovesDown (count : Int) (old : Option Int) (target : Int) : Prop :=
  ∃ o : Int, old = some o ∧ o < target ∧ target < count

/-- The new number of a row with the number `n` when the row with the number `o` is moved. -/
def shifted (count o target n : Int) : Int :=
  if o = target then n
  else if count ≤ target then (if o < n then n - 1 else n)
  else if target ≤ n ∧ n < o then n + 1 else n

theorem shiftNumber_some (count o target n : Int) :
    shiftNumber count (some o) target (some n) = some (some (shifted count o target n)) := by
  unfold shiftNumber shifted
  by_cases ho : o = target
  · simp [ho]
  · by_cases hc : count ≤ target
    · simp [ho, hc]
    · by_cases hn : target ≤ n
      · simp [ho, hc, hn]
      · simp [ho, hc, hn]

theorem landing_some (count o target : Int) (ho : o ≤ count) :
    landing count (some o) target = some (min target count) := by
  unfold landing
  split
  · next h =>
    obtain rfl := Option.some.inj h
    rw [min_eq_left ho]
  · rfl

section Shift

variable {count o k a b : Int}

/-- The row at the place that another row moves down to stays there. -/
theorem shifted_target (hdown : o < k) (hlast : k < count) : shifted count o k k = k := by
  unfold shifted
  rw [if_neg (by omega), if_neg (by omega), if_neg (by omega)]

theorem shifted_range (holow : 1 ≤ o) (hohigh : o ≤ count) (hlow : 1 ≤ a) (hhigh : a ≤ count) :
    1 ≤ shifted count o k a ∧ shifted count o k a ≤ count := by
  unfold shifted
  split_ifs <;> omega

theorem shifted_ne_landing (hdir : k ≤ o ∨ count ≤ k) (hohigh : o ≤ count) (hhigh : a ≤ count)
    (hne : a ≠ o) : shifted count o k a ≠ min k count := by
  unfold shifted
  split_ifs <;> omega

theorem shifted_lt_iff (ha : a ≠ o) (hb : b ≠ o) :
    shifted count o k a < shifted count o k b ↔ a < b := by
  unfold shifted
  split_ifs <;> omega

theorem shifted_inj (ha : a ≠ o) (hb : b ≠ o) (h : shifted count o k a = shifted count o k b) :
    a = b := by
  rcases lt_trichotomy a b with hlt | heq | hlt
  · exact absurd h ((shifted_lt_iff ha hb).mpr hlt).ne
  · exact heq
  · exact absurd h ((shifted_lt_iff hb ha).mpr hlt).ne'

end Shift

section Rows

variable {ρ : Type*} {key : ρ → Nat} {num number : ρ → Option Int} {rows : List ρ} {moved : ρ}
  {k : Int}

theorem shiftNumber_defined (h : Numbered (rows.map num)) (hmoved : moved ∈ rows) {r : ρ}
    (hr : r ∈ rows) :
    ∃ number, shiftNumber rows.length (num moved) k (num r) = some number := by
  obtain ⟨o, ho, -⟩ := h.mem_iff.mp (List.mem_map_of_mem hmoved)
  obtain ⟨n, hn, -⟩ := h.mem_iff.mp (List.mem_map_of_mem hr)
  exact ⟨_, by rw [ho, hn, shiftNumber_some]⟩

theorem eq_moved_or_other (hkeys : (rows.map key).Nodup) (hmoved : moved ∈ rows) {r : ρ}
    (hr : r ∈ rows) : r = moved ∨ r ∈ rows.filter (fun r => !(key r == key moved)) := by
  by_cases hkey : key r = key moved
  · exact Or.inl (List.inj_on_of_nodup_map hkeys hr hmoved hkey)
  · exact Or.inr (List.mem_filter.mpr ⟨hr, by simp [hkey]⟩)

/-- The new number of a row that is not moved, from its old one. -/
theorem number_of_other (h : Numbered (rows.map num)) (hmoved : moved ∈ rows) {o : Int}
    (ho : num moved = some o)
    (hothers : ∀ r ∈ rows.filter (fun r => !(key r == key moved)),
      some (number r) = shiftNumber rows.length (num moved) k (num r))
    {r : ρ} (hr : r ∈ rows.filter (fun r => !(key r == key moved))) :
    ∃ a : Int, num r = some a ∧ 1 ≤ a ∧ a ≤ rows.length ∧ a ≠ o ∧
      number r = some (shifted rows.length o k a) := by
  obtain ⟨n, a, hn, ha, hne, -, hhigh⟩ := numbers_of_other h hmoved hr
  obtain ⟨a', ha', hlow, -⟩ := h.mem_iff.mp (List.mem_map_of_mem (List.mem_filter.mp hr).1)
  rw [ho, Option.some.injEq] at hn
  rw [ha, Option.some.injEq] at ha'
  subst hn ha'
  have hnew := hothers r hr
  rw [ho, ha, shiftNumber_some, Option.some.injEq] at hnew
  exact ⟨a, ha, hlow, hhigh, hne, hnew⟩

/-- The numbers that the handlers give are those of a move, unless the row moves down. -/
theorem movedTo_iff (h : Numbered (rows.map num)) (hkeys : (rows.map key).Nodup)
    (hmoved : moved ∈ rows) (hk : 1 ≤ k)
    (hlands : number moved = landing rows.length (num moved) k)
    (hothers : ∀ r ∈ rows.filter (fun r => !(key r == key moved)),
      some (number r) = shiftNumber rows.length (num moved) k (num r)) :
    MovedTo key num number rows moved k ↔ ¬ MovesDown rows.length (num moved) k := by
  obtain ⟨o, ho, holow, hohigh⟩ := h.mem_iff.mp (List.mem_map_of_mem hmoved)
  rw [List.length_map] at hohigh
  rw [ho, landing_some _ _ _ hohigh] at hlands
  have hother := fun {r : ρ} => number_of_other (r := r) h hmoved ho hothers
  constructor
  · rintro hm ⟨o', ho', hlt, hlast⟩
    rw [ho, Option.some.injEq] at ho'
    subst ho'
    -- the row that has the number already keeps it
    have hthere : some k ∈ rows.map num := by
      rw [h.mem_iff, List.length_map]
      exact ⟨k, rfl, hk, by omega⟩
    obtain ⟨r, hr, hrk⟩ := List.mem_map.mp hthere
    rcases eq_moved_or_other hkeys hmoved hr with rfl | hr'
    · rw [ho, Option.some.injEq] at hrk
      omega
    · obtain ⟨a, ha, -, -, -, hnew⟩ := hother hr'
      rw [hrk, Option.some.injEq] at ha
      subst ha
      have hsame : number r = number moved := by
        rw [hnew, hlands, shifted_target hlt hlast, min_eq_left (by omega)]
      have heq := List.inj_on_of_nodup_map hm.numbered.nodup hr hmoved hsame
      simp [heq] at hr'
  · intro hdown
    have hdir : k ≤ o ∨ (rows.length : Int) ≤ k := by
      by_contra hc
      exact hdown ⟨o, ho, by omega, by omega⟩
    refine ⟨h.rewrite ?_ ?_, hlands, ?_⟩
    · intro r hr
      rcases eq_moved_or_other hkeys hmoved hr with rfl | hr
      · exact ⟨_, hlands, by omega, by omega⟩
      · obtain ⟨a, -, hlow, hhigh, -, hnew⟩ := hother hr
        exact ⟨_, hnew, shifted_range holow hohigh hlow hhigh⟩
    · intro r hr r' hr' he
      rcases eq_moved_or_other hkeys hmoved hr with rfl | hr <;>
        rcases eq_moved_or_other hkeys hmoved hr' with rfl | hr'
      · rfl
      · obtain ⟨b, -, -, hhigh, hne, hnew⟩ := hother hr'
        rw [hlands, hnew, Option.some.injEq] at he
        exact absurd he.symm (shifted_ne_landing hdir hohigh hhigh hne)
      · obtain ⟨a, -, -, hhigh, hne, hnew⟩ := hother hr
        rw [hlands, hnew, Option.some.injEq] at he
        exact absurd he (shifted_ne_landing hdir hohigh hhigh hne)
      · obtain ⟨a, ha, -, -, hane, hnewa⟩ := hother hr
        obtain ⟨b, hb, -, -, hbne, hnewb⟩ := hother hr'
        rw [hnewa, hnewb, Option.some.injEq] at he
        rw [ha, hb, shifted_inj hane hbne he]
    · intro r hr r' hr'
      obtain ⟨a, ha, -, -, hane, hnewa⟩ := hother hr
      obtain ⟨b, hb, -, -, hbne, hnewb⟩ := hother hr'
      rw [hnewa, hnewb, ha, hb, Option.some_lt_some, Option.some_lt_some]
      exact shifted_lt_iff hane hbne

end Rows

/-- The ITCs of the deliverable were made from templates that are there and are all
different. -/
structure ItpDb.DistinctTemplates (db : ItpDb) (deliverable : Nat) : Prop where
  found : ∀ m ∈ itcsOf db.deliverableItcMaps deliverable, ∃ template, m.template db.itcs = some template
  nodup : ((itcsOf db.deliverableItcMaps deliverable).map DeliverableItcMap.itcId).Nodup

/-- A pump with three ITCs of one group and two of another; the first ITC has three
checks. -/
def pumpStation : ItpDb :=
  { pumpProject with
    deliverables := ⟨[newDeliverable (pumpForm "pump 1") 1 1 none 1 1], by simp⟩
    itcs := ⟨[⟨1, "pump wiring", none, some 1, some 1⟩, ⟨2, "panel wiring", none, none, some 1⟩,
      ⟨3, "earthing", none, some 1, some 1⟩, ⟨4, "flow", none, some 1, some 2⟩,
      ⟨5, "pressure", none, some 1, some 2⟩], by simp⟩
    deliverableItcMaps := ⟨[newItc 1 1 (some 1) 1, newItc 1 2 (some 2) 2, newItc 1 3 (some 3) 3,
      newItc 1 4 (some 1) 4, newItc 1 5 (some 2) 5], by simp⟩
    deliverableCheckMaps := ⟨[newCheck 1 1 1 1, newCheck 1 2 2 2, newCheck 1 1 3 3], by simp⟩ }

theorem pumpStation_distinctTemplates : pumpStation.DistinctTemplates 1 where
  found := fun m hm => Option.isSome_iff_exists.mp (by revert m; decide)
  nodup := by decide

/-- Deleting a check of a numbered checklist takes out that check, and the others get
the numbers 1, ..., n - 1 in the order in which they were. Nothing else is changed. -/
theorem checkDelete_renumbers {db : ItpDb} {url : ItpUrl} {itp : Itp} {itc : DeliverableItcMap}
    {check : DeliverableCheckMap} (hitp : db.itpOf url = some itp)
    (hitc : itc ∈ db.deliverableItcMaps.rows)
    (hcheck : check ∈ checksOf db.deliverableCheckMaps itc.id)
    (h : Numbered ((checksOf db.deliverableCheckMaps itc.id).map DeliverableCheckMap.checkNumber)) :
    ∃ number : DeliverableCheckMap → Option Int,
      checkDelete db url itc.id check.id = some { db with
        deliverableCheckMaps := (db.deliverableCheckMaps.delete (fun c => c.id == check.id)).update
          (fun c => c.deliverableItcMapId == some itc.id) (fun c => c.setNumber (number c))
          (fun _ => DeliverableCheckMap.setNumber_id _ _) } ∧
      Numbered (((checksOf db.deliverableCheckMaps itc.id).filter
        (fun c => !(c.id == check.id))).map number) ∧
      SameOrder DeliverableCheckMap.checkNumber number
        ((checksOf db.deliverableCheckMaps itc.id).filter (fun c => !(c.id == check.id))) := by
  have hgetitc : db.deliverableItcMaps.get? itc.id = some itc := Table.get?_eq_some.mpr ⟨hitc, rfl⟩
  have hgetcheck : db.deliverableCheckMaps.get? check.id = some check :=
    Table.get?_eq_some.mpr ⟨(mem_checksOf.mp hcheck).1, rfl⟩
  refine ⟨_, checkDelete_eq hitp hgetitc hgetcheck ?_,
    numbered_closeUp (checksOf_ids_nodup _ _) h hcheck, sameOrder_closeUp h hcheck⟩
  intro c hc
  obtain ⟨n, hn, -⟩ := h.mem_iff.mp (List.mem_map_of_mem hc)
  rw [hn]
  rfl

theorem checkDelete_renumbers_pumpStation :
    newCheck 1 2 2 2 ∈ checksOf pumpStation.deliverableCheckMaps 1 ∧
    Numbered ((checksOf pumpStation.deliverableCheckMaps 1).map DeliverableCheckMap.checkNumber) ∧
    ∃ number : DeliverableCheckMap → Option Int,
      checkDelete pumpStation pumpItp 1 2 = some { pumpStation with
        deliverableCheckMaps := (pumpStation.deliverableCheckMaps.delete (fun c => c.id == 2)).update
          (fun c => c.deliverableItcMapId == some 1) (fun c => c.setNumber (number c))
          (fun _ => DeliverableCheckMap.setNumber_id _ _) } ∧
      Numbered (((checksOf pumpStation.deliverableCheckMaps 1).filter
        (fun c => !(c.id == 2))).map number) ∧
      SameOrder DeliverableCheckMap.checkNumber number
        ((checksOf pumpStation.deliverableCheckMaps 1).filter (fun c => !(c.id == 2))) := by
  have hcheck : newCheck 1 2 2 2 ∈ checksOf pumpStation.deliverableCheckMaps 1 := by decide +kernel
  have hnumbered : Numbered ((checksOf pumpStation.deliverableCheckMaps 1).map
      DeliverableCheckMap.checkNumber) := by decide +kernel
  have hitp : pumpStation.itpOf pumpItp = some ⟨1, "commissioning", some 1, none, some 0⟩ := by
    decide +kernel
  have hitc : newItc 1 1 (some 1) 1 ∈ pumpStation.deliverableItcMaps.rows := by decide +kernel
  exact ⟨hcheck, hnumbered, checkDelete_renumbers hitp hitc hcheck hnumbered⟩

/-- One check of the ITC was moved to the place `k`. -/
def ItpDb.CheckMoved (db db' : ItpDb) (itc : Nat) (check : DeliverableCheckMap) (k : Int) : Prop :=
  Moved DeliverableCheckMap.id DeliverableCheckMap.checkNumber
    (checksOf db.deliverableCheckMaps itc) (checksOf db'.deliverableCheckMaps itc) check k

/-- One ITC of a group of the deliverable was moved to the place `k`, and the ITCs of
the other groups are as before. -/
def ItpDb.ItcMoved (db db' : ItpDb) (deliverable : Nat) (group : Option Nat)
    (itc : DeliverableItcMap) (k : Int) : Prop :=
  Moved DeliverableItcMap.id DeliverableItcMap.itcGroupNumber
      (groupMembers db.itcs db.deliverableItcMaps deliverable group)
      (groupMembers db'.itcs db'.deliverableItcMaps deliverable group) itc k ∧
    ∀ m ∈ itcsOf db.deliverableItcMaps deliverable,
      (m.template db.itcs).map Itc.itcGroupId ≠ some group → m ∈ db'.deliverableItcMaps.rows

theorem checksOf_edit (t : DeliverableChecks) (p : DeliverableCheckMap → Bool) (status : String)
    (number : Option Int) (k : Nat) :
    checksOf (t.update p (·.edit status number) (DeliverableCheckMap.edit_id _ _)) k =
      (checksOf t k).map (fun c => if p c then c.edit status number else c) :=
  checksOf_update (f := fun c => c.edit status number) _
    (fun c => DeliverableCheckMap.setStatus_itc status c) k

theorem checkEdit_moved_iff {db : ItpDb} {url : ItpUrl} {itp : Itp} {itc : DeliverableItcMap}
    {check : DeliverableCheckMap} {form : CheckForm} {k : Int} (hitp : db.itpOf url = some itp)
    (hitc : itc ∈ db.deliverableItcMaps.rows)
    (hcheck : check ∈ checksOf db.deliverableCheckMaps itc.id)
    (h : Numbered ((checksOf db.deliverableCheckMaps itc.id).map DeliverableCheckMap.checkNumber))
    (hform : form.number = some k) (hk : 1 ≤ k) :
    (∃ db', checkEdit db url itc.id check.id form = some db' ∧ db.CheckMoved db' itc.id check k) ↔
      ¬ MovesDown (checksOf db.deliverableCheckMaps itc.id).length check.checkNumber k := by
  have hgetitc : db.deliverableItcMaps.get? itc.id = some itc := Table.get?_eq_some.mpr ⟨hitc, rfl⟩
  have hgetcheck : db.deliverableCheckMaps.get? check.id = some check :=
    Table.get?_eq_some.mpr ⟨(mem_checksOf.mp hcheck).1, rfl⟩
  have hshift : ∀ c ∈ checksOf db.deliverableCheckMaps itc.id, ∃ number,
      shiftNumber (checksOf db.deliverableCheckMaps itc.id).length check.checkNumber k
        c.checkNumber = some number :=
    fun c hc => shiftNumber_defined h hcheck hc
  have hguard : ∀ c ∈ checksOf db.deliverableCheckMaps itc.id,
      (shiftNumber (checksOf db.deliverableCheckMaps itc.id).length check.checkNumber k
        c.checkNumber).isSome = true :=
    fun c hc => Option.isSome_iff_exists.mpr (hshift c hc)
  simp only [checkEdit, hitp, hgetitc, hgetcheck, hform, guard, if_pos hguard, Option.bind_eq_bind,
    Option.bind_some, Option.pure_def, Option.some.injEq, exists_eq_left']
  unfold ItpDb.CheckMoved
  rw [checksOf_edit, checksOf_setNumber, List.map_map, moved_map_iff ?_ hcheck]
  · refine movedTo_iff h (checksOf_ids_nodup _ _) hcheck hk ?_ ?_
    · simp [(mem_checksOf.mp hcheck).2, DeliverableCheckMap.edit, DeliverableCheckMap.setNumber]
    · intro c hc
      obtain ⟨hc, hne⟩ := List.mem_filter.mp hc
      obtain ⟨number, hnumber⟩ := hshift c hc
      have hid : c.id ≠ check.id := by simpa using hne
      simp [(mem_checksOf.mp hc).2, hid, DeliverableCheckMap.setNumber, hnumber]
  · intro c
    simp only [Function.comp_apply]
    split <;> split <;> simp

/-- No other template has the name that the form gives to this one. -/
def ItcForm.NameFree (db : ItpDb) (form : ItcForm) (template : Itc) : Prop :=
  form.name = "" ∨ form.name = template.name ∨ ∀ i ∈ db.itcs.rows, i.name ≠ form.name

section Groups

variable {itcs : Itcs} {t : DeliverableItcs} {d : Nat} {group : Option Nat}

theorem mem_groupMembers {m : DeliverableItcMap} :
    m ∈ groupMembers itcs t d group ↔
      m ∈ itcsOf t d ∧ (m.template itcs).map Itc.itcGroupId = some group := by
  simp [groupMembers]

theorem groupMembers_ids_nodup (itcs : Itcs) (t : DeliverableItcs) (d : Nat) (group : Option Nat) :
    ((groupMembers itcs t d group).map DeliverableItcMap.id).Nodup :=
  t.nodup.sublist ((List.filter_sublist.trans List.filter_sublist).map _)

theorem groupMembers_update {p : DeliverableItcMap → Bool} {f : DeliverableItcMap → DeliverableItcMap}
    (hf : ∀ m, (f m).id = m.id) (hd : ∀ m, (f m).deliverableId = m.deliverableId)
    (hi : ∀ m, (f m).itcId = m.itcId) :
    groupMembers itcs (t.update p f hf) d group =
      (groupMembers itcs t d group).map (fun m => if p m then f m else m) := by
  unfold groupMembers itcsOf
  rw [List.filter_filter, List.filter_filter]
  apply Table.filter_update_map
  intro m
  simp only [DeliverableItcMap.template, hd, hi]

theorem groupMembers_setGroupNumber (p : DeliverableItcMap → Bool)
    (number : DeliverableItcMap → Option Int) :
    groupMembers itcs (t.update p (fun m => m.setGroupNumber (number m))
      (fun _ => DeliverableItcMap.setGroupNumber_id _ _)) d group =
      (groupMembers itcs t d group).map (fun m => if p m then m.setGroupNumber (number m) else m) :=
  groupMembers_update (f := fun m => m.setGroupNumber (number m)) _ (fun _ => rfl) (fun _ => rfl)

theorem groupMembers_edit (p : DeliverableItcMap → Bool) (form : ItcForm) (number : Option Int) :
    groupMembers itcs (t.update p (DeliverableItcMap.edit form number)
      (DeliverableItcMap.edit_id form number)) d group =
      (groupMembers itcs t d group).map (fun m => if p m then m.edit form number else m) :=
  groupMembers_update _ (fun _ => rfl) (fun _ => rfl)

theorem groupMembers_rename (p : Itc → Bool) (name : String) :
    groupMembers (itcs.update p (Itc.rename name) (Itc.rename_id name)) t d group =
      groupMembers itcs t d group := by
  apply List.filter_congr
  intro m _
  unfold DeliverableItcMap.template
  cases m.itcId with
  | none => rfl
  | some i =>
    simp only [Option.bind_some, Table.get?_update_map, Option.map_map]
    congr 2
    funext template
    simp only [Function.comp_apply]
    split <;> rfl

theorem groupCount_distinct {db : ItpDb} (h : db.DistinctTemplates d) :
    groupCount db.itcs db.deliverableItcMaps d group =
      (groupMembers db.itcs db.deliverableItcMaps d group).length := by
  rw [groupCount_members, (length_dedup_iff _).mpr, List.length_map]
  exact h.nodup.sublist (List.filter_sublist.map _)

/-- Within the group the numbers are shifted as those of the checks are. -/
theorem shiftInGroup_member {count : Int} {old : Option Int} {k : Int} {m : DeliverableItcMap}
    (hm : (m.template itcs).map Itc.itcGroupId = some group) :
    shiftInGroup itcs group (shiftNumber count old k) (decide (old ≠ some k)) m =
      shiftNumber count old k m.itcGroupNumber := by
  obtain ⟨template, htemplate, hg⟩ := Option.map_eq_some_iff.mp hm
  by_cases ho : old = some k
  · simp [shiftInGroup, shiftNumber, ho]
  · simp [shiftInGroup, ho, htemplate, hg]

theorem shiftInGroup_other {shift : Option Int → Option (Option Int)} {moves : Bool}
    {m : DeliverableItcMap} {template : Itc} (htemplate : m.template itcs = some template)
    (hm : (m.template itcs).map Itc.itcGroupId ≠ some group) :
    shiftInGroup itcs group shift moves m = some m.itcGroupNumber := by
  have hg : template.itcGroupId ≠ group := by
    intro hg
    simp [htemplate, hg] at hm
  cases moves <;> simp [shiftInGroup, htemplate, hg]

/-- An ITC of another group is another ITC. -/
theorem id_ne_of_group {db : ItpDb} {itc m : DeliverableItcMap} {template : Itc}
    (hitc : itc ∈ itcsOf db.deliverableItcMaps d) (htemplate : itc.template db.itcs = some template)
    (hm : m ∈ itcsOf db.deliverableItcMaps d)
    (hg : (m.template db.itcs).map Itc.itcGroupId ≠ some template.itcGroupId) : m.id ≠ itc.id := by
  intro he
  rw [Table.eq_of_key_eq (mem_itcsOf.mp hm).1 (mem_itcsOf.mp hitc).1 he, htemplate] at hg
  exact hg rfl

/-- Where the numbers of the group are there, each ITC of the deliverable gets a number. -/
theorem shiftInGroup_defined {db : ItpDb} (hdistinct : db.DistinctTemplates d)
    (h : Numbered ((groupMembers db.itcs db.deliverableItcMaps d group).map
      DeliverableItcMap.itcGroupNumber)) {itc : DeliverableItcMap}
    (hmember : itc ∈ groupMembers db.itcs db.deliverableItcMaps d group) (k : Int)
    {m : DeliverableItcMap} (hm : m ∈ itcsOf db.deliverableItcMaps d) :
    ∃ number, shiftInGroup db.itcs group
      (shiftNumber (groupMembers db.itcs db.deliverableItcMaps d group).length
        itc.itcGroupNumber k) (decide (itc.itcGroupNumber ≠ some k)) m = some number := by
  by_cases hg : (m.template db.itcs).map Itc.itcGroupId = some group
  · rw [shiftInGroup_member hg]
    exact shiftNumber_defined h hmember (mem_groupMembers.mpr ⟨hm, hg⟩)
  · obtain ⟨i, hi⟩ := hdistinct.found m hm
    exact ⟨_, shiftInGroup_other hi hg⟩

end Groups

/-- A name of another template is refused. -/
theorem ItcForm.nameFree_of_itcEdit {db db' : ItpDb} {url : DeliverableUrl} {d : Deliverable}
    {itc : DeliverableItcMap} {template : Itc} {form : ItcForm}
    (hd : db.deliverableOf url = some d) (hget : db.deliverableItcMaps.get? itc.id = some itc)
    (htemplate : itc.template db.itcs = some template)
    (hedit : itcEdit db url itc.id form = some db') : form.NameFree db template := by
  simp only [itcEdit, hd, hget, htemplate, Option.bind_eq_bind, Option.bind_eq_some_iff,
    guard_eq_some, Option.some.injEq, exists_eq_left'] at hedit
  obtain ⟨-, hfree, -⟩ := hedit
  exact hfree

theorem itcEdit_moved_iff {db : ItpDb} {url : DeliverableUrl} {d : Deliverable}
    {itc : DeliverableItcMap} {template : Itc} {form : ItcForm} {k : Int}
    (hd : db.deliverableOf url = some d) (hitc : itc ∈ itcsOf db.deliverableItcMaps d.id)
    (htemplate : itc.template db.itcs = some template) (hdistinct : db.DistinctTemplates d.id)
    (h : Numbered ((groupMembers db.itcs db.deliverableItcMaps d.id template.itcGroupId).map
      DeliverableItcMap.itcGroupNumber))
    (hform : form.groupNumber = some k) (hk : 1 ≤ k) :
    (∃ db', itcEdit db url itc.id form = some db' ∧
      db.ItcMoved db' d.id template.itcGroupId itc k) ↔
      form.NameFree db template ∧
        ¬ MovesDown (groupMembers db.itcs db.deliverableItcMaps d.id template.itcGroupId).length
          itc.itcGroupNumber k := by
  have hget : db.deliverableItcMaps.get? itc.id = some itc :=
    Table.get?_eq_some.mpr ⟨(mem_itcsOf.mp hitc).1, rfl⟩
  have hmember : itc ∈ groupMembers db.itcs db.deliverableItcMaps d.id template.itcGroupId :=
    mem_groupMembers.mpr ⟨hitc, by simp [htemplate]⟩
  have hcount : groupCount db.itcs db.deliverableItcMaps d.id template.itcGroupId =
      (groupMembers db.itcs db.deliverableItcMaps d.id template.itcGroupId).length :=
    groupCount_distinct hdistinct
  have hshift := fun {m : DeliverableItcMap} => shiftInGroup_defined (m := m) hdistinct h hmember k
  generalize hrows : groupMembers db.itcs db.deliverableItcMaps d.id template.itcGroupId = rows
    at h hmember hcount hshift ⊢
  by_cases hname : form.NameFree db template
  · have hfree := hname
    have hguard : ∀ m ∈ itcsOf db.deliverableItcMaps d.id,
        (shiftInGroup db.itcs template.itcGroupId (shiftNumber rows.length itc.itcGroupNumber k)
          (decide (itc.itcGroupNumber ≠ some k)) m).isSome = true :=
      fun m hm => Option.isSome_iff_exists.mpr (hshift hm)
    unfold ItcForm.NameFree at hfree
    simp only [itcEdit, hd, hget, htemplate, hform, hcount, guard, if_pos hfree, if_pos hguard,
      Option.bind_eq_bind, Option.bind_some, Option.pure_def, Option.some.injEq, exists_eq_left',
      hname, true_and]
    unfold ItpDb.ItcMoved
    rw [hrows, groupMembers_rename, groupMembers_edit, groupMembers_setGroupNumber, hrows,
      List.map_map, moved_map_iff ?_ hmember, and_iff_left ?_]
    · refine movedTo_iff h (hrows ▸ groupMembers_ids_nodup _ _ _ _) hmember hk ?_ ?_
      · simp [(mem_itcsOf.mp hitc).2, DeliverableItcMap.edit, DeliverableItcMap.setGroupNumber]
      · intro m hm
        obtain ⟨hm, hne⟩ := List.mem_filter.mp hm
        rw [← hrows, mem_groupMembers] at hm
        obtain ⟨number, hnumber⟩ := hshift hm.1
        have hid : m.id ≠ itc.id := by simpa using hne
        rw [← shiftInGroup_member hm.2, hnumber]
        simp only [ne_eq, decide_not] at hnumber
        simp [(mem_itcsOf.mp hm.1).2, hid, DeliverableItcMap.setGroupNumber, hnumber]
    · intro m hm hg
      obtain ⟨i, hi⟩ := hdistinct.found m hm
      have hid := id_ne_of_group hitc htemplate hm hg
      have hown : (m.deliverableId == some d.id) = true := beq_iff_eq.mpr (mem_itcsOf.mp hm).2
      rw [Table.mem_update_update_iff _ _ (mem_itcsOf.mp hm).1]
      simp [hown, hid, shiftInGroup_other hi hg, DeliverableItcMap.setGroupNumber]
    · intro m
      simp only [Function.comp_apply]
      split <;> split <;> rfl
  · refine iff_of_false ?_ (fun hh => hname hh.1)
    rintro ⟨db', hedit, -⟩
    exact hname (ItcForm.nameFree_of_itcEdit hd hget htemplate hedit)

/-- In a numbered checklist, `check_edit` moves the check exactly if it does not move it
down to a place before the last. In a numbered group of ITCs, `ITC_edit` does so under
the same condition, if the name of the form is not that of another template. -/
theorem edits_move_iff (db : ItpDb) (k : Int) (hk : 1 ≤ k) :
    (∀ (url : ItpUrl) (itp : Itp) (itc : DeliverableItcMap) (check : DeliverableCheckMap)
      (form : CheckForm), db.itpOf url = some itp → itc ∈ db.deliverableItcMaps.rows →
      check ∈ checksOf db.deliverableCheckMaps itc.id →
      Numbered ((checksOf db.deliverableCheckMaps itc.id).map DeliverableCheckMap.checkNumber) →
      form.number = some k →
      ((∃ db', checkEdit db url itc.id check.id form = some db' ∧
        db.CheckMoved db' itc.id check k) ↔
          ¬ MovesDown (checksOf db.deliverableCheckMaps itc.id).length check.checkNumber k)) ∧
    ∀ (url : DeliverableUrl) (d : Deliverable) (itc : DeliverableItcMap) (template : Itc)
      (form : ItcForm), db.deliverableOf url = some d →
      itc ∈ itcsOf db.deliverableItcMaps d.id → itc.template db.itcs = some template →
      db.DistinctTemplates d.id →
      Numbered ((groupMembers db.itcs db.deliverableItcMaps d.id template.itcGroupId).map
        DeliverableItcMap.itcGroupNumber) →
      form.groupNumber = some k →
      ((∃ db', itcEdit db url itc.id form = some db' ∧
        db.ItcMoved db' d.id template.itcGroupId itc k) ↔
          form.NameFree db template ∧
            ¬ MovesDown (groupMembers db.itcs db.deliverableItcMaps d.id
              template.itcGroupId).length itc.itcGroupNumber k) :=
  ⟨fun _ _ _ _ _ hitp hitc hcheck h hform => checkEdit_moved_iff hitp hitc hcheck h hform hk,
    fun _ _ _ _ _ hd hitc htemplate hdistinct h hform =>
      itcEdit_moved_iff hd hitc htemplate hdistinct h hform hk⟩

theorem edits_move_iff_pumpStation :
    (∃ db', checkEdit pumpStation pumpItp 1 1 ⟨"", some 3⟩ = some db' ∧
      pumpStation.CheckMoved db' 1 (newCheck 1 1 1 1) 3) ∧
    ∃ db', itcEdit pumpStation (pumpUrl 1) 1 ⟨"", "", "", some 3⟩ = some db' ∧
      pumpStation.ItcMoved db' 1 (some 1) (newItc 1 1 (some 1) 1) 3 := by
  have hitp : pumpStation.itpOf pumpItp = some ⟨1, "commissioning", some 1, none, some 0⟩ := by
    decide +kernel
  have hd : pumpStation.deliverableOf (pumpUrl 1) =
      some (newDeliverable (pumpForm "pump 1") 1 1 none 1 1) := by decide +kernel
  have hlast : ∀ old : Option Int, ¬ MovesDown 3 old 3 := by
    rintro old ⟨o, -, -, hlt⟩
    exact absurd hlt (lt_irrefl 3)
  constructor
  · exact ((edits_move_iff pumpStation 3 (by decide)).1 pumpItp _ (newItc 1 1 (some 1) 1)
      (newCheck 1 1 1 1) ⟨"", some 3⟩ hitp (by decide +kernel) (by decide +kernel)
      (by decide +kernel) rfl).mpr (hlast _)
  · exact ((edits_move_iff pumpStation 3 (by decide)).2 (pumpUrl 1) _ (newItc 1 1 (some 1) 1)
      ⟨1, "pump wiring", none, some 1, some 1⟩ ⟨"", "", "", some 3⟩ hd (by decide +kernel)
      (by decide +kernel) pumpStation_distinctTemplates (by decide +kernel) rfl).mpr
        ⟨Or.inl rfl, hlast _⟩

/-- The first of three rows is moved to the second place, and there are two rows with
number 2 then. -/
theorem edits_repeat_number :
    Numbered ((checksOf pumpStation.deliverableCheckMaps 1).map DeliverableCheckMap.checkNumber) ∧
    (checkEdit pumpStation pumpItp 1 1 ⟨"", some 2⟩).map (fun db' =>
      (checksOf db'.deliverableCheckMaps 1).map DeliverableCheckMap.checkNumber) =
        some [some 2, some 2, some 3] ∧
    Numbered ((groupMembers pumpStation.itcs pumpStation.deliverableItcMaps 1 (some 1)).map
      DeliverableItcMap.itcGroupNumber) ∧
    (itcEdit pumpStation (pumpUrl 1) 1 ⟨"", "", "", some 2⟩).map (fun db' =>
      (groupMembers db'.itcs db'.deliverableItcMaps 1 (some 1)).map
        DeliverableItcMap.itcGroupNumber) = some [some 2, some 2, some 3] ∧
    ¬ Numbered [some 2, some 2, some 3] := by
  decide +kernel

/-- The ITC was taken out of its group, the others of the group closed up in the order
in which they were, and the ITCs of the other groups are as before. -/
structure ItpDb.ItcClosed (db db' : ItpDb) (deliverable : Nat) (group : Option Nat)
    (itc : DeliverableItcMap) : Prop where
  own : ∃ number : DeliverableItcMap → Option Int,
    groupMembers db'.itcs db'.deliverableItcMaps deliverable group =
      ((groupMembers db.itcs db.deliverableItcMaps deliverable group).filter
        (fun m => !(m.id == itc.id))).map (fun m => m.setGroupNumber (number m)) ∧
    Numbered (((groupMembers db.itcs db.deliverableItcMaps deliverable group).filter
      (fun m => !(m.id == itc.id))).map number) ∧
    SameOrder DeliverableItcMap.itcGroupNumber number
      ((groupMembers db.itcs db.deliverableItcMaps deliverable group).filter
        (fun m => !(m.id == itc.id)))
  others : ∀ m ∈ itcsOf db.deliverableItcMaps deliverable,
    (m.template db.itcs).map Itc.itcGroupId ≠ some group → m ∈ db'.deliverableItcMaps.rows

/-- The ITCs of the other groups have numbers, and none is above that of the ITC. -/
def ItpDb.NoneAbove (db : ItpDb) (deliverable : Nat) (group : Option Nat)
    (itc : DeliverableItcMap) : Prop :=
  ∀ m ∈ itcsOf db.deliverableItcMaps deliverable,
    (m.template db.itcs).map Itc.itcGroupId ≠ some group →
      ∃ n o : Int, m.itcGroupNumber = some n ∧ itc.itcGroupNumber = some o ∧ n ≤ o

theorem groupMembers_delete {itcs : Itcs} {t : DeliverableItcs} {d : Nat} {group : Option Nat}
    (p : DeliverableItcMap → Bool) :
    groupMembers itcs (t.delete p) d group =
      (groupMembers itcs t d group).filter (fun m => !p m) := by
  unfold groupMembers itcsOf
  rw [Table.rows_delete, List.filter_filter, List.filter_filter, List.filter_filter,
    List.filter_filter]
  apply List.filter_congr
  intro m _
  rw [Bool.and_comm (!p m)]
  exact Bool.and_right_comm _ _ _

theorem closeUp_eq_self_iff {count o n : Int} (ho : o < count) :
    closeUp (gapAfter count (some o)) (some n) = some n ↔ n ≤ o := by
  rw [gapAfter_some, if_pos ho]
  simp only [closeUp, closeGap, Option.map_some, Option.some.injEq]
  split <;> omega

/-- What `ITC_delete` leaves of an ITC of the group. -/
def ItpDb.withoutItc (db : ItpDb) (deliverable : Nat) (group : Option Nat)
    (itc : DeliverableItcMap) : ItpDb :=
  { db.dropItcs (fun m => m.id == itc.id) with
    deliverableItcMaps := (db.deliverableItcMaps.delete (fun m => m.id == itc.id)).update
      (fun m => m.deliverableId == some deliverable)
      (fun m => m.setGroupNumber (closeUp (gapAfter
        (groupMembers db.itcs db.deliverableItcMaps deliverable group).length itc.itcGroupNumber)
          m.itcGroupNumber))
      (fun _ => DeliverableItcMap.setGroupNumber_id _ _) }

section Delete

variable {db db' : ItpDb} {url : DeliverableUrl} {d : Deliverable} {itc : DeliverableItcMap}
  {template : Itc}

theorem itcDelete_eq_some (hd : db.deliverableOfProject url = some d)
    (hitc : itc ∈ itcsOf db.deliverableItcMaps d.id)
    (htemplate : itc.template db.itcs = some template) (hdistinct : db.DistinctTemplates d.id) :
    itcDelete db url itc.id = some db' ↔
      (gapAfter (groupMembers db.itcs db.deliverableItcMaps d.id template.itcGroupId).length
          itc.itcGroupNumber = none ∨
        ∀ m ∈ itcsOf (db.deliverableItcMaps.delete (fun m => m.id == itc.id)) d.id,
          m.itcGroupNumber.isSome = true) ∧
      db.withoutItc d.id template.itcGroupId itc = db' := by
  have hget : db.deliverableItcMaps.get? itc.id = some itc :=
    Table.get?_eq_some.mpr ⟨(mem_itcsOf.mp hitc).1, rfl⟩
  have hcount : groupCount db.itcs db.deliverableItcMaps d.id template.itcGroupId =
      (groupMembers db.itcs db.deliverableItcMaps d.id template.itcGroupId).length :=
    groupCount_distinct hdistinct
  simp only [itcDelete, hd, hget, htemplate, hcount, Option.bind_eq_bind, Option.bind_some,
    Option.bind_eq_some_iff, guard_eq_some, Option.pure_def, Option.some.injEq, exists_const]
  rfl

/-- The ITCs of other groups are left when the ITC is gone. -/
theorem mem_delete_of_group (hitc : itc ∈ itcsOf db.deliverableItcMaps d.id)
    (htemplate : itc.template db.itcs = some template) {m : DeliverableItcMap}
    (hm : m ∈ itcsOf db.deliverableItcMaps d.id)
    (hg : (m.template db.itcs).map Itc.itcGroupId ≠ some template.itcGroupId) :
    m ∈ (db.deliverableItcMaps.delete (fun m => m.id == itc.id)).rows :=
  Table.mem_delete.mpr ⟨(mem_itcsOf.mp hm).1,
    beq_eq_false_iff_ne.mpr (id_ne_of_group hitc htemplate hm hg)⟩

/-- All ITCs that are left have a number if the group has, and the other groups have. -/
theorem numbers_left (h : Numbered ((groupMembers db.itcs db.deliverableItcMaps d.id
      template.itcGroupId).map DeliverableItcMap.itcGroupNumber))
    (hnone : db.NoneAbove d.id template.itcGroupId itc) :
    ∀ m ∈ itcsOf (db.deliverableItcMaps.delete (fun m => m.id == itc.id)) d.id,
      m.itcGroupNumber.isSome = true := by
  intro m hm
  have hold : m ∈ itcsOf db.deliverableItcMaps d.id :=
    mem_itcsOf.mpr ⟨(Table.mem_delete.mp (mem_itcsOf.mp hm).1).1, (mem_itcsOf.mp hm).2⟩
  by_cases hg : (m.template db.itcs).map Itc.itcGroupId = some template.itcGroupId
  · obtain ⟨n, hn, -⟩ := h.mem_iff.mp (List.mem_map_of_mem (mem_groupMembers.mpr ⟨hold, hg⟩))
    exact Option.isSome_iff_exists.mpr ⟨n, hn⟩
  · obtain ⟨n, -, hn, -⟩ := hnone m hold hg
    exact Option.isSome_iff_exists.mpr ⟨n, hn⟩

theorem ItpDb.NoneAbove.closeUp_eq {group : Option Nat} (hnone : db.NoneAbove d.id group itc)
    {m : DeliverableItcMap} (hm : m ∈ itcsOf db.deliverableItcMaps d.id)
    (hg : (m.template db.itcs).map Itc.itcGroupId ≠ some group) (count : Int) :
    closeUp (gapAfter count itc.itcGroupNumber) m.itcGroupNumber = m.itcGroupNumber := by
  obtain ⟨n, o, hn, ho, hle⟩ := hnone m hm hg
  rw [hn, ho]
  by_cases hlt : o < count
  · exact (closeUp_eq_self_iff hlt).mpr hle
  · rw [gapAfter_some, if_neg hlt]
    rfl

/-- What the deletion leaves, if it leaves the numbers of the other groups. -/
theorem itcClosed_of_closeUp (hitc : itc ∈ itcsOf db.deliverableItcMaps d.id)
    (htemplate : itc.template db.itcs = some template)
    (h : Numbered ((groupMembers db.itcs db.deliverableItcMaps d.id template.itcGroupId).map
      DeliverableItcMap.itcGroupNumber))
    (hstays : ∀ m ∈ itcsOf db.deliverableItcMaps d.id,
      (m.template db.itcs).map Itc.itcGroupId ≠ some template.itcGroupId →
        closeUp (gapAfter (groupMembers db.itcs db.deliverableItcMaps d.id
          template.itcGroupId).length itc.itcGroupNumber) m.itcGroupNumber = m.itcGroupNumber) :
    db.ItcClosed (db.withoutItc d.id template.itcGroupId itc) d.id template.itcGroupId itc := by
  have hmember : itc ∈ groupMembers db.itcs db.deliverableItcMaps d.id template.itcGroupId :=
    mem_groupMembers.mpr ⟨hitc, by simp [htemplate]⟩
  refine ⟨⟨_, ?_, numbered_closeUp (groupMembers_ids_nodup _ _ _ _) h hmember,
    sameOrder_closeUp h hmember⟩, ?_⟩
  · simp only [ItpDb.withoutItc, ItpDb.dropItcs]
    rw [groupMembers_setGroupNumber, groupMembers_delete]
    apply List.map_congr_left
    intro m hm
    have hown := (mem_itcsOf.mp (mem_groupMembers.mp (List.mem_filter.mp hm).1).1).2
    rw [if_pos (beq_iff_eq.mpr hown)]
  · intro m hm hg
    refine (Table.mem_update_iff (fun _ => DeliverableItcMap.setGroupNumber_id _ _)
      (mem_delete_of_group hitc htemplate hm hg)).mpr (fun _ => ?_)
    rw [hstays m hm hg]
    rfl

end Delete

/-- `ITC_delete` takes an ITC out of its numbered group and leaves the other groups as
they are exactly if it was the last of its group, or if no number in the other groups
is above its own. -/
theorem itcDelete_closed_iff {db : ItpDb} {url : DeliverableUrl} {d : Deliverable}
    {itc : DeliverableItcMap} {template : Itc} (hd : db.deliverableOfProject url = some d)
    (hitc : itc ∈ itcsOf db.deliverableItcMaps d.id)
    (htemplate : itc.template db.itcs = some template) (hdistinct : db.DistinctTemplates d.id)
    (h : Numbered ((groupMembers db.itcs db.deliverableItcMaps d.id template.itcGroupId).map
      DeliverableItcMap.itcGroupNumber)) :
    (∃ db', itcDelete db url itc.id = some db' ∧ db.ItcClosed db' d.id template.itcGroupId itc) ↔
      itc.itcGroupNumber =
          some ((groupMembers db.itcs db.deliverableItcMaps d.id template.itcGroupId).length : Int) ∨
        db.NoneAbove d.id template.itcGroupId itc := by
  have hmember : itc ∈ groupMembers db.itcs db.deliverableItcMaps d.id template.itcGroupId :=
    mem_groupMembers.mpr ⟨hitc, by simp [htemplate]⟩
  obtain ⟨o, ho, -, hohigh⟩ := h.mem_iff.mp (List.mem_map_of_mem hmember)
  rw [List.length_map] at hohigh
  constructor
  · rintro ⟨db', hdelete, hclosed⟩
    rw [or_iff_not_imp_left, ho, Option.some.injEq]
    intro hlast m hm hg
    have hlt : o < ((groupMembers db.itcs db.deliverableItcMaps d.id
        template.itcGroupId).length : Int) := by omega
    have hleft := mem_delete_of_group hitc htemplate hm hg
    obtain ⟨hguard, rfl⟩ := (itcDelete_eq_some hd hitc htemplate hdistinct).mp hdelete
    rw [ho, gapAfter_some, if_pos hlt, or_iff_right (Option.some_ne_none o)] at hguard
    obtain ⟨n, hn⟩ := Option.isSome_iff_exists.mp
      (hguard m (mem_itcsOf.mpr ⟨hleft, (mem_itcsOf.mp hm).2⟩))
    refine ⟨n, o, hn, ho, (closeUp_eq_self_iff hlt).mp ?_⟩
    have hsame := (Table.mem_update_iff (fun _ => DeliverableItcMap.setGroupNumber_id _ _)
      hleft).mp (hclosed.others m hm hg) (beq_iff_eq.mpr (mem_itcsOf.mp hm).2)
    have hnumber := congrArg DeliverableItcMap.itcGroupNumber hsame
    rw [hn, ho] at hnumber
    exact hnumber
  · rintro (hlast | hnone)
    · have hgap : gapAfter (groupMembers db.itcs db.deliverableItcMaps d.id
          template.itcGroupId).length itc.itcGroupNumber = none := by
        rw [hlast, gapAfter_some, if_neg (lt_irrefl _)]
      refine ⟨_, (itcDelete_eq_some hd hitc htemplate hdistinct).mpr ⟨Or.inl hgap, rfl⟩,
        itcClosed_of_closeUp hitc htemplate h ?_⟩
      intro m _ _
      rw [hgap]
      rfl
    · exact ⟨_, (itcDelete_eq_some hd hitc htemplate hdistinct).mpr
        ⟨Or.inr (numbers_left h hnone), rfl⟩,
        itcClosed_of_closeUp hitc htemplate h (fun m hm hg => hnone.closeUp_eq hm hg _)⟩

theorem itcDelete_closed_iff_pumpStation :
    ∃ db', itcDelete pumpStation (pumpUrl 1) 2 = some db' ∧
      pumpStation.ItcClosed db' 1 (some 1) (newItc 1 2 (some 2) 2) := by
  have hd : pumpStation.deliverableOfProject (pumpUrl 1) =
      some (newDeliverable (pumpForm "pump 1") 1 1 none 1 1) := by decide +kernel
  have htemplate : (newItc 1 2 (some 2) 2).template pumpStation.itcs =
      some ⟨2, "panel wiring", none, none, some 1⟩ := by decide +kernel
  refine (itcDelete_closed_iff hd (by decide +kernel) htemplate pumpStation_distinctTemplates
    (by decide +kernel)).mpr (Or.inr ?_)
  intro m hm hg
  have hnumbers : ∀ m ∈ itcsOf pumpStation.deliverableItcMaps 1,
      (m.template pumpStation.itcs).map Itc.itcGroupId ≠ some (some 1) →
        m.itcGroupNumber = some 1 ∨ m.itcGroupNumber = some 2 := by decide +kernel
  rcases hnumbers m hm hg with hn | hn
  · exact ⟨1, 2, hn, rfl, by decide⟩
  · exact ⟨2, 2, hn, rfl, by decide⟩

/-- The first ITC of one group is deleted, and the second of the other group gets the
number of the first. -/
theorem itcDelete_shifts_other_group :
    Numbered ((groupMembers pumpStation.itcs pumpStation.deliverableItcMaps 1 (some 1)).map
      DeliverableItcMap.itcGroupNumber) ∧
    Numbered ((groupMembers pumpStation.itcs pumpStation.deliverableItcMaps 1 (some 2)).map
      DeliverableItcMap.itcGroupNumber) ∧
    (itcDelete pumpStation (pumpUrl 1) 1).map (fun db' =>
      (groupMembers db'.itcs db'.deliverableItcMaps 1 (some 2)).map
        DeliverableItcMap.itcGroupNumber) = some [some 1, some 1] := by
  decide +kernel

end Medusa
