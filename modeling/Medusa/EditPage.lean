import Medusa.AddPlan

/-! The page of an edit, sent back. The page numbers the points of the asset and then the
points that the user adds, without limit. The request reads the first 99 numbers, on the
assumption that an asset has less than 100 points, and deletes the points that it has not
met. -/

namespace Medusa

open Relational

/-- A point that the user adds to the page: the name of its type and the path of its log. -/
structure AddedPoint where
  type : String
  log : String

/-- The fields of the page. The list of logs on it is empty, so no log is filled in for the
points that are there. -/
def renderedFields (ids : List Nat) (added : List AddedPoint) : Nat → PointField
  | 0 => noField
  | k + 1 =>
    match ids[k]?, added[k - ids.length]? with
    | some id, _ => ⟨some (some id), none, some ""⟩
    | none, some r => ⟨none, some r.type, some r.log⟩
    | none, none => noField

def AddedPoint.Stored (db : Db) (asset : Nat) (r : AddedPoint) (p : AssetPoint) : Prop :=
  p.assetId = asset ∧ p.name = r.type ∧
  (∃ t, db.pointTypes.one? (fun t => t.name == r.type) = some t ∧ p.typeId = t.id) ∧
  (r.log = "" → p.loggedentityId = none) ∧
  (r.log ≠ "" → ∃ e, db.loggedEntities.one? (fun e => e.path == some r.log) = some e ∧
    p.loggedentityId = e.id)

/-- The rows after the first `k` fields. -/
structure Submitted (db : Db) (asset : Nat) (ids : List Nat) (added : List AddedPoint) (k : Nat)
    (state : Session × List Nat) : Prop where
  lookups : SameLookups db state.1
  old : state.2 = ((db.pointsOf asset).map AssetPoint.id).filter (fun id => decide (id ∉ ids.take k))
  points : ∃ rows, state.1.db.assetPoints.rows = db.assetPoints.rows ++ rows ∧
    List.Forall₂ (AddedPoint.Stored db asset) (added.take (k - ids.length)) rows

section Fields

variable {db : Db} {asset : Nat} {ids : List Nat} {added : List AddedPoint} {form : AssetForm}

theorem pointIds_nodup (db : Db) (asset : Nat) : ((db.pointsOf asset).map AssetPoint.id).Nodup :=
  db.assetPoints.nodup.sublist (List.filter_sublist.map _)

theorem erase_filter_take {l : List Nat} (hl : l.Nodup) {k id : Nat} (hid : ids[k]? = some id) :
    (l.filter (fun x => decide (x ∉ ids.take k))).erase id =
      l.filter (fun x => decide (x ∉ ids.take (k + 1))) := by
  rw [(hl.filter _).erase_eq_filter, List.filter_filter]
  apply List.filter_congr
  intro x _
  rw [List.take_add_one, hid, Option.toList_some]
  by_cases hx : x = id <;> simp [hx]

theorem addPoint_rows {s s' : Session} {type : Nat} {name log : String}
    (h : bindLog asset s.db.assetPoints.nextKey (s.createPoint asset type name) (some log) = some s') :
    ∃ p, s'.db.assetPoints.rows = s.db.assetPoints.rows ++ [p] ∧ p.assetId = asset ∧
      p.name = name ∧ p.typeId = type ∧ (log = "" → p.loggedentityId = none) ∧
      (log ≠ "" → ∃ e, (s.createPoint asset type name).access.db.loggedEntities.one?
        (fun e => e.path == some log) = some e ∧ p.loggedentityId = e.id) := by
  unfold bindLog at h
  split at h
  · next hlog =>
    obtain rfl := Option.some.inj h
    obtain rfl := Option.some.inj hlog
    exact ⟨_, Table.rows_insert _ _ (newPoint_id asset type name), rfl, rfl, rfl, fun _ => rfl,
      fun hne => absurd rfl hne⟩
  · next hlog =>
    simp only [Option.bind_eq_bind, Option.bind_eq_some_iff, Option.pure_def,
      Option.some.injEq] at h
    obtain ⟨e, he, rfl⟩ := h
    refine ⟨(newPoint asset type name s.db.assetPoints.nextKey).setLog e.id, ?_, rfl, rfl, rfl,
      fun hempty => absurd (congrArg some hempty) hlog, fun _ => ⟨e, he, rfl⟩⟩
    have hrows : (s.createPoint asset type name).access.db.assetPoints =
        s.db.assetPoints.insert (newPoint asset type name) (newPoint_id asset type name) :=
      Session.assetPoints_access _
    have hupdate := Table.rows_update_inserted s.db.assetPoints _ (newPoint_id asset type name) true
      (AssetPoint.setLog e.id) (AssetPoint.setLog_id e.id)
    simp only [Bool.and_true, if_true] at hupdate
    rw [← hrows] at hupdate
    exact hupdate

theorem editField_kept {i id : Nat} {s : Session} {old : List Nat} {state' : Session × List Nat}
    (hfield : form.fields i = ⟨some (some id), none, some ""⟩)
    (h : editField asset form (s, old) i = some state') : state' = (s.access, old.erase id) := by
  simp only [editField, hfield, bindLog, Option.bind_eq_bind, Option.bind_some,
    Option.bind_eq_some_iff, if_true, Option.pure_def] at h
  obtain ⟨point, hpoint, h⟩ := h
  have hid : point.id = id := by simpa using (Table.one?_eq_some.mp hpoint).1.2
  split at h
  · rw [← Option.some.inj h, hid]
  · simp at h

theorem editField_added {i : Nat} {r : AddedPoint} {s : Session} {old : List Nat}
    {state' : Session × List Nat} (hs : SameLookups db s)
    (hfield : form.fields i = ⟨none, some r.type, some r.log⟩)
    (h : editField asset form (s, old) i = some state') :
    state'.2 = old ∧ SameLookups db state'.1 ∧ ∃ p, r.Stored db asset p ∧
      state'.1.db.assetPoints.rows = s.db.assetPoints.rows ++ [p] := by
  simp only [editField, hfield, Option.bind_eq_bind, Option.bind_eq_some_iff, Option.pure_def,
    Option.some.injEq] at h
  obtain ⟨type, htype, s', hs', rfl⟩ := h
  obtain ⟨p, hp, hasset, hname, htypeId, hempty, hlog⟩ := addPoint_rows hs'
  have hcreated : SameLookups db (s.access.createPoint asset type.id r.type) := hs.access
  have htypes : s.access.db.pointTypes = db.pointTypes := (congrArg Db.pointTypes hs.access :)
  have hlogs : (s.access.createPoint asset type.id r.type).access.db.loggedEntities =
      db.loggedEntities := (congrArg Db.loggedEntities hcreated.access :)
  rw [htypes] at htype
  rw [hlogs] at hlog
  refine ⟨rfl, ?_, p, ⟨hasset, hname, ⟨type, htype, htypeId⟩, hempty, hlog⟩, ?_⟩
  · exact bindLog_keeps (P := SameLookups db) SameLookups.access (fun _ _ h => h) hs' hcreated
  · rw [hp, s.assetPoints_access]

theorem Submitted.editField {k : Nat} {state state' : Session × List Nat}
    (hfields : form.fields = renderedFields ids added)
    (h : editField asset form state (k + 1) = some state')
    (hs : Submitted db asset ids added k state) : Submitted db asset ids added (k + 1) state' := by
  obtain ⟨s, old⟩ := state
  obtain ⟨hlookups, rfl, rows, hrows, hstored⟩ := hs
  cases hid : ids[k]? with
  | some id =>
    have hk : k < ids.length := (List.getElem?_eq_some_iff.mp hid).1
    have hfield : form.fields (k + 1) = ⟨some (some id), none, some ""⟩ := by
      simp [hfields, renderedFields, hid]
    have hnone : k + 1 - ids.length = k - ids.length := by omega
    obtain rfl := editField_kept hfield h
    refine ⟨hlookups.access, erase_filter_take (pointIds_nodup db asset) hid, rows, ?_, hnone ▸ hstored⟩
    exact (congrArg Table.rows s.assetPoints_access).trans hrows
  | none =>
    have hk : ids.length ≤ k := List.getElem?_eq_none_iff.mp hid
    have htake : ids.take (k + 1) = ids.take k := by
      rw [List.take_of_length_le hk, List.take_of_length_le (by omega)]
    cases hnew : added[k - ids.length]? with
    | none =>
      have hfield : form.fields (k + 1) = noField := by
        simp [hfields, renderedFields, hid, hnew]
      have hlen : added.length ≤ k - ids.length := List.getElem?_eq_none_iff.mp hnew
      have hadded : added.take (k + 1 - ids.length) = added.take (k - ids.length) := by
        rw [List.take_of_length_le hlen, List.take_of_length_le (by omega)]
      simp only [Medusa.editField, hfield, noField] at h
      obtain rfl := Option.some.inj h
      exact ⟨hlookups, by rw [htake], rows, hrows, hadded ▸ hstored⟩
    | some r =>
      have hfield : form.fields (k + 1) = ⟨none, some r.type, some r.log⟩ := by
        simp [hfields, renderedFields, hid, hnew]
      have hadded : added.take (k + 1 - ids.length) = added.take (k - ids.length) ++ [r] := by
        rw [Nat.sub_add_comm hk, List.take_add_one, hnew, Option.toList_some]
      obtain ⟨hold, hstays, p, hp, hpoints⟩ := editField_added hlookups hfield h
      refine ⟨hstays, by rw [hold, htake], rows ++ [p], ?_, ?_⟩
      · rw [hpoints, hrows, List.append_assoc]
      · rw [hadded]
        exact List.rel_append hstored (.cons hp .nil)

theorem editDetails_points {s s' : Session} (h : editDetails asset form s = some s') :
    ∃ s₁ old, (List.range' 1 99).foldlM (editField asset form)
        (s.access, (s.access.db.pointsOf asset).map AssetPoint.id) = some (s₁, old) ∧
      s'.db.assetPoints = s₁.db.assetPoints.delete (fun p => decide (p.id ∈ old)) := by
  refine editDetails_keeps (Q := fun s' : Session => ∃ (s₁ : Session) (old : List Nat),
    (List.range' 1 99).foldlM (editField asset form)
      (s.access, (s.access.db.pointsOf asset).map AssetPoint.id) = some (s₁, old) ∧
    s'.db.assetPoints = s₁.db.assetPoints.delete (fun p => decide (p.id ∈ old))) h ?_ ?_
    (fun _ h => h) (fun h => h) (fun _ h => h)
  · intro s₁ old hfields
    exact ⟨s₁, old, hfields, Session.assetPoints_access _⟩
  · rintro s ⟨s₁, old, hfields, hpoints⟩
    exact ⟨s₁, old, hfields, s.assetPoints_access.trans hpoints⟩

theorem assetId_of_stored {rows : List AssetPoint}
    (h : List.Forall₂ (AddedPoint.Stored db asset) added rows) : ∀ p ∈ rows, p.assetId = asset := by
  induction h with
  | nil => simp
  | cons hr _ ih => exact List.forall_mem_cons.mpr ⟨hr.1, ih⟩

/-- The points of the asset once the page is sent back. -/
theorem editAsset_points (loads : Nat → Bool) {sitename : String} {plan : EditPlan}
    (hfields : form.fields = renderedFields ids added)
    (hplan : form.plan db sitename asset = some plan) :
    ∃ rows, (editAsset loads db sitename asset form).pointsOf asset =
        (db.pointsOf asset).filter (fun p => decide (p.id ∈ ids.take 99)) ++ rows ∧
      List.Forall₂ (AddedPoint.Stored db asset) (added.take (99 - ids.length)) rows ∧
      ∀ p ∈ rows, ∀ q ∈ db.assetPoints.rows, q.id ≠ p.id := by
  obtain ⟨assets, s', -, -, hdetails, hedit, -, -⟩ := editAsset_of_plan loads hplan
  have hstart : SameLookups db (Session.edited loads db assets asset).commit :=
    SameLookups.commit (rfl : SameLookups db (Session.edited loads db assets asset))
  have hpoints := Session.edited_points loads db assets asset
  generalize (Session.edited loads db assets asset).commit = s at hdetails hstart hpoints
  have haccess : s.access.db.assetPoints = db.assetPoints :=
    s.assetPoints_access.trans hpoints
  have hbegin : Submitted db asset ids added 0
      (s.access, (s.access.db.pointsOf asset).map AssetPoint.id) := by
    refine ⟨hstart.access, ?_, [], ?_, ?_⟩
    · simp [Db.pointsOf, haccess]
    · rw [haccess, List.append_nil]
    · simp
  obtain ⟨s₁, old, hloop, hafter⟩ := editDetails_points hdetails
  obtain ⟨-, hold, rows, hrows, hstored⟩ :=
    foldlM_range'_keeps (P := Submitted db asset ids added) (Submitted.editField hfields) hloop hbegin
  dsimp only at hold hrows
  -- the ids of the table are distinct, so those of the new points are new
  have hfresh : ∀ p ∈ rows, ∀ q ∈ db.assetPoints.rows, q.id ≠ p.id := by
    have hnodup := s₁.db.assetPoints.nodup
    rw [hrows, List.map_append] at hnodup
    intro p hp q hq
    exact List.nodup_append.mp hnodup |>.2.2 _ (List.mem_map_of_mem hq) _ (List.mem_map_of_mem hp)
  refine ⟨rows, ?_, hstored, hfresh⟩
  have hcommit : s'.commit.db.assetPoints = s'.db.assetPoints :=
    (congrArg Db.assetPoints s'.rows_commit :)
  have hunmet : ∀ id, id ∈ old ↔ id ∈ (db.pointsOf asset).map AssetPoint.id ∧ id ∉ ids.take 99 := by
    intro id
    rw [hold, List.mem_filter, decide_eq_true_eq]
  rw [hedit, Db.pointsOf, hcommit, hafter, Table.rows_delete, hrows, List.filter_append,
    List.filter_append]
  congr 1
  · rw [List.filter_comm]
    apply List.filter_congr
    intro p hp
    have hid : p.id ∈ (db.pointsOf asset).map AssetPoint.id := List.mem_map_of_mem hp
    simp [hunmet, hid]
  · rw [List.filter_filter, List.filter_eq_self]
    intro p hp
    have hnot : p.id ∉ old := by
      intro hm
      obtain ⟨q, hq, he⟩ := List.mem_map.mp ((hunmet p.id).mp hm).1
      exact hfresh p hp q (List.mem_filter.mp hq).1 he
    simp [assetId_of_stored hstored p hp, hnot]

end Fields

/-- The page sent back with some points added leaves the points that were there as they were,
and stores those that were added, exactly if there are at most 99 of them altogether. -/
theorem editAsset_roundTrip_iff (loads : Nat → Bool) {db : Db} {sitename : String} {asset : Nat}
    {form : AssetForm} {ids : List Nat} {added : List AddedPoint} {plan : EditPlan}
    (hids : ids.Perm ((db.pointsOf asset).map AssetPoint.id))
    (hfields : form.fields = renderedFields ids added)
    (hplan : form.plan db sitename asset = some plan) :
    (∃ rows, (editAsset loads db sitename asset form).pointsOf asset = db.pointsOf asset ++ rows ∧
      List.Forall₂ (AddedPoint.Stored db asset) added rows ∧
      ∀ p ∈ rows, ∀ q ∈ db.assetPoints.rows, q.id ≠ p.id) ↔
    (db.pointsOf asset).length + added.length ≤ 99 := by
  obtain ⟨rows, hpoints, hstored, hfresh⟩ := editAsset_points loads hfields hplan
  have hlength : ids.length = (db.pointsOf asset).length := by
    rw [hids.length_eq, List.length_map]
  rw [hpoints]
  constructor
  · rintro ⟨rows', he, hstored', -⟩
    have hkept : ((db.pointsOf asset).filter (fun p => decide (p.id ∈ ids.take 99))).length ≤
        min 99 ids.length := by
      have hnodup : (((db.pointsOf asset).filter (fun p => decide (p.id ∈ ids.take 99))).map
          AssetPoint.id).Nodup := (pointIds_nodup db asset).sublist (List.filter_sublist.map _)
      rw [← List.length_take, ← List.length_map AssetPoint.id]
      refine (hnodup.subperm ?_).length_le
      intro id hid
      obtain ⟨p, hp, rfl⟩ := List.mem_map.mp hid
      simpa using (List.mem_filter.mp hp).2
    have hall := congrArg List.length he
    have hnew := hstored.length_eq
    have hnew' := hstored'.length_eq
    rw [List.length_append, List.length_append] at hall
    rw [List.length_take] at hnew
    omega
  · intro hle
    refine ⟨rows, ?_, ?_, hfresh⟩
    · congr 1
      rw [List.filter_eq_self]
      intro p hp
      rw [List.take_of_length_le (by omega), decide_eq_true_eq, hids.mem_iff]
      exact List.mem_map_of_mem hp
    · rwa [List.take_of_length_le (by omega)] at hstored

theorem editAsset_roundTrip_iff_fanPlant :
    let form := fanForm (renderedFields [1] [⟨"fan status", ""⟩])
    form.plan fanPlant "plant" 1 = some ⟨[], [1], ∅⟩ ∧
    ∃ rows, (editAsset (fun _ => true) fanPlant "plant" 1 form).pointsOf 1 =
        ⟨1, "fan status", 1, 1, none⟩ :: rows ∧
      List.Forall₂ (AddedPoint.Stored fanPlant 1) [⟨"fan status", ""⟩] rows ∧
      ∀ p ∈ rows, ∀ q ∈ fanPlant.assetPoints.rows, q.id ≠ p.id := by
  intro form
  have hplan : form.plan fanPlant "plant" 1 = some ⟨[], [1], ∅⟩ := by decide +kernel
  have hids : List.Perm [1] ((fanPlant.pointsOf 1).map AssetPoint.id) := by decide
  exact ⟨hplan, (editAsset_roundTrip_iff (fun _ => true) hids rfl hplan).mpr (by decide)⟩

def crowdedPlant (n : Nat) : Db :=
  { fanPlant with
    assetPoints := ⟨(List.range' 1 n).map (fun id => ⟨id, "fan status", 1, 1, none⟩), by
      simpa [List.map_map, Function.comp_def] using List.nodup_range'⟩ }

/-- The hundredth point is deleted by a page that is sent back as it was, and a point that is
added after the ninety-ninth is not stored. -/
theorem editAsset_loses_points :
    ((editAsset (fun _ => true) (crowdedPlant 100) "plant" 1
        (fanForm (renderedFields (List.range' 1 100) []))).pointsOf 1).map AssetPoint.id =
      List.range' 1 99 ∧
    ((editAsset (fun _ => true) (crowdedPlant 99) "plant" 1
        (fanForm (renderedFields (List.range' 1 99) [⟨"fan status", ""⟩]))).pointsOf 1).map
      AssetPoint.id = List.range' 1 99 := by
  decide +kernel

end Medusa
