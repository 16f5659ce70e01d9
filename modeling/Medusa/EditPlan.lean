import Medusa.MappingInvariant

/-! What a form asks an edit to do, read against the database before the request.
An edit goes through exactly if its form can be read so, and it then stores what
the reading says, whatever its session has flushed on the way. -/

namespace Medusa

open Relational

/-- The points of the asset that the form no longer names, the types of the points
that it adds, and the functional descriptors of the assets afterwards. -/
structure EditPlan where
  dropped : List Nat
  added : List Nat
  functions : Finset (Nat × Nat)
deriving DecidableEq

def logFound (db : Db) (log : Option String) : Bool :=
  log == some "" || (db.loggedEntities.one? (fun e => e.path == log)).isSome

def AssetForm.planField (form : AssetForm) (db : Db) (plan : List Nat × List Nat) (i : Nat) :
    Option (List Nat × List Nat) :=
  match (form.fields i).prevPoint, (form.fields i).point with
  | some none, _ => none
  | some (some id), _ =>
    if id ∈ plan.1 ∧ logFound db (form.fields i).log then some (plan.1.erase id, plan.2) else none
  | none, none => some plan
  | none, some name =>
    match db.pointTypes.one? (fun t => t.name == name) with
    | none => none
    | some type =>
      if logFound db (form.fields i).log then some (plan.1, plan.2 ++ [type.id]) else none

def planFunction (db : Db) (asset : Nat) (functions : Finset (Nat × Nat)) (name : String) :
    Option (Finset (Nat × Nat)) :=
  if name = "" then some functions
  else (db.functionalDescriptors.one? (fun f => f.name == name)).map
    (fun f => insert (asset, f.id) functions)

def planAlgorithm (db : Db) (_ : Unit) (descr : String) : Option Unit :=
  (db.algorithms.one? (fun g => g.descr == descr)).map (fun _ => ())

def AssetForm.planDetails (form : AssetForm) (db : Db) (asset : Nat) : Option EditPlan := do
  let (dropped, added) ← (List.range' 1 99).foldlM (form.planField db)
    ((db.pointsOf asset).map AssetPoint.id, [])
  let functions ← form.functions.foldlM (planFunction db asset)
    (db.assetFunctionMapping.filter (fun q => q.1 ≠ asset))
  form.algorithms.foldlM (planAlgorithm db) ()
  pure ⟨dropped, added, functions⟩

def AssetForm.accepted (form : AssetForm) (db : Db) (sitename : String) (assetId : Nat) : Bool :=
  (db.sites.one? (fun s => s.name == sitename)).isSome &&
    (db.assets.one? (fun a => a.id == assetId)).isSome && form.valid &&
    (db.assetTypes.one? (fun t => t.name == form.type)).isSome && form.priority.isSome

def AssetForm.plan (form : AssetForm) (db : Db) (sitename : String) (assetId : Nat) :
    Option EditPlan :=
  if form.accepted db sitename assetId then form.planDetails db assetId else none

/-- An algorithm for which the asset has the descriptors, and had or gets a point
of every type, loses the last point of one of them. -/
def EditPlan.DropsNeeded (plan : EditPlan) (db : Db) (asset : Nat) : Prop :=
  ∃ g ∈ db.algorithms.rows, g.isMapped = true ∧
    (∀ f, (g.id, f) ∈ db.algoFunctionMapping → (asset, f) ∈ plan.functions) ∧
    (∀ t, (g.id, t) ∈ db.algoPointMapping →
      (∃ p ∈ db.pointsOf asset, p.typeId = t) ∨ t ∈ plan.added) ∧
    ∃ t, (g.id, t) ∈ db.algoPointMapping ∧ t ∉ plan.added ∧
      ∀ p ∈ db.pointsOf asset, p.typeId = t → p.id ∈ plan.dropped

def Db.lookups (db : Db) : Db :=
  { db with
    assets := .empty
    assetPoints := .empty
    results := .empty
    assetFunctionMapping := ∅
    algoAssetMapping := ∅
    algoExclusions := ∅ }

def AssetPoint.shape (p : AssetPoint) : Nat × Nat × Nat := (p.id, p.assetId, p.typeId)

/-- The session has done what the plan says to the rows of `db`. -/
structure Follows (db : Db) (asset : Nat) (plan : EditPlan) (s : Session) : Prop where
  lookups : s.db.lookups = db.lookups
  assets : s.db.assets.rows.map Asset.id = db.assets.rows.map Asset.id
  functions : s.db.assetFunctionMapping = plan.functions
  points : ∃ fresh : List (Nat × Nat × Nat),
    s.db.assetPoints.rows.map AssetPoint.shape =
      (db.assetPoints.rows.filter (fun p => !decide (p.id ∈ plan.dropped))).map AssetPoint.shape ++
        fresh ∧
    fresh.map (fun q => q.2.2) = plan.added ∧
    ∀ q ∈ fresh, q.2.1 = asset ∧ ∀ p ∈ db.assetPoints.rows, p.id ≠ q.1

namespace Follows

variable {db : Db} {asset : Nat} {plan : EditPlan} {s s' : Session}

theorem of_store (h : Follows db asset plan s) (hstore : s'.store.1 = s.store.1) :
    Follows db asset plan s' := by
  have hlookups : s'.store.1.lookups = s.store.1.lookups := by rw [hstore]
  have hassets : s'.store.1.assets = s.store.1.assets := by rw [hstore]
  have hfunctions : s'.store.1.assetFunctionMapping = s.store.1.assetFunctionMapping := by
    rw [hstore]
  have hpoints : s'.store.1.assetPoints = s.store.1.assetPoints := by rw [hstore]
  refine ⟨hlookups.trans h.lookups, ?_, hfunctions.trans h.functions, ?_⟩
  · exact (congrArg (fun t => t.rows.map Asset.id) hassets).trans h.assets
  · obtain ⟨fresh, hrows, hfresh⟩ := h.points
    exact ⟨fresh, (congrArg (fun t => t.rows.map AssetPoint.shape) hpoints).trans hrows, hfresh⟩

theorem access (h : Follows db asset plan s) : Follows db asset plan s.access := h.of_store s.rows_access

theorem commit (h : Follows db asset plan s) : Follows db asset plan s.commit := h.of_store s.rows_commit

theorem assignLog (h : Follows db asset plan s) (point : Nat) (log : Option Nat) :
    Follows db asset plan (s.assignLog asset point log) := by
  refine ⟨h.lookups, h.assets, h.functions, ?_⟩
  have hshape : (s.assignLog asset point log).db.assetPoints.rows.map AssetPoint.shape =
      s.db.assetPoints.rows.map AssetPoint.shape := by
    simp only [Session.assignLog, Table.rows_update, List.map_map]
    apply List.map_congr_left
    intro p _
    simp only [Function.comp_apply]
    split
    · rfl
    · rfl
  rw [hshape]
  exact h.points

theorem stored {added : List Nat} {functions : Finset (Nat × Nat)}
    (h : Follows db asset ⟨[], added, functions⟩ s) {p₀ : AssetPoint}
    (hp₀ : p₀ ∈ db.assetPoints.rows) : ∃ p ∈ s.db.assetPoints.rows, p.shape = p₀.shape := by
  obtain ⟨fresh, hrows, -⟩ := h.points
  apply List.mem_map.mp
  rw [hrows]
  exact List.mem_append_left _ (List.mem_map_of_mem (List.mem_filter.mpr ⟨hp₀, by simp⟩))

theorem one?_point {added : List Nat} {functions : Finset (Nat × Nat)}
    (h : Follows db asset ⟨[], added, functions⟩ s) {p₀ : AssetPoint}
    (hp₀ : p₀ ∈ db.assetPoints.rows) :
    ∃ p, s.db.assetPoints.one? (fun q => q.id == p₀.id) = some p ∧ p.id = p₀.id := by
  obtain ⟨p, hp, he⟩ := h.stored hp₀
  have hid : p.id = p₀.id := congrArg Prod.fst he
  exact ⟨p, hid ▸ Table.one?_key hp, hid⟩

theorem createPoint {added : List Nat} {functions : Finset (Nat × Nat)}
    (h : Follows db asset ⟨[], added, functions⟩ s) (type : Nat) (name : String) :
    Follows db asset ⟨[], added ++ [type], functions⟩ (s.createPoint asset type name) := by
  obtain ⟨fresh, hrows, htypes, hfresh⟩ := h.points
  refine ⟨h.lookups, h.assets, h.functions, fresh ++ [(s.db.assetPoints.nextKey, asset, type)],
    ?_, ?_, ?_⟩
  · simp only [Session.createPoint, Table.rows_insert, List.map_append, hrows, List.append_assoc]
    rfl
  · simp only [List.map_append, htypes]
    rfl
  · intro q hq
    rcases List.mem_append.mp hq with hq | hq
    · exact hfresh q hq
    · obtain rfl := List.mem_singleton.mp hq
      refine ⟨rfl, ?_⟩
      intro p₀ hp₀
      obtain ⟨p, hp, he⟩ := h.stored hp₀
      have hid : p.id = p₀.id := congrArg Prod.fst he
      have hlt := Table.key_lt_nextKey hp
      omega

theorem deletePoints {added old : List Nat} {functions : Finset (Nat × Nat)}
    (h : Follows db asset ⟨[], added, functions⟩ s)
    (hold : ∀ id ∈ old, ∃ p ∈ db.assetPoints.rows, p.id = id) :
    Follows db asset ⟨old, added, functions⟩ (s.deletePoints asset old) := by
  obtain ⟨fresh, hrows, htypes, hfresh⟩ := h.points
  refine ⟨h.lookups, h.assets, h.functions, fresh, ?_, htypes, hfresh⟩
  have hmap : ∀ l : List AssetPoint,
      (l.filter (fun p => !decide (p.id ∈ old))).map AssetPoint.shape =
        (l.map AssetPoint.shape).filter (fun q => !decide (q.1 ∈ old)) := by
    intro l
    rw [List.filter_map]
    rfl
  have hkeep : fresh.filter (fun q => !decide (q.1 ∈ old)) = fresh := by
    rw [List.filter_eq_self]
    intro q hq
    have hnot : q.1 ∉ old := by
      intro hm
      obtain ⟨p, hp, hid⟩ := hold q.1 hm
      exact (hfresh q hq).2 p hp hid
    simpa using hnot
  simp only [Session.deletePoints, Table.rows_delete, hmap, hrows, List.filter_append, hkeep]
  simp

theorem clearDescriptors (h : Follows db asset plan s) :
    Follows db asset { plan with functions := plan.functions.filter (fun q => q.1 ≠ asset) }
      (s.clearDescriptors asset) :=
  ⟨h.lookups, h.assets, congrArg (Finset.filter fun q : Nat × Nat => q.1 ≠ asset) h.functions, h.points⟩

theorem addDescriptor (h : Follows db asset plan s) (f : Nat) :
    Follows db asset { plan with functions := insert (asset, f) plan.functions }
      (s.addDescriptor asset f) :=
  ⟨h.lookups, h.assets, congrArg (insert (asset, f)) h.functions, h.points⟩

theorem clearExclusions (h : Follows db asset plan s) :
    Follows db asset plan (s.clearExclusions asset) :=
  ⟨h.lookups, h.assets, h.functions, h.points⟩

theorem exclude (h : Follows db asset plan s) (inclusions : List Nat) :
    Follows db asset plan (s.exclude asset inclusions) :=
  ⟨h.lookups, h.assets, h.functions, h.points⟩

theorem bindLog (h : Follows db asset plan s) (point : Nat) (log : Option String) :
    if logFound db log then ∃ s', bindLog asset point s log = some s' ∧ Follows db asset plan s'
    else bindLog asset point s log = none := by
  have hlogs : s.access.db.loggedEntities = db.loggedEntities :=
    (congrArg Db.loggedEntities h.access.lookups :)
  by_cases hempty : log = some ""
  · subst hempty
    exact ⟨s, rfl, h⟩
  · have hfound : logFound db log = (db.loggedEntities.one? (fun e => e.path == log)).isSome := by
      simp [logFound, hempty]
    rw [hfound]
    simp only [Medusa.bindLog, hempty, if_false, hlogs]
    cases db.loggedEntities.one? (fun e => e.path == log) with
    | none => rfl
    | some entity => exact ⟨_, rfl, h.access.assignLog point entity.id⟩

end Follows

section Loops

variable {db : Db} {asset : Nat} {form : AssetForm}

def FollowsFields (db : Db) (asset : Nat) (state : Session × List Nat)
    (plan : List Nat × List Nat) : Prop :=
  state.2 = plan.1 ∧ (∀ id ∈ plan.1, ∃ p ∈ db.pointsOf asset, p.id = id) ∧
    Follows db asset ⟨[], plan.2, db.assetFunctionMapping⟩ state.1

theorem editField_rel (state : Session × List Nat) (plan : List Nat × List Nat) (i : Nat)
    (h : FollowsFields db asset state plan) :
    Option.Rel (FollowsFields db asset) (editField asset form state i)
      (form.planField db plan i) := by
  obtain ⟨s, old⟩ := state
  obtain ⟨dropped, added⟩ := plan
  obtain ⟨rfl, hold, hs⟩ := h
  have htypes : s.access.db.pointTypes = db.pointTypes := (congrArg Db.pointTypes hs.access.lookups :)
  unfold editField AssetForm.planField
  cases hprev : (form.fields i).prevPoint with
  | some pointId =>
    cases pointId with
    | none => exact Option.Rel.none
    | some id =>
      by_cases hid : id ∈ old
      · obtain ⟨p₀, hp₀, rfl⟩ := hold id hid
        obtain ⟨p, hone, hpid⟩ := hs.access.one?_point (List.mem_filter.mp hp₀).1
        have hlog := hs.access.bindLog p₀.id (form.fields i).log
        have herase : ∀ id ∈ old.erase p₀.id, ∃ p ∈ db.pointsOf asset, p.id = id :=
          fun id hm => hold id (List.mem_of_mem_erase hm)
        by_cases hfound : logFound db (form.fields i).log = true
        · rw [if_pos hfound] at hlog
          obtain ⟨s', hs', hfollows⟩ := hlog
          simp only [Option.bind_eq_bind, Option.bind_some, hone, hpid, hid, hs', hfound, if_true,
            and_self]
          exact Option.Rel.some ⟨rfl, herase, hfollows⟩
        · rw [if_neg hfound] at hlog
          simp only [Option.bind_eq_bind, Option.bind_some, hone, hpid, hid, hlog, hfound, if_true]
          exact Option.Rel.none
      · have hnone : ∀ point, s.access.db.assetPoints.one? (fun q => q.id == id) = some point →
            point.id ∉ old := by
          intro point hpoint
          have hpid : point.id = id := by simpa using (Table.one?_eq_some.mp hpoint).1.2
          rw [hpid]
          exact hid
        simp only [Option.bind_eq_bind, Option.bind_some, hid, false_and, if_false]
        cases hone : s.access.db.assetPoints.one? (fun q => q.id == id) with
        | none => exact Option.Rel.none
        | some point =>
          simp only [Option.bind_some, hnone point hone, if_false]
          exact Option.Rel.none
  | none =>
    cases hpoint : (form.fields i).point with
    | none => exact Option.Rel.some ⟨rfl, hold, hs⟩
    | some name =>
      simp only [htypes]
      cases db.pointTypes.one? (fun t => t.name == name) with
      | none => exact Option.Rel.none
      | some type =>
        have hlog := (hs.access.createPoint type.id name).bindLog
          s.access.db.assetPoints.nextKey (form.fields i).log
        by_cases hfound : logFound db (form.fields i).log = true
        · rw [if_pos hfound] at hlog
          obtain ⟨s', hs', hfollows⟩ := hlog
          simp only [Option.bind_eq_bind, Option.bind_some, hs', hfound, if_true]
          exact Option.Rel.some ⟨rfl, hold, hfollows⟩
        · rw [if_neg hfound] at hlog
          simp only [Option.bind_eq_bind, Option.bind_some, hlog, hfound]
          exact Option.Rel.none

theorem setFunction_rel {dropped added : List Nat} (s : Session) (functions : Finset (Nat × Nat))
    (name : String) (h : Follows db asset ⟨dropped, added, functions⟩ s) :
    Option.Rel (fun s functions => Follows db asset ⟨dropped, added, functions⟩ s)
      (setFunction asset s name) (planFunction db asset functions name) := by
  have hlookup : s.access.db.functionalDescriptors = db.functionalDescriptors :=
    (congrArg Db.functionalDescriptors h.access.lookups :)
  unfold setFunction planFunction
  split
  · exact Option.Rel.some h
  · rw [hlookup]
    cases db.functionalDescriptors.one? (fun f => f.name == name) with
    | none => exact Option.Rel.none
    | some f => exact Option.Rel.some (h.access.addDescriptor f.id)

theorem includeAlgorithm_rel {plan : EditPlan} (state : Session × List Nat) (u : Unit)
    (descr : String) (h : Follows db asset plan state.1) :
    Option.Rel (fun state _ => Follows db asset plan state.1) (includeAlgorithm state descr)
      (planAlgorithm db u descr) := by
  have hlookup : state.1.access.db.algorithms = db.algorithms :=
    (congrArg Db.algorithms h.access.lookups :)
  unfold includeAlgorithm planAlgorithm
  rw [hlookup]
  cases db.algorithms.one? (fun g => g.descr == descr) with
  | none => exact Option.Rel.none
  | some g => exact Option.Rel.some h.access

theorem Follows.pointIds {s : Session} {functions : Finset (Nat × Nat)}
    (h : Follows db asset ⟨[], [], functions⟩ s) :
    (s.db.pointsOf asset).map AssetPoint.id = (db.pointsOf asset).map AssetPoint.id := by
  have hids : ∀ l : List AssetPoint, (l.filter (fun p => p.assetId == asset)).map AssetPoint.id =
      ((l.map AssetPoint.shape).filter (fun q => q.2.1 == asset)).map Prod.fst := by
    intro l
    rw [List.filter_map, List.map_map]
    rfl
  obtain ⟨fresh, hrows, hfresh, -⟩ := h.points
  obtain rfl := List.map_eq_nil_iff.mp hfresh
  simp only [Db.pointsOf, hids, hrows]
  simp

/-- An edit does what its form says, or stops if the form cannot be read. -/
theorem editDetails_rel {s : Session}
    (h : Follows db asset ⟨[], [], db.assetFunctionMapping⟩ s) :
    Option.Rel (fun s plan => Follows db asset plan s ∧
        ∀ id ∈ plan.dropped, ∃ p ∈ db.pointsOf asset, p.id = id)
      (editDetails asset form s) (form.planDetails db asset) := by
  have hstart : FollowsFields db asset (s.access, (s.access.db.pointsOf asset).map AssetPoint.id)
      ((db.pointsOf asset).map AssetPoint.id, []) := by
    refine ⟨h.access.pointIds, ?_, h.access⟩
    intro id hid
    exact List.mem_map.mp hid
  refine rel_bind (foldlM_rel editField_rel hstart) ?_
  rintro ⟨s₁, old⟩ ⟨dropped, added⟩ ⟨rfl, hdropped, h₁⟩
  have hrows : ∀ id ∈ old, ∃ p ∈ db.assetPoints.rows, p.id = id := by
    intro id hid
    obtain ⟨p, hp, he⟩ := hdropped id hid
    exact ⟨p, (List.mem_filter.mp hp).1, he⟩
  refine rel_bind (foldlM_rel setFunction_rel
    (h₁.deletePoints hrows).access.clearDescriptors) ?_
  intro s₂ functions h₂
  refine rel_bind (foldlM_rel includeAlgorithm_rel h₂.access.clearExclusions) ?_
  intro state _ h₃
  exact Option.Rel.some ⟨h₃.access.exclude state.2, hdropped⟩

end Loops

theorem Follows.types_iff {db : Db} {asset : Nat} {plan : EditPlan} {s : Session}
    (h : Follows db asset plan s) (a t : Nat) :
    (∃ p ∈ s.db.pointsOf a, p.typeId = t) ↔
      (∃ p ∈ db.pointsOf a, p.id ∉ plan.dropped ∧ p.typeId = t) ∨ (a = asset ∧ t ∈ plan.added) := by
  obtain ⟨fresh, hrows, htypes, hfresh⟩ := h.points
  have hshape : (∃ p ∈ s.db.pointsOf a, p.typeId = t) ↔
      ∃ i, (i, a, t) ∈ s.db.assetPoints.rows.map AssetPoint.shape := by
    simp [Db.pointsOf, AssetPoint.shape, and_assoc]
  have hadded : t ∈ plan.added ↔ ∃ i, (i, asset, t) ∈ fresh := by
    rw [← htypes]
    constructor
    · intro ht
      obtain ⟨⟨i, a', t'⟩, hq, rfl⟩ := List.mem_map.mp ht
      obtain rfl := (hfresh _ hq).1
      exact ⟨i, hq⟩
    · rintro ⟨i, hq⟩
      exact List.mem_map.mpr ⟨_, hq, rfl⟩
  have hkept : (∃ i, (i, a, t) ∈ (db.assetPoints.rows.filter
        (fun p => !decide (p.id ∈ plan.dropped))).map AssetPoint.shape) ↔
      ∃ p ∈ db.pointsOf a, p.id ∉ plan.dropped ∧ p.typeId = t := by
    simp only [List.mem_map, List.mem_filter, AssetPoint.shape, Prod.mk.injEq, Db.pointsOf,
      Bool.not_eq_true', decide_eq_false_iff_not, beq_iff_eq]
    constructor
    · rintro ⟨i, p, ⟨hp, hd⟩, -, ha, ht⟩
      exact ⟨p, ⟨hp, ha⟩, hd, ht⟩
    · rintro ⟨p, ⟨hp, ha⟩, hd, ht⟩
      exact ⟨p.id, p, ⟨hp, hd⟩, rfl, ha, ht⟩
  have hnew : (∃ i, (i, a, t) ∈ fresh) ↔ a = asset ∧ ∃ i, (i, asset, t) ∈ fresh := by
    constructor
    · rintro ⟨i, hq⟩
      obtain rfl : a = asset := (hfresh _ hq).1
      exact ⟨rfl, i, hq⟩
    · rintro ⟨rfl, hq⟩
      exact hq
  rw [hshape, hrows, hadded]
  simp only [List.mem_append, exists_or, hkept, hnew]

theorem Follows.keepsTypes_iff {db : Db} {asset : Nat} {plan : EditPlan} {s : Session}
    (h : Follows db asset plan s) (hasset : asset ∈ db.assets.rows.map Asset.id)
    (hdropped : ∀ id ∈ plan.dropped, ∃ p ∈ db.pointsOf asset, p.id = id) :
    KeepsTypes db s.db ↔ ¬ plan.DropsNeeded db asset := by
  have halgorithms : s.db.algorithms = db.algorithms := (congrArg Db.algorithms h.lookups :)
  have hP : s.db.algoPointMapping = db.algoPointMapping := (congrArg Db.algoPointMapping h.lookups :)
  have hF : s.db.algoFunctionMapping = db.algoFunctionMapping :=
    (congrArg Db.algoFunctionMapping h.lookups :)
  constructor
  · rintro hkeeps ⟨g, hg, hmapped, hfunctions, hall, t, ht, hadded, hlast⟩
    rw [← h.assets] at hasset
    obtain ⟨a, ha, rfl⟩ := List.mem_map.mp hasset
    have hbefore : ∀ t, (g.id, t) ∈ s.db.algoPointMapping →
        ∃ p ∈ s.db.pointsOf a.id ++ db.pointsOf a.id, p.typeId = t := by
      intro t ht
      rw [hP] at ht
      simp only [List.mem_append, or_and_right, exists_or, h.types_iff]
      rcases hall t ht with hp | hnew
      · exact Or.inr hp
      · exact Or.inl (Or.inr ⟨trivial, hnew⟩)
    have hafter := hkeeps a ha g (by rw [halgorithms]; exact hg) hmapped
      (by rw [hF, h.functions]; exact hfunctions) hbefore t (by rw [hP]; exact ht)
    rcases (h.types_iff a.id t).mp hafter with ⟨p, hp, hid, hpt⟩ | ⟨-, hnew⟩
    · exact hid (hlast p hp hpt)
    · exact hadded hnew
  · intro hnot a ha g hg hmapped hfunctions hbefore t ht
    rw [halgorithms] at hg
    rw [hF, h.functions] at hfunctions
    simp only [List.mem_append, or_and_right, exists_or, h.types_iff, hP] at hbefore ht ⊢
    by_contra hno
    obtain ⟨hlost, hadded⟩ := not_or.mp hno
    by_cases hid : a.id = asset
    · subst hid
      refine hnot ⟨g, hg, hmapped, hfunctions, ?_, t, ht, fun hnew => hadded ⟨rfl, hnew⟩, ?_⟩
      · intro t' ht'
        rcases hbefore t' ht' with (⟨p, hp, -, hpt⟩ | ⟨-, hnew⟩) | hp
        · exact Or.inl ⟨p, hp, hpt⟩
        · exact Or.inr hnew
        · exact Or.inl hp
      · intro p hp hpt
        by_contra hd
        exact hlost ⟨p, hp, hd, hpt⟩
    · -- the points of other assets are not dropped
      rcases hbefore t ht with (hp | hnew) | ⟨p, hp, hpt⟩
      · exact hlost hp
      · exact hadded hnew
      · refine hlost ⟨p, hp, ?_, hpt⟩
        intro hd
        obtain ⟨p', hp', he⟩ := hdropped p.id hd
        have hm := List.mem_filter.mp hp
        have hm' := List.mem_filter.mp hp'
        have hpp : p' = p := Table.eq_of_key_eq hm'.1 hm.1 he
        apply hid
        have ha' : p.assetId = a.id := by simpa using hm.2
        have hb' : p.assetId = asset := by simpa [hpp] using hm'.2
        exact ha'.symm.trans hb'

/-- The session of an edit once the attributes are set. -/
def Session.edited (loads : Nat → Bool) (db : Db) (assets : Table Asset Asset.id) (asset : Nat) :
    Session :=
  { Session.start db loads with db := { db with assets := assets }, dirty := [asset] }

theorem editAttributes_eq (loads : Nat → Bool) (db : Db) (sitename : String) (assetId : Nat)
    (form : AssetForm) :
    if form.accepted db sitename assetId then
      ∃ type priority, db.assetTypes.one? (fun t => t.name == form.type) = some type ∧
        form.priority = some priority ∧ assetId ∈ db.assets.rows.map Asset.id ∧
        editAttributes loads db sitename assetId form = some (Session.edited loads db
          (db.assets.update (fun a => a.id == assetId) (form.setAttributes type.id priority)
            (form.setAttributes_id type.id priority)) assetId)
    else editAttributes loads db sitename assetId form = none := by
  unfold AssetForm.accepted editAttributes
  cases db.sites.one? (fun s => s.name == sitename) with
  | none => rfl
  | some site =>
    cases hasset : db.assets.one? (fun a => a.id == assetId) with
    | none => rfl
    | some asset =>
      obtain ⟨⟨hrow, hid⟩, -⟩ := Table.one?_eq_some.mp hasset
      obtain rfl : asset.id = assetId := by simpa using hid
      cases form.valid with
      | false => rfl
      | true =>
        cases db.assetTypes.one? (fun t => t.name == form.type) with
        | none => rfl
        | some type =>
          cases form.priority with
          | none => rfl
          | some priority =>
            exact ⟨type, priority, rfl, rfl, List.mem_map_of_mem hrow, rfl⟩

theorem editAttributes_spec (loads : Nat → Bool) (db : Db) (sitename : String) (assetId : Nat)
    (form : AssetForm) :
    if form.accepted db sitename assetId then
      ∃ (assets : Table Asset Asset.id), assets.rows.map Asset.id = db.assets.rows.map Asset.id ∧
        assetId ∈ db.assets.rows.map Asset.id ∧
        editAttributes loads db sitename assetId form = some (Session.edited loads db assets assetId)
    else editAttributes loads db sitename assetId form = none := by
  have h := editAttributes_eq loads db sitename assetId form
  split at h
  · next haccepted =>
    obtain ⟨type, priority, -, -, hasset, hs⟩ := h
    rw [if_pos haccepted]
    exact ⟨_, Table.keys_rewrite _ (form.setAttributes_id type.id priority), hasset, hs⟩
  · next haccepted =>
    rw [if_neg haccepted]
    exact h

theorem Session.edited_points (loads : Nat → Bool) (db : Db) (assets : Table Asset Asset.id)
    (asset : Nat) :
    (Session.edited loads db assets asset).commit.db.assetPoints = db.assetPoints :=
  (congrArg Db.assetPoints (Session.edited loads db assets asset).rows_commit :)

theorem Follows.edited (loads : Nat → Bool) {db : Db} {assets : Table Asset Asset.id}
    (hids : assets.rows.map Asset.id = db.assets.rows.map Asset.id) (asset : Nat) :
    Follows db asset ⟨[], [], db.assetFunctionMapping⟩ (Session.edited loads db assets asset) := by
  refine ⟨rfl, hids, rfl, [], ?_, rfl, by simp⟩
  simp [Session.edited]

/-- An edit whose form can be read goes through. -/
theorem editAsset_of_plan (loads : Nat → Bool) {db : Db} {sitename : String} {assetId : Nat}
    {form : AssetForm} {plan : EditPlan} (hplan : form.plan db sitename assetId = some plan) :
    ∃ (assets : Table Asset Asset.id) (s' : Session),
      assets.rows.map Asset.id = db.assets.rows.map Asset.id ∧
      assetId ∈ db.assets.rows.map Asset.id ∧
      editDetails assetId form (Session.edited loads db assets assetId).commit = some s' ∧
      editAsset loads db sitename assetId form = s'.commit.db ∧ Follows db assetId plan s' ∧
      ∀ id ∈ plan.dropped, ∃ p ∈ db.pointsOf assetId, p.id = id := by
  have hattributes := editAttributes_spec loads db sitename assetId form
  unfold AssetForm.plan at hplan
  split at hplan
  · next haccepted =>
    rw [if_pos haccepted] at hattributes
    obtain ⟨assets, hids, hasset, hs⟩ := hattributes
    have hrel : Option.Rel _ (editDetails assetId form (Session.edited loads db assets assetId).commit)
        (form.planDetails db assetId) := editDetails_rel (Follows.edited loads hids assetId).commit
    rw [hplan] at hrel
    generalize hd : editDetails assetId form (Session.edited loads db assets assetId).commit =
      details at hrel
    cases hrel with
    | @some s' plan hs' =>
      refine ⟨assets, s', hids, hasset, hd, ?_, hs'⟩
      unfold editAsset
      rw [hs]
      simp only [hd]
  · exact absurd hplan (by simp)

theorem editDetails_correct_iff {db : Db} {asset : Nat} {form : AssetForm} {s : Session}
    (hediting : Editing db s) (hpoints : s.db.assetPoints = db.assetPoints)
    (hfollows : Follows db asset ⟨[], [], db.assetFunctionMapping⟩ s)
    (hasset : asset ∈ db.assets.rows.map Asset.id) (hcorrect : MappingCorrect s.db) :
    MappingCorrect (match editDetails asset form s with
        | none => s.db
        | some s' => s'.commit.db) ↔
      ∀ plan, form.planDetails db asset = some plan → ¬ plan.DropsNeeded db asset := by
  have hrel : Option.Rel _ (editDetails asset form s) (form.planDetails db asset) :=
    editDetails_rel hfollows
  generalize hd : editDetails asset form s = details at hrel ⊢
  generalize form.planDetails db asset = planned at hrel ⊢
  cases hrel with
  | none => exact iff_of_true hcorrect (by simp)
  | @some s' plan hs' =>
    have hready : Ready db s' := hediting.editDetails hd hpoints
    simp only [Option.some.injEq, forall_eq']
    rw [hready.commit_correct_iff]
    exact hs'.1.commit.keepsTypes_iff hasset hs'.2

theorem editAsset_correct_iff {db : Db} (h : MappingCorrect db) (loads : Nat → Bool)
    (sitename : String) (assetId : Nat) (form : AssetForm) :
    MappingCorrect (editAsset loads db sitename assetId form) ↔
      ∀ plan, form.plan db sitename assetId = some plan → ¬ plan.DropsNeeded db assetId := by
  have hattributes := editAttributes_spec loads db sitename assetId form
  unfold editAsset AssetForm.plan
  by_cases haccepted : form.accepted db sitename assetId = true
  · rw [if_pos haccepted] at hattributes
    obtain ⟨assets, hids, hasset, hs⟩ := hattributes
    rw [hs, if_pos haccepted]
    have hstart := h.editing loads assets [assetId] (fun a ha _ => hids ▸ ha)
    exact editDetails_correct_iff hstart.commit.1 hstart.commit.2 (Follows.edited loads hids assetId).commit
      hasset hstart.commit_correct
  · rw [if_neg haccepted] at hattributes
    rw [hattributes, if_neg haccepted]
    exact iff_of_true h (by simp)

inductive AssetRequest
  | add (sitename : String) (form : AssetForm)
  | edit (sitename : String) (assetId : Nat) (form : AssetForm)
  | delete (assetId : Nat)

/-- The database after a request, which comes with what its session loads. -/
def AssetRequest.run (db : Db) : (Nat → Bool) × AssetRequest → Db
  | (loads, .add sitename form) => addAsset loads db sitename form
  | (loads, .edit sitename assetId form) => editAsset loads db sitename assetId form
  | (loads, .delete assetId) => deleteAsset loads db assetId

def runRequests (db : Db) (requests : List ((Nat → Bool) × AssetRequest)) : Db :=
  requests.foldl AssetRequest.run db

/-- The request is an edit that goes through and takes away a last point that is
needed. -/
def AssetRequest.DropsNeeded (db : Db) : AssetRequest → Prop
  | .edit sitename assetId form =>
    ∃ plan, form.plan db sitename assetId = some plan ∧ plan.DropsNeeded db assetId
  | _ => False

theorem AssetRequest.run_correct_iff (db : Db) (r : (Nat → Bool) × AssetRequest)
    (h : MappingCorrect db) : MappingCorrect (AssetRequest.run db r) ↔ ¬ r.2.DropsNeeded db := by
  obtain ⟨loads, r⟩ := r
  cases r with
  | add sitename form => exact iff_of_true (addAsset_correct h loads sitename form) (fun hd => hd)
  | edit sitename assetId form =>
    refine (editAsset_correct_iff h loads sitename assetId form).trans ?_
    simp only [AssetRequest.DropsNeeded, not_exists, not_and]
  | delete assetId => exact iff_of_true (deleteAsset_correct h loads assetId) (fun hd => hd)

/-- From a correct mapping, the mapping is correct after every request of a
sequence exactly if no request takes away a last point that is needed. -/
theorem runRequests_mappingCorrect_iff {db : Db} {requests : List ((Nat → Bool) × AssetRequest)}
    (h : MappingCorrect db) :
    (∀ done rest, requests = done ++ rest → MappingCorrect (runRequests db done)) ↔
      ∀ done r rest, requests = done ++ r :: rest → ¬ r.2.DropsNeeded (runRequests db done) :=
  foldl_good_iff AssetRequest.run_correct_iff h

def fanForm (fields : Nat → PointField) : AssetForm where
  valid := true
  type := "fan"
  name := "fan unit"
  location := "roof"
  group := ""
  priority := some 1
  notes := ""
  fields := fields
  functions := []
  algorithms := ["fan runs without need"]

def noField : PointField := ⟨none, none, none⟩

theorem fanPlant_mappingCorrect : MappingCorrect fanPlant := by
  intro a ha g hg
  obtain rfl := List.mem_singleton.mp ha
  obtain rfl := List.mem_singleton.mp hg
  simp [fanPlant, plant, fanUnit, fanCheck, Db.pointsOf, Db.empty]

def keptPoint : Nat → PointField
  | 1 => ⟨some (some 1), none, some ""⟩
  | 2 => ⟨none, some "fan status", some ""⟩
  | _ => noField

theorem runRequests_mappingCorrect_iff_fanPlant :
    MappingCorrect fanPlant ∧ ∀ done rest,
      [(fun _ => true, AssetRequest.edit "plant" 1 (fanForm keptPoint)),
        (fun _ => false, .delete 1)] = done ++ rest →
      MappingCorrect (runRequests fanPlant done) := by
  refine ⟨fanPlant_mappingCorrect,
    (runRequests_mappingCorrect_iff fanPlant_mappingCorrect).mpr ?_⟩
  intro done r rest he
  rcases done with _ | ⟨r₁, _ | ⟨r₂, done⟩⟩
  · obtain ⟨rfl, -⟩ := List.cons.inj he
    rintro ⟨plan, hplan, g, -, -, -, -, t, ht, hadded, -⟩
    have hread : (fanForm keptPoint).plan fanPlant "plant" 1 = some ⟨[], [1], ∅⟩ := by
      decide +kernel
    obtain rfl := Option.some.inj (hplan.symm.trans hread)
    have hone : t = 1 := congrArg Prod.snd (Finset.mem_singleton.mp ht)
    exact hadded (List.mem_singleton.mpr hone)
  · obtain ⟨rfl, hrest⟩ := List.cons.inj he
    obtain ⟨rfl, -⟩ := List.cons.inj hrest
    exact fun hd => hd
  · have hlength := congrArg List.length he
    simp at hlength

/-- The form names no point, so the only one is deleted, and the check stays. -/
theorem editAsset_removes_needed_point :
    MappingCorrect fanPlant ∧
      ¬ MappingCorrect (runRequests fanPlant
        [(fun _ => true, .edit "plant" 1 (fanForm fun _ => noField))]) := by
  refine ⟨fanPlant_mappingCorrect, ?_⟩
  intro h
  generalize hdb : runRequests fanPlant
    [(fun _ => true, .edit "plant" 1 (fanForm fun _ => noField))] = db at h
  have hstate : db.assets.rows = [fanUnit] ∧ db.algorithms.rows = [fanCheck] ∧
      db.pointsOf 1 = [] ∧ (1, 1) ∈ db.algoAssetMapping ∧ (1, 1) ∈ db.algoPointMapping := by
    rw [← hdb]
    decide +kernel
  obtain ⟨hassets, halgorithms, hpoints, hmapped, hrequired⟩ := hstate
  obtain ⟨-, htypes, -⟩ := (h fanUnit (by simp [hassets]) fanCheck (by simp [halgorithms])).mp hmapped
  obtain ⟨p, hp, -⟩ := htypes 1 hrequired
  have hnone : p ∈ db.pointsOf 1 := hp
  simp [hpoints] at hnone

end Medusa
