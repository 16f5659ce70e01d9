import Medusa.AssetRequests

/-! What the requests do to the mapping. Every change that matters for an asset
marks it, and the marked assets are mapped again by the next flush, at the
latest by the commit. So the mapping that a request commits is right for the
points that the session held, which are the stored ones and the deleted ones. -/

namespace Medusa

open Relational

/-- The mapping is right for the rows that are stored. -/
def MappingCorrect (db : Db) : Prop :=
  ∀ a ∈ db.assets.rows, ∀ g ∈ db.algorithms.rows,
    ((a.id, g.id) ∈ db.algoAssetMapping ↔ g.isMapped = true ∧
      (∀ t, (g.id, t) ∈ db.algoPointMapping → ∃ p ∈ db.pointsOf a.id, p.typeId = t) ∧
      ∀ f, (g.id, f) ∈ db.algoFunctionMapping → (a.id, f) ∈ db.assetFunctionMapping)

/-- Between the two states no asset has lost the last point of a type that makes
the difference for an algorithm: an algorithm whose descriptors the asset has and
whose point types it had before or has now has them now. -/
def KeepsTypes (db db' : Db) : Prop :=
  ∀ a ∈ db'.assets.rows, ∀ g ∈ db'.algorithms.rows, g.isMapped = true →
    (∀ f, (g.id, f) ∈ db'.algoFunctionMapping → (a.id, f) ∈ db'.assetFunctionMapping) →
    (∀ t, (g.id, t) ∈ db'.algoPointMapping →
      ∃ p ∈ db'.pointsOf a.id ++ db.pointsOf a.id, p.typeId = t) →
    ∀ t, (g.id, t) ∈ db'.algoPointMapping → ∃ p ∈ db'.pointsOf a.id, p.typeId = t

theorem KeepsTypes.of_points {db db' : Db}
    (h : ∀ a ∈ db'.assets.rows, ∀ p ∈ db.pointsOf a.id, ∃ p' ∈ db'.pointsOf a.id,
      p'.typeId = p.typeId) : KeepsTypes db db' := by
  intro a ha g _ _ _ hall t ht
  obtain ⟨p, hp, hpt⟩ := hall t ht
  rcases List.mem_append.mp hp with hp | hp
  · exact ⟨p, hp, hpt⟩
  · obtain ⟨p', hp', he⟩ := h a ha p hp
    exact ⟨p', hp', he.trans hpt⟩

/-- The mapping of every asset without pending changes is right for the session. -/
def Tidy (s : Session) : Prop :=
  ∀ a ∈ s.db.assets.rows.map Asset.id, ∀ g ∈ s.db.algorithms.rows.map Algorithm.id,
    a ∉ s.dirty → ((a, g) ∈ s.relation ↔ s.related (a, g))

/-- The same for one asset. -/
def TidyAt (a : Nat) (s : Session) : Prop :=
  ∀ g ∈ s.db.algorithms.rows.map Algorithm.id,
    a ∉ s.dirty → ((a, g) ∈ s.relation ↔ s.related (a, g))

theorem Session.related_iff {s : Session} {a : Nat} {g : Algorithm} (hg : g ∈ s.db.algorithms.rows) :
    s.related (a, g.id) ↔ g.isMapped = true ∧
      (∀ t, (g.id, t) ∈ s.db.algoPointMapping → t ∈ s.getPointTypes a) ∧
      ∀ f, (g.id, f) ∈ s.db.algoFunctionMapping → (a, f) ∈ s.db.assetFunctionMapping := by
  have hget : s.db.algorithms.get? g.id = some g := Table.get?_eq_some.mpr ⟨hg, rfl⟩
  simp only [Session.related, Session.isMapped, hget, Session.passes_iff]

theorem Session.mem_getPointTypes {s : Session} {a t : Nat} :
    t ∈ s.getPointTypes a ↔ (∃ p ∈ s.db.pointsOf a, p.typeId = t) ∨
      ∃ p ∈ s.ghosts, p.assetId = a ∧ p.typeId = t := by
  simp [Session.getPointTypes, Session.points, and_assoc]

theorem Session.assets_store {s s' : Session} (h : s'.store = s.store) :
    s'.db.assets = s.db.assets :=
  congrArg (fun p => p.1.assets) h

section TidyAt

variable {a : Nat} {s s' : Session} (h : TidyAt a s)

include h

theorem TidyAt.flush : ∀ g ∈ s.db.algorithms.rows.map Algorithm.id,
    ((a, g) ∈ s.flush.relation ↔ s.related (a, g)) := by
  intro g hg
  obtain ⟨hm, hdirty⟩ := s.flush_remapped
  by_cases hd : a ∈ s.dirty
  · exact hdirty a hd g
  · exact hm.relation.keeps trivial (h g hg hd)

theorem TidyAt.remapped (hm : Remapped s s')
    (hdirty : a ∈ s.dirty → a ∈ s'.dirty ∨ ∀ g ∈ s.db.algorithms.rows.map Algorithm.id,
      ((a, g) ∈ s'.relation ↔ s.related (a, g))) : TidyAt a s' := by
  intro g hg hd
  rw [Session.algorithms_eq hm.store] at hg
  by_cases hd' : a ∈ s.dirty
  · rw [Session.related_congr hm.store]
    exact (hdirty hd').resolve_left hd g hg
  · exact hm.keeps (h g hg hd')

theorem TidyAt.access : TidyAt a s.access := by
  refine h.remapped s.access_remapped ?_
  intro ha
  unfold Session.access
  simp only
  split
  · exact Or.inr fun g _ =>
      (Session.flush_remapped { s with clock := s.clock + 1 }).2 a ha g
  · exact Or.inl ha

end TidyAt

theorem Tidy.access {s : Session} (h : Tidy s) : Tidy s.access := by
  intro a ha
  rw [Session.assets_store s.access_remapped.store] at ha
  exact TidyAt.access (h a ha)

/-- A change of what concerns one asset, which marks the asset if it matters. -/
structure Touched (asset : Nat) (s s' : Session) : Prop where
  relation : s'.relation = s.relation
  assets : s'.db.assets = s.db.assets
  algorithms : s'.db.algorithms = s.db.algorithms
  dirty : ∀ a ∈ s.dirty, a ∈ s'.dirty
  related : ∀ a g, a ≠ asset ∨ asset ∉ s'.dirty → (s'.related (a, g) ↔ s.related (a, g))

theorem TidyAt.touched {a asset : Nat} {s s' : Session} (h : TidyAt a s)
    (ht : Touched asset s s') : TidyAt a s' := by
  intro g hg hd
  rw [ht.algorithms] at hg
  have hd' : a ∉ s.dirty := fun hm => hd (ht.dirty a hm)
  have hrelated : s'.related (a, g) ↔ s.related (a, g) := by
    apply ht.related
    by_cases he : a = asset
    · exact Or.inr (he ▸ hd)
    · exact Or.inl he
  rw [ht.relation, hrelated]
  exact h g hg hd'

theorem Tidy.touched {asset : Nat} {s s' : Session} (h : Tidy s) (ht : Touched asset s s') :
    Tidy s' := by
  intro a ha
  rw [ht.assets] at ha
  exact TidyAt.touched (h a ha) ht

theorem Session.related_of (s s' : Session) {a : Nat} (g : Nat)
    (halgorithms : s'.db.algorithms = s.db.algorithms)
    (hpoints : s'.db.algoPointMapping = s.db.algoPointMapping)
    (hfunctions : s'.db.algoFunctionMapping = s.db.algoFunctionMapping)
    (htypes : ∀ t, t ∈ s'.getPointTypes a ↔ t ∈ s.getPointTypes a)
    (hdescriptors : ∀ f, (a, f) ∈ s'.db.assetFunctionMapping ↔ (a, f) ∈ s.db.assetFunctionMapping) :
    s'.related (a, g) ↔ s.related (a, g) := by
  simp only [Session.related, Session.isMapped, Session.passes_iff, halgorithms, hpoints,
    hfunctions, htypes, hdescriptors]

namespace Touched

theorem createPoint (s : Session) (asset type : Nat) (name : String) :
    Touched asset s (s.createPoint asset type name) := by
  refine ⟨rfl, rfl, rfl, fun _ => List.mem_cons_of_mem asset, ?_⟩
  intro a g h
  have ha : a ≠ asset := h.resolve_right (fun hd => hd List.mem_cons_self)
  refine Session.related_of s _ g rfl rfl rfl ?_ (fun _ => Iff.rfl)
  intro t
  have hpoints : (s.createPoint asset type name).db.pointsOf a = s.db.pointsOf a := by
    have hnew : ((newPoint asset type name s.db.assetPoints.nextKey).assetId == a) = false := by
      simpa [newPoint] using ha.symm
    simp [Db.pointsOf, Session.createPoint, hnew]
  simp only [Session.mem_getPointTypes, hpoints]
  rfl

theorem assignLog (s : Session) (asset point : Nat) (log : Option Nat) :
    Touched asset s (s.assignLog asset point log) := by
  refine ⟨rfl, rfl, rfl, fun _ => List.mem_cons_of_mem asset, ?_⟩
  intro a g _
  refine Session.related_of s _ g rfl rfl rfl ?_ (fun _ => Iff.rfl)
  intro t
  have hpoints : (s.assignLog asset point log).db.pointsOf a = (s.db.pointsOf a).map
      (fun p => if (p.id == point) = true then p.setLog log else p) :=
    Table.filter_update_map (AssetPoint.setLog_id log) (fun _ => rfl)
  have htype : ∀ p : AssetPoint,
      (if (p.id == point) = true then p.setLog log else p).typeId = p.typeId := by
    intro p
    split <;> rfl
  simp only [Session.mem_getPointTypes, hpoints, List.mem_map, exists_exists_and_eq_and, htype]
  rfl

theorem deletePoints (s : Session) (asset : Nat) (old : List Nat) :
    Touched asset s (s.deletePoints asset old) := by
  refine ⟨rfl, rfl, rfl, ?_, ?_⟩
  · intro a ha
    simp only [Session.deletePoints]
    split
    · exact ha
    · exact List.mem_cons_of_mem asset ha
  · intro a g _
    refine Session.related_of s _ g rfl rfl rfl ?_ (fun _ => Iff.rfl)
    intro t
    -- a point of the asset is stored or among the deleted ones, before as after
    simp only [Session.mem_getPointTypes, Session.deletePoints, Db.pointsOf, Table.rows_delete,
      List.mem_filter, List.mem_append, Bool.not_eq_true', decide_eq_false_iff_not,
      decide_eq_true_eq, beq_iff_eq]
    constructor
    · intro h
      rcases h with ⟨p, ⟨⟨hp, -⟩, ha⟩, ht⟩ | ⟨p, hp | hp, ha, ht⟩
      · exact Or.inl ⟨p, ⟨hp, ha⟩, ht⟩
      · exact Or.inl ⟨p, ⟨hp.1, ha⟩, ht⟩
      · exact Or.inr ⟨p, hp, ha, ht⟩
    · intro h
      rcases h with ⟨p, ⟨hp, ha⟩, ht⟩ | ⟨p, hp, ha, ht⟩
      · by_cases hold : p.id ∈ old
        · exact Or.inr ⟨p, Or.inl ⟨hp, hold⟩, ha, ht⟩
        · exact Or.inl ⟨p, ⟨⟨hp, hold⟩, ha⟩, ht⟩
      · exact Or.inr ⟨p, Or.inr hp, ha, ht⟩

theorem clearDescriptors (s : Session) (asset : Nat) :
    Touched asset s (s.clearDescriptors asset) := by
  refine ⟨rfl, rfl, rfl, ?_, ?_⟩
  · intro a ha
    simp only [Session.clearDescriptors]
    split
    · exact List.mem_cons_of_mem asset ha
    · exact ha
  · intro a g h
    refine Session.related_of s _ g rfl rfl rfl (fun _ => Iff.rfl) ?_
    intro f
    simp only [Session.clearDescriptors, Finset.mem_filter] at h ⊢
    refine and_iff_left_of_imp ?_
    intro hm he
    subst he
    rcases h with h | h
    · exact h rfl
    · rw [if_pos ⟨_, hm, rfl⟩] at h
      exact h List.mem_cons_self

theorem addDescriptor (s : Session) (asset f : Nat) :
    Touched asset s (s.addDescriptor asset f) := by
  refine ⟨rfl, rfl, rfl, fun _ => List.mem_cons_of_mem asset, ?_⟩
  intro a g h
  have ha : a ≠ asset := h.resolve_right (fun hd => hd List.mem_cons_self)
  refine Session.related_of s _ g rfl rfl rfl (fun _ => Iff.rfl) ?_
  intro f'
  simp [Session.addDescriptor, ha]

theorem clearExclusions (s : Session) (asset : Nat) :
    Touched asset s (s.clearExclusions asset) := by
  refine ⟨rfl, rfl, rfl, ?_, fun _ _ _ => Iff.rfl⟩
  intro a ha
  simp only [Session.clearExclusions]
  split
  · exact List.mem_cons_of_mem asset ha
  · exact ha

theorem exclude (s : Session) (asset : Nat) (inclusions : List Nat) :
    Touched asset s (s.exclude asset inclusions) := by
  refine ⟨rfl, rfl, rfl, ?_, fun _ _ _ => Iff.rfl⟩
  intro a ha
  simp only [Session.exclude]
  split
  · exact ha
  · exact List.mem_cons_of_mem asset ha

end Touched

/-- The session has deleted no point of `db`. -/
structure PointsKept (db : Db) (s : Session) : Prop where
  ghosts : s.ghosts = []
  stored : ∀ p₀ ∈ db.assetPoints.rows, ∃ p ∈ s.db.assetPoints.rows,
    p.id = p₀.id ∧ p.assetId = p₀.assetId ∧ p.typeId = p₀.typeId

/-- The session holds the points that it stores and those of `db`. -/
def TypesHeld (db : Db) (s : Session) : Prop :=
  ∀ a t, t ∈ s.getPointTypes a ↔
    (∃ p ∈ s.db.pointsOf a, p.typeId = t) ∨ ∃ p ∈ db.pointsOf a, p.typeId = t

/-- A session that has deleted no point of `db`. -/
structure Editing (db : Db) (s : Session) : Prop where
  tidy : Tidy s
  ghosts : s.ghosts = []
  stored : ∀ p₀ ∈ db.assetPoints.rows, ∃ p ∈ s.db.assetPoints.rows,
    p.id = p₀.id ∧ p.assetId = p₀.assetId ∧ p.typeId = p₀.typeId

/-- A session that holds the points that it stores and those of `db`. -/
structure Ready (db : Db) (s : Session) : Prop where
  tidy : Tidy s
  types : ∀ a t, t ∈ s.getPointTypes a ↔
    (∃ p ∈ s.db.pointsOf a, p.typeId = t) ∨ ∃ p ∈ db.pointsOf a, p.typeId = t

theorem Session.ghosts_store {s s' : Session} (h : s'.store = s.store) : s'.ghosts = s.ghosts :=
  congrArg Prod.snd h

theorem Session.assetPoints_store {s s' : Session} (h : s'.store = s.store) :
    s'.db.assetPoints = s.db.assetPoints :=
  congrArg (fun p => p.1.assetPoints) h

theorem Session.assetPoints_access (s : Session) : s.access.db.assetPoints = s.db.assetPoints :=
  Session.assetPoints_store s.access_remapped.store

/-- Apart from the mapping and the loaded points, the rows are those of before. -/
theorem Session.rows_access (s : Session) : s.access.store.1 = s.store.1 :=
  congrArg Prod.fst s.access_remapped.store

theorem Session.rows_commit (s : Session) : s.commit.store.1 = s.store.1 := by
  have hflush : s.flush.store.1 = s.store.1 := congrArg Prod.fst s.flush_remapped.1.store
  exact hflush

theorem Session.getPointTypes_of {s s' : Session} (hghosts : s'.ghosts = s.ghosts)
    (hpoints : s'.db.assetPoints = s.db.assetPoints) (a : Nat) :
    s'.db.pointsOf a = s.db.pointsOf a ∧ s'.getPointTypes a = s.getPointTypes a := by
  simp only [Session.getPointTypes, Session.points, Db.pointsOf, hghosts, hpoints, and_self]

theorem TypesHeld.of_points {db : Db} {s s' : Session} (h : TypesHeld db s)
    (hghosts : s'.ghosts = s.ghosts) (hpoints : s'.db.assetPoints = s.db.assetPoints) :
    TypesHeld db s' := by
  intro a t
  obtain ⟨hp, hg⟩ := Session.getPointTypes_of hghosts hpoints a
  rw [hp, hg]
  exact h a t

theorem TypesHeld.access {db : Db} {s : Session} (h : TypesHeld db s) : TypesHeld db s.access :=
  h.of_points (Session.ghosts_store s.access_remapped.store) s.assetPoints_access

namespace PointsKept

variable {db : Db} {s s' : Session}

theorem of_points (h : PointsKept db s) (hghosts : s'.ghosts = s.ghosts)
    (hpoints : s'.db.assetPoints = s.db.assetPoints) : PointsKept db s' :=
  ⟨hghosts.trans h.ghosts, by rw [hpoints]; exact h.stored⟩

theorem access (h : PointsKept db s) : PointsKept db s.access :=
  h.of_points (Session.ghosts_store s.access_remapped.store) s.assetPoints_access

theorem commit_store (h : PointsKept db s) : s.commit.store = s.store :=
  Prod.ext s.rows_commit h.ghosts.symm

theorem commit (h : PointsKept db s) : PointsKept db s.commit :=
  h.of_points h.ghosts.symm (Session.assetPoints_store h.commit_store)

theorem commit_tidyAt {a : Nat} (h : PointsKept db s) (ht : TidyAt a s) : TidyAt a s.commit := by
  intro g hg _
  rw [Session.algorithms_eq h.commit_store] at hg
  rw [Session.related_congr h.commit_store]
  exact ht.flush g hg

theorem createPoint (h : PointsKept db s) (asset type : Nat) (name : String) :
    PointsKept db (s.createPoint asset type name) := by
  refine ⟨h.ghosts, ?_⟩
  intro p₀ hp₀
  obtain ⟨p, hp, he⟩ := h.stored p₀ hp₀
  exact ⟨p, List.mem_append_left _ hp, he⟩

theorem assignLog (h : PointsKept db s) (asset point : Nat) (log : Option Nat) :
    PointsKept db (s.assignLog asset point log) := by
  refine ⟨h.ghosts, ?_⟩
  intro p₀ hp₀
  obtain ⟨p, hp, he⟩ := h.stored p₀ hp₀
  refine ⟨_, List.mem_map_of_mem hp, ?_⟩
  split
  · exact he
  · exact he

theorem typesHeld (h : PointsKept db s) : TypesHeld db s := by
  intro a t
  rw [Session.mem_getPointTypes, h.ghosts]
  simp only [List.not_mem_nil, false_and, exists_false, or_false]
  refine (or_iff_left_of_imp ?_).symm
  intro hb
  obtain ⟨p₀, hp₀, ht⟩ := hb
  have hm := List.mem_filter.mp hp₀
  obtain ⟨p, hp, -, ha, hpt⟩ := h.stored p₀ hm.1
  have hpa : p.assetId = a := ha.trans (by simpa using hm.2)
  exact ⟨p, List.mem_filter.mpr ⟨hp, by simpa using hpa⟩, hpt.trans ht⟩

theorem deletePoints (h : PointsKept db s) (asset : Nat) {old : List Nat}
    (hold : ∀ id ∈ old, ∃ p₀ ∈ db.assetPoints.rows, p₀.id = id) :
    TypesHeld db (s.deletePoints asset old) := by
  intro a t
  rw [Session.mem_getPointTypes]
  constructor
  · intro ht
    rcases ht with ht | ⟨p, hp, ha, ht⟩
    · exact Or.inl ht
    · right
      simp only [Session.deletePoints, h.ghosts, List.append_nil, List.mem_filter,
        decide_eq_true_eq] at hp
      obtain ⟨p₀, hp₀, hid⟩ := hold p.id hp.2
      obtain ⟨p', hp', hid', ha', ht'⟩ := h.stored p₀ hp₀
      have heq : p' = p := Table.eq_of_key_eq hp' hp.1 (hid'.trans hid)
      rw [heq] at ha' ht'
      exact ⟨p₀, List.mem_filter.mpr ⟨hp₀, by simpa using ha'.symm.trans ha⟩, ht'.symm.trans ht⟩
  · intro ht
    rcases ht with ht | ⟨p₀, hp₀, ht⟩
    · exact Or.inl ht
    · have hm := List.mem_filter.mp hp₀
      obtain ⟨p, hp, -, ha, hpt⟩ := h.stored p₀ hm.1
      have hpa : p.assetId = a := ha.trans (by simpa using hm.2)
      by_cases hdel : p.id ∈ old
      · refine Or.inr ⟨p, ?_, hpa, hpt.trans ht⟩
        simp [Session.deletePoints, hp, hdel]
      · refine Or.inl ⟨p, ?_, hpt.trans ht⟩
        simp [Session.deletePoints, Db.pointsOf, hp, hdel, hpa]

theorem editing (h : PointsKept db s) (ht : Tidy s) : Editing db s := ⟨ht, h.ghosts, h.stored⟩

end PointsKept

namespace Editing

variable {db : Db} {s s' : Session}

theorem kept (h : Editing db s) : PointsKept db s := ⟨h.ghosts, h.stored⟩

theorem access (h : Editing db s) : Editing db s.access := h.kept.access.editing h.tidy.access

theorem commit (h : Editing db s) : Editing db s.commit ∧
    s.commit.db.assetPoints = s.db.assetPoints := by
  have hcommit := h.kept.commit_store
  refine ⟨h.kept.commit.editing ?_, Session.assetPoints_store hcommit⟩
  intro a ha
  rw [Session.assets_store hcommit] at ha
  exact h.kept.commit_tidyAt (h.tidy a ha)

theorem createPoint (h : Editing db s) (asset type : Nat) (name : String) :
    Editing db (s.createPoint asset type name) :=
  (h.kept.createPoint asset type name).editing
    (h.tidy.touched (Touched.createPoint s asset type name))

theorem assignLog (h : Editing db s) (asset point : Nat) (log : Option Nat) :
    Editing db (s.assignLog asset point log) :=
  (h.kept.assignLog asset point log).editing (h.tidy.touched (Touched.assignLog s asset point log))

theorem addDescriptor (h : Editing db s) (asset f : Nat) : Editing db (s.addDescriptor asset f) :=
  PointsKept.editing (h.kept.of_points rfl rfl) (h.tidy.touched (Touched.addDescriptor s asset f))

theorem exclude (h : Editing db s) (asset : Nat) (inclusions : List Nat) :
    Editing db (s.exclude asset inclusions) :=
  PointsKept.editing (h.kept.of_points rfl rfl) (h.tidy.touched (Touched.exclude s asset inclusions))

theorem ready (h : Editing db s) : Ready db s := ⟨h.tidy, h.kept.typesHeld⟩

theorem deletePoints (h : Editing db s) (asset : Nat) {old : List Nat}
    (hold : ∀ id ∈ old, ∃ p₀ ∈ db.assetPoints.rows, p₀.id = id) :
    Ready db (s.deletePoints asset old) :=
  ⟨h.tidy.touched (Touched.deletePoints s asset old), h.kept.deletePoints asset hold⟩

end Editing

namespace Ready

variable {db : Db} {s s' : Session}

theorem of_points (h : Ready db s) (ht : Tidy s') (hghosts : s'.ghosts = s.ghosts)
    (hpoints : s'.db.assetPoints = s.db.assetPoints) : Ready db s' :=
  ⟨ht, TypesHeld.of_points h.types hghosts hpoints⟩

theorem access (h : Ready db s) : Ready db s.access := ⟨h.tidy.access, TypesHeld.access h.types⟩

theorem clearDescriptors (h : Ready db s) (asset : Nat) : Ready db (s.clearDescriptors asset) :=
  h.of_points (h.tidy.touched (Touched.clearDescriptors s asset)) rfl rfl

theorem addDescriptor (h : Ready db s) (asset f : Nat) : Ready db (s.addDescriptor asset f) :=
  h.of_points (h.tidy.touched (Touched.addDescriptor s asset f)) rfl rfl

theorem clearExclusions (h : Ready db s) (asset : Nat) : Ready db (s.clearExclusions asset) :=
  h.of_points (h.tidy.touched (Touched.clearExclusions s asset)) rfl rfl

theorem exclude (h : Ready db s) (asset : Nat) (inclusions : List Nat) :
    Ready db (s.exclude asset inclusions) :=
  h.of_points (h.tidy.touched (Touched.exclude s asset inclusions)) rfl rfl

/-- What is committed is right for the points of both states, so it is right for
the stored ones exactly if no type was lost. -/
theorem commit_correct_iff (h : Ready db s) :
    MappingCorrect s.commit.db ↔ KeepsTypes db s.commit.db := by
  have hstore : s.flush.store = s.store := s.flush_remapped.1.store
  have hdb : s.commit.db = s.flush.db := rfl
  have hpoints : ∀ a, s.flush.db.pointsOf a = s.db.pointsOf a := by
    intro a
    simp only [Db.pointsOf, Session.assetPoints_store hstore]
  rw [hdb]
  have hmapping : ∀ a ∈ s.flush.db.assets.rows, ∀ g ∈ s.flush.db.algorithms.rows,
      ((a.id, g.id) ∈ s.flush.db.algoAssetMapping ↔ g.isMapped = true ∧
        (∀ t, (g.id, t) ∈ s.flush.db.algoPointMapping →
          ∃ p ∈ s.flush.db.pointsOf a.id ++ db.pointsOf a.id, p.typeId = t) ∧
        ∀ f, (g.id, f) ∈ s.flush.db.algoFunctionMapping →
          (a.id, f) ∈ s.flush.db.assetFunctionMapping) := by
    intro a ha g hg
    rw [Session.assets_store hstore] at ha
    rw [Session.algorithms_eq hstore] at hg
    have hpair := TidyAt.flush (h.tidy a.id (List.mem_map_of_mem ha)) g.id (List.mem_map_of_mem hg)
    have hP : s.flush.db.algoPointMapping = s.db.algoPointMapping :=
      congrArg (fun p => p.1.algoPointMapping) hstore
    have hF : s.flush.db.algoFunctionMapping = s.db.algoFunctionMapping :=
      congrArg (fun p => p.1.algoFunctionMapping) hstore
    have hD : s.flush.db.assetFunctionMapping = s.db.assetFunctionMapping :=
      congrArg (fun p => p.1.assetFunctionMapping) hstore
    rw [hP, hF, hD, hpoints]
    refine hpair.trans ((Session.related_iff hg).trans ?_)
    simp only [h.types, List.mem_append, or_and_right, exists_or]
  constructor
  · intro hcorrect a ha g hg hm hf hall
    exact ((hcorrect a ha g hg).mp ((hmapping a ha g hg).mpr ⟨hm, hall, hf⟩)).2.1
  · intro hkeeps a ha g hg
    rw [hmapping a ha g hg]
    constructor
    · intro hh
      exact ⟨hh.1, hkeeps a ha g hg hh.1 hh.2.2 hh.2.1, hh.2.2⟩
    · intro hh
      refine ⟨hh.1, ?_, hh.2.2⟩
      intro t ht
      obtain ⟨p, hp, hpt⟩ := hh.2.1 t ht
      exact ⟨p, List.mem_append_left _ hp, hpt⟩

end Ready

theorem Editing.commit_correct {db : Db} {s : Session} (h : Editing db s) :
    MappingCorrect s.commit.db := by
  refine h.ready.commit_correct_iff.mpr (KeepsTypes.of_points ?_)
  intro a _ p₀ hp₀
  have hm := List.mem_filter.mp hp₀
  obtain ⟨p, hp, -, ha, ht⟩ := h.stored p₀ hm.1
  refine ⟨p, List.mem_filter.mpr ⟨?_, ?_⟩, ht⟩
  · rw [h.commit.2]
    exact hp
  · simpa [ha] using hm.2

section Loops

variable {db : Db} {asset : Nat} {form : AssetForm} {s s' : Session}

theorem setFunction_keeps {P : Session → Prop} (haccess : ∀ {s : Session}, P s → P s.access)
    (hadd : ∀ {s : Session} (f : Nat), P s → P (s.addDescriptor asset f)) {name : String}
    (h : setFunction asset s name = some s') (hs : P s) : P s' := by
  unfold setFunction at h
  split at h
  · exact Option.some.inj h ▸ hs
  · simp only [Option.bind_eq_bind, Option.bind_eq_some_iff, Option.pure_def,
      Option.some.injEq] at h
    obtain ⟨f, -, rfl⟩ := h
    exact hadd f.id (haccess hs)

theorem includeAlgorithm_keeps {P : Session → Prop} (haccess : ∀ {s : Session}, P s → P s.access)
    {state state' : Session × List Nat} {descr : String}
    (h : includeAlgorithm state descr = some state') (hs : P state.1) : P state'.1 := by
  simp only [includeAlgorithm, Option.bind_eq_bind, Option.bind_eq_some_iff, Option.pure_def,
    Option.some.injEq] at h
  obtain ⟨g, -, rfl⟩ := h
  exact haccess hs

theorem bindLog_keeps {P : Session → Prop} (haccess : ∀ {s : Session}, P s → P s.access)
    (hassign : ∀ {s : Session} (point : Nat) (log : Option Nat),
      P s → P (s.assignLog asset point log)) {point : Nat} {log : Option String}
    (h : bindLog asset point s log = some s') (hs : P s) : P s' := by
  unfold Medusa.bindLog at h
  split at h
  · exact Option.some.inj h ▸ hs
  · simp only [Option.bind_eq_bind, Option.bind_eq_some_iff, Option.pure_def,
      Option.some.injEq] at h
    obtain ⟨entity, -, rfl⟩ := h
    exact hassign point entity.id (haccess hs)

/-- An edit up to the exclusions. What holds of the session after the points are deleted,
`Q`, need not hold before. -/
theorem editDetails_chosen {Q : Session → Prop} (h : editDetails asset form s = some s')
    (hdelete : ∀ {s₁ : Session} {old : List Nat},
      (List.range' 1 99).foldlM (editField asset form)
        (s.access, (s.access.db.pointsOf asset).map AssetPoint.id) = some (s₁, old) →
      Q ((s₁.deletePoints asset old).access.clearDescriptors asset))
    (haccess : ∀ {s : Session}, Q s → Q s.access)
    (hadd : ∀ {s : Session} (f : Nat), Q s → Q (s.addDescriptor asset f)) :
    ∃ s₂ s₃ inclusions, Q s₂ ∧
      form.algorithms.foldlM includeAlgorithm (s₂.access.clearExclusions asset, []) =
        some (s₃, inclusions) ∧ s' = s₃.access.exclude asset inclusions := by
  simp only [editDetails, Option.bind_eq_bind, Option.bind_eq_some_iff, Option.pure_def,
    Option.some.injEq] at h
  obtain ⟨⟨s₁, old⟩, hfields, s₂, hfunctions, ⟨s₃, inclusions⟩, halgorithms, rfl⟩ := h
  have h₂ : Q s₂ := foldlM_keeps (setFunction_keeps (P := Q) haccess hadd) hfunctions
    (hdelete hfields)
  exact ⟨s₂, s₃, inclusions, h₂, halgorithms, rfl⟩

/-- What the exclusions do not matter for holds after the edit. -/
theorem editDetails_keeps {Q : Session → Prop} (h : editDetails asset form s = some s')
    (hdelete : ∀ {s₁ : Session} {old : List Nat},
      (List.range' 1 99).foldlM (editField asset form)
        (s.access, (s.access.db.pointsOf asset).map AssetPoint.id) = some (s₁, old) →
      Q ((s₁.deletePoints asset old).access.clearDescriptors asset))
    (haccess : ∀ {s : Session}, Q s → Q s.access)
    (hadd : ∀ {s : Session} (f : Nat), Q s → Q (s.addDescriptor asset f))
    (hclear : ∀ {s : Session}, Q s → Q (s.clearExclusions asset))
    (hexclude : ∀ {s : Session} (inclusions : List Nat), Q s → Q (s.exclude asset inclusions)) :
    Q s' := by
  obtain ⟨s₂, s₃, inclusions, h₂, hloop, rfl⟩ :=
    editDetails_chosen (Q := Q) h hdelete haccess hadd
  have h₃ : Q s₃ := foldlM_keeps (P := fun state : Session × List Nat => Q state.1)
    (includeAlgorithm_keeps (P := Q) haccess) hloop (hclear (haccess h₂))
  exact hexclude inclusions (haccess h₃)

/-- A property of a session that the loops over the points of the form keep. -/
structure FieldRule (asset : Nat) (form : AssetForm) (P : Session → Prop) : Prop where
  access : ∀ {s : Session}, P s → P s.access
  createPoint : ∀ {s : Session} (type : Nat) (name : String), P s → P (s.createPoint asset type name)
  bindLog : ∀ {s s' : Session} {point i : Nat},
    (form.fields i).prevPoint ≠ none ∨ (form.fields i).point ≠ none →
    bindLog asset point s (form.fields i).log = some s' → P s → P s'

namespace FieldRule

theorem of_assignLog {P : Session → Prop} (haccess : ∀ {s : Session}, P s → P s.access)
    (hcreate : ∀ {s : Session} (type : Nat) (name : String), P s → P (s.createPoint asset type name))
    (hassign : ∀ {s : Session} (point : Nat) (log : Option Nat),
      P s → P (s.assignLog asset point log)) : FieldRule asset form P :=
  ⟨haccess, hcreate, fun _ => bindLog_keeps (P := P) haccess hassign⟩

variable {P : Session → Prop} (hP : FieldRule asset form P)

include hP

theorem addField {i : Nat} (h : addField asset form s i = some s') (hs : P s) : P s' := by
  unfold Medusa.addField at h
  split at h
  · exact Option.some.inj h ▸ hs
  · next name _ =>
    simp only [Option.bind_eq_bind, Option.bind_eq_some_iff] at h
    obtain ⟨type, -, h⟩ := h
    split at h
    · exact Option.some.inj h ▸ hP.createPoint type.id name (hP.access hs)
    · simp at h

theorem editField {state state' : Session × List Nat} {i : Nat}
    (h : editField asset form state i = some state') (hs : P state.1) :
    P state'.1 ∧ ∀ id ∈ state'.2, id ∈ state.2 := by
  unfold Medusa.editField at h
  split at h
  · next pointId hprev =>
    simp only [Option.bind_eq_bind, Option.bind_eq_some_iff] at h
    obtain ⟨id, -, point, -, h⟩ := h
    split at h
    · simp only [Option.bind_eq_some_iff, Option.pure_def, Option.some.injEq] at h
      obtain ⟨s', hlog, rfl⟩ := h
      have hfield := Option.ne_none_iff_exists'.mpr ⟨pointId, hprev⟩
      exact ⟨hP.bindLog (Or.inl hfield) hlog (hP.access hs), fun id hid => List.mem_of_mem_erase hid⟩
    · simp at h
  · split at h
    · exact Option.some.inj h ▸ ⟨hs, fun _ hid => hid⟩
    · next name hname =>
      simp only [Option.bind_eq_bind, Option.bind_eq_some_iff, Option.pure_def,
        Option.some.injEq] at h
      obtain ⟨type, -, s', hlog, rfl⟩ := h
      have hfield := Option.ne_none_iff_exists'.mpr ⟨name, hname⟩
      exact ⟨hP.bindLog (Or.inr hfield) hlog (hP.createPoint type.id name (hP.access hs)),
        fun _ hid => hid⟩

theorem editFields {s₁ : Session} {old : List Nat}
    (h : (List.range' 1 99).foldlM (Medusa.editField asset form)
      (s.access, (s.access.db.pointsOf asset).map AssetPoint.id) = some (s₁, old)) (hs : P s) :
    P s₁ ∧ ∀ id ∈ old, id ∈ (s.access.db.pointsOf asset).map AssetPoint.id :=
  foldlM_keeps (P := fun state : Session × List Nat => P state.1 ∧
      ∀ id ∈ state.2, id ∈ (s.access.db.pointsOf asset).map AssetPoint.id)
    (fun hstep hstate => ⟨(hP.editField hstep hstate.1).1,
      fun id hid => hstate.2 id ((hP.editField hstep hstate.1).2 id hid)⟩) h
    ⟨hP.access hs, fun _ hid => hid⟩

theorem editDetails {Q : Session → Prop} (h : editDetails asset form s = some s') (hs : P s)
    (hpoints : s.db.assetPoints = db.assetPoints)
    (hdelete : ∀ {s₁ : Session} {old : List Nat}, P s₁ →
      (∀ id ∈ old, ∃ p₀ ∈ db.assetPoints.rows, p₀.id = id) →
      Q ((s₁.deletePoints asset old).access.clearDescriptors asset))
    (haccess : ∀ {s : Session}, Q s → Q s.access)
    (hadd : ∀ {s : Session} (f : Nat), Q s → Q (s.addDescriptor asset f))
    (hclear : ∀ {s : Session}, Q s → Q (s.clearExclusions asset))
    (hexclude : ∀ {s : Session} (inclusions : List Nat), Q s → Q (s.exclude asset inclusions)) :
    Q s' := by
  refine editDetails_keeps (Q := Q) h ?_ haccess hadd hclear hexclude
  intro s₁ old hfields
  obtain ⟨h₁, hold⟩ := hP.editFields hfields hs
  refine hdelete h₁ ?_
  intro id hid
  obtain ⟨p, hp, hpid⟩ := List.mem_map.mp (hold id hid)
  have hrow := (List.mem_filter.mp hp).1
  rw [s.assetPoints_access, hpoints] at hrow
  exact ⟨p, hrow, hpid⟩

end FieldRule

theorem Editing.fieldRule : FieldRule asset form (Editing db) :=
  FieldRule.of_assignLog Editing.access (fun type name h => h.createPoint asset type name)
    (fun point log h => h.assignLog asset point log)

theorem Editing.addExclusions {inclusions : List Nat} {descrs : List String}
    (hs : Editing db s) : Editing db (addExclusions asset inclusions s descrs) := by
  induction descrs generalizing inclusions s with
  | nil => exact hs
  | cons descr rest ih =>
    unfold Medusa.addExclusions
    split
    · exact hs.access
    · exact ih (hs.access.access.exclude asset _)

theorem Editing.addDetails (h : addDetails asset form s = some s') (hs : Editing db s) :
    Editing db s' := by
  simp only [Medusa.addDetails, Option.bind_eq_bind, Option.bind_eq_some_iff, Option.pure_def,
    Option.some.injEq] at h
  obtain ⟨s₁, hfields, s₂, hfunctions, rfl⟩ := h
  have h₁ : Editing db s₁ := foldlM_keeps Editing.fieldRule.addField hfields hs
  have h₂ : Editing db s₂ := foldlM_keeps
    (setFunction_keeps (P := Editing db) Editing.access (fun f h => h.addDescriptor asset f)) hfunctions h₁
  exact h₂.addExclusions

theorem Editing.editDetails (h : editDetails asset form s = some s') (hs : Editing db s)
    (hpoints : s.db.assetPoints = db.assetPoints) : Ready db s' :=
  Editing.fieldRule.editDetails (Q := Ready db) h hs hpoints
    (fun h₁ hold => (h₁.deletePoints asset hold).access.clearDescriptors asset)
    Ready.access (fun f h => h.addDescriptor asset f) (fun h => h.clearExclusions asset)
    (fun inclusions h => h.exclude asset inclusions)

end Loops

section Requests

variable {db : Db}

theorem MappingCorrect.editing (h : MappingCorrect db) (loads : Nat → Bool)
    (assets : Table Asset Asset.id) (dirty : List Nat)
    (hassets : ∀ a ∈ assets.rows.map Asset.id, a ∉ dirty → a ∈ db.assets.rows.map Asset.id) :
    Editing db
      { Session.start db loads with db := { db with assets := assets }, dirty := dirty } := by
  refine ⟨?_, rfl, fun p₀ hp₀ => ⟨p₀, hp₀, rfl, rfl, rfl⟩⟩
  intro a ha g hg hd
  obtain ⟨a₀, ha₀, rfl⟩ := List.mem_map.mp (hassets a ha hd)
  obtain ⟨g₀, hg₀, rfl⟩ := List.mem_map.mp hg
  refine (h a₀ ha₀ g₀ hg₀).trans ?_
  rw [Session.related_iff hg₀]
  simp only [Session.mem_getPointTypes, Session.start, List.not_mem_nil, false_and, exists_false,
    or_false]
  rfl

theorem addAsset_correct (h : MappingCorrect db) (loads : Nat → Bool) (sitename : String)
    (form : AssetForm) : MappingCorrect (addAsset loads db sitename form) := by
  unfold addAsset
  split
  · exact h
  · next s hs =>
    simp only [createAsset, Option.bind_eq_bind, Option.bind_eq_some_iff, Option.pure_def,
      Option.some.injEq] at hs
    obtain ⟨site, -, type, -, rfl⟩ := hs
    have hstart := h.editing loads (db.assets.insert (form.newAsset site.id type.id)
      (form.newAsset_id site.id type.id)) [db.assets.nextKey] (by
        intro a ha hd
        rw [Table.rows_insert, List.map_append, List.mem_append] at ha
        exact ha.resolve_right hd)
    split
    · exact hstart.commit_correct
    · next s' hs' => exact (hstart.commit.1.addDetails hs').commit_correct

theorem Db.pointsOf_removeAsset {asset a : Nat} (ha : a ≠ asset) :
    (db.removeAsset asset).pointsOf a = db.pointsOf a := by
  simp only [Db.pointsOf, Db.removeAsset, Table.rows_delete, List.filter_filter]
  apply List.filter_congr
  intro p _
  by_cases hp : p.assetId = a
  · simp [hp, ha]
  · simp [hp]

theorem MappingCorrect.removeAsset (h : MappingCorrect db) (asset : Nat) :
    MappingCorrect (db.removeAsset asset) := by
  intro a ha g hg
  have hm := List.mem_filter.mp ha
  have hne : a.id ≠ asset := by simpa using hm.2
  rw [Db.pointsOf_removeAsset hne]
  simpa [Db.removeAsset, hne] using h a hm.1 g hg

theorem deleteAsset_correct (h : MappingCorrect db) (loads : Nat → Bool) (assetId : Nat) :
    MappingCorrect (deleteAsset loads db assetId) := by
  unfold deleteAsset
  split
  · exact h
  · next asset _ =>
    have hstart := h.editing loads db.assets [asset.id] (fun _ ha _ => ha)
    have hflush : MappingCorrect { Session.start db loads with dirty := [asset.id] }.flush.db :=
      hstart.commit_correct
    exact hflush.removeAsset asset.id

end Requests

end Medusa
