import Medusa.Derived
import Medusa.Model

/-! The mapping between assets and algorithms, as the code changes it on the
objects of a database session. `dirty` are the assets with pending changes, and
`ghosts` the deleted points that loaded collections still hold until the next
commit.

Reading an attribute or making a query flushes the pending changes first if the
database is asked. Whether it is depends on what has been loaded before, so each
access has a number and `loads` says which of them flush. Before a flush the
listener maps the changed assets again; nothing that it reads flushes. -/

namespace Medusa

open Relational

structure Session where
  db : Db
  dirty : List Nat
  ghosts : List AssetPoint
  loads : Nat → Bool
  clock : Nat

namespace Session

def relation (s : Session) : Finset (Nat × Nat) := s.db.algoAssetMapping

def points (s : Session) (asset : Nat) : List AssetPoint :=
  s.db.pointsOf asset ++ s.ghosts.filter (fun p => p.assetId == asset)

def getPointTypes (s : Session) (asset : Nat) : List Nat := (s.points asset).map AssetPoint.typeId

def passes (s : Session) (asset algorithm : Nat) : Bool :=
  decide (∀ q ∈ s.db.algoPointMapping, q.1 = algorithm → q.2 ∈ s.getPointTypes asset) &&
    decide (∀ q ∈ s.db.algoFunctionMapping, q.1 = algorithm →
      (asset, q.2) ∈ s.db.assetFunctionMapping)

def isMapped (s : Session) (algorithm : Nat) : Bool :=
  match s.db.algorithms.get? algorithm with
  | some g => g.isMapped
  | none => false

def relate (s : Session) (asset algorithm : Nat) : Session :=
  { s with
    db := { s.db with algoAssetMapping := insert (asset, algorithm) s.db.algoAssetMapping }
    dirty := asset :: s.dirty }

def clearAsset (s : Session) (asset : Nat) : Session :=
  { s with
    db := { s.db with algoAssetMapping := s.db.algoAssetMapping.filter (fun k => k.1 ≠ asset) }
    dirty := if ∃ k ∈ s.db.algoAssetMapping, k.1 = asset then asset :: s.dirty else s.dirty }

end Session

/-- `access` stands before what may ask the database. -/
def Asset.mapAlgorithm (access : Session → Session) (asset : Nat) (s : Session) (algorithm : Nat) :
    Session :=
  let s := access s
  if s.isMapped algorithm && s.passes asset algorithm then (access s).relate asset algorithm else s

def Asset.map (access : Session → Session) (s : Session) (asset : Nat) : Session :=
  let s := access ((access s).clearAsset asset)
  (s.db.algorithms.rows.map Algorithm.id).foldl (Asset.mapAlgorithm access asset) s

namespace Session

def mapAssetOnUpdate (s : Session) : Session := s.dirty.foldl (Asset.map id) s

def flush (s : Session) : Session := { s.mapAssetOnUpdate with dirty := [] }

def access (s : Session) : Session :=
  let s' := { s with clock := s.clock + 1 }
  if s.loads s.clock then s'.flush else s'

/-- A commit flushes and expires every object. -/
def commit (s : Session) : Session := { s.flush with ghosts := [] }

def start (db : Db) (loads : Nat → Bool) : Session := ⟨db, [], [], loads, 0⟩

/-- The pair that `map_algorithm` would relate. -/
def related (s : Session) (k : Nat × Nat) : Prop :=
  s.isMapped k.2 = true ∧ s.passes k.1 k.2 = true

/-- All that the mapping is derived from. -/
def store (s : Session) : Db × List AssetPoint := ({ s.db with algoAssetMapping := ∅ }, s.ghosts)

theorem related_congr {s s' : Session} (h : s'.store = s.store) : s'.related = s.related := by
  have hrelated : ∀ s : Session,
      s.related = Session.related ⟨s.store.1, [], s.store.2, fun _ => false, 0⟩ := fun _ => rfl
  rw [hrelated s, hrelated s', h]

theorem passes_iff {s : Session} {asset algorithm : Nat} :
    s.passes asset algorithm = true ↔
      (∀ t, (algorithm, t) ∈ s.db.algoPointMapping → t ∈ s.getPointTypes asset) ∧
      ∀ f, (algorithm, f) ∈ s.db.algoFunctionMapping → (asset, f) ∈ s.db.assetFunctionMapping := by
  simp only [passes, Bool.and_eq_true, decide_eq_true_eq, Prod.forall]
  constructor
  · intro h
    exact ⟨fun t ht => h.1 algorithm t ht rfl, fun f hf => h.2 algorithm f hf rfl⟩
  · intro h
    refine ⟨?_, ?_⟩
    · intro i t ht hi
      subst hi
      exact h.1 t ht
    · intro i f hf hi
      subst hi
      exact h.2 f hf

theorem mem_of_isMapped {s : Session} {algorithm : Nat} (h : s.isMapped algorithm = true) :
    algorithm ∈ s.db.algorithms.rows.map Algorithm.id := by
  unfold isMapped at h
  split at h
  · next g hg =>
    have hrow := Table.get?_eq_some.mp hg
    exact List.mem_map.mpr ⟨g, hrow.1, hrow.2⟩
  · simp at h

theorem algorithms_eq {s s' : Session} (h : s'.store = s.store) :
    s'.db.algorithms = s.db.algorithms :=
  congrArg (fun p => p.1.algorithms) h

end Session

/-- The mapping was refreshed and nothing else has changed. -/
structure Remapped (s s' : Session) : Prop where
  store : s'.store = s.store
  relation : Refreshes (fun _ => True) s.related s.relation s'.relation

namespace Remapped

variable {s s' s'' : Session}

theorem refl (s : Session) : Remapped s s := ⟨rfl, Refreshes.refl _ _ _⟩

theorem trans (h : Remapped s s') (h' : Remapped s' s'') : Remapped s s'' := by
  refine ⟨h'.store.trans h.store, h.relation.trans ?_⟩
  rw [← Session.related_congr h.store]
  exact h'.relation

theorem keeps (h : Remapped s s') {k : Nat × Nat} (hk : k ∈ s.relation ↔ s.related k) :
    k ∈ s'.relation ↔ s'.related k := by
  rw [Session.related_congr h.store]
  exact h.relation.keeps trivial hk

end Remapped

section

variable {access : Session → Session} (haccess : ∀ s, Remapped s (access s))

include haccess

theorem Asset.mapAlgorithm_remapped (asset algorithm : Nat) (s : Session) :
    Remapped s (Asset.mapAlgorithm access asset s algorithm) ∧
      (s.related (asset, algorithm) →
        (asset, algorithm) ∈ (Asset.mapAlgorithm access asset s algorithm).relation) := by
  have hfirst := haccess s
  have hrelated := Session.related_congr hfirst.store
  unfold Asset.mapAlgorithm
  by_cases hp : ((access s).isMapped algorithm && (access s).passes asset algorithm) = true
  · have hk : (access s).related (asset, algorithm) := by
      simpa [Session.related, Bool.and_eq_true] using hp
    have hsecond := haccess (access s)
    simp only [hp, if_true]
    refine ⟨hfirst.trans (hsecond.trans ⟨rfl, ?_⟩), fun _ => Finset.mem_insert_self _ _⟩
    rw [← Session.related_congr hsecond.store] at hk
    exact Refreshes.insert _ hk _
  · simp only [hp]
    refine ⟨hfirst, ?_⟩
    intro hk
    rw [← hrelated] at hk
    simp [hk.1, hk.2] at hp

theorem Asset.map_remapped (s : Session) (asset : Nat) :
    Remapped s (Asset.map access s asset) ∧ ∀ algorithm,
      ((asset, algorithm) ∈ (Asset.map access s asset).relation ↔ s.related (asset, algorithm)) := by
  have hfirst := haccess s
  let cleared := (access s).clearAsset asset
  have hstore : cleared.store = s.store := hfirst.store
  have hsecond := haccess cleared
  have hsecond' : Refreshes (fun _ => True) s.related cleared.relation
      (access cleared).relation := by
    rw [← Session.related_congr hstore]
    exact hsecond.relation
  have hmem : ∀ k, k ∈ cleared.relation ↔ k ∈ (access s).relation ∧ k.1 ≠ asset := by
    intro k
    exact Finset.mem_filter
  have hothers : Refreshes (fun k => ¬ k.1 = asset) s.related s.relation
      (access cleared).relation := by
    have hrest : Refreshes (fun k => ¬ k.1 = asset) s.related (access s).relation
        cleared.relation := by
      intro k hk
      left
      rw [hmem]
      exact and_iff_left hk
    have hfirst' : Refreshes (fun k => ¬ k.1 = asset) s.related s.relation (access s).relation :=
      hfirst.relation.mono (fun _ _ => trivial)
    exact (hfirst'.trans hrest).trans (hsecond'.mono (fun _ _ => trivial))
  have hsound : ∀ k, k.1 = asset → k ∈ (access cleared).relation → s.related k := by
    intro k hk
    refine hsecond'.keeps_sound trivial ?_
    intro hm
    exact absurd hk ((hmem k).mp hm).2
  have hI : (access cleared).store = s.store := hsecond.store.trans hstore
  have hstep : ∀ s', s'.store = s.store →
      ∀ g ∈ (access cleared).db.algorithms.rows.map Algorithm.id,
      (Asset.mapAlgorithm access asset s' g).store = s.store ∧
        Refreshes (fun _ => True) s.related s'.relation
          (Asset.mapAlgorithm access asset s' g).relation ∧
        (s.related (asset, g) → (asset, g) ∈ (Asset.mapAlgorithm access asset s' g).relation) := by
    intro s' hs' g _
    obtain ⟨hm, hcell⟩ := Asset.mapAlgorithm_remapped haccess asset g s'
    rw [← Session.related_congr hs']
    exact ⟨hm.store.trans hs', hm.relation, hcell⟩
  have hall : ∀ k : Nat × Nat, k.1 = asset → s.related k →
      ∃ g ∈ (access cleared).db.algorithms.rows.map Algorithm.id, (asset, g) = k := by
    intro k hk hrel
    rw [Session.algorithms_eq hI]
    exact ⟨k.2, Session.mem_of_isMapped hrel.1, by rw [← hk]⟩
  obtain ⟨hend, hrefreshes, hrow⟩ :=
    foldl_refills (I := fun s' => s'.store = s.store) hI hothers hsound hstep hall
  exact ⟨⟨hend, hrefreshes⟩, fun g => hrow (asset, g) rfl⟩

end

theorem Session.foldl_map (assets : List Nat) (s : Session) :
    Remapped s (assets.foldl (Asset.map id) s) ∧ ∀ asset ∈ assets, ∀ algorithm,
      ((asset, algorithm) ∈ (assets.foldl (Asset.map id) s).relation ↔
        s.related (asset, algorithm)) := by
  induction assets generalizing s with
  | nil => exact ⟨Remapped.refl s, by simp⟩
  | cons a rest ih =>
    have hid : ∀ s : Session, Remapped s (id s) := Remapped.refl
    obtain ⟨hfirst, hrow⟩ := Asset.map_remapped hid s a
    obtain ⟨hrest, hrows⟩ := ih (Asset.map id s a)
    rw [Session.related_congr hfirst.store] at hrows
    refine ⟨hfirst.trans hrest, ?_⟩
    intro asset hasset g
    rcases List.mem_cons.mp hasset with rfl | hasset
    · have hkept := hrest.relation.keeps trivial
        ((hrow g).trans (by rw [Session.related_congr hfirst.store]))
      rwa [Session.related_congr hfirst.store] at hkept
    · exact hrows asset hasset g

theorem Session.flush_remapped (s : Session) :
    Remapped s s.flush ∧ ∀ asset ∈ s.dirty, ∀ algorithm,
      ((asset, algorithm) ∈ s.flush.relation ↔ s.related (asset, algorithm)) := by
  obtain ⟨hm, hrows⟩ := Session.foldl_map s.dirty s
  exact ⟨⟨hm.store, hm.relation⟩, hrows⟩

theorem Session.access_remapped (s : Session) : Remapped s s.access := by
  unfold Session.access
  have hclock : Remapped s { s with clock := s.clock + 1 } := ⟨rfl, Refreshes.refl _ _ _⟩
  simp only
  split
  · exact hclock.trans (Session.flush_remapped _).1
  · exact hclock

end Medusa
