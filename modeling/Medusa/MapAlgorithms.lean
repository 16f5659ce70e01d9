import Medusa.Mapping

/-! `Algorithm.map` and the commands that map everything again. An algorithm
names its requirements in its class; a name that is not the name of exactly one
row leaves the algorithm unmapped, with the requirements found so far. -/

namespace Medusa

open Relational

structure AlgorithmClass where
  pointsRequired : List String
  functionsRequired : List String
deriving DecidableEq

def Algorithm.setMapped (b : Bool) (g : Algorithm) : Algorithm := { g with isMapped := b }

@[simp] theorem Algorithm.setMapped_id (b : Bool) (g : Algorithm) : (g.setMapped b).id = g.id := rfl

namespace Session

def clearPointTypes (g : Nat) (s : Session) : Session :=
  { s with
    db := { s.db with algoPointMapping := s.db.algoPointMapping.filter (fun q => q.1 ≠ g) } }

def addPointType (g : Nat) (s : Session) (t : Nat) : Session :=
  { s with db := { s.db with algoPointMapping := insert (g, t) s.db.algoPointMapping } }

def clearFunctions (g : Nat) (s : Session) : Session :=
  { s with
    db := { s.db with algoFunctionMapping := s.db.algoFunctionMapping.filter (fun q => q.1 ≠ g) } }

def addFunction (g : Nat) (s : Session) (f : Nat) : Session :=
  { s with db := { s.db with algoFunctionMapping := insert (g, f) s.db.algoFunctionMapping } }

def setMapped (g : Nat) (b : Bool) (s : Session) : Session :=
  { s with
    db := { s.db with
      algorithms := s.db.algorithms.update (fun row => row.id == g) (Algorithm.setMapped b)
        (Algorithm.setMapped_id b) } }

def clearAlgorithm (g : Nat) (s : Session) : Session :=
  { s with
    db := { s.db with algoAssetMapping := s.db.algoAssetMapping.filter (fun k => k.2 ≠ g) }
    dirty := (s.db.assets.rows.filter
      (fun a => decide ((a.id, g) ∈ s.db.algoAssetMapping))).map Asset.id ++ s.dirty }

end Session

def Db.findPointType (db : Db) (name : String) : Option Nat :=
  (db.pointTypes.one? (fun t => t.name == name)).map PointType.id

def Db.findFunction (db : Db) (name : String) : Option Nat :=
  (db.functionalDescriptors.one? (fun f => f.name == name)).map FunctionalDescriptor.id

/-- The loop over required names, for point types and for functional
descriptors. It stops at the first name that `one()` raises on. -/
def Session.require (find : Db → String → Option Nat) (add : Session → Nat → Session) :
    Session → List String → Session × Bool
  | s, [] => (s, true)
  | s, name :: rest =>
    match find s.access.db name with
    | none => (s.access, false)
    | some id => Session.require find add (add s.access id) rest

def Session.classOf (classes : String → Option AlgorithmClass) (s : Session) (g : Nat) :
    Option AlgorithmClass :=
  (s.db.algorithms.get? g).bind (fun row => classes row.name)

/-- The body of the `try` block. -/
def Algorithm.mapRequirements (classes : String → Option AlgorithmClass) (s : Session) (g : Nat) :
    Session × Bool :=
  match (s.access.clearPointTypes g).classOf classes g with
  | none => (s.access.clearPointTypes g, false)
  | some cls =>
    match Session.require Db.findPointType (Session.addPointType g) (s.access.clearPointTypes g)
      cls.pointsRequired with
    | (s, false) => (s, false)
    | (s, true) =>
      Session.require Db.findFunction (Session.addFunction g) (s.access.clearFunctions g)
        cls.functionsRequired

def Algorithm.map (classes : String → Option AlgorithmClass) (s : Session) (g : Nat) : Session :=
  match Algorithm.mapRequirements classes s g with
  | (s, false) => (s.access.clearAlgorithm g).setMapped g false
  | (s, true) =>
    let s := ((s.setMapped g true).access.clearAlgorithm g).access
    (s.db.assets.rows.map Asset.id).foldl (fun s a => Asset.mapAlgorithm Session.access a s g) s

def mapAlgorithms (classes : String → Option AlgorithmClass) (order : IterationOrder Nat)
    (s : Session) : Session :=
  ((order.visit (s.access.db.algorithms.rows.map Algorithm.id)).foldl (Algorithm.map classes)
    s.access).commit

def mapAssets (order : IterationOrder Nat) (s : Session) : Session :=
  ((order.visit (s.access.db.assets.rows.map Asset.id)).foldl (Asset.map Session.access)
    s.access).commit

/-- What the mapping should be: the names that the class requires are names of
exactly one row each, and the asset has what they name. -/
def Applies (classes : String → Option AlgorithmClass) (db : Db) (asset : Nat) (g : Algorithm) :
    Prop :=
  ∃ cls, classes g.name = some cls ∧
    (∀ name ∈ cls.pointsRequired, ∃! t, t ∈ db.pointTypes.rows ∧ t.name = name) ∧
    (∀ name ∈ cls.functionsRequired, ∃! f, f ∈ db.functionalDescriptors.rows ∧ f.name = name) ∧
    (∀ name ∈ cls.pointsRequired, ∀ t ∈ db.pointTypes.rows, t.name = name →
      ∃ p ∈ db.pointsOf asset, p.typeId = t.id) ∧
    ∀ name ∈ cls.functionsRequired, ∀ f ∈ db.functionalDescriptors.rows, f.name = name →
      (asset, f.id) ∈ db.assetFunctionMapping

namespace Session

/-- What no mapping changes. -/
def base (s : Session) : Db × List AssetPoint × List (Nat × String) :=
  ({ s.db with
      algorithms := .empty
      algoPointMapping := ∅
      algoFunctionMapping := ∅
      algoAssetMapping := ∅ },
    s.ghosts, s.db.algorithms.rows.map (fun g => (g.id, g.name)))

theorem base_congr {s s' : Session} (h : s'.store = s.store) : s'.base = s.base := by
  have hbase : ∀ s : Session,
      s.base = Session.base ⟨s.store.1, [], s.store.2, fun _ => false, 0⟩ := fun _ => rfl
  rw [hbase s, hbase s', h]

theorem getPointTypes_congr {s s' : Session} (h : s'.base = s.base) (asset : Nat) :
    s'.getPointTypes asset = s.getPointTypes asset := by
  have htypes : ∀ s : Session, s.getPointTypes asset =
      Session.getPointTypes ⟨s.base.1, [], s.base.2.1, fun _ => false, 0⟩ asset := fun _ => rfl
  rw [htypes s, htypes s', h]

theorem assetFunctions_congr {s s' : Session} (h : s'.base = s.base) :
    s'.db.assetFunctionMapping = s.db.assetFunctionMapping :=
  congrArg (fun p => p.1.assetFunctionMapping) h

theorem assets_congr {s s' : Session} (h : s'.base = s.base) : s'.db.assets = s.db.assets :=
  congrArg (fun p => p.1.assets) h

theorem classOf_congr {s s' : Session} (h : s'.base = s.base)
    (classes : String → Option AlgorithmClass) (g : Nat) :
    s'.classOf classes g = s.classOf classes g := by
  have hrow : ∀ (s : Session) (cls : AlgorithmClass), s.classOf classes g = some cls ↔
      ∃ name, (g, name) ∈ s.base.2.2 ∧ classes name = some cls := by
    intro s cls
    simp only [classOf, Option.bind_eq_some_iff, Table.get?_eq_some, base, List.mem_map,
      Prod.mk.injEq]
    constructor
    · intro hc
      obtain ⟨row, ⟨hr, hid⟩, hcls⟩ := hc
      exact ⟨row.name, ⟨row, hr, hid, rfl⟩, hcls⟩
    · intro hc
      obtain ⟨name, ⟨row, hr, hid, rfl⟩, hcls⟩ := hc
      exact ⟨row, ⟨hr, hid⟩, hcls⟩
  apply Option.ext
  intro cls
  rw [hrow, hrow, h]

theorem isMapped_setMapped_self (s : Session) {g : Nat} (b : Bool)
    (hg : g ∈ s.db.algorithms.rows.map Algorithm.id) : (s.setMapped g b).isMapped g = b := by
  obtain ⟨row, hrow, hid⟩ := List.mem_map.mp hg
  have hget : s.db.algorithms.get? g = some row := Table.get?_eq_some.mpr ⟨hrow, hid⟩
  simp [isMapped, setMapped, Table.get?_update, hget, Algorithm.setMapped]

theorem isMapped_setMapped_of_ne (s : Session) {g i : Nat} (b : Bool) (hi : i ≠ g) :
    (s.setMapped g b).isMapped i = s.isMapped i := by
  have hget : (s.setMapped g b).db.algorithms.get? i = s.db.algorithms.get? i := by
    refine Table.get?_update_of_ne (Algorithm.setMapped_id b) ?_
    intro row _ hrow
    have hid : row.id = g := by simpa using hrow
    rw [hid]
    exact hi.symm
  simp only [isMapped, hget]

end Session

/-- Only what concerns the algorithm `g` has changed, apart from refreshes. -/
structure Apart (g : Nat) (s s' : Session) : Prop where
  base : s'.base = s.base
  related : ∀ k, k.2 ≠ g → (s'.related k ↔ s.related k)
  relation : Refreshes (fun k => k.2 ≠ g) s.related s.relation s'.relation

namespace Apart

variable {g : Nat} {s s' s'' : Session}

theorem refl (g : Nat) (s : Session) : Apart g s s :=
  ⟨rfl, fun _ _ => Iff.rfl, Refreshes.refl _ _ _⟩

theorem trans (h : Apart g s s') (h' : Apart g s' s'') : Apart g s s'' :=
  ⟨h'.base.trans h.base, fun k hk => (h'.related k hk).trans (h.related k hk),
    h.relation.trans (h'.relation.congr h.related)⟩

theorem of_remapped (g : Nat) (h : Remapped s s') : Apart g s s' := by
  refine ⟨Session.base_congr h.store, ?_, h.relation.mono (fun _ _ => trivial)⟩
  intro k _
  rw [Session.related_congr h.store]

theorem of_requirements (hbase : s'.base = s.base) (hrelation : s'.relation = s.relation)
    (hmapped : ∀ i, i ≠ g → s'.isMapped i = s.isMapped i)
    (hpoints : ∀ q : Nat × Nat, q.1 ≠ g →
      (q ∈ s'.db.algoPointMapping ↔ q ∈ s.db.algoPointMapping))
    (hfunctions : ∀ q : Nat × Nat, q.1 ≠ g →
      (q ∈ s'.db.algoFunctionMapping ↔ q ∈ s.db.algoFunctionMapping)) : Apart g s s' := by
  refine ⟨hbase, ?_, by rw [hrelation]; exact Refreshes.refl _ _ _⟩
  intro k hk
  simp only [Session.related, Session.passes_iff, hmapped k.2 hk,
    Session.getPointTypes_congr hbase, Session.assetFunctions_congr hbase]
  refine and_congr_right fun _ => and_congr ?_ ?_
  · exact forall_congr' fun t => by rw [hpoints (k.2, t) hk]
  · exact forall_congr' fun f => by rw [hfunctions (k.2, f) hk]

theorem clearPointTypes (g : Nat) (s : Session) : Apart g s (s.clearPointTypes g) := by
  refine of_requirements rfl rfl (fun _ _ => rfl) ?_ (fun _ _ => Iff.rfl)
  intro q hq
  simp [Session.clearPointTypes, hq]

theorem addPointType (g : Nat) (s : Session) (t : Nat) : Apart g s (s.addPointType g t) := by
  refine of_requirements rfl rfl (fun _ _ => rfl) ?_ (fun _ _ => Iff.rfl)
  intro q hq
  have hne : q ≠ (g, t) := fun h => hq (congrArg Prod.fst h)
  simp [Session.addPointType, hne]

theorem clearFunctions (g : Nat) (s : Session) : Apart g s (s.clearFunctions g) := by
  refine of_requirements rfl rfl (fun _ _ => rfl) (fun _ _ => Iff.rfl) ?_
  intro q hq
  simp [Session.clearFunctions, hq]

theorem addFunction (g : Nat) (s : Session) (f : Nat) : Apart g s (s.addFunction g f) := by
  refine of_requirements rfl rfl (fun _ _ => rfl) (fun _ _ => Iff.rfl) ?_
  intro q hq
  have hne : q ≠ (g, f) := fun h => hq (congrArg Prod.fst h)
  simp [Session.addFunction, hne]

theorem setMapped (g : Nat) (b : Bool) (s : Session) : Apart g s (s.setMapped g b) := by
  refine of_requirements ?_ rfl (fun i hi => s.isMapped_setMapped_of_ne b hi) (fun _ _ => Iff.rfl)
    (fun _ _ => Iff.rfl)
  have hnames : (s.setMapped g b).db.algorithms.rows.map (fun g => (g.id, g.name)) =
      s.db.algorithms.rows.map (fun g => (g.id, g.name)) := by
    simp only [Session.setMapped, Table.rows_update, List.map_map]
    apply List.map_congr_left
    intro row _
    simp only [Function.comp_apply]
    split <;> rfl
  simp only [Session.base, hnames]
  rfl

theorem clearAlgorithm (g : Nat) (s : Session) : Apart g s (s.clearAlgorithm g) := by
  refine ⟨rfl, fun _ _ => Iff.rfl, ?_⟩
  intro k hk
  left
  simp [Session.relation, Session.clearAlgorithm, hk]

theorem access (g : Nat) (s : Session) : Apart g s s.access := of_remapped g s.access_remapped

end Apart

/-- The loop over required names: it succeeds if all of them are found, and then
it has added what it found. -/
theorem Session.require_spec {g : Nat} {find : Db → String → Option Nat}
    {add : Session → Nat → Session} {rel : Db → Finset (Nat × Nat)} {found : String → Option Nat}
    (hadd : ∀ s t, Apart g s (add s t)) (hrel : ∀ s t, rel (add s t).db = insert (g, t) (rel s.db))
    (haccess : ∀ s : Session, rel s.access.db = rel s.db) (names : List String) (s : Session)
    (hfind : ∀ s' : Session, s'.base = s.base → find s'.db = found) :
    Apart g s (s.require find add names).1 ∧
      ((s.require find add names).2 = true ↔ ∀ name ∈ names, (found name).isSome) ∧
      ((s.require find add names).2 = true → ∀ q, q ∈ rel (s.require find add names).1.db ↔
        q ∈ rel s.db ∨ ∃ name ∈ names, ∃ t, found name = some t ∧ q = (g, t)) := by
  induction names generalizing s with
  | nil => exact ⟨Apart.refl g s, by simp [require], by simp [require]⟩
  | cons name rest ih =>
    have hfirst := Apart.access g s
    have hname : find s.access.db = found := hfind s.access hfirst.base
    unfold require
    rw [hname]
    cases hn : found name with
    | none => exact ⟨hfirst, by simp [hn], by simp⟩
    | some t =>
      have hnext := hfirst.trans (hadd s.access t)
      obtain ⟨hrest, hok, hpairs⟩ := ih (add s.access t)
        (fun s' hs' => hfind s' (hs'.trans hnext.base))
      refine ⟨hnext.trans hrest, by simp [hok, hn], ?_⟩
      intro h q
      rw [hpairs h q, hrel, haccess]
      simp only [Finset.mem_insert, List.mem_cons, exists_eq_or_imp, hn, Option.some.injEq,
        exists_eq_left']
      tauto

theorem Session.require_keeps {find : Db → String → Option Nat} {add : Session → Nat → Session}
    {other : Db → Finset (Nat × Nat)} (hadd : ∀ s t, other (add s t).db = other s.db)
    (haccess : ∀ s : Session, other s.access.db = other s.db) (names : List String) (s : Session) :
    other (s.require find add names).1.db = other s.db := by
  induction names generalizing s with
  | nil => rfl
  | cons name rest ih =>
    unfold require
    split
    · exact haccess s
    · rw [ih, hadd, haccess]

theorem Session.store_access (s : Session) : s.access.store = s.store := s.access_remapped.store

theorem Session.algoPointMapping_access (s : Session) :
    s.access.db.algoPointMapping = s.db.algoPointMapping :=
  congrArg (fun p => p.1.algoPointMapping) s.store_access

theorem Session.algoFunctionMapping_access (s : Session) :
    s.access.db.algoFunctionMapping = s.db.algoFunctionMapping :=
  congrArg (fun p => p.1.algoFunctionMapping) s.store_access

theorem Session.findPointType_congr {s s' : Session} (h : s'.base = s.base) :
    s'.db.findPointType = s.db.findPointType :=
  congrArg (fun p => p.1.findPointType) h

theorem Session.findFunction_congr {s s' : Session} (h : s'.base = s.base) :
    s'.db.findFunction = s.db.findFunction :=
  congrArg (fun p => p.1.findFunction) h

/-- The loop over the functional descriptors leaves the required point types. -/
theorem Session.algoPointMapping_requireFunctions (g : Nat) (names : List String) (s : Session) :
    ((s.access.clearFunctions g).require Db.findFunction (Session.addFunction g)
      names).1.db.algoPointMapping = s.db.algoPointMapping := by
  have hadd : ∀ (s : Session) (f : Nat),
      (s.addFunction g f).db.algoPointMapping = s.db.algoPointMapping := fun _ _ => rfl
  have hcleared : (s.access.clearFunctions g).db.algoPointMapping = s.db.algoPointMapping :=
    s.algoPointMapping_access
  rw [Session.require_keeps hadd Session.algoPointMapping_access, hcleared]

theorem Algorithm.mapRequirements_spec (classes : String → Option AlgorithmClass) (s : Session)
    (g : Nat) :
    let s' := (Algorithm.mapRequirements classes s g).1
    Apart g s s' ∧
      ((Algorithm.mapRequirements classes s g).2 = true ↔ ∃ cls, s.classOf classes g = some cls ∧
        (∀ name ∈ cls.pointsRequired, (s.db.findPointType name).isSome) ∧
        ∀ name ∈ cls.functionsRequired, (s.db.findFunction name).isSome) ∧
      ((Algorithm.mapRequirements classes s g).2 = true → ∀ cls, s.classOf classes g = some cls →
        (∀ t, (g, t) ∈ s'.db.algoPointMapping ↔
          ∃ name ∈ cls.pointsRequired, s.db.findPointType name = some t) ∧
        ∀ f, (g, f) ∈ s'.db.algoFunctionMapping ↔
          ∃ name ∈ cls.functionsRequired, s.db.findFunction name = some f) := by
  have hclear := (Apart.access g s).trans (Apart.clearPointTypes g s.access)
  have hclass : (s.access.clearPointTypes g).classOf classes g = s.classOf classes g :=
    Session.classOf_congr hclear.base classes g
  unfold Algorithm.mapRequirements
  rw [hclass]
  cases hc : s.classOf classes g with
  | none => exact ⟨hclear, by simp, by simp⟩
  | some cls =>
    have hfirst := Session.require_spec (Apart.addPointType g) (fun _ _ => rfl)
      Session.algoPointMapping_access cls.pointsRequired (s.access.clearPointTypes g)
      (fun s' hs' => Session.findPointType_congr (hs'.trans hclear.base))
    simp only
    split
    · next s₁ hreq =>
      rw [hreq] at hfirst
      refine ⟨hclear.trans hfirst.1, ?_, by simp⟩
      simp only [Bool.false_eq_true, false_iff] at hfirst ⊢
      intro h
      obtain ⟨cls', hcls, hall, -⟩ := h
      cases hcls
      exact hfirst.2.1 hall
    · next s₁ hreq =>
      rw [hreq] at hfirst
      obtain ⟨hapart, hok, hpairs⟩ := hfirst
      have hnext := (hclear.trans hapart).trans
        ((Apart.access g s₁).trans (Apart.clearFunctions g s₁.access))
      obtain ⟨hapart', hok', hpairs'⟩ := Session.require_spec (Apart.addFunction g)
        (fun _ _ => rfl) Session.algoFunctionMapping_access cls.functionsRequired
        (s₁.access.clearFunctions g)
        (fun s' hs' => Session.findFunction_congr (hs'.trans hnext.base))
      refine ⟨hnext.trans hapart', ?_, ?_⟩
      · rw [hok']
        simp only [true_iff] at hok
        constructor
        · exact fun h => ⟨cls, rfl, hok, h⟩
        · intro h
          obtain ⟨cls', hcls, -, hall⟩ := h
          cases hcls
          exact hall
      · intro h cls' hcls
        cases hcls
        refine ⟨?_, ?_⟩
        · intro t
          rw [Session.algoPointMapping_requireFunctions, hpairs rfl (g, t)]
          simp [Session.clearPointTypes]
        · intro f
          rw [hpairs' h (g, f)]
          simp [Session.clearFunctions]

/-- The requirements of the algorithm are found and the asset meets them. -/
def Session.meets (classes : String → Option AlgorithmClass) (s : Session) (asset g : Nat) : Prop :=
  ∃ cls, s.classOf classes g = some cls ∧
    (∀ name ∈ cls.pointsRequired, ∃ t, s.db.findPointType name = some t ∧
      t ∈ s.getPointTypes asset) ∧
    ∀ name ∈ cls.functionsRequired, ∃ f, s.db.findFunction name = some f ∧
      (asset, f) ∈ s.db.assetFunctionMapping

theorem Session.meets_congr {s s' : Session} (h : s'.base = s.base)
    (classes : String → Option AlgorithmClass) (asset g : Nat) :
    s'.meets classes asset g ↔ s.meets classes asset g := by
  have hpointType : s'.db.findPointType = s.db.findPointType :=
    congrArg (fun p => p.1.findPointType) h
  have hfunction : s'.db.findFunction = s.db.findFunction :=
    congrArg (fun p => p.1.findFunction) h
  unfold Session.meets
  rw [Session.classOf_congr h, hpointType, hfunction, Session.getPointTypes_congr h,
    Session.assetFunctions_congr h]

theorem Session.mem_algorithms_congr {s s' : Session} (h : s'.base = s.base) (g : Nat) :
    g ∈ s'.db.algorithms.rows.map Algorithm.id ↔ g ∈ s.db.algorithms.rows.map Algorithm.id := by
  have hids : ∀ s : Session, s.db.algorithms.rows.map Algorithm.id = s.base.2.2.map Prod.fst := by
    intro s
    simp [Session.base]
  rw [hids s, hids s', h]

theorem Session.not_mem_clearAlgorithm (g : Nat) (s : Session) (a : Nat) :
    (a, g) ∉ (s.clearAlgorithm g).relation := by
  simp [Session.relation, Session.clearAlgorithm]

theorem Session.passes_iff_meets {classes : String → Option AlgorithmClass} {s s' : Session}
    {g : Nat} {cls : AlgorithmClass} (hbase : s'.base = s.base)
    (hc : s.classOf classes g = some cls)
    (hpoints : ∀ name ∈ cls.pointsRequired, (s.db.findPointType name).isSome)
    (hfunctions : ∀ name ∈ cls.functionsRequired, (s.db.findFunction name).isSome)
    (hpairsP : ∀ t, (g, t) ∈ s'.db.algoPointMapping ↔
      ∃ name ∈ cls.pointsRequired, s.db.findPointType name = some t)
    (hpairsF : ∀ f, (g, f) ∈ s'.db.algoFunctionMapping ↔
      ∃ name ∈ cls.functionsRequired, s.db.findFunction name = some f) (asset : Nat) :
    s'.passes asset g = true ↔ s.meets classes asset g := by
  rw [Session.passes_iff, Session.getPointTypes_congr hbase, Session.assetFunctions_congr hbase]
  constructor
  · intro h
    refine ⟨cls, hc, ?_, ?_⟩
    · intro name hn
      obtain ⟨t, ht⟩ := Option.isSome_iff_exists.mp (hpoints name hn)
      exact ⟨t, ht, h.1 t ((hpairsP t).mpr ⟨name, hn, ht⟩)⟩
    · intro name hn
      obtain ⟨f, hf⟩ := Option.isSome_iff_exists.mp (hfunctions name hn)
      exact ⟨f, hf, h.2 f ((hpairsF f).mpr ⟨name, hn, hf⟩)⟩
  · intro h
    obtain ⟨cls', hc', hp, hf⟩ := h
    rw [hc, Option.some.injEq] at hc'
    subst hc'
    refine ⟨?_, ?_⟩
    · intro t ht
      obtain ⟨name, hn, hfind⟩ := (hpairsP t).mp ht
      obtain ⟨t', hfind', ht'⟩ := hp name hn
      rw [hfind, Option.some.injEq] at hfind'
      rwa [hfind']
    · intro f hf'
      obtain ⟨name, hn, hfind⟩ := (hpairsF f).mp hf'
      obtain ⟨f', hfind', hmem⟩ := hf name hn
      rw [hfind, Option.some.injEq] at hfind'
      rwa [hfind']

theorem Algorithm.mapAssets_spec (s : Session) (g : Nat) :
    let cleared := s.clearAlgorithm g
    let s' := (cleared.access.db.assets.rows.map Asset.id).foldl
      (fun s a => Asset.mapAlgorithm Session.access a s g) cleared.access
    Remapped cleared s' ∧ ∀ a ∈ s.db.assets.rows.map Asset.id,
      ((a, g) ∈ s'.relation ↔ s.related (a, g)) := by
  intro cleared s'
  have hassets : cleared.access.db.assets = s.db.assets :=
    congrArg (fun p => p.1.assets) cleared.store_access
  have hstep : ∀ s' : Session, s'.store = cleared.store →
      ∀ a ∈ cleared.access.db.assets.rows.map Asset.id,
      (Asset.mapAlgorithm Session.access a s' g).store = cleared.store ∧
        Refreshes (fun _ => True) cleared.related s'.relation
          (Asset.mapAlgorithm Session.access a s' g).relation ∧
        (cleared.related (a, g) → (a, g) ∈
          (Asset.mapAlgorithm Session.access a s' g).relation) := by
    intro s' hs' a _
    obtain ⟨hm, hcell⟩ := Asset.mapAlgorithm_remapped Session.access_remapped a g s'
    rw [← Session.related_congr hs']
    exact ⟨hm.store.trans hs', hm.relation, hcell⟩
  have hsound : ∀ k : Nat × Nat, k.2 = g ∧ k.1 ∈ s.db.assets.rows.map Asset.id →
      k ∈ cleared.access.relation → cleared.related k := by
    intro k hk
    refine cleared.access_remapped.relation.keeps_sound trivial ?_
    intro hm
    have hk' : k = (k.1, g) := Prod.ext rfl hk.1
    rw [hk'] at hm
    exact absurd hm (Session.not_mem_clearAlgorithm g s k.1)
  have hall : ∀ k : Nat × Nat, k.2 = g ∧ k.1 ∈ s.db.assets.rows.map Asset.id →
      cleared.related k → ∃ a ∈ cleared.access.db.assets.rows.map Asset.id, (a, g) = k := by
    intro k hk _
    rw [hassets]
    exact ⟨k.1, hk.2, by rw [← hk.1]⟩
  obtain ⟨hend, hrefreshes, hcolumn⟩ :=
    foldl_refills (I := fun s' : Session => s'.store = cleared.store) cleared.store_access
      (cleared.access_remapped.relation.mono (fun _ _ => trivial)) hsound hstep hall
  exact ⟨⟨hend, hrefreshes⟩, fun a ha => hcolumn (a, g) ⟨rfl, ha⟩⟩

theorem Algorithm.map_spec (classes : String → Option AlgorithmClass) (s : Session) {g : Nat}
    (hg : g ∈ s.db.algorithms.rows.map Algorithm.id) :
    Apart g s (Algorithm.map classes s g) ∧
      (∀ a ∈ s.db.assets.rows.map Asset.id, ((a, g) ∈ (Algorithm.map classes s g).relation ↔
        s.meets classes a g)) ∧
      ∀ a, (Algorithm.map classes s g).related (a, g) ↔ s.meets classes a g := by
  obtain ⟨hapart, hok, hpairs⟩ := Algorithm.mapRequirements_spec classes s g
  unfold Algorithm.map
  split
  · next s₁ hreq =>
    rw [hreq] at hapart hok
    have hclear := (hapart.trans (Apart.access g s₁)).trans (Apart.clearAlgorithm g s₁.access)
    have hunmapped : ∀ a, ¬ ((s₁.access.clearAlgorithm g).setMapped g false).related (a, g) := by
      intro a h
      have hm := Session.isMapped_setMapped_self (s₁.access.clearAlgorithm g) false
        ((Session.mem_algorithms_congr hclear.base g).mpr hg)
      simp [Session.related, hm] at h
    have hmeets : ∀ a, ¬ s.meets classes a g := by
      intro a h
      obtain ⟨cls, hc, hpoints, hfunctions⟩ := h
      have hfound : false = true := hok.mpr ⟨cls, hc,
        fun name hn => by obtain ⟨t, ht, -⟩ := hpoints name hn; simp [ht],
        fun name hn => by obtain ⟨f, hf, -⟩ := hfunctions name hn; simp [hf]⟩
      simp at hfound
    refine ⟨hclear.trans (Apart.setMapped g false _), ?_, ?_⟩
    · intro a _
      exact iff_of_false (Session.not_mem_clearAlgorithm g s₁.access a) (hmeets a)
    · intro a
      exact iff_of_false (hunmapped a) (hmeets a)
  · next s₁ hreq =>
    rw [hreq] at hapart hok hpairs
    let s₂ := (s₁.setMapped g true).access
    have hmapped : Apart g s s₂ :=
      (hapart.trans (Apart.setMapped g true s₁)).trans (Apart.access g _)
    have hmeets : ∀ a, s₂.related (a, g) ↔ s.meets classes a g := by
      intro a
      obtain ⟨cls, hc, hpoints, hfunctions⟩ := hok.mp rfl
      have hm : (s₁.setMapped g true).isMapped g = true := Session.isMapped_setMapped_self s₁ true
        ((Session.mem_algorithms_congr hapart.base g).mpr hg)
      have hbase := (hapart.trans (Apart.setMapped g true s₁)).base
      obtain ⟨hpairsP, hpairsF⟩ := hpairs rfl cls hc
      rw [Session.related_congr (s₁.setMapped g true).store_access]
      simp only [Session.related, hm, true_and]
      exact Session.passes_iff_meets hbase hc hpoints hfunctions hpairsP hpairsF a
    obtain ⟨hloop, hcolumn⟩ := Algorithm.mapAssets_spec s₂ g
    have hend := (hmapped.trans (Apart.clearAlgorithm g s₂)).trans (Apart.of_remapped g hloop)
    refine ⟨hend, ?_, ?_⟩
    · intro a ha
      rw [← hmeets a]
      exact hcolumn a (Session.assets_congr hmapped.base ▸ ha)
    · intro a
      rw [← hmeets a]
      exact iff_of_eq (congrFun (Session.related_congr hloop.store) (a, g))

/-- The requirements of `g` and its mapping are as they should be. -/
structure Settled (classes : String → Option AlgorithmClass) (s : Session) (g : Nat) : Prop where
  relation : ∀ a ∈ s.db.assets.rows.map Asset.id, ((a, g) ∈ s.relation ↔ s.meets classes a g)
  related : ∀ a, s.related (a, g) ↔ s.meets classes a g

theorem Settled.map_self (classes : String → Option AlgorithmClass) (s : Session) {g : Nat}
    (hg : g ∈ s.db.algorithms.rows.map Algorithm.id) :
    Settled classes (Algorithm.map classes s g) g := by
  obtain ⟨hapart, hrelation, hrelated⟩ := Algorithm.map_spec classes s hg
  refine ⟨?_, ?_⟩
  · intro a ha
    rw [Session.meets_congr hapart.base]
    exact hrelation a (Session.assets_congr hapart.base ▸ ha)
  · intro a
    rw [Session.meets_congr hapart.base]
    exact hrelated a

theorem Settled.apart {classes : String → Option AlgorithmClass} {s s' : Session} {g i : Nat}
    (h : Settled classes s g) (hi : g ≠ i) (hapart : Apart i s s') : Settled classes s' g := by
  refine ⟨?_, ?_⟩
  · intro a ha
    have hrel := h.relation a (Session.assets_congr hapart.base ▸ ha)
    rw [Session.meets_congr hapart.base, ← h.related a]
    exact hapart.relation.keeps hi (hrel.trans (h.related a).symm)
  · intro a
    rw [Session.meets_congr hapart.base, ← h.related a]
    exact hapart.related (a, g) hi

theorem Settled.remapped {classes : String → Option AlgorithmClass} {s s' : Session} {g : Nat}
    (h : Settled classes s g) (hm : Remapped s s') : Settled classes s' g :=
  h.apart (Nat.ne_of_lt (Nat.lt_succ_self g)) (Apart.of_remapped (g + 1) hm)

theorem foldl_settled (classes : String → Option AlgorithmClass) (algorithms : List Nat)
    (s : Session) (hmem : ∀ g ∈ algorithms, g ∈ s.db.algorithms.rows.map Algorithm.id) :
    (algorithms.foldl (Algorithm.map classes) s).base = s.base ∧
      ∀ g, (g ∈ algorithms ∨ Settled classes s g) →
        Settled classes (algorithms.foldl (Algorithm.map classes) s) g := by
  induction algorithms generalizing s with
  | nil => exact ⟨rfl, fun g hg => hg.resolve_left (by simp)⟩
  | cons i rest ih =>
    have hi := hmem i List.mem_cons_self
    obtain ⟨hapart, -⟩ := Algorithm.map_spec classes s hi
    obtain ⟨hbase, hsettled⟩ := ih (Algorithm.map classes s i) (fun g hg =>
      (Session.mem_algorithms_congr hapart.base g).mpr (hmem g (List.mem_cons_of_mem i hg)))
    refine ⟨hbase.trans hapart.base, ?_⟩
    intro g hg
    apply hsettled
    by_cases hgi : g = i
    · subst hgi
      exact Or.inr (Settled.map_self classes s hi)
    · rcases hg with hg | hg
      · exact Or.inl ((List.mem_cons.mp hg).resolve_left hgi)
      · exact Or.inr (hg.apart hgi hapart)

theorem foldl_map_remapped (assets : List Nat) (s : Session) :
    Remapped s (assets.foldl (Asset.map Session.access) s) := by
  induction assets generalizing s with
  | nil => exact Remapped.refl s
  | cons a rest ih => exact (Asset.map_remapped Session.access_remapped s a).1.trans (ih _)

theorem Session.commit_remapped {s : Session} (h : s.ghosts = []) : Remapped s s.commit := by
  have hflush := s.flush_remapped.1
  have hghosts : s.flush.ghosts = [] := (congrArg Prod.snd hflush.store).trans h
  have heq : s.commit = s.flush := by
    rw [Session.commit, ← hghosts]
  rw [heq]
  exact hflush

/-- A command that maps everything again, in any order. -/
inductive Rebuild
  | algorithms (order : IterationOrder Nat)
  | assets (order : IterationOrder Nat)

def Rebuild.run (classes : String → Option AlgorithmClass) (s : Session) : Rebuild → Session
  | .algorithms order => mapAlgorithms classes order s
  | .assets order => mapAssets order s

def AllSettled (classes : String → Option AlgorithmClass) (s : Session) : Prop :=
  ∀ g ∈ s.db.algorithms.rows.map Algorithm.id, Settled classes s g

theorem mapAlgorithms_settled (classes : String → Option AlgorithmClass)
    (order : IterationOrder Nat) {s : Session} (h : s.ghosts = []) :
    (mapAlgorithms classes order s).base = s.base ∧
      AllSettled classes (mapAlgorithms classes order s) := by
  have hperm := order.perm (s.access.db.algorithms.rows.map Algorithm.id)
  obtain ⟨hbase, hsettled⟩ := foldl_settled classes
    (order.visit (s.access.db.algorithms.rows.map Algorithm.id)) s.access
    (fun g hg => hperm.mem_iff.mp hg)
  have hghosts : ((order.visit (s.access.db.algorithms.rows.map Algorithm.id)).foldl
      (Algorithm.map classes) s.access).ghosts = [] :=
    (congrArg (fun p => p.2.1) (hbase.trans (Apart.access 0 s).base)).trans h
  have hcommit := Session.commit_remapped hghosts
  have hbase' : (mapAlgorithms classes order s).base = s.access.base :=
    (Session.base_congr hcommit.store).trans hbase
  refine ⟨hbase'.trans (Apart.access 0 s).base, ?_⟩
  intro g hg
  refine (hsettled g (Or.inl ?_)).remapped hcommit
  exact hperm.mem_iff.mpr ((Session.mem_algorithms_congr hbase' g).mp hg)

theorem Rebuild.run_settled {classes : String → Option AlgorithmClass} {s : Session}
    (rebuild : Rebuild) (h : s.ghosts = []) (hs : AllSettled classes s) :
    (rebuild.run classes s).base = s.base ∧ AllSettled classes (rebuild.run classes s) := by
  cases rebuild with
  | algorithms order => exact mapAlgorithms_settled classes order h
  | assets order =>
    have hloop : Remapped s ((order.visit (s.access.db.assets.rows.map Asset.id)).foldl
        (Asset.map Session.access) s.access) :=
      s.access_remapped.trans (foldl_map_remapped _ _)
    have hghosts := (congrArg Prod.snd hloop.store).trans h
    have hm : Remapped s (mapAssets order s) := hloop.trans (Session.commit_remapped hghosts)
    have hbase := Session.base_congr hm.store
    refine ⟨hbase, ?_⟩
    intro g hg
    exact (hs g ((Session.mem_algorithms_congr hbase g).mp hg)).remapped hm

theorem Session.meets_iff_applies (classes : String → Option AlgorithmClass) {s : Session}
    (h : s.ghosts = []) (asset : Nat) {g : Algorithm} (hg : g ∈ s.db.algorithms.rows) :
    s.meets classes asset g.id ↔ Applies classes s.db asset g := by
  have hclass : s.classOf classes g.id = classes g.name := by
    simp [Session.classOf, Table.get?_eq_some.mpr ⟨hg, rfl⟩]
  have htypes : ∀ t, t ∈ s.getPointTypes asset ↔ ∃ p ∈ s.db.pointsOf asset, p.typeId = t := by
    intro t
    simp [Session.getPointTypes, Session.points, h]
  simp only [Session.meets, Applies, hclass, Db.findPointType, Db.findFunction,
    Table.one?_map_iff, beq_iff_eq, htypes]
  refine exists_congr fun cls => and_congr_right fun _ => ?_
  constructor
  · intro hm
    exact ⟨fun n hn => (hm.1 n hn).1, fun n hn => (hm.2 n hn).1, fun n hn => (hm.1 n hn).2,
      fun n hn => (hm.2 n hn).2⟩
  · intro hm
    exact ⟨fun n hn => ⟨hm.1 n hn, hm.2.2.1 n hn⟩, fun n hn => ⟨hm.2.1 n hn, hm.2.2.2 n hn⟩⟩

theorem rebuild_settled (classes : String → Option AlgorithmClass) (db : Db) (loads : Nat → Bool)
    (order : IterationOrder Nat) (rebuilds : List Rebuild) :
    let s := rebuilds.foldl (Rebuild.run classes) (mapAlgorithms classes order (.start db loads))
    s.base = (Session.start db loads).base ∧ AllSettled classes s := by
  have hrun : ∀ (rebuilds : List Rebuild) (s : Session),
      s.base = (Session.start db loads).base → AllSettled classes s →
      (rebuilds.foldl (Rebuild.run classes) s).base = (Session.start db loads).base ∧
        AllSettled classes (rebuilds.foldl (Rebuild.run classes) s) := by
    intro rebuilds
    induction rebuilds with
    | nil => exact fun s hb hs => ⟨hb, hs⟩
    | cons rebuild rest ih =>
      intro s hb hs
      have hghosts : s.ghosts = [] := congrArg (fun p => p.2.1) hb
      obtain ⟨hb', hs'⟩ := rebuild.run_settled hghosts hs
      exact ih _ (hb'.trans hb) hs'
  obtain ⟨hb, hs⟩ := mapAlgorithms_settled classes order (s := .start db loads) rfl
  exact hrun rebuilds _ hb hs

theorem AllSettled.applies {classes : String → Option AlgorithmClass} {db : Db}
    {loads : Nat → Bool} {s : Session} (h : AllSettled classes s)
    (hbase : s.base = (Session.start db loads).base) {a : Asset} (ha : a ∈ db.assets.rows)
    {g : Algorithm} (hg : g ∈ db.algorithms.rows) :
    (a.id, g.id) ∈ s.relation ↔ Applies classes db a.id g := by
  have hmem : g.id ∈ s.db.algorithms.rows.map Algorithm.id :=
    (Session.mem_algorithms_congr hbase g.id).mpr (List.mem_map_of_mem hg)
  have hasset : a.id ∈ s.db.assets.rows.map Asset.id := by
    rw [Session.assets_congr hbase]
    exact List.mem_map_of_mem ha
  rw [(h g.id hmem).relation a.id hasset, Session.meets_congr hbase]
  have hghosts : (Session.start db loads).ghosts = [] := rfl
  exact Session.meets_iff_applies classes hghosts a.id hg

/-- From any mapping, mapping every algorithm relates exactly the pairs that it
should, and so does every later rebuild, by algorithms or by assets. -/
theorem rebuild_applies (classes : String → Option AlgorithmClass) (db : Db) (loads : Nat → Bool)
    (order : IterationOrder Nat) (rebuilds : List Rebuild) :
    let s := rebuilds.foldl (Rebuild.run classes) (mapAlgorithms classes order (.start db loads))
    ∀ a ∈ db.assets.rows, ∀ g ∈ db.algorithms.rows,
      ((a.id, g.id) ∈ s.relation ↔ Applies classes db a.id g) := by
  intro s a ha g hg
  obtain ⟨hbase, hsettled⟩ := rebuild_settled classes db loads order rebuilds
  exact hsettled.applies hbase ha hg

def fanClasses (name : String) : Option AlgorithmClass :=
  if name = "FanCheck" then some ⟨["fan status"], []⟩ else none

theorem rebuild_applies_fanPlant :
    fanUnit ∈ fanPlant.assets.rows ∧ fanCheck ∈ fanPlant.algorithms.rows ∧
      Applies fanClasses fanPlant 1 fanCheck := by
  refine ⟨List.mem_singleton.mpr rfl, List.mem_singleton.mpr rfl, ?_⟩
  refine (rebuild_applies fanClasses fanPlant (fun _ => true) (.listed Nat) [] fanUnit
    (List.mem_singleton.mpr rfl) fanCheck (List.mem_singleton.mpr rfl)).mp ?_
  decide +kernel

end Medusa
