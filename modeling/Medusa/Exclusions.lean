import Mathlib.Data.Finset.Image
import Medusa.AddPlan
import Medusa.Requests

/-! The algorithms that are excluded from an asset. A form sends the algorithms that are
ticked, and both the addition and the edit of an asset should store the others. The addition
stores them inside the loop that reads the ticks, so what it has excluded after the first tick
stays excluded. -/

namespace Medusa

open Relational

namespace Db

def exclusionsOf (db : Db) (asset : Nat) : Finset Nat :=
  (db.algoExclusions.filter (fun q => q.1 = asset)).image Prod.snd

/-- The ids of the algorithms with the descriptions, each of which is there once. -/
def ticked (db : Db) (descrs : List String) : Option (List Nat) :=
  descrs.mapM (fun descr => (db.algorithms.one? (fun g => g.descr == descr)).map Algorithm.id)

def allBut (db : Db) (inclusions : List Nat) : Finset Nat :=
  ((db.algorithms.rows.map Algorithm.id).filter (fun id => decide (id ∉ inclusions))).toFinset

theorem mem_exclusionsOf {db : Db} {asset x : Nat} :
    x ∈ db.exclusionsOf asset ↔ (asset, x) ∈ db.algoExclusions := by
  simp [exclusionsOf]

theorem mem_allBut {db : Db} {inclusions : List Nat} {x : Nat} :
    x ∈ db.allBut inclusions ↔ x ∈ db.algorithms.rows.map Algorithm.id ∧ x ∉ inclusions := by
  simp [allBut]

theorem ticked_nil (db : Db) : db.ticked [] = some [] := rfl

theorem ticked_cons {db : Db} {descr : String} {rest : List String} {ids : List Nat} :
    db.ticked (descr :: rest) = some ids ↔
      ∃ g ids', db.algorithms.one? (fun g => g.descr == descr) = some g ∧
        db.ticked rest = some ids' ∧ ids = g.id :: ids' := by
  unfold ticked
  rw [List.mapM_cons]
  cases db.algorithms.one? (fun g => g.descr == descr) with
  | none => simp
  | some g =>
    simp only [Option.map_some, Option.bind_eq_bind, Option.bind_some, Option.bind_eq_some_iff,
      Option.pure_def, Option.some.injEq]
    constructor
    · rintro ⟨ids', hrest, rfl⟩
      exact ⟨g, ids', rfl, hrest, rfl⟩
    · rintro ⟨g, ids', rfl, hrest, rfl⟩
      exact ⟨ids', hrest, rfl⟩

theorem length_of_ticked {db : Db} {descrs : List String} {ids : List Nat}
    (h : db.ticked descrs = some ids) : descrs.length = ids.length := by
  have hlength := congrArg List.length (mapM_eq_some.mp h)
  rwa [List.length_map, List.length_map] at hlength

theorem exists_of_ticked {db : Db} {descrs : List String} {ids : List Nat}
    (h : db.ticked descrs = some ids) {id : Nat} (hid : id ∈ ids) :
    ∃ descr ∈ descrs, ∃ g, db.algorithms.one? (fun g => g.descr == descr) = some g ∧ g.id = id := by
  induction descrs generalizing ids with
  | nil =>
    obtain rfl := Option.some.inj (db.ticked_nil.symm.trans h)
    exact absurd hid List.not_mem_nil
  | cons descr rest ih =>
    obtain ⟨g, ids', hg, hrest, rfl⟩ := ticked_cons.mp h
    rcases List.mem_cons.mp hid with rfl | hid
    · exact ⟨descr, List.mem_cons_self, g, hg, rfl⟩
    · obtain ⟨descr', hdescr', hg'⟩ := ih hrest hid
      exact ⟨descr', List.mem_cons_of_mem _ hdescr', hg'⟩

theorem one?_of_ticked {db : Db} {descrs : List String} {ids : List Nat}
    (h : db.ticked descrs = some ids) {descr : String} (hdescr : descr ∈ descrs) :
    ∃ g, db.algorithms.one? (fun g => g.descr == descr) = some g ∧ g.id ∈ ids := by
  have hmem := List.mem_map_of_mem (f := fun descr =>
    (db.algorithms.one? (fun g => g.descr == descr)).map Algorithm.id) hdescr
  rw [mapM_eq_some.mp h, List.mem_map] at hmem
  obtain ⟨id, hid, hfound⟩ := hmem
  obtain ⟨g, hg, rfl⟩ := Option.map_eq_some_iff.mp hfound.symm
  exact ⟨g, hg, hid⟩

theorem mem_of_ticked {db : Db} {descrs : List String} {ids : List Nat}
    (h : db.ticked descrs = some ids) {id : Nat} (hid : id ∈ ids) :
    id ∈ db.algorithms.rows.map Algorithm.id := by
  obtain ⟨descr, -, g, hg, rfl⟩ := exists_of_ticked h hid
  exact List.mem_map_of_mem (Table.one?_eq_some.mp hg).1.1

theorem nodup_of_ticked {db : Db} {descrs : List String} {ids : List Nat}
    (h : db.ticked descrs = some ids) (hnodup : descrs.Nodup) : ids.Nodup := by
  induction descrs generalizing ids with
  | nil =>
    obtain rfl := Option.some.inj (db.ticked_nil.symm.trans h)
    exact List.nodup_nil
  | cons descr rest ih =>
    obtain ⟨g, ids', hg, hrest, rfl⟩ := ticked_cons.mp h
    rw [List.nodup_cons] at hnodup ⊢
    refine ⟨?_, ih hrest hnodup.2⟩
    intro hmem
    obtain ⟨descr', hdescr', g', hg', hid⟩ := exists_of_ticked hrest hmem
    have hrow := (Table.one?_eq_some.mp hg).1
    have hrow' := (Table.one?_eq_some.mp hg').1
    obtain rfl := Table.eq_of_key_eq hrow'.1 hrow.1 hid
    have hdescr : descr = descr' := (beq_iff_eq.mp hrow.2).symm.trans (beq_iff_eq.mp hrow'.2)
    exact hnodup.1 (hdescr ▸ hdescr')

theorem allBut_first_iff {db : Db} {id : Nat} {rest : List Nat} (hnodup : (id :: rest).Nodup)
    (hknown : ∀ x ∈ rest, x ∈ db.algorithms.rows.map Algorithm.id) :
    db.allBut [id] = db.allBut (id :: rest) ↔ rest = [] := by
  cases rest with
  | nil => simp
  | cons second rest =>
    -- the second algorithm is in the first set only
    refine iff_of_false ?_ (by simp)
    intro h
    have hne : second ≠ id := fun he => (List.nodup_cons.mp hnodup).1 (he ▸ List.mem_cons_self)
    have hsecond : second ∈ db.allBut [id] :=
      mem_allBut.mpr ⟨hknown second List.mem_cons_self, by simpa using hne⟩
    rw [h, mem_allBut] at hsecond
    exact hsecond.2 (List.mem_cons_of_mem _ List.mem_cons_self)

end Db

/-- The session has not changed what an asset is checked for. -/
def SameChoice (db : Db) (s : Session) : Prop :=
  s.db.algorithms = db.algorithms ∧ s.db.algoExclusions = db.algoExclusions

namespace SameChoice

variable {db : Db} {asset : Nat} {form : AssetForm} {s s' : Session}

theorem refl (s : Session) : SameChoice s.db s := ⟨rfl, rfl⟩

theorem of_store (h : SameChoice db s) (hstore : s'.store.1 = s.store.1) : SameChoice db s' :=
  ⟨(congrArg Db.algorithms hstore :).trans h.1, (congrArg Db.algoExclusions hstore :).trans h.2⟩

theorem access (h : SameChoice db s) : SameChoice db s.access := h.of_store s.rows_access

theorem commit (h : SameChoice db s) : SameChoice db s.commit := h.of_store s.rows_commit

theorem fieldRule : FieldRule asset form (SameChoice db) :=
  FieldRule.of_assignLog SameChoice.access (fun _ _ h => h) (fun _ _ h => h)

end SameChoice

theorem Session.mem_exclude {s : Session} {asset : Nat} {inclusions : List Nat} {q : Nat × Nat} :
    q ∈ (s.exclude asset inclusions).db.algoExclusions ↔ q ∈ s.db.algoExclusions ∨
      q.1 = asset ∧ q.2 ∈ s.db.algorithms.rows.map Algorithm.id ∧ q.2 ∉ inclusions := by
  obtain ⟨a, x⟩ := q
  simp only [Session.exclude, Finset.mem_union, List.mem_toFinset, List.mem_map, List.mem_filter,
    decide_eq_true_eq, Prod.mk.injEq]
  refine or_congr_right ?_
  constructor
  · rintro ⟨g, ⟨hg, hnot⟩, rfl, rfl⟩
    exact ⟨rfl, ⟨g, hg, rfl⟩, hnot⟩
  · rintro ⟨rfl, ⟨g, hg, rfl⟩, hnot⟩
    exact ⟨g, ⟨hg, hnot⟩, rfl, rfl⟩

section Loops

variable {db : Db} {asset : Nat}

/-- Each further tick excludes fewer algorithms, so the first one decides. -/
theorem mem_addExclusions {descrs : List String} {ids inclusions : List Nat} {s : Session}
    (halgorithms : s.db.algorithms = db.algorithms) (h : db.ticked descrs = some ids)
    (q : Nat × Nat) :
    q ∈ (addExclusions asset inclusions s descrs).db.algoExclusions ↔ q ∈ s.db.algoExclusions ∨
      ∃ id ∈ ids.head?, q.1 = asset ∧ q.2 ∈ db.algorithms.rows.map Algorithm.id ∧
        q.2 ∉ id :: inclusions := by
  induction descrs generalizing ids inclusions s with
  | nil =>
    obtain rfl := Option.some.inj (db.ticked_nil.symm.trans h)
    simp [addExclusions]
  | cons descr rest ih =>
    obtain ⟨g, ids', hg, hrest, rfl⟩ := Db.ticked_cons.mp h
    have hsame : SameChoice s.db s.access.access := (SameChoice.refl s).access.access
    have halgorithms' : s.access.access.db.algorithms = db.algorithms := hsame.1.trans halgorithms
    unfold addExclusions
    rw [(SameChoice.refl s).access.1, halgorithms, hg]
    simp only
    rw [ih (s := s.access.access.exclude asset (g.id :: inclusions)) halgorithms' hrest,
      Session.mem_exclude, halgorithms', hsame.2, List.head?_cons]
    simp only [Option.mem_some_iff, exists_eq_left']
    constructor
    · rintro (hq | ⟨id, -, hasset, hrow, hnot⟩)
      · exact hq
      · exact Or.inr ⟨hasset, hrow, fun hm => hnot (List.mem_cons_of_mem _ hm)⟩
    · exact Or.inl

theorem includeAlgorithm_loop {descrs : List String} {state state' : Session × List Nat}
    (hs : SameChoice db state.1) (h : descrs.foldlM includeAlgorithm state = some state') :
    SameChoice db state'.1 ∧ ∃ ids, db.ticked descrs = some ids ∧
      ∀ id, id ∈ state'.2 ↔ id ∈ state.2 ∨ id ∈ ids := by
  induction descrs generalizing state with
  | nil =>
    obtain rfl := Option.some.inj h
    exact ⟨hs, [], rfl, by simp⟩
  | cons descr rest ih =>
    rw [List.foldlM_cons, Option.bind_eq_bind, Option.bind_eq_some_iff] at h
    obtain ⟨middle, hmiddle, hrest⟩ := h
    simp only [includeAlgorithm, Option.bind_eq_bind, Option.bind_eq_some_iff, Option.pure_def,
      Option.some.injEq] at hmiddle
    obtain ⟨g, hg, rfl⟩ := hmiddle
    obtain ⟨hsame, ids, hids, hmem⟩ := ih hs.access hrest
    rw [hs.access.1] at hg
    refine ⟨hsame, g.id :: ids, Db.ticked_cons.mpr ⟨g, ids, hg, hids, rfl⟩, ?_⟩
    intro id
    rw [hmem, List.mem_cons, List.mem_cons]
    tauto

/-- An edit that goes through finds the ticked algorithms, and excludes all others. -/
theorem editDetails_exclusions {form : AssetForm} {s s' : Session} (hs : SameChoice db s)
    (h : editDetails asset form s = some s') :
    s'.db.algorithms = db.algorithms ∧ ∃ ids, db.ticked form.algorithms = some ids ∧ ∀ q,
      (q ∈ s'.db.algoExclusions ↔ q.1 ≠ asset ∧ q ∈ db.algoExclusions ∨
        q.1 = asset ∧ q.2 ∈ db.algorithms.rows.map Algorithm.id ∧ q.2 ∉ ids) := by
  obtain ⟨s₂, s₃, inclusions, h₂, hloop, rfl⟩ :=
    editDetails_chosen (Q := SameChoice db) h
      (fun {s₁ old} hfields => SameChoice.access (s := s₁.deletePoints asset old)
        (SameChoice.fieldRule.editFields hfields hs).1)
      SameChoice.access (fun _ h => h)
  -- the exclusions are cleared before the ticked algorithms are looked up
  have hcleared : SameChoice
      { db with algoExclusions := db.algoExclusions.filter (fun q => q.1 ≠ asset) }
      (s₂.access.clearExclusions asset) :=
    ⟨h₂.access.1, congrArg (Finset.filter fun q : Nat × Nat => q.1 ≠ asset) h₂.access.2⟩
  obtain ⟨h₃, ids, hids, hmem⟩ := includeAlgorithm_loop hcleared hloop
  refine ⟨h₃.access.1, ids, hids, ?_⟩
  intro q
  rw [Session.mem_exclude, h₃.access.1, h₃.access.2, Finset.mem_filter, hmem]
  simp [and_comm]

end Loops

theorem addDetails_exclusions {db : Db} {asset : Nat} {form : AssetForm} {s s' : Session}
    (hs : SameChoice db s) (h : addDetails asset form s = some s') {ids : List Nat}
    (hticked : db.ticked form.algorithms = some ids) (q : Nat × Nat) :
    q ∈ s'.db.algoExclusions ↔ q ∈ db.algoExclusions ∨
      ∃ id ∈ ids.head?, q.1 = asset ∧ q.2 ∈ db.allBut [id] := by
  simp only [addDetails, Option.bind_eq_bind, Option.bind_eq_some_iff, Option.pure_def,
    Option.some.injEq] at h
  obtain ⟨s₁, hfields, s₂, hfunctions, rfl⟩ := h
  have h₁ : SameChoice db s₁ := foldlM_keeps SameChoice.fieldRule.addField hfields hs
  have h₂ : SameChoice db s₂ := foldlM_keeps
    (setFunction_keeps (P := SameChoice db) SameChoice.access (fun _ h => h)) hfunctions h₁
  rw [mem_addExclusions h₂.1 hticked, h₂.2]
  simp only [Db.mem_allBut]

theorem addAsset_exclusions (loads : Nat → Bool) {db : Db} {sitename : String} {form : AssetForm}
    (hadd : form.addable db sitename = true) (hreads : form.reads db = true) {ids : List Nat}
    (hticked : db.ticked form.algorithms = some ids) (q : Nat × Nat) :
    q ∈ (addAsset loads db sitename form).algoExclusions ↔ q ∈ db.algoExclusions ∨
      ∃ id ∈ ids.head?, q.1 = db.assets.nextKey ∧ q.2 ∈ db.allBut [id] := by
  have hcreate := createAsset_spec loads db sitename form
  rw [if_pos hadd] at hcreate
  obtain ⟨s, site, type, hs, hdb⟩ := hcreate
  have hlookups : SameLookups db s.commit := SameLookups.commit (congrArg Db.lookups hdb :)
  have hchoice : SameChoice db s.commit :=
    SameChoice.commit ⟨(congrArg Db.algorithms hdb :), (congrArg Db.algoExclusions hdb :)⟩
  unfold addAsset
  rw [hs]
  simp only
  split
  · next hnone =>
    have hsome : (addDetails db.assets.nextKey form s.commit).isSome :=
      hlookups.addDetails_isSome_iff.mpr hreads
    rw [hnone] at hsome
    exact absurd hsome Bool.false_ne_true
  · next s' hs' =>
    have hsame : s'.commit.db.algoExclusions = s'.db.algoExclusions :=
      (SameChoice.refl s').commit.2
    rw [hsame]
    exact addDetails_exclusions hchoice hs' hticked q

theorem editAsset_exclusions (loads : Nat → Bool) {db : Db} {sitename : String} {assetId : Nat}
    {form : AssetForm} {plan : EditPlan} (hplan : form.plan db sitename assetId = some plan) :
    ∃ ids, db.ticked form.algorithms = some ids ∧
      (editAsset loads db sitename assetId form).exclusionsOf assetId = db.allBut ids := by
  obtain ⟨assets, s', -, -, hdetails, hedit, -, -⟩ := editAsset_of_plan loads hplan
  have hstart : SameChoice db (Session.edited loads db assets assetId).commit :=
    SameChoice.commit ⟨rfl, rfl⟩
  obtain ⟨-, ids, hids, hmem⟩ := editDetails_exclusions hstart hdetails
  refine ⟨ids, hids, ?_⟩
  have hsame : s'.commit.db.algoExclusions = s'.db.algoExclusions := (SameChoice.refl s').commit.2
  ext x
  rw [hedit, Db.mem_exclusionsOf, hsame, hmem, Db.mem_allBut]
  simp

/-- What the first tick excludes is all that the new asset excludes. -/
theorem addAsset_exclusionsOf (loads : Nat → Bool) {db : Db} {sitename : String} {form : AssetForm}
    (hrows : ∀ q ∈ db.algoExclusions, ∃ a ∈ db.assets.rows, a.id = q.1)
    (hadd : form.addable db sitename = true) (hreads : form.reads db = true) {ids : List Nat}
    (hticked : db.ticked form.algorithms = some ids) :
    (addAsset loads db sitename form).exclusionsOf db.assets.nextKey =
      (ids.head?.map (fun id => db.allBut [id])).getD ∅ := by
  -- the new key is in no row of the table yet
  have hnew : ∀ x, (db.assets.nextKey, x) ∉ db.algoExclusions := by
    intro x hx
    obtain ⟨a, ha, hid⟩ := hrows _ hx
    exact absurd hid (Nat.ne_of_lt (Table.key_lt_nextKey ha))
  ext x
  rw [Db.mem_exclusionsOf, addAsset_exclusions loads hadd hreads hticked]
  cases ids <;> simp [hnew]

/-- After an addition whose form can be read, with each tick naming one algorithm, the new
asset excludes all but the ticked algorithms, as it does after an edit with the same ticks,
exactly if one algorithm is ticked or there are none at all. -/
theorem addAsset_excludes_others_iff (loads : Nat → Bool) {db : Db} {sitename : String}
    {form : AssetForm} {ids : List Nat}
    (hrows : ∀ q ∈ db.algoExclusions, ∃ a ∈ db.assets.rows, a.id = q.1)
    (hadd : form.addable db sitename = true) (hreads : form.reads db = true)
    (hticked : db.ticked form.algorithms = some ids) (hdistinct : form.algorithms.Nodup) :
    ((addAsset loads db sitename form).exclusionsOf db.assets.nextKey = db.allBut ids ∧
      ∀ loads' sitename' assetId form' plan, form'.plan db sitename' assetId = some plan →
        form'.algorithms = form.algorithms →
        (editAsset loads' db sitename' assetId form').exclusionsOf assetId = db.allBut ids) ↔
    form.algorithms.length = 1 ∨ db.algorithms.rows = [] := by
  have hedit : ∀ loads' sitename' assetId form' plan, form'.plan db sitename' assetId = some plan →
      form'.algorithms = form.algorithms →
      (editAsset loads' db sitename' assetId form').exclusionsOf assetId = db.allBut ids := by
    intro loads' sitename' assetId form' plan hplan hsame
    obtain ⟨ids', hids', h⟩ := editAsset_exclusions loads' hplan
    rw [hsame] at hids'
    rw [h, Option.some.inj (hids'.symm.trans hticked)]
  have hknown : ∀ id ∈ ids, id ∈ db.algorithms.rows.map Algorithm.id :=
    fun _ hid => Db.mem_of_ticked hticked hid
  rw [and_iff_left hedit, addAsset_exclusionsOf loads hrows hadd hreads hticked,
    Db.length_of_ticked hticked]
  cases ids with
  | nil =>
    rw [eq_comm]
    simp [Db.allBut]
  | cons id rest =>
    have hnonempty : db.algorithms.rows ≠ [] := by
      intro h
      have hrow := hknown id List.mem_cons_self
      rw [h] at hrow
      exact List.not_mem_nil hrow
    rw [or_iff_left hnonempty, List.length_cons, Nat.add_eq_right, List.length_eq_zero_iff]
    exact Db.allBut_first_iff (Db.nodup_of_ticked hticked hdistinct)
      (fun x hx => hknown x (List.mem_cons_of_mem _ hx))

def twoChecks : Db :=
  { fanPlant with algorithms := ⟨[fanCheck, ⟨2, "FilterCheck", "filter is blocked", true⟩], by decide⟩ }

def tickForm (algorithms : List String) : AssetForm :=
  { fanForm (fun _ => noField) with algorithms := algorithms }

theorem addAsset_excludes_others_iff_twoChecks :
    (tickForm ["filter is blocked"]).addable twoChecks "plant" = true ∧
    (tickForm ["filter is blocked"]).reads twoChecks = true ∧
    twoChecks.ticked ["filter is blocked"] = some [2] ∧
    (addAsset (fun _ => true) twoChecks "plant" (tickForm ["filter is blocked"])).exclusionsOf 2 =
      twoChecks.allBut [2] ∧ twoChecks.allBut [2] = {1} := by
  have hadd : (tickForm ["filter is blocked"]).addable twoChecks "plant" = true := by decide +kernel
  have hreads : (tickForm ["filter is blocked"]).reads twoChecks = true := by decide +kernel
  have hticked : twoChecks.ticked ["filter is blocked"] = some [2] := by decide +kernel
  have hrows : ∀ q ∈ twoChecks.algoExclusions, ∃ a ∈ twoChecks.assets.rows, a.id = q.1 := by
    simp [twoChecks, fanPlant, plant, Db.empty]
  have hboth := (addAsset_excludes_others_iff (fun _ => true) hrows hadd hreads hticked
    (List.nodup_singleton _)).mpr (Or.inl rfl)
  exact ⟨hadd, hreads, hticked, hboth.1, by decide +kernel⟩

/-- With both algorithms ticked the second stays excluded, and with none ticked nothing is
excluded. An edit with the same ticks excludes nothing in the first case, and both algorithms
in the second. -/
theorem addAsset_keeps_exclusion :
    (addAsset (fun _ => true) twoChecks "plant"
        (tickForm ["fan runs without need", "filter is blocked"])).exclusionsOf 2 = {2} ∧
      (editAsset (fun _ => true) twoChecks "plant" 1
        (tickForm ["fan runs without need", "filter is blocked"])).exclusionsOf 1 = ∅ ∧
    (addAsset (fun _ => true) twoChecks "plant" (tickForm [])).exclusionsOf 2 = ∅ ∧
      (editAsset (fun _ => true) twoChecks "plant" 1 (tickForm [])).exclusionsOf 1 = {1, 2} := by
  decide +kernel

end Medusa
