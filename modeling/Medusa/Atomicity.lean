import Medusa.EditChoice

/-! Requests that fail. Both the addition and the edit of an asset commit its attributes
first, and only then read the points, the descriptors and the algorithms of the form. If one of
these cannot be found the request raises, and the first commit stays. -/

namespace Medusa

open Relational

/-- Whether the request ends in an exception. A form that does not pass its checks gives the
page again. -/
def AssetRequest.raises (db : Db) : (Nat → Bool) × AssetRequest → Bool
  | (loads, .add sitename form) =>
    match createAsset loads db sitename form with
    | none => form.valid || (db.sites.one? (fun s => s.name == sitename)).isNone
    | some s => (addDetails db.assets.nextKey form s.commit).isNone
  | (loads, .edit sitename assetId form) =>
    match editAttributes loads db sitename assetId form with
    | none => form.valid || (db.sites.one? (fun s => s.name == sitename)).isNone ||
        (db.assets.one? (fun a => a.id == assetId)).isNone
    | some s => (editDetails assetId form s.commit).isNone
  | (_, .delete assetId) => (db.assets.one? (fun a => a.id == assetId)).isNone

def Db.MappedRight (db : Db) (asset : Nat) : Prop :=
  ∀ x, (asset, x) ∈ db.algoAssetMapping ↔ ∃ g ∈ db.algorithms.rows, g.id = x ∧ db.MapsTo asset g

def AssetForm.SameAttributes (form : AssetForm) (db : Db) (asset : Nat) : Prop :=
  ∃ type priority, db.assetTypes.one? (fun t => t.name == form.type) = some type ∧
    form.priority = some priority ∧ ∀ a ∈ db.assets.rows, a.id = asset →
      form.setAttributes type.id priority a = a

/-- A request that raises does so before it commits, or has nothing new to commit. -/
def AssetRequest.Whole (db : Db) : AssetRequest → Prop
  | .add sitename form => form.addable db sitename = true → form.reads db = true
  | .edit sitename assetId form => form.accepted db sitename assetId = true →
      (form.planDetails db assetId).isSome ∨
        form.SameAttributes db assetId ∧ db.MappedRight assetId
  | .delete _ => True

theorem Session.map_other (s : Session) {asset : Nat} {k : Nat × Nat} (hk : k.1 ≠ asset) :
    k ∈ (Asset.map id s asset).relation ↔ k ∈ s.relation := by
  have hstep : ∀ (s : Session) (g : Nat),
      (k ∈ (Asset.mapAlgorithm id asset s g).relation ↔ k ∈ s.relation) := by
    intro s g
    unfold Asset.mapAlgorithm
    dsimp only [id]
    split
    · have hne : k ≠ (asset, g) := fun he => hk (congrArg Prod.fst he)
      simp [Session.relation, Session.relate, hne]
    · rfl
  have hloop : ∀ (gs : List Nat) (s : Session),
      (k ∈ (gs.foldl (Asset.mapAlgorithm id asset) s).relation ↔ k ∈ s.relation) := by
    intro gs
    induction gs with
    | nil => exact fun _ => Iff.rfl
    | cons g rest ih => exact fun s => (ih _).trans (hstep s g)
  refine (hloop _ _).trans ?_
  simp [Session.relation, Session.clearAsset, hk]

theorem Db.eq_of_rows {db db' : Db}
    (hrows : { db with algoAssetMapping := ∅ } = { db' with algoAssetMapping := ∅ })
    (hmapping : db.algoAssetMapping = db'.algoAssetMapping) : db = db' := by
  have hback : ∀ d : Db, d =
      { ({ d with algoAssetMapping := ∅ } : Db) with algoAssetMapping := d.algoAssetMapping } :=
    fun _ => rfl
  rw [hback db, hback db', hrows, hmapping]

/-- The first commit of an edit changes nothing exactly if the attributes are those of before
and the mapping of the asset is right. -/
theorem Session.edited_commit_eq_iff (loads : Nat → Bool) {db : Db} {assets : Table Asset Asset.id}
    {asset : Nat} :
    (Session.edited loads db assets asset).commit.db = db ↔
      assets = db.assets ∧ db.MappedRight asset := by
  have hrows := (Session.edited loads db assets asset).rows_commit
  obtain ⟨-, hmapped⟩ := (Session.edited loads db assets asset).flush_remapped
  have hright : ∀ x, (Session.edited loads db assets asset).related (asset, x) ↔
      ∃ g ∈ db.algorithms.rows, g.id = x ∧ db.MapsTo asset g := by
    intro x
    have hmaps : ∀ g ∈ db.algorithms.rows,
        ((Session.edited loads db assets asset).related (asset, g.id) ↔ db.MapsTo asset g) := by
      intro g hg
      rw [Session.related_iff (s := Session.edited loads db assets asset) hg]
      simp only [Session.mem_getPointTypes, Db.MapsTo]
      simp [Session.edited, Session.start, Db.pointsOf]
    constructor
    · intro h
      obtain ⟨g, hg, rfl⟩ := List.mem_map.mp (Session.mem_of_isMapped h.1)
      exact ⟨g, hg, rfl, (hmaps g hg).mp h⟩
    · rintro ⟨g, hg, rfl, h⟩
      exact (hmaps g hg).mpr h
  have hothers : ∀ k : Nat × Nat, k.1 ≠ asset →
      (k ∈ (Session.edited loads db assets asset).commit.db.algoAssetMapping ↔
        k ∈ db.algoAssetMapping) :=
    fun k hk => Session.map_other (Session.edited loads db assets asset) hk
  have hown : ∀ x, (asset, x) ∈ (Session.edited loads db assets asset).commit.db.algoAssetMapping ↔
      ∃ g ∈ db.algorithms.rows, g.id = x ∧ db.MapsTo asset g :=
    fun x => (hmapped asset (List.mem_singleton_self asset) x).trans (hright x)
  constructor
  · intro h
    refine ⟨?_, ?_⟩
    · have hassets : (Session.edited loads db assets asset).commit.db.assets = assets :=
        (congrArg Db.assets hrows :)
      rw [← hassets, h]
    · intro x
      rw [← hown x, h]
  · rintro ⟨rfl, hmapping⟩
    refine Db.eq_of_rows hrows ?_
    ext ⟨a, x⟩
    by_cases ha : a = asset
    · subst ha
      exact (hown x).trans (hmapping x).symm
    · exact hothers (a, x) ha

theorem addAsset_atomic_iff (loads : Nat → Bool) (db : Db) (sitename : String) (form : AssetForm) :
    (AssetRequest.raises db (loads, .add sitename form) = true →
      addAsset loads db sitename form = db) ↔
    (form.addable db sitename = true → form.reads db = true) := by
  have hcreate := createAsset_spec loads db sitename form
  unfold AssetRequest.raises addAsset
  split at hcreate
  · next hadd =>
    obtain ⟨s, site, type, hs, hdb⟩ := hcreate
    have hlookups : SameLookups db s.commit := SameLookups.commit (congrArg Db.lookups hdb :)
    have hsome : (addDetails db.assets.nextKey form s.commit).isSome ↔ form.reads db = true :=
      hlookups.addDetails_isSome_iff
    rw [← hsome]
    simp only [hs, hadd, forall_const]
    cases hd : addDetails db.assets.nextKey form s.commit with
    | some s' => simp
    | none =>
      -- the new asset is there, without anything else of the form
      refine iff_of_false ?_ (by simp)
      intro h
      have hassets : s.commit.db.assets = s.db.assets := (congrArg Db.assets s.rows_commit :)
      have hlength := congrArg (fun d : Db => d.assets.rows.length) (h rfl)
      simp [hassets, hdb] at hlength
  · next hadd =>
    simp only [hcreate, implies_true, true_iff]
    exact fun h => absurd h hadd

theorem editAsset_atomic_iff (loads : Nat → Bool) (db : Db) (sitename : String) (assetId : Nat)
    (form : AssetForm) :
    (AssetRequest.raises db (loads, .edit sitename assetId form) = true →
      editAsset loads db sitename assetId form = db) ↔
    (form.accepted db sitename assetId = true → (form.planDetails db assetId).isSome ∨
      form.SameAttributes db assetId ∧ db.MappedRight assetId) := by
  have hattributes := editAttributes_eq loads db sitename assetId form
  unfold AssetRequest.raises editAsset
  split at hattributes
  · next haccepted =>
    obtain ⟨type, priority, htype, hpriority, -, hs⟩ := hattributes
    have hattributes : form.SameAttributes db assetId ↔
        db.assets.update (fun a => a.id == assetId) (form.setAttributes type.id priority)
          (form.setAttributes_id type.id priority) = db.assets := by
      rw [Table.update_eq_self_iff]
      simp only [AssetForm.SameAttributes, htype, hpriority, Option.some.injEq, beq_iff_eq]
      constructor
      · rintro ⟨_, _, rfl, rfl, hsame⟩
        exact hsame
      · intro hsame
        exact ⟨type, priority, rfl, rfl, hsame⟩
    have hids := Table.keys_update db.assets (fun a => a.id == assetId)
      (form.setAttributes type.id priority) (form.setAttributes_id type.id priority)
    have hrel : Option.Rel _ (editDetails assetId form (Session.edited loads db _ assetId).commit)
        (form.planDetails db assetId) := editDetails_rel (Follows.edited loads hids assetId).commit
    rw [hattributes, ← Session.edited_commit_eq_iff loads]
    simp only [hs, haccepted, forall_const]
    generalize editDetails assetId form (Session.edited loads db _ assetId).commit = details at hrel ⊢
    generalize form.planDetails db assetId = planned at hrel ⊢
    cases hrel with
    | none => simp
    | some _ => simp
  · next haccepted =>
    simp only [hattributes, implies_true, true_iff]
    exact fun h => absurd h haccepted

/-- A request that raises leaves the database as it was exactly if its form can be read to the
end, or its first commit is not reached or has nothing new. -/
theorem AssetRequest.atomic_iff (db : Db) (r : (Nat → Bool) × AssetRequest) :
    (AssetRequest.raises db r = true → AssetRequest.run db r = db) ↔ r.2.Whole db := by
  obtain ⟨loads, r⟩ := r
  cases r with
  | add sitename form => exact addAsset_atomic_iff loads db sitename form
  | edit sitename assetId form => exact editAsset_atomic_iff loads db sitename assetId form
  | delete assetId =>
    refine iff_of_true ?_ trivial
    intro h
    have hnone : db.assets.one? (fun a => a.id == assetId) = none := by
      simpa [AssetRequest.raises] using h
    simp [AssetRequest.run, deleteAsset, hnone]

def strayForm (name : String) : AssetForm :=
  { fanForm (fun i => if i = 1 then ⟨none, some "fan speed", some ""⟩ else noField) with name := name }

/-- With the attributes of before the exception leaves the database as it was. -/
theorem AssetRequest.atomic_iff_fanPlant :
    AssetRequest.raises fanPlant (fun _ => true, .edit "plant" 1 (strayForm "fan unit")) = true ∧
      AssetRequest.run fanPlant (fun _ => true, .edit "plant" 1 (strayForm "fan unit")) =
        fanPlant := by
  have hraises : AssetRequest.raises fanPlant
      (fun _ => true, .edit "plant" 1 (strayForm "fan unit")) = true := by
    decide +kernel
  refine ⟨hraises, (AssetRequest.atomic_iff fanPlant _).mpr ?_ hraises⟩
  intro _
  refine Or.inr ⟨⟨⟨1, "fan"⟩, 1, by decide, rfl, by decide⟩, ?_⟩
  have hcorrect := fanPlant_mappingCorrect fanUnit List.mem_cons_self fanCheck List.mem_cons_self
  intro x
  constructor
  · intro hx
    obtain rfl : x = 1 := congrArg Prod.snd (Finset.mem_singleton.mp hx)
    exact ⟨fanCheck, List.mem_cons_self, rfl, hcorrect.mp hx⟩
  · rintro ⟨g, hg, rfl, hmaps⟩
    obtain rfl := List.mem_singleton.mp hg
    exact hcorrect.mpr hmaps

/-- The addition leaves an asset that has no point, and the edit one that has a new name and
its old point. Both raise. -/
theorem requests_leave_first_commit :
    AssetRequest.raises fanPlant (fun _ => true, .add "plant" (strayForm "spare fan")) = true ∧
    ((AssetRequest.run fanPlant (fun _ => true, .add "plant" (strayForm "spare fan"))).assets.rows.map
        (fun a => (a.id, a.name)) = [(1, "fan unit"), (2, "spare fan")]) ∧
    (AssetRequest.run fanPlant (fun _ => true, .add "plant" (strayForm "spare fan"))).pointsOf 2 = [] ∧
    AssetRequest.raises fanPlant (fun _ => true, .edit "plant" 1 (strayForm "spare fan")) = true ∧
    (AssetRequest.run fanPlant (fun _ => true, .edit "plant" 1 (strayForm "spare fan"))).assets.rows =
      [{ fanUnit with name := "spare fan" }] ∧
    (AssetRequest.run fanPlant (fun _ => true, .edit "plant" 1 (strayForm "spare fan"))).assetPoints.rows =
      fanPlant.assetPoints.rows := by
  decide +kernel

end Medusa
