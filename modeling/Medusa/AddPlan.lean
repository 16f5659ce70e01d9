import Medusa.EditPlan

/-! What a form asks of an addition, read against the database before the request. The new
asset is committed first, and its points and descriptors after that. -/

namespace Medusa

open Relational

namespace AssetForm

def addable (form : AssetForm) (db : Db) (sitename : String) : Bool :=
  (db.sites.one? (fun s => s.name == sitename)).isSome && form.valid &&
    (db.assetTypes.one? (fun t => t.name == form.type)).isSome

def readsField (form : AssetForm) (db : Db) (i : Nat) : Bool :=
  match (form.fields i).point with
  | none => true
  | some name => (db.pointTypes.one? (fun t => t.name == name)).isSome &&
      (form.fields i).log == some ""

def readsFunction (db : Db) (name : String) : Bool :=
  name == "" || (db.functionalDescriptors.one? (fun f => f.name == name)).isSome

def reads (form : AssetForm) (db : Db) : Bool :=
  (List.range' 1 99).all (form.readsField db) && form.functions.all (readsFunction db)

end AssetForm

def SameLookups (db : Db) (s : Session) : Prop := s.db.lookups = db.lookups

namespace SameLookups

variable {db : Db} {asset : Nat} {form : AssetForm} {s : Session}

theorem of_store {s' : Session} (h : SameLookups db s) (hstore : s'.store.1 = s.store.1) :
    SameLookups db s' := by
  have hlookups : s'.store.1.lookups = s.store.1.lookups := by rw [hstore]
  exact hlookups.trans h

theorem access (h : SameLookups db s) : SameLookups db s.access := h.of_store s.rows_access

theorem commit (h : SameLookups db s) : SameLookups db s.commit := h.of_store s.rows_commit

theorem fieldRule : FieldRule asset form (SameLookups db) :=
  FieldRule.of_assignLog SameLookups.access (fun _ _ h => h) (fun _ _ h => h)

theorem addField_isSome_iff (i : Nat) (h : SameLookups db s) :
    (addField asset form s i).isSome ↔ form.readsField db i = true := by
  have htypes : s.access.db.pointTypes = db.pointTypes := (congrArg Db.pointTypes h.access :)
  unfold addField AssetForm.readsField
  cases (form.fields i).point with
  | none => simp
  | some name =>
    simp only [htypes]
    cases db.pointTypes.one? (fun t => t.name == name) with
    | none => simp
    | some type => by_cases hlog : (form.fields i).log = some "" <;> simp [hlog]

theorem setFunction_isSome_iff (name : String) (h : SameLookups db s) :
    (setFunction asset s name).isSome ↔ AssetForm.readsFunction db name = true := by
  have hlookup : s.access.db.functionalDescriptors = db.functionalDescriptors :=
    (congrArg Db.functionalDescriptors h.access :)
  unfold setFunction AssetForm.readsFunction
  by_cases hname : name = ""
  · simp [hname]
  · rw [if_neg hname, hlookup]
    cases db.functionalDescriptors.one? (fun f => f.name == name) <;> simp [hname]

/-- The second part of an addition does not raise exactly if the form can be read. -/
theorem addDetails_isSome_iff (h : SameLookups db s) :
    (addDetails asset form s).isSome ↔ form.reads db = true := by
  have hfields : ((List.range' 1 99).foldlM (addField asset form) s).isSome ↔
      ∀ i ∈ List.range' 1 99, form.readsField db i = true :=
    foldlM_isSome_iff (fun s i hs => hs.addField_isSome_iff i) fieldRule.addField h
  have hfunctions : ∀ {s : Session}, SameLookups db s →
      ((form.functions.foldlM (setFunction asset) s).isSome ↔
        ∀ name ∈ form.functions, AssetForm.readsFunction db name = true) := by
    intro s hs
    exact foldlM_isSome_iff (fun s name hs => hs.setFunction_isSome_iff name)
      (setFunction_keeps (P := SameLookups db) SameLookups.access (fun _ h => h)) hs
  unfold addDetails AssetForm.reads
  rw [Bool.and_eq_true, List.all_eq_true, List.all_eq_true, ← hfields]
  cases hs₁ : (List.range' 1 99).foldlM (addField asset form) s with
  | none => simp
  | some s₁ =>
    have h₁ : SameLookups db s₁ := foldlM_keeps fieldRule.addField hs₁ h
    rw [← hfunctions h₁]
    cases hs₂ : form.functions.foldlM (setFunction asset) s₁ <;> simp [hs₂]

end SameLookups

theorem createAsset_spec (loads : Nat → Bool) (db : Db) (sitename : String) (form : AssetForm) :
    if form.addable db sitename then
      ∃ s site type, createAsset loads db sitename form = some s ∧ s.db = { db with
        assets := db.assets.insert (form.newAsset site type) (form.newAsset_id site type) }
    else createAsset loads db sitename form = none := by
  unfold AssetForm.addable createAsset
  cases db.sites.one? (fun s => s.name == sitename) with
  | none => rfl
  | some site =>
    cases form.valid with
    | false => rfl
    | true =>
      cases db.assetTypes.one? (fun t => t.name == form.type) with
      | none => rfl
      | some type => exact ⟨_, site.id, type.id, rfl, rfl⟩

end Medusa
