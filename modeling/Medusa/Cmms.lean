import Medusa.Model
import Medusa.Upsert

/-! `inbuildings_asset_request`: the equipment list that Inbuildings has for a site is
copied into the table of Inbuildings assets. -/

namespace Medusa

open Relational

/-- Every row has a site, since a row that is taken from its site is deleted. -/
structure InbuildingsAsset where
  id : Nat
  name : String
  location : String
  group : String
  siteId : Nat
  assetId : Option Nat
deriving DecidableEq

structure CmmsDb where
  assets : Table Asset Asset.id
  inbuildingsAssets : Table InbuildingsAsset InbuildingsAsset.id

/-- An entry of the response. -/
structure Equipment where
  eid : Nat
  name : String
  location : String
  group : String
deriving DecidableEq

namespace InbuildingsAsset

def new (eid site : Nat) : InbuildingsAsset := ⟨eid, "", "", "", site, none⟩

def describe (item : Equipment) (r : InbuildingsAsset) : InbuildingsAsset :=
  { r with name := item.name, location := item.location, group := item.group }

def link (asset : Option Nat) (r : InbuildingsAsset) : InbuildingsAsset := { r with assetId := asset }

theorem describe_id (item : Equipment) (r : InbuildingsAsset) : (r.describe item).id = r.id := rfl

theorem link_id (asset : Option Nat) (r : InbuildingsAsset) : (r.link asset).id = r.id := rfl

/-- The row without its link to an asset of Medusa. -/
def unlinked (r : InbuildingsAsset) : InbuildingsAsset := r.link none

end InbuildingsAsset

namespace CmmsDb

def setLink (db : CmmsDb) (id : Nat) (asset : Option Nat) : CmmsDb :=
  { db with
    inbuildingsAssets := db.inbuildingsAssets.update (fun r => r.id == id)
      (InbuildingsAsset.link asset) (InbuildingsAsset.link_id asset) }

/-- `asset.inbuildings`, one of the rows that are linked to the asset. -/
def inbuildingsOf (db : CmmsDb) (order : IterationOrder InbuildingsAsset) (asset : Nat) :
    Option InbuildingsAsset :=
  (order.visit (db.inbuildingsAssets.rows.filter (fun r => r.assetId == some asset))).head?

/-- The relationship is one to one: the row that held the asset before is released. -/
def link (db : CmmsDb) (order : IterationOrder InbuildingsAsset) (id asset : Nat) : CmmsDb :=
  match db.inbuildingsOf order asset with
  | none => db.setLink id (some asset)
  | some holder => (db.setLink holder.id none).setLink id (some asset)

def store (db : CmmsDb) (site : Nat) (item : Equipment) : CmmsDb :=
  { db with
    inbuildingsAssets := db.inbuildingsAssets.upsert (.new item.eid site)
      (InbuildingsAsset.describe item) (InbuildingsAsset.describe_id item) }

/-- A row that has no asset is linked to the first asset of the site with its name. -/
def matchAsset (db : CmmsDb) (order : IterationOrder InbuildingsAsset) (site : Nat)
    (item : Equipment) : CmmsDb :=
  match db.assets.first? (fun a => a.name == item.name && a.siteId == site),
    db.inbuildingsAssets.get? item.eid with
  | some asset, some row => if row.assetId.isNone then db.link order item.eid asset.id else db
  | _, _ => db

def sync (order : IterationOrder InbuildingsAsset) (site : Nat) (db : CmmsDb) (item : Equipment) :
    CmmsDb :=
  (db.store site item).matchAsset order site item

/-- The rows of the site from before the loop that it did not come to. -/
def sweep (db : CmmsDb) (previous current : List Nat) : CmmsDb :=
  { db with
    inbuildingsAssets := db.inbuildingsAssets.delete (fun r =>
      decide (r.id ∈ previous) && !decide (r.id ∈ current)) }

def previousAssets (db : CmmsDb) (site : Nat) : List Nat :=
  (db.inbuildingsAssets.rows.filter (fun r => r.siteId == site)).map InbuildingsAsset.id

def receive (db : CmmsDb) (order : IterationOrder InbuildingsAsset) (site : Nat)
    (response : List Equipment) : CmmsDb :=
  (response.foldl (CmmsDb.sync order site) db).sweep (db.previousAssets site)
    (response.map Equipment.eid)

end CmmsDb

/-- The response is `none` if there is no connection. A site without settings for
Inbuildings has no key, and reading it raises. -/
def inbuildingsAssetRequest (db : CmmsDb) (site : Site) (order : IterationOrder InbuildingsAsset)
    (response : Option (List Equipment)) : Option CmmsDb := do
  let _ ← site.inbuildingsConfig
  match response with
  | none => pure db
  | some response => pure (db.receive order site.id response)

namespace CmmsDb

variable {order : IterationOrder InbuildingsAsset}

/-- What is stored under an id, apart from the link. -/
def listed (db : CmmsDb) (k : Nat) : Option InbuildingsAsset :=
  (db.inbuildingsAssets.get? k).map InbuildingsAsset.unlinked

theorem get?_setLink (db : CmmsDb) (id : Nat) (asset : Option Nat) (k : Nat) :
    (db.setLink id asset).inbuildingsAssets.get? k =
      if id = k then (db.inbuildingsAssets.get? k).map (InbuildingsAsset.link asset)
      else db.inbuildingsAssets.get? k := by
  split
  · next h =>
    subst h
    exact Table.get?_update (InbuildingsAsset.link_id asset) id
  · next h =>
    refine Table.get?_update_of_ne (InbuildingsAsset.link_id asset) ?_
    intro r _ hr hk
    exact h ((beq_iff_eq.mp hr).symm.trans hk)

theorem listed_setLink (db : CmmsDb) (id : Nat) (asset : Option Nat) (k : Nat) :
    (db.setLink id asset).listed k = db.listed k := by
  unfold listed
  rw [get?_setLink]
  split
  · rw [Option.map_map]
    rfl
  · rfl

theorem listed_link (db : CmmsDb) (id asset k : Nat) :
    (db.link order id asset).listed k = db.listed k := by
  unfold link
  split
  · exact listed_setLink _ _ _ _
  · rw [listed_setLink, listed_setLink]

theorem listed_sync (site : Nat) (db : CmmsDb) (item : Equipment) (k : Nat) :
    (db.sync order site item).listed k =
      if item.eid = k then some (((db.listed k).getD (.new item.eid site)).describe item)
      else db.listed k := by
  have hmatch : (db.sync order site item).listed k = (db.store site item).listed k := by
    unfold sync matchAsset
    split
    · split
      · exact listed_link _ _ _ _
      · rfl
    · rfl
  rw [hmatch, listed, store, Table.get?_upsert]
  have hkey : (InbuildingsAsset.new item.eid site).id = item.eid := rfl
  rw [hkey]
  split
  · unfold listed
    cases db.inbuildingsAssets.get? k <;> rfl
  · rfl

/-- The rows under an eid are those of the site, if there are any. -/
def OwnAt (db : CmmsDb) (site k : Nat) : Prop := ∀ r, db.listed k = some r → r.siteId = site

theorem OwnAt.sync {db : CmmsDb} {site k : Nat} (h : db.OwnAt site k)
    (order : IterationOrder InbuildingsAsset) (item : Equipment) :
    (db.sync order site item).OwnAt site k := by
  intro r hr
  rw [listed_sync] at hr
  split at hr
  · obtain rfl := Option.some.inj hr
    cases hk : db.listed k with
    | none => rfl
    | some r₀ => exact h r₀ hk
  · exact h r hr

theorem OwnAt.foldl {db : CmmsDb} {site k : Nat} (h : db.OwnAt site k)
    (order : IterationOrder InbuildingsAsset) (items : List Equipment) :
    (items.foldl (CmmsDb.sync order site) db).OwnAt site k := by
  induction items generalizing db with
  | nil => exact h
  | cons item rest ih => exact ih (h.sync order item)

theorem listed_foldl_of_ne (order : IterationOrder InbuildingsAsset) (db : CmmsDb) (site : Nat)
    {items : List Equipment} {k : Nat} (h : ∀ item ∈ items, item.eid ≠ k) :
    (items.foldl (CmmsDb.sync order site) db).listed k = db.listed k := by
  induction items generalizing db with
  | nil => rfl
  | cons item rest ih =>
    rw [List.foldl_cons, ih _ (fun i hi => h i (List.mem_cons_of_mem _ hi)), listed_sync,
      if_neg (h item List.mem_cons_self)]

end CmmsDb

/-- The row of an entry, without a link. -/
def Equipment.row (item : Equipment) (site : Nat) : InbuildingsAsset :=
  (InbuildingsAsset.new item.eid site).describe item

namespace CmmsDb

variable {order : IterationOrder InbuildingsAsset}

theorem listed_foldl_last {db : CmmsDb} {site : Nat} {before after : List Equipment}
    {item : Equipment} (hown : db.OwnAt site item.eid) (hafter : ∀ i ∈ after, i.eid ≠ item.eid) :
    ((before ++ item :: after).foldl (CmmsDb.sync order site) db).listed item.eid =
      some (item.row site) := by
  rw [List.foldl_append, List.foldl_cons, listed_foldl_of_ne order _ _ hafter, listed_sync, if_pos rfl]
  congr 1
  -- the row that is rewritten is of the site, be it new or not
  have hbefore := hown.foldl order before
  generalize before.foldl (CmmsDb.sync order site) db = middle at hbefore
  cases hk : middle.listed item.eid with
  | none => rfl
  | some r =>
    have hsite := hbefore r hk
    obtain ⟨r₀, hr₀, rfl⟩ := Option.map_eq_some_iff.mp hk
    have hid := (Table.get?_eq_some.mp hr₀).2
    obtain ⟨id, name, location, group, siteId, assetId⟩ := r₀
    simp only [InbuildingsAsset.unlinked, InbuildingsAsset.link] at hsite hid
    simp only [Option.getD_some, InbuildingsAsset.unlinked, InbuildingsAsset.link,
      InbuildingsAsset.describe, Equipment.row, InbuildingsAsset.new, hsite, hid]

theorem get?_sweep (db : CmmsDb) (previous current : List Nat) (k : Nat) :
    (db.sweep previous current).inbuildingsAssets.get? k =
      if k ∈ previous ∧ k ∉ current then none else db.inbuildingsAssets.get? k := by
  have h := db.inbuildingsAssets.get?_delete_key
    (fun k => decide (k ∈ previous) && !decide (k ∈ current)) k
  simpa only [sweep, Bool.and_eq_true, decide_eq_true_eq, Bool.not_eq_true', decide_eq_false_iff_not]
    using h

@[simp] theorem sync_assets (db : CmmsDb) (site : Nat) (item : Equipment) :
    (db.sync order site item).assets = db.assets := by
  unfold sync matchAsset link
  split
  · split
    · split <;> rfl
    · rfl
  · rfl

/-- The row is linked to an asset of the site that has one of the names. -/
def HoldsAsset (db : CmmsDb) (site : Nat) (names : List String) (r : InbuildingsAsset) : Prop :=
  ∃ a ∈ db.assets.rows, a.siteId = site ∧ a.name ∈ names ∧ r.assetId = some a.id

/-- A row under another eid stays as it is or is released. -/
theorem get?_sync_of_ne (order : IterationOrder InbuildingsAsset) {db : CmmsDb} {site k : Nat}
    {item : Equipment} {r : InbuildingsAsset} (hk : item.eid ≠ k)
    (hr : db.inbuildingsAssets.get? k = some r) :
    ∃ r', (db.sync order site item).inbuildingsAssets.get? k = some r' ∧
      (r' = r ∨ (r' = r.unlinked ∧ db.HoldsAsset site [item.name] r)) := by
  have hstore : (db.store site item).inbuildingsAssets.get? k = some r := by
    rw [store, Table.get?_upsert]
    exact (if_neg hk).trans hr
  unfold sync matchAsset
  split
  · next asset row hasset hrow =>
    split
    · obtain ⟨hmem, hfound⟩ := Table.mem_of_first? hasset
      simp only [Bool.and_eq_true, beq_iff_eq] at hfound
      unfold link
      split
      · exact ⟨r, by rw [get?_setLink, if_neg hk, hstore], Or.inl rfl⟩
      · next holder hholder =>
        rw [get?_setLink, if_neg hk, get?_setLink]
        by_cases hid : holder.id = k
        · have hheld := List.mem_of_mem_head? hholder
          rw [(order.perm _).mem_iff, List.mem_filter, beq_iff_eq] at hheld
          obtain rfl : holder = r := Option.some.inj
            ((Table.get?_eq_some.mpr ⟨hheld.1, hid⟩).symm.trans hstore)
          refine ⟨holder.unlinked, by rw [if_pos hid, hstore]; rfl, Or.inr ⟨rfl, asset, hmem, ?_⟩⟩
          exact ⟨hfound.2, by simp [hfound.1], hheld.2⟩
        · exact ⟨r, by rw [if_neg hid, hstore], Or.inl rfl⟩
    · exact ⟨r, hstore, Or.inl rfl⟩
  · exact ⟨r, hstore, Or.inl rfl⟩

theorem get?_foldl_of_ne {site k : Nat} {items : List Equipment} (hk : ∀ i ∈ items, i.eid ≠ k)
    {db : CmmsDb} {r : InbuildingsAsset} (hr : db.inbuildingsAssets.get? k = some r) :
    ∃ r', (items.foldl (CmmsDb.sync order site) db).inbuildingsAssets.get? k = some r' ∧
      (r' = r ∨ (r' = r.unlinked ∧ db.HoldsAsset site (items.map Equipment.name) r)) := by
  induction items generalizing db r with
  | nil => exact ⟨r, hr, Or.inl rfl⟩
  | cons item rest ih =>
    obtain ⟨r₁, hr₁, hfirst⟩ := get?_sync_of_ne order (hk item List.mem_cons_self) hr
    obtain ⟨r', hr', hrest⟩ := ih (fun i hi => hk i (List.mem_cons_of_mem _ hi)) hr₁
    refine ⟨r', hr', ?_⟩
    rcases hfirst with rfl | ⟨rfl, a, ha, hsite, hname, hlink⟩
    · rcases hrest with rfl | ⟨rfl, a, ha, hsite, hname, hlink⟩
      · exact Or.inl rfl
      · exact Or.inr ⟨rfl, a, by simpa using ha, hsite, List.mem_cons_of_mem _ hname, hlink⟩
    · -- a row that was released holds nothing any more
      rcases hrest with rfl | ⟨-, a', -, -, -, hlink'⟩
      · refine Or.inr ⟨rfl, a, ha, hsite, ?_, hlink⟩
        rw [List.mem_singleton.mp hname]
        exact List.mem_cons_self
      · exact absurd hlink' (by simp [InbuildingsAsset.unlinked, InbuildingsAsset.link])

theorem mem_previousAssets {db : CmmsDb} {site k : Nat} :
    k ∈ db.previousAssets site ↔ ∃ r, db.inbuildingsAssets.get? k = some r ∧ r.siteId = site := by
  simp only [previousAssets, List.mem_map, List.mem_filter, beq_iff_eq, Table.get?_eq_some]
  constructor
  · rintro ⟨r, ⟨hr, hsite⟩, hid⟩
    exact ⟨r, ⟨hr, hid⟩, hsite⟩
  · rintro ⟨r, ⟨hr, hid⟩, hsite⟩
    exact ⟨r, ⟨hr, hsite⟩, hid⟩

theorem listed_receive_last (order : IterationOrder InbuildingsAsset) {db : CmmsDb} {site : Nat}
    (before : List Equipment) {item : Equipment} {after : List Equipment}
    (hown : db.OwnAt site item.eid) (hafter : ∀ i ∈ after, i.eid ≠ item.eid) :
    (db.receive order site (before ++ item :: after)).listed item.eid = some (item.row site) := by
  rw [listed, receive, get?_sweep, if_neg]
  · exact listed_foldl_last hown hafter
  · simp

/-- Of the rows that the response does not name those of the site are deleted, and the
others stay, except that they may be released. -/
theorem get?_receive_of_ne (order : IterationOrder InbuildingsAsset) {db : CmmsDb}
    {site k : Nat} {response : List Equipment} (hk : ∀ i ∈ response, i.eid ≠ k) {r : InbuildingsAsset}
    (hr : db.inbuildingsAssets.get? k = some r) (hsite : r.siteId ≠ site) :
    ∃ r', (db.receive order site response).inbuildingsAssets.get? k = some r' ∧
      (r' = r ∨ (r' = r.unlinked ∧ db.HoldsAsset site (response.map Equipment.name) r)) := by
  have hprevious : k ∉ db.previousAssets site := by
    intro h
    obtain ⟨r₀, hr₀, hown⟩ := mem_previousAssets.mp h
    obtain rfl := Option.some.inj (hr₀.symm.trans hr)
    exact hsite hown
  rw [receive, get?_sweep, if_neg (fun h => hprevious h.1)]
  exact get?_foldl_of_ne hk hr

theorem listed_receive_of_ne (order : IterationOrder InbuildingsAsset) {db : CmmsDb}
    {site k : Nat} {response : List Equipment} (hk : ∀ i ∈ response, i.eid ≠ k) :
    (db.receive order site response).listed k =
      if k ∈ db.previousAssets site then none else db.listed k := by
  have hcurrent : k ∉ response.map Equipment.eid := by
    intro h
    obtain ⟨i, hi, he⟩ := List.mem_map.mp h
    exact hk i hi he
  rw [← listed_foldl_of_ne order db site hk, listed, receive, get?_sweep]
  by_cases hprevious : k ∈ db.previousAssets site
  · rw [if_pos ⟨hprevious, hcurrent⟩, if_pos hprevious]
    rfl
  · rw [if_neg (fun h => hprevious h.1), if_neg hprevious]
    rfl

theorem listed_eq_some {db : CmmsDb} {k : Nat} {r : InbuildingsAsset} :
    db.listed k = some r ↔
      ∃ r₀ ∈ db.inbuildingsAssets.rows, r₀.id = k ∧ r₀.unlinked = r := by
  simp only [listed, Option.map_eq_some_iff, Table.get?_eq_some, and_assoc]

theorem not_mem_previousAssets_receive (order : IterationOrder InbuildingsAsset) {db : CmmsDb}
    {site k : Nat} {response : List Equipment} (hk : ∀ i ∈ response, i.eid ≠ k) :
    k ∉ (db.receive order site response).previousAssets site := by
  intro h
  obtain ⟨r, hr, hsite⟩ := mem_previousAssets.mp h
  have hlisted : (db.receive order site response).listed k = some r.unlinked := by
    rw [listed, hr]
    rfl
  rw [listed_receive_of_ne order hk] at hlisted
  split at hlisted
  · simp at hlisted
  · next hprevious =>
    obtain ⟨r₀, hr₀, he⟩ := Option.map_eq_some_iff.mp hlisted
    have hsame : r₀.unlinked.siteId = r.unlinked.siteId := congrArg InbuildingsAsset.siteId he
    exact hprevious (mem_previousAssets.mpr ⟨r₀, hr₀, hsame.trans hsite⟩)

/-- A row after the request is the row of the last entry with its eid, or a row of another
site that was there before. -/
theorem mem_receive {db : CmmsDb} {site : Nat} {response : List Equipment}
    (hown : ∀ i ∈ response, db.OwnAt site i.eid) {r : InbuildingsAsset}
    (hr : r ∈ (db.receive order site response).inbuildingsAssets.rows) :
    (∃ before item after, response = before ++ item :: after ∧ item.eid = r.id ∧
      (∀ later ∈ after, later.eid ≠ r.id) ∧ r.unlinked = item.row site) ∨
    (r.siteId ≠ site ∧ ∃ r₀ ∈ db.inbuildingsAssets.rows, r₀.unlinked = r.unlinked) := by
  have hlisted : (db.receive order site response).listed r.id = some r.unlinked :=
    listed_eq_some.mpr ⟨r, hr, rfl, rfl⟩
  by_cases hk : ∃ i ∈ response, i.eid = r.id
  · obtain ⟨before, item, after, rfl, he, hafter⟩ := exists_last hk
    rw [← he, listed_receive_last order before (hown item (by simp)) (he ▸ hafter)] at hlisted
    exact Or.inl ⟨before, item, after, rfl, he, hafter, (Option.some.inj hlisted).symm⟩
  · have hne : ∀ i ∈ response, i.eid ≠ r.id := fun i hi he => hk ⟨i, hi, he⟩
    refine Or.inr ⟨fun hsite => not_mem_previousAssets_receive order hne
      (mem_previousAssets.mpr ⟨r, Table.get?_eq_some.mpr ⟨hr, rfl⟩, hsite⟩), ?_⟩
    rw [listed_receive_of_ne order hne] at hlisted
    split at hlisted
    · simp at hlisted
    · obtain ⟨r₀, hr₀, -, he⟩ := listed_eq_some.mp hlisted
      exact ⟨r₀, hr₀, he⟩

/-- A second request with the same response finds what it would write. -/
theorem listed_receive_again {db : CmmsDb} {site : Nat} {response : List Equipment}
    (hown : ∀ i ∈ response, db.OwnAt site i.eid) (order' : IterationOrder InbuildingsAsset)
    (k : Nat) :
    ((db.receive order site response).receive order' site response).listed k =
      (db.receive order site response).listed k := by
  by_cases hk : ∃ i ∈ response, i.eid = k
  · obtain ⟨before, item, after, rfl, rfl, hafter⟩ := exists_last hk
    have hfirst := listed_receive_last order before (hown item (by simp)) hafter
    have hown' : (db.receive order site (before ++ item :: after)).OwnAt site item.eid := by
      intro r hr
      obtain rfl := Option.some.inj (hfirst.symm.trans hr)
      rfl
    rw [listed_receive_last order' before hown' hafter, hfirst]
  · have hne : ∀ i ∈ response, i.eid ≠ k := fun i hi he => hk ⟨i, hi, he⟩
    rw [listed_receive_of_ne order' hne, if_neg (not_mem_previousAssets_receive order hne)]

end CmmsDb

/-- After a request the rows of the site are those of the response, each as in its last
entry. The rows of other sites keep all they have from Inbuildings, and also their asset
unless it is one of this site that the response names. -/
theorem inbuildingsAssetRequest_syncs {db : CmmsDb} {site : Site} {response : List Equipment}
    (order : IterationOrder InbuildingsAsset) (hconfig : site.inbuildingsConfig.isSome = true)
    (hown : ∀ item ∈ response, ∀ r ∈ db.inbuildingsAssets.rows, r.id = item.eid →
      r.siteId = site.id) :
    (∃ db', inbuildingsAssetRequest db site order (some response) = some db' ∧
      (∀ item ∈ response, ∃ r ∈ db'.inbuildingsAssets.rows, r.siteId = site.id ∧
        r.id = item.eid) ∧
      (∀ r ∈ db'.inbuildingsAssets.rows, r.siteId = site.id →
        ∃ before item after, response = before ++ item :: after ∧ item.eid = r.id ∧
          (∀ later ∈ after, later.eid ≠ r.id) ∧
          r.name = item.name ∧ r.location = item.location ∧ r.group = item.group) ∧
      (∀ r ∈ db.inbuildingsAssets.rows, r.siteId ≠ site.id →
        r ∈ db'.inbuildingsAssets.rows ∨ (r.unlinked ∈ db'.inbuildingsAssets.rows ∧
          db.HoldsAsset site.id (response.map Equipment.name) r)) ∧
      (∀ r ∈ db'.inbuildingsAssets.rows, r.siteId ≠ site.id →
        ∃ r₀ ∈ db.inbuildingsAssets.rows, r₀.unlinked = r.unlinked) ∧
      ∀ order', ∃ db'', inbuildingsAssetRequest db' site order' (some response) = some db'' ∧
        ∀ k, db''.listed k = db'.listed k) ∧
    inbuildingsAssetRequest db site order none = some db := by
  obtain ⟨config, hconfig⟩ := Option.isSome_iff_exists.mp hconfig
  have hrequest : ∀ (db : CmmsDb) (order : IterationOrder InbuildingsAsset),
      inbuildingsAssetRequest db site order (some response) =
        some (db.receive order site.id response) := by
    intro db order
    simp [inbuildingsAssetRequest, hconfig]
  have howned : ∀ i ∈ response, db.OwnAt site.id i.eid := by
    intro i hi r hr
    obtain ⟨r₀, hr₀, hid, rfl⟩ := CmmsDb.listed_eq_some.mp hr
    exact hown i hi r₀ hr₀ hid
  refine ⟨⟨_, hrequest db order, ?_, ?_, ?_, ?_, ?_⟩, by simp [inbuildingsAssetRequest, hconfig]⟩
  · intro item hitem
    have hk : ∃ i ∈ response, i.eid = item.eid := ⟨item, hitem, rfl⟩
    obtain ⟨before, last, after, rfl, he, hafter⟩ := exists_last hk
    have hlisted := CmmsDb.listed_receive_last order before (howned last (by simp))
      (he ▸ hafter)
    obtain ⟨r, hr, hid, hrow⟩ := CmmsDb.listed_eq_some.mp hlisted
    exact ⟨r, hr, congrArg InbuildingsAsset.siteId hrow, hid.trans he⟩
  · intro r hr hsite
    obtain ⟨before, item, after, he, hid, hafter, hrow⟩ :=
      (CmmsDb.mem_receive howned hr).resolve_right (fun h => h.1 hsite)
    exact ⟨before, item, after, he, hid, hafter, congrArg InbuildingsAsset.name hrow,
      congrArg InbuildingsAsset.location hrow, congrArg InbuildingsAsset.group hrow⟩
  · intro r hr hsite
    have hne : ∀ i ∈ response, i.eid ≠ r.id := fun i hi he => hsite (hown i hi r hr he.symm)
    obtain ⟨r', hr', hkept⟩ := CmmsDb.get?_receive_of_ne order hne
      (Table.get?_eq_some.mpr ⟨hr, rfl⟩) hsite
    have hmem := (Table.get?_eq_some.mp hr').1
    rcases hkept with rfl | ⟨rfl, hholds⟩
    · exact Or.inl hmem
    · exact Or.inr ⟨hmem, hholds⟩
  · intro r hr hsite
    rcases CmmsDb.mem_receive howned hr with ⟨-, item, -, -, -, -, hrow⟩ | ⟨-, h⟩
    · exact absurd (congrArg InbuildingsAsset.siteId hrow) hsite
    · exact h
  · intro order'
    exact ⟨_, hrequest _ order', CmmsDb.listed_receive_again howned order'⟩

/-- The boiler of another site is linked to the fan of the plant. -/
def linkedBoiler : CmmsDb where
  assets := plant.assets
  inbuildingsAssets := ⟨[⟨7, "boiler", "cellar", "heating", 2, some 1⟩], by simp⟩

def fanList : List Equipment := [⟨5, "fan unit", "roof", "air"⟩]

theorem inbuildingsAssetRequest_syncs_fanList :
    (∀ item ∈ fanList, ∀ r ∈ linkedBoiler.inbuildingsAssets.rows, r.id = item.eid →
      r.siteId = plantSite.id) ∧
    ∃ db', inbuildingsAssetRequest linkedBoiler plantSite (.listed InbuildingsAsset) (some fanList) =
        some db' ∧
      ∀ item ∈ fanList, ∃ r ∈ db'.inbuildingsAssets.rows, r.siteId = plantSite.id ∧
        r.id = item.eid := by
  have hown : ∀ item ∈ fanList, ∀ r ∈ linkedBoiler.inbuildingsAssets.rows, r.id = item.eid →
      r.siteId = plantSite.id := by decide
  have hconfig : plantSite.inbuildingsConfig.isSome = true := rfl
  obtain ⟨⟨db', hrequest, hrows, -⟩, -⟩ :=
    inbuildingsAssetRequest_syncs (.listed InbuildingsAsset) hconfig hown
  exact ⟨hown, db', hrequest, hrows⟩

theorem inbuildingsAssetRequest_releases_boiler :
    (∀ item ∈ fanList, ∀ r ∈ linkedBoiler.inbuildingsAssets.rows, r.id = item.eid →
      r.siteId = plantSite.id) ∧
    linkedBoiler.inbuildingsAssets.rows.map (fun r => (r.id, r.siteId, r.assetId)) =
      [(7, 2, some 1)] ∧
    (inbuildingsAssetRequest linkedBoiler plantSite (.listed InbuildingsAsset) (some fanList)).map
      (fun db' => db'.inbuildingsAssets.rows.map (fun r => (r.id, r.siteId, r.assetId))) =
      some [(7, 2, none), (5, 1, some 1)] := by
  decide

end Medusa
