import Medusa.Cmms
import Medusa.Mirror

/-! `request_all_sites`: the equipment lists of all sites are copied, one site after the
other. Each site is committed for itself, and the first request that raises ends the
pass. -/

namespace Medusa

open Relational

/-- What a request to Inbuildings comes to. A reply that is not a list of equipment
raises where it is read. -/
inductive InbuildingsReply where
  | connectionError
  | malformed
  | equipmentlist (response : List Equipment)

def inbuildingsAssetReply (db : CmmsDb) (order : IterationOrder InbuildingsAsset) (site : Site) :
    InbuildingsReply → Option CmmsDb
  | .connectionError => inbuildingsAssetRequest db site order none
  | .malformed => none
  | .equipmentlist response => inbuildingsAssetRequest db site order (some response)

/-- The database after the pass, and whether it came to its end. -/
def requestSites (order : IterationOrder InbuildingsAsset) (reply : Nat → InbuildingsReply) :
    List Site → CmmsDb → CmmsDb × Bool
  | [], db => (db, true)
  | site :: rest, db =>
    match inbuildingsAssetReply db order site (reply site.id) with
    | none => (db, false)
    | some db' => requestSites order reply rest db'

/-- `Site.query.all()` lists the sites in some order. -/
def requestAllSites (sites : Table Site Site.id) (listing : IterationOrder Site)
    (order : IterationOrder InbuildingsAsset) (reply : Nat → InbuildingsReply) (db : CmmsDb) :
    CmmsDb × Bool :=
  requestSites order reply (listing.visit sites.rows) db

def lastEntry (response : List Equipment) (k : Nat) : Option Equipment :=
  response.reverse.find? (fun item => item.eid == k)

theorem lastEntry_cons (item : Equipment) (rest : List Equipment) (k : Nat) :
    lastEntry (item :: rest) k =
      (lastEntry rest k).or (if item.eid = k then some item else none) := by
  rw [lastEntry, List.reverse_cons, List.find?_append]
  congr 1
  by_cases hk : item.eid = k <;> simp [hk]

theorem lastEntry_isSome {response : List Equipment} {k : Nat} :
    (lastEntry response k).isSome = true ↔ ∃ item ∈ response, item.eid = k := by
  simp [lastEntry]

def InbuildingsAsset.equipment (r : InbuildingsAsset) : Equipment := ⟨r.id, r.name, r.location, r.group⟩

namespace CmmsDb

variable {order : IterationOrder InbuildingsAsset} {db : CmmsDb}

/-- The site of the row under an id, and what it has from Inbuildings. -/
def held (db : CmmsDb) (k : Nat) : Option (Nat × Equipment) :=
  (db.inbuildingsAssets.get? k).map (fun r => (r.siteId, r.equipment))

theorem held_eq (db : CmmsDb) (k : Nat) :
    db.held k = (db.listed k).map (fun r => (r.siteId, r.equipment)) := by
  rw [held, listed, Option.map_map]
  rfl

theorem listed_id {k : Nat} {r : InbuildingsAsset} (h : db.listed k = some r) : r.id = k := by
  obtain ⟨r₀, -, hid, rfl⟩ := listed_eq_some.mp h
  exact hid

theorem held_sync (db : CmmsDb) (order : IterationOrder InbuildingsAsset) (site : Nat)
    (item : Equipment) (k : Nat) :
    (db.sync order site item).held k =
      if item.eid = k then some (((db.held k).map Prod.fst).getD site, item) else db.held k := by
  rw [held_eq, listed_sync, held_eq]
  by_cases hk : item.eid = k
  · subst hk
    rw [if_pos rfl, if_pos rfl]
    cases hr : db.listed item.eid with
    | none => rfl
    | some r =>
      have hid := listed_id hr
      simp [InbuildingsAsset.describe, InbuildingsAsset.equipment, hid]
  · rw [if_neg hk, if_neg hk]

theorem held_foldl (order : IterationOrder InbuildingsAsset) (site : Nat) (items : List Equipment)
    (db : CmmsDb) (k : Nat) :
    (items.foldl (CmmsDb.sync order site) db).held k =
      match lastEntry items k with
      | some item => some (((db.held k).map Prod.fst).getD site, item)
      | none => db.held k := by
  induction items generalizing db with
  | nil => rfl
  | cons item rest ih =>
    rw [List.foldl_cons, ih, held_sync, lastEntry_cons]
    by_cases hk : item.eid = k
    · -- the first entry has settled the site, and a later one keeps it
      cases lastEntry rest k <;> simp [hk]
    · cases lastEntry rest k <;> simp [hk]

/-- A request does to the row under an id what reading the site does to a copy. -/
theorem held_receive (db : CmmsDb) (order : IterationOrder InbuildingsAsset)
    (registry : Nat → List Equipment) (site k : Nat) :
    (db.receive order site (registry site)).held k =
      copyFrom (fun s => lastEntry (registry s) k) (db.held k) site := by
  have hprevious : k ∈ db.previousAssets site ↔ ∃ h, db.held k = some h ∧ h.1 = site := by
    rw [mem_previousAssets, held]
    simp
  have hcurrent : k ∈ (registry site).map Equipment.eid ↔
      (lastEntry (registry site) k).isSome = true := by
    rw [lastEntry_isSome, List.mem_map]
  have hfold := held_foldl order site (registry site) db k
  rw [held, receive, get?_sweep, copyFrom]
  cases hlast : lastEntry (registry site) k with
  | some item =>
    have hin : k ∈ (registry site).map Equipment.eid := hcurrent.mpr (by simp [hlast])
    rw [hlast] at hfold
    rw [if_neg (fun h => h.2 hin)]
    exact hfold
  | none =>
    have hout : k ∉ (registry site).map Equipment.eid := fun h => by simpa [hlast] using hcurrent.mp h
    rw [hlast] at hfold
    cases hheld : db.held k with
    | none =>
      rw [hheld] at hfold
      rw [if_neg (fun h => by simpa [hheld] using hprevious.mp h.1)]
      exact hfold
    | some h =>
      rw [hheld] at hfold
      by_cases hs : h.1 = site
      · rw [if_pos ⟨hprevious.mpr ⟨h, hheld, hs⟩, hout⟩]
        simp [Option.filter, hs]
      · have hother : k ∉ db.previousAssets site := fun hk => hs (by simpa [hheld] using hprevious.mp hk)
        have hkept : (some h).filter (fun h => decide (h.1 ≠ site)) = some h := by
          simp [Option.filter, hs]
        rw [if_neg (fun hk => hother hk.1)]
        exact hfold.trans hkept.symm

/-- The rows are the equipment of their sites. -/
theorem listed_of_held (db : CmmsDb) (k : Nat) :
    db.listed k = (db.held k).map (fun h => h.2.row h.1) := by
  rw [held, listed, Option.map_map]
  rfl

end CmmsDb

/-- If every site has settings and every reply is a list, the pass comes to its end, and
the row under an id goes through the sites as a copy does. -/
theorem requestSites_held (order : IterationOrder InbuildingsAsset) (registry : Nat → List Equipment)
    {sites : List Site} (hconfig : ∀ s ∈ sites, s.inbuildingsConfig.isSome = true) (db : CmmsDb) :
    (requestSites order (fun s => .equipmentlist (registry s)) sites db).2 = true ∧
      ∀ k, (requestSites order (fun s => .equipmentlist (registry s)) sites db).1.held k =
        copyAll (fun s => lastEntry (registry s) k) (sites.map Site.id) (db.held k) := by
  induction sites generalizing db with
  | nil => exact ⟨rfl, fun _ => rfl⟩
  | cons site rest ih =>
    obtain ⟨config, hc⟩ := Option.isSome_iff_exists.mp (hconfig site List.mem_cons_self)
    have hreply : inbuildingsAssetReply db order site (.equipmentlist (registry site.id)) =
        some (db.receive order site.id (registry site.id)) := by
      simp [inbuildingsAssetReply, inbuildingsAssetRequest, hc]
    have hrest := ih (fun s hs => hconfig s (List.mem_cons_of_mem _ hs))
      (db.receive order site.id (registry site.id))
    simp only [requestSites, hreply]
    refine ⟨hrest.1, ?_⟩
    intro k
    rw [hrest.2 k, CmmsDb.held_receive db order registry]
    rfl

/-- The row under an id as the lists of the sites have it. -/
def registered (sites : Table Site Site.id) (registry : Nat → List Equipment) (k : Nat) :
    Option InbuildingsAsset :=
  (publishedBy (fun s => lastEntry (registry s) k) (sites.rows.map Site.id)).map
    (fun h => h.2.row h.1)

/-- The sites are listed in such an order that equipment which is now at another site than
its row is found there after the row's own site is done. -/
def MovesOn (visited : List Site) (registry : Nat → List Equipment) (db : CmmsDb) : Prop :=
  ∀ r ∈ db.inbuildingsAssets.rows, ∀ s ∈ visited, (∃ item ∈ registry s.id, item.eid = r.id) →
    r.siteId ≠ s.id → r.siteId ∈ (visited.map Site.id).takeWhile (fun t => decide (t ≠ s.id))

theorem CmmsDb.held_eq_some {db : CmmsDb} {k : Nat} {h : Nat × Equipment} :
    db.held k = some h ↔ ∃ r ∈ db.inbuildingsAssets.rows, r.id = k ∧ (r.siteId, r.equipment) = h := by
  simp only [CmmsDb.held, Option.map_eq_some_iff, Table.get?_eq_some, and_assoc]

theorem Equipment.row_injective {h h' : Nat × Equipment} (he : h.2.row h.1 = h'.2.row h'.1) : h = h' := by
  obtain ⟨site, eid, name, location, group⟩ := h
  obtain ⟨site', eid', name', location', group'⟩ := h'
  simp only [Equipment.row, InbuildingsAsset.describe, InbuildingsAsset.new,
    InbuildingsAsset.mk.injEq] at he
  obtain ⟨rfl, rfl, rfl, rfl, rfl, -⟩ := he
  rfl

/-- No two of the sites list the same equipment. -/
def ListsApart (sites : Table Site Site.id) (registry : Nat → List Equipment) : Prop :=
  ∀ s ∈ sites.rows, ∀ t ∈ sites.rows, ∀ i ∈ registry s.id, ∀ j ∈ registry t.id, i.eid = j.eid → s = t

section Settling

variable {sites : Table Site Site.id} {registry : Nat → List Equipment} {db : CmmsDb}

theorem visited_ids (listing : IterationOrder Site) :
    ((listing.visit sites.rows).map Site.id).Perm (sites.rows.map Site.id) :=
  (listing.perm _).map _

theorem visited_nodup (listing : IterationOrder Site) :
    ((listing.visit sites.rows).map Site.id).Nodup :=
  (visited_ids listing).nodup_iff.mpr sites.nodup

theorem ListsApart.sole (h : ListsApart sites registry) (listing : IterationOrder Site) (k : Nat) :
    Sole (fun s => lastEntry (registry s) k) ((listing.visit sites.rows).map Site.id) := by
  intro sid hsid tid htid hsome htsome
  obtain ⟨s, hs, rfl⟩ := List.mem_map.mp hsid
  obtain ⟨t, ht, rfl⟩ := List.mem_map.mp htid
  obtain ⟨i, hi, hik⟩ := lastEntry_isSome.mp hsome
  obtain ⟨j, hj, hjk⟩ := lastEntry_isSome.mp htsome
  have hsame := h s ((listing.perm _).mem_iff.mp hs) t ((listing.perm _).mem_iff.mp ht) i hi j hj
    (hik.trans hjk.symm)
  rw [hsame]

theorem listed_eq_registered_iff (h : ListsApart sites registry) (listing : IterationOrder Site) (k : Nat) :
    db.listed k = registered sites registry k ↔ db.held k =
      publishedBy (fun s => lastEntry (registry s) k) ((listing.visit sites.rows).map Site.id) := by
  have hpublished := publishedBy_congr (h.sole listing k)
    (fun _ => (visited_ids listing).mem_iff.symm)
  rw [CmmsDb.listed_of_held, registered, hpublished]
  exact (Option.map_injective (fun _ _ => Equipment.row_injective)).eq_iff

theorem held_visited (h : ∀ r ∈ db.inbuildingsAssets.rows, ∃ s ∈ sites.rows, s.id = r.siteId)
    (listing : IterationOrder Site) {k : Nat} {c : Nat × Equipment} (hc : db.held k = some c) :
    c.1 ∈ (listing.visit sites.rows).map Site.id := by
  obtain ⟨r, hr, -, rfl⟩ := CmmsDb.held_eq_some.mp hc
  obtain ⟨s, hs, hid⟩ := h r hr
  exact (visited_ids listing).mem_iff.mpr (List.mem_map.mpr ⟨s, hs, hid⟩)

theorem movesOn_iff (visited : List Site) :
    MovesOn visited registry db ↔ ∀ k c, db.held k = some c → ∀ s ∈ visited.map Site.id,
      (lastEntry (registry s) k).isSome = true → c.1 ≠ s →
        c.1 ∈ (visited.map Site.id).takeWhile (fun t => decide (t ≠ s)) := by
  constructor
  · intro h k c hc sid hsid hsome hne
    obtain ⟨r, hr, rfl, rfl⟩ := CmmsDb.held_eq_some.mp hc
    obtain ⟨s, hs, rfl⟩ := List.mem_map.mp hsid
    exact h r hr s hs (lastEntry_isSome.mp hsome) hne
  · intro h r hr s hs hlisted hne
    exact h r.id (r.siteId, r.equipment) (CmmsDb.held_eq_some.mpr ⟨r, hr, rfl, rfl⟩) s.id
      (List.mem_map_of_mem hs) (lastEntry_isSome.mpr hlisted) hne

end Settling

/-- If every site has settings and answers, and no two sites list the same equipment, then
after two passes the rows are those of the lists, each with the site that lists it, whatever
the rows and the orders are. One pass is enough exactly if no equipment has moved to a site
that is asked before the one it was at; such a row is rewritten and then deleted. -/
theorem inventory_settles {sites : Table Site Site.id} {registry : Nat → List Equipment} {db : CmmsDb}
    (hconfig : ∀ s ∈ sites.rows, s.inbuildingsConfig.isSome = true) (hapart : ListsApart sites registry)
    (howned : ∀ r ∈ db.inbuildingsAssets.rows, ∃ s ∈ sites.rows, s.id = r.siteId)
    (listing listing' : IterationOrder Site) (order order' : IterationOrder InbuildingsAsset) :
    let reply := fun s => InbuildingsReply.equipmentlist (registry s)
    let first := requestAllSites sites listing order reply db
    let second := requestAllSites sites listing' order' reply first.1
    first.2 = true ∧ second.2 = true ∧
      (∀ k, second.1.listed k = registered sites registry k) ∧
      ((∀ k, first.1.listed k = registered sites registry k) ↔
        MovesOn (listing.visit sites.rows) registry db) := by
  intro reply first second
  have hvisited : ∀ (l : IterationOrder Site), ∀ s ∈ l.visit sites.rows,
      s.inbuildingsConfig.isSome = true := fun l s hs => hconfig s ((l.perm _).mem_iff.mp hs)
  obtain ⟨hdone, hfirst⟩ := requestSites_held order registry (hvisited listing) db
  obtain ⟨hdone', hsecond⟩ := requestSites_held order' registry (hvisited listing') first.1
  refine ⟨hdone, hdone', ?_, ?_⟩
  · intro k
    rw [listed_eq_registered_iff hapart listing k]
    refine (hsecond k).trans ?_
    rw [show first.1.held k = _ from hfirst k]
    exact copyAll_settles (hapart.sole listing k) (visited_nodup listing) (visited_nodup listing')
      (fun _ => (visited_ids listing').mem_iff.trans (visited_ids listing).mem_iff.symm)
      (fun _ => held_visited howned listing)
  · rw [movesOn_iff]
    refine forall_congr' ?_
    intro k
    rw [listed_eq_registered_iff hapart listing k, show first.1.held k = _ from hfirst k]
    exact copyAll_settles_iff (hapart.sole listing k) (visited_nodup listing)
      (fun _ => held_visited howned listing)

def boilerHouse : Site := { plantSite with id := 2, name := "boiler house" }

def twoSites : Table Site Site.id := ⟨[plantSite, boilerHouse], by decide⟩

/-- The boiler of the boiler house is now at the plant. -/
def movedBoiler (site : Nat) : List Equipment :=
  if site = 1 then [⟨7, "boiler", "roof", "heating"⟩] else []

theorem movedBoiler_apart : ListsApart twoSites movedBoiler := by
  unfold ListsApart
  decide

theorem inventory_settles_movedBoiler :
    let reply := fun s => InbuildingsReply.equipmentlist (movedBoiler s)
    let first := requestAllSites twoSites (.listed Site) (.listed InbuildingsAsset) reply linkedBoiler
    let second := requestAllSites twoSites (.listed Site) (.listed InbuildingsAsset) reply first.1
    first.1.listed 7 = none ∧ registered twoSites movedBoiler 7 =
        some ⟨7, "boiler", "roof", "heating", 1, none⟩ ∧
      ∀ k, second.1.listed k = registered twoSites movedBoiler k := by
  intro reply first second
  have hlost : first.1.listed 7 = none := by decide
  have hsettled := inventory_settles (by decide : ∀ s ∈ twoSites.rows, s.inbuildingsConfig.isSome = true)
    movedBoiler_apart
    (by decide : ∀ r ∈ linkedBoiler.inbuildingsAssets.rows, ∃ s ∈ twoSites.rows, s.id = r.siteId)
    (.listed Site) (.listed Site) (.listed InbuildingsAsset) (.listed InbuildingsAsset)
  exact ⟨hlost, by decide, hsettled.2.2.1⟩

end Medusa
