import Medusa.Dashboard
import Medusa.SiteReports

/-! The pages that show the issues and assets of several sites next to those that show one
site. They make queries of their own, and what they show is the same. -/

namespace Medusa

open Relational

/-- A row of the page of all sites. Without an issue the priority is shown as a dash. -/
structure SiteRow where
  site : Site
  assets : Nat
  issues : Nat
  priority : Option Int
deriving DecidableEq

/-- What a dictionary has under a name after it was filled row by row. -/
def lastNamed {α : Type*} (rows : List (String × α)) (name : String) : Option α :=
  ((rows.filter (fun row => row.1 == name)).map Prod.snd).getLast?

def DashboardDb.visibleSites (db : DashboardDb) (user : User) : List Site :=
  if user.hasRole "admin" then db.sites.rows else db.sitesOf user

/-- The two dictionaries are filled by the names of the sites and read by them. -/
def siteList (db : DashboardDb) (user : User) : Option (List SiteRow) :=
  let sites := db.visibleSites user
  let issues := sites.map (fun s => (s.name, (db.getUnresolved s.id).length))
  let priority := sites.map (fun s =>
    (s.name, (db.unresolvedByPriority (fun a => a.siteId == s.id)).head?.map (fun x => x.2.priority)))
  sites.mapM (fun s => do
    pure ⟨s, (db.assets.rows.filter (fun a => a.siteId == s.id)).length,
      ← lastNamed issues s.name, ← lastNamed priority s.name⟩)

def unresolvedListAll (db : DashboardDb) (user : User) : List Result :=
  (db.sitesOf user).flatMap (fun s => db.getUnresolved s.id)

def unresolvedList (db : Db) (sitename : String) : Option (List Result) := do
  let site ← db.sites.one? (fun s => s.name == sitename)
  pure (db.getUnresolved site.id)

section Queries

variable (db : Db)

/-- The unresolved results with their assets, before they are sorted. -/
def Db.unresolvedWithAssets (inSites : Asset → Bool) : List (Result × Asset) :=
  db.results.rows.filterMap (fun r => (db.assets.get? r.assetId).bind (fun a =>
    if r.unresolved && inSites a then some (r, a) else none))

theorem Db.unresolvedByPriority_perm (inSites : Asset → Bool) :
    (db.unresolvedByPriority inSites).Perm (db.unresolvedWithAssets inSites) :=
  List.perm_insertionSort _ _

theorem Db.unresolvedWithAssets_site (site : Nat) :
    (db.unresolvedWithAssets (fun a => a.siteId == site)).map Prod.fst = db.getUnresolved site := by
  rw [Db.unresolvedWithAssets, Db.getUnresolved, List.map_filterMap, ← List.filterMap_eq_filter]
  refine List.filterMap_congr ?_
  intro r _
  rw [Option.guard, db.assets.any_key]
  cases hget : db.assets.get? r.assetId with
  | none => simp
  | some a =>
    cases hu : r.unresolved with
    | false => simp
    | true => by_cases hs : a.siteId = site <;> simp [hs]

/-- Sites that are listed without repetition divide the unresolved results among them. -/
theorem Db.unresolvedWithAssets_sites {siteIds : List Nat} (hnodup : siteIds.Nodup)
    {inSites : Asset → Bool} (hin : ∀ a ∈ db.assets.rows, inSites a = true ↔ a.siteId ∈ siteIds) :
    (siteIds.flatMap (fun s => db.unresolvedWithAssets (fun a => a.siteId == s))).Perm
      (db.unresolvedWithAssets inSites) := by
  have hpart : ∀ s ∈ siteIds, db.unresolvedWithAssets (fun a => a.siteId == s) =
      (db.unresolvedWithAssets inSites).filter (fun x => decide (x.2.siteId = s)) := by
    intro s hs
    rw [Db.unresolvedWithAssets, Db.unresolvedWithAssets, List.filter_filterMap]
    refine List.filterMap_congr ?_
    intro r _
    cases hget : db.assets.get? r.assetId with
    | none => simp
    | some a =>
      have ha := (Table.get?_eq_some.mp hget).1
      cases hu : r.unresolved with
      | false => simp
      | true =>
        by_cases hsite : a.siteId = s
        · have hina : inSites a = true := (hin a ha).mpr (hsite ▸ hs)
          simp [Option.filter, hsite, hina]
        · by_cases hina : inSites a = true <;> simp [Option.filter, hsite, hina]
  rw [List.flatMap_congr hpart]
  refine flatMap_fibers_perm hnodup ?_
  intro x hx
  obtain ⟨r, -, hx⟩ := List.mem_filterMap.mp hx
  obtain ⟨a, hget, hx⟩ := Option.bind_eq_some_iff.mp hx
  split at hx
  · next hboth =>
    obtain rfl := Option.some.inj hx
    exact (hin a (Table.get?_eq_some.mp hget).1).mp (Bool.and_eq_true_iff.mp hboth).2
  · cases hx

theorem Db.assets_sites {siteIds : List Nat} (hnodup : siteIds.Nodup)
    {inSites : Asset → Bool} (hin : ∀ a ∈ db.assets.rows, inSites a = true ↔ a.siteId ∈ siteIds) :
    (siteIds.flatMap (fun s => db.assets.rows.filter (fun a => a.siteId == s))).Perm
      (db.assets.rows.filter inSites) := by
  have hpart : ∀ s ∈ siteIds, db.assets.rows.filter (fun a => a.siteId == s) =
      (db.assets.rows.filter inSites).filter (fun a => decide (a.siteId = s)) := by
    intro s hs
    rw [List.filter_filter]
    refine List.filter_congr ?_
    intro a ha
    by_cases hsite : a.siteId = s
    · have hina : inSites a = true := (hin a ha).mpr (hsite ▸ hs)
      simp [hsite, hina]
    · simp [hsite]
  rw [List.flatMap_congr hpart]
  refine flatMap_fibers_perm hnodup ?_
  intro a ha
  obtain ⟨ha, hina⟩ := List.mem_filter.mp ha
  exact (hin a ha).mp hina

end Queries

/-- The first entry of a sorted list has the least value. -/
theorem head?_insertionSort_eq_some {α : Type*} (f : α → Int) (l : List α) {p : Int} :
    (l.insertionSort (fun x y => f x ≤ f y)).head?.map f = some p ↔
      (∃ x ∈ l, f x = p) ∧ ∀ x ∈ l, p ≤ f x := by
  have htotal : Std.Total (fun x y : α => f x ≤ f y) := ⟨fun x y => le_total (f x) (f y)⟩
  have htrans : IsTrans α (fun x y : α => f x ≤ f y) := ⟨fun x y z => le_trans⟩
  have hperm := List.perm_insertionSort (fun x y => f x ≤ f y) l
  have hsorted := List.pairwise_insertionSort (fun x y => f x ≤ f y) l
  have hmem : ∀ x, x ∈ l ↔ x ∈ l.insertionSort (fun x y => f x ≤ f y) := fun x => hperm.mem_iff.symm
  simp only [hmem]
  cases hl : l.insertionSort (fun x y => f x ≤ f y) with
  | nil => simp
  | cons x rest =>
    rw [hl] at hsorted
    have hleast := (List.pairwise_cons.mp hsorted).1
    simp only [List.head?_cons, Option.map_some, Option.some.injEq]
    constructor
    · rintro rfl
      refine ⟨⟨x, List.mem_cons_self, rfl⟩, ?_⟩
      intro y hy
      rcases List.mem_cons.mp hy with rfl | hy
      · exact le_refl _
      · exact hleast y hy
    · rintro ⟨⟨y, hy, rfl⟩, hall⟩
      refine le_antisymm ?_ (hall x List.mem_cons_self)
      rcases List.mem_cons.mp hy with rfl | hy
      · exact le_refl _
      · exact hleast y hy

theorem exists_head?_insertionSort {α : Type*} (f : α → Int) {l : List α} {x : α} (hx : x ∈ l) :
    ∃ p, (l.insertionSort (fun x y => f x ≤ f y)).head?.map f = some p := by
  have hx' := (List.perm_insertionSort (fun x y => f x ≤ f y) l).mem_iff.mpr hx
  cases hl : l.insertionSort (fun x y => f x ≤ f y) with
  | nil =>
    rw [hl] at hx'
    exact absurd hx' List.not_mem_nil
  | cons y rest => exact ⟨f y, rfl⟩

theorem avgHealth_mul (assets : List Asset) :
    avgHealth assets * assets.length = (assets.map Asset.health).sum := by
  unfold avgHealth
  split
  · next h =>
    have hne : (assets.length : ℚ) ≠ 0 := by
      exact_mod_cast Nat.pos_iff_ne_zero.mp h
    exact div_mul_cancel₀ _ hne
  · next h =>
    have hnil : assets = [] := List.eq_nil_of_length_eq_zero (by omega)
    simp [hnil]

/-- Under names that differ, a dictionary has what was put in for each. -/
theorem lastNamed_map {α : Type*} {sites : List Site} (h : (sites.map Site.name).Nodup)
    (f : Site → α) {s : Site} (hs : s ∈ sites) :
    lastNamed (sites.map (fun s => (s.name, f s))) s.name = some (f s) := by
  have hone : (sites.map (fun s => (s.name, f s))).filter (fun row => row.1 == s.name) =
      [(s.name, f s)] := by
    rw [List.filter_map]
    have hfilter : sites.filter (fun s' => s'.name == s.name) = [s] := by
      have hnodup : (sites.filter (fun s' => s'.name == s.name)).Nodup :=
        (List.Nodup.of_map _ h).filter _
      refine List.perm_singleton.mp ((List.perm_ext_iff_of_nodup hnodup (List.nodup_singleton s)).mpr ?_)
      intro s'
      rw [List.mem_filter, beq_iff_eq, List.mem_singleton]
      constructor
      · rintro ⟨hs', hname⟩
        exact List.inj_on_of_nodup_map h hs' hs hname
      · rintro rfl
        exact ⟨hs, rfl⟩
    exact congrArg (List.map (fun s => (s.name, f s))) hfilter
  rw [lastNamed, hone]
  rfl

theorem visibleSites_sublist (db : DashboardDb) (user : User) :
    (db.visibleSites user).Sublist db.sites.rows := by
  unfold DashboardDb.visibleSites
  split
  · exact List.Sublist.refl _
  · exact List.filter_sublist

/-- The page of all sites has a row for each site that the user sees. -/
theorem siteList_eq (db : DashboardDb) (user : User) :
    siteList db user = some ((db.visibleSites user).map (fun s =>
      ⟨s, (db.assets.rows.filter (fun a => a.siteId == s.id)).length,
        (overviewSite db.toDb s.id).numResults, (overviewSite db.toDb s.id).topPriority⟩)) := by
  have hnames : ((db.visibleSites user).map Site.name).Nodup :=
    db.siteNames.sublist ((visibleSites_sublist db user).map _)
  rw [siteList, mapM_eq_some, List.map_map]
  refine List.map_congr_left ?_
  intro s hs
  simp only [lastNamed_map hnames _ hs]
  rfl

/-- An asset is counted for the sites of a list exactly if its site is in the list. -/
theorem inSites_iff {db : DashboardDb} {sites : List Site} (h : sites.Sublist db.sites.rows)
    (a : Asset) :
    (db.siteOf a).any (fun s => (sites.map Site.id).contains s.id) = true ↔
      a.siteId ∈ sites.map Site.id := by
  rw [Db.siteOf]
  cases hget : db.sites.get? a.siteId with
  | none =>
    refine iff_of_false (by simp) ?_
    intro hmem
    obtain ⟨s, hs, hid⟩ := List.mem_map.mp hmem
    have hno := Table.first?_eq_none hget s (h.subset hs)
    simp [hid] at hno
  | some s =>
    obtain ⟨-, hid⟩ := Table.get?_eq_some.mp hget
    rw [Option.any_some, List.contains_iff_mem, hid]

section Aggregates

variable {db : DashboardDb} {sites : List Site} (h : sites.Sublist db.sites.rows)

include h

theorem siteIds_nodup : (sites.map Site.id).Nodup := db.sites.nodup.sublist (h.map _)

theorem overviewAll_results :
    (sites.flatMap (fun s => db.unresolvedWithAssets (fun a => a.siteId == s.id))).Perm
      (db.unresolvedWithAssets
        (fun a => (db.siteOf a).any (fun s => (sites.map Site.id).contains s.id))) := by
  have hperm := db.toDb.unresolvedWithAssets_sites (siteIds_nodup h) (fun a _ => inSites_iff h a)
  rwa [List.flatMap_map] at hperm

theorem overviewAll_assets :
    (sites.flatMap (fun s => db.assets.rows.filter (fun a => a.siteId == s.id))).Perm
      (db.assets.rows.filter
        (fun a => (db.siteOf a).any (fun s => (sites.map Site.id).contains s.id))) := by
  have hperm := db.toDb.assets_sites (siteIds_nodup h) (fun a _ => inSites_iff h a)
  rwa [List.flatMap_map] at hperm

theorem overviewAll_numResults :
    (overviewAll db.toDb (sites.map Site.id)).numResults =
      (sites.map (fun s => (db.getUnresolved s.id).length)).sum := by
  have hlength := ((db.toDb.unresolvedByPriority_perm _).trans (overviewAll_results h).symm).length_eq
  refine hlength.trans ?_
  rw [List.length_flatMap]
  refine congrArg List.sum (List.map_congr_left ?_)
  intro s _
  rw [← db.toDb.unresolvedWithAssets_site, List.length_map]

theorem overviewAll_topPriority (p : Int) :
    (overviewAll db.toDb (sites.map Site.id)).topPriority = some p ↔
      (∃ s ∈ sites, (overviewSite db.toDb s.id).topPriority = some p) ∧
        ∀ s ∈ sites, ∀ q, (overviewSite db.toDb s.id).topPriority = some q → p ≤ q := by
  let priority : Result × Asset → Int := fun x => x.2.priority
  have hleast : ∀ inSites p, (db.unresolvedByPriority inSites).head?.map priority = some p ↔
      (∃ x ∈ db.unresolvedWithAssets inSites, priority x = p) ∧
        ∀ x ∈ db.unresolvedWithAssets inSites, p ≤ priority x :=
    fun inSites p => head?_insertionSort_eq_some priority _
  have hall : (overviewAll db.toDb (sites.map Site.id)).topPriority = some p ↔
      (∃ s ∈ sites, ∃ x ∈ db.unresolvedWithAssets (fun a => a.siteId == s.id), priority x = p) ∧
        ∀ s ∈ sites, ∀ x ∈ db.unresolvedWithAssets (fun a => a.siteId == s.id), p ≤ priority x := by
    refine (hleast _ p).trans ?_
    simp only [← (overviewAll_results h).mem_iff, List.mem_flatMap]
    constructor
    · rintro ⟨⟨x, ⟨s, hs, hx⟩, hp⟩, hmin⟩
      exact ⟨⟨s, hs, x, hx, hp⟩, fun s hs x hx => hmin x ⟨s, hs, hx⟩⟩
    · rintro ⟨⟨s, hs, x, hx, hp⟩, hmin⟩
      exact ⟨⟨x, ⟨s, hs, hx⟩, hp⟩, fun x ⟨s, hs, hx⟩ => hmin s hs x hx⟩
  have hone : ∀ s : Site, ∀ q, (overviewSite db.toDb s.id).topPriority = some q ↔ _ :=
    fun s q => hleast (fun a => a.siteId == s.id) q
  rw [hall]
  simp only [hone]
  constructor
  · rintro ⟨⟨s, hs, x, hx, hp⟩, hmin⟩
    refine ⟨⟨s, hs, ⟨x, hx, hp⟩, hmin s hs⟩, ?_⟩
    rintro s hs q ⟨⟨x, hx, rfl⟩, -⟩
    exact hmin s hs x hx
  · rintro ⟨⟨s, hs, ⟨x, hx, hp⟩, hmin⟩, hothers⟩
    refine ⟨⟨s, hs, x, hx, hp⟩, ?_⟩
    intro s' hs' x' hx'
    -- a site with an issue has a top priority
    obtain ⟨q, hq⟩ := exists_head?_insertionSort priority hx'
    have hq := (hleast (fun a => a.siteId == s'.id) q).mp hq
    exact (hothers s' hs' q hq).trans (hq.2 x' hx')

theorem overviewAll_lowHealthAssets :
    (overviewAll db.toDb (sites.map Site.id)).lowHealthAssets =
      some (sites.map (fun s => (overviewSite db.toDb s.id).lowHealthAssets.getD 0)).sum := by
  have hperm := (overviewAll_assets h).filter (fun a => decide (a.health < 1 / 2))
  refine congrArg some (hperm.length_eq.symm.trans ?_)
  rw [List.filter_flatMap, List.length_flatMap]
  rfl

theorem overviewAll_avgHealth :
    (overviewAll db.toDb (sites.map Site.id)).avgHealth *
        (sites.map (fun s => (db.assets.rows.filter (fun a => a.siteId == s.id)).length)).sum =
      (sites.map (fun s => (overviewSite db.toDb s.id).avgHealth *
        (db.assets.rows.filter (fun a => a.siteId == s.id)).length)).sum := by
  have hperm := overviewAll_assets h
  rw [← List.length_flatMap, hperm.length_eq]
  refine (avgHealth_mul _).trans ?_
  rw [← (hperm.map Asset.health).sum_eq, List.map_flatMap, List.flatMap, List.sum_flatten,
    List.map_map]
  refine congrArg List.sum (List.map_congr_left ?_)
  intro s _
  exact (avgHealth_mul _).symm

end Aggregates

end Medusa
