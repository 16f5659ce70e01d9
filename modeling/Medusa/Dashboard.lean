import Medusa.Acknowledge
import Medusa.Listing
import Medusa.Ticket.Store

/-! The dashboards of all sites of a user and of one site, and what of their data
depends on other sites. The tickets on the dashboard of all sites and the alarms on
both are not filtered by site. -/

namespace Medusa

open Relational

/-- An alarm, replicated from the database of a site. The time is in seconds. -/
structure Alarm where
  medusaId : Nat
  siteId : Nat
  dateTimeStamp : Option Int
deriving DecidableEq

/-- The names of sites are unique in the database. -/
structure DashboardDb extends Db where
  siteNames : (sites.rows.map Site.name).Nodup
  statuses : StatusTable
  tickets : Tickets
  alarms : Table Alarm Alarm.medusaId
  -- user and site that is assigned to the user
  usersSites : Finset (Nat × Nat)

/-- Dates are in days. The first moment of a day counts for the day before. -/
def Alarm.within (startDate endDate : Int) (a : Alarm) : Bool :=
  a.dateTimeStamp.any (fun t => decide (startDate * 86400 < t) && decide (t ≤ endDate * 86400))

def alarmCount (alarms : List Alarm) (startDate endDate : Int) : Nat :=
  alarms.countP (Alarm.within startDate endDate)

def getAlarmsPerWeek (alarms : List Alarm) (today : Int) (nweeks : Nat) : List (Int × Nat) :=
  let loop := (List.range nweeks).foldl (fun (state : Int × List (Int × Nat)) _ =>
    let startDate := state.1 - 7
    (startDate, state.2 ++ [(startDate, alarmCount alarms startDate state.1)])) (today, [])
  loop.2.reverse

structure Pagination where
  page : Int
  perPage : Nat
  total : Nat
  items : List FlicketTicket
deriving DecidableEq

/-- The database refuses a negative offset. A first page that is not full is counted
without another query. -/
def paginate (tickets : List FlicketTicket) (page : Int) (perPage : Nat) : Option Pagination := do
  guard (1 ≤ page)
  let items := pageOf perPage (page - 1).toNat tickets
  let total := if page = 1 ∧ items.length < perPage then items.length else tickets.length
  pure ⟨page, perPage, total, items⟩

/-- No date comes last. -/
def FlicketTicket.newer (t t' : FlicketTicket) : Bool :=
  match t'.dateAdded with
  | none => true
  | some b => t.dateAdded.any (fun a => decide (b ≤ a))

def newestFirst (tickets : List FlicketTicket) : List FlicketTicket :=
  tickets.insertionSort (fun t t' => t.newer t' = true)

def DashboardDb.openTickets (db : DashboardDb) : List FlicketTicket :=
  db.tickets.rows.filter (fun t =>
    (t.statusId.bind db.statuses.get?).any (fun s => foldCase s.status == foldCase "Open"))

/-- The unresolved results with their assets, by the priority of the asset. -/
def Db.unresolvedByPriority (db : Db) (inSites : Asset → Bool) : List (Result × Asset) :=
  (db.results.rows.filterMap (fun r => (db.assets.get? r.assetId).bind (fun a =>
    if r.unresolved && inSites a then some (r, a) else none))).insertionSort
      (fun x y => x.2.priority ≤ y.2.priority)

def avgHealth (assets : List Asset) : ℚ :=
  if assets.length > 0 then (assets.map Asset.health).sum / assets.length else 0

/-- What the page shows about results and assets. Without a result there is no top
priority, and without a site no number of assets of low health. -/
structure Overview where
  results : List Result
  numResults : Nat
  topPriority : Option Int
  avgHealth : ℚ
  lowHealthAssets : Option Nat
deriving DecidableEq

structure Dashboard extends Overview where
  site : Option Site
  alarmcount : List (Int × Nat)
  tickets : Pagination
  ticketNum : Nat
deriving DecidableEq

def DashboardDb.sitesOf (db : DashboardDb) (user : User) : List Site :=
  db.sites.rows.filter (fun s => decide ((user.id, s.id) ∈ db.usersSites))

def overviewAll (db : Db) (siteIds : List Nat) : Overview :=
  -- the site of the asset is joined, and its id is compared
  let inSites : Asset → Bool := fun a => (db.siteOf a).any (fun s => siteIds.contains s.id)
  let results := db.unresolvedByPriority inSites
  let assets := db.assets.rows.filter inSites
  { results := (results.map Prod.fst).take 5
    numResults := results.length
    topPriority := results.head?.map (fun x => x.2.priority)
    avgHealth := avgHealth assets
    lowHealthAssets := some (assets.filter (fun a => decide (a.health < 1 / 2))).length }

def dashboardAll (db : DashboardDb) (user : User) (page : Option Int) (today : Int) :
    Option Dashboard := do
  let sites := if user.hasRole "admin" then db.sites.rows else db.sitesOf user
  let overview := if sites.length > 0 then overviewAll db.toDb (sites.map Site.id)
    else ⟨[], 0, none, 0, none⟩
  let nalarms := if sites.length > 0 then getAlarmsPerWeek db.alarms.rows today 8 else []
  let openTickets ← paginate (newestFirst db.openTickets) (page.getD 1) 5
  pure ⟨overview, none, nalarms, openTickets, db.openTickets.length⟩

def overviewSite (db : Db) (site : Nat) : Overview :=
  let results := db.unresolvedByPriority (fun a => a.siteId == site)
  let assets := db.assets.rows.filter (fun a => a.siteId == site)
  { results := (results.map Prod.fst).take 4
    numResults := (db.getUnresolved site).length
    topPriority := results.head?.map (fun x => x.2.priority)
    avgHealth := avgHealth assets
    lowHealthAssets := some (assets.filter (fun a => decide (a.health < 1 / 2))).length }

def dashboardSite (db : DashboardDb) (sitename : String) (page : Option Int) (today : Int) :
    Option Dashboard := do
  let site ← db.sites.first? (fun s => s.name == sitename)
  let overview := overviewSite db.toDb site.id
  let site ← db.sites.one? (fun s => s.name == sitename)
  let nalarms := getAlarmsPerWeek db.alarms.rows today 8
  let openTickets := db.openTickets.filter (fun t => t.siteId == site.id)
  let page ← paginate (newestFirst openTickets) (page.getD 1) 6
  pure ⟨overview, some site, nalarms, page, openTickets.length⟩

/-- The asset of the result is on a site of `own`. -/
def Db.onSites (db : Db) (own : Nat → Bool) (r : Result) : Bool :=
  db.assets.rows.any (fun a => a.id == r.assetId && own a.siteId)

/-- The databases have the same rows of the sites of `own`. Statuses belong to no site. -/
structure DashboardDb.AgreeOn (own : Nat → Bool) (db db' : DashboardDb) : Prop where
  sites : db'.sites.rows.filter (fun s => own s.id) = db.sites.rows.filter (fun s => own s.id)
  assets : db'.assets.rows.filter (fun a => own a.siteId) =
    db.assets.rows.filter (fun a => own a.siteId)
  results : db'.results.rows.filter (db'.onSites own) = db.results.rows.filter (db.onSites own)
  tickets : db'.tickets.rows.filter (fun t => own t.siteId) =
    db.tickets.rows.filter (fun t => own t.siteId)
  alarms : db'.alarms.rows.filter (fun a => own a.siteId) =
    db.alarms.rows.filter (fun a => own a.siteId)
  statuses : db'.statuses = db.statuses

def DashboardDb.assigned (db : DashboardDb) (user : User) (site : Nat) : Bool :=
  decide ((user.id, site) ∈ db.usersSites)

/-- The alarms of other sites in the week that ends `i` weeks before today. -/
def DashboardDb.otherAlarms (db : DashboardDb) (own : Nat → Bool) (today : Int) (i : Nat) : Nat :=
  alarmCount (db.alarms.rows.filter (fun a => !own a.siteId)) (today - 7 * (i + 1)) (today - 7 * i)

theorem getAlarmsPerWeek_eq (alarms : List Alarm) (today : Int) (nweeks : Nat) :
    getAlarmsPerWeek alarms today nweeks = ((List.range nweeks).map (fun i : Nat =>
      (today - 7 * (i + 1), alarmCount alarms (today - 7 * (i + 1)) (today - 7 * i)))).reverse := by
  unfold getAlarmsPerWeek
  have hloop : ∀ n : Nat, (List.range n).foldl (fun (state : Int × List (Int × Nat)) _ =>
      (state.1 - 7, state.2 ++ [(state.1 - 7, alarmCount alarms (state.1 - 7) state.1)]))
        (today, []) =
      (today - 7 * n, (List.range n).map (fun i : Nat =>
        (today - 7 * (i + 1), alarmCount alarms (today - 7 * (i + 1)) (today - 7 * i)))) := by
    intro n
    induction n with
    | zero => simp
    | succ n ih =>
      have hweek : today - 7 * (n : Int) - 7 = today - 7 * ((n : Int) + 1) := by omega
      rw [List.range_succ, List.foldl_append, ih, List.map_append]
      simp [hweek]
  exact congrArg (fun state => state.2.reverse) (hloop nweeks)

theorem alarmCount_split (own : Nat → Bool) (alarms : List Alarm) (startDate endDate : Int) :
    alarmCount alarms startDate endDate =
      alarmCount (alarms.filter (fun a => own a.siteId)) startDate endDate +
        alarmCount (alarms.filter (fun a => !own a.siteId)) startDate endDate :=
  List.countP_eq_countP_filter_add alarms _ _

theorem Alarm.within_iff {startDate endDate : Int} {a : Alarm} :
    a.within startDate endDate = true ↔
      ∃ t, a.dateTimeStamp = some t ∧ startDate * 86400 < t ∧ t ≤ endDate * 86400 := by
  unfold Alarm.within
  cases a.dateTimeStamp <;> simp

theorem Alarm.within_append {startDate endDate : Int} (middle : Int) (h : startDate ≤ middle)
    (h' : middle ≤ endDate) {a : Alarm} :
    a.within startDate endDate = true ↔
      a.within startDate middle = true ∨ a.within middle endDate = true := by
  simp only [Alarm.within_iff]
  constructor
  · rintro ⟨t, ht, hafter, hbefore⟩
    by_cases hm : t ≤ middle * 86400
    · exact Or.inl ⟨t, ht, hafter, hm⟩
    · exact Or.inr ⟨t, ht, by omega, hbefore⟩
  · rintro (⟨t, ht, hafter, hbefore⟩ | ⟨t, ht, hafter, hbefore⟩)
    · exact ⟨t, ht, hafter, by omega⟩
    · exact ⟨t, ht, by omega, hbefore⟩

theorem Alarm.within_disjoint {startDate endDate startDate' endDate' : Int} {a : Alarm}
    (h : a.within startDate endDate = true) (h' : a.within startDate' endDate' = true) :
    startDate' < endDate := by
  obtain ⟨t, ht, -, hbefore⟩ := Alarm.within_iff.mp h
  obtain ⟨t', ht', hafter, -⟩ := Alarm.within_iff.mp h'
  obtain rfl : t = t' := Option.some.inj (ht.symm.trans ht')
  omega

theorem alarmCount_append (alarms : List Alarm) {startDate endDate : Int} (middle : Int)
    (h : startDate ≤ middle) (h' : middle ≤ endDate) :
    alarmCount alarms startDate endDate =
      alarmCount alarms startDate middle + alarmCount alarms middle endDate := by
  unfold alarmCount
  induction alarms with
  | nil => rfl
  | cons a alarms ih =>
    have hsplit := Alarm.within_append middle (a := a) h h'
    have hdisjoint : ¬ (a.within startDate middle = true ∧ a.within middle endDate = true) :=
      fun hboth => absurd (Alarm.within_disjoint hboth.1 hboth.2) (lt_irrefl _)
    simp only [List.countP_cons, ih]
    by_cases hfirst : a.within startDate middle = true <;>
      by_cases hsecond : a.within middle endDate = true <;>
      simp_all <;> omega

theorem Alarm.exists_week {a : Alarm} {today : Int} {nweeks : Nat}
    (h : a.within (today - 7 * nweeks) today = true) :
    ∃ i < nweeks, a.within (today - 7 * (i + 1)) (today - 7 * i) = true := by
  -- going back week by week, the alarm is in the week added last or in the time after it
  induction nweeks with
  | zero => exact absurd (Alarm.within_disjoint h h) (by simp)
  | succ n ih =>
    rcases (Alarm.within_append (today - 7 * n) (by omega) (by omega)).mp h with h | h
    · exact ⟨n, n.lt_succ_self, by simpa using h⟩
    · obtain ⟨i, hi, h⟩ := ih h
      exact ⟨i, hi.trans n.lt_succ_self, h⟩

theorem sum_alarmCount_weeks (alarms : List Alarm) (today : Int) (nweeks : Nat) :
    ((List.range nweeks).map (fun i : Nat =>
      alarmCount alarms (today - 7 * (i + 1)) (today - 7 * i))).sum =
        alarmCount alarms (today - 7 * nweeks) today := by
  induction nweeks with
  | zero =>
    have hnone : alarms.countP (Alarm.within today today) = 0 :=
      List.countP_eq_zero.mpr (fun a _ h => absurd (Alarm.within_disjoint h h) (lt_irrefl _))
    simp [alarmCount, hnone]
  | succ n ih =>
    have hsplit : alarmCount alarms (today - 7 * (n + 1 : Nat)) today =
        alarmCount alarms (today - 7 * (n + 1 : Nat)) (today - 7 * n) +
          alarmCount alarms (today - 7 * n) today :=
      alarmCount_append alarms (today - 7 * n) (by omega) (by omega)
    rw [List.range_succ, List.map_append, List.sum_append, ih, hsplit]
    simp [add_comm]

theorem mem_getAlarmsPerWeek {alarms : List Alarm} {today : Int} {nweeks : Nat} {e : Int × Nat} :
    e ∈ getAlarmsPerWeek alarms today nweeks ↔
      ∃ i < nweeks, e = (today - 7 * (i + 1),
        alarmCount alarms (today - 7 * (i + 1)) (today - 7 * i)) := by
  rw [getAlarmsPerWeek_eq]
  simp [eq_comm]

/-- The weeks are those of the last `nweeks`, earliest first, and each alarm of that time
is counted in the one week that it falls into. -/
theorem getAlarmsPerWeek_partition (alarms : List Alarm) (today : Int) (nweeks : Nat) :
    let series := getAlarmsPerWeek alarms today nweeks
    series.length = nweeks ∧ series.Pairwise (fun e e' => e.1 < e'.1) ∧
    (∀ e ∈ series, e.2 = alarms.countP (Alarm.within e.1 (e.1 + 7))) ∧
    (∀ a : Alarm, a.within (today - 7 * nweeks) today = true →
      ∃! e, e ∈ series ∧ a.within e.1 (e.1 + 7) = true) ∧
    (∀ a : Alarm, a.within (today - 7 * nweeks) today = false →
      ∀ e ∈ series, a.within e.1 (e.1 + 7) = false) ∧
    (series.map Prod.snd).sum = alarms.countP (Alarm.within (today - 7 * nweeks) today) := by
  have hend : ∀ i : Nat, today - 7 * ((i : Int) + 1) + 7 = today - 7 * i := by omega
  refine ⟨by simp [getAlarmsPerWeek_eq], ?_, ?_, ?_, ?_, ?_⟩
  · rw [getAlarmsPerWeek_eq, List.pairwise_reverse, List.pairwise_map]
    exact List.pairwise_lt_range.imp (fun hlt => by omega)
  · intro e he
    obtain ⟨i, -, rfl⟩ := mem_getAlarmsPerWeek.mp he
    simp only [hend]
    rfl
  · intro a ha
    obtain ⟨i, hi, hin⟩ := Alarm.exists_week ha
    refine ⟨_, ⟨mem_getAlarmsPerWeek.mpr ⟨i, hi, rfl⟩, by simpa only [hend] using hin⟩, ?_⟩
    rintro e ⟨he, hin'⟩
    obtain ⟨j, -, rfl⟩ := mem_getAlarmsPerWeek.mp he
    rw [hend] at hin'
    have h₁ := Alarm.within_disjoint hin hin'
    have h₂ := Alarm.within_disjoint hin' hin
    obtain rfl : j = i := by omega
    rfl
  · intro a ha e he
    obtain ⟨i, hi, rfl⟩ := mem_getAlarmsPerWeek.mp he
    by_contra hin
    rw [hend, Bool.not_eq_false, Alarm.within_iff] at hin
    obtain ⟨t, ht, hafter, hbefore⟩ := hin
    exact Bool.false_ne_true (ha.symm.trans
      (Alarm.within_iff.mpr ⟨t, ht, by omega, by omega⟩))
  · rw [getAlarmsPerWeek_eq, List.map_reverse, List.sum_reverse, List.map_map]
    exact sum_alarmCount_weeks alarms today nweeks

theorem newestFirst_perm (tickets : List FlicketTicket) : (newestFirst tickets).Perm tickets :=
  List.perm_insertionSort _ _

theorem newestFirst_length (tickets : List FlicketTicket) :
    (newestFirst tickets).length = tickets.length :=
  (newestFirst_perm tickets).length_eq

theorem paginate_succ (tickets : List FlicketTicket) (k perPage : Nat) :
    ∃ pages, paginate tickets (k + 1) perPage = some pages ∧
      pages.items = pageOf perPage k tickets := by
  have hpage : (1 : Int) ≤ k + 1 := by omega
  have hk : ((k : Int) + 1 - 1).toNat = k := by omega
  unfold paginate
  simp only [guard, if_pos hpage, hk]
  exact ⟨_, rfl, rfl⟩

/-- A list is known from its paginations. -/
theorem eq_of_paginate_eq {tickets tickets' : List FlicketTicket} {perPage : Nat}
    (hsize : 0 < perPage)
    (h : ∀ k : Nat, (paginate tickets (k + 1) perPage).map Pagination.items =
      (paginate tickets' (k + 1) perPage).map Pagination.items) : tickets = tickets' := by
  refine eq_of_pageOf_eq hsize ?_
  intro k
  obtain ⟨pages, hpages, hitems⟩ := paginate_succ tickets k perPage
  obtain ⟨pages', hpages', hitems'⟩ := paginate_succ tickets' k perPage
  have hk := h k
  rw [hpages, hpages', Option.map_some, Option.map_some] at hk
  rw [← hitems, ← hitems', Option.some.inj hk]

/-- The site that is joined to an asset is one of the listed sites exactly if the asset
refers to one of them. -/
theorem siteOf_any_contains {db : Db} {sites : List Site} (h : ∀ s ∈ sites, s ∈ db.sites.rows)
    (a : Asset) :
    (db.siteOf a).any (fun s => (sites.map Site.id).contains s.id) =
      (sites.map Site.id).contains a.siteId := by
  cases hsite : db.siteOf a with
  | some s => rw [Option.any_some, (Table.get?_eq_some.mp hsite).2]
  | none =>
    symm
    rw [Option.any_none, Bool.eq_false_iff]
    intro hmem
    obtain ⟨s, hs, hid⟩ := List.mem_map.mp (List.contains_iff_mem.mp hmem)
    have hget : db.sites.get? a.siteId = some s := Table.get?_eq_some.mpr ⟨h s hs, hid⟩
    exact absurd (hsite.symm.trans hget) (Option.some_ne_none s).symm

theorem DashboardDb.find_name (db : DashboardDb) {site : Site} (h : site ∈ db.sites.rows) :
    db.sites.first? (fun s => s.name == site.name) = some site ∧
      db.sites.one? (fun s => s.name == site.name) = some site := by
  have huniq : ∀ s ∈ db.sites.rows, (s.name == site.name) = true → s = site := by
    intro s hs hname
    exact List.inj_on_of_nodup_map db.siteNames hs h (beq_iff_eq.mp hname)
  constructor
  · cases hf : db.sites.first? (fun s => s.name == site.name) with
    | none => simpa using Table.first?_eq_none hf site h
    | some s =>
      have hs := Table.mem_of_first? hf
      rw [huniq s hs.1 hs.2]
  · exact Table.one?_eq_some.mpr ⟨⟨h, by simp⟩, huniq⟩

namespace DashboardDb.AgreeOn

variable {own : Nat → Bool} {db db' : DashboardDb}

theorem site_mem (h : AgreeOn own db db') {site : Site} (hsite : site ∈ db.sites.rows)
    (hown : own site.id = true) : site ∈ db'.sites.rows := by
  have hmem : site ∈ db'.sites.rows.filter (fun s => own s.id) := by
    rw [h.sites]
    exact List.mem_filter.mpr ⟨hsite, hown⟩
  exact (List.mem_filter.mp hmem).1

theorem onSites_eq (h : AgreeOn own db db') {own' : Nat → Bool}
    (hown : ∀ s, own' s = true → own s = true) : db'.onSites own' = db.onSites own' := by
  funext r
  have himp : ∀ a : Asset, (a.id == r.assetId && own' a.siteId) = true → own a.siteId = true := by
    intro a ha
    exact hown _ (Bool.and_eq_true_iff.mp ha).2
  unfold Db.onSites
  rw [any_filter_of_imp db'.assets.rows himp, any_filter_of_imp db.assets.rows himp, h.assets]

/-- The asset of a result is the same in both. -/
theorem asset_eq (h : AgreeOn own db db') {r : Result} (hr : db.onSites own r = true) :
    db'.assets.get? r.assetId = db.assets.get? r.assetId := by
  obtain ⟨a, ha, hboth⟩ := List.any_eq_true.mp hr
  obtain ⟨hid, hown⟩ := Bool.and_eq_true_iff.mp hboth
  have ha' : a ∈ db'.assets.rows.filter (fun a => own a.siteId) := by
    rw [h.assets]
    exact List.mem_filter.mpr ⟨ha, hown⟩
  rw [Table.get?_eq_some.mpr ⟨ha, beq_iff_eq.mp hid⟩,
    Table.get?_eq_some.mpr ⟨(List.mem_filter.mp ha').1, beq_iff_eq.mp hid⟩]

theorem onSites_of_asset {db : Db} {r : Result} {a : Asset}
    (ha : db.assets.get? r.assetId = some a) (hown : own a.siteId = true) :
    db.onSites own r = true := by
  obtain ⟨hmem, hid⟩ := Table.get?_eq_some.mp ha
  exact List.any_eq_true.mpr ⟨a, hmem, by simp [hid, hown]⟩

theorem unresolvedByPriority_eq (h : AgreeOn own db db') {inSites : Asset → Bool}
    (hin : ∀ a, inSites a = true → own a.siteId = true) :
    db'.unresolvedByPriority inSites = db.unresolvedByPriority inSites := by
  have hon := h.onSites_eq (fun s (hs : own s = true) => hs)
  have hshown : ∀ (db : Db) (r : Result),
      ((db.assets.get? r.assetId).bind (fun a =>
        if r.unresolved && inSites a then some (r, a) else none)).isSome = true →
      db.onSites own r = true := by
    intro db r hsome
    obtain ⟨x, hx⟩ := Option.isSome_iff_exists.mp hsome
    obtain ⟨a, ha, hif⟩ := Option.bind_eq_some_iff.mp hx
    refine onSites_of_asset ha (hin a ?_)
    by_contra hno
    simp [hno] at hif
  refine congrArg (List.insertionSort _) (filterMap_eq_of_imp (q := db.onSites own) ?_ ?_
    (hshown db.toDb) (fun r hsome => hon ▸ hshown db'.toDb r hsome))
  · rw [← h.results, hon]
  · intro r hr
    rw [h.asset_eq hr]

theorem getUnresolved_eq (h : AgreeOn own db db') {site : Nat} (hsite : own site = true) :
    db'.getUnresolved site = db.getUnresolved site := by
  have hown : ∀ s, (s == site) = true → own s = true := by
    intro s hs
    rw [beq_iff_eq.mp hs]
    exact hsite
  have hon := h.onSites_eq hown
  have hresults : db'.results.rows.filter (db.onSites own) = db.results.rows.filter (db.onSites own) := by
    rw [← h.results, h.onSites_eq (fun s (hs : own s = true) => hs)]
  have hquery : ∀ db : Db, db.getUnresolved site =
      db.results.rows.filter (fun r => r.unresolved && db.onSites (fun s => s == site) r) :=
    fun _ => rfl
  rw [hquery, hquery, hon]
  refine filter_eq_of_imp hresults ?_
  intro r hr
  obtain ⟨a, ha, hboth⟩ := List.any_eq_true.mp (Bool.and_eq_true_iff.mp hr).2
  obtain ⟨hid, hs⟩ := Bool.and_eq_true_iff.mp hboth
  exact List.any_eq_true.mpr ⟨a, ha, Bool.and_eq_true_iff.mpr ⟨hid, hown _ hs⟩⟩

theorem assets_eq (h : AgreeOn own db db') {inSites : Asset → Bool}
    (hin : ∀ a, inSites a = true → own a.siteId = true) :
    db'.assets.rows.filter inSites = db.assets.rows.filter inSites :=
  filter_eq_of_imp h.assets hin

/-- The weekly counts are the same exactly if the other sites have the same. -/
theorem alarms_iff (h : AgreeOn own db db') (today : Int) (nweeks : Nat) :
    getAlarmsPerWeek db'.alarms.rows today nweeks = getAlarmsPerWeek db.alarms.rows today nweeks ↔
      ∀ i < nweeks, db'.otherAlarms own today i = db.otherAlarms own today i := by
  rw [getAlarmsPerWeek_eq, getAlarmsPerWeek_eq, List.reverse_inj, List.map_inj_left]
  constructor
  · intro hweeks i hi
    have hcount := (Prod.mk.inj (hweeks i (List.mem_range.mpr hi))).2
    rw [alarmCount_split own, alarmCount_split own db.alarms.rows, h.alarms] at hcount
    exact Nat.add_left_cancel hcount
  · intro hothers i hi
    have hother := hothers i (List.mem_range.mp hi)
    unfold DashboardDb.otherAlarms at hother
    rw [alarmCount_split own, alarmCount_split own db.alarms.rows, h.alarms, hother]

theorem overviewAll_eq (h : AgreeOn own db db') {sites : List Site}
    (hsites : ∀ s ∈ sites, s ∈ db.sites.rows ∧ own s.id = true) :
    overviewAll db'.toDb (sites.map Site.id) = overviewAll db.toDb (sites.map Site.id) := by
  have hsites' : ∀ s ∈ sites, s ∈ db'.sites.rows :=
    fun s hs => h.site_mem (hsites s hs).1 (hsites s hs).2
  have hin : ∀ a : Asset, (sites.map Site.id).contains a.siteId = true → own a.siteId = true := by
    intro a ha
    obtain ⟨s, hs, hid⟩ := List.mem_map.mp (List.contains_iff_mem.mp ha)
    rw [← hid]
    exact (hsites s hs).2
  unfold overviewAll
  simp only [siteOf_any_contains hsites', siteOf_any_contains (fun s hs => (hsites s hs).1),
    h.unresolvedByPriority_eq hin, h.assets_eq hin]

theorem overviewSite_eq (h : AgreeOn own db db') {site : Nat} (hsite : own site = true) :
    overviewSite db'.toDb site = overviewSite db.toDb site := by
  have hin : ∀ a : Asset, (a.siteId == site) = true → own a.siteId = true := by
    intro a ha
    rw [beq_iff_eq.mp ha]
    exact hsite
  unfold overviewSite
  simp only [h.unresolvedByPriority_eq hin, h.assets_eq hin, h.getUnresolved_eq hsite]

theorem openTickets_eq (h : AgreeOn own db db') {site : Nat} (hsite : own site = true) :
    db'.openTickets.filter (fun t => t.siteId == site) =
      db.openTickets.filter (fun t => t.siteId == site) := by
  unfold DashboardDb.openTickets
  rw [h.statuses, List.filter_filter, List.filter_filter]
  refine filter_eq_of_imp h.tickets ?_
  intro t ht
  rw [beq_iff_eq.mp (Bool.and_eq_true_iff.mp ht).1]
  exact hsite

end DashboardDb.AgreeOn

theorem dashboardAll_eq {db : DashboardDb} {user : User} (hadmin : user.hasRole "admin" = false)
    (page : Option Int) (today : Int) :
    dashboardAll db user page today =
      (paginate (newestFirst db.openTickets) (page.getD 1) 5).map (fun pages =>
        ⟨if (db.sitesOf user).length > 0 then
            overviewAll db.toDb ((db.sitesOf user).map Site.id)
          else ⟨[], 0, none, 0, none⟩, none,
          if (db.sitesOf user).length > 0 then getAlarmsPerWeek db.alarms.rows today 8 else [],
          pages, db.openTickets.length⟩) := by
  unfold dashboardAll
  simp only [hadmin, Bool.false_eq_true, if_false]
  rw [Option.map_eq_bind]
  rfl

theorem dashboardSite_eq {db : DashboardDb} {site : Site} (h : site ∈ db.sites.rows)
    (page : Option Int) (today : Int) :
    dashboardSite db site.name page today =
      (paginate (newestFirst (db.openTickets.filter (fun t => t.siteId == site.id)))
        (page.getD 1) 6).map (fun pages =>
          ⟨overviewSite db.toDb site.id, some site, getAlarmsPerWeek db.alarms.rows today 8, pages,
            (db.openTickets.filter (fun t => t.siteId == site.id)).length⟩) := by
  unfold dashboardSite
  rw [(db.find_name h).1, (db.find_name h).2, Option.map_eq_bind]
  rfl

theorem DashboardDb.AgreeOn.dashboardAll_iff {db db' : DashboardDb} {user : User}
    (hadmin : user.hasRole "admin" = false) (hassigned : db'.assigned user = db.assigned user)
    (h : AgreeOn (db.assigned user) db db') (today : Int) :
    (∀ page, dashboardAll db' user page today = dashboardAll db user page today) ↔
      newestFirst db'.openTickets = newestFirst db.openTickets ∧
      (db.sitesOf user ≠ [] → ∀ i < 8, db'.otherAlarms (db.assigned user) today i =
        db.otherAlarms (db.assigned user) today i) := by
  have hsites : db'.sitesOf user = db.sitesOf user := by
    refine Eq.trans ?_ h.sites
    exact congrArg (fun own : Nat → Bool => db'.sites.rows.filter (fun s => own s.id)) hassigned
  have hoverview := h.overviewAll_eq (fun s (hs : s ∈ db.sitesOf user) => List.mem_filter.mp hs)
  simp only [dashboardAll_eq hadmin, hsites, hoverview, gt_iff_lt, List.length_pos_iff]
  constructor
  · intro hsame
    have hpages : newestFirst db'.openTickets = newestFirst db.openTickets := by
      refine eq_of_paginate_eq (by decide : 0 < 5) ?_
      intro k
      have hk := congrArg (Option.map (fun data : Dashboard => data.tickets.items))
        (hsame (some (k + 1)))
      rwa [Option.map_map, Option.map_map] at hk
    refine ⟨hpages, ?_⟩
    intro hne
    rw [← h.alarms_iff]
    obtain ⟨pages, hp, -⟩ := paginate_succ (newestFirst db.openTickets) 0 5
    have hfirst := hsame (some ((0 : Nat) + 1))
    rw [Option.getD_some, hpages, hp, Option.map_some, Option.map_some] at hfirst
    simpa [hne] using congrArg Dashboard.alarmcount (Option.some.inj hfirst)
  · rintro ⟨htickets, halarms⟩ page
    have hnum : db'.openTickets.length = db.openTickets.length := by
      rw [← newestFirst_length, htickets, newestFirst_length]
    rw [htickets, hnum]
    by_cases hne : db.sitesOf user = []
    · simp [hne]
    · simp only [ne_eq, hne, not_false_eq_true, if_true, (h.alarms_iff today 8).mpr (halarms hne)]

theorem DashboardDb.AgreeOn.dashboardSite_iff {db db' : DashboardDb} {site : Site}
    (hsite : site ∈ db.sites.rows) (h : AgreeOn (fun s => s == site.id) db db') (today : Int) :
    (∀ page, dashboardSite db' site.name page today = dashboardSite db site.name page today) ↔
      ∀ i < 8, db'.otherAlarms (fun s => s == site.id) today i =
        db.otherAlarms (fun s => s == site.id) today i := by
  have hown : (site.id == site.id) = true := beq_self_eq_true _
  have hsite' := h.site_mem hsite hown
  simp only [dashboardSite_eq hsite, dashboardSite_eq hsite', h.openTickets_eq hown,
    h.overviewSite_eq hown]
  rw [← h.alarms_iff]
  constructor
  · intro hsame
    obtain ⟨pages, hp, -⟩ := paginate_succ
      (newestFirst (db.openTickets.filter (fun t => t.siteId == site.id))) 0 6
    have hfirst := hsame (some ((0 : Nat) + 1))
    rw [Option.getD_some, hp, Option.map_some, Option.map_some] at hfirst
    exact congrArg Dashboard.alarmcount (Option.some.inj hfirst)
  · intro halarms page
    rw [halarms]

/-- The dashboard of all sites of a user is the same in two databases that agree on these
sites exactly if also the open tickets of all sites are the same, newest first, and the
other sites have as many alarms in each of the eight weeks. That of one site depends on
other sites in the numbers of their alarms only. -/
theorem dashboards_isolated_iff (db db' : DashboardDb) (today : Int) :
    (∀ user : User, user.hasRole "admin" = false → db'.assigned user = db.assigned user →
      DashboardDb.AgreeOn (db.assigned user) db db' →
      ((∀ page, dashboardAll db' user page today = dashboardAll db user page today) ↔
        newestFirst db'.openTickets = newestFirst db.openTickets ∧
        (db.sitesOf user ≠ [] → ∀ i < 8, db'.otherAlarms (db.assigned user) today i =
          db.otherAlarms (db.assigned user) today i))) ∧
    ∀ site ∈ db.sites.rows, DashboardDb.AgreeOn (fun s => s == site.id) db db' →
      ((∀ page, dashboardSite db' site.name page today = dashboardSite db site.name page today) ↔
        ∀ i < 8, db'.otherAlarms (fun s => s == site.id) today i =
          db.otherAlarms (fun s => s == site.id) today i) :=
  ⟨fun _ hadmin hassigned h => h.dashboardAll_iff hadmin hassigned today,
    fun _ hsite h => h.dashboardSite_iff hsite today⟩

/-- Two sites, the first of which is assigned to the operator. -/
def twoPlants : DashboardDb :=
  { plant with
    sites := ⟨[plantSite, { plantSite with id := 2, name := "mill" }], by decide⟩
    siteNames := by decide
    statuses := threeStatuses
    tickets := .empty
    alarms := .empty
    usersSites := {(1, 1)} }

def plantOperator : User := ⟨1, "operator", []⟩

theorem dashboards_isolated_iff_twoPlants :
    let db' := { twoPlants with
      assets := ⟨[fanUnit, { fanUnit with id := 2, health := 0, siteId := 2 }], by decide⟩ }
    twoPlants.sitesOf plantOperator = [plantSite] ∧
    (∀ page, dashboardAll db' plantOperator page 100 = dashboardAll twoPlants plantOperator page 100) ∧
    ∀ page, dashboardSite db' "plant" page 100 = dashboardSite twoPlants "plant" page 100 := by
  intro db'
  have hagree : DashboardDb.AgreeOn (twoPlants.assigned plantOperator) twoPlants db' :=
    ⟨by decide, by decide, by decide, by decide, by decide, rfl⟩
  have hagree' : DashboardDb.AgreeOn (fun s => s == plantSite.id) twoPlants db' :=
    ⟨by decide, by decide, by decide, by decide, by decide, rfl⟩
  have hsite : plantSite ∈ twoPlants.sites.rows := by decide
  have h := dashboards_isolated_iff twoPlants db' 100
  refine ⟨by decide, (h.1 plantOperator (by decide) rfl hagree).mpr ⟨rfl, ?_⟩,
    (h.2 plantSite hsite hagree').mpr ?_⟩
  · exact fun _ _ _ => rfl
  · exact fun _ _ => rfl

/-- A ticket and an alarm of the second site show on the dashboard of the operator, and the
alarm shows on the dashboard of the first site. -/
theorem dashboards_show_other_site :
    let db' := { twoPlants with
      tickets := ⟨[⟨1, "leak", "", some 5, none, none, none, none, none, none, none, none, none,
        some 1, 2, none, none, none⟩], by decide⟩
      alarms := ⟨[⟨1, 2, some (99 * 86400)⟩], by decide⟩ }
    plantOperator.hasRole "admin" = false ∧ db'.assigned plantOperator = twoPlants.assigned plantOperator ∧
    DashboardDb.AgreeOn (twoPlants.assigned plantOperator) twoPlants db' ∧
    DashboardDb.AgreeOn (fun s => s == plantSite.id) twoPlants db' ∧
    (dashboardAll db' plantOperator none 100).map Dashboard.ticketNum = some 1 ∧
    (dashboardAll twoPlants plantOperator none 100).map Dashboard.ticketNum = some 0 ∧
    (dashboardAll db' plantOperator none 100).map Dashboard.alarmcount ≠
      (dashboardAll twoPlants plantOperator none 100).map Dashboard.alarmcount ∧
    (dashboardSite db' "plant" none 100).map Dashboard.alarmcount ≠
      (dashboardSite twoPlants "plant" none 100).map Dashboard.alarmcount := by
  intro db'
  refine ⟨by decide, rfl, ⟨by decide, by decide, by decide, by decide, by decide, rfl⟩,
    ⟨by decide, by decide, by decide, by decide, by decide, rfl⟩, ?_⟩
  decide +kernel

end Medusa
