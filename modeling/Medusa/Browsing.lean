import Mathlib.Data.String.Basic
import Mathlib.Order.WithBot
import Medusa.Itp.Projects
import Medusa.Pages
import Medusa.Ticket.Filter

/-! The alarms and the projects, which are shown page by page. -/

namespace Medusa

open Relational

/-- The columns of an alarm that the list shows. -/
structure SiteAlarm where
  medusaId : Nat
  siteId : Nat
  triggeredTimestamp : Option Int
  priority : Option Int
  alarmText : Option String
  alarmState : Option Int
deriving DecidableEq

/-- A project with the user that it is assigned to. -/
structure ListedProject extends Project where
  assignedToId : Option Nat
deriving DecidableEq

def ListedProject.key (p : ListedProject) : Nat := p.id

structure BrowsingDb where
  sites : Table Site Site.id
  users : UserTable
  -- user and site that is assigned to the user
  usersSites : Finset (Nat × Nat)
  alarms : Table SiteAlarm SiteAlarm.medusaId
  projects : Table ListedProject ListedProject.key

/-- The database refuses a negative offset. -/
def paged {α : Type} (rows : List α) (page : Int) (perPage : Nat) : Option (List α) := do
  guard (1 ≤ page)
  pure (pageOf perPage (page - 1).toNat rows)

theorem paged_succ {α : Type} (rows : List α) (k perPage : Nat) :
    paged rows (k + 1) perPage = some (pageOf perPage k rows) := by
  have hpage : (1 : Int) ≤ k + 1 := by omega
  have hk : ((k : Int) + 1 - 1).toNat = k := by omega
  simp [paged, guard, hpage]

section Alarms

/-- `TriggeredTimestamp.desc()`, with the alarms that have none at the end. -/
def SiteAlarm.newest (a : SiteAlarm) : (WithBot Int)ᵒᵈ := OrderDual.toDual a.triggeredTimestamp

/-- Any other state is not in the dictionary. -/
def SiteAlarm.alarmStateText (a : SiteAlarm) : Option String :=
  match a.alarmState with
  | some 0 => some "Normal"
  | some 1 => some "Alarm"
  | some 2 => some "Checked"
  | some 3 => some "Reset"
  | some 4 => some "Disabled"
  | _ => none

structure AlarmEntry where
  timestamp : Option Int
  priority : Option Int
  description : Option String
  state : String
deriving DecidableEq

def SiteAlarm.transform (a : SiteAlarm) : Option AlarmEntry := do
  let state ← a.alarmStateText
  pure ⟨a.triggeredTimestamp, a.priority, a.alarmText, state⟩

/-- The alarms that are queried. -/
def BrowsingDb.alarmsOf (db : BrowsingDb) (sitename : String) : Option (List SiteAlarm) :=
  if sitename = "all" then some db.alarms.rows else do
    let site ← db.sites.one? (fun s => s.name == sitename)
    pure (db.alarms.rows.filter (fun a => a.siteId == site.id))

/-- The alarms of a page. -/
def alarmItems (db : BrowsingDb) (sitename : String) (page : Int)
    (order : QueryOrder SiteAlarm.newest) : Option (List SiteAlarm) := do
  let alarms ← db.alarmsOf sitename
  paged (order.visit alarms) page 20

def alarmListPaged (db : BrowsingDb) (sitename : String) (page : Int)
    (order : QueryOrder SiteAlarm.newest) : Option (List AlarmEntry) := do
  let items ← alarmItems db sitename page order
  items.mapM SiteAlarm.transform

/-- The first alarm without a name for its state ends the page. -/
theorem mapM_transform_isSome (alarms : List SiteAlarm) :
    (alarms.mapM SiteAlarm.transform).isSome = true ↔ ∀ a ∈ alarms, a.alarmStateText.isSome = true := by
  induction alarms with
  | nil => simp
  | cons a rest ih =>
    rw [List.mapM_cons, List.forall_mem_cons, ← ih]
    cases ha : a.alarmStateText with
    | none => simp [SiteAlarm.transform, ha]
    | some state =>
      cases hrest : rest.mapM SiteAlarm.transform with
      | none => simp [SiteAlarm.transform, ha]
      | some entries => simp [SiteAlarm.transform, ha]

theorem nodup_of_alarmsOf {db : BrowsingDb} {sitename : String} {alarms : List SiteAlarm}
    (h : db.alarmsOf sitename = some alarms) : alarms.Nodup := by
  have hrows : db.alarms.rows.Nodup := List.Nodup.of_map _ db.alarms.nodup
  unfold BrowsingDb.alarmsOf at h
  split at h
  · obtain rfl := Option.some.inj h
    exact hrows
  · obtain ⟨site, -, hdb⟩ := Option.bind_eq_some_iff.mp h
    obtain rfl := Option.some.inj hdb
    exact hrows.filter _

/-- To go through the pages shows every alarm of the site once, in whatever order alarms of one
moment are listed each time, exactly if no page ends among such alarms; otherwise one of them
may be shown twice, and another not at all. All pages can be shown exactly if every alarm has
a state that has a name. -/
theorem alarms_browsed {db : BrowsingDb} {sitename : String} {alarms : List SiteAlarm}
    (halarms : db.alarmsOf sitename = some alarms) {n : Nat} (hn : alarms.length ≤ 20 * n) :
    ((∀ orders : Nat → QueryOrder SiteAlarm.newest, ∃ pages : Nat → List SiteAlarm,
      (∀ k < n, alarmItems db sitename ((k : Int) + 1) (orders k) = some (pages k)) ∧
        ((List.range n).flatMap pages).Perm alarms) ↔ BreaksApart SiteAlarm.newest alarms 20) ∧
    ((∀ order : QueryOrder SiteAlarm.newest, ∀ k < n,
      (alarmListPaged db sitename ((k : Int) + 1) order).isSome = true) ↔
        ∀ a ∈ alarms, a.alarmStateText.isSome = true) := by
  have hitems : ∀ (k : Nat) (order : QueryOrder SiteAlarm.newest),
      alarmItems db sitename ((k : Int) + 1) order = some (pageOf 20 k (order.visit alarms)) := by
    intro k order
    rw [alarmItems, halarms]
    exact paged_succ _ _ _
  refine ⟨readPages_iff (by omega) (nodup_of_alarmsOf halarms) hn hitems, ?_⟩
  have hshown : ∀ (order : QueryOrder SiteAlarm.newest) (k : Nat),
      (alarmListPaged db sitename ((k : Int) + 1) order).isSome = true ↔
        ∀ a ∈ pageOf 20 k (order.visit alarms), a.alarmStateText.isSome = true := by
    intro order k
    rw [alarmListPaged, hitems]
    exact mapM_transform_isSome _
  simp only [hshown]
  constructor
  · intro hall a ha
    have hsorts := (QueryOrder.stored SiteAlarm.newest).sorts alarms
    obtain ⟨k, hk, hpage⟩ := exists_page (by omega) hn hsorts ha
    exact hall (.stored SiteAlarm.newest) k hk a hpage
  · intro hall order k _ a ha
    exact hall a ((order.sorts alarms).perm.mem_iff.mp (mem_of_mem_pageOf ha))

end Alarms

section Projects

/-- Only `all` and ids are sent for the user. -/
structure ProjectFilter where
  name : String
  projectNumber : String
  site : String
  assigned : Option Nat

/-- `column.contains(text)`. -/
def columnContains (text column : String) : Bool :=
  like (likePieces ('%' :: (foldCase text ++ ['%']))) (foldCase column)

def BrowsingDb.sitesOf (db : BrowsingDb) (user : User) : List Site :=
  if user.hasRole "admin" then db.sites.rows
  else db.sites.rows.filter (fun s => decide ((user.id, s.id) ∈ db.usersSites))

def BrowsingDb.projectsOf (db : BrowsingDb) (user : User) : List ListedProject :=
  db.projects.rows.filter (fun p => (db.sitesOf user).any (fun s => p.siteId == some s.id))

def allProjects (db : BrowsingDb) (user : User) (page : Int)
    (order : QueryOrder (fun p : ListedProject => p.name)) : Option (List ListedProject) :=
  paged (order.visit (db.projectsOf user)) page 5

/-- The filters by name and by number. -/
def byText (text : String) (column : ListedProject → String) (projects : List ListedProject) :
    List ListedProject :=
  if text = "" then projects else projects.filter (fun p => columnContains text (column p))

/-- A site that is not found has no id. -/
def bySite (db : BrowsingDb) (site : String) (projects : List ListedProject) :
    Option (List ListedProject) :=
  if site = "all" then some projects else do
    let site ← db.sites.first? (fun s => s.name == site)
    pure (projects.filter (fun p => p.siteId == some site.id))

def byAssigned (db : BrowsingDb) (assigned : Option Nat) (projects : List ListedProject) :
    Option (List ListedProject) :=
  match assigned with
  | none => some projects
  | some id => do
    let user ← db.users.get? id
    pure (projects.filter (fun p => p.assignedToId == some user.id))

def filterProject (db : BrowsingDb) (user : User) (f : ProjectFilter) (page : Int)
    (order : QueryOrder (fun p : ListedProject => p.name)) : Option (List ListedProject) := do
  let projects := byText f.name (fun p => p.name) (db.projectsOf user)
  let projects := byText f.projectNumber (fun p => p.jobNumber) projects
  let projects ← bySite db f.site projects
  let projects ← byAssigned db f.assigned projects
  paged (order.visit projects) page 5

/-- The site and the user of the filter are found. -/
def ProjectFilter.Known (db : BrowsingDb) (f : ProjectFilter) : Prop :=
  (f.site ≠ "all" → ∃ s ∈ db.sites.rows, s.name = f.site) ∧
    ∀ id, f.assigned = some id → ∃ u ∈ db.users.rows, u.id = id

/-- The project is one that the filter is for. -/
def ProjectFilter.selects (db : BrowsingDb) (f : ProjectFilter) (p : ListedProject) : Bool :=
  (f.name == "" || columnContains f.name p.name) &&
    (f.projectNumber == "" || columnContains f.projectNumber p.jobNumber) &&
    (f.site == "all" || (db.sites.first? (fun s => s.name == f.site)).any (fun s => p.siteId == some s.id)) &&
    f.assigned.all (fun id => p.assignedToId == some id)

theorem byText_eq (text : String) (column : ListedProject → String) (l : List ListedProject) :
    byText text column l = l.filter (fun p => text == "" || columnContains text (column p)) := by
  unfold byText
  by_cases ht : text = ""
  · simp [ht]
  · have hne : (text == "") = false := beq_eq_false_iff_ne.mpr ht
    simp [ht, hne]

theorem bySite_eq {db : BrowsingDb} {site : String}
    (h : site ≠ "all" → ∃ s ∈ db.sites.rows, s.name = site) (l : List ListedProject) :
    bySite db site l = some (l.filter (fun p => site == "all" ||
      (db.sites.first? (fun s => s.name == site)).any (fun s => p.siteId == some s.id))) := by
  unfold bySite
  by_cases hall : site = "all"
  · simp [hall]
  · obtain ⟨s, hs, hname⟩ := h hall
    have hfound : (db.sites.first? (fun s => s.name == site)).isSome = true :=
      List.find?_isSome.mpr ⟨s, hs, by simp [hname]⟩
    obtain ⟨s₀, hfirst⟩ := Option.isSome_iff_exists.mp hfound
    have hne : (site == "all") = false := beq_eq_false_iff_ne.mpr hall
    simp [hall, hne, hfirst]

theorem byAssigned_eq {db : BrowsingDb} {assigned : Option Nat}
    (h : ∀ id, assigned = some id → ∃ u ∈ db.users.rows, u.id = id) (l : List ListedProject) :
    byAssigned db assigned l =
      some (l.filter (fun p => assigned.all (fun id => p.assignedToId == some id))) := by
  cases assigned with
  | none => simp [byAssigned]
  | some id =>
    obtain ⟨u, hu, hid⟩ := h id rfl
    have hget : db.users.get? id = some u := Table.get?_eq_some.mpr ⟨hu, hid⟩
    simp [byAssigned, hget, hid]

theorem filterProject_eq {db : BrowsingDb} {f : ProjectFilter} (hknown : f.Known db) (user : User)
    (page : Int) (order : QueryOrder (fun p : ListedProject => p.name)) :
    filterProject db user f page order =
      paged (order.visit ((db.projectsOf user).filter (f.selects db))) page 5 := by
  simp only [filterProject, byText_eq, bySite_eq hknown.1, byAssigned_eq hknown.2,
    Option.bind_eq_bind, Option.bind_some, List.filter_filter]
  congr 3
  funext p
  simp only [ProjectFilter.selects, Bool.and_comm, Bool.and_left_comm]

/-- The page of all projects is that of the filter with nothing filled in. -/
theorem allProjects_eq (db : BrowsingDb) (user : User) (page : Int)
    (order : QueryOrder (fun p : ListedProject => p.name)) :
    allProjects db user page order = filterProject db user ⟨"", "", "all", none⟩ page order := by
  simp [allProjects, filterProject, byText, bySite, byAssigned]

theorem ProjectFilter.site_of_selects {db : BrowsingDb} {f : ProjectFilter} {p : ListedProject}
    (h : f.selects db p = true) (hsite : f.site ≠ "all") :
    ∃ s, db.sites.first? (fun s => s.name == f.site) = some s ∧ p.siteId = some s.id := by
  simp only [selects, Bool.and_eq_true, Bool.or_eq_true, beq_iff_eq] at h
  have hany := h.1.2.resolve_left hsite
  rw [Option.any_eq_true] at hany
  obtain ⟨s, hs, he⟩ := hany
  exact ⟨s, hs, beq_iff_eq.mp he⟩

/-- To go through the pages shows every project that the filter selects and that the user may
see once, in whatever order projects of one name are listed each time, exactly if no page ends
among such projects. If one site is chosen, there are none, since a site has a name once. -/
theorem projects_browsed {db : BrowsingDb} {f : ProjectFilter} (hknown : f.Known db)
    (hnames : db.projects.Distinct (fun p => p.siteAndName)) (user : User) {n : Nat}
    (hn : ((db.projectsOf user).filter (f.selects db)).length ≤ 5 * n) :
    let selected := (db.projectsOf user).filter (f.selects db)
    ((∀ orders : Nat → QueryOrder (fun p : ListedProject => p.name), ∃ pages : Nat → List ListedProject,
      (∀ k < n, filterProject db user f ((k : Int) + 1) (orders k) = some (pages k)) ∧
        ((List.range n).flatMap pages).Perm selected) ↔
        BreaksApart (fun p : ListedProject => p.name) selected 5) ∧
    (f.site ≠ "all" → BreaksApart (fun p : ListedProject => p.name) selected 5) := by
  intro selected
  have hnodup : selected.Nodup :=
    ((List.Nodup.of_map _ db.projects.nodup).filter _).filter _
  refine ⟨readPages_iff (by omega) hnodup hn ?_, ?_⟩
  · intro k order
    rw [filterProject_eq hknown]
    exact paged_succ _ _ _
  · intro hsite
    refine breaksApart_of_nodup ?_ 5
    refine (List.nodup_map_iff_inj_on hnodup).mpr ?_
    intro p hp q hq he
    obtain ⟨hpown, hpsel⟩ := List.mem_filter.mp hp
    obtain ⟨hqown, hqsel⟩ := List.mem_filter.mp hq
    obtain ⟨s, hs, hps⟩ := ProjectFilter.site_of_selects hpsel hsite
    obtain ⟨t, ht, hqt⟩ := ProjectFilter.site_of_selects hqsel hsite
    have hst : s = t := Option.some.inj (hs.symm.trans ht)
    refine hnames p (List.mem_filter.mp hpown).1 q (List.mem_filter.mp hqown).1 ?_ ?_
    · simp [Project.siteAndName, hps]
    · simp [Project.siteAndName, hps, hqt, hst, he]

end Projects

def plantLists : BrowsingDb where
  sites := ⟨[plantSite], plantSite_nodup⟩
  users := helpDesk.users
  usersSites := ∅
  alarms := ⟨[⟨1, 1, some 10, some 2, some "fan tripped", some 1⟩,
    ⟨2, 1, some 10, some 2, some "fan stopped", some 3⟩], by decide⟩
  projects := ⟨[⟨upgradeProject, none⟩], by decide⟩

theorem alarms_browsed_plant : ∃ alarms, plantLists.alarmsOf "plant" = some alarms ∧ alarms.length = 2 ∧
    (∀ orders : Nat → QueryOrder SiteAlarm.newest, ∃ pages : Nat → List SiteAlarm,
      (∀ k : Nat, k < 1 → alarmItems plantLists "plant" ((k : Int) + 1) (orders k) = some (pages k)) ∧
        ((List.range 1).flatMap pages).Perm alarms) := by
  have halarms : plantLists.alarmsOf "plant" = some plantLists.alarms.rows := by decide
  refine ⟨_, halarms, rfl, (alarms_browsed halarms (n := 1) (by decide)).1.mpr ?_⟩
  rintro k v ⟨hlow, hhigh⟩
  have hlen : plantLists.alarms.rows.countP (fun r => decide (r.newest ≤ v)) ≤ 2 :=
    List.countP_le_length
  omega

theorem projects_browsed_plant :
    ProjectFilter.Known plantLists ⟨"", "", "plant", none⟩ ∧
    BreaksApart (fun p : ListedProject => p.name) ((plantLists.projectsOf ⟨3, "manager", ["admin"]⟩).filter
      (ProjectFilter.selects plantLists ⟨"", "", "plant", none⟩)) 5 := by
  have hknown : ProjectFilter.Known plantLists ⟨"", "", "plant", none⟩ :=
    ⟨fun _ => ⟨plantSite, by decide, rfl⟩, fun _ h => absurd h.symm (Option.some_ne_none _)⟩
  have hnames : plantLists.projects.Distinct (fun p => p.siteAndName) := by
    unfold Table.Distinct
    decide
  exact ⟨hknown, (projects_browsed hknown hnames ⟨3, "manager", ["admin"]⟩ (n := 1) (by decide)).2 (by decide)⟩

end Medusa
