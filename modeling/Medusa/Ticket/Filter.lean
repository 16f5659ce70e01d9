import Medusa.Dashboard
import Medusa.Ticket.Requests

/-! The list of tickets and its filtered form. Both begin with the tickets that the user may
see; the filtered one holds them in a list where it should be a query, and what it compares
are the rows that it finds for the names in the request. -/

namespace Medusa

open Relational

structure ListingDb extends TicketDb where
  -- user and site that is assigned to the user
  usersSites : Finset (Nat × Nat)

/-- `current_user.sites`. -/
def ListingDb.sitesOf (db : ListingDb) (user : User) : List Site :=
  db.sites.rows.filter (fun s => decide ((user.id, s.id) ∈ db.usersSites))

def ListingDb.checkValidSite (db : ListingDb) (user : User) (siteid : Option Nat) : Bool :=
  match siteid.bind db.sites.get? with
  | none => false
  | some site => user.hasRole "admin" || decide (site ∈ db.sitesOf user)

def tickets (db : ListingDb) (user : User) (siteid : Option Nat) (page : Option Int) :
    Option Pagination := do
  let accessAllowed := db.checkValidSite user siteid
  if siteid ≠ none ∧ accessAllowed = true then
    let site ← siteid.bind db.sites.get?
    paginate (newestFirst (db.tickets.rows.filter (fun t => t.siteId == site.id))) (page.getD 1) 5
  else if user.hasRole "admin" then
    paginate (newestFirst db.tickets.rows) (page.getD 1) 5
  else
    let siteIds := (db.sitesOf user).map Site.id
    paginate (newestFirst (db.tickets.rows.filter (fun t => siteIds.contains t.siteId)))
      (page.getD 1) 5

/-- What the variable `tickets` holds. -/
inductive Selection
  | query (rows : List FlicketTicket)
  | list (rows : List FlicketTicket)

def Selection.filter (p : FlicketTicket → Bool) : Selection → Option Selection
  | query rows => some (query (rows.filter p))
  -- a list has no such method
  | list _ => none

def Selection.paginate (page : Int) : Selection → Option Pagination
  | query rows => Medusa.paginate (newestFirst rows) page 5
  | list _ => none

/-- The first row of a name, as the database compares names. -/
def findNamed {ρ : Type} {key : ρ → Nat} (t : Table ρ key) (label : ρ → String) (name : String) :
    Option Nat :=
  (t.first? (fun r => foldCase (label r) == foldCase name)).map key

/-- `row` is the row that is found for the name, if there is one. -/
def Selection.filterBy (name : String) (row : Option Nat) (column : FlicketTicket → Option Nat)
    (s : Selection) : Option Selection :=
  if name = "all" then some s else
    row.bind (fun k => s.filter (fun t => column t == some k))

structure TicketFilter where
  name : String
  priority : String
  category : String
  status : String

def TicketFilter.neutral : TicketFilter := ⟨"", "all", "all", "all"⟩

/-- `ticket_name.contains(name)`. -/
def nameContains (name : String) (t : FlicketTicket) : Bool :=
  like (likePieces ('%' :: (foldCase name ++ ['%']))) (foldCase t.ticketName)

def ListingDb.findPriority (db : ListingDb) : String → Option Nat :=
  findNamed db.priorities FlicketPriority.priority

def ListingDb.findCategory (db : ListingDb) : String → Option Nat :=
  findNamed db.categories FlicketCategory.category

def Selection.filterName (name : String) (s : Selection) : Option Selection :=
  if name = "" then some s else s.filter (nameContains name)

def Selection.narrow (db : ListingDb) (f : TicketFilter) (s : Selection) : Option Selection := do
  let s ← s.filterName f.name
  let s ← s.filterBy f.priority (db.findPriority f.priority) FlicketTicket.ticketPriorityId
  let s ← s.filterBy f.category (db.findCategory f.category) FlicketTicket.categoryId
  s.filterBy f.status (db.findStatus f.status) FlicketTicket.statusId

def ListingDb.selection (db : ListingDb) (user : User) (siteid : Option Nat) : Option Selection :=
  -- the test for a site is one for the function `id`, which is there
  if db.checkValidSite user siteid = true then do
    let site ← siteid.bind db.sites.get?
    pure (.query (db.tickets.rows.filter (fun t => t.siteId == site.id)))
  else if user.hasRole "admin" = true then some (.query db.tickets.rows)
  else some (.list ((db.sitesOf user).flatMap (fun s =>
    db.tickets.rows.filter (fun t => t.siteId == s.id))))

def filterTickets (db : ListingDb) (user : User) (siteid : Option Nat) (f : TicketFilter)
    (page : Option Int) : Option Pagination := do
  let s ← db.selection user siteid
  let s ← s.narrow db f
  s.paginate (page.getD 1)

/-- The tickets that a user sees for a site: those of the site if they have access to it, and
otherwise all tickets of their sites. -/
def ListingDb.visible (db : ListingDb) (user : User) (siteid : Option Nat) : List FlicketTicket :=
  db.tickets.rows.filter (fun t =>
    if db.checkValidSite user siteid then siteid == some t.siteId
    else user.hasRole "admin" || (db.sitesOf user).any (fun s => t.siteId == s.id))

/-- The row that the ticket refers to has the name. -/
def hasName {ρ : Type} {key : ρ → Nat} (t : Table ρ key) (label : ρ → String) (name : String)
    (column : Option Nat) : Bool :=
  name == "all" || (column.bind t.get?).any (fun r => foldCase (label r) == foldCase name)

def hasFirst {ρ : Type} {key : ρ → Nat} (t : Table ρ key) (label : ρ → String) (name : String)
    (column : Option Nat) : Bool :=
  name == "all" || (findNamed t label name).any (fun k => column == some k)

def NameKnown {ρ : Type} {key : ρ → Nat} (t : Table ρ key) (label : ρ → String) (name : String) :
    Prop :=
  name ≠ "all" → ∃ r ∈ t.rows, foldCase (label r) = foldCase name

namespace TicketFilter

def contained (f : TicketFilter) (t : FlicketTicket) : Bool :=
  decide (foldCase f.name <:+: foldCase t.ticketName)

def matched (f : TicketFilter) (t : FlicketTicket) : Bool := f.name == "" || nameContains f.name t

def named (db : ListingDb) (f : TicketFilter) (t : FlicketTicket) : Bool :=
  hasName db.priorities FlicketPriority.priority f.priority t.ticketPriorityId &&
    hasName db.categories FlicketCategory.category f.category t.categoryId &&
    hasName db.statuses.toTable FlicketStatus.status f.status t.statusId

def chosen (db : ListingDb) (f : TicketFilter) (t : FlicketTicket) : Bool :=
  hasFirst db.priorities FlicketPriority.priority f.priority t.ticketPriorityId &&
    hasFirst db.categories FlicketCategory.category f.category t.categoryId &&
    hasFirst db.statuses.toTable FlicketStatus.status f.status t.statusId

def Known (db : ListingDb) (f : TicketFilter) : Prop :=
  NameKnown db.priorities FlicketPriority.priority f.priority ∧
    NameKnown db.categories FlicketCategory.category f.category ∧
    NameKnown db.statuses.toTable FlicketStatus.status f.status

end TicketFilter

section Names

variable {ρ : Type} {key : ρ → Nat} {t : Table ρ key} {label : ρ → String} {name : String}
  {column : Option Nat}

theorem nameKnown_iff (hname : name ≠ "all") :
    NameKnown t label name ↔ (findNamed t label name).isSome = true := by
  simp [NameKnown, hname, findNamed, Table.first?]

theorem hasName_of_hasFirst (h : hasFirst t label name column = true) :
    hasName t label name column = true := by
  simp only [hasFirst, Bool.or_eq_true, Option.any_eq_true, beq_iff_eq] at h
  rcases h with hall | ⟨k, hfind, rfl⟩
  · rw [hasName, hall, beq_self_eq_true, Bool.true_or]
  · obtain ⟨r, hr, rfl⟩ := Option.map_eq_some_iff.mp hfind
    obtain ⟨hrow, hname⟩ := Table.mem_of_first? hr
    have hget : t.get? (key r) = some r := Table.get?_eq_some.mpr ⟨hrow, rfl⟩
    rw [hasName, Option.bind_some, hget, Option.any_some, hname, Bool.or_true]

theorem hasFirst_of_hasName (hdistinct : (t.rows.map (fun r => foldCase (label r))).Nodup)
    (h : hasName t label name column = true) : hasFirst t label name column = true := by
  simp only [hasName, Bool.or_eq_true, Option.any_eq_true, beq_iff_eq] at h
  rcases h with hall | ⟨r, hrow, hname⟩
  · rw [hasFirst, hall, beq_self_eq_true, Bool.true_or]
  · obtain ⟨k, rfl, hget⟩ := Option.bind_eq_some_iff.mp hrow
    obtain ⟨hr, rfl⟩ := Table.get?_eq_some.mp hget
    cases hfirst : t.first? (fun r => foldCase (label r) == foldCase name) with
    | none =>
      have hno := Table.first?_eq_none hfirst r hr
      rw [hname, beq_self_eq_true] at hno
      exact Bool.noConfusion hno
    | some r' =>
      obtain ⟨hr', hname'⟩ := Table.mem_of_first? hfirst
      have hsame : r' = r := List.inj_on_of_nodup_map hdistinct hr' hr
        ((beq_iff_eq.mp hname').trans hname.symm)
      rw [hasFirst, findNamed, hfirst, hsame, Option.map_some, Option.any_some,
        beq_self_eq_true, Bool.or_true]

theorem Selection.filterBy_query {rows : List FlicketTicket}
    {column : FlicketTicket → Option Nat} {s : Selection} :
    (query rows).filterBy name (findNamed t label name) column = some s ↔
      NameKnown t label name ∧
        s = query (rows.filter (fun x => hasFirst t label name (column x))) := by
  by_cases hall : name = "all"
  · simp [filterBy, NameKnown, hasFirst, hall, eq_comm]
  · have hrows : ∀ k, findNamed t label name = some k →
        rows.filter (fun x => hasFirst t label name (column x)) =
          rows.filter (fun x => column x == some k) := by
      intro k hfind
      refine List.filter_congr ?_
      intro x _
      rw [hasFirst, beq_eq_false_iff_ne.mpr hall, Bool.false_or, hfind, Option.any_some]
    rw [filterBy, if_neg hall, nameKnown_iff hall]
    cases hfind : findNamed t label name with
    | none => simp
    | some k => simp [hrows k hfind, Selection.filter, eq_comm]

theorem Selection.filterBy_list {rows : List FlicketTicket} {row : Option Nat}
    {column : FlicketTicket → Option Nat} {s : Selection}
    (h : (list rows).filterBy name row column = some s) : s = list rows := by
  by_cases hall : name = "all"
  · simpa [filterBy, hall, eq_comm] using h
  · simp [filterBy, hall, Selection.filter] at h

theorem Selection.filterName_list {rows : List FlicketTicket} {s : Selection}
    (h : (list rows).filterName name = some s) : s = list rows := by
  by_cases hempty : name = ""
  · simpa [filterName, hempty, eq_comm] using h
  · simp [filterName, hempty, Selection.filter] at h

end Names

section Handlers

variable {db : ListingDb} {user : User} {siteid : Option Nat} {f : TicketFilter}
  {rows : List FlicketTicket} {s : Selection}

theorem TicketFilter.named_of_chosen {t : FlicketTicket} (h : f.chosen db t = true) :
    f.named db t = true := by
  simp only [chosen, Bool.and_eq_true] at h
  simp only [named, Bool.and_eq_true]
  exact ⟨⟨hasName_of_hasFirst h.1.1, hasName_of_hasFirst h.1.2⟩, hasName_of_hasFirst h.2⟩

theorem Selection.filterName_query :
    (query rows).filterName f.name = some (query (rows.filter f.matched)) := by
  by_cases hempty : f.name = ""
  · have hall : ∀ t ∈ rows, f.matched t = true := by
      intro t _
      rw [TicketFilter.matched, hempty, beq_self_eq_true, Bool.true_or]
    rw [filterName, if_pos hempty, List.filter_eq_self.mpr hall]
  · have hmatched : f.matched = nameContains f.name := by
      funext t
      rw [TicketFilter.matched, beq_eq_false_iff_ne.mpr hempty, Bool.false_or]
    rw [filterName, if_neg hempty, hmatched, Selection.filter]

theorem Selection.narrow_query :
    (query rows).narrow db f = some s ↔
      f.Known db ∧ s = query (rows.filter (fun t => f.matched t && f.chosen db t)) := by
  have hrows : (((rows.filter f.matched).filter (fun t =>
      hasFirst db.priorities FlicketPriority.priority f.priority t.ticketPriorityId)).filter
      (fun t => hasFirst db.categories FlicketCategory.category f.category t.categoryId)).filter
      (fun t => hasFirst db.statuses.toTable FlicketStatus.status f.status t.statusId) =
      rows.filter (fun t => f.matched t && f.chosen db t) := by
    simp only [List.filter_filter]
    refine List.filter_congr ?_
    intro t _
    rw [TicketFilter.chosen]
    ac_rfl
  simp only [narrow, filterName_query, Option.bind_eq_bind, Option.bind_some,
    Option.bind_eq_some_iff]
  constructor
  · rintro ⟨_, hbyPriority, _, hbyCategory, hbyStatus⟩
    obtain ⟨hpriority, rfl⟩ := filterBy_query.mp hbyPriority
    obtain ⟨hcategory, rfl⟩ := filterBy_query.mp hbyCategory
    obtain ⟨hstatus, rfl⟩ := filterBy_query.mp hbyStatus
    exact ⟨⟨hpriority, hcategory, hstatus⟩, congrArg query hrows⟩
  · rintro ⟨⟨hpriority, hcategory, hstatus⟩, rfl⟩
    refine ⟨_, filterBy_query.mpr ⟨hpriority, rfl⟩, _, filterBy_query.mpr ⟨hcategory, rfl⟩, ?_⟩
    exact filterBy_query.mpr ⟨hstatus, congrArg query hrows.symm⟩

theorem Selection.narrow_list (h : (list rows).narrow db f = some s) : s = list rows := by
  simp only [narrow, Option.bind_eq_bind, Option.bind_eq_some_iff] at h
  obtain ⟨s₁, hname, s₂, hpriority, s₃, hcategory, hstatus⟩ := h
  obtain rfl := filterName_list hname
  obtain rfl := filterBy_list hpriority
  obtain rfl := filterBy_list hcategory
  exact filterBy_list hstatus

theorem ListingDb.checkValidSite_eq_true :
    db.checkValidSite user siteid = true ↔
      ∃ site, siteid.bind db.sites.get? = some site ∧
        (user.hasRole "admin" = true ∨ site ∈ db.sitesOf user) := by
  unfold checkValidSite
  cases siteid.bind db.sites.get? with
  | none => simp
  | some site => simp

theorem ListingDb.visible_of_valid {site : Site} (hsite : siteid.bind db.sites.get? = some site)
    (hvalid : db.checkValidSite user siteid = true) :
    db.visible user siteid = db.tickets.rows.filter (fun t => t.siteId == site.id) := by
  obtain ⟨k, rfl, hget⟩ := Option.bind_eq_some_iff.mp hsite
  obtain ⟨-, rfl⟩ := Table.get?_eq_some.mp hget
  unfold visible
  refine List.filter_congr ?_
  intro t _
  rw [if_pos hvalid, Option.some_beq_some, BEq.comm]

theorem ListingDb.visible_of_admin (hvalid : db.checkValidSite user siteid = false)
    (hadmin : user.hasRole "admin" = true) : db.visible user siteid = db.tickets.rows := by
  simp [visible, hvalid, hadmin]

theorem tickets_eq (page : Option Int) :
    tickets db user siteid page =
      paginate (newestFirst (db.visible user siteid)) (page.getD 1) 5 := by
  cases hvalid : db.checkValidSite user siteid with
  | true =>
    obtain ⟨site, hsite, -⟩ := ListingDb.checkValidSite_eq_true.mp hvalid
    have hsome : siteid ≠ none := by
      rintro rfl
      exact absurd hsite (Option.some_ne_none site).symm
    rw [ListingDb.visible_of_valid hsite hvalid]
    simp [tickets, hvalid, hsome, hsite]
  | false =>
    cases hadmin : user.hasRole "admin" with
    | true =>
      rw [ListingDb.visible_of_admin hvalid hadmin]
      simp [tickets, hvalid, hadmin]
    | false =>
      have hvisible : db.visible user siteid = db.tickets.rows.filter
          (fun t => ((db.sitesOf user).map Site.id).contains t.siteId) := by
        unfold ListingDb.visible
        refine List.filter_congr ?_
        intro t _
        rw [hvalid, hadmin, if_neg Bool.false_ne_true, Bool.false_or, List.contains_map]
      rw [hvisible]
      simp [tickets, hvalid, hadmin]

theorem ListingDb.selection_query
    (h : user.hasRole "admin" = true ∨ db.checkValidSite user siteid = true) :
    db.selection user siteid = some (.query (db.visible user siteid)) := by
  cases hvalid : db.checkValidSite user siteid with
  | true =>
    obtain ⟨site, hsite, -⟩ := checkValidSite_eq_true.mp hvalid
    rw [visible_of_valid hsite hvalid]
    simp [selection, hvalid, hsite]
  | false =>
    have hadmin : user.hasRole "admin" = true := by simpa [hvalid] using h
    rw [visible_of_admin hvalid hadmin]
    simp [selection, hvalid, hadmin]

theorem filterTickets_eq
    (h : user.hasRole "admin" = true ∨ db.checkValidSite user siteid = true)
    (hknown : f.Known db) (page : Option Int) :
    filterTickets db user siteid f page = paginate (newestFirst ((db.visible user siteid).filter
      (fun t => f.matched t && f.chosen db t))) (page.getD 1) 5 := by
  have hnarrow : (Selection.query (db.visible user siteid)).narrow db f = some (.query _) :=
    Selection.narrow_query.mpr ⟨hknown, rfl⟩
  simp only [filterTickets, ListingDb.selection_query h, Option.bind_eq_bind, Option.bind_some,
    hnarrow, Selection.paginate]

/-- A page is returned only from a query, and for names that are there. -/
theorem filterTickets_eq_some {page : Option Int} {pages : Pagination}
    (h : filterTickets db user siteid f page = some pages) :
    (user.hasRole "admin" = true ∨ db.checkValidSite user siteid = true) ∧ f.Known db := by
  simp only [filterTickets, Option.bind_eq_bind, Option.bind_eq_some_iff] at h
  obtain ⟨s, hselection, s', hnarrow, hpage⟩ := h
  by_cases haccess : user.hasRole "admin" = true ∨ db.checkValidSite user siteid = true
  · rw [ListingDb.selection_query haccess] at hselection
    obtain rfl := Option.some.inj hselection
    exact ⟨haccess, (Selection.narrow_query.mp hnarrow).1⟩
  · rw [not_or] at haccess
    rw [ListingDb.selection, if_neg haccess.2, if_neg haccess.1] at hselection
    obtain rfl := Option.some.inj hselection
    obtain rfl := Selection.narrow_list hnarrow
    exact absurd hpage (Option.some_ne_none pages).symm

theorem paginate_filter_iff {p q : FlicketTicket → Bool} :
    (∀ page : Option Int, paginate (newestFirst (rows.filter p)) (page.getD 1) 5 =
        paginate (newestFirst (rows.filter q)) (page.getD 1) 5) ↔
      ∀ t ∈ rows, p t = q t := by
  constructor
  · intro hpages
    have hsorted : newestFirst (rows.filter p) = newestFirst (rows.filter q) := by
      refine eq_of_paginate_eq (by decide : 0 < 5) ?_
      intro k
      exact congrArg (Option.map Pagination.items) (hpages (some (k + 1)))
    intro t ht
    have hmem : t ∈ rows.filter p ↔ t ∈ rows.filter q := by
      rw [← (newestFirst_perm _).mem_iff, hsorted, (newestFirst_perm _).mem_iff]
    rw [List.mem_filter, List.mem_filter, and_iff_right ht, and_iff_right ht] at hmem
    exact Bool.eq_iff_iff.mpr hmem
  · intro hsame page
    rw [List.filter_congr hsame]

/-- What the filters keep is what they say exactly if a ticket with the right names has the
rows that are found for them, and the pattern of the text finds the text. -/
theorem TicketFilter.kept_iff {t : FlicketTicket} :
    (f.matched t && f.chosen db t) = (f.contained t && f.named db t) ↔
      (f.contained t = true → f.named db t = true → f.chosen db t = true) ∧
      (f.chosen db t = true → (f.matched t = true ↔ f.contained t = true)) := by
  have hnamed : f.chosen db t = true → f.named db t = true := f.named_of_chosen
  rw [Bool.eq_iff_iff, Bool.and_eq_true, Bool.and_eq_true]
  constructor
  · intro h
    refine ⟨fun hcontained hname => (h.mpr ⟨hcontained, hname⟩).2, ?_⟩
    intro hchosen
    exact ⟨fun hmatched => (h.mp ⟨hmatched, hchosen⟩).1,
      fun hcontained => (h.mpr ⟨hcontained, hnamed hchosen⟩).1⟩
  · rintro ⟨hfirst, htext⟩
    constructor
    · rintro ⟨hmatched, hchosen⟩
      exact ⟨(htext hchosen).mp hmatched, hnamed hchosen⟩
    · rintro ⟨hcontained, hname⟩
      have hchosen := hfirst hcontained hname
      exact ⟨(htext hchosen).mpr hcontained, hchosen⟩

theorem TicketFilter.matched_iff {t : FlicketTicket}
    (hplain : ∀ c ∈ foldCase f.name, c ∉ ['%', '_', '\\']) :
    f.matched t = true ↔ f.contained t = true := by
  have hpieces : likePieces ('%' :: (foldCase f.name ++ ['%'])) =
      .many :: ((foldCase f.name).map Piece.char ++ [.many]) := by
    rw [likePieces, likePieces_append hplain]
    rfl
  rw [matched, nameContains, hpieces, contained, decide_eq_true_eq, Bool.or_eq_true, like_contains,
    beq_iff_eq, or_iff_right_iff_imp]
  intro hempty
  rw [hempty]
  exact List.nil_infix

/-- With names that are all distinct, as those of the statuses are, and a text without
wildcards, the filters keep the tickets that satisfy them. -/
theorem filterTickets_of_distinct
    (haccess : user.hasRole "admin" = true ∨ db.checkValidSite user siteid = true)
    (hknown : f.Known db) (hplain : ∀ c ∈ foldCase f.name, c ∉ ['%', '_', '\\'])
    (hpriorities : (db.priorities.rows.map (fun p => foldCase p.priority)).Nodup)
    (hcategories : (db.categories.rows.map (fun c => foldCase c.category)).Nodup)
    (page : Option Int) :
    filterTickets db user siteid f page = paginate (newestFirst ((db.visible user siteid).filter
      (fun t => f.contained t && f.named db t))) (page.getD 1) 5 := by
  rw [filterTickets_eq haccess hknown]
  refine paginate_filter_iff.mpr ?_ page
  intro t _
  refine TicketFilter.kept_iff.mpr ⟨?_, fun _ => TicketFilter.matched_iff hplain⟩
  intro _ hnamed
  simp only [TicketFilter.named, Bool.and_eq_true] at hnamed
  obtain ⟨⟨hpriority, hcategory⟩, hstatus⟩ := hnamed
  rw [TicketFilter.chosen, hasFirst_of_hasName hpriorities hpriority,
    hasFirst_of_hasName hcategories hcategory,
    hasFirst_of_hasName db.statuses.distinct hstatus]
  rfl

end Handlers

/-- The filtered list is the page of the visible tickets that satisfy the filters, and without
filters the same as the list of tickets, exactly for admins and users with access to the site,
if every name in the request is there and what it finds decides. -/
theorem filterTickets_iff (db : ListingDb) (user : User) (siteid : Option Nat) (f : TicketFilter) :
    ((∀ page, filterTickets db user siteid .neutral page = tickets db user siteid page) ∧
      ∀ page, filterTickets db user siteid f page =
        paginate (newestFirst ((db.visible user siteid).filter
          (fun t => f.contained t && f.named db t))) (page.getD 1) 5) ↔
      (user.hasRole "admin" = true ∨ db.checkValidSite user siteid = true) ∧ f.Known db ∧
        ∀ t ∈ db.visible user siteid,
          (f.contained t = true → f.named db t = true → f.chosen db t = true) ∧
          (f.chosen db t = true → (f.matched t = true ↔ f.contained t = true)) := by
  simp only [← TicketFilter.kept_iff, ← paginate_filter_iff]
  constructor
  · rintro ⟨-, hpages⟩
    obtain ⟨pages, hfirst, -⟩ := paginate_succ (newestFirst ((db.visible user siteid).filter
      (fun t => f.contained t && f.named db t))) 0 5
    obtain ⟨haccess, hknown⟩ := filterTickets_eq_some ((hpages (some ((0 : Nat) + 1))).trans hfirst)
    refine ⟨haccess, hknown, ?_⟩
    intro page
    rw [← filterTickets_eq haccess hknown, hpages]
  · rintro ⟨haccess, hknown, hpages⟩
    refine ⟨?_, fun page => (filterTickets_eq haccess hknown page).trans (hpages page)⟩
    intro page
    have hneutral : TicketFilter.neutral.Known db :=
      ⟨fun h => absurd rfl h, fun h => absurd rfl h, fun h => absurd rfl h⟩
    rw [filterTickets_eq haccess hneutral, tickets_eq]
    have hall : (db.visible user siteid).filter (fun t =>
        TicketFilter.neutral.matched t && TicketFilter.neutral.chosen db t) =
        db.visible user siteid := List.filter_eq_self.mpr (fun _ _ => rfl)
    rw [hall]

/-- The ticket for the leak is there, and its site is assigned to the operator. -/
def leakListing : ListingDb :=
  { runTickets helpDesk [leakVisit] with
    usersSites := {(1, 1)} }

/-- The operator asks for all tickets of their sites. -/
theorem filterTickets_raises_for_operator :
    filterTickets leakListing plantOperator none .neutral none = none ∧
    (tickets leakListing plantOperator none none).map (fun pages =>
      pages.items.map FlicketTicket.id) = some [1] := by decide +kernel

end Medusa
