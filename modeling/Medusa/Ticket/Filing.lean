import Medusa.Children
import Medusa.Ticket.Mail

/-! The departments and their categories, under which the tickets are filed. -/

namespace Medusa

open Relational

def newDepartment (department : String) (id : Nat) : FlicketDepartment := ⟨id, department⟩

theorem newDepartment_id (department : String) (id : Nat) : (newDepartment department id).id = id := rfl

def FlicketDepartment.rename (department : String) (d : FlicketDepartment) : FlicketDepartment :=
  { d with department := department }

theorem FlicketDepartment.rename_id (department : String) (d : FlicketDepartment) :
    (d.rename department).id = d.id := rfl

def newCategory (category : String) (department : Option Nat) (id : Nat) : FlicketCategory :=
  ⟨id, category, department⟩

theorem newCategory_id (category : String) (department : Option Nat) (id : Nat) :
    (newCategory category department id).id = id := rfl

def FlicketCategory.rename (category : String) (c : FlicketCategory) : FlicketCategory :=
  { c with category := category }

theorem FlicketCategory.rename_id (category : String) (c : FlicketCategory) :
    (c.rename category).id = c.id := rfl

/-- `DepartmentForm`. The name of the department that is edited exists as well. -/
def TicketDb.validDepartment (db : TicketDb) (submitted : Bool) (department : String) : Bool :=
  submitted && validText 3 30 department &&
    db.departments.rows.all (fun d => d.department != department)

/-- `CategoryForm`, with the department that the page puts into it. -/
def TicketDb.validCategory (db : TicketDb) (submitted : Bool) (department : Option Nat)
    (category : String) : Bool :=
  submitted && validText 3 30 category &&
    db.categories.rows.all (fun c => !(c.category == category && c.departmentId == department))

/-- A form that does not validate raises, since the page lists `_departments`, which does
not exist. -/
def departments (db : TicketDb) (submitted : Bool) (department : String) : Option TicketDb := do
  guard (db.validDepartment submitted department = true)
  pure { db with
    departments := db.departments.insert (newDepartment department) (newDepartment_id department) }

def departmentEdit (db : TicketDb) (departmentid : Nat) (submitted : Bool) (department : String) :
    Option TicketDb := do
  let row ← db.departments.get? departmentid
  guard (db.validDepartment submitted department = true)
  pure { db with
    departments := db.departments.update (fun d => d.id == row.id)
      (FlicketDepartment.rename department) (FlicketDepartment.rename_id department) }

/-- The department need not exist; the category then has none. -/
def categories (db : TicketDb) (departmentid : Nat) (submitted : Bool) (category : String) :
    Option TicketDb := do
  guard (db.validCategory submitted (some departmentid) category = true)
  let department := (db.departments.get? departmentid).map FlicketDepartment.id
  pure { db with
    categories := db.categories.insert (newCategory category department)
      (newCategory_id category department) }

def categoryEdit (db : TicketDb) (categoryid : Nat) (submitted : Bool) (category : String) :
    Option TicketDb := do
  let row ← db.categories.get? categoryid
  guard (db.validCategory submitted row.departmentId category = true)
  pure { db with
    categories := db.categories.update (fun c => c.id == row.id) (FlicketCategory.rename category)
      (FlicketCategory.rename_id category) }

inductive FilingRequest where
  | desk (v : DeskVisit)
  | departments (submitted : Bool) (department : String)
  | departmentEdit (departmentid : Nat) (submitted : Bool) (department : String)
  | categories (departmentid : Nat) (submitted : Bool) (category : String)
  | categoryEdit (categoryid : Nat) (submitted : Bool) (category : String)
  | deleteCategory (confirmed : Bool) (categoryid : Nat)
  | deleteDepartment (confirmed : Bool) (departmentid : Nat)

def FilingRequest.commit (db : TicketDb) : FilingRequest → Option TicketDb
  | desk v => v.commit db
  | departments submitted department => Medusa.departments db submitted department
  | departmentEdit departmentid submitted department =>
    Medusa.departmentEdit db departmentid submitted department
  | categories departmentid submitted category => Medusa.categories db departmentid submitted category
  | categoryEdit categoryid submitted category => Medusa.categoryEdit db categoryid submitted category
  | deleteCategory confirmed categoryid => Medusa.deleteCategory db confirmed categoryid
  | deleteDepartment confirmed departmentid => Medusa.deleteDepartment db confirmed departmentid

def FlicketDepartment.name? (d : FlicketDepartment) : Option String := some d.department

/-- A category of a department, which the department should have once. -/
def FlicketCategory.place (c : FlicketCategory) : Option (Nat × String) :=
  c.departmentId.map (fun d => (d, c.category))

/-- No department has a category twice, and neither the category of a ticket nor the
department of a category is one that is not there. -/
structure TicketDb.Filed (db : TicketDb) : Prop where
  departments : db.departments.Distinct FlicketDepartment.name?
  categories : db.categories.Distinct FlicketCategory.place
  department : db.categories.ForeignKey FlicketCategory.departmentId db.departments
  category : db.tickets.ForeignKey FlicketTicket.categoryId db.categories

/-- Every category has a department. -/
def TicketDb.Placed (db : TicketDb) : Prop := ∀ c ∈ db.categories.rows, c.departmentId.isSome = true

/-- A category is added to a department that exists. -/
def FilingRequest.Places (db : TicketDb) : FilingRequest → Prop
  | categories departmentid submitted category =>
    db.validCategory submitted (some departmentid) category = true →
      (db.departments.get? departmentid).isSome = true
  | _ => True

namespace TicketDb.Filed

variable {db : TicketDb} {ticket : Nat}

theorem ensureSubscribed (h : db.Filed) (who : Option Nat) : (db.ensureSubscribed ticket who).Filed := by
  unfold TicketDb.ensureSubscribed
  split
  · exact h
  · exact ⟨h.departments, h.categories, h.department, h.category⟩

theorem writeTicket (h : db.Filed) {f : FlicketTicket → FlicketTicket} (hf : ∀ t, (f t).id = t.id)
    (hcategory : ∀ t, (f t).categoryId = t.categoryId) : (db.writeTicket ticket f hf).Filed :=
  ⟨h.departments, h.categories, h.department, h.category.update hf hcategory⟩

theorem addAction (h : db.Filed) {kind : ActionKind} {user now : Nat} {recipient : Option Nat} :
    (db.addAction kind ticket user recipient now).Filed :=
  ⟨h.departments, h.categories, h.department, h.category⟩

end TicketDb.Filed

section Effects

variable {db db' : TicketDb} {user : User} {now : Nat} {r : TicketRequest}

@[simp] theorem TicketDb.ensureSubscribed_categories {ticket : Nat} {who : Option Nat} :
    (db.ensureSubscribed ticket who).categories = db.categories := by
  unfold ensureSubscribed
  split <;> rfl

theorem TicketEffect.categories (h : TicketEffect db user now r db') :
    db'.categories = db.categories := by
  cases h <;> simp [TicketDb.writeTicket, TicketDb.addAction, TicketDb.subscribe]

theorem FlicketTicket.assign_categoryId (who status : Option Nat) (t : FlicketTicket) :
    (t.assign who status).categoryId = t.categoryId := rfl

/-- A category that is chosen in a form is looked up. -/
theorem TicketDb.chosen_category {k chosen : Nat}
    (h : (db.categories.get? chosen).map FlicketCategory.id = some k) :
    ∃ c ∈ db.categories.rows, c.id = k := by
  obtain ⟨c, hc, hid⟩ := Option.map_eq_some_iff.mp h
  exact ⟨c, (Table.get?_eq_some.mp hc).1, hid⟩

theorem TicketEffect.filed (h : TicketEffect db user now r db') (hfiled : db.Filed) : db'.Filed := by
  cases h with
  | created =>
    refine ⟨hfiled.departments, hfiled.categories, hfiled.department,
      hfiled.category.insert (newTicket_id _ _ _ _ _ _) ?_⟩
    exact fun k hk => TicketDb.chosen_category hk
  | replied hticket =>
    refine TicketDb.Filed.ensureSubscribed ?_ _
    exact ⟨hfiled.departments, hfiled.categories, hfiled.department, hfiled.category⟩
  | detailsSet hticket hstop => exact hfiled.writeTicket _ (fun _ => rfl)
  | edited hticket =>
    refine ⟨hfiled.departments, hfiled.categories, hfiled.department, ?_⟩
    intro t ht k hk
    obtain ⟨t₀, ht₀, rfl⟩ := List.mem_map.mp ht
    split at hk
    · exact TicketDb.chosen_category hk
    · exact hfiled.category t₀ ht₀ k hk
  | postEdited hpost =>
    exact ⟨hfiled.departments, hfiled.categories, hfiled.department, hfiled.category⟩
  | notAssigned hnone => exact hfiled
  | opened hticket hstatus hnone => exact hfiled.writeTicket _ (fun _ => rfl)
  | assigned hassign =>
    exact TicketDb.Filed.ensureSubscribed
      (TicketDb.Filed.addAction (hfiled.writeTicket _ (FlicketTicket.assign_categoryId _ _))) _
  | claimed hticket => exact TicketDb.Filed.addAction (hfiled.writeTicket _ (FlicketTicket.assign_categoryId _ _))
  | released hticket => exact TicketDb.Filed.addAction (hfiled.writeTicket _ (FlicketTicket.assign_categoryId _ _))
  | subscribed hticket => exact hfiled.ensureSubscribed _
  | unsubscribed hticket hone =>
    exact ⟨hfiled.departments, hfiled.categories, hfiled.department, hfiled.category⟩
  | closeNoted hticket => exact hfiled.addAction
  | closed hticket => exact hfiled.addAction.writeTicket _ (fun _ => rfl)
  | reopened hticket => exact hfiled.addAction.writeTicket _ (fun _ => rfl)
  | postDeleted hpost =>
    exact ⟨hfiled.departments, hfiled.categories, hfiled.department, hfiled.category⟩

/-- What comes to the pages of the tickets leaves the categories alone. -/
theorem DeskVisit.filed_of_commit {v : DeskVisit} (h : v.commit db = some db') :
    db'.categories = db.categories ∧ (db.Filed → db'.Filed) := by
  cases v with
  | ticket v =>
    obtain ⟨user, -, heffect⟩ := TicketVisit.effect h
    exact ⟨heffect.categories, heffect.filed⟩
  | delete user posted ticketid =>
    simp only [commit, deleteTicket, Option.bind_eq_bind, Option.bind_eq_some_iff, guard_eq_some,
      Option.pure_def, Option.some.injEq] at h
    obtain ⟨-, -, -, -, -, -, -, -, ticket, -, -, -, rfl⟩ := h
    refine ⟨rfl, fun hfiled => ?_⟩
    exact ⟨hfiled.departments, hfiled.categories, hfiled.department, hfiled.category.delete _⟩

end Effects

section Forms

variable {db db' : TicketDb} {submitted : Bool}

theorem FlicketCategory.eq_of_place {c c' : FlicketCategory} (hsome : c'.place.isSome = true)
    (he : c.place = c'.place) : c.category = c'.category ∧ c.departmentId = c'.departmentId := by
  obtain ⟨id, category, _ | department⟩ := c <;> obtain ⟨id', category', _ | department'⟩ := c' <;>
    simp_all [place]

theorem TicketDb.free_of_validDepartment {department : String}
    (h : db.validDepartment submitted department = true) :
    ∀ d ∈ db.departments.rows, d.department ≠ department := by
  simp only [validDepartment, Bool.and_eq_true, List.all_eq_true, bne_iff_ne] at h
  exact h.2

theorem TicketDb.free_of_validCategory {department : Option Nat} {category : String}
    (h : db.validCategory submitted department category = true) :
    ∀ c ∈ db.categories.rows, c.category = category → c.departmentId ≠ department := by
  simp only [validCategory, Bool.and_eq_true, List.all_eq_true, Bool.not_eq_true',
    Bool.and_eq_false_imp, beq_iff_eq, beq_eq_false_iff_ne] at h
  exact h.2

theorem departments_filed {department : String}
    (h : departments db submitted department = some db') (hfiled : db.Filed) :
    db'.categories = db.categories ∧ db'.Filed := by
  simp only [departments, Option.bind_eq_bind, Option.bind_eq_some_iff, guard_eq_some,
    Option.pure_def, Option.some.injEq] at h
  obtain ⟨-, hvalid, rfl⟩ := h
  refine ⟨rfl, ?_, hfiled.categories, hfiled.department.insert_target (newDepartment_id department),
    hfiled.category⟩
  rw [Table.distinct_insert_iff hfiled.departments]
  intro d hd _ _ he
  exact TicketDb.free_of_validDepartment hvalid d hd (Option.some.inj he)

theorem departmentEdit_filed {departmentid : Nat} {department : String}
    (h : departmentEdit db departmentid submitted department = some db') (hfiled : db.Filed) :
    db'.categories = db.categories ∧ db'.Filed := by
  simp only [departmentEdit, Option.bind_eq_bind, Option.bind_eq_some_iff, guard_eq_some,
    Option.pure_def, Option.some.injEq] at h
  obtain ⟨row, -, -, hvalid, rfl⟩ := h
  refine ⟨rfl, ?_, hfiled.categories,
    hfiled.department.update_target (FlicketDepartment.rename_id department), hfiled.category⟩
  rw [Table.distinct_update_iff hfiled.departments]
  intro _ _ _ d hd _ _ he
  exact TicketDb.free_of_validDepartment hvalid d hd (Option.some.inj he)

theorem categories_filed {departmentid : Nat} {category : String}
    (h : categories db departmentid submitted category = some db') (hfiled : db.Filed) : db'.Filed := by
  simp only [categories, Option.bind_eq_bind, Option.bind_eq_some_iff, guard_eq_some,
    Option.pure_def, Option.some.injEq] at h
  obtain ⟨-, hvalid, rfl⟩ := h
  refine ⟨hfiled.departments, ?_, hfiled.department.insert (newCategory_id category _) ?_,
    hfiled.category.insert_target (newCategory_id category _)⟩
  · rw [Table.distinct_insert_iff hfiled.categories]
    intro c hc _ hsome he
    obtain ⟨hname, hsame⟩ := FlicketCategory.eq_of_place hsome he
    -- the new category has a department, so it is the one that the form was checked for
    have hdepartment : c.departmentId = some departmentid := by
      cases hrow : db.departments.get? departmentid with
      | none => simp [newCategory, FlicketCategory.place, hrow] at hsome
      | some row =>
        rw [hsame, newCategory, hrow, Option.map_some, (Table.get?_eq_some.mp hrow).2]
    exact TicketDb.free_of_validCategory hvalid c hc hname hdepartment
  · intro k hk
    obtain ⟨row, hrow, hid⟩ := Option.map_eq_some_iff.mp hk
    exact ⟨row, (Table.get?_eq_some.mp hrow).1, hid⟩

theorem categoryEdit_filed {categoryid : Nat} {category : String}
    (h : categoryEdit db categoryid submitted category = some db') (hfiled : db.Filed) :
    (db.Placed → db'.Placed) ∧ db'.Filed := by
  simp only [categoryEdit, Option.bind_eq_bind, Option.bind_eq_some_iff, guard_eq_some,
    Option.pure_def, Option.some.injEq] at h
  obtain ⟨row, hrow, -, hvalid, rfl⟩ := h
  obtain ⟨hmem, hid⟩ := Table.get?_eq_some.mp hrow
  refine ⟨?_, hfiled.departments, ?_,
    hfiled.department.update (FlicketCategory.rename_id category) (fun _ => rfl),
    hfiled.category.update_target (FlicketCategory.rename_id category)⟩
  · intro hplaced c hc
    obtain ⟨c₀, hc₀, rfl⟩ := List.mem_map.mp hc
    split
    · exact hplaced c₀ hc₀
    · exact hplaced c₀ hc₀
  · rw [Table.distinct_update_iff hfiled.categories]
    intro c₀ hc₀ hk₀ c hc _ hsome he
    have hsame : c₀ = row := Table.eq_of_key_eq hc₀ hmem hk₀
    subst hsame
    obtain ⟨hname, hsame⟩ := FlicketCategory.eq_of_place hsome he
    exact TicketDb.free_of_validCategory hvalid c hc hname hsame

end Forms

section Deletions

variable {db db' : TicketDb} {confirmed : Bool}

theorem deleteUnused_cases {ρ : Type} {key : ρ → Nat} {t t' : Table ρ key} {used : Bool} {k : Nat}
    (h : deleteUnused t used confirmed k = some t') :
    used = false ∧ t' = t.delete (fun r => key r == k) := by
  simp only [deleteUnused, Option.bind_eq_bind, Option.bind_eq_some_iff, guard_eq_some,
    Option.pure_def, Option.some.injEq] at h
  obtain ⟨-, hused, -, -, row, hrow, rfl⟩ := h
  rw [(Table.get?_eq_some.mp hrow).2]
  exact ⟨hused, rfl⟩

theorem deleteCategory_filed {categoryid : Nat}
    (h : deleteCategory db confirmed categoryid = some db') (hfiled : db.Filed) :
    (db.Placed → db'.Placed) ∧ db'.Filed := by
  obtain ⟨t, ht, hdb⟩ := Option.bind_eq_some_iff.mp h
  obtain ⟨hused, rfl⟩ := deleteUnused_cases ht
  obtain rfl := Option.some.inj hdb
  refine ⟨fun hplaced c hc => hplaced c (Table.mem_delete.mp hc).1, hfiled.departments,
    hfiled.categories.delete _, hfiled.department.delete _, hfiled.category.delete_target ?_⟩
  intro t ht he
  have hnot := List.any_eq_false.mp hused t ht
  exact hnot (by simp [he])

theorem deleteDepartment_filed {departmentid : Nat}
    (h : deleteDepartment db confirmed departmentid = some db') (hfiled : db.Filed) :
    db'.categories = db.categories ∧ db'.Filed := by
  obtain ⟨t, ht, hdb⟩ := Option.bind_eq_some_iff.mp h
  obtain ⟨hused, rfl⟩ := deleteUnused_cases ht
  obtain rfl := Option.some.inj hdb
  refine ⟨rfl, hfiled.departments.delete _, hfiled.categories, hfiled.department.delete_target ?_,
    hfiled.category⟩
  intro c hc he
  have hnot := List.any_eq_false.mp hused c hc
  exact hnot (by simp [he])

end Deletions

theorem placed_of_categories {db db' : TicketDb} (h : db'.categories = db.categories)
    (hplaced : db.Placed) : db'.Placed := by
  unfold TicketDb.Placed
  rw [h]
  exact hplaced

theorem FilingRequest.filed_of_commit {db db' : TicketDb} {r : FilingRequest}
    (h : r.commit db = some db') (hfiled : db.Filed) : db'.Filed := by
  cases r with
  | desk v => exact (DeskVisit.filed_of_commit h).2 hfiled
  | departments submitted department => exact (departments_filed h hfiled).2
  | departmentEdit departmentid submitted department => exact (departmentEdit_filed h hfiled).2
  | categories departmentid submitted category => exact categories_filed h hfiled
  | categoryEdit categoryid submitted category => exact (categoryEdit_filed h hfiled).2
  | deleteCategory confirmed categoryid => exact (deleteCategory_filed h hfiled).2
  | deleteDepartment confirmed departmentid => exact (deleteDepartment_filed h hfiled).2

/-- A new category has a department exactly if there is the one it is added to. -/
theorem categories_placed_iff {db : TicketDb} (hplaced : db.Placed) (departmentid : Nat)
    (submitted : Bool) (category : String) :
    (serve FilingRequest.commit db (.categories departmentid submitted category)).Placed ↔
      (FilingRequest.categories departmentid submitted category).Places db := by
  refine serve_iff hplaced ?_ ?_
  · intro hnone hvalid
    simp [FilingRequest.commit, categories, hvalid, guard] at hnone
  · intro db' hdb
    simp only [FilingRequest.commit, categories, Option.bind_eq_bind, Option.bind_eq_some_iff,
      guard_eq_some, Option.pure_def, Option.some.injEq] at hdb
    obtain ⟨-, hvalid, rfl⟩ := hdb
    simp only [FilingRequest.Places, hvalid, forall_const]
    constructor
    · intro h
      have hnew := h _ (Table.new_mem_insert db.categories (newCategory_id category _))
      simpa [newCategory] using hnew
    · intro hsome c hc
      rcases List.mem_append.mp hc with hc | hc
      · exact hplaced c hc
      · rw [List.mem_singleton.mp hc]
        simpa [newCategory] using hsome

theorem FilingRequest.placed_iff {db : TicketDb} (hfiled : db.Filed) (hplaced : db.Placed)
    (r : FilingRequest) : (serve FilingRequest.commit db r).Placed ↔ r.Places db := by
  cases r with
  | categories departmentid submitted category =>
    exact categories_placed_iff hplaced departmentid submitted category
  | desk v =>
    refine iff_of_true (serve_of_commit hplaced (fun _ h => ?_)) trivial
    exact placed_of_categories (DeskVisit.filed_of_commit h).1 hplaced
  | departments submitted department =>
    refine iff_of_true (serve_of_commit hplaced (fun _ h => ?_)) trivial
    exact placed_of_categories (departments_filed h hfiled).1 hplaced
  | departmentEdit departmentid submitted department =>
    refine iff_of_true (serve_of_commit hplaced (fun _ h => ?_)) trivial
    exact placed_of_categories (departmentEdit_filed h hfiled).1 hplaced
  | categoryEdit categoryid submitted category =>
    refine iff_of_true (serve_of_commit hplaced (fun _ h => ?_)) trivial
    exact (categoryEdit_filed h hfiled).1 hplaced
  | deleteCategory confirmed categoryid =>
    refine iff_of_true (serve_of_commit hplaced (fun _ h => ?_)) trivial
    exact (deleteCategory_filed h hfiled).1 hplaced
  | deleteDepartment confirmed departmentid =>
    refine iff_of_true (serve_of_commit hplaced (fun _ h => ?_)) trivial
    exact placed_of_categories (deleteDepartment_filed h hfiled).1 hplaced

/-- In every run of requests, among them those about tickets, no two departments have one
name and no department has a category twice, and neither tickets nor categories name what is
not there. Every category has a department after every request exactly if none is added to a
department that does not exist. -/
theorem tickets_filed {db : TicketDb} (hfiled : db.Filed) (hplaced : db.Placed)
    (requests : List FilingRequest) :
    (serveAll FilingRequest.commit db requests).Filed ∧
    ((∀ pre post, requests = pre ++ post → (serveAll FilingRequest.commit db pre).Placed) ↔
      ∀ pre r post, requests = pre ++ r :: post → r.Places (serveAll FilingRequest.commit db pre)) := by
  have hkeeps : ∀ (db : TicketDb) (r : FilingRequest), db.Filed →
      (serve FilingRequest.commit db r).Filed :=
    fun _ _ h => serve_of_commit h (fun _ hcommit => FilingRequest.filed_of_commit hcommit h)
  exact ⟨serveAll_invariant hkeeps requests hfiled,
    serveAll_good_iff_of_keeps (J := TicketDb.Filed) (I := TicketDb.Placed)
      (C := fun db r => r.Places db) hkeeps (fun _ r h hp => FilingRequest.placed_iff h hp r)
      requests hfiled hplaced⟩

theorem helpDesk_filed : helpDesk.Filed where
  departments := by
    unfold Table.Distinct
    decide
  categories := by
    unfold Table.Distinct
    decide
  department := by
    have hone : ∀ c ∈ helpDesk.categories.rows, c.departmentId = some 1 := by decide
    intro c hc k hk
    rw [hone c hc] at hk
    exact ⟨⟨1, "maintenance"⟩, by decide, Option.some.inj hk⟩
  category := fun t ht => absurd ht List.not_mem_nil

theorem helpDesk_placed : helpDesk.Placed := by
  unfold TicketDb.Placed
  decide

/-- A leak is reported, and a category is added to a department that does not exist. -/
def misfiled : List FilingRequest := [.desk (.ticket leakVisit), .categories 9 true "spare parts"]

theorem tickets_filed_helpDesk :
    (serveAll FilingRequest.commit helpDesk misfiled).Filed ∧
      (serveAll FilingRequest.commit helpDesk misfiled).categories.rows.map
        FlicketCategory.departmentId = [some 1, some 1, none] ∧
      ¬ ∀ pre r post, misfiled = pre ++ r :: post → r.Places (serveAll FilingRequest.commit helpDesk pre) := by
  obtain ⟨hfiled, hiff⟩ := tickets_filed helpDesk_filed helpDesk_placed misfiled
  have hrows : (serveAll FilingRequest.commit helpDesk misfiled).categories.rows.map
      FlicketCategory.departmentId = [some 1, some 1, none] := by decide +kernel
  refine ⟨hfiled, hrows, fun hplaces => ?_⟩
  have hplaced := hiff.mpr hplaces misfiled [] (List.append_nil _).symm
  obtain ⟨c, hc, hnone⟩ := List.mem_map.mp (hrows ▸ by simp :
    none ∈ (serveAll FilingRequest.commit helpDesk misfiled).categories.rows.map
      FlicketCategory.departmentId)
  simpa [hnone] using hplaced c hc

end Medusa
