import Medusa.Itp.Store
import Medusa.TwoPhase
import Medusa.Unique

/-! Making and editing projects. A request asks whether the name and the job number
are free and commits later, and requests of other users may come between. The table
has a unique constraint for the names of the projects of a site, but none for the job
numbers. -/

namespace Medusa

open Relational

structure ProjectForm where
  name : String
  jobNumber : String

/-- What a request commits. An edit writes the columns that it has changed. -/
inductive ProjectWrite
  | insert (name jobNumber : String) (siteId : Nat)
  | update (id : Nat) (name jobNumber : Option String)
deriving DecidableEq

def newProject (name jobNumber : String) (siteId id : Nat) : Project :=
  ⟨id, name, jobNumber, some siteId⟩

theorem newProject_id (name jobNumber : String) (siteId id : Nat) :
    (newProject name jobNumber siteId id).id = id := rfl

def Project.rewrite (name jobNumber : Option String) (p : Project) : Project :=
  { p with name := name.getD p.name, jobNumber := jobNumber.getD p.jobNumber }

theorem Project.rewrite_id (name jobNumber : Option String) (p : Project) :
    (p.rewrite name jobNumber).id = p.id := rfl

inductive ProjectRequest
  | new (siteid : Nat) (form : ProjectForm)
  | edit (siteid projectid : Nat) (referrer : Option String) (form : ProjectForm)

def siteProjectNew (db : ItpDb) (siteid : Nat) (form : ProjectForm) : Option ProjectWrite := do
  guard (form.name ≠ "")
  guard (form.jobNumber ≠ "")
  let site ← db.sites.get? siteid
  guard ((db.projects.first? (fun p => p.siteId == some site.id && p.name == form.name)).isNone)
  guard ((db.projects.first? (fun p => p.jobNumber == form.jobNumber)).isNone)
  pure (.insert form.name form.jobNumber site.id)

/-- The page that led to the request is split before anything else. An empty field, or
one that is as it was, leaves its column alone. -/
def siteProjectEdit (db : ItpDb) (siteid projectid : Nat) (referrer : Option String)
    (form : ProjectForm) : Option ProjectWrite := do
  let site ← db.sites.get? siteid
  let project ← db.projects.first? (fun p => p.id == projectid && p.siteId == some site.id)
  let _ ← referrer
  let named := db.projects.first? (fun p => p.siteId == some site.id && p.name == form.name)
  guard (named.all (fun p => p.id == project.id))
  let numbered := db.projects.first? (fun p => p.jobNumber == form.jobNumber)
  guard (numbered.all (fun p => p.id == project.id))
  pure (.update project.id
    (if form.name ≠ "" ∧ form.name ≠ project.name then some form.name else none)
    (if form.jobNumber ≠ "" ∧ form.jobNumber ≠ project.jobNumber then some form.jobNumber else none))

def ProjectRequest.check (db : ItpDb) : ProjectRequest → Option ProjectWrite
  | new siteid form => siteProjectNew db siteid form
  | edit siteid projectid referrer form => siteProjectEdit db siteid projectid referrer form

/-- The columns of the unique constraint. -/
def Project.siteAndName (p : Project) : Option (Nat × String) := p.siteId.map (fun s => (s, p.name))

def Project.number (p : Project) : Option String := some p.jobNumber

/-- The row that is written has a value in the column that no other row has. -/
def ProjectWrite.Free {κ : Type} (col : Project → Option κ) (db : ItpDb) : ProjectWrite → Prop
  | insert name jobNumber siteId =>
    db.projects.FreeFor col db.projects.nextKey
      (newProject name jobNumber siteId db.projects.nextKey)
  | update id name jobNumber =>
    ∀ project ∈ db.projects.rows, project.id = id →
      db.projects.FreeFor col id (project.rewrite name jobNumber)

instance {κ : Type} [DecidableEq κ] (col : Project → Option κ) (db : ItpDb) (w : ProjectWrite) :
    Decidable (w.Free col db) := by
  cases w <;> unfold ProjectWrite.Free <;> infer_instance

def ProjectWrite.write (projects : Table Project Project.id) :
    ProjectWrite → Table Project Project.id
  | insert name jobNumber siteId =>
    projects.insert (newProject name jobNumber siteId) (newProject_id _ _ _)
  | update id name jobNumber =>
    projects.update (fun p => p.id == id) (Project.rewrite name jobNumber) (Project.rewrite_id _ _)

/-- The commit, which the database refuses if it breaks the constraint. -/
def ProjectWrite.commit (db : ItpDb) (w : ProjectWrite) : Option ItpDb := do
  guard (w.Free Project.siteAndName db)
  pure { db with projects := w.write db.projects }

/-- From a table without repeated values, a write leaves one exactly if the value of the
row that it writes is free. -/
theorem ProjectWrite.distinct_write_iff {κ : Type} {col : Project → Option κ} {db : ItpDb}
    (h : db.projects.Distinct col) (w : ProjectWrite) :
    (w.write db.projects).Distinct col ↔ w.Free col db := by
  cases w with
  | insert name jobNumber siteId =>
    exact Table.distinct_insert_iff h (newProject_id name jobNumber siteId)
  | update id name jobNumber =>
    exact Table.distinct_update_iff h id (Project.rewrite_id name jobNumber)

theorem ProjectWrite.commit_eq_some {db db' : ItpDb} {w : ProjectWrite} :
    w.commit db = some db' ↔
      w.Free Project.siteAndName db ∧ { db with projects := w.write db.projects } = db' := by
  unfold ProjectWrite.commit
  by_cases h : w.Free Project.siteAndName db <;> simp [guard, h]

/-- The names are safe whatever is written, as the database refuses a name that is taken. -/
theorem ProjectWrite.serve_distinct_names (db : ItpDb) (w : ProjectWrite)
    (h : db.projects.Distinct Project.siteAndName) :
    (serve ProjectWrite.commit db w).projects.Distinct Project.siteAndName := by
  refine serve_of_commit (P := fun db : ItpDb => db.projects.Distinct Project.siteAndName) h ?_
  intro db' hcommit
  obtain ⟨hfree, rfl⟩ := commit_eq_some.mp hcommit
  exact (distinct_write_iff h w).mpr hfree

theorem ProjectWrite.serve_distinct_numbers_iff (db : ItpDb) (w : ProjectWrite)
    (h : db.projects.Distinct Project.number) :
    (serve ProjectWrite.commit db w).projects.Distinct Project.number ↔
      (w.Free Project.siteAndName db → w.Free Project.number db) := by
  refine serve_iff (I := fun db : ItpDb => db.projects.Distinct Project.number) h ?_ ?_
  · intro hnone hname
    exact absurd (commit_eq_some.mpr ⟨hname, rfl⟩) (by simp [hnone])
  · intro db' hcommit
    obtain ⟨hname, rfl⟩ := commit_eq_some.mp hcommit
    exact (distinct_write_iff h w).trans ⟨fun hfree _ => hfree, fun hfree => hfree hname⟩

/-- A request for a new project has seen that its job number is free. -/
theorem siteProjectNew_free {db : ItpDb} {siteid : Nat} {form : ProjectForm} {w : ProjectWrite}
    (h : siteProjectNew db siteid form = some w) : w.Free Project.number db := by
  simp only [siteProjectNew, Option.bind_eq_bind, Option.bind_eq_some_iff, guard_eq_some,
    Option.pure_def, Option.some.injEq, Option.isNone_iff_eq_none] at h
  obtain ⟨_, -, _, -, site, -, _, -, _, hnone, rfl⟩ := h
  intro p hp _ _ he
  have hne := Table.first?_eq_none hnone p hp
  simp [(Option.some.inj he : p.jobNumber = form.jobNumber)] at hne

/-- So has a request that edits one, as long as no number is there twice. -/
theorem siteProjectEdit_free {db : ItpDb} {siteid projectid : Nat} {referrer : Option String}
    {form : ProjectForm} {w : ProjectWrite} (hdistinct : db.projects.Distinct Project.number)
    (h : siteProjectEdit db siteid projectid referrer form = some w) :
    w.Free Project.number db := by
  simp only [siteProjectEdit, Option.bind_eq_bind, Option.bind_eq_some_iff, guard_eq_some,
    Option.pure_def, Option.some.injEq] at h
  obtain ⟨site, -, project, hproject, _, -, _, -, _, hnumbered, rfl⟩ := h
  have hmem := (Table.mem_of_first? hproject).1
  intro project' hproject' hid p hp hne _ he
  rw [Table.eq_of_key_eq hproject' hmem hid] at he
  have he' := Option.some.inj he
  simp only [Project.rewrite] at he'
  split at he'
  · -- the number is new to the project, so no project has it
    next hnew =>
    cases hfirst : db.projects.first? (fun p => p.jobNumber == form.jobNumber) with
    | none => simpa [he'] using Table.first?_eq_none hfirst p hp
    | some q =>
      have hq := Table.mem_of_first? hfirst
      have hown : q = project :=
        Table.eq_of_key_eq hq.1 hmem (by simpa [hfirst] using hnumbered)
      rw [hown] at hq
      exact hnew.2 (beq_iff_eq.mp hq.2).symm
  · -- the number stays, and only the project itself has it
    exact hne (congrArg Project.id (hdistinct p hp project hmem rfl (congrArg some he')))

theorem ProjectRequest.check_free {db : ItpDb} {request : ProjectRequest} {w : ProjectWrite}
    (hdistinct : db.projects.Distinct Project.number) (h : request.check db = some w) :
    w.Free Project.number db := by
  cases request with
  | new siteid form => exact siteProjectNew_free h
  | edit siteid projectid referrer form => exact siteProjectEdit_free hdistinct h

/-- A request that no other comes between. -/
def ProjectRequest.serve (db : ItpDb) (request : ProjectRequest) : Option ItpDb :=
  (request.check db).bind (fun w => w.commit db)

/-- Served one after the other, the requests keep the job numbers apart. -/
theorem ProjectRequest.serveAll_distinct_numbers {db : ItpDb} (requests : List ProjectRequest)
    (h : db.projects.Distinct Project.number) :
    (serveAll ProjectRequest.serve db requests).projects.Distinct Project.number := by
  refine serveAll_keeps (P := fun db : ItpDb => db.projects.Distinct Project.number) ?_ requests h
  intro db db' request hserve hdistinct
  obtain ⟨w, hw, hcommit⟩ := Option.bind_eq_some_iff.mp hserve
  obtain ⟨-, rfl⟩ := ProjectWrite.commit_eq_some.mp hcommit
  exact (ProjectWrite.distinct_write_iff hdistinct w).mpr (check_free hdistinct hw)

/-- The requests under way on a database, each checked and later committed. -/
def projectRun (db : ItpDb) (phases : List (Phase ProjectRequest)) : InFlight ItpDb ProjectWrite :=
  interleave ProjectRequest.check ProjectWrite.commit ⟨db, fun _ => none⟩ phases

def depot : ItpDb := { ItpDb.empty with sites := ⟨[plantSite], plantSite_nodup⟩ }

def pumps : ProjectRequest := .new 1 ⟨"Pumps", "J-7"⟩

end Medusa
