import Medusa.Model

/-! The three handlers by which a user acknowledges issues and edits their
notes. All of them first unacknowledge every unresolved result in their scope
and then acknowledge the results ticked in the form. -/

namespace Medusa

open Relational

/-- The part of a posted form that the handlers read: the field `notes-<id>` for
each id, and the values of `acknowledge`. A value is the id that the database
reads it as, or `none` if it is the id of no row. -/
structure IssueForm where
  notes : Nat → Option String
  acknowledge : List (Option Nat)

/-- `site.get_unresolved()`: the join drops results whose asset is gone. -/
def Db.getUnresolved (db : Db) (site : Nat) : List Result :=
  db.results.rows.filter (fun r =>
    r.unresolved && db.assets.rows.any (fun a => a.id == r.assetId && a.siteId == site))

def Result.unacknowledge (r : Result) (notes : String) : Result :=
  { r with acknowledged := false, notes := notes }

def Result.acknowledge (r : Result) : Result := { r with acknowledged := true }

@[simp] theorem Result.unacknowledge_id (r : Result) (notes : String) :
    (r.unacknowledge notes).id = r.id := rfl

@[simp] theorem Result.acknowledge_id (r : Result) : r.acknowledge.id = r.id := rfl

/-- Reading a missing field raises, which is `none` here. -/
def IssueForm.unacknowledge (form : IssueForm) (results : Results) (issue : Result) :
    Option Results := do
  let notes ← form.notes issue.id
  pure (results.update (fun r => r.id == issue.id) (Result.unacknowledge · notes)
    (Result.unacknowledge_id · notes))

def acknowledge (results : Results) (resultId : Option Nat) : Option Results := do
  let id ← resultId
  let issue ← results.one? (fun r => r.id == id)
  pure (results.update (fun r => r.id == issue.id) Result.acknowledge Result.acknowledge_id)

def submitIssues (form : IssueForm) (results : Results) (issues : List Result) :
    Option Results := do
  let results ← issues.foldlM form.unacknowledge results
  form.acknowledge.foldlM Medusa.acknowledge results

/-- The sites are those of the current user. An exception leaves the database as
it was, since nothing is committed before the end. -/
def unresolvedIssuesSubmitAll (db : Db) (sites : List Nat) (form : IssueForm) : Option Db := do
  let results ← submitIssues form db.results (sites.flatMap db.getUnresolved)
  pure { db with results := results }

def unresolvedIssuesSubmit (db : Db) (sitename : String) (form : IssueForm) : Option Db := do
  let site ← db.sites.one? (fun s => s.name == sitename)
  let results ← submitIssues form db.results (db.getUnresolved site.id)
  pure { db with results := results }

def assetIssuesSubmit (db : Db) (assetId : Nat) (form : IssueForm) : Option Db := do
  let asset ← db.assets.one? (fun a => a.id == assetId)
  let results ← submitIssues form db.results
    (db.results.rows.filter (fun r => r.assetId == asset.id && r.unresolved))
  pure { db with results := results }

def IssueForm.submitted (form : IssueForm) (issues : List Result) (r : Result) : Result :=
  { r with
    acknowledged :=
      if some r.id ∈ form.acknowledge then true
      else if r.id ∈ issues.map Result.id then false else r.acknowledged
    notes := if r.id ∈ issues.map Result.id then (form.notes r.id).getD "" else r.notes }

theorem foldlM_unacknowledge {form : IssueForm} {issues : List Result} {results results' : Results}
    (h : issues.foldlM form.unacknowledge results = some results') :
    results'.rows = results.rows.map (fun r =>
      if r.id ∈ issues.map Result.id then r.unacknowledge ((form.notes r.id).getD "") else r) := by
  induction issues generalizing results with
  | nil =>
    simp only [List.foldlM_nil, Option.pure_def, Option.some.injEq] at h
    simp [h]
  | cons issue issues ih =>
    rw [List.foldlM_cons, Option.bind_eq_bind, Option.bind_eq_some_iff] at h
    obtain ⟨middle, hm, hrest⟩ := h
    simp only [IssueForm.unacknowledge, Option.bind_eq_bind, Option.bind_eq_some_iff,
      Option.pure_def, Option.some.injEq] at hm
    obtain ⟨notes, hn, rfl⟩ := hm
    rw [ih hrest, Table.rows_update, List.map_map]
    apply List.map_congr_left
    intro r _
    by_cases hid : r.id = issue.id
    · simp [hid, hn, Result.unacknowledge]
    · simp [hid]

theorem foldlM_acknowledge {ids : List (Option Nat)} {results results' : Results}
    (h : ids.foldlM acknowledge results = some results') :
    results'.rows = results.rows.map (fun r => if some r.id ∈ ids then r.acknowledge else r) := by
  induction ids generalizing results with
  | nil =>
    simp only [List.foldlM_nil, Option.pure_def, Option.some.injEq] at h
    simp [h]
  | cons id ids ih =>
    rw [List.foldlM_cons, Option.bind_eq_bind, Option.bind_eq_some_iff] at h
    obtain ⟨middle, hm, hrest⟩ := h
    simp only [acknowledge, Option.bind_eq_bind, Option.bind_eq_some_iff,
      Option.pure_def, Option.some.injEq] at hm
    obtain ⟨id, rfl, issue, hone, rfl⟩ := hm
    have hid : issue.id = id := by simpa using (Table.one?_eq_some.mp hone).1.2
    rw [ih hrest, Table.rows_update, List.map_map]
    apply List.map_congr_left
    intro r _
    by_cases hr : r.id = id
    · simp [hid, hr, Result.acknowledge]
    · simp [hid, hr]

theorem submitIssues_rows {form : IssueForm} {issues : List Result} {results results' : Results}
    (h : submitIssues form results issues = some results') :
    results'.rows = results.rows.map (form.submitted issues) := by
  simp only [submitIssues, Option.bind_eq_bind, Option.bind_eq_some_iff] at h
  obtain ⟨middle, hm, hrest⟩ := h
  rw [foldlM_acknowledge hrest, foldlM_unacknowledge hm, List.map_map]
  apply List.map_congr_left
  intro r _
  by_cases hi : r.id ∈ issues.map Result.id <;> by_cases ha : some r.id ∈ form.acknowledge <;>
    simp only [Function.comp_apply, IssueForm.submitted, Result.unacknowledge, Result.acknowledge,
      hi, ha, if_true, if_false]

theorem IssueForm.submitted_acknowledged {form : IssueForm} {issues : List Result} {r : Result}
    (h : (form.submitted issues r).acknowledged = true) :
    some r.id ∈ form.acknowledge ∨ r.acknowledged = true := by
  by_cases ha : some r.id ∈ form.acknowledge
  · exact Or.inl ha
  · simp only [IssueForm.submitted, ha, if_false] at h
    split at h
    · simp at h
    · exact Or.inr h

theorem IssueForm.submitted_unresolved {form : IssueForm} {issues : List Result} {r : Result}
    (hissues : r.id ∈ issues.map Result.id → r.unresolved = true)
    (h : (form.submitted issues r).unresolved = true) : r.unresolved = true := by
  by_cases hm : r.id ∈ issues.map Result.id
  · exact hissues hm
  · simp only [Result.unresolved, IssueForm.submitted, hm, if_false, Bool.or_eq_true] at h ⊢
    rcases h with h | h
    · exact Or.inl h
    · split at h
      · simp at h
      · exact Or.inr h

theorem mem_getUnresolved {db : Db} {site : Nat} {r : Result} :
    r ∈ db.getUnresolved site ↔ r ∈ db.results.rows ∧ r.unresolved = true ∧
      ∃ a ∈ db.assets.rows, a.id = r.assetId ∧ a.siteId = site := by
  simp [Db.getUnresolved]

def IssueForm.Commits (form : IssueForm) (db db' : Db) : Prop :=
  ∃ (issues : List Result) (results : Results),
    (∀ r ∈ issues, r ∈ db.results.rows ∧ r.unresolved = true) ∧
    submitIssues form db.results issues = some results ∧ db' = { db with results := results }

section Handlers

variable {db db' : Db} {form : IssueForm}

theorem IssueForm.commits_all {sites : List Nat}
    (h : unresolvedIssuesSubmitAll db sites form = some db') : form.Commits db db' := by
  simp only [unresolvedIssuesSubmitAll, Option.bind_eq_bind, Option.bind_eq_some_iff,
    Option.pure_def, Option.some.injEq] at h
  obtain ⟨results, hs, he⟩ := h
  refine ⟨_, results, ?_, hs, he.symm⟩
  intro r hr
  obtain ⟨site, -, hr⟩ := List.mem_flatMap.mp hr
  have hm := mem_getUnresolved.mp hr
  exact ⟨hm.1, hm.2.1⟩

theorem IssueForm.commits_site {sitename : String}
    (h : unresolvedIssuesSubmit db sitename form = some db') : form.Commits db db' := by
  simp only [unresolvedIssuesSubmit, Option.bind_eq_bind, Option.bind_eq_some_iff,
    Option.pure_def, Option.some.injEq] at h
  obtain ⟨site, -, results, hs, he⟩ := h
  refine ⟨_, results, ?_, hs, he.symm⟩
  intro r hr
  have hm := mem_getUnresolved.mp hr
  exact ⟨hm.1, hm.2.1⟩

theorem IssueForm.commits_asset {assetId : Nat}
    (h : assetIssuesSubmit db assetId form = some db') : form.Commits db db' := by
  simp only [assetIssuesSubmit, Option.bind_eq_bind, Option.bind_eq_some_iff,
    Option.pure_def, Option.some.injEq] at h
  obtain ⟨asset, -, results, hs, he⟩ := h
  refine ⟨_, results, ?_, hs, he.symm⟩
  intro r hr
  have hm := List.mem_filter.mp hr
  exact ⟨hm.1, (Bool.and_eq_true_iff.mp hm.2).2⟩

end Handlers

end Medusa
