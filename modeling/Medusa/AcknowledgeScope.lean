import Medusa.Acknowledge
import Medusa.Derived

/-! The results that a submit may change. The results that are unacknowledged are
those of the sites or of the asset that the page is about, but the results that are
acknowledged again are looked up by the ids in the form alone. -/

namespace Medusa

open Relational

inductive Submit
  | all (sites : List Nat)
  | site (sitename : String)
  | asset (assetId : Nat)

def Submit.commit (db : Db) (form : IssueForm) : Submit → Option Db
  | all sites => unresolvedIssuesSubmitAll db sites form
  | site sitename => unresolvedIssuesSubmit db sitename form
  | asset assetId => assetIssuesSubmit db assetId form

/-- The results that are unacknowledged first, if the site or the asset is found. -/
def Submit.issues (db : Db) : Submit → Option (List Result)
  | all sites => some (sites.flatMap db.getUnresolved)
  | site sitename => (db.sites.one? (fun s => s.name == sitename)).map (fun s => db.getUnresolved s.id)
  | asset assetId => (db.assets.one? (fun a => a.id == assetId)).map (fun a =>
      db.results.rows.filter (fun r => r.assetId == a.id && r.unresolved))

/-- The result is of a site that is not one of the user's, of another site, or of
another asset. -/
def Submit.Foreign (db : Db) (r : Result) : Submit → Prop
  | all sites => ∃ a ∈ db.assets.rows, a.id = r.assetId ∧ a.siteId ∉ sites
  | site sitename => ∃ a ∈ db.assets.rows, a.id = r.assetId ∧
      ∀ s ∈ db.sites.rows, s.name = sitename → a.siteId ≠ s.id
  | asset assetId => r.assetId ≠ assetId

/-- The form has the notes of the issues, and every id in it is that of a result. -/
structure IssueForm.Complete (form : IssueForm) (db : Db) (issues : List Result) : Prop where
  notes : ∀ r ∈ issues, (form.notes r.id).isSome = true
  found : ∀ id ∈ form.acknowledge, ∃ r ∈ db.results.rows, id = some r.id

theorem Submit.commit_eq (db : Db) (form : IssueForm) (submit : Submit) :
    submit.commit db form = (submit.issues db).bind (fun issues =>
      (submitIssues form db.results issues).map (fun results => { db with results := results })) := by
  cases submit with
  | all sites => simp [commit, issues, unresolvedIssuesSubmitAll, Option.map_eq_bind]
  | site sitename =>
    simp [commit, issues, unresolvedIssuesSubmit, Option.map_eq_bind, Option.bind_assoc]
  | asset assetId => simp [commit, issues, assetIssuesSubmit, Option.map_eq_bind, Option.bind_assoc]

/-- The ids of the results are those of the database. -/
def SameIds (db : Db) (results : Results) : Prop :=
  results.rows.map Result.id = db.results.rows.map Result.id

theorem acknowledge_isSome_iff {db : Db} {results : Results} (h : SameIds db results)
    (id : Option Nat) :
    (acknowledge results id).isSome ↔ ∃ r ∈ db.results.rows, id = some r.id := by
  cases id with
  | none => simp [acknowledge]
  | some id =>
    have hmem : (∃ r ∈ db.results.rows, r.id = id) ↔ ∃ r ∈ results.rows, r.id = id := by
      rw [← List.mem_map, ← List.mem_map, h]
    simp only [Option.some.injEq, eq_comm (a := id), hmem]
    constructor
    · intro hsome
      simp only [acknowledge, Option.isSome_iff_exists, Option.bind_eq_bind,
        Option.bind_eq_some_iff, Option.some.injEq] at hsome
      obtain ⟨_, _, rfl, r, hr, -⟩ := hsome
      exact ⟨r, (Table.one?_eq_some.mp hr).1.1, by simpa using (Table.one?_eq_some.mp hr).1.2⟩
    · rintro ⟨r, hr, rfl⟩
      simp [acknowledge, Table.one?_key hr]

theorem submitIssues_isSome_iff (form : IssueForm) (db : Db) (issues : List Result) :
    (submitIssues form db.results issues).isSome ↔ form.Complete db issues := by
  have hnotes : (issues.foldlM form.unacknowledge db.results).isSome ↔
      ∀ r ∈ issues, (form.notes r.id).isSome = true := by
    refine foldlM_isSome_iff (P := fun _ => True) ?_ (fun _ _ => trivial) trivial
    intro results r _
    cases hn : form.notes r.id <;> simp [IssueForm.unacknowledge, hn]
  have hfound : ∀ {results}, SameIds db results →
      ((form.acknowledge.foldlM acknowledge results).isSome ↔
        ∀ id ∈ form.acknowledge, ∃ r ∈ db.results.rows, id = some r.id) := by
    intro results hresults
    refine foldlM_isSome_iff (P := SameIds db) (fun _ id h => acknowledge_isSome_iff h id) ?_ hresults
    intro s id s' hs h
    simp only [acknowledge, Option.bind_eq_bind, Option.bind_eq_some_iff, Option.pure_def,
      Option.some.injEq] at hs
    obtain ⟨_, -, r, -, rfl⟩ := hs
    exact (Table.keys_update s _ _ _).trans h
  have hids : ∀ {results}, issues.foldlM form.unacknowledge db.results = some results →
      SameIds db results := by
    intro results hfirst
    unfold SameIds
    rw [foldlM_unacknowledge hfirst, List.map_map]
    apply List.map_congr_left
    intro r _
    simp only [Function.comp_apply]
    split <;> rfl
  unfold submitIssues
  constructor
  · intro h
    obtain ⟨results', h⟩ := Option.isSome_iff_exists.mp h
    obtain ⟨results, hfirst, hsecond⟩ := Option.bind_eq_some_iff.mp h
    exact ⟨hnotes.mp (by rw [hfirst]; rfl), (hfound (hids hfirst)).mp (by rw [hsecond]; rfl)⟩
  · intro h
    obtain ⟨results, hfirst⟩ := Option.isSome_iff_exists.mp (hnotes.mpr h.notes)
    obtain ⟨results', hsecond⟩ := Option.isSome_iff_exists.mp
      ((hfound (hids hfirst)).mpr h.found)
    simp [hfirst, hsecond]

theorem mem_getUnresolved_site {db : Db} {site : Nat} {r : Result} {a : Asset}
    (ha : a ∈ db.assets.rows) (hr : a.id = r.assetId) (hm : r ∈ db.getUnresolved site) :
    a.siteId = site := by
  obtain ⟨-, -, a', ha', hr', hsite⟩ := mem_getUnresolved.mp hm
  rw [Table.eq_of_key_eq ha ha' (hr.trans hr'.symm)]
  exact hsite

/-- The results that are unacknowledged are none of the foreign ones. -/
theorem Submit.not_mem_issues {db : Db} {submit : Submit} {issues : List Result}
    (h : submit.issues db = some issues) {r : Result} (hr : submit.Foreign db r) :
    r ∉ issues := by
  intro hm
  cases submit with
  | all sites =>
    obtain ⟨a, ha, hasset, hsite⟩ := hr
    obtain rfl := Option.some.inj h
    obtain ⟨site, hin, hm⟩ := List.mem_flatMap.mp hm
    exact hsite (mem_getUnresolved_site ha hasset hm ▸ hin)
  | site sitename =>
    obtain ⟨a, ha, hasset, hsite⟩ := hr
    obtain ⟨s, hs, rfl⟩ := Option.map_eq_some_iff.mp h
    have hrow := (Table.one?_eq_some.mp hs).1
    exact hsite s hrow.1 (beq_iff_eq.mp hrow.2) (mem_getUnresolved_site ha hasset hm)
  | asset assetId =>
    obtain ⟨a, ha, rfl⟩ := Option.map_eq_some_iff.mp h
    have hrow := (Table.one?_eq_some.mp ha).1
    have hown := (List.mem_filter.mp hm).2
    rw [Bool.and_eq_true, beq_iff_eq] at hown
    exact hr (hown.1.trans (beq_iff_eq.mp hrow.2))

theorem Submit.issues_subset {db : Db} {submit : Submit} {issues : List Result}
    (h : submit.issues db = some issues) : ∀ r ∈ issues, r ∈ db.results.rows := by
  intro r hm
  cases submit with
  | all sites =>
    obtain rfl := Option.some.inj h
    obtain ⟨site, -, hm⟩ := List.mem_flatMap.mp hm
    exact (mem_getUnresolved.mp hm).1
  | site sitename =>
    obtain ⟨s, -, rfl⟩ := Option.map_eq_some_iff.mp h
    exact (mem_getUnresolved.mp hm).1
  | asset assetId =>
    obtain ⟨a, -, rfl⟩ := Option.map_eq_some_iff.mp h
    exact (List.mem_filter.mp hm).1

/-- A result that is not unacknowledged stays as it is exactly if it is not ticked, or
was acknowledged before. -/
theorem submitted_eq_self_iff {form : IssueForm} {issues : List Result} {r : Result}
    (hr : r.id ∉ issues.map Result.id) :
    form.submitted issues r = r ↔ (some r.id ∈ form.acknowledge → r.acknowledged = true) := by
  unfold IssueForm.submitted
  rw [if_neg hr, if_neg hr]
  constructor
  · intro he hin
    have hack := congrArg Result.acknowledged he
    rw [if_pos hin] at hack
    exact hack.symm
  · intro himp
    by_cases hin : some r.id ∈ form.acknowledge
    · rw [if_pos hin, ← himp hin]
    · rw [if_neg hin]

/-- A submit changes no result outside its scope exactly if every such result that its
form ticks was acknowledged already, or if it fails. -/
theorem submit_scope_iff (db : Db) (form : IssueForm) (submit : Submit) :
    (∀ db', submit.commit db form = some db' →
      ∀ r ∈ db.results.rows, submit.Foreign db r → r ∈ db'.results.rows) ↔
    ∀ issues, submit.issues db = some issues → form.Complete db issues →
      ∀ r ∈ db.results.rows, submit.Foreign db r → some r.id ∈ form.acknowledge →
        r.acknowledged = true := by
  -- a committed result table and what it keeps
  have hkeeps : ∀ {issues results}, submit.issues db = some issues →
      submitIssues form db.results issues = some results → ∀ r ∈ db.results.rows,
        submit.Foreign db r → (r ∈ results.rows ↔
          (some r.id ∈ form.acknowledge → r.acknowledged = true)) := by
    intro issues results hissues hresults r hr hforeign
    rw [submitIssues_rows hresults, Table.mem_map_rows_iff (f := form.submitted issues) (fun _ => rfl) hr]
    apply submitted_eq_self_iff
    intro hm
    obtain ⟨r', hr', hid⟩ := List.mem_map.mp hm
    obtain rfl := Table.eq_of_key_eq (Submit.issues_subset hissues r' hr') hr hid
    exact Submit.not_mem_issues hissues hforeign hr'
  rw [Submit.commit_eq]
  constructor
  · intro h issues hissues hcomplete r hr hforeign
    obtain ⟨results, hresults⟩ := Option.isSome_iff_exists.mp
      ((submitIssues_isSome_iff form db issues).mpr hcomplete)
    exact (hkeeps hissues hresults r hr hforeign).mp
      (h _ (by simp [hissues, hresults]; rfl) r hr hforeign)
  · intro h db' hcommit r hr hforeign
    obtain ⟨issues, hissues, hcommit⟩ := Option.bind_eq_some_iff.mp hcommit
    obtain ⟨results, hresults, rfl⟩ := Option.map_eq_some_iff.mp hcommit
    have hcomplete := (submitIssues_isSome_iff form db issues).mp (by rw [hresults]; rfl)
    exact (hkeeps hissues hresults r hr hforeign).mpr (h issues hissues hcomplete r hr hforeign)

/-- The plant and an annex, whose fan has an issue. -/
def plantAndAnnex : Db :=
  { plant with
    sites := ⟨[plantSite, { plantSite with id := 2, name := "annex" }], by simp [plantSite]⟩
    assets := ⟨[fanUnit, { fanUnit with id := 2, siteId := 2 }], by simp [fanUnit]⟩
    results := ⟨[{
      id := 1
      firstTimestamp := 5
      recentTimestamp := 5
      assetId := 2
      algorithmId := 1
      value := 1
      passed := false
      priority := 1
      active := true
      acknowledged := false
      occurances := 1
      recent := true
      notes := ""
      points := [] }], by simp⟩ }

/-- The issue of the annex is acknowledged by a submit for the plant, for the user of the
plant only, and for the fan of the plant. -/
theorem submit_acknowledges_foreign_result :
    plantAndAnnex.results.rows.map (fun r => (r.assetId, r.acknowledged)) = [(2, false)] ∧
    [Submit.site "plant", .all [1], .asset 1].map (fun submit =>
      (submit.commit plantAndAnnex ⟨fun _ => none, [some 1]⟩).map (fun db' =>
        db'.results.rows.map Result.acknowledged)) = [some [true], some [true], some [true]] := by
  decide +kernel

end Medusa
