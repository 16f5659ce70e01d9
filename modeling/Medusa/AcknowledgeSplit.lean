import Medusa.AcknowledgeScope

/-! A submit for a site against the submits for its assets. A submit settles the
results in its scope and leaves the others alone, provided that its form ticks
results in the scope only, so that scopes without a common result can be submitted
one after the other. -/

namespace Medusa

open Relational

/-- What a submit does to a result in its scope. -/
def IssueForm.settle (form : IssueForm) (r : Result) : Result :=
  { r with
    acknowledged :=
      if some r.id ∈ form.acknowledge then true
      else if r.unresolved then false else r.acknowledged
    notes := if r.unresolved then (form.notes r.id).getD "" else r.notes }

@[simp] theorem IssueForm.settle_assetId (form : IssueForm) (r : Result) :
    (form.settle r).assetId = r.assetId := rfl

/-- The fields of the form that are about results of the asset. -/
def IssueForm.restrict (form : IssueForm) (results : Results) (asset : Nat) : IssueForm where
  notes := fun id =>
    if results.rows.any (fun r => r.id == id && r.assetId == asset) then form.notes id else none
  acknowledge := form.acknowledge.filter (fun id =>
    results.rows.any (fun r => some r.id == id && r.assetId == asset))

theorem IssueForm.restrict_congr (form : IssueForm) {results results' : Results}
    (h : results'.rows.map (fun r => (r.id, r.assetId)) =
      results.rows.map (fun r => (r.id, r.assetId))) (asset : Nat) :
    form.restrict results' asset = form.restrict results asset := by
  have hany : ∀ p : Nat × Nat → Bool, results'.rows.any (fun r => p (r.id, r.assetId)) =
      results.rows.any (fun r => p (r.id, r.assetId)) := by
    intro p
    have hp := congrArg (List.any · p) h
    rwa [List.any_map, List.any_map] at hp
  unfold IssueForm.restrict
  congr 1
  · funext id
    rw [hany (fun k => k.1 == id && k.2 == asset)]
  · congr 1
    funext id
    exact hany (fun k => some k.1 == id && k.2 == asset)

theorem IssueForm.restrict_notes (form : IssueForm) {results : Results} {r : Result}
    (hr : r ∈ results.rows) : (form.restrict results r.assetId).notes r.id = form.notes r.id :=
  if_pos (List.any_eq_true.mpr ⟨r, hr, by simp⟩)

theorem IssueForm.restrict_settle (form : IssueForm) {results : Results} {r : Result}
    (hr : r ∈ results.rows) : (form.restrict results r.assetId).settle r = form.settle r := by
  have hticked : some r.id ∈ (form.restrict results r.assetId).acknowledge ↔
      some r.id ∈ form.acknowledge := by
    simp only [IssueForm.restrict, List.mem_filter, List.any_eq_true, and_iff_left_iff_imp]
    exact fun _ => ⟨r, hr, by simp⟩
  simp only [IssueForm.settle, form.restrict_notes hr, hticked]

/-- A submit whose issues are the unresolved results of a scope and whose form ticks
results of the scope only. -/
theorem submitIssues_settles {form : IssueForm} {db : Db} {issues : List Result}
    {scope : Result → Prop} [DecidablePred scope]
    (hissues : ∀ r, r ∈ issues ↔ r ∈ db.results.rows ∧ scope r ∧ r.unresolved = true)
    (hnotes : ∀ r ∈ issues, (form.notes r.id).isSome = true)
    (hticked : ∀ id ∈ form.acknowledge, ∃ r ∈ db.results.rows, id = some r.id ∧ scope r) :
    ∃ results, submitIssues form db.results issues = some results ∧
      results.rows = db.results.rows.map (fun r => if scope r then form.settle r else r) := by
  have hcomplete : form.Complete db issues := by
    refine ⟨hnotes, fun id hid => ?_⟩
    obtain ⟨r, hr, he, -⟩ := hticked id hid
    exact ⟨r, hr, he⟩
  obtain ⟨results, hresults⟩ := Option.isSome_iff_exists.mp
    ((submitIssues_isSome_iff form db issues).mpr hcomplete)
  refine ⟨results, hresults, ?_⟩
  rw [submitIssues_rows hresults]
  apply List.map_congr_left
  intro r hr
  have hissue : r.id ∈ issues.map Result.id ↔ scope r ∧ r.unresolved = true := by
    rw [List.mem_map]
    constructor
    · rintro ⟨r', hr', hid⟩
      obtain ⟨hmem, hscope⟩ := (hissues r').mp hr'
      rwa [Table.eq_of_key_eq hr hmem hid.symm]
    · intro h
      exact ⟨r, (hissues r).mpr ⟨hr, h⟩, rfl⟩
  by_cases hscope : scope r
  · simp [IssueForm.submitted, IssueForm.settle, hissue, hscope]
  · have hfree : some r.id ∉ form.acknowledge := by
      intro hid
      obtain ⟨r', hr', he, hscope'⟩ := hticked _ hid
      rw [← Table.eq_of_key_eq hr hr' (Option.some.inj he)] at hscope'
      exact hscope hscope'
    simp [IssueForm.submitted, hissue, hscope, hfree]

theorem assetIssuesSubmit_settles (form : IssueForm) {db : Db} {asset : Asset}
    (hasset : asset ∈ db.assets.rows)
    (hnotes : ∀ r ∈ db.results.rows, r.assetId = asset.id → r.unresolved = true →
      (form.notes r.id).isSome = true) :
    ∃ results,
      assetIssuesSubmit db asset.id (form.restrict db.results asset.id) =
        some { db with results := results } ∧
      results.rows = db.results.rows.map
        (fun r => if r.assetId = asset.id then form.settle r else r) := by
  have hown : ∀ r, r ∈ db.results.rows.filter (fun r => r.assetId == asset.id && r.unresolved) ↔
      r ∈ db.results.rows ∧ r.assetId = asset.id ∧ r.unresolved = true := by
    intro r
    simp
  have hcomplete : ∀ r ∈ db.results.rows.filter (fun r => r.assetId == asset.id && r.unresolved),
      ((form.restrict db.results asset.id).notes r.id).isSome = true := by
    intro r hr
    obtain ⟨hmem, ha, hopen⟩ := (hown r).mp hr
    rw [← ha, form.restrict_notes hmem]
    exact hnotes r hmem ha hopen
  have hticked : ∀ id ∈ (form.restrict db.results asset.id).acknowledge,
      ∃ r ∈ db.results.rows, id = some r.id ∧ r.assetId = asset.id := by
    intro id hid
    obtain ⟨r, hr, h⟩ := List.any_eq_true.mp (List.mem_filter.mp hid).2
    simp only [Bool.and_eq_true, beq_iff_eq] at h
    exact ⟨r, hr, h.1.symm, h.2⟩
  obtain ⟨results, hsubmit, hrows⟩ := submitIssues_settles hown hcomplete hticked
  refine ⟨results, ?_, ?_⟩
  · simp only [assetIssuesSubmit, Table.one?_key hasset, Option.bind_eq_bind, Option.bind_some,
      hsubmit, Option.pure_def]
  · rw [hrows]
    apply List.map_congr_left
    intro r hr
    by_cases ha : r.assetId = asset.id
    · rw [if_pos ha, if_pos ha, ← ha, form.restrict_settle hr]
    · rw [if_neg ha, if_neg ha]

/-- The submits for a list of assets, each with its part of one form. -/
def assetSubmits (db : Db) (form : IssueForm) (assets : List Asset) : Option Db :=
  assets.foldlM (fun s a => assetIssuesSubmit s a.id (form.restrict db.results a.id)) db

theorem assetSubmits_settle (form : IssueForm) {db : Db} {assets : List Asset}
    (hassets : ∀ a ∈ assets, a ∈ db.assets.rows) (hnodup : (assets.map Asset.id).Nodup)
    (hnotes : ∀ r ∈ db.results.rows, r.assetId ∈ assets.map Asset.id → r.unresolved = true →
      (form.notes r.id).isSome = true) :
    ∃ results, assetSubmits db form assets = some { db with results := results } ∧
      results.rows = db.results.rows.map
        (fun r => if r.assetId ∈ assets.map Asset.id then form.settle r else r) := by
  unfold assetSubmits
  induction assets generalizing db with
  | nil => exact ⟨db.results, rfl, by simp⟩
  | cons asset rest ih =>
    rw [List.map_cons, List.nodup_cons] at hnodup
    obtain ⟨results, hfirst, hrows⟩ := assetIssuesSubmit_settles form
      (hassets asset List.mem_cons_self)
      (fun r hr ha => hnotes r hr (by simp [ha]))
    have hkeys : results.rows.map (fun r => (r.id, r.assetId)) =
        db.results.rows.map (fun r => (r.id, r.assetId)) := by
      rw [hrows, List.map_map]
      apply List.map_congr_left
      intro r _
      simp only [Function.comp_apply]
      split <;> rfl
    have hforms : ∀ a, form.restrict results a = form.restrict db.results a :=
      form.restrict_congr hkeys
    have hlater : ∀ r ∈ results.rows, r.assetId ∈ rest.map Asset.id → r.unresolved = true →
        (form.notes r.id).isSome = true := by
      intro r hr hasset hopen
      rw [hrows] at hr
      obtain ⟨r₀, hr₀, rfl⟩ := List.mem_map.mp hr
      by_cases ha : r₀.assetId = asset.id
      · rw [if_pos ha, IssueForm.settle_assetId, ha] at hasset
        exact absurd hasset hnodup.1
      · rw [if_neg ha] at hasset hopen ⊢
        exact hnotes r₀ hr₀ (List.mem_cons_of_mem _ hasset) hopen
    obtain ⟨results', hrest, hrows'⟩ := @ih { db with results := results }
      (fun a ha => hassets a (List.mem_cons_of_mem _ ha)) hnodup.2 hlater
    refine ⟨results', ?_, ?_⟩
    · rw [List.foldlM_cons, hfirst]
      simpa only [hforms, Option.bind_eq_bind, Option.bind_some] using hrest
    · rw [hrows', hrows, List.map_map]
      apply List.map_congr_left
      intro r _
      -- the results of the first asset are none of the later ones
      by_cases ha : r.assetId = asset.id
      · simp only [Function.comp_apply, ha, if_true, IssueForm.settle_assetId, hnodup.1, if_false,
          List.map_cons, List.mem_cons, true_or]
      · simp [ha]

/-- A submit for a site does what the submits for its assets do in any order, if it
ticks results of the site only. -/
theorem unresolvedIssuesSubmit_eq_assetSubmits {db : Db} {site : Site} {form : IssueForm}
    {assets : List Asset} (hsite : db.sites.one? (fun s => s.name == site.name) = some site)
    (hnotes : ∀ r ∈ db.getUnresolved site.id, (form.notes r.id).isSome = true)
    (hticked : ∀ id ∈ form.acknowledge, ∃ r ∈ db.results.rows, id = some r.id ∧
      ∃ a ∈ db.assets.rows, a.id = r.assetId ∧ a.siteId = site.id)
    (horder : assets.Perm (db.assets.rows.filter (fun a => a.siteId == site.id))) :
    ∃ db', unresolvedIssuesSubmit db site.name form = some db' ∧
      assetSubmits db form assets = some db' := by
  have hmem : ∀ a, a ∈ assets ↔ a ∈ db.assets.rows ∧ a.siteId = site.id := by
    intro a
    simp [horder.mem_iff]
  have hscope : ∀ r : Result, r.assetId ∈ assets.map Asset.id ↔
      ∃ a ∈ db.assets.rows, a.id = r.assetId ∧ a.siteId = site.id := by
    intro r
    simp only [List.mem_map, hmem]
    exact ⟨fun ⟨a, ⟨ha, hs⟩, hid⟩ => ⟨a, ha, hid, hs⟩, fun ⟨a, ha, hid, hs⟩ => ⟨a, ⟨ha, hs⟩, hid⟩⟩
  have hissues : ∀ r, r ∈ db.getUnresolved site.id ↔
      r ∈ db.results.rows ∧ r.assetId ∈ assets.map Asset.id ∧ r.unresolved = true := by
    intro r
    rw [mem_getUnresolved, hscope]
    tauto
  have hnodup : (assets.map Asset.id).Nodup :=
    (horder.map Asset.id).nodup_iff.mpr (db.assets.nodup.sublist (List.filter_sublist.map _))
  obtain ⟨results, hsubmit, hrows⟩ := submitIssues_settles hissues hnotes
    (fun id hid => by simpa only [hscope] using hticked id hid)
  obtain ⟨results', hsubmits, hrows'⟩ := assetSubmits_settle form
    (fun a ha => ((hmem a).mp ha).1) hnodup
    (fun r hr ha hopen => hnotes r ((hissues r).mpr ⟨hr, ha, hopen⟩))
  obtain rfl : results' = results := Table.ext (hrows'.trans hrows.symm)
  refine ⟨{ db with results := results' }, ?_, hsubmits⟩
  simp only [unresolvedIssuesSubmit, hsite, Option.bind_eq_bind, Option.bind_some, hsubmit,
    Option.pure_def]

def annexSite : Site := { plantSite with id := 2, name := "annex" }

theorem annexFans_nodup : ([{ fanUnit with siteId := 2 }, { fanUnit with id := 2, siteId := 2 }].map
    Asset.id).Nodup := by
  simp [fanUnit]

/-- Two fans in the annex, the second with an issue. -/
def annexFans : Db :=
  { plantAndAnnex with
    assets := ⟨[{ fanUnit with siteId := 2 }, { fanUnit with id := 2, siteId := 2 }],
      annexFans_nodup⟩ }

theorem unresolvedIssuesSubmit_eq_assetSubmits_annexFans :
    annexFans.sites.one? (fun s => s.name == annexSite.name) = some annexSite ∧
    annexFans.assets.rows.reverse.Perm
      (annexFans.assets.rows.filter (fun a => a.siteId == annexSite.id)) ∧
    ∃ db', unresolvedIssuesSubmit annexFans annexSite.name ⟨fun _ => some "seen", [some 1]⟩ = some db' ∧
      assetSubmits annexFans ⟨fun _ => some "seen", [some 1]⟩ annexFans.assets.rows.reverse =
        some db' := by
  have hsite : annexFans.sites.one? (fun s => s.name == annexSite.name) = some annexSite := by
    decide
  have horder : annexFans.assets.rows.reverse.Perm
      (annexFans.assets.rows.filter (fun a => a.siteId == annexSite.id)) :=
    List.reverse_perm _
  refine ⟨hsite, horder, unresolvedIssuesSubmit_eq_assetSubmits hsite (fun _ _ => rfl) ?_ horder⟩
  intro id hid
  rw [List.mem_singleton.mp hid]
  exact ⟨_, List.mem_singleton.mpr rfl, rfl, _, List.mem_cons_of_mem _ List.mem_cons_self, rfl, rfl⟩

end Medusa
