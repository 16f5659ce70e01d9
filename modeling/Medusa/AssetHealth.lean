import Mathlib.Algebra.Ring.Rat
import Medusa.CheckIsolation

/-! The health of an asset: what `check_asset` adds up over the active results, and what is
stored. The impacts are summed but the sum goes nowhere, so the health stored before the
pass stays unless no algorithm was run. -/

namespace Medusa

open Relational

def issuePriorityWeighting (priority : Int) : ℚ := (25 - (priority - 1) * 5) / 100

def Result.issueHealthImpact (r : Result) : ℚ := issuePriorityWeighting r.priority * r.value

def activeResults (results : Results) (asset : Nat) : List Result :=
  results.rows.filter (fun r => r.assetId == asset && r.active)

def sumIssueHealthImpact (results : Results) (asset : Nat) : ℚ :=
  ((activeResults results asset).map Result.issueHealthImpact).sum

/-- The priority of the issue that `save_result` finds or creates. -/
def issuePriority (results : Results) (asset : Asset) (algorithm : Algorithm) : Int :=
  match (openIssues results asset.id algorithm.id).head? with
  | some (priority, _) => priority
  | none => asset.priority

def Attempt.fails (attempt : Attempt) : Bool := attempt.outcome.map Prod.snd == some false

/-- What an execution takes from the health, from the state before the pass. -/
def failureImpact (results : Results) (asset : Asset) (attempts : Algorithm → Attempt)
    (algorithm : Algorithm) : ℚ :=
  match (attempts algorithm).outcome with
  | some (value, false) => issuePriorityWeighting (issuePriority results asset algorithm) * value
  | _ => 0

theorem saveResult_priority (results : Results) (asset : Asset) (algorithm : Algorithm)
    (reading : Reading) :
    (saveResult results asset algorithm reading).2.priority =
      issuePriority results asset algorithm := by
  have hcounts := congrArg Prod.fst (saveResult_counts results asset algorithm reading)
  unfold issuePriority
  cases hhead : (openIssues results asset.id algorithm.id).head? with
  | none => simpa [hhead] using hcounts
  | some issue => simpa [hhead] using hcounts

section Sum

variable {db : Db} {asset : Asset} {attempts : Algorithm → Attempt} {done : List Algorithm}
  {pass pass' : Pass} {algorithm : Algorithm}

/-- The loop takes the priorities from the state before the pass. -/
structure Priorities (db : Db) (asset : Asset) (done : List Algorithm) (pass : Pass) : Prop where
  saved : ∀ r ∈ pass.session.rows, r.assetId = asset.id → r.recent = true →
    ∃ g ∈ done, r.algorithmId = g.id ∧ r.priority = issuePriority db.results asset g
  waiting : ∀ g : Algorithm, (∀ g' ∈ done, g'.id ≠ g.id) →
    openIssues pass.session asset.id g.id = openIssues db.results asset.id g.id

theorem Priorities.start (db : Db) (asset : Asset) (attempts : Algorithm → Attempt) :
    Priorities db asset [] (Pass.start db.results asset.id) where
  saved r hr ha hrec := by
    obtain ⟨⟨g, hg, -⟩, -⟩ := (Progress.start db asset attempts).saved r hr ha hrec
    simp at hg
  waiting g _ := openIssues_clearRecent db.results asset.id asset.id g.id

theorem Priorities.execute (hp : Priorities db asset done pass)
    (hnew : ∀ g ∈ done, g.id ≠ algorithm.id)
    (h : pass.execute db asset algorithm (attempts algorithm) = (pass', none)) :
    Priorities db asset (done ++ [algorithm]) pass' := by
  obtain ⟨reading, -, hsession, -⟩ := (Pass.execute_cases h).resolve_left (by simp)
  constructor
  · intro r hr ha hrec
    rw [hsession] at hr
    rcases (mem_saveResult pass.session asset algorithm reading).mp hr with rfl | ⟨hr, -⟩
    · refine ⟨algorithm, by simp, saveResult_algorithmId _ _ _ _, ?_⟩
      rw [saveResult_priority]
      unfold issuePriority
      rw [hp.waiting algorithm hnew]
    · obtain ⟨g, hg, halg, hpriority⟩ := hp.saved r hr ha hrec
      exact ⟨g, List.mem_append_left _ hg, halg, hpriority⟩
  · intro g hg
    have hne : g.id ≠ algorithm.id := (hg algorithm (by simp)).symm
    rw [hsession, openIssues_saveResult _ _ _ hne]
    exact hp.waiting g (fun g' hg' => hg g' (List.mem_append_left _ hg'))

theorem SavedBy.active_iff {r : Result} (h : SavedBy db asset attempts algorithm r) :
    r.active = true ↔ (attempts algorithm).fails = true := by
  obtain ⟨ho, hactive⟩ := h.outcome
  rw [hactive, Attempt.fails, ho]
  cases r.passed <;> simp

theorem SavedBy.issueHealthImpact {r : Result} (h : SavedBy db asset attempts algorithm r)
    (hactive : r.active = true)
    (hpriority : r.priority = issuePriority db.results asset algorithm) :
    r.issueHealthImpact = failureImpact db.results asset attempts algorithm := by
  obtain ⟨ho, hpassed⟩ := h.outcome
  have hfailed : r.passed = false := by simpa [hactive] using hpassed
  rw [hfailed] at ho
  simp [Result.issueHealthImpact, failureImpact, ho, hpriority]

/-- The algorithms of the active results are those that failed in the pass. -/
theorem Progress.active_perm (hp : Progress db asset attempts done pass)
    (hnd : (done.map Algorithm.id).Nodup) :
    ((activeResults (deactivate pass.session pass.previouslyActive) asset.id).map
      Result.algorithmId).Perm
        ((done.filter (fun g => (attempts g).fails)).map Algorithm.id) := by
  have hactive : ∀ r, r ∈ activeResults (deactivate pass.session pass.previouslyActive) asset.id ↔
      r ∈ (deactivate pass.session pass.previouslyActive).rows ∧ r.assetId = asset.id ∧
        r.active = true := by
    intro r
    simp [activeResults]
  have hnodup : ((activeResults (deactivate pass.session pass.previouslyActive) asset.id).map
      Result.algorithmId).Nodup := by
    refine List.Nodup.map_on ?_ ((Table.rows_nodup _).filter _)
    intro r hr r' hr' halg
    obtain ⟨hr, ha, hact⟩ := (hactive r).mp hr
    obtain ⟨hr', ha', hact'⟩ := (hactive r').mp hr'
    have hrec := hp.recent_of_active hr ha hact
    have hrec' := hp.recent_of_active hr' ha' hact'
    exact hp.unique r ((hp.mem_swept ha hrec).mp hr) r' ((hp.mem_swept ha' hrec').mp hr') ha ha'
      hrec hrec' halg
  refine (List.perm_ext_iff_of_nodup hnodup
    (hnd.sublist (List.filter_sublist.map Algorithm.id))).mpr ?_
  intro id
  simp only [List.mem_map, List.mem_filter, hactive]
  constructor
  · rintro ⟨r, ⟨hr, ha, hact⟩, rfl⟩
    obtain ⟨g, hg, hby⟩ := hp.savedBy_of_swept hr ha (hp.recent_of_active hr ha hact)
    exact ⟨g, ⟨hg, hby.active_iff.mp hact⟩, hby.1.symm⟩
  · rintro ⟨g, ⟨hg, hfails⟩, rfl⟩
    obtain ⟨r, hr, ha, hrec, halg⟩ := hp.covers g hg
    obtain ⟨⟨g', hg', hby⟩, -⟩ := hp.saved r hr ha hrec
    obtain rfl : g' = g := List.inj_on_of_nodup_map hnd hg' hg (hby.1.symm.trans halg)
    exact ⟨r, ⟨(hp.mem_swept ha hrec).mpr hr, ha, hby.active_iff.mpr hfails⟩, halg⟩

theorem Progress.sumIssueHealthImpact_eq (hp : Progress db asset attempts done pass)
    (hpriorities : Priorities db asset done pass) (hnd : (done.map Algorithm.id).Nodup) :
    sumIssueHealthImpact (deactivate pass.session pass.previouslyActive) asset.id =
      (done.map (failureImpact db.results asset attempts)).sum := by
  have himpact : done.map (failureImpact db.results asset attempts) = done.map (fun g =>
      if (attempts g).fails then failureImpact db.results asset attempts g else 0) := by
    refine List.map_congr_left ?_
    intro g _
    unfold failureImpact Attempt.fails
    rcases (attempts g).outcome with _ | ⟨value, _ | _⟩ <;> simp
  rw [himpact, ← Table.sum_filter]
  refine Table.sum_eq_of_perm_keys (hp.active_perm hnd) ?_
  intro r hr g hg halg
  simp only [activeResults, List.mem_filter, Bool.and_eq_true, beq_iff_eq] at hr
  obtain ⟨hr, ha, hact⟩ := hr
  have hg := (List.mem_filter.mp hg).1
  have hrec := hp.recent_of_active hr ha hact
  obtain ⟨g', hg', hby⟩ := hp.savedBy_of_swept hr ha hrec
  obtain ⟨g'', hg'', halg'', hpriority⟩ :=
    hpriorities.saved r ((hp.mem_swept ha hrec).mp hr) ha hrec
  obtain rfl : g' = g := List.inj_on_of_nodup_map hnd hg' hg (hby.1.symm.trans halg)
  obtain rfl : g'' = g' := List.inj_on_of_nodup_map hnd hg'' hg' (halg''.symm.trans halg)
  exact hby.issueHealthImpact hact hpriority

theorem runAlgorithms_count {algorithms : List Algorithm}
    (hnd : (algorithms.map Algorithm.id).Nodup)
    (h : runAlgorithms db asset attempts (Pass.start db.results asset.id) algorithms =
      (pass, none)) : pass.algorithmsRun = algorithms.length := by
  have hstart : (Pass.start db.results asset.id).algorithmsRun = ([] : List Algorithm).length := rfl
  refine runAlgorithms_done (P := fun done pass => pass.algorithmsRun = done.length) ?_ hstart hnd h
  intro done pass pass' g hcount _ he
  obtain ⟨_, -, -, -, -, -, hcompleted⟩ := (Pass.execute_cases he).resolve_left (by simp)
  rw [(hcompleted rfl).2, hcount, List.length_append, List.length_singleton]

end Sum

theorem checkAsset_sum {db : Db} {asset : Asset} {order : IterationOrder Algorithm}
    {attempts : Algorithm → Attempt} (h : (checkAsset db asset order attempts).raised = none) :
    sumIssueHealthImpact (checkAsset db asset order attempts).db.results asset.id =
      ((db.toRun asset).map (failureImpact db.results asset attempts)).sum := by
  rcases checkAsset_cases db asset order attempts with ⟨pass, e, -, he⟩ | ⟨pass, hrun, hp, he⟩
  · simp [he] at h
  · have hnd := db.visit_nodup asset order
    have hpriorities : Priorities db asset (order.visit (db.toRun asset)) pass :=
      runAlgorithms_done (P := Priorities db asset) (fun hp hnew hexecute => hp.execute hnew hexecute)
        (Priorities.start db asset attempts) hnd hrun
    rw [he, Db.setHealth_results, hp.sumIssueHealthImpact_eq hpriorities hnd]
    exact ((order.perm _).map _).sum_eq

theorem checkAsset_assets {db : Db} {asset : Asset} {order : IterationOrder Algorithm}
    {attempts : Algorithm → Attempt} (h : (checkAsset db asset order attempts).raised = none) :
    (checkAsset db asset order attempts).db.assets =
      if db.toRun asset = [] then
        db.assets.update (fun a => a.id == asset.id) Asset.setUnhealthy Asset.setUnhealthy_id
      else db.assets := by
  rcases checkAsset_cases db asset order attempts with ⟨pass, e, -, he⟩ | ⟨pass, hrun, -, he⟩
  · simp [he] at h
  · have hcount : pass.algorithmsRun = (db.toRun asset).length := by
      rw [runAlgorithms_count (db.visit_nodup asset order) hrun, (order.perm _).length_eq]
    rw [he]
    by_cases hrun : db.toRun asset = []
    · simp [Db.setHealth, hcount, hrun]
    · simp [Db.setHealth, hcount, hrun, List.length_pos_iff.mpr hrun]

/-- After a completed pass the stored health is what the active results leave exactly if
nothing was run, or if it was so before. -/
theorem checkAsset_health_iff {db : Db} {asset : Asset} {order : IterationOrder Algorithm}
    {attempts : Algorithm → Attempt} (hasset : asset ∈ db.assets.rows)
    (h : (checkAsset db asset order attempts).raised = none) :
    (∀ a ∈ (checkAsset db asset order attempts).db.assets.rows, a.id = asset.id →
      a.health = if db.toRun asset = [] then 0 else
        1 - sumIssueHealthImpact (checkAsset db asset order attempts).db.results asset.id) ↔
      db.toRun asset = [] ∨
        asset.health = 1 - ((db.toRun asset).map (failureImpact db.results asset attempts)).sum := by
  rw [checkAsset_assets h, checkAsset_sum h]
  by_cases hrun : db.toRun asset = []
  · simp only [hrun, if_true, true_or, iff_true]
    intro a ha hid
    obtain ⟨a₀, -, rfl⟩ := Table.mem_update.mp ha
    by_cases hown : a₀.id = asset.id
    · simp [hown, Asset.setUnhealthy]
    · simp [hown] at hid
  · simp only [hrun, if_false, false_or]
    constructor
    · intro hall
      exact hall asset hasset rfl
    · intro hhealth a ha hid
      rw [Table.eq_of_key_eq ha hasset hid]
      exact hhealth

def fanSuccess : Attempt := { fanFailure with outcome := some (0, true) }

theorem checkAsset_health_iff_fanUnit :
    fanUnit ∈ plant.assets.rows ∧
      (checkAsset plant fanUnit (.listed Algorithm) (fun _ => fanSuccess)).raised = none ∧
      ∀ a ∈ (checkAsset plant fanUnit (.listed Algorithm) (fun _ => fanSuccess)).db.assets.rows,
        a.id = fanUnit.id → a.health = if plant.toRun fanUnit = [] then 0 else
          1 - sumIssueHealthImpact (checkAsset plant fanUnit (.listed Algorithm)
            (fun _ => fanSuccess)).db.results fanUnit.id := by
  have hasset : fanUnit ∈ plant.assets.rows := List.mem_singleton_self _
  have hcompleted :
      (checkAsset plant fanUnit (.listed Algorithm) (fun _ => fanSuccess)).raised = none := rfl
  exact ⟨hasset, hcompleted, (checkAsset_health_iff hasset hcompleted).mpr (Or.inr (by decide +kernel))⟩

theorem health_stays_after_failure :
    (checkAsset plant fanUnit (.listed Algorithm) (fun _ => fanFailure)).raised = none ∧
      plant.toRun fanUnit ≠ [] ∧
      sumIssueHealthImpact (checkAsset plant fanUnit (.listed Algorithm)
        (fun _ => fanFailure)).db.results fanUnit.id = 1 / 4 ∧
      ∃ a ∈ (checkAsset plant fanUnit (.listed Algorithm) (fun _ => fanFailure)).db.assets.rows,
        a.id = fanUnit.id ∧ a.health = 1 := by
  refine ⟨rfl, by decide, ?_, fanUnit, ?_, rfl, rfl⟩
  · decide +kernel
  · exact List.mem_singleton_self _

end Medusa
