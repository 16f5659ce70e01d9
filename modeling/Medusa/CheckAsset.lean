import Medusa.Notify

/-! `check_asset`: run the algorithms of an asset that are not excluded, save
each outcome, hand it to the event handler, and deactivate what was active
before and was not saved again.

`session` is what the database session shows, `stored` what is committed. Every
saved result is committed on its own, together with what is pending; an
exception leaves the committed rows behind and drops the rest. The health
impacts that are summed up when an algorithm ran are never stored.

The commits also let the listener map the asset to its algorithms again. A pass
does not see this, since it has read the algorithms before, and the mapping is
left out of its outcome. -/

namespace Medusa

open Relational

/-- What happens when an algorithm is run on an asset: the value and the verdict
(`none` if `run` raises), the readings of the clock, and the outside world. -/
structure Attempt where
  outcome : Option (ℚ × Bool)
  created : Nat
  now : Nat
  transport : Transport

def Result.clearRecent (r : Result) : Result := { r with recent := false }

def Result.deactivate (r : Result) : Result := { r with active := false }

@[simp] theorem Result.clearRecent_id (r : Result) : r.clearRecent.id = r.id := rfl

@[simp] theorem Result.deactivate_id (r : Result) : r.deactivate.id = r.id := rfl

def clearRecent (results : Results) (asset : Nat) : Results :=
  results.update (fun r => r.assetId == asset && r.recent) Result.clearRecent Result.clearRecent_id

def deactivate (results : Results) (previouslyActive : List Nat) : Results :=
  results.update (fun r => decide (r.id ∈ previouslyActive)) Result.deactivate
    Result.deactivate_id

def Db.pointList (db : Db) (asset : Asset) (algorithm : Algorithm) : List Nat :=
  ((db.pointsOf asset.id).filter
    (fun p => decide ((algorithm.id, p.typeId) ∈ db.algoPointMapping))).map AssetPoint.id

def Db.reading (db : Db) (asset : Asset) (algorithm : Algorithm) (attempt : Attempt) :
    Option Reading :=
  attempt.outcome.map (fun o =>
    ⟨o.1, o.2, db.pointList asset algorithm, attempt.created, attempt.now⟩)

structure Pass where
  session : Results
  stored : Results
  log : List Event
  previouslyActive : List Nat
  algorithmsRun : Nat

def Pass.execute (db : Db) (asset : Asset) (pass : Pass) (algorithm : Algorithm)
    (attempt : Attempt) : Pass × Option Exn :=
  match db.reading asset algorithm attempt with
  | none => (pass, some .algorithm)
  | some reading =>
    let saved := saveResult pass.session asset algorithm reading
    let sends := handleResult db attempt.transport asset algorithm saved.2
    let pass := { pass with session := saved.1, stored := saved.1, log := pass.log ++ sends.1 }
    match sends.2 with
    | some e => (pass, some e)
    | none =>
      ({ pass with
          previouslyActive := pass.previouslyActive.filter (fun id => id != saved.2.id)
          algorithmsRun := pass.algorithmsRun + 1 }, none)

def runAlgorithms (db : Db) (asset : Asset) (attempts : Algorithm → Attempt) :
    Pass → List Algorithm → Pass × Option Exn
  | pass, [] => (pass, none)
  | pass, algorithm :: rest =>
    match pass.execute db asset algorithm (attempts algorithm) with
    | (pass, some e) => (pass, some e)
    | (pass, none) => runAlgorithms db asset attempts pass rest

/-- The set of results that were active before, as the ids of its members. -/
def activeIds (results : Results) (asset : Nat) : List Nat :=
  (results.rows.filter (fun r => r.assetId == asset && r.active)).map Result.id

def Pass.start (results : Results) (asset : Nat) : Pass where
  session := clearRecent results asset
  stored := results
  log := []
  previouslyActive := activeIds (clearRecent results asset) asset
  algorithmsRun := 0

def Asset.setUnhealthy (a : Asset) : Asset := { a with health := 0 }

@[simp] theorem Asset.setUnhealthy_id (a : Asset) : a.setUnhealthy.id = a.id := rfl

def Db.setHealth (db : Db) (asset : Nat) (algorithmsRun : Nat) : Db :=
  if algorithmsRun > 0 then db
  else
    { db with
      assets := db.assets.update (fun a => a.id == asset) Asset.setUnhealthy
        Asset.setUnhealthy_id }

structure Checked where
  db : Db
  log : List Event
  raised : Option Exn

def checkAsset (db : Db) (asset : Asset) (order : IterationOrder Algorithm)
    (attempts : Algorithm → Attempt) : Checked :=
  match runAlgorithms db asset attempts (Pass.start db.results asset.id)
    (order.visit (db.toRun asset)) with
  | (pass, some e) => ⟨{ db with results := pass.stored }, pass.log, some e⟩
  | (pass, none) =>
    -- the line printed after the commit names the site
    ⟨{ db with results := deactivate pass.session pass.previouslyActive }.setHealth asset.id
      pass.algorithmsRun, pass.log, if (db.siteOf asset).isSome then none else some .attributeError⟩

theorem runAlgorithms_invariant {db : Db} {asset : Asset} {attempts : Algorithm → Attempt}
    {P : Pass → Prop}
    (hexecute : ∀ {pass pass' : Pass} {g : Algorithm} {e : Option Exn},
      pass.execute db asset g (attempts g) = (pass', e) → P pass → P pass')
    {algorithms : List Algorithm} {pass pass' : Pass} {e : Option Exn}
    (h : runAlgorithms db asset attempts pass algorithms = (pass', e)) (hp : P pass) : P pass' := by
  induction algorithms generalizing pass with
  | nil =>
    obtain ⟨rfl, -⟩ := Prod.mk.inj h
    exact hp
  | cons algorithm rest ih =>
    unfold runAlgorithms at h
    split at h
    · next middle exn he =>
      obtain ⟨rfl, -⟩ := Prod.mk.inj h
      exact hexecute he hp
    · next middle he => exact ih h (hexecute he hp)

/-- What holds of the algorithms that are done and is kept by one more execution holds after
a pass that completes. -/
theorem runAlgorithms_done {db : Db} {asset : Asset} {attempts : Algorithm → Attempt}
    {P : List Algorithm → Pass → Prop}
    (hexecute : ∀ {done : List Algorithm} {pass pass' : Pass} {g : Algorithm}, P done pass →
      (∀ g' ∈ done, g'.id ≠ g.id) → pass.execute db asset g (attempts g) = (pass', none) →
      P (done ++ [g]) pass')
    {rest done : List Algorithm} {pass pass' : Pass} (hp : P done pass)
    (hnd : ((done ++ rest).map Algorithm.id).Nodup)
    (h : runAlgorithms db asset attempts pass rest = (pass', none)) : P (done ++ rest) pass' := by
  induction rest generalizing done pass with
  | nil =>
    simp only [runAlgorithms, Prod.mk.injEq, and_true] at h
    simpa [← h] using hp
  | cons algorithm rest ih =>
    unfold runAlgorithms at h
    split at h
    · simp at h
    · next middle he =>
      have hnew : ∀ g ∈ done, g.id ≠ algorithm.id := by
        intro g hg hid
        rw [List.map_append, List.nodup_append] at hnd
        exact hnd.2.2 g.id (List.mem_map_of_mem hg) algorithm.id (by simp) hid
      have hh := ih (hexecute hp hnew he) (by simpa [List.append_assoc] using hnd) h
      simpa [List.append_assoc] using hh

theorem mem_clearRecent {results : Results} {asset : Nat} {r : Result} :
    r ∈ (clearRecent results asset).rows ↔
      ∃ r₀ ∈ results.rows, (if r₀.assetId = asset then r₀.clearRecent else r₀) = r := by
  simp only [clearRecent, Table.mem_update]
  have he : ∀ r₀ : Result, (if (r₀.assetId == asset && r₀.recent) = true then r₀.clearRecent
      else r₀) = if r₀.assetId = asset then r₀.clearRecent else r₀ := by
    intro r₀
    obtain ⟨_, _, _, _, _, _, _, _, _, _, _, recent, _, _⟩ := r₀
    cases recent <;> simp [Result.clearRecent]
  simp only [he]

theorem clearRecent_not_recent {results : Results} {asset : Nat} {r : Result}
    (hr : r ∈ (clearRecent results asset).rows) (ha : r.assetId = asset) : r.recent = false := by
  obtain ⟨r₀, -, rfl⟩ := mem_clearRecent.mp hr
  by_cases h₀ : r₀.assetId = asset
  · simp [h₀, Result.clearRecent]
  · simp [h₀] at ha

theorem mem_deactivate {results : Results} {ids : List Nat} {r : Result} :
    r ∈ (deactivate results ids).rows ↔
      ∃ r₀ ∈ results.rows, (if r₀.id ∈ ids then r₀.deactivate else r₀) = r := by
  simp only [deactivate, Table.mem_update, decide_eq_true_eq]

theorem mem_activeIds {results : Results} {asset id : Nat} :
    id ∈ activeIds results asset ↔
      ∃ r ∈ results.rows, r.assetId = asset ∧ r.active = true ∧ r.id = id := by
  simp [activeIds, and_assoc]

/-- An execution raises before anything is saved, or its result is committed and
handed to the event handler. -/
theorem Pass.execute_cases {db : Db} {asset : Asset} {pass pass' : Pass}
    {algorithm : Algorithm} {attempt : Attempt} {e : Option Exn}
    (h : pass.execute db asset algorithm attempt = (pass', e)) :
    (db.reading asset algorithm attempt = none ∧ pass' = pass ∧ e = some .algorithm) ∨
    ∃ reading, db.reading asset algorithm attempt = some reading ∧
      let saved := saveResult pass.session asset algorithm reading
      let sends := handleResult db attempt.transport asset algorithm saved.2
      pass'.session = saved.1 ∧ pass'.stored = saved.1 ∧ pass'.log = pass.log ++ sends.1 ∧
        e = sends.2 ∧ (e = none →
          pass'.previouslyActive = pass.previouslyActive.filter (fun id => id != saved.2.id) ∧
          pass'.algorithmsRun = pass.algorithmsRun + 1) := by
  unfold Pass.execute at h
  cases hr : db.reading asset algorithm attempt with
  | none =>
    simp only [hr, Prod.mk.injEq] at h
    exact Or.inl ⟨rfl, h.1.symm, h.2.symm⟩
  | some reading =>
    simp only [hr] at h
    refine Or.inr ⟨reading, rfl, ?_⟩
    split at h
    · next exn he =>
      obtain ⟨rfl, rfl⟩ := Prod.mk.inj h
      exact ⟨rfl, rfl, rfl, he.symm, by simp⟩
    · next he =>
      obtain ⟨rfl, rfl⟩ := Prod.mk.inj h
      exact ⟨rfl, rfl, rfl, he.symm, fun _ => ⟨rfl, rfl⟩⟩

def SavedBy (db : Db) (asset : Asset) (attempts : Algorithm → Attempt) (algorithm : Algorithm)
    (r : Result) : Prop :=
  r.algorithmId = algorithm.id ∧
    ∃ (reading : Reading) (r₀ : Result),
      db.reading asset algorithm (attempts algorithm) = some reading ∧ r = r₀.record reading

/-- The state of the loop after the algorithms in `done`. -/
structure Progress (db : Db) (asset : Asset) (attempts : Algorithm → Attempt)
    (done : List Algorithm) (pass : Pass) : Prop where
  saved : ∀ r ∈ pass.session.rows, r.assetId = asset.id → r.recent = true →
    (∃ g ∈ done, SavedBy db asset attempts g r) ∧ r.id ∉ pass.previouslyActive
  covers : ∀ g ∈ done, ∃ r ∈ pass.session.rows,
    r.assetId = asset.id ∧ r.recent = true ∧ r.algorithmId = g.id
  unique : ∀ r ∈ pass.session.rows, ∀ r' ∈ pass.session.rows, r.assetId = asset.id →
    r'.assetId = asset.id → r.recent = true → r'.recent = true →
    r.algorithmId = r'.algorithmId → r = r'
  active : ∀ r ∈ pass.session.rows, r.assetId = asset.id → r.recent = false →
    r.active = true → r.id ∈ pass.previouslyActive
  own : ∀ r ∈ pass.session.rows, r.id ∈ pass.previouslyActive → r.assetId = asset.id
  others : pass.session.rows.filter (fun r => r.assetId != asset.id) =
    db.results.rows.filter (fun r => r.assetId != asset.id)

theorem clearRecent_filter_other (results : Results) (asset : Nat) :
    (clearRecent results asset).rows.filter (fun r => r.assetId != asset) =
      results.rows.filter (fun r => r.assetId != asset) := by
  refine Table.filter_update Result.clearRecent_id ?_
  intro r _ hr
  have ha : r.assetId = asset := by simpa using (Bool.and_eq_true_iff.mp hr).1
  simp [ha, Result.clearRecent]

theorem Progress.start (db : Db) (asset : Asset) (attempts : Algorithm → Attempt) :
    Progress db asset attempts [] (Pass.start db.results asset.id) := by
  refine ⟨?_, by simp, ?_, ?_, ?_, clearRecent_filter_other db.results asset.id⟩
  · intro r hr ha hrec
    simp [clearRecent_not_recent hr ha] at hrec
  · intro r hr _ _ ha _ hrec
    simp [clearRecent_not_recent hr ha] at hrec
  · intro r hr ha _ hact
    exact mem_activeIds.mpr ⟨r, hr, ha, hact, rfl⟩
  · intro r hr hid
    obtain ⟨r', hr', ha', -, hid'⟩ := mem_activeIds.mp hid
    rwa [Table.eq_of_key_eq hr hr' hid'.symm]

theorem savedBy_saveResult {db : Db} {asset : Asset} {attempts : Algorithm → Attempt}
    {algorithm : Algorithm} {reading : Reading}
    (hreading : db.reading asset algorithm (attempts algorithm) = some reading) (results : Results) :
    SavedBy db asset attempts algorithm (saveResult results asset algorithm reading).2 := by
  refine ⟨saveResult_algorithmId _ _ _ _, reading, ?_⟩
  rcases saveResult_origin results asset algorithm reading with ⟨r, -, -, he⟩ | ⟨-, he⟩
  · exact ⟨r, hreading, he⟩
  · exact ⟨_, hreading, he⟩

/-- A row saved earlier in the pass belongs to another algorithm, so it is not
overwritten. -/
theorem Progress.not_overwritten {db : Db} {asset : Asset} {attempts : Algorithm → Attempt}
    {done : List Algorithm} {pass : Pass} {algorithm : Algorithm}
    (hp : Progress db asset attempts done pass) (hnew : ∀ g ∈ done, g.id ≠ algorithm.id)
    (reading : Reading) {r : Result} (hr : r ∈ pass.session.rows) (ha : r.assetId = asset.id)
    (hrec : r.recent = true) :
    r.algorithmId ≠ algorithm.id ∧
      r.id ≠ (saveResult pass.session asset algorithm reading).2.id := by
  obtain ⟨⟨g, hg, hby⟩, -⟩ := hp.saved r hr ha hrec
  have hne : r.algorithmId ≠ algorithm.id := hby.1 ▸ hnew g hg
  refine ⟨hne, fun hid => ?_⟩
  rcases saveResult_origin pass.session asset algorithm reading with ⟨r₀, hr₀, ho, he⟩ | ⟨hn, -⟩
  · have hid₀ : r.id = r₀.id := by rw [hid, he, Result.record_id]
    rw [Table.eq_of_key_eq hr hr₀ hid₀] at hne
    exact hne (Result.isOpenIssue_iff.mp ho).2.1
  · exact (hn r hr).2 hid

theorem Progress.execute {db : Db} {asset : Asset} {attempts : Algorithm → Attempt}
    {done : List Algorithm} {pass pass' : Pass} {algorithm : Algorithm}
    (hp : Progress db asset attempts done pass)
    (hnew : ∀ g ∈ done, g.id ≠ algorithm.id)
    (h : pass.execute db asset algorithm (attempts algorithm) = (pass', none)) :
    Progress db asset attempts (done ++ [algorithm]) pass' := by
  obtain ⟨reading, hreading, hsession, -, -, -, hcompleted⟩ :=
    (Pass.execute_cases h).resolve_left (by simp)
  have hactive := (hcompleted rfl).1
  let saved := (saveResult pass.session asset algorithm reading).2
  have hmem : ∀ r, r ∈ pass'.session.rows ↔
      r = saved ∨ (r ∈ pass.session.rows ∧ r.id ≠ saved.id) := by
    intro r
    rw [hsession]
    exact mem_saveResult pass.session asset algorithm reading
  have hids : ∀ id, id ∈ pass'.previouslyActive ↔
      id ∈ pass.previouslyActive ∧ id ≠ saved.id := by
    intro id
    rw [hactive]
    simp [saved]
  have hasset : saved.assetId = asset.id := saveResult_assetId _ _ _ _
  have halgorithm : saved.algorithmId = algorithm.id := saveResult_algorithmId _ _ _ _
  have hrecent : saved.recent = true := (saveResult_recorded _ _ _ _).2.2.2
  have hsavedBy : SavedBy db asset attempts algorithm saved :=
    savedBy_saveResult hreading pass.session
  have hkept : ∀ r ∈ pass.session.rows, r.assetId = asset.id → r.recent = true →
      r.algorithmId ≠ algorithm.id ∧ r.id ≠ saved.id :=
    fun r hr ha hrec => hp.not_overwritten hnew reading hr ha hrec
  refine ⟨?_, ?_, ?_, ?_, ?_, ?_⟩
  · intro r hr ha hrec
    rcases (hmem r).mp hr with rfl | ⟨hr, hid⟩
    · exact ⟨⟨algorithm, by simp, hsavedBy⟩, fun hid => ((hids _).mp hid).2 rfl⟩
    · obtain ⟨⟨g, hg, hby⟩, hout⟩ := hp.saved r hr ha hrec
      exact ⟨⟨g, by simp [hg], hby⟩, fun hin => hout ((hids _).mp hin).1⟩
  · intro g hg
    rcases List.mem_append.mp hg with hg | hg
    · obtain ⟨r, hr, ha, hrec, hg⟩ := hp.covers g hg
      exact ⟨r, (hmem r).mpr (Or.inr ⟨hr, (hkept r hr ha hrec).2⟩), ha, hrec, hg⟩
    · rw [List.mem_singleton.mp hg]
      exact ⟨saved, (hmem saved).mpr (Or.inl rfl), hasset, hrecent, halgorithm⟩
  · intro r hr r' hr' ha ha' hrec hrec' halg
    rcases (hmem r).mp hr with rfl | ⟨hr, -⟩ <;> rcases (hmem r').mp hr' with rfl | ⟨hr', -⟩
    · rfl
    · exact absurd (halg.symm.trans halgorithm) (hkept r' hr' ha' hrec').1
    · exact absurd (halg.trans halgorithm) (hkept r hr ha hrec).1
    · exact hp.unique r hr r' hr' ha ha' hrec hrec' halg
  · intro r hr ha hrec hact
    rcases (hmem r).mp hr with rfl | ⟨hr, hid⟩
    · simp [hrecent] at hrec
    · exact (hids _).mpr ⟨hp.active r hr ha hrec hact, hid⟩
  · intro r hr hid
    rcases (hmem r).mp hr with rfl | ⟨hr, -⟩
    · exact hasset
    · exact hp.own r hr ((hids _).mp hid).1
  · rw [hsession, ← hp.others]
    apply saveResult_filter_other
    intro r hr ha
    simp [ha] at hr

@[simp] theorem Db.setHealth_results (db : Db) (asset algorithmsRun : Nat) :
    (db.setHealth asset algorithmsRun).results = db.results := by
  unfold Db.setHealth
  split <;> rfl

theorem Db.toRun_nodup (db : Db) (asset : Asset) : ((db.toRun asset).map Algorithm.id).Nodup :=
  db.algorithms.nodup.sublist (List.filter_sublist.map Algorithm.id)

theorem Db.visit_nodup (db : Db) (asset : Asset) (order : IterationOrder Algorithm) :
    ((order.visit (db.toRun asset)).map Algorithm.id).Nodup :=
  ((order.perm _).map Algorithm.id).nodup_iff.mpr (db.toRun_nodup asset)

theorem SavedBy.outcome {db : Db} {asset : Asset} {attempts : Algorithm → Attempt}
    {g : Algorithm} {r : Result} (h : SavedBy db asset attempts g r) :
    (attempts g).outcome = some (r.value, r.passed) ∧ r.active = !r.passed := by
  obtain ⟨-, reading, r₀, hr, rfl⟩ := h
  simp only [Db.reading, Option.map_eq_some_iff] at hr
  obtain ⟨⟨value, passed⟩, ho, rfl⟩ := hr
  exact ⟨ho, rfl⟩

/-- A pass is ended by an execution that raises, or all executions are completed
and the rest of the active results is deactivated. -/
theorem checkAsset_cases (db : Db) (asset : Asset) (order : IterationOrder Algorithm)
    (attempts : Algorithm → Attempt) :
    (∃ pass e, runAlgorithms db asset attempts (Pass.start db.results asset.id)
        (order.visit (db.toRun asset)) = (pass, some e) ∧
      checkAsset db asset order attempts = ⟨{ db with results := pass.stored }, pass.log, some e⟩) ∨
    ∃ pass, runAlgorithms db asset attempts (Pass.start db.results asset.id)
        (order.visit (db.toRun asset)) = (pass, none) ∧
      Progress db asset attempts (order.visit (db.toRun asset)) pass ∧
      checkAsset db asset order attempts =
        ⟨{ db with results := deactivate pass.session pass.previouslyActive }.setHealth asset.id
          pass.algorithmsRun, pass.log,
          if (db.siteOf asset).isSome then none else some .attributeError⟩ := by
  unfold checkAsset
  split
  · next pass e hrun => exact Or.inl ⟨pass, e, hrun, rfl⟩
  · next pass hrun =>
    refine Or.inr ⟨pass, hrun, ?_, rfl⟩
    exact runAlgorithms_done (P := Progress db asset attempts)
      (fun hp hnew he => hp.execute hnew he) (Progress.start db asset attempts)
      (db.visit_nodup asset order) hrun

theorem checkAsset_completed {db : Db} {asset : Asset} {order : IterationOrder Algorithm}
    {attempts : Algorithm → Attempt} (h : (checkAsset db asset order attempts).raised = none) :
    ∃ pass, Progress db asset attempts (order.visit (db.toRun asset)) pass ∧
      (checkAsset db asset order attempts).db.results =
        deactivate pass.session pass.previouslyActive := by
  rcases checkAsset_cases db asset order attempts with ⟨pass, e, -, he⟩ | ⟨pass, -, hp, he⟩
  · simp [he] at h
  · exact ⟨pass, hp, by rw [he]; simp⟩

theorem checkAsset_others (db : Db) (asset : Asset) (order : IterationOrder Algorithm)
    (attempts : Algorithm → Attempt) :
    (checkAsset db asset order attempts).db.results.rows.filter (fun r => r.assetId != asset.id) =
      db.results.rows.filter (fun r => r.assetId != asset.id) := by
  let others : Results → List Result := fun t => t.rows.filter (fun r => r.assetId != asset.id)
  show others _ = others db.results
  rcases checkAsset_cases db asset order attempts with ⟨pass, e, hrun, he⟩ | ⟨pass, -, hp, he⟩
  · have hpass : others pass.session = others db.results ∧
        (pass = Pass.start db.results asset.id ∨ pass.stored = pass.session) := by
      refine runAlgorithms_invariant (P := fun pass => others pass.session = others db.results ∧
        (pass = Pass.start db.results asset.id ∨ pass.stored = pass.session)) ?_ hrun
        ⟨clearRecent_filter_other db.results asset.id, Or.inl rfl⟩
      intro pass pass' g e hex hpass
      rcases Pass.execute_cases hex with ⟨-, rfl, -⟩ | ⟨reading, -, hsession, hstored, -⟩
      · exact hpass
      · refine ⟨?_, Or.inr (hstored.trans hsession.symm)⟩
        rw [hsession, ← hpass.1]
        apply saveResult_filter_other
        intro r hr ha
        simp [ha] at hr
    rw [he]
    rcases hpass.2 with rfl | hstored
    · rfl
    · rw [← hpass.1, ← hstored]
  · rw [he, Db.setHealth_results]
    refine Eq.trans (Table.filter_update Result.deactivate_id ?_) hp.others
    intro r hr hid
    have ha := hp.own r hr (by simpa using hid)
    simp [ha, Result.deactivate]

section Swept

variable {db : Db} {asset : Asset} {attempts : Algorithm → Attempt} {done : List Algorithm}
  {pass : Pass} {r : Result}

/-- The sweep leaves alone what was saved in the pass. -/
theorem Progress.mem_swept (hp : Progress db asset attempts done pass)
    (ha : r.assetId = asset.id) (hrec : r.recent = true) :
    r ∈ (deactivate pass.session pass.previouslyActive).rows ↔ r ∈ pass.session.rows := by
  constructor
  · intro hr
    obtain ⟨r₀, hr₀, rfl⟩ := mem_deactivate.mp hr
    by_cases hid : r₀.id ∈ pass.previouslyActive
    · simp only [hid, if_true] at ha hrec
      exact absurd hid (hp.saved r₀ hr₀ ha hrec).2
    · simpa [hid] using hr₀
  · intro hr
    exact mem_deactivate.mpr ⟨r, hr, by simp [(hp.saved r hr ha hrec).2]⟩

theorem Progress.recent_of_active (hp : Progress db asset attempts done pass)
    (hr : r ∈ (deactivate pass.session pass.previouslyActive).rows) (ha : r.assetId = asset.id)
    (hact : r.active = true) : r.recent = true := by
  obtain ⟨r₀, hr₀, rfl⟩ := mem_deactivate.mp hr
  by_cases hid : r₀.id ∈ pass.previouslyActive
  · simp [hid, Result.deactivate] at hact
  · simp only [hid, if_false] at ha hact ⊢
    by_contra hrec
    exact hid (hp.active r₀ hr₀ ha (by simpa using hrec) hact)

theorem Progress.savedBy_of_swept (hp : Progress db asset attempts done pass)
    (hr : r ∈ (deactivate pass.session pass.previouslyActive).rows) (ha : r.assetId = asset.id)
    (hrec : r.recent = true) : ∃ g ∈ done, SavedBy db asset attempts g r :=
  (hp.saved r ((hp.mem_swept ha hrec).mp hr) ha hrec).1

end Swept

/-- After a completed pass the recent results of the asset are exactly one for
each algorithm that was run, with its value and verdict; the active ones are
those of them that failed; and no result of another asset has changed. -/
theorem checkAsset_flags {db : Db} {asset : Asset} {order : IterationOrder Algorithm}
    {attempts : Algorithm → Attempt} (h : (checkAsset db asset order attempts).raised = none) :
    let results := (checkAsset db asset order attempts).db.results
    (∀ g ∈ db.toRun asset, ∃! r, r ∈ results.rows ∧ r.assetId = asset.id ∧ r.recent = true ∧
      r.algorithmId = g.id) ∧
    (∀ r ∈ results.rows, r.assetId = asset.id → r.recent = true →
      ∃ g ∈ db.toRun asset, SavedBy db asset attempts g r ∧
        (attempts g).outcome = some (r.value, r.passed)) ∧
    (∀ r ∈ results.rows, r.assetId = asset.id →
      (r.active = true ↔ r.recent = true ∧ ∃ g ∈ db.toRun asset,
        SavedBy db asset attempts g r ∧ (attempts g).outcome = some (r.value, false))) ∧
    results.rows.filter (fun r => r.assetId != asset.id) =
      db.results.rows.filter (fun r => r.assetId != asset.id) := by
  obtain ⟨pass, hp, he⟩ := checkAsset_completed h
  have hrun : ∀ g, g ∈ order.visit (db.toRun asset) ↔ g ∈ db.toRun asset :=
    fun g => (order.perm _).mem_iff
  have hothers := checkAsset_others db asset order attempts
  rw [he] at hothers ⊢
  refine ⟨?_, ?_, ?_, hothers⟩
  · intro g hg
    obtain ⟨r, hr, ha, hrec, halg⟩ := hp.covers g ((hrun g).mpr hg)
    refine ⟨r, ⟨(hp.mem_swept ha hrec).mpr hr, ha, hrec, halg⟩, ?_⟩
    rintro r' ⟨hr', ha', hrec', halg'⟩
    exact hp.unique r' ((hp.mem_swept ha' hrec').mp hr') r hr ha' ha hrec' hrec
      (halg'.trans halg.symm)
  · intro r hr ha hrec
    obtain ⟨g, hg, hby⟩ := hp.savedBy_of_swept hr ha hrec
    exact ⟨g, (hrun g).mp hg, hby, hby.outcome.1⟩
  · intro r hr ha
    constructor
    · intro hact
      have hrec := hp.recent_of_active hr ha hact
      obtain ⟨g, hg, hby⟩ := hp.savedBy_of_swept hr ha hrec
      have ho := hby.outcome
      have hpassed : r.passed = false := by simpa [hact] using ho.2
      exact ⟨hrec, g, (hrun g).mp hg, hby, hpassed ▸ ho.1⟩
    · rintro ⟨hrec, g, -, hby, ho⟩
      have hh := hby.outcome
      rw [ho] at hh
      simp only [Option.some.injEq, Prod.mk.injEq, true_and] at hh
      simpa [← hh.1] using hh.2

def fanFailure : Attempt := ⟨some (1, false), 0, 0, .reliable⟩

theorem checkAsset_flags_fanUnit :
    (checkAsset plant fanUnit (.listed Algorithm) (fun _ => fanFailure)).raised = none ∧
      ∃! r, r ∈ (checkAsset plant fanUnit (.listed Algorithm)
        (fun _ => fanFailure)).db.results.rows ∧ r.assetId = 1 ∧ r.recent = true ∧
        r.algorithmId = 1 := by
  have hcompleted :
      (checkAsset plant fanUnit (.listed Algorithm) (fun _ => fanFailure)).raised = none := rfl
  exact ⟨hcompleted, (checkAsset_flags hcompleted).1 fanCheck (by decide)⟩

end Medusa
