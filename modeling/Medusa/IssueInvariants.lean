import Medusa.IssueRun

/-! What holds in every run: no pair of an asset and an algorithm has two
unresolved results, a result is notified when it is created and never again, and
an issue leaves the list of unresolved issues only after a user acknowledged it. -/

namespace Medusa

open Relational

def OneOpenIssue (results : Results) : Prop :=
  ∀ r ∈ results.rows, ∀ r' ∈ results.rows, r.unresolved = true → r'.unresolved = true →
    r.assetId = r'.assetId → r.algorithmId = r'.algorithmId → r = r'

theorem OneOpenIssue.id_eq_saved {results : Results} (h : OneOpenIssue results) {asset : Asset}
    {algorithm : Algorithm} (reading : Reading) {r : Result} (hr : r ∈ results.rows)
    (ho : r.isOpenIssue asset.id algorithm.id = true) :
    r.id = (saveResult results asset algorithm reading).2.id := by
  rcases saveResult_origin results asset algorithm reading with ⟨r₀, hr₀, ho₀, he⟩ | ⟨hn, -⟩
  · have hopen := Result.isOpenIssue_iff.mp ho
    have hopen₀ := Result.isOpenIssue_iff.mp ho₀
    have heq : r = r₀ := h r hr r₀ hr₀ hopen.2.2 hopen₀.2.2 (hopen.1.trans hopen₀.1.symm)
      (hopen.2.1.trans hopen₀.2.1.symm)
    rw [he, heq, Result.record_id]
  · have hno := (hn r hr).1
    simp [ho] at hno

theorem OneOpenIssue.save {results : Results} (h : OneOpenIssue results) (asset : Asset)
    (algorithm : Algorithm) (reading : Reading) :
    OneOpenIssue (saveResult results asset algorithm reading).1 := by
  -- a row of the pair that is not the saved one cannot be unresolved
  have hother : ∀ r ∈ results.rows, r.unresolved = true →
      r.assetId = (saveResult results asset algorithm reading).2.assetId →
      r.algorithmId = (saveResult results asset algorithm reading).2.algorithmId →
      r.id = (saveResult results asset algorithm reading).2.id := by
    intro r hr hu ha hg
    rw [saveResult_assetId] at ha
    rw [saveResult_algorithmId] at hg
    exact h.id_eq_saved reading hr (Result.isOpenIssue_iff.mpr ⟨ha, hg, hu⟩)
  intro r hr r' hr' hu hu' ha hg
  rcases (mem_saveResult results asset algorithm reading).mp hr with rfl | ⟨hold, hid⟩
  · rcases (mem_saveResult results asset algorithm reading).mp hr' with rfl | ⟨hold', hid'⟩
    · rfl
    · exact absurd (hother r' hold' hu' ha.symm hg.symm) hid'
  · rcases (mem_saveResult results asset algorithm reading).mp hr' with rfl | ⟨hold', hid'⟩
    · exact absurd (hother r hold hu ha hg) hid
    · exact h r hold r' hold' hu hu' ha hg

theorem OneOpenIssue.write {st : Step} {s s' : Monitor} (hw : Write st s s')
    (h : OneOpenIssue s.db.results) : OneOpenIssue s'.db.results := by
  cases hw with
  | rewrite tables f hrows hf _ =>
    intro r hr r' hr' hu hu' ha hg
    simp only [hrows, List.mem_map] at hr hr'
    obtain ⟨r₀, hr₀, rfl⟩ := hr
    obtain ⟨r₁, hr₁, rfl⟩ := hr'
    have h₀ := hf r₀ hr₀
    have h₁ := hf r₁ hr₁
    rw [h₀.assetId, h₁.assetId] at ha
    rw [h₀.algorithmId, h₁.algorithmId] at hg
    rw [h r₀ hr₀ r₁ hr₁ (h₀.unresolved hu) (h₁.unresolved hu') ha hg]
  | save asset algorithm reading attempt _ => exact h.save asset algorithm reading

/-- In every run from an empty result table there is at most one unresolved
result for an asset and an algorithm. -/
theorem run_oneOpenIssue (db : Db) (steps : List Step) :
    OneOpenIssue (run steps (Monitor.fresh db)).db.results := by
  refine run_invariant (P := fun s => OneOpenIssue s.db.results) (A := fun _ => True)
    (fun _ _ _ => trivial) (fun _ hw h => h.write hw) (fun _ _ => trivial) ?_
  intro r hr
  simp [Monitor.fresh] at hr

/-- The rows and the log agree: every row was saved at least once, and what was
sent is about rows that are stored. -/
structure Notified (s : Monitor) : Prop where
  saved : ∀ r ∈ s.db.results.rows, 1 ≤ r.occurances
  stored : ∀ e ∈ s.log, ∃ r ∈ s.db.results.rows, r.id = e.result
  once : (s.log.filter Event.isNotify).Nodup

theorem occurances_eq_one_iff {results : Results} (h : ∀ r ∈ results.rows, 1 ≤ r.occurances)
    (asset : Asset) (algorithm : Algorithm) (reading : Reading) :
    (saveResult results asset algorithm reading).2.occurances = 1 ↔
      ∀ r ∈ results.rows, r.isOpenIssue asset.id algorithm.id = false := by
  rcases saveResult_origin results asset algorithm reading with ⟨r, hr, ho, he⟩ | ⟨hn, he⟩
  · have hpos := h r hr
    constructor
    · intro hone
      rw [he, Result.record_occurances] at hone
      omega
    · intro hno
      simp [hno r hr] at ho
  · constructor
    · exact fun _ r hr => (hn r hr).1
    · intro _
      rw [he]
      rfl

theorem handleResult_notify (db : Db) (transport : Transport) (asset : Asset)
    (algorithm : Algorithm) (result : Result) :
    (handleResult db transport asset algorithm result).1.filter Event.isNotify = [] ∨
      result.occurances = 1 ∧
        (handleResult db transport asset algorithm result).1.filter Event.isNotify =
          [.notify result.id] := by
  rcases handleResult_sends db transport asset algorithm result with ⟨hnil, -⟩ | ⟨site, -, ht, hs⟩
  · simp [hnil]
  · right
    refine ⟨(testForNotification_iff.mp ht).2.2, ?_⟩
    have hrest : (issueNotify transport site asset algorithm result).1.filter Event.isNotify = [] := by
      rw [List.filter_eq_nil_iff]
      intro e he
      simp [(issueNotify_result he).2]
    rw [hs, List.filter_cons, hrest]
    rfl

theorem Notified.write {st : Step} {s s' : Monitor} (hw : Write st s s') (h : Notified s) :
    Notified s' := by
  cases hw with
  | rewrite tables f hrows hf _ =>
    refine ⟨?_, ?_, h.once⟩
    · intro r hr
      simp only [hrows, List.mem_map] at hr
      obtain ⟨r₀, hr₀, rfl⟩ := hr
      rw [(hf r₀ hr₀).occurances]
      exact h.saved r₀ hr₀
    · intro e he
      obtain ⟨r, hr, hid⟩ := h.stored e he
      refine ⟨f r, ?_, (hf r hr).id.trans hid⟩
      simp only [hrows]
      exact List.mem_map_of_mem hr
  | save asset algorithm reading attempt _ =>
    have hmem : ∀ r, r ∈ (s.save asset algorithm reading attempt.transport).db.results.rows ↔ _ :=
      fun r => mem_saveResult s.db.results asset algorithm reading
    refine ⟨?_, ?_, ?_⟩
    · intro r hr
      rcases (hmem r).mp hr with rfl | ⟨hr, -⟩
      · rcases saveResult_origin s.db.results asset algorithm reading with ⟨r₀, -, -, he⟩ | ⟨-, he⟩
        · rw [he, Result.record_occurances]
          omega
        · rw [he]
          exact Nat.le_refl 1
      · exact h.saved r hr
    · intro e he
      rcases List.mem_append.mp he with he | he
      · obtain ⟨r, hr, hid⟩ := h.stored e he
        by_cases hsaved : r.id = (saveResult s.db.results asset algorithm reading).2.id
        · exact ⟨_, (hmem _).mpr (Or.inl rfl), hsaved.symm.trans hid⟩
        · exact ⟨r, (hmem r).mpr (Or.inr ⟨hr, hsaved⟩), hid⟩
      · exact ⟨_, (hmem _).mpr (Or.inl rfl), (handleResult_result he).symm⟩
    · simp only [Monitor.save, List.filter_append]
      rcases handleResult_notify s.db attempt.transport asset algorithm
        (saveResult s.db.results asset algorithm reading).2 with hs | ⟨hone, hs⟩
      · simpa [hs] using h.once
      · rw [hs]
        refine List.Nodup.append h.once (by simp) ?_
        -- a row that is saved for the first time is not in the log yet
        intro e he he'
        rw [List.mem_singleton] at he'
        obtain ⟨r, hr, hid⟩ := h.stored e (List.mem_filter.mp he).1
        rcases saveResult_origin s.db.results asset algorithm reading with
          ⟨r₀, hr₀, ho, he₀⟩ | ⟨hn, -⟩
        · have hno := (occurances_eq_one_iff h.saved asset algorithm reading).mp hone r₀ hr₀
          simp [hno] at ho
        · exact (hn r hr).2 (hid.trans (congrArg Event.result he'))

theorem run_notified (db : Db) (steps : List Step) : Notified (run steps (Monitor.fresh db)) := by
  refine run_invariant (A := fun _ => True) (fun _ _ _ => trivial) (fun _ hw h => h.write hw)
    (fun _ _ => trivial) ⟨?_, ?_, List.nodup_nil⟩
  · intro r hr
    simp [Monitor.fresh] at hr
  · intro e he
    simp [Monitor.fresh] at he

/-- In a reachable state an execution notifies about the saved result exactly if
it failed, no unresolved result of the pair was there before, and the priority
is below one of the triggers of the site. No result is ever notified twice. -/
theorem execute_notifies {db : Db} {steps : List Step} {asset : Asset} {algorithm : Algorithm}
    {attempt : Attempt} {reading : Reading} {site : Site}
    (hreading : (run steps (.fresh db)).db.reading asset algorithm attempt = some reading)
    (hsite : (run steps (.fresh db)).db.siteOf asset = some site)
    (hsends : attempt.transport = .reliable) :
    let s := run steps (.fresh db)
    let s' := s.step (.execute asset algorithm attempt)
    let issue := (saveResult s.db.results asset algorithm reading).2
    let isNewIssue := reading.passed = false ∧
      (∀ r ∈ s.db.results.rows, r.isOpenIssue asset.id algorithm.id = false) ∧
      issue.priority < max site.emailTriggerPriority site.cmmsTriggerPriority
    ∃ sent, s'.log = s.log ++ sent ∧ (∀ e ∈ sent, e.result = issue.id) ∧
      (.notify issue.id ∈ sent ↔ isNewIssue) ∧
      (∀ address data, .mail issue.id address data ∈ sent ↔
        isNewIssue ∧ issue.priority < site.emailTriggerPriority ∧ address ∈ site.emails ∧
          data = issueAlert asset algorithm issue) ∧
      (∀ job, .workOrder issue.id job ∈ sent ↔
        isNewIssue ∧ issue.priority < site.cmmsTriggerPriority ∧
          ∃ config, site.inbuildingsConfig = some config ∧ config.enabled = true ∧
            job = inbuildingsJob asset algorithm config.key) ∧
      (s'.log.filter Event.isNotify).Nodup := by
  intro s s' issue isNewIssue
  have hstep : s' = s.save asset algorithm reading attempt.transport := by
    simp only [s', s, Monitor.step, hreading]
  have hnotified : Notified s := run_notified db steps
  have honce : (s'.log.filter Event.isNotify).Nodup := by
    have hw : Write (.execute asset algorithm attempt) s s' := Write.of_step s rfl
    exact (hnotified.write hw).once
  have hpassed : issue.passed = reading.passed :=
    (saveResult_recorded s.db.results asset algorithm reading).2.1
  have hnew : testForNotification site issue = true ↔ isNewIssue := by
    rw [testForNotification_iff, hpassed, occurances_eq_one_iff hnotified.saved]
    exact and_congr_right fun _ => and_comm
  refine ⟨(handleResult s.db attempt.transport asset algorithm issue).1, by rw [hstep]; rfl,
    fun e he => handleResult_result he, ?_⟩
  rcases handleResult_sends s.db attempt.transport asset algorithm issue with
    ⟨hnil, hno⟩ | ⟨site', hsite', ht, hs⟩
  · have hnot : ¬ isNewIssue := by
      rw [← hnew, hno site hsite]
      simp
    simpa [hnil, hnot] using honce
  · have heq : site' = site := Option.some.inj (hsite'.symm.trans hsite)
    subst heq
    have hyes : isNewIssue := hnew.mp ht
    rw [hs, hsends]
    refine ⟨by simp [hyes], ?_, ?_, honce⟩
    · intro address data
      rw [List.mem_cons, or_iff_right (by simp), mail_mem_issueNotify_iff, and_iff_right hyes]
    · intro job
      rw [List.mem_cons, or_iff_right (by simp), workOrder_mem_issueNotify_iff, and_iff_right hyes]

def fanReading : Reading := ⟨1, false, [], 0, 0⟩

theorem execute_notifies_fanUnit :
    (Monitor.fresh plant).db.siteOf fanUnit = some plantSite ∧
      .notify 1 ∈ ((Monitor.fresh plant).step (.execute fanUnit fanCheck fanFailure)).log ∧
      .mail 1 "operator" ⟨"fan unit", "fan runs without need", 0⟩ ∈
        ((Monitor.fresh plant).step (.execute fanUnit fanCheck fanFailure)).log := by
  obtain ⟨sent, hlog, -, hnotify, hmail, -⟩ :=
    @execute_notifies plant [] fanUnit fanCheck fanFailure fanReading plantSite rfl rfl rfl
  have hlog' : ((Monitor.fresh plant).step (.execute fanUnit fanCheck fanFailure)).log = sent := hlog
  have hnew : ∀ r ∈ (Monitor.fresh plant).db.results.rows,
      r.isOpenIssue fanUnit.id fanCheck.id = false := by
    intro r hr
    simp [Monitor.fresh] at hr
  rw [hlog']
  exact ⟨rfl, hnotify.mpr ⟨rfl, hnew, by decide⟩,
    (hmail _ _).mpr ⟨⟨rfl, hnew, by decide⟩, by decide, by decide, rfl⟩⟩

def HasRow (id asset : Nat) (acknowledged : Bool → Prop) (s : Monitor) : Prop :=
  ∃ r ∈ s.db.results.rows, r.id = id ∧ r.assetId = asset ∧ acknowledged r.acknowledged

theorem HasRow.write {id asset : Nat} {acknowledged : Bool → Prop} {st : Step} {s s' : Monitor}
    (hst : ∀ b, st.sets b id → acknowledged b) (hw : Write st s s')
    (h : HasRow id asset acknowledged s) : HasRow id asset acknowledged s' := by
  obtain ⟨r, hr, rfl, rfl, hack⟩ := h
  cases hw with
  | rewrite tables f hrows hf _ =>
    have hrow := hf r hr
    refine ⟨f r, ?_, hrow.id, hrow.assetId, ?_⟩
    · simp only [hrows]
      exact List.mem_map_of_mem hr
    · rcases hrow.acknowledged (f r).acknowledged rfl with he | hsets
      · rwa [← he]
      · exact hst _ hsets
  | save asset algorithm reading attempt _ =>
    rcases saveResult_keeps s.db.results asset algorithm reading hr with hkept | hrecorded
    · exact ⟨r, hkept, rfl, rfl, hack⟩
    · exact ⟨_, hrecorded, rfl, rfl, hack⟩

theorem Step.not_sets {st : Step} (h : st.form? = none) (b : Bool) (id : Nat) : ¬ st.sets b id := by
  simp [Step.sets, h]

theorem run_hasRow {id asset : Nat} {acknowledged : Bool → Prop} {steps : List Step} {s : Monitor}
    (hsteps : ∀ st ∈ steps, ∀ b, st.sets b id → acknowledged b)
    (hs : HasRow id asset acknowledged s) : HasRow id asset acknowledged (run steps s) := by
  refine run_invariant (A := fun st => ∀ b, st.sets b id → acknowledged b) ?_
    (fun hst hw h => h.write hst hw) hsteps hs
  intro _ _ _ _ st hst b hsets
  exact absurd hsets (Step.not_sets hst.form? b id)

theorem execute_hasRow_of_new {s : Monitor} {asset : Asset} {algorithm : Algorithm}
    {attempt : Attempt} {reading : Reading}
    (hreading : s.db.reading asset algorithm attempt = some reading)
    (hfailed : reading.passed = false)
    (hnew : ∀ r ∈ s.db.results.rows, r.isOpenIssue asset.id algorithm.id = false) :
    HasRow (saveResult s.db.results asset algorithm reading).2.id asset.id (· = false)
      (s.step (.execute asset algorithm attempt)) := by
  have hack : (saveResult s.db.results asset algorithm reading).2.acknowledged = false := by
    rcases saveResult_origin s.db.results asset algorithm reading with ⟨r, hr, ho, -⟩ | ⟨-, he⟩
    · simp [hnew r hr] at ho
    · rw [he]
      exact hfailed
  simp only [Monitor.step, hreading]
  exact ⟨_, (mem_saveResult s.db.results asset algorithm reading).mpr (Or.inl rfl), rfl,
    saveResult_assetId _ _ _ _, hack⟩

/-- A result that a failing check created stays in the list of unresolved issues
of its site until a submit lists it under `acknowledge`, and when it is no longer
there it is acknowledged and inactive. A pass changes the acknowledged state of
no stored result. -/
theorem issue_stays_listed {s : Monitor} {asset : Asset} {algorithm : Algorithm}
    {attempt : Attempt} {reading : Reading}
    (hreading : s.db.reading asset algorithm attempt = some reading)
    (hfailed : reading.passed = false)
    (hnew : ∀ r ∈ s.db.results.rows, r.isOpenIssue asset.id algorithm.id = false) :
    let issue := (saveResult s.db.results asset algorithm reading).2
    (∀ (steps : List Step) (site : Nat),
      let s' := run (.execute asset algorithm attempt :: steps) s
      (∃ a ∈ s'.db.assets.rows, a.id = asset.id ∧ a.siteId = site) →
      ((∀ st ∈ steps, ¬ st.acknowledges issue.id) →
        ∃ r ∈ s'.db.getUnresolved site, r.id = issue.id) ∧
      ((∀ r ∈ s'.db.getUnresolved site, r.id ≠ issue.id) →
        ∃ r ∈ s'.db.results.rows, r.id = issue.id ∧ r.acknowledged = true ∧ r.active = false)) ∧
    ∀ (t : Monitor) (checked : Asset) (order : IterationOrder Algorithm)
      (attempts : Algorithm → Attempt), ∀ r ∈ t.db.results.rows,
      ∃ r' ∈ (t.step (.check checked order attempts)).db.results.rows,
        r'.id = r.id ∧ r'.acknowledged = r.acknowledged := by
  intro issue
  have hstart : HasRow issue.id asset.id (· = false)
      (s.step (.execute asset algorithm attempt)) := execute_hasRow_of_new hreading hfailed hnew
  refine ⟨?_, ?_⟩
  · intro steps site s' hasset
    obtain ⟨a, ha, haid, hasite⟩ := hasset
    have hlisted : ∀ r ∈ s'.db.results.rows, r.assetId = asset.id → r.unresolved = true →
        r ∈ s'.db.getUnresolved site := by
      intro r hr hra hu
      exact mem_getUnresolved.mpr ⟨hr, hu, a, ha, haid.trans hra.symm, hasite⟩
    constructor
    · intro hno
      have hsteps : ∀ st ∈ steps, ∀ b, st.sets b issue.id → b = false := by
        intro st hst b hsets
        by_contra hb
        exact hno st hst (hsets.2 (by simpa using hb))
      obtain ⟨r, hr, hid, hra, hack⟩ := run_hasRow hsteps hstart
      exact ⟨r, hlisted r hr hra (by simp [Result.unresolved, hack]), hid⟩
    · intro hgone
      have hstored : HasRow issue.id asset.id (fun _ => True)
          (s.step (.execute asset algorithm attempt)) := by
        obtain ⟨r, hr, hid, hra, -⟩ := hstart
        exact ⟨r, hr, hid, hra, trivial⟩
      have hkept : HasRow issue.id asset.id (fun _ => True)
          (run steps (s.step (.execute asset algorithm attempt))) :=
        run_hasRow (fun _ _ _ _ => trivial) hstored
      obtain ⟨r, hr, hid, hra, -⟩ := hkept
      have hu : r.unresolved = false := by
        by_contra hu
        exact hgone r (hlisted r hr hra (by simpa using hu)) hid
      have hh : r.active = false ∧ r.acknowledged = true := by
        simpa [Result.unresolved] using hu
      exact ⟨r, hr, hid, hh.2, hh.1⟩
  · intro t checked order attempts r hr
    have hpass : ∀ st ∈ [Step.check checked order attempts], ∀ b, st.sets b r.id →
        b = r.acknowledged := by
      intro st hst b hsets
      rw [List.mem_singleton.mp hst] at hsets
      exact absurd hsets (Step.not_sets rfl b r.id)
    obtain ⟨r', hr', hid, -, hack⟩ := run_hasRow hpass ⟨r, hr, rfl, rfl, rfl⟩
    exact ⟨r', hr', hid, hack⟩

theorem issue_stays_listed_fanUnit :
    ∃ r ∈ (run [.execute fanUnit fanCheck fanFailure, .finish 1 [1] 1]
      (.fresh plant)).db.getUnresolved 1, r.id = 1 := by
  have hasset : ∃ a ∈ (run [.execute fanUnit fanCheck fanFailure, .finish 1 [1] 1]
      (.fresh plant)).db.assets.rows, a.id = fanUnit.id ∧ a.siteId = 1 :=
    ⟨fanUnit, List.mem_singleton_self fanUnit, rfl, rfl⟩
  have hh := (@issue_stays_listed (.fresh plant) fanUnit fanCheck fanFailure fanReading rfl rfl
    (by simp [Monitor.fresh])).1 [.finish 1 [1] 1] 1 hasset
  refine hh.1 ?_
  intro st hst
  rw [List.mem_singleton.mp hst]
  simp [Step.acknowledges, Step.form?]

end Medusa
