import Mathlib.Data.Set.Card
import Medusa.IssueTracker

/-! The history of the number of issues, and the chart of it. A recording counts the
issues of one site after the other and commits after each one, so that checks, submits
and other recordings may come between two of its counts. -/

namespace Medusa

open Relational

structure IssueHistoryTimestamp where
  id : Nat
  -- in seconds
  timestamp : Int
deriving DecidableEq

structure IssueHistory where
  id : Nat
  issues : Nat
  timestampId : Nat
  siteId : Nat
deriving DecidableEq

/-- A call of `record_issues` under way: the id of its timestamp once that is committed,
and the sites that are still to be counted. -/
structure Recording where
  timestamp : Int
  row : Option Nat
  pending : List Nat
deriving DecidableEq

structure Recorder where
  monitor : Monitor
  timestamps : Table IssueHistoryTimestamp IssueHistoryTimestamp.id
  history : Table IssueHistory IssueHistory.id
  running : List Recording

/-- The timestamp is added with the first site. -/
def Recorder.commitTimestamp (s : Recorder) (recording : Recording) :
    Table IssueHistoryTimestamp IssueHistoryTimestamp.id × Nat :=
  match recording.row with
  | some id => (s.timestamps, id)
  | none => (s.timestamps.insert (fun id => ⟨id, recording.timestamp⟩) (fun _ => rfl),
      s.timestamps.nextKey)

/-- One pass of the loop of `record_issues`, for the next site of the job. -/
def Recorder.recordSite (s : Recorder) (job : Nat) : Recorder :=
  match s.running[job]? with
  | some ⟨timestamp, row, site :: rest⟩ =>
    let issues := (s.monitor.db.getUnresolved site).length
    let (timestamps, id) := s.commitTimestamp ⟨timestamp, row, site :: rest⟩
    { s with
      timestamps
      history := s.history.insert (fun k => ⟨k, issues, id, site⟩) (fun _ => rfl)
      running := s.running.set job ⟨timestamp, some id, rest⟩ }
  | _ => s

/-- `Site.query.all()` of a new call. -/
def Recorder.listSites (s : Recorder) (now : Int) : Recorder :=
  { s with running := s.running ++ [⟨now, none, s.monitor.db.sites.rows.map Site.id⟩] }

inductive RecorderStep
  | monitor (st : Step)
  | recordIssues (now : Int)
  | continued (job : Nat)

/-- The list of the sites and the first count are read in one transaction. The application
deletes no site. -/
def Recorder.step (s : Recorder) : RecorderStep → Recorder
  | .monitor st =>
    if s.monitor.db.sites.rows.all (fun site => ((s.monitor.step st).db.sites.get? site.id).isSome)
    then { s with monitor := s.monitor.step st } else s
  | .recordIssues now => (s.listSites now).recordSite s.running.length
  | .continued job => s.recordSite job

def Recorder.run (steps : List RecorderStep) (s : Recorder) : Recorder :=
  steps.foldl Recorder.step s

def Recorder.fresh (db : Db) : Recorder := ⟨.fresh db, .empty, .empty, []⟩

def dateToMillis (mktime : Int → Int) (d : Int) : Int := mktime d * 1000

/-- `sites` are those of the current user. -/
def unresolvedChart (s : Recorder) (mktime : Int → Int) (sites : List Site) (now : Int) : String :=
  let history := s.timestamps.rows.filter (fun t => decide (now - 24 * 3600 < t.timestamp))
  let array := "[['Time',"
  let array := sites.foldl (fun array site => array ++ ("'" ++ site.name ++ "',")) array
  let array := array ++ "],"
  let array := history.foldl (fun array timestamp =>
    let array := array ++ ("[new Date(" ++ toString (dateToMillis mktime timestamp.timestamp) ++ "),")
    let array := sites.foldl (fun array site =>
      let issuesTemp := (s.history.rows.filter (fun h => h.timestampId == timestamp.id)).foldl
        (fun issuesTemp h => if site.id = h.siteId then h.issues else issuesTemp) 0
      array ++ (toString issuesTemp ++ ",")) array
    array ++ "],") array
  array ++ "]"

/-- The open issues of the assets of a site: pairs of an asset and an algorithm. -/
def Db.openIssues (db : Db) (site : Nat) : Set (Nat × Nat) :=
  {p | (∃ a ∈ db.assets.rows, a.id = p.1 ∧ a.siteId = site) ∧ (issueAt db.results p.1 p.2).isSome}

/-- A count of a site, as it was when a recording came to the site. -/
structure Count where
  job : Nat
  time : Int
  site : Nat
  issues : Nat

noncomputable def Recorder.count? (s : Recorder) (job : Nat) : Option Count :=
  match s.running[job]? with
  | some ⟨timestamp, _, site :: _⟩ =>
    some ⟨job, timestamp, site, (s.monitor.db.openIssues site).ncard⟩
  | _ => none

noncomputable def Recorder.counts (s : Recorder) : RecorderStep → List Count
  | .monitor _ => []
  | .recordIssues now => ((s.listSites now).count? s.running.length).toList
  | .continued job => (s.count? job).toList

/-- All counts of a run. -/
noncomputable def countsOf : Recorder → List RecorderStep → List Count
  | _, [] => []
  | s, st :: rest => s.counts st ++ countsOf (s.step st) rest

/-- What one call of `record_issues` has counted. -/
structure Sample where
  job : Nat
  time : Int
  counted : List (Nat × Nat)
deriving DecidableEq

/-- A site that was not counted is shown with no issue. -/
def Sample.issues (sample : Sample) (site : Nat) : Nat := (sample.counted.lookup site).getD 0

def Sample.note (sample : Sample) (c : Count) : Sample :=
  if sample.job = c.job then { sample with counted := sample.counted ++ [(c.site, c.issues)] }
  else sample

/-- The calls in the order of their first counts. -/
def note (samples : List Sample) (c : Count) : List Sample :=
  if c.job ∈ samples.map Sample.job then samples.map (fun sample => sample.note c)
  else samples ++ [⟨c.job, c.time, [(c.site, c.issues)]⟩]

def chartRow (mktime : Int → Int) (sites : List Site) (sample : Sample) : String :=
  "[new Date(" ++ toString (dateToMillis mktime sample.time) ++ ")," ++
    String.join (sites.map (fun site => toString (sample.issues site.id) ++ ",")) ++ "],"

def chartText (mktime : Int → Int) (sites : List Site) (samples : List Sample) : String :=
  "[['Time'," ++ String.join (sites.map (fun site => "'" ++ site.name ++ "',")) ++ "]," ++
    String.join (samples.map (chartRow mktime sites)) ++ "]"

theorem OneOpenIssue.issueAt_isSome {results : Results} {asset algorithm : Nat} :
    (issueAt results asset algorithm).isSome ↔
      ∃ r ∈ results.rows, r.isOpenIssue asset algorithm = true := by
  rw [issueAt, Option.isSome_map, Table.first?, List.find?_isSome]

/-- With one open issue for a pair, the results of the query are the issues of the tracker. -/
theorem OneOpenIssue.ncard_openIssues {db : Db} (h : OneOpenIssue db.results) (site : Nat) :
    (db.openIssues site).ncard = (db.getUnresolved site).length := by
  let pair : Result → Nat × Nat := fun r => (r.assetId, r.algorithmId)
  have hnodup : ((db.getUnresolved site).map pair).Nodup := by
    refine (db.results.rows_nodup.filter _).map_on ?_
    intro r hr r' hr' hpair
    have hm := mem_getUnresolved.mp hr
    have hm' := mem_getUnresolved.mp hr'
    obtain ⟨ha, hg⟩ := Prod.mk.inj hpair
    exact h r hm.1 r' hm'.1 hm.2.1 hm'.2.1 ha hg
  have hset : db.openIssues site = ((db.getUnresolved site).map pair).toFinset := by
    ext ⟨a, g⟩
    simp only [Db.openIssues, Set.mem_ofPred_eq, OneOpenIssue.issueAt_isSome, List.coe_toFinset,
      List.mem_map]
    constructor
    · rintro ⟨⟨asset, hasset, rfl, hsite⟩, r, hr, ho⟩
      obtain ⟨ha, hg, hu⟩ := Result.isOpenIssue_iff.mp ho
      exact ⟨r, mem_getUnresolved.mpr ⟨hr, hu, asset, hasset, ha.symm, hsite⟩,
        Prod.ext ha hg⟩
    · rintro ⟨r, hr, hpair⟩
      obtain ⟨rfl, rfl⟩ := Prod.mk.inj hpair
      obtain ⟨hr, hu, asset, hasset, ha, hsite⟩ := mem_getUnresolved.mp hr
      exact ⟨⟨asset, hasset, ha, hsite⟩, r, hr, Result.isOpenIssue_iff.mpr ⟨rfl, rfl, hu⟩⟩
  rw [hset, Set.ncard_coe_finset, List.toFinset_card_of_nodup hnodup, List.length_map]

/-- The last match of the loop is the only one. -/
theorem foldl_issues_eq {counted : List (Nat × Nat)} (h : (counted.map Prod.fst).Nodup)
    (site : Nat) (start : Nat) :
    counted.foldl (fun issues c => if site = c.1 then c.2 else issues) start =
      (counted.lookup site).getD start := by
  induction counted generalizing start with
  | nil => rfl
  | cons c rest ih =>
    obtain ⟨counted, issues⟩ := c
    obtain ⟨hnew, hrest⟩ := List.nodup_cons.mp h
    rw [List.foldl_cons, ih hrest]
    by_cases hc : site = counted
    · have hnone : rest.lookup site = none := by
        rw [List.lookup_eq_none_iff]
        intro c' hc'
        have hne : counted ≠ c'.1 := fun he => hnew (List.mem_map.mpr ⟨c', hc', he.symm⟩)
        simpa [hc] using hne
      rw [hnone, hc, List.lookup_cons_self, if_pos rfl]
      rfl
    · rw [List.lookup_cons, beq_eq_false_iff_ne.mpr hc, if_neg hc]

theorem foldl_append_eq_join {α : Type*} (f : α → String) (l : List α) (start : String) :
    l.foldl (fun text x => text ++ f x) start = start ++ String.join (l.map f) := by
  induction l generalizing start with
  | nil => simp
  | cons x rest ih =>
    rw [List.foldl_cons, ih, List.map_cons, String.join_cons, String.append_assoc]

/-- The row of the timestamp table holds what the sample has. -/
structure Recorder.ShowsSample (s : Recorder) (t : IssueHistoryTimestamp) (sample : Sample) : Prop where
  stored : t ∈ s.timestamps.rows
  time : t.timestamp = sample.time
  running : ∃ pending, s.running[sample.job]? = some ⟨sample.time, some t.id, pending⟩ ∧
    (sample.counted.map Prod.fst ++ pending).Nodup
  counted : (s.history.rows.filter (fun h => h.timestampId == t.id)).map
    (fun h => (h.siteId, h.issues)) = sample.counted

/-- The two tables of the history hold the samples. -/
structure Recorder.Shows (s : Recorder) (samples : List Sample) : Prop where
  rows : List.Forall₂ s.ShowsSample s.timestamps.rows samples
  noted : ∀ {job : Nat} {recording : Recording}, s.running[job]? = some recording →
    (recording.row.isSome = true ↔ job ∈ samples.map Sample.job)
  sites : ∀ {job : Nat} {recording : Recording}, s.running[job]? = some recording →
    recording.row = none → recording.pending.Nodup
  own : ∀ {job job' id : Nat} {recording recording' : Recording},
    s.running[job]? = some recording → s.running[job']? = some recording' →
    recording.row = some id → recording'.row = some id → job = job'
  refers : ∀ h ∈ s.history.rows, ∃ t ∈ s.timestamps.rows, t.id = h.timestampId

theorem Recorder.Shows.fresh (db : Db) : (Recorder.fresh db).Shows [] where
  rows := .nil
  noted h := by simp [Recorder.fresh] at h
  sites h := by simp [Recorder.fresh] at h
  own h := by simp [Recorder.fresh] at h
  refers _ h := absurd h List.not_mem_nil

section Record

variable {s : Recorder} {samples : List Sample}

theorem Recorder.Shows.running_of_mem (h : s.Shows samples) {job : Nat}
    (hjob : job ∈ samples.map Sample.job) :
    ∃ t ∈ s.timestamps.rows, ∃ time pending,
      s.running[job]? = some ⟨time, some t.id, pending⟩ := by
  obtain ⟨sample, hsample, rfl⟩ := List.mem_map.mp hjob
  obtain ⟨i, hi, rfl⟩ := List.mem_iff_getElem.mp hsample
  have hi' : i < s.timestamps.rows.length := h.rows.length_eq ▸ hi
  have hshows := (List.forall₂_iff_get.mp h.rows).2 i hi' hi
  obtain ⟨pending, hrunning, -⟩ := hshows.running
  exact ⟨_, hshows.stored, _, pending, hrunning⟩

theorem Recorder.Shows.monitor (h : s.Shows samples) (m : Monitor) :
    { s with monitor := m }.Shows samples where
  rows := h.rows.imp (fun _ _ hs => ⟨hs.stored, hs.time, hs.running, hs.counted⟩)
  noted := h.noted
  sites := h.sites
  own := h.own
  refers := h.refers

theorem Recorder.Shows.listSites (h : s.Shows samples) (now : Int) :
    (s.listSites now).Shows samples := by
  have hrunning : ∀ {job : Nat} {recording : Recording}, (s.listSites now).running[job]? = some recording →
      s.running[job]? = some recording ∨ job = s.running.length ∧
        recording = ⟨now, none, s.monitor.db.sites.rows.map Site.id⟩ := by
    intro job recording hr
    rcases Nat.lt_or_ge job s.running.length with hlt | hge
    · exact Or.inl ((List.getElem?_append_left hlt).symm.trans hr)
    · rw [Recorder.listSites, List.getElem?_append_right hge] at hr
      obtain ⟨hzero, hnew⟩ := List.getElem?_eq_some_iff.mp hr
      have hjob : job = s.running.length := by
        simp only [List.length_singleton] at hzero
        omega
      refine Or.inr ⟨hjob, ?_⟩
      rw [← hnew]
      simp [hjob]
  refine ⟨?_, ?_, ?_, ?_, h.refers⟩
  · refine h.rows.imp (fun t sample hs => ⟨hs.stored, hs.time, ?_, hs.counted⟩)
    obtain ⟨pending, hrun, hnodup⟩ := hs.running
    refine ⟨pending, ?_, hnodup⟩
    have hlt := (List.getElem?_eq_some_iff.mp hrun).1
    exact (List.getElem?_append_left hlt).trans hrun
  · intro job recording hr
    rcases hrunning hr with hold | ⟨hjob, hnew⟩
    · exact h.noted hold
    · refine iff_of_false (by simp [hnew]) ?_
      intro hmem
      obtain ⟨t, -, time, pending, hrun⟩ := h.running_of_mem hmem
      have hlt := (List.getElem?_eq_some_iff.mp hrun).1
      omega
  · intro job recording hr hnone
    rcases hrunning hr with hold | ⟨-, hnew⟩
    · exact h.sites hold hnone
    · rw [hnew]
      exact s.monitor.db.sites.nodup
  · intro job job' recording recording' id hr hr' hrow hrow'
    rcases hrunning hr with hold | ⟨-, hnew⟩
    · rcases hrunning hr' with hold' | ⟨-, hnew'⟩
      · exact h.own hold hold' hrow hrow'
      · simp [hnew'] at hrow'
    · simp [hnew] at hrow

/-- A sample that is not the one of the job is shown as before. -/
theorem Recorder.ShowsSample.other {t : IssueHistoryTimestamp} {sample : Sample} {s' : Recorder}
    {job id k issues site : Nat} {recording : Recording} (h : s.ShowsSample t sample)
    (htimestamps : ∀ t ∈ s.timestamps.rows, t ∈ s'.timestamps.rows)
    (hrunning : s'.running = s.running.set job recording)
    (hhistory : s'.history.rows = s.history.rows ++ [⟨k, issues, id, site⟩])
    (hjob : sample.job ≠ job) (hid : t.id ≠ id) : s'.ShowsSample t sample := by
  obtain ⟨pending, hrun, hnodup⟩ := h.running
  refine ⟨htimestamps t h.stored, h.time, ⟨pending, ?_, hnodup⟩, ?_⟩
  · rw [hrunning, List.getElem?_set_ne hjob.symm]
    exact hrun
  · rw [hhistory, List.filter_append, List.filter_cons_of_neg (by simpa using hid.symm),
      List.filter_nil, List.append_nil]
    exact h.counted

theorem note_jobs (samples : List Sample) (c : Count) (job : Nat) :
    job ∈ (note samples c).map Sample.job ↔ job ∈ samples.map Sample.job ∨ job = c.job := by
  have hkeeps : (samples.map (fun sample => sample.note c)).map Sample.job =
      samples.map Sample.job := by
    rw [List.map_map]
    refine List.map_congr_left (fun sample _ => ?_)
    simp only [Function.comp_apply, Sample.note]
    split <;> rfl
  unfold note
  split
  · next hmem =>
    rw [hkeeps]
    constructor
    · exact Or.inl
    · rintro (h | rfl)
      · exact h
      · exact hmem
  · simp

/-- What a count does besides to the rows: the job goes on to its next site. -/
theorem Recorder.Shows.advance {s' : Recorder} {job id k issues site : Nat} {recording : Recording}
    {c : Count} (h : s.Shows samples) (hlt : job < s.running.length) (hc : c.job = job)
    (hrow : recording.row = some id)
    (htimestamps : ∀ t ∈ s.timestamps.rows, t ∈ s'.timestamps.rows)
    (hrunning : s'.running = s.running.set job recording)
    (hhistory : s'.history.rows = s.history.rows ++ [⟨k, issues, id, site⟩])
    (hstored : ∃ t ∈ s'.timestamps.rows, t.id = id)
    (hown : ∀ {job' recording'}, s.running[job']? = some recording' → recording'.row = some id →
      job' = job)
    (hrows : List.Forall₂ s'.ShowsSample s'.timestamps.rows (note samples c)) :
    s'.Shows (note samples c) := by
  have hset : ∀ {job' recording'}, s'.running[job']? = some recording' →
      job' = job ∧ recording' = recording ∨ job' ≠ job ∧ s.running[job']? = some recording' := by
    intro job' recording' hr
    rw [hrunning] at hr
    by_cases hj : job' = job
    · rw [hj, List.getElem?_set_self hlt] at hr
      exact Or.inl ⟨hj, (Option.some.inj hr).symm⟩
    · rw [List.getElem?_set_ne (Ne.symm hj)] at hr
      exact Or.inr ⟨hj, hr⟩
  refine ⟨hrows, ?_, ?_, ?_, ?_⟩
  · intro job' recording' hr
    rw [note_jobs, hc]
    rcases hset hr with ⟨rfl, rfl⟩ | ⟨hj, hold⟩
    · simp [hrow]
    · rw [h.noted hold]
      simp [hj]
  · intro job' recording' hr hnone
    rcases hset hr with ⟨-, rfl⟩ | ⟨-, hold⟩
    · simp [hrow] at hnone
    · exact h.sites hold hnone
  · intro job₁ job₂ id' recording₁ recording₂ hr₁ hr₂ hrow₁ hrow₂
    rcases hset hr₁ with ⟨rfl, rfl⟩ | ⟨-, hold₁⟩
    · obtain rfl : id = id' := Option.some.inj (hrow.symm.trans hrow₁)
      rcases hset hr₂ with ⟨rfl, -⟩ | ⟨-, hold₂⟩
      · rfl
      · exact (hown hold₂ hrow₂).symm
    · rcases hset hr₂ with ⟨rfl, rfl⟩ | ⟨-, hold₂⟩
      · obtain rfl : id = id' := Option.some.inj (hrow.symm.trans hrow₂)
        exact hown hold₁ hrow₁
      · exact h.own hold₁ hold₂ hrow₁ hrow₂
  · intro row hmem
    rw [hhistory] at hmem
    rcases List.mem_append.mp hmem with hold | hnew
    · obtain ⟨t, ht, hid⟩ := h.refers row hold
      exact ⟨t, htimestamps t ht, hid⟩
    · rw [List.mem_singleton.mp hnew]
      exact hstored

/-- A job that has its timestamp adds to its sample. -/
theorem Recorder.Shows.recordNext {job id site : Nat} {time : Int} {rest : List Nat} (issues : Nat)
    (h : s.Shows samples) (hjob : s.running[job]? = some ⟨time, some id, site :: rest⟩) :
    { s with
      history := s.history.insert (fun k => ⟨k, issues, id, site⟩) (fun _ => rfl)
      running := s.running.set job ⟨time, some id, rest⟩ }.Shows
        (note samples ⟨job, time, site, issues⟩) := by
  have hlt : job < s.running.length := (List.getElem?_eq_some_iff.mp hjob).1
  have hmem : job ∈ samples.map Sample.job := (h.noted hjob).mp rfl
  obtain ⟨t, ht, time', pending, hrun⟩ := h.running_of_mem hmem
  have htid : t.id = id := by
    rw [hjob] at hrun
    simpa using (congrArg Recording.row (Option.some.inj hrun)).symm
  refine h.advance hlt rfl rfl (fun _ ht => ht) rfl rfl ⟨t, ht, htid⟩
    (fun hr hrow => h.own hr hjob hrow rfl) ?_
  rw [note, if_pos hmem, List.forall₂_map_right_iff]
  refine h.rows.imp ?_
  intro t sample hs
  obtain ⟨pending, hrun, hnodup⟩ := hs.running
  unfold Sample.note
  by_cases hsample : sample.job = job
  · rw [hsample, hjob] at hrun
    obtain ⟨rfl, hid, rfl⟩ : time = sample.time ∧ id = t.id ∧ site :: rest = pending := by
      simpa using hrun
    rw [if_pos hsample]
    refine ⟨hs.stored, hs.time, ⟨rest, ?_, ?_⟩, ?_⟩
    · simp only [hsample, hid]
      exact List.getElem?_set_self hlt
    · simpa using hnodup
    · rw [Table.rows_insert, List.filter_append, List.map_append, hs.counted]
      simp [hid]
  · rw [if_neg hsample]
    refine hs.other (fun _ ht => ht) rfl rfl hsample ?_
    intro hid
    exact hsample (h.own hrun hjob rfl (congrArg some hid.symm))

/-- The first count of a job comes with a timestamp of its own. -/
theorem Recorder.Shows.recordFirst {job site : Nat} {time : Int} {rest : List Nat} (issues : Nat)
    (h : s.Shows samples) (hjob : s.running[job]? = some ⟨time, none, site :: rest⟩) :
    { s with
      timestamps := s.timestamps.insert (fun id => ⟨id, time⟩) (fun _ => rfl)
      history := s.history.insert (fun k => ⟨k, issues, s.timestamps.nextKey, site⟩) (fun _ => rfl)
      running := s.running.set job ⟨time, some s.timestamps.nextKey, rest⟩ }.Shows
        (note samples ⟨job, time, site, issues⟩) := by
  have hlt : job < s.running.length := (List.getElem?_eq_some_iff.mp hjob).1
  have hmem : job ∉ samples.map Sample.job := fun hm => by simpa using (h.noted hjob).mpr hm
  have hnodup : (site :: rest).Nodup := h.sites hjob rfl
  have hfresh : ∀ t ∈ s.timestamps.rows, t.id ≠ s.timestamps.nextKey :=
    fun t ht => (Table.key_lt_nextKey ht).ne
  refine h.advance hlt rfl rfl (fun _ ht => List.mem_append_left _ ht) rfl rfl
    ⟨_, List.mem_append_right _ (List.mem_singleton_self _), rfl⟩ ?_ ?_
  · intro job' recording' hr hrow
    obtain ⟨t, ht, time', pending, hrun⟩ :=
      h.running_of_mem ((h.noted hr).mp (by rw [hrow]; rfl))
    rw [hrun] at hr
    rw [← Option.some.inj hr] at hrow
    exact absurd (Option.some.inj hrow) (hfresh t ht)
  rw [note, if_neg hmem]
  refine List.rel_append ?_ ?_
  · refine h.rows.imp ?_
    intro t sample hs
    obtain ⟨pending, hrun, -⟩ := hs.running
    refine hs.other (fun _ ht => List.mem_append_left _ ht) rfl rfl ?_ (hfresh t hs.stored)
    intro hsample
    rw [hsample, hjob] at hrun
    simp at hrun
  · refine .cons ⟨List.mem_append_right _ (List.mem_singleton_self _), rfl,
      ⟨rest, List.getElem?_set_self hlt, hnodup⟩, ?_⟩ .nil
    -- no row of the history refers to a timestamp that is not there
    have hnone : s.history.rows.filter (fun row => row.timestampId == s.timestamps.nextKey) = [] := by
      rw [List.filter_eq_nil_iff]
      intro row hrow
      obtain ⟨t, ht, hid⟩ := h.refers row hrow
      simpa [← hid] using hfresh t ht
    rw [Table.rows_insert, List.filter_append, hnone]
    simp

theorem Recorder.Shows.recordSite (h : s.Shows samples) (hone : OneOpenIssue s.monitor.db.results)
    (job : Nat) : (s.recordSite job).Shows ((s.count? job).toList.foldl note samples) := by
  unfold Recorder.recordSite Recorder.count?
  cases hjob : s.running[job]? with
  | none => exact h
  | some recording =>
    obtain ⟨time, row, pending⟩ := recording
    cases pending with
    | nil => exact h
    | cons site rest =>
      simp only [hone.ncard_openIssues, Option.toList_some, List.foldl_cons, List.foldl_nil]
      cases row with
      | none => exact h.recordFirst _ hjob
      | some id => exact h.recordNext _ hjob

end Record

/-- A step keeps what the tables show. -/
theorem Recorder.Shows.step {s : Recorder} {samples : List Sample} (h : s.Shows samples)
    (hone : OneOpenIssue s.monitor.db.results) (st : RecorderStep) :
    (s.step st).Shows ((s.counts st).foldl note samples) ∧
      OneOpenIssue (s.step st).monitor.db.results := by
  have hmonitor : ∀ (s : Recorder) (job : Nat), (s.recordSite job).monitor = s.monitor := by
    intro s job
    unfold Recorder.recordSite
    split <;> rfl
  cases st with
  | monitor st =>
    simp only [Recorder.step]
    split
    · exact ⟨h.monitor _, hone.step st⟩
    · exact ⟨h, hone⟩
  | recordIssues now =>
    refine ⟨(h.listSites now).recordSite hone _, ?_⟩
    simp only [Recorder.step, hmonitor]
    exact hone
  | continued job =>
    refine ⟨h.recordSite hone job, ?_⟩
    simp only [Recorder.step, hmonitor]
    exact hone

theorem Recorder.Shows.run {s : Recorder} {samples : List Sample} (h : s.Shows samples)
    (hone : OneOpenIssue s.monitor.db.results) (steps : List RecorderStep) :
    (s.run steps).Shows ((countsOf s steps).foldl note samples) := by
  induction steps generalizing s samples with
  | nil => exact h
  | cons st rest ih =>
    rw [countsOf, List.foldl_append]
    exact ih (h.step hone st).1 (h.step hone st).2

theorem Recorder.Shows.chart {s : Recorder} {samples : List Sample} (h : s.Shows samples)
    (mktime : Int → Int) (sites : List Site) (now : Int) :
    unresolvedChart s mktime sites now =
      chartText mktime sites (samples.filter (fun r => decide (now - 24 * 3600 < r.time))) := by
  have hcell : ∀ {t sample}, s.ShowsSample t sample → ∀ site : Site,
      (s.history.rows.filter (fun h => h.timestampId == t.id)).foldl
        (fun issuesTemp h => if site.id = h.siteId then h.issues else issuesTemp) 0 =
          sample.issues site.id := by
    intro t sample hs site
    obtain ⟨pending, -, hnodup⟩ := hs.running
    have hkeys : (sample.counted.map Prod.fst).Nodup := hnodup.sublist (List.sublist_append_left _ _)
    rw [Sample.issues, ← foldl_issues_eq hkeys, ← hs.counted, List.foldl_map]
  simp only [unresolvedChart, chartText, foldl_append_eq_join, String.append_assoc]
  rw [map_filter_eq_of_forall₂ h.rows]
  intro t sample hs
  refine ⟨by rw [hs.time], ?_⟩
  simp only [chartRow, hcell hs, hs.time, String.append_assoc]

/-- However recordings, checks and submits interleave, the chart shows of each recording
of the last day, for each site that it has come to, the number of issues that were open
then, and no issue for the others. -/
theorem run_chart (db : Db) (steps : List RecorderStep) (mktime : Int → Int) (sites : List Site)
    (now : Int) :
    unresolvedChart (Recorder.run steps (.fresh db)) mktime sites now =
      chartText mktime sites (((countsOf (.fresh db) steps).foldl note []).filter
        (fun sample => decide (now - 24 * 3600 < sample.time))) := by
  have hfresh : OneOpenIssue (Recorder.fresh db).monitor.db.results :=
    fun r hr => absurd hr List.not_mem_nil
  exact ((Recorder.Shows.fresh db).run hfresh steps).chart mktime sites now

end Medusa
