import Medusa.LogQueries

/-! Whether the answer to a log query can depend on the samples of other sites.
The sample table is asked for the number of the log only, and that number is
given by the database of each site, so any query that can return a sample at all
returns one of another site if that site has a log of the same number. -/

namespace Medusa

open Relational

inductive LogQuery
  | latestQty (asset : Nat) (pointName : String) (quantity : Nat)
  | latestTime (asset : Nat) (pointName : String) (timedelta now : Int)
  | timeRange (asset : Nat) (pointName : String) (timedeltaStart timedeltaFinish now now' : Int)
  | range (assetPointId : Nat) (startDatetime endDatetime : Int) (asList : Bool)

namespace LogQuery

def answer (db : Db) : LogQuery → Option Samples
  | latestQty asset pointName quantity =>
    (DataGrab.latestQty db asset pointName quantity).map .series
  | latestTime asset pointName timedelta now =>
    (DataGrab.latestTime db asset pointName timedelta now).map .series
  | timeRange asset pointName timedeltaStart timedeltaFinish now now' =>
    (DataGrab.timeRange db asset pointName timedeltaStart timedeltaFinish now now').map .series
  | range assetPointId startDatetime endDatetime asList =>
    (LogSampleFetcher.init db assetPointId).bind
      (fun fetcher => fetcher.range db startDatetime endDatetime asList)

def site (db : Db) : LogQuery → Option Nat
  | latestQty asset _ _ | latestTime asset _ _ _ | timeRange asset _ _ _ _ _ =>
    (db.assets.get? asset).map Asset.siteId
  | range assetPointId _ _ _ => (LogSampleFetcher.init db assetPointId).map LogSampleFetcher.siteId

/-- The number of the log in which the samples are looked up, unless the query
raises before that. -/
def log (db : Db) : LogQuery → Option (Option Nat)
  | latestQty asset pointName _ | latestTime asset pointName _ _
  | timeRange asset pointName _ _ _ _ =>
    (DataGrab.point db asset pointName).map AssetPoint.loggedentityId
  | range assetPointId _ _ _ =>
    (LogSampleFetcher.init db assetPointId).bind
      (fun fetcher => fetcher.loggedEntity.map LoggedEntity.id)

/-- No sample can pass the limit or the two ends of the range. -/
def Vacuous : LogQuery → Prop
  | latestQty _ _ quantity => quantity = 0
  | latestTime _ _ _ _ => False
  | timeRange _ _ timedeltaStart timedeltaFinish now now' =>
    now' - timedeltaFinish < now - timedeltaStart
  | range _ startDatetime endDatetime _ => endDatetime < startDatetime

def present (samples : List LogTimeValue) : LogQuery → Samples
  | latestQty _ _ quantity =>
    .series (toSeries ((samples.insertionSort (fun v w => v.later w = true)).take quantity))
  | latestTime _ _ timedelta now =>
    .series (toSeries (samples.filter (LogTimeValue.notBefore (now - timedelta))))
  | timeRange _ _ timedeltaStart timedeltaFinish now now' =>
    .series (toSeries (samples.filter (fun v =>
      v.notBefore (now - timedeltaStart) && v.notAfter (now' - timedeltaFinish))))
  | range _ startDatetime endDatetime asList =>
    let samples := samples.filter (fun v => v.notBefore startDatetime && v.notAfter endDatetime)
    if asList then .list (LogSampleFetcher.toList samples) else .series (toSeries samples)

theorem answer_eq (db : Db) (query : LogQuery) :
    query.answer db = (query.log db).map (fun log => query.present (db.samplesOf log)) := by
  cases query with
  | latestQty asset pointName quantity =>
    simp only [answer, log, DataGrab.latestQty]
    cases DataGrab.point db asset pointName <;> rfl
  | latestTime asset pointName timedelta now =>
    simp only [answer, log, DataGrab.latestTime]
    cases DataGrab.point db asset pointName <;> rfl
  | timeRange asset pointName timedeltaStart timedeltaFinish now now' =>
    simp only [answer, log, DataGrab.timeRange]
    cases DataGrab.point db asset pointName <;> rfl
  | range assetPointId startDatetime endDatetime asList =>
    simp only [answer, log, LogSampleFetcher.range]
    cases LogSampleFetcher.init db assetPointId with
    | none => rfl
    | some fetcher =>
      cases hentity : fetcher.loggedEntity <;> simp [hentity, present]

end LogQuery

theorem filter_window_eq_nil {start finish : Int} (h : finish < start) (l : List LogTimeValue) :
    l.filter (fun v => v.notBefore start && v.notAfter finish) = [] := by
  rw [List.filter_eq_nil_iff]
  intro v _
  unfold LogTimeValue.notBefore LogTimeValue.notAfter
  cases v.datetimestamp with
  | none => simp
  | some t =>
    simp only [Bool.and_eq_true, decide_eq_true_eq]
    omega

theorem LogQuery.present_vacuous {query : LogQuery} (h : query.Vacuous) (l : List LogTimeValue) :
    query.present l = query.present [] := by
  cases query with
  | latestQty asset pointName quantity =>
    obtain rfl : quantity = 0 := h
    rfl
  | latestTime asset pointName timedelta now => exact absurd h id
  | timeRange asset pointName timedeltaStart timedeltaFinish now now' =>
    simp only [LogQuery.present, filter_window_eq_nil h]
  | range assetPointId startDatetime endDatetime asList =>
    simp only [LogQuery.present, filter_window_eq_nil h]

theorem LogTimeValue.later_trans {u v w : LogTimeValue} (h : u.later v = true)
    (h' : v.later w = true) : u.later w = true := by
  unfold LogTimeValue.later at h h' ⊢
  cases hu : u.datetimestamp <;> cases hv : v.datetimestamp <;> cases hw : w.datetimestamp <;>
    simp_all
  omega

theorem LogTimeValue.later_total (v w : LogTimeValue) : v.later w = true ∨ w.later v = true := by
  unfold LogTimeValue.later
  cases hv : v.datetimestamp <;> cases hw : w.datetimestamp <;> simp
  omega

instance : IsTrans LogTimeValue (fun v w => v.later w = true) :=
  ⟨fun _ _ _ => LogTimeValue.later_trans⟩

instance : Std.Total (fun v w : LogTimeValue => v.later w = true) :=
  ⟨LogTimeValue.later_total⟩

theorem exists_time_after (l : List LogTimeValue) :
    ∃ time : Int, ∀ v ∈ l, ∀ t, v.datetimestamp = some t → t < time := by
  induction l with
  | nil => exact ⟨0, by simp⟩
  | cons v rest ih =>
    obtain ⟨time, hrest⟩ := ih
    cases hv : v.datetimestamp with
    | none =>
      refine ⟨time, ?_⟩
      intro w hw t ht
      rcases List.mem_cons.mp hw with rfl | hw
      · simp [hv] at ht
      · exact hrest w hw t ht
    | some u =>
      refine ⟨max time (u + 1), ?_⟩
      intro w hw t ht
      rcases List.mem_cons.mp hw with rfl | hw
      · have hut : u = t := Option.some.inj (hv.symm.trans ht)
        omega
      · have hlt := hrest w hw t ht
        omega

theorem insertionSort_head_time {l : List LogTimeValue} {v : LogTimeValue} {time : Int}
    (hv : v.datetimestamp = some time)
    (hl : ∀ w ∈ l, ∀ t, w.datetimestamp = some t → t < time) :
    ∃ first rest, (l ++ [v]).insertionSort (fun v w => v.later w = true) = first :: rest ∧
      first.datetimestamp = some time := by
  have hsorted := List.pairwise_insertionSort (fun v w : LogTimeValue => v.later w = true) (l ++ [v])
  have hmem : ∀ w, w ∈ (l ++ [v]).insertionSort (fun v w => v.later w = true) ↔ w ∈ l ++ [v] :=
    fun w => List.mem_insertionSort _
  cases hs : (l ++ [v]).insertionSort (fun v w => v.later w = true) with
  | nil =>
    have hin := (hmem v).mpr (by simp)
    rw [hs] at hin
    simp at hin
  | cons first rest =>
    refine ⟨first, rest, rfl, ?_⟩
    rw [hs] at hsorted hmem
    rcases List.mem_cons.mp ((hmem v).mpr (by simp)) with rfl | hrest
    · exact hv
    · have hlater : first.later v = true := List.rel_of_pairwise_cons hsorted hrest
      rcases List.mem_append.mp ((hmem first).mp List.mem_cons_self) with hfirst | hfirst
      · unfold LogTimeValue.later at hlater
        cases ht : first.datetimestamp with
        | none => simp [ht, hv] at hlater
        | some t =>
          have hlt := hl first hfirst t ht
          simp only [ht, hv, decide_eq_true_eq] at hlater
          omega
      · rw [List.mem_singleton.mp hfirst]
        exact hv

theorem filter_window_append {start finish : Int} (h : start ≤ finish) (l : List LogTimeValue)
    {v : LogTimeValue} (hv : v.datetimestamp = some start) :
    (l ++ [v]).filter (fun v => v.notBefore start && v.notAfter finish) =
      l.filter (fun v => v.notBefore start && v.notAfter finish) ++ [v] := by
  simp [LogTimeValue.notBefore, LogTimeValue.notAfter, hv, h]

theorem toSeries_append_ne (l : List LogTimeValue) (v : LogTimeValue) :
    toSeries (l ++ [v]) ≠ toSeries l := by
  intro h
  have hlength := congrArg List.length h
  simp [toSeries] at hlength

theorem toList_append_ne (l : List LogTimeValue) (v : LogTimeValue) :
    LogSampleFetcher.toList (l ++ [v]) ≠ LogSampleFetcher.toList l := by
  intro h
  cases l with
  | nil => simp [LogSampleFetcher.toList] at h
  | cons w rest =>
    have hlength := congrArg List.length h
    simp [LogSampleFetcher.toList] at hlength

/-- For every query that is not vacuous there is a time at which one more sample
shows in the answer. -/
theorem LogQuery.present_append_ne {query : LogQuery} (h : ¬ query.Vacuous)
    (l : List LogTimeValue) :
    ∃ time : Int, ∀ v : LogTimeValue, v.datetimestamp = some time →
      query.present (l ++ [v]) ≠ query.present l := by
  cases query with
  | latestQty asset pointName quantity =>
    obtain ⟨time, htime⟩ := exists_time_after l
    refine ⟨time, ?_⟩
    intro v hv he
    obtain ⟨first, rest, hsort, hfirst⟩ := insertionSort_head_time hv htime
    obtain ⟨q, rfl⟩ := Nat.exists_eq_succ_of_ne_zero h
    simp only [LogQuery.present, Samples.series.injEq, hsort, List.take_succ_cons] at he
    have hin : (first.datetimestamp, first.floatValue) ∈ toSeries
        ((l.insertionSort (fun v w => v.later w = true)).take (q + 1)) := by
      rw [← he]
      exact List.mem_cons_self
    obtain ⟨w, hw, hpair⟩ := List.mem_map.mp hin
    have hwl : w ∈ l := (List.mem_insertionSort _).mp (List.mem_of_mem_take hw)
    have hwt : w.datetimestamp = some time := (congrArg Prod.fst hpair).trans hfirst
    have hlt := htime w hwl time hwt
    omega
  | latestTime asset pointName timedelta now =>
    refine ⟨now - timedelta, ?_⟩
    intro v hv he
    have hpass : (l ++ [v]).filter (LogTimeValue.notBefore (now - timedelta)) =
        l.filter (LogTimeValue.notBefore (now - timedelta)) ++ [v] := by
      simp [LogTimeValue.notBefore, hv]
    simp only [LogQuery.present, Samples.series.injEq, hpass] at he
    exact toSeries_append_ne _ v he
  | timeRange asset pointName timedeltaStart timedeltaFinish now now' =>
    refine ⟨now - timedeltaStart, ?_⟩
    intro v hv he
    have hle : now - timedeltaStart ≤ now' - timedeltaFinish := not_lt.mp h
    simp only [LogQuery.present, Samples.series.injEq, filter_window_append hle l hv] at he
    exact toSeries_append_ne _ v he
  | range assetPointId startDatetime endDatetime asList =>
    refine ⟨startDatetime, ?_⟩
    intro v hv he
    have hle : startDatetime ≤ endDatetime := not_lt.mp h
    simp only [LogQuery.present, filter_window_append hle l hv] at he
    cases asList with
    | false => exact toSeries_append_ne _ v (Samples.series.inj he)
    | true => exact toList_append_ne _ v (Samples.list.inj he)

/-- The site of every asset and of every replicated row exists. -/
structure Db.SitesExist (db : Db) : Prop where
  assets : ∀ a ∈ db.assets.rows, a.siteId ∈ db.sites.rows.map Site.id
  loggedEntities : ∀ e ∈ db.loggedEntities.rows, e.siteId ∈ db.sites.rows.map Site.id
  logTimeValues : ∀ v ∈ db.logTimeValues.rows, v.siteId ∈ db.sites.rows.map Site.id

/-- The databases differ in other sites and their logs at most. -/
structure AgreeOn (site : Nat) (db db' : Db) : Prop where
  others : { db' with
    sites := db.sites, loggedEntities := db.loggedEntities, logTimeValues := db.logTimeValues } = db
  sites : db'.sites.rows.filter (fun s => s.id == site) =
    db.sites.rows.filter (fun s => s.id == site)
  loggedEntities : db'.loggedEntities.rows.filter (fun e => e.siteId == site) =
    db.loggedEntities.rows.filter (fun e => e.siteId == site)
  logTimeValues : db'.logTimeValues.rows.filter (fun v => v.siteId == site) =
    db.logTimeValues.rows.filter (fun v => v.siteId == site)

/-- The number of the log is the same in both: the logged entities are asked for
those of the site only. -/
theorem AgreeOn.log_eq {site : Nat} {db db' : Db} (h : AgreeOn site db db') {query : LogQuery}
    (hsite : query.site db = some site) : query.log db' = query.log db := by
  have hpoint : ∀ asset pointName,
      DataGrab.point db' asset pointName = DataGrab.point db asset pointName := by
    intro asset pointName
    exact (congrArg (fun db => DataGrab.point db asset pointName) h.others :)
  have hentity : ∀ number, db'.loggedEntities.first? (fun e => e.id == number && e.siteId == site) =
      db.loggedEntities.first? (fun e => e.id == number && e.siteId == site) := by
    intro number
    have hfind : ∀ l : List LoggedEntity, l.find? (fun e => e.id == number && e.siteId == site) =
        (l.filter (fun e => e.siteId == site)).find? (fun e => e.id == number) := by
      intro l
      rw [List.find?_filter]
      congr 1
      funext e
      rw [Bool.decide_and, Bool.decide_eq_true, Bool.decide_eq_true, Bool.and_comm]
    simp only [Table.first?, hfind, h.loggedEntities]
  cases query with
  | latestQty asset pointName quantity => simp only [LogQuery.log, hpoint]
  | latestTime asset pointName timedelta now => simp only [LogQuery.log, hpoint]
  | timeRange asset pointName timedeltaStart timedeltaFinish now now' =>
    simp only [LogQuery.log, hpoint]
  | range assetPointId startDatetime endDatetime asList =>
    have hpoints : db'.assetPoints = db.assetPoints := (congrArg Db.assetPoints h.others :)
    have hassets : db'.assets = db.assets := (congrArg Db.assets h.others :)
    simp only [LogQuery.log, LogQuery.site, LogSampleFetcher.init, hpoints, hassets] at hsite ⊢
    cases hp : db.assetPoints.one? (fun p => p.id == assetPointId) with
    | none => rfl
    | some p =>
      cases ha : db.assets.one? (fun a => a.id == p.assetId) with
      | none => simp [ha]
      | some a =>
        obtain rfl : a.siteId = site := by simpa [hp, ha] using hsite
        simp [ha, hentity]

theorem LogQuery.site_mem {db : Db} (h : db.SitesExist) {query : LogQuery} {site : Nat}
    (hsite : query.site db = some site) : site ∈ db.sites.rows.map Site.id := by
  have hget : ∀ asset, (db.assets.get? asset).map Asset.siteId = some site →
      site ∈ db.sites.rows.map Site.id := by
    intro asset hs
    obtain ⟨a, ha, rfl⟩ := Option.map_eq_some_iff.mp hs
    exact h.assets a (Table.get?_eq_some.mp ha).1
  cases query with
  | latestQty asset pointName quantity => exact hget asset hsite
  | latestTime asset pointName timedelta now => exact hget asset hsite
  | timeRange asset pointName timedeltaStart timedeltaFinish now now' => exact hget asset hsite
  | range assetPointId startDatetime endDatetime asList =>
    simp only [LogQuery.site, LogSampleFetcher.init, Option.bind_eq_bind, Option.pure_def,
      Option.map_eq_some_iff, Option.bind_eq_some_iff, Option.some.injEq] at hsite
    obtain ⟨fetcher, ⟨p, -, a, ha, rfl⟩, rfl⟩ := hsite
    exact h.assets a (Table.one?_eq_some.mp ha).1.1

/-- As long as no other site has a log of the same number, the answer is about the
site's own samples. -/
theorem AgreeOn.answer_eq {site : Nat} {db db' : Db} (h : AgreeOn site db db') {query : LogQuery}
    (hsite : query.site db = some site)
    (hown : ∀ log, query.log db = some log → (∀ v ∈ db.samplesOf log, v.siteId = site) ∧
      ∀ v ∈ db'.samplesOf log, v.siteId = site) : query.answer db' = query.answer db := by
  rw [LogQuery.answer_eq, LogQuery.answer_eq, h.log_eq hsite]
  cases hlog : query.log db with
  | none => rfl
  | some log =>
    have hsamples : ∀ b : Db, (∀ v ∈ b.samplesOf log, v.siteId = site) → b.samplesOf log =
        (b.logTimeValues.rows.filter (fun v => v.siteId == site)).filter
          (fun v => v.parentId == log) := by
      intro b hb
      rw [List.filter_filter, Db.samplesOf]
      apply List.filter_congr
      intro v hv
      by_cases hparent : v.parentId = log
      · have hvs := hb v (List.mem_filter.mpr ⟨hv, by simpa using hparent⟩)
        simp [hvs]
      · simp [hparent]
    obtain ⟨hdb, hdb'⟩ := hown log hlog
    rw [Option.map_some, Option.map_some, hsamples db hdb, hsamples db' hdb', h.logTimeValues]

def newSite (id : Nat) : Site := ⟨id, "other site", 0, 0, none, []⟩

theorem newSite_id (id : Nat) : (newSite id).id = id := rfl

def newSample (site : Nat) (time : Int) (log : Option Nat) (medusaId : Nat) : LogTimeValue :=
  ⟨medusaId, site, some time, none, log⟩

theorem newSample_medusaId (site : Nat) (time : Int) (log : Option Nat) (medusaId : Nat) :
    (newSample site time log medusaId).medusaId = medusaId := rfl

def Db.addSite (db : Db) (time : Int) (log : Option Nat) : Db :=
  { db with
    sites := db.sites.insert newSite newSite_id
    logTimeValues := db.logTimeValues.insert (newSample db.sites.nextKey time log)
      (newSample_medusaId db.sites.nextKey time log) }

theorem Db.addSite_sitesExist {db : Db} (h : db.SitesExist) (time : Int) (log : Option Nat) :
    (db.addSite time log).SitesExist := by
  have hsites : ∀ s ∈ db.sites.rows.map Site.id, s ∈ (db.addSite time log).sites.rows.map Site.id := by
    intro s hs
    simp only [Db.addSite, Table.rows_insert, List.map_append]
    exact List.mem_append_left _ hs
  refine ⟨fun a ha => hsites _ (h.assets a ha), fun e he => hsites _ (h.loggedEntities e he), ?_⟩
  intro v hv
  simp only [Db.addSite, Table.rows_insert, List.mem_append, List.mem_singleton] at hv
  rcases hv with hv | rfl
  · exact hsites _ (h.logTimeValues v hv)
  · simp [Db.addSite, newSite_id, newSample]

theorem Db.addSite_agreeOn {db : Db} {site : Nat} (h : site ∈ db.sites.rows.map Site.id)
    (time : Int) (log : Option Nat) : AgreeOn site db (db.addSite time log) := by
  obtain ⟨s, hs, rfl⟩ := List.mem_map.mp h
  have hne : db.sites.nextKey ≠ s.id := Nat.ne_of_gt (Table.key_lt_nextKey hs)
  refine ⟨rfl, ?_, rfl, ?_⟩
  · simp [Db.addSite, newSite_id, hne]
  · simp [Db.addSite, newSample, hne]

theorem Db.samplesOf_addSite (db : Db) (time : Int) (log : Option Nat) :
    (db.addSite time log).samplesOf log = db.samplesOf log ++
      [newSample db.sites.nextKey time log db.logTimeValues.nextKey] := by
  simp [Db.samplesOf, Db.addSite, newSample]

/-- The answer to a query does not depend on the rows of other sites exactly if
the query raises before it reads samples, or cannot return any. -/
theorem LogQuery.answer_isolated_iff {db : Db} (hdb : db.SitesExist) {query : LogQuery} {site : Nat}
    (hsite : query.site db = some site) :
    (∀ db' : Db, db'.SitesExist → AgreeOn site db db' → query.answer db' = query.answer db) ↔
      query.log db = none ∨ query.Vacuous := by
  constructor
  · intro h
    by_contra hno
    obtain ⟨hlog, hvacuous⟩ := not_or.mp hno
    obtain ⟨log, hlog⟩ := Option.ne_none_iff_exists'.mp hlog
    obtain ⟨time, htime⟩ := LogQuery.present_append_ne hvacuous (db.samplesOf log)
    have hagree := Db.addSite_agreeOn (LogQuery.site_mem hdb hsite) time log
    have hsame := h _ (Db.addSite_sitesExist hdb time log) hagree
    rw [LogQuery.answer_eq, LogQuery.answer_eq, hagree.log_eq hsite, hlog, Option.map_some,
      Option.map_some, Db.samplesOf_addSite] at hsame
    exact htime _ rfl (Option.some.inj hsame)
  · intro h db' _ hagree
    rw [LogQuery.answer_eq, LogQuery.answer_eq, hagree.log_eq hsite]
    rcases h with hlog | hvacuous
    · rw [hlog]
      rfl
    · cases query.log db with
      | none => rfl
      | some log =>
        rw [Option.map_some, Option.map_some, LogQuery.present_vacuous hvacuous,
          LogQuery.present_vacuous hvacuous (db.samplesOf log)]

def twoSitePlant : Db :=
  { fanPlant with
    sites := ⟨[plantSite, { plantSite with id := 2, name := "second plant" }], by decide⟩
    assetPoints := ⟨[⟨1, "fan status", 1, 1, some 5⟩], by decide⟩
    loggedEntities := ⟨[⟨1, 1, some 5, some "fan"⟩, ⟨2, 2, some 5, some "pump"⟩], by decide⟩
    logTimeValues := ⟨[⟨1, 1, some 10, some 1, some 5⟩], by decide⟩ }

theorem twoSitePlant_sitesExist : twoSitePlant.SitesExist :=
  ⟨by decide, by decide, by decide⟩

theorem answer_isolated_iff_twoSitePlant :
    twoSitePlant.SitesExist ∧
      (LogQuery.latestQty 1 "fan status" 10).site twoSitePlant = some 1 ∧
      ¬ ∀ db' : Db, db'.SitesExist → AgreeOn 1 twoSitePlant db' →
        (LogQuery.latestQty 1 "fan status" 10).answer db' =
          (LogQuery.latestQty 1 "fan status" 10).answer twoSitePlant := by
  have hsite : (LogQuery.latestQty 1 "fan status" 10).site twoSitePlant = some 1 := by
    decide +kernel
  refine ⟨twoSitePlant_sitesExist, hsite, ?_⟩
  rw [LogQuery.answer_isolated_iff twoSitePlant_sitesExist hsite]
  have hlog : (LogQuery.latestQty 1 "fan status" 10).log twoSitePlant = some (some 5) := by
    decide +kernel
  simp [hlog, LogQuery.Vacuous]

/-- A later sample in the second site's log shows in every answer about the first
site's point. -/
theorem second_site_shows :
    let db' := { twoSitePlant with
      logTimeValues := ⟨[⟨1, 1, some 10, some 1, some 5⟩, ⟨2, 2, some 20, some 2, some 5⟩],
        by decide⟩ }
    db'.SitesExist ∧ AgreeOn 1 twoSitePlant db' ∧
      DataGrab.latestQty db' 1 "fan status" 1 ≠ DataGrab.latestQty twoSitePlant 1 "fan status" 1 ∧
      DataGrab.latestTime db' 1 "fan status" 60 30 ≠
        DataGrab.latestTime twoSitePlant 1 "fan status" 60 30 ∧
      DataGrab.timeRange db' 1 "fan status" 60 0 30 30 ≠
        DataGrab.timeRange twoSitePlant 1 "fan status" 60 0 30 30 ∧
      (LogQuery.range 1 0 30 true).answer db' ≠ (LogQuery.range 1 0 30 true).answer twoSitePlant ∧
      (LogQuery.range 1 0 30 false).answer db' ≠
        (LogQuery.range 1 0 30 false).answer twoSitePlant := by
  refine ⟨⟨by decide, by decide, by decide⟩, ⟨rfl, rfl, rfl, by decide⟩, ?_⟩
  decide +kernel

end Medusa
