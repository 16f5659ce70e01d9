import Medusa.CheckAll

/-! How far one raising asset disturbs the others in `check_all`. Whether the
check of an asset raises can be told from the state before it, and a check
touches no other asset, so the assets that `check_all` gets to end as they
should. The others are left as they were. -/

namespace Medusa

open Relational

/-- The algorithm raises, or the event handler does on the result it would get. -/
def executionRaises (db : Db) (asset : Asset) (algorithm : Algorithm) (attempt : Attempt) : Bool :=
  match db.reading asset algorithm attempt with
  | none => true
  | some reading =>
    (handleResult db attempt.transport asset algorithm
      (saveResult db.results asset algorithm reading).2).2.isSome

def Db.raises (db : Db) (round : Round) (asset : Asset) : Bool :=
  (db.toRun asset).any (fun g => executionRaises db asset g (round.attempts asset g))

def openIssues (results : Results) (asset algorithm : Nat) : List (Int × Nat) :=
  (results.rows.filter (Result.isOpenIssue asset algorithm)).map
    (fun r => (r.priority, r.occurances))

theorem saveResult_counts (results : Results) (asset : Asset) (algorithm : Algorithm)
    (reading : Reading) :
    let saved := (saveResult results asset algorithm reading).2
    (saved.priority, saved.occurances) =
      match (openIssues results asset.id algorithm.id).head? with
      | some (priority, occurances) => (priority, occurances + 1)
      | none => (asset.priority, 1) := by
  simp only [openIssues, List.head?_map, List.head?_filter, saveResult, Table.first?]
  cases results.rows.find? (Result.isOpenIssue asset.id algorithm.id) with
  | none => rfl
  | some r => rfl

theorem openIssues_clearRecent (results : Results) (id asset algorithm : Nat) :
    openIssues (clearRecent results id) asset algorithm = openIssues results asset algorithm := by
  unfold openIssues clearRecent
  rw [Table.filter_update_map Result.clearRecent_id (fun _ => rfl), List.map_map]
  apply List.map_congr_left
  intro r _
  simp only [Function.comp_apply]
  split <;> rfl

theorem openIssues_saveResult (results : Results) (asset : Asset) {algorithm g : Algorithm}
    (reading : Reading) (hne : g.id ≠ algorithm.id) :
    openIssues (saveResult results asset algorithm reading).1 asset.id g.id =
      openIssues results asset.id g.id := by
  unfold openIssues
  rw [saveResult_filter_other]
  intro r hr _
  rw [(Result.isOpenIssue_iff.mp hr).2.1]
  exact hne

theorem executionRaises_eq {db : Db} {results : Results} {asset : Asset} {algorithm : Algorithm}
    {attempt : Attempt} {reading : Reading}
    (hr : db.reading asset algorithm attempt = some reading)
    (hopen : openIssues results asset.id algorithm.id = openIssues db.results asset.id algorithm.id) :
    executionRaises db asset algorithm attempt =
      (handleResult db attempt.transport asset algorithm
        (saveResult results asset algorithm reading).2).2.isSome := by
  have hcounts := saveResult_counts results asset algorithm reading
  have hcounts' := saveResult_counts db.results asset algorithm reading
  simp only [hopen] at hcounts
  have heq := Prod.mk.inj (hcounts'.trans hcounts.symm)
  have hpassed := (saveResult_recorded results asset algorithm reading).2.1
  have hpassed' := (saveResult_recorded db.results asset algorithm reading).2.1
  have hnotices := handleResult_notices attempt.transport asset algorithm db
    (hpassed'.trans hpassed.symm) heq.1 heq.2
  simp only [executionRaises, hr]
  exact congrArg (fun sends => sends.2.isSome) hnotices

theorem runAlgorithms_raised {db : Db} {asset : Asset} {attempts : Algorithm → Attempt}
    {algorithms : List Algorithm} {pass : Pass} (hnd : (algorithms.map Algorithm.id).Nodup)
    (hopen : ∀ g ∈ algorithms,
      openIssues pass.session asset.id g.id = openIssues db.results asset.id g.id) :
    (runAlgorithms db asset attempts pass algorithms).2.isSome =
      algorithms.any (fun g => executionRaises db asset g (attempts g)) := by
  induction algorithms generalizing pass with
  | nil => rfl
  | cons g rest ih =>
    rw [List.map_cons, List.nodup_cons] at hnd
    unfold runAlgorithms
    split
    · next pass' exn he =>
      have hraises : executionRaises db asset g (attempts g) = true := by
        rcases Pass.execute_cases he with ⟨hr, -⟩ | ⟨reading, hr, -, -, -, hsends, -⟩
        · simp [executionRaises, hr]
        · rw [executionRaises_eq hr (hopen g List.mem_cons_self), ← hsends]
          rfl
      simp [hraises]
    · next pass' he =>
      obtain ⟨reading, hr, hsession, -, -, hsends, -⟩ :=
        (Pass.execute_cases he).resolve_left (by simp)
      have hraises : executionRaises db asset g (attempts g) = false := by
        rw [executionRaises_eq hr (hopen g List.mem_cons_self), ← hsends]
        rfl
      rw [List.any_cons, hraises, Bool.false_or]
      refine ih hnd.2 ?_
      intro g' hg'
      have hne : g'.id ≠ g.id := fun h => hnd.1 (h ▸ List.mem_map_of_mem hg')
      rw [hsession, openIssues_saveResult _ _ _ hne]
      exact hopen g' (List.mem_cons_of_mem g hg')

theorem checkAsset_raised {db : Db} (round : Round) {asset : Asset}
    (hsite : (db.siteOf asset).isSome) :
    (checkAsset db asset (round.order asset) (round.attempts asset)).raised.isSome =
      db.raises round asset := by
  have hperm := (round.order asset).perm (db.toRun asset)
  have hnd := db.visit_nodup asset (round.order asset)
  have hrun : (runAlgorithms db asset (round.attempts asset) (Pass.start db.results asset.id)
      ((round.order asset).visit (db.toRun asset))).2.isSome =
      ((round.order asset).visit (db.toRun asset)).any
        (fun g => executionRaises db asset g (round.attempts asset g)) :=
    runAlgorithms_raised hnd
      (fun g _ => openIssues_clearRecent db.results asset.id asset.id g.id)
  rw [hperm.any_eq] at hrun
  rcases checkAsset_cases db asset (round.order asset) (round.attempts asset) with
    ⟨pass, e, he, hc⟩ | ⟨pass, he, -, hc⟩
  · rw [hc]
    rw [he] at hrun
    exact hrun
  · rw [hc]
    rw [he] at hrun
    simp only [hsite, if_true]
    exact hrun

/-- Nothing that the check of the asset with this id reads has changed. -/
structure SameFor (id : Nat) (db db' : Db) : Prop where
  tables : db' = { db with results := db'.results, assets := db'.assets }
  rows : db'.results.rows.filter (fun r => r.assetId == id) =
    db.results.rows.filter (fun r => r.assetId == id)
  asset : db'.assets.get? id = db.assets.get? id

theorem SameFor.refl (id : Nat) (db : Db) : SameFor id db db := ⟨rfl, rfl, rfl⟩

theorem SameFor.trans {id : Nat} {db db' db'' : Db} (h : SameFor id db db')
    (h' : SameFor id db' db'') : SameFor id db db'' := by
  refine ⟨?_, h'.rows.trans h.rows, h'.asset.trans h.asset⟩
  have ht' := h'.tables
  rw [h.tables] at ht'
  exact ht'

theorem checkAsset_sameFor {db : Db} {asset : Asset} (order : IterationOrder Algorithm)
    (attempts : Algorithm → Attempt) {id : Nat} (hid : id ≠ asset.id) :
    SameFor id db (checkAsset db asset order attempts).db := by
  have hrows : (checkAsset db asset order attempts).db.results.rows.filter
      (fun r => r.assetId == id) = db.results.rows.filter (fun r => r.assetId == id) := by
    have hsub : ∀ l : List Result, l.filter (fun r => r.assetId == id) =
        (l.filter (fun r => r.assetId != asset.id)).filter (fun r => r.assetId == id) := by
      intro l
      rw [List.filter_filter]
      apply List.filter_congr
      intro r _
      by_cases hr : r.assetId = id
      · simp [hr, hid]
      · simp [hr]
    rw [hsub, checkAsset_others, ← hsub]
  rcases checkAsset_cases db asset order attempts with ⟨pass, e, -, hc⟩ | ⟨pass, -, -, hc⟩
  · rw [hc] at hrows ⊢
    exact ⟨rfl, hrows, rfl⟩
  · rw [hc] at hrows ⊢
    unfold Db.setHealth at hrows ⊢
    split at hrows
    · next hpos => simp only [hpos, if_true]; exact ⟨rfl, hrows, rfl⟩
    · next hpos =>
      simp only [hpos, if_false]
      refine ⟨rfl, hrows, ?_⟩
      refine Table.get?_update_of_ne Asset.setUnhealthy_id ?_
      intro a _ ha
      have haid : a.id = asset.id := by simpa using ha
      rw [haid]
      exact hid.symm

def Result.content (r : Result) : Result := { r with id := 0 }

/-- The state of an asset: its results, apart from the numbers the database gave
them, and its health. -/
def Db.checkState (db : Db) (id : Nat) : List Result × Option ℚ :=
  ((db.results.rows.filter (fun r => r.assetId == id)).map Result.content,
    (db.assets.get? id).map Asset.health)

/-- A check of the asset would change nothing. -/
structure Db.Idle (db : Db) (asset : Asset) : Prop where
  nothing : db.toRun asset = []
  rows : ∀ r ∈ db.results.rows, r.assetId = asset.id → r.recent = false ∧ r.active = false
  health : ∀ a ∈ db.assets.rows, a.id = asset.id → a.health = 0

def savedCount (results : Results) (id : Nat) : Nat :=
  ((results.rows.filter (fun r => r.assetId == id)).map Result.occurances).sum

theorem savedCount_eq_of_state {db db' : Db} {id : Nat} (h : db'.checkState id = db.checkState id) :
    savedCount db'.results id = savedCount db.results id := by
  have hcount : ∀ db : Db, savedCount db.results id =
      ((db.checkState id).1.map Result.occurances).sum := by
    intro db
    simp only [savedCount, Db.checkState, List.map_map]
    rfl
  rw [hcount, hcount, h]

theorem savedCount_update (results : Results) (id : Nat) {p : Result → Bool} {f : Result → Result}
    (hf : ∀ r, (f r).id = r.id) (hasset : ∀ r, (f r).assetId = r.assetId)
    (hocc : ∀ r, (f r).occurances = r.occurances) :
    savedCount (results.update p f hf) id = savedCount results id := by
  simp only [savedCount, Table.sum_filter, Table.rows_update, List.map_map]
  congr 1
  apply List.map_congr_left
  intro r _
  simp only [Function.comp_apply]
  by_cases hp : p r = true
  · simp [hp, hasset, hocc]
  · simp [hp]

theorem savedCount_saveResult (results : Results) (asset : Asset) (algorithm : Algorithm)
    (reading : Reading) :
    savedCount (saveResult results asset algorithm reading).1 asset.id =
      savedCount results asset.id + 1 := by
  rcases saveResult_cases results asset algorithm reading with ⟨r, hr, ho, he⟩ | ⟨-, he⟩
  · have ha : r.assetId = asset.id := (Result.isOpenIssue_iff.mp ho).1
    have hsum := Table.sum_update (Result.record_id · reading)
      (fun r => if (r.assetId == asset.id) = true then r.occurances else 0) hr
    rw [he]
    simp only [savedCount, Table.sum_filter]
    simp only [Result.record_assetId, Result.record_occurances, ha, beq_self_eq_true,
      if_true] at hsum
    omega
  · have hnew : (Result.firstSaved asset algorithm reading results.nextKey).assetId = asset.id := rfl
    have hone : (Result.firstSaved asset algorithm reading results.nextKey).occurances = 1 := rfl
    rw [he]
    simp [savedCount, hnew, hone]

theorem runAlgorithms_savedCount {db : Db} {asset : Asset} {attempts : Algorithm → Attempt}
    {algorithms : List Algorithm} {pass pass' : Pass}
    (h : runAlgorithms db asset attempts pass algorithms = (pass', none)) :
    savedCount pass'.session asset.id = savedCount pass.session asset.id + algorithms.length := by
  induction algorithms generalizing pass with
  | nil =>
    obtain ⟨rfl, -⟩ := Prod.mk.inj h
    rfl
  | cons g rest ih =>
    unfold runAlgorithms at h
    split at h
    · simp at h
    · next middle he =>
      obtain ⟨reading, -, hsession, -⟩ := (Pass.execute_cases he).resolve_left (by simp)
      have hsaved : savedCount middle.session asset.id = savedCount pass.session asset.id + 1 := by
        rw [hsession]
        exact savedCount_saveResult pass.session asset g reading
      have hrest := ih h
      rw [List.length_cons]
      omega

theorem sweep_rows (results : Results) (id : Nat) :
    (deactivate (clearRecent results id) (activeIds (clearRecent results id) id)).rows.filter
        (fun r => r.assetId == id) =
      (results.rows.filter (fun r => r.assetId == id)).map
        (fun r => { r with recent := false, active := false }) := by
  have hactive : ∀ r ∈ results.rows, r.assetId = id →
      (r.id ∈ activeIds (clearRecent results id) id ↔ r.active = true) := by
    intro r hr ha
    rw [mem_activeIds]
    constructor
    · intro h
      obtain ⟨r', hr', -, hact, hid⟩ := h
      obtain ⟨r₀, hr₀, rfl⟩ := mem_clearRecent.mp hr'
      have heq : r₀ = r := by
        refine Table.eq_of_key_eq hr₀ hr ?_
        split at hid <;> exact hid
      rw [heq, if_pos ha] at hact
      exact hact
    · intro hact
      exact ⟨_, mem_clearRecent.mpr ⟨r, hr, rfl⟩, by simp [ha, Result.clearRecent],
        by simp [ha, Result.clearRecent, hact], by simp [ha]⟩
  have hclear : (clearRecent results id).rows.filter (fun r => r.assetId == id) =
      (results.rows.filter (fun r => r.assetId == id)).map Result.clearRecent := by
    unfold clearRecent
    rw [Table.filter_update_map Result.clearRecent_id (fun _ => rfl)]
    apply List.map_congr_left
    intro r hr
    have ha : r.assetId = id := by simpa using (List.mem_filter.mp hr).2
    obtain ⟨_, _, _, _, _, _, _, _, _, _, _, recent, _, _⟩ := r
    cases recent <;> simp_all [Result.clearRecent]
  unfold deactivate
  rw [Table.filter_update_map Result.deactivate_id (fun _ => rfl), hclear, List.map_map]
  apply List.map_congr_left
  intro r hr
  have hm := List.mem_filter.mp hr
  have ha : r.assetId = id := by simpa using hm.2
  simp only [Function.comp_apply, Result.clearRecent_id, decide_eq_true_eq, hactive r hm.1 ha]
  split
  · rfl
  · next hact => simp [Result.clearRecent, hact]

theorem checkAsset_nothing {db : Db} {asset : Asset} (order : IterationOrder Algorithm)
    (attempts : Algorithm → Attempt) (h : db.toRun asset = []) :
    (checkAsset db asset order attempts).db =
      { db with
        results := deactivate (clearRecent db.results asset.id)
          (activeIds (clearRecent db.results asset.id) asset.id) }.setHealth asset.id 0 := by
  have hvisit : order.visit (db.toRun asset) = [] := by
    rw [h]
    exact (order.perm []).eq_nil
  unfold checkAsset
  rw [hvisit]
  rfl

/-- A completed check leaves the state of the asset as it was exactly if the
asset is idle. -/
theorem checkAsset_state_iff {db : Db} {asset : Asset} {order : IterationOrder Algorithm}
    {attempts : Algorithm → Attempt} (h : (checkAsset db asset order attempts).raised = none) :
    (checkAsset db asset order attempts).db.checkState asset.id = db.checkState asset.id ↔
      db.Idle asset := by
  have hnothing : (checkAsset db asset order attempts).db.checkState asset.id =
      db.checkState asset.id → db.toRun asset = [] := by
    intro hstate
    have hcount := savedCount_eq_of_state hstate
    rcases checkAsset_cases db asset order attempts with ⟨pass, e, -, he⟩ | ⟨pass, hrun, -, he⟩
    · simp [he] at h
    · have hruns := runAlgorithms_savedCount hrun
      have hclear : savedCount (clearRecent db.results asset.id) asset.id =
          savedCount db.results asset.id :=
        savedCount_update _ _ Result.clearRecent_id (fun _ => rfl) (fun _ => rfl)
      have hsweep : savedCount (deactivate pass.session pass.previouslyActive) asset.id =
          savedCount pass.session asset.id :=
        savedCount_update _ _ Result.deactivate_id (fun _ => rfl) (fun _ => rfl)
      simp only [he, Db.setHealth_results, hsweep, hruns, Pass.start, hclear] at hcount
      have hlen := (order.perm (db.toRun asset)).length_eq
      exact List.length_eq_zero_iff.mp (by omega)
  have hstate : db.toRun asset = [] → ((checkAsset db asset order attempts).db.checkState asset.id =
      db.checkState asset.id ↔
        (∀ r ∈ db.results.rows, r.assetId = asset.id → r.recent = false ∧ r.active = false) ∧
        ∀ a ∈ db.assets.rows, a.id = asset.id → a.health = 0) := by
    intro hn
    rw [checkAsset_nothing order attempts hn]
    simp only [Db.checkState, Db.setHealth_results, Prod.mk.injEq, sweep_rows, List.map_map]
    refine and_congr ?_ ?_
    · rw [List.map_inj_left]
      constructor
      · intro hall r hr ha
        have hrow := hall r (List.mem_filter.mpr ⟨hr, by simpa using ha⟩)
        have hrecent : false = r.recent := congrArg Result.recent hrow
        have hact : false = r.active := congrArg Result.active hrow
        exact ⟨hrecent.symm, hact.symm⟩
      · intro hall r hr
        have hm := List.mem_filter.mp hr
        have hrow := hall r hm.1 (by simpa using hm.2)
        simp [Result.content, hrow.1, hrow.2]
    · have hassets : ∀ db : Db, (db.setHealth asset.id 0).assets = db.assets.update
          (fun a => a.id == asset.id) Asset.setUnhealthy Asset.setUnhealthy_id := fun _ => rfl
      rw [hassets, Table.get?_update]
      constructor
      · intro hmap a ha hid
        rw [Table.get?_eq_some.mpr ⟨ha, hid⟩] at hmap
        exact (Option.some.inj hmap).symm
      · intro hall
        cases hget : db.assets.get? asset.id with
        | none => rfl
        | some a =>
          have ha := Table.get?_eq_some.mp hget
          simp [Asset.setUnhealthy, hall a ha.1 ha.2]
  constructor
  · intro hs
    have hn := hnothing hs
    have hh := (hstate hn).mp hs
    exact ⟨hn, hh.1, hh.2⟩
  · intro hidle
    exact (hstate hidle.nothing).mpr ⟨hidle.rows, hidle.health⟩

theorem SameFor.symm {id : Nat} {db db' : Db} (h : SameFor id db db') : SameFor id db' db := by
  refine ⟨?_, h.rows.symm, h.asset.symm⟩
  rw [h.tables]

theorem SameFor.state {id : Nat} {db db' : Db} (h : SameFor id db db') :
    db'.checkState id = db.checkState id := by
  simp only [Db.checkState, h.rows, h.asset]

theorem SameFor.siteOf {id : Nat} {db db' : Db} (h : SameFor id db db') (asset : Asset) :
    db'.siteOf asset = db.siteOf asset := by
  rw [h.tables]
  rfl

theorem SameFor.toRun {id : Nat} {db db' : Db} (h : SameFor id db db') (asset : Asset) :
    db'.toRun asset = db.toRun asset := by
  rw [h.tables]
  rfl

theorem SameFor.executionRaises {asset : Asset} {db db' : Db} (h : SameFor asset.id db db')
    (algorithm : Algorithm) (attempt : Attempt) :
    executionRaises db' asset algorithm attempt = executionRaises db asset algorithm attempt := by
  have hopen : openIssues db'.results asset.id algorithm.id =
      openIssues db.results asset.id algorithm.id := by
    have hsub : ∀ l : List Result, l.filter (Result.isOpenIssue asset.id algorithm.id) =
        (l.filter (fun r => r.assetId == asset.id)).filter
          (Result.isOpenIssue asset.id algorithm.id) := by
      intro l
      rw [List.filter_filter]
      apply List.filter_congr
      intro r _
      by_cases ha : r.assetId = asset.id
      · simp [ha]
      · simp [ha, Result.isOpenIssue]
    unfold openIssues
    rw [hsub, h.rows, ← hsub]
  have hreading : db'.reading asset algorithm attempt = db.reading asset algorithm attempt := by
    rw [h.tables]
    rfl
  have hhandle : ∀ r, handleResult db' attempt.transport asset algorithm r =
      handleResult db attempt.transport asset algorithm r := by
    intro r
    rw [h.tables]
    rfl
  cases hr : db.reading asset algorithm attempt with
  | none => simp [Medusa.executionRaises, hreading, hr]
  | some reading =>
    rw [executionRaises_eq hr hopen]
    simp only [Medusa.executionRaises, hreading, hr, hhandle]

theorem SameFor.raises {asset : Asset} {db db' : Db} (h : SameFor asset.id db db')
    (round : Round) : db'.raises round asset = db.raises round asset := by
  simp only [Db.raises, h.toRun, h.executionRaises]

theorem SameFor.idle {asset : Asset} {db db' : Db} (h : SameFor asset.id db db') :
    db'.Idle asset ↔ db.Idle asset := by
  have hmono : ∀ {db db' : Db}, SameFor asset.id db db' → db.Idle asset → db'.Idle asset := by
    intro db db' h hidle
    refine ⟨(h.toRun asset).trans hidle.nothing, ?_, ?_⟩
    · intro r hr ha
      have hm : r ∈ db.results.rows.filter (fun r => r.assetId == asset.id) := by
        rw [← h.rows]
        exact List.mem_filter.mpr ⟨hr, by simpa using ha⟩
      exact hidle.rows r (List.mem_filter.mp hm).1 ha
    · intro a ha hid
      have hget : db.assets.get? asset.id = some a := by
        rw [← h.asset]
        exact Table.get?_eq_some.mpr ⟨ha, hid⟩
      exact hidle.health a (Table.get?_eq_some.mp hget).1 hid
  exact ⟨hmono h.symm, hmono h⟩

def checkEach (round : Round) (db : Db) (assets : List Asset) : Db :=
  assets.foldl (fun db a => (checkAsset db a (round.order a) (round.attempts a)).db) db

theorem checkEach_sameFor (round : Round) {assets : List Asset} {id : Nat}
    (hid : id ∉ assets.map Asset.id) (db : Db) : SameFor id db (checkEach round db assets) := by
  induction assets generalizing db with
  | nil => exact SameFor.refl id db
  | cons b rest ih =>
    rw [List.map_cons, List.mem_cons, not_or] at hid
    exact (checkAsset_sameFor _ _ hid.1).trans (ih hid.2 _)

theorem checkAssets_sameFor (detaches : Bool) (round : Round) {assets : List Asset} {id : Nat}
    (hid : id ∉ assets.map Asset.id) (db : Db) :
    SameFor id db (checkAssets detaches round db assets).db := by
  induction assets generalizing db with
  | nil => exact SameFor.refl id db
  | cons b rest ih =>
    rw [List.map_cons, List.mem_cons, not_or] at hid
    have hfirst : SameFor id db (checkAsset db b (round.order b) (round.attempts b)).db :=
      checkAsset_sameFor _ _ hid.1
    simp only [checkAssets]
    split
    · exact hfirst
    · split
      · exact hfirst
      · exact hfirst.trans (ih hid.2 _)

theorem checkEach_state_iff {round : Round} {assets : List Asset} {db : Db}
    (hnd : (assets.map Asset.id).Nodup) (hsites : ∀ a ∈ assets, (db.siteOf a).isSome)
    (hraises : ∀ a ∈ assets, db.raises round a = false) {a : Asset} (ha : a ∈ assets) :
    (checkEach round db assets).checkState a.id = db.checkState a.id ↔ db.Idle a := by
  induction assets generalizing db with
  | nil => simp at ha
  | cons b rest ih =>
    rw [List.map_cons, List.nodup_cons] at hnd
    let db₁ := (checkAsset db b (round.order b) (round.attempts b)).db
    have hother : ∀ c ∈ rest, SameFor c.id db db₁ := by
      intro c hc
      exact checkAsset_sameFor _ _ (fun he => hnd.1 (he ▸ List.mem_map_of_mem hc))
    rcases List.mem_cons.mp ha with rfl | ha
    · have hcompleted : (checkAsset db a (round.order a) (round.attempts a)).raised = none := by
        have hh := checkAsset_raised round (hsites a List.mem_cons_self)
        rw [hraises a List.mem_cons_self] at hh
        simpa using hh
      have hrest : (checkEach round db (a :: rest)).checkState a.id = db₁.checkState a.id :=
        (checkEach_sameFor round hnd.1 db₁).state
      rw [hrest]
      exact checkAsset_state_iff hcompleted
    · have hsame := hother a ha
      rw [← hsame.state, ← hsame.idle]
      refine ih hnd.2 ?_ ?_ ha
      · intro c hc
        rw [(hother c hc).siteOf]
        exact hsites c (List.mem_cons_of_mem b hc)
      · intro c hc
        rw [(hother c hc).raises]
        exact hraises c (List.mem_cons_of_mem b hc)

/-- The assets that `check_all` does not get to. -/
def skipped (detaches : Bool) (raises : Asset → Bool) : List Asset → List Asset
  | [] => []
  | asset :: rest => if raises asset || detaches then rest else skipped detaches raises rest

theorem skipped_subset {detaches : Bool} {raises : Asset → Bool} {assets : List Asset} {a : Asset}
    (h : a ∈ skipped detaches raises assets) : a ∈ assets := by
  induction assets with
  | nil => exact h
  | cons b rest ih =>
    unfold skipped at h
    split at h
    · exact List.mem_cons_of_mem b h
    · exact List.mem_cons_of_mem b (ih h)

theorem skipped_congr {detaches : Bool} {raises raises' : Asset → Bool} {assets : List Asset}
    (h : ∀ a ∈ assets, raises a = raises' a) :
    skipped detaches raises assets = skipped detaches raises' assets := by
  induction assets with
  | nil => rfl
  | cons b rest ih =>
    simp only [skipped, h b List.mem_cons_self]
    rw [ih (fun a ha => h a (List.mem_cons_of_mem b ha))]

theorem left_state_iff {round : Round} {assets : List Asset} {db : Db}
    (hnd : (assets.map Asset.id).Nodup) (hsites : ∀ a ∈ assets, (db.siteOf a).isSome) :
    (∀ a ∈ assets, db.raises round a = false → db.checkState a.id =
      (checkEach round db (assets.filter (fun a => !db.raises round a))).checkState a.id) ↔
    ∀ a ∈ assets, db.raises round a = false → db.Idle a := by
  have hiff : ∀ a ∈ assets, db.raises round a = false → (db.checkState a.id =
      (checkEach round db (assets.filter (fun a => !db.raises round a))).checkState a.id ↔
        db.Idle a) := by
    intro a ha hr
    rw [eq_comm]
    refine checkEach_state_iff (hnd.sublist (List.filter_sublist.map Asset.id)) ?_ ?_ ?_
    · intro c hc
      exact hsites c (List.mem_filter.mp hc).1
    · intro c hc
      simpa using (List.mem_filter.mp hc).2
    · exact List.mem_filter.mpr ⟨ha, by simp [hr]⟩
  exact forall₃_congr hiff

structure AfterFirst (round : Round) (rest : List Asset) (db db' : Db) : Prop where
  same : ∀ c ∈ rest, SameFor c.id db db'

namespace AfterFirst

variable {round : Round} {b : Asset} {rest : List Asset} {db db' : Db}

theorem of_check (hb : b.id ∉ rest.map Asset.id) :
    AfterFirst round rest db (checkAsset db b (round.order b) (round.attempts b)).db := by
  refine ⟨?_⟩
  intro c hc
  exact checkAsset_sameFor _ _ (fun he => hb (he ▸ List.mem_map_of_mem hc))

theorem siteOf (h : AfterFirst round rest db db') (hsites : ∀ c ∈ rest, (db.siteOf c).isSome) :
    ∀ c ∈ rest, (db'.siteOf c).isSome := by
  intro c hc
  rw [(h.same c hc).siteOf]
  exact hsites c hc

theorem raises (h : AfterFirst round rest db db') :
    ∀ c ∈ rest, db'.raises round c = db.raises round c :=
  fun c hc => (h.same c hc).raises round

theorem filter (h : AfterFirst round rest db db') :
    rest.filter (fun a => !db'.raises round a) = rest.filter (fun a => !db.raises round a) :=
  List.filter_congr (fun c hc => by rw [h.raises c hc])

theorem idle_iff (h : AfterFirst round rest db db') {l : List Asset} (hl : ∀ a ∈ l, a ∈ rest) :
    (∀ a ∈ l, db'.raises round a = false → db'.Idle a) ↔
      ∀ a ∈ l, db.raises round a = false → db.Idle a := by
  refine forall₂_congr (fun a ha => ?_)
  rw [h.raises a (hl a ha), (h.same a (hl a ha)).idle]

theorem checkEach_eq (h : AfterFirst round rest db
      (checkAsset db b (round.order b) (round.attempts b)).db)
    (hb : db.raises round b = false) :
    checkEach round db ((b :: rest).filter (fun a => !db.raises round a)) =
      checkEach round (checkAsset db b (round.order b) (round.attempts b)).db
        (rest.filter (fun a =>
          !(checkAsset db b (round.order b) (round.attempts b)).db.raises round a)) := by
  rw [h.filter, List.filter_cons, hb]
  rfl

theorem forall_cons_iff (h : AfterFirst round rest db db') {P : Asset → Prop} (hfirst : P b) :
    (∀ a ∈ b :: rest, db.raises round a = false → P a) ↔
      ∀ a ∈ rest, db'.raises round a = false → P a := by
  constructor
  · intro hall a ha hr
    exact hall a (List.mem_cons_of_mem b ha) ((h.raises a ha).symm.trans hr)
  · intro hall a ha hr
    rcases List.mem_cons.mp ha with rfl | ha
    · exact hfirst
    · exact hall a ha ((h.raises a ha).trans hr)

end AfterFirst

section FirstAsset

variable {round : Round} {b : Asset} {rest : List Asset} {db : Db}

theorem checkAssets_raises (detaches : Bool) (hsite : (db.siteOf b).isSome)
    (hb : db.raises round b = true) :
    (checkAssets detaches round db (b :: rest)).db =
      (checkAsset db b (round.order b) (round.attempts b)).db := by
  obtain ⟨e, he⟩ := Option.isSome_iff_exists.mp ((checkAsset_raised round hsite).trans hb)
  simp only [checkAssets, he]

theorem checkAsset_completes (hsite : (db.siteOf b).isSome) (hb : db.raises round b = false) :
    (checkAsset db b (round.order b) (round.attempts b)).raised = none := by
  simpa [hb] using checkAsset_raised round hsite

theorem checkAssets_detaches (hsite : (db.siteOf b).isSome) (hb : db.raises round b = false) :
    (checkAssets true round db (b :: rest)).db =
      (checkAsset db b (round.order b) (round.attempts b)).db := by
  simp only [checkAssets, checkAsset_completes hsite hb]
  cases rest with
  | nil => rfl
  | cons c rest => rfl

theorem checkAssets_continues (hsite : (db.siteOf b).isSome) (hb : db.raises round b = false) :
    (checkAssets false round db (b :: rest)).db =
      (checkAssets false round (checkAsset db b (round.order b) (round.attempts b)).db rest).db := by
  simp only [checkAssets, checkAsset_completes hsite hb]
  rfl

end FirstAsset

theorem checkAssets_state_iff {detaches : Bool} {round : Round} {assets : List Asset} {db : Db}
    (hnd : (assets.map Asset.id).Nodup) (hsites : ∀ a ∈ assets, (db.siteOf a).isSome) :
    (∀ a ∈ assets, db.raises round a = false →
      (checkAssets detaches round db assets).db.checkState a.id =
        (checkEach round db (assets.filter (fun a => !db.raises round a))).checkState a.id) ↔
    ∀ a ∈ skipped detaches (db.raises round) assets, db.raises round a = false → db.Idle a := by
  induction assets generalizing db with
  | nil => simp [skipped]
  | cons b rest ih =>
    rw [List.map_cons, List.nodup_cons] at hnd
    have hsite := hsites b List.mem_cons_self
    have hrest : ∀ c ∈ rest, (db.siteOf c).isSome :=
      fun c hc => hsites c (List.mem_cons_of_mem b hc)
    have hafter : AfterFirst round rest db _ := .of_check hnd.1
    cases hb : db.raises round b with
    | true =>
      -- the loop ends with `b`, and the others are as they were
      simp only [checkAssets_raises detaches hsite hb, skipped, hb, Bool.true_or, if_true,
        List.filter_cons, Bool.not_true, Bool.false_eq_true, if_false]
      rw [← left_state_iff hnd.2 hrest]
      constructor
      · intro h a ha hr
        rw [← h a (List.mem_cons_of_mem b ha) hr]
        exact (hafter.same a ha).state.symm
      · intro h a ha hr
        rcases List.mem_cons.mp ha with rfl | ha
        · simp [hb] at hr
        · rw [← h a ha hr]
          exact (hafter.same a ha).state
    | false =>
      rw [hafter.checkEach_eq hb]
      generalize hdb₁ : (checkAsset db b (round.order b) (round.attempts b)).db = db₁ at hafter ⊢
      have hbrest : b.id ∉ (rest.filter (fun a => !db₁.raises round a)).map Asset.id :=
        fun hm => hnd.1 ((List.filter_sublist.map Asset.id).subset hm)
      have hbeach := (checkEach_sameFor round hbrest db₁).state
      cases detaches with
      | true =>
        simp only [checkAssets_detaches hsite hb, hdb₁, skipped, Bool.or_true, if_true]
        rw [hafter.forall_cons_iff hbeach.symm, left_state_iff hnd.2 (hafter.siteOf hrest)]
        exact hafter.idle_iff (fun _ h => h)
      | false =>
        have hbstate := (checkAssets_sameFor false round hnd.1 db₁).state
        simp only [checkAssets_continues hsite hb, hdb₁, skipped, hb, Bool.or_self,
          Bool.false_eq_true, if_false]
        rw [hafter.forall_cons_iff (hbstate.trans hbeach.symm), ih hnd.2 (hafter.siteOf hrest),
          skipped_congr hafter.raises]
        exact hafter.idle_iff (fun a ha => skipped_subset ha)

/-- `check_all` leaves every asset whose check raises nothing in the state that a
check of it gives, exactly if the assets it does not get to raise themselves or
are idle. -/
theorem checkAll_isolates_iff {detaches : Bool} {round : Round} {db : Db}
    (hsites : ∀ a ∈ db.assets.rows, (db.siteOf a).isSome) :
    (∀ a ∈ db.assets.rows, db.raises round a = false →
      (checkAll detaches round db).db.checkState a.id =
        (checkEach round db (db.assets.rows.filter (fun a => !db.raises round a))).checkState
          a.id) ↔
    ∀ a ∈ skipped detaches (db.raises round) db.assets.rows,
      db.raises round a = false → db.Idle a :=
  checkAssets_state_iff db.assets.nodup hsites

def secondFanUnit : Asset := { fanUnit with id := 2, name := "second fan unit" }

def twoFanPlant : Db :=
  { plant with
    assets := ⟨[fanUnit, secondFanUnit], by decide⟩
    algoAssetMapping := {(1, 1), (2, 1)} }

def firstRaises : Round where
  order := fun _ => .listed Algorithm
  attempts := fun a _ => if a.id = 1 then { fanFailure with outcome := none } else fanFailure

theorem checkAll_isolates_iff_twoFanPlant :
    (∀ a ∈ twoFanPlant.assets.rows, (twoFanPlant.siteOf a).isSome) ∧
      ¬ ∀ a ∈ twoFanPlant.assets.rows, twoFanPlant.raises firstRaises a = false →
        (checkAll false firstRaises twoFanPlant).db.checkState a.id =
          (checkEach firstRaises twoFanPlant (twoFanPlant.assets.rows.filter
            (fun a => !twoFanPlant.raises firstRaises a))).checkState a.id := by
  have hsites : ∀ a ∈ twoFanPlant.assets.rows, (twoFanPlant.siteOf a).isSome := by decide
  refine ⟨hsites, ?_⟩
  rw [checkAll_isolates_iff hsites]
  intro h
  have hidle := h secondFanUnit (by decide) (by decide)
  have hrun := hidle.nothing
  revert hrun
  decide

/-- The second fan unit is not checked, whether or not the session detaches it. -/
theorem checkAll_stops_at_first :
    twoFanPlant.raises firstRaises secondFanUnit = false ∧
      ∀ detaches, (checkAll detaches firstRaises twoFanPlant).db.checkState 2 ≠
        (checkEach firstRaises twoFanPlant [secondFanUnit]).checkState 2 := by
  refine ⟨by decide, ?_⟩
  intro detaches h
  have hlen := congrArg (fun state => state.1.length) h
  cases detaches with
  | false => revert hlen; decide
  | true => revert hlen; decide

end Medusa
