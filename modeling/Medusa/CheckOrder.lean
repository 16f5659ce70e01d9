import Medusa.CheckIsolation
import Medusa.SaveOrder

/-! The order in which a pass runs its algorithms. The algorithms are a Python set, so the
order is arbitrary. Two passes are compared up to the ids that they generate and the times
at which they look at the clock. -/

namespace Medusa

open Relational

/-- The asset and the algorithm of a result. -/
def resultPair (results : Results) (id : Nat) : Option (Nat × Nat) :=
  (results.get? id).map (fun r => (r.assetId, r.algorithmId))

/-- The id of a result that a pass has created stands for its asset and algorithm. -/
def Event.contentSince (before after : Results) (e : Event) :
    Option Nat × Option (Nat × Nat) × Notice :=
  (knownKey (before.rows.map Result.id) e.result, resultPair after e.result, e.notice)

/-- Two passes leave the same results and notify the same. -/
structure SameOutcome (before : Results) (c c' : Checked) : Prop where
  results : resultContents before c.db.results = resultContents before c'.db.results
  log : (c.log.map (Event.contentSince before c.db.results)).Perm
    (c'.log.map (Event.contentSince before c'.db.results))

theorem resultPair_eq_some {results : Results} {id : Nat} {p : Nat × Nat} :
    resultPair results id = some p ↔
      ∃ r ∈ results.rows, r.id = id ∧ (r.assetId, r.algorithmId) = p := by
  simp only [resultPair, Option.map_eq_some_iff, Table.get?_eq_some, and_assoc]

/-- No save changes of which pair a result is. -/
theorem resultPair_saveResult {results : Results} {id : Nat} {p : Nat × Nat} (asset : Asset)
    (algorithm : Algorithm) (reading : Reading) (h : resultPair results id = some p) :
    resultPair (saveResult results asset algorithm reading).1 id = some p := by
  obtain ⟨r, hr, hid, hp⟩ := resultPair_eq_some.mp h
  apply resultPair_eq_some.mpr
  rcases saveResult_keeps results asset algorithm reading hr with hkept | hrecorded
  · exact ⟨r, hkept, hid, hp⟩
  · exact ⟨_, hrecorded, hid, hp⟩

theorem resultPair_saved (results : Results) (asset : Asset) (algorithm : Algorithm)
    (reading : Reading) :
    resultPair (saveResult results asset algorithm reading).1
      (saveResult results asset algorithm reading).2.id = some (asset.id, algorithm.id) :=
  resultPair_eq_some.mpr ⟨_, (mem_saveResult results asset algorithm reading).mpr (Or.inl rfl), rfl,
    by simp⟩

theorem resultPair_deactivate (results : Results) (ids : List Nat) (id : Nat) :
    resultPair (deactivate results ids) id = resultPair results id := by
  rw [resultPair, deactivate, Table.get?_update_map, Option.map_map, resultPair]
  congr 1
  funext r
  dsimp only [Function.comp_apply]
  split <;> rfl

section

variable (db : Db) (asset : Asset) (verdicts : Algorithm → ℚ × Bool)
  (transports : Algorithm → Transport)

/-- The executions of a pass: verdicts and answers from outside that are given, at the
times of a clock. -/
def attemptAt (clock : Algorithm → Nat × Nat) (g : Algorithm) : Attempt :=
  ⟨some (verdicts g), (clock g).1, (clock g).2, transports g⟩

/-- The notifier raises on the outcome of `g`. -/
def notifierRaises (g : Algorithm) : Bool :=
  executionRaises db asset g (attemptAt verdicts transports (fun _ => (0, 0)) g)

def verdictReading (g : Algorithm) : Reading :=
  ⟨(verdicts g).1, (verdicts g).2, db.pointList asset g, 0, 0⟩

/-- What an execution saves if it is the first of the pass. -/
def savedFirst (g : Algorithm) : Result :=
  (saveResult (clearRecent db.results asset.id) asset g (verdictReading db asset verdicts g)).2

def savedContent (g : Algorithm) : Option Nat × Result :=
  (savedFirst db asset verdicts g).contentSince (clearRecent db.results asset.id)

def sentContent (g : Algorithm) : List (Option Nat × Option (Nat × Nat) × Notice) :=
  (handleResult db (transports g) asset g (savedFirst db asset verdicts g)).notices.1.map
    (fun notice => ((savedContent db asset verdicts g).1, some (asset.id, g.id), notice))

/-- A pass has done the executions in `done`: it has put one row for each of them and sent
what belongs to it, and nothing is saved for the others. -/
structure Executed (done : List Algorithm) (pass : Pass) : Prop where
  results : resultContents (clearRecent db.results asset.id) pass.session =
    done.foldl (fun C g => putKnown C (savedContent db asset verdicts g))
      (resultContents (clearRecent db.results asset.id) (clearRecent db.results asset.id))
  log : pass.log.map (Event.contentSince (clearRecent db.results asset.id) pass.session) =
    done.flatMap (sentContent db asset verdicts transports)
  rest : ∀ g : Algorithm, (∀ g' ∈ done, g'.id ≠ g.id) →
    Undisturbed (clearRecent db.results asset.id) pass.session asset.id g.id

/-- What is still to be deactivated. -/
def Sweeps (done : List Algorithm) (pass : Pass) : Prop :=
  ∀ id, id ∈ pass.previouslyActive ↔ id ∈ activeIds (clearRecent db.results asset.id) asset.id ∧
    ∀ g ∈ done, (savedContent db asset verdicts g).1 ≠ some id

end

section

variable {db : Db} {asset : Asset} {verdicts : Algorithm → ℚ × Bool}
  {transports : Algorithm → Transport}

theorem Executed.start : Executed db asset verdicts transports [] (Pass.start db.results asset.id) :=
  ⟨rfl, rfl, fun _ _ => Undisturbed.refl _ _ _⟩

theorem Sweeps.start : Sweeps db asset verdicts [] (Pass.start db.results asset.id) := by
  intro id
  simp [Pass.start]

theorem Executed.named {done : List Algorithm} {pass : Pass}
    (h : Executed db asset verdicts transports done pass) {e : Event} (he : e ∈ pass.log) :
    ∃ p, resultPair pass.session e.result = some p := by
  have hmem : e.contentSince (clearRecent db.results asset.id) pass.session ∈ pass.log.map
      (Event.contentSince (clearRecent db.results asset.id) pass.session) :=
    List.mem_map_of_mem he
  rw [h.log] at hmem
  obtain ⟨g, -, hg⟩ := List.mem_flatMap.mp hmem
  obtain ⟨notice, -, hnotice⟩ := List.mem_map.mp hg
  exact ⟨(asset.id, g.id), (congrArg (fun c => c.2.1) hnotice).symm⟩

section Execute

variable {done : List Algorithm} {pass pass' : Pass} {g : Algorithm}
  {clock : Algorithm → Nat × Nat} {e : Option Exn}

/-- The log grows by what belongs to the execution, and earlier entries keep their meaning. -/
theorem Executed.log_append (h : Executed db asset verdicts transports done pass)
    (hpair : Undisturbed (clearRecent db.results asset.id) pass.session asset.id g.id)
    (time : Nat × Nat) :
    let saved := saveResult pass.session asset g ((verdictReading db asset verdicts g).at time)
    (pass.log ++ (handleResult db (transports g) asset g saved.2).1).map
        (Event.contentSince (clearRecent db.results asset.id) saved.1) =
      (done ++ [g]).flatMap (sentContent db asset verdicts transports) := by
  intro saved
  have hcontent : saved.2.contentSince (clearRecent db.results asset.id) =
      savedContent db asset verdicts g :=
    saveResult_content hpair (verdictReading db asset verdicts g) time
  obtain ⟨hpassed, hpriority, hocc⟩ := Result.same_of_content hcontent
  have hnotices := handleResult_notices (transports g) asset g db hpassed hpriority hocc
  have hold : pass.log.map (Event.contentSince (clearRecent db.results asset.id) saved.1) =
      pass.log.map (Event.contentSince (clearRecent db.results asset.id) pass.session) := by
    apply List.map_congr_left
    intro e he
    obtain ⟨p, hp⟩ := h.named he
    rw [Event.contentSince, Event.contentSince, hp, resultPair_saveResult asset g _ hp]
  have hnew : (handleResult db (transports g) asset g saved.2).1.map
      (Event.contentSince (clearRecent db.results asset.id) saved.1) =
      sentContent db asset verdicts transports g := by
    rw [sentContent, ← hnotices, Sends.notices, List.map_map]
    apply List.map_congr_left
    intro e he
    rw [Function.comp_apply, Event.contentSince, handleResult_result he, resultPair_saved,
      ← hcontent]
    rfl
  rw [List.map_append, hold, hnew, h.log, List.flatMap_append, List.flatMap_singleton]

/-- One more execution, whether the notifier raises or not. -/
theorem Executed.execute (h : Executed db asset verdicts transports done pass)
    (hnew : ∀ g' ∈ done, g'.id ≠ g.id)
    (hexecute : pass.execute db asset g (attemptAt verdicts transports clock g) = (pass', e)) :
    pass'.stored = pass'.session ∧ Executed db asset verdicts transports (done ++ [g]) pass' := by
  obtain ⟨reading, hreading, hsession, hstored, hlog, -⟩ :=
    (Pass.execute_cases hexecute).resolve_left (fun hno => by cases hno.1)
  obtain rfl : (verdictReading db asset verdicts g).at (clock g) = reading :=
    Option.some.inj hreading
  have hpair := h.rest g hnew
  refine ⟨hstored.trans hsession.symm, ?_, ?_, ?_⟩
  · rw [hsession, resultContents_saveResult hpair, h.results, List.foldl_append]
    rfl
  · rw [hsession, hlog]
    exact h.log_append hpair (clock g)
  · intro g₂ hg₂
    rw [hsession]
    have hne : ¬ (asset.id = asset.id ∧ g.id = g₂.id) := fun he => hg₂ g (by simp) he.2
    exact (h.rest g₂ (fun g' hg' => hg₂ g' (by simp [hg']))).save hne _

theorem Sweeps.execute (hpass : Executed db asset verdicts transports done pass)
    (h : Sweeps db asset verdicts done pass) (hnew : ∀ g' ∈ done, g'.id ≠ g.id)
    (hexecute : pass.execute db asset g (attemptAt verdicts transports clock g) = (pass', none)) :
    Sweeps db asset verdicts (done ++ [g]) pass' := by
  obtain ⟨reading, hreading, -, -, -, -, hcompleted⟩ :=
    (Pass.execute_cases hexecute).resolve_left (fun hno => by cases hno.1)
  obtain rfl : (verdictReading db asset verdicts g).at (clock g) = reading :=
    Option.some.inj hreading
  have hcontent := saveResult_content (hpass.rest g hnew) (verdictReading db asset verdicts g)
    (clock g)
  intro id
  have hid : id ∈ activeIds (clearRecent db.results asset.id) asset.id →
      (id ≠ (saveResult pass.session asset g
        ((verdictReading db asset verdicts g).at (clock g))).2.id ↔
      (savedContent db asset verdicts g).1 ≠ some id) := by
    intro hactive
    obtain ⟨r, hr, -, -, rfl⟩ := mem_activeIds.mp hactive
    have hknown : knownKey _ (saveResult pass.session asset g
        ((verdictReading db asset verdicts g).at (clock g))).2.id =
        (savedContent db asset verdicts g).1 := congrArg Prod.fst hcontent
    rw [← hknown, Ne, Ne, not_iff_not]
    constructor
    · intro he
      exact knownKey_eq_some.mpr ⟨he ▸ List.mem_map_of_mem hr, he.symm⟩
    · intro he
      exact (knownKey_eq_some.mp he).2.symm
  rw [(hcompleted rfl).1, List.mem_filter, h id, bne_iff_ne]
  constructor
  · rintro ⟨⟨hactive, hdone⟩, hne⟩
    refine ⟨hactive, ?_⟩
    intro g' hg'
    rcases List.mem_append.mp hg' with hg' | hg'
    · exact hdone g' hg'
    · rw [List.mem_singleton.mp hg']
      exact (hid hactive).mp hne
  · rintro ⟨hactive, hdone⟩
    exact ⟨⟨hactive, fun g' hg' => hdone g' (by simp [hg'])⟩,
      (hid hactive).mpr (hdone g (by simp))⟩

end Execute

theorem clearRecent_ids (results : Results) (asset : Nat) :
    (clearRecent results asset).rows.map Result.id = results.rows.map Result.id :=
  Table.keys_update _ _ _ _

theorem SameOutcome.of_clearRecent {before : Results} (id : Nat) {c c' : Checked}
    (hresults : resultContents (clearRecent before id) c.db.results =
      resultContents (clearRecent before id) c'.db.results)
    (hlog : (c.log.map (Event.contentSince (clearRecent before id) c.db.results)).Perm
      (c'.log.map (Event.contentSince (clearRecent before id) c'.db.results))) :
    SameOutcome before c c' := by
  simp only [resultContents, clearRecent_ids] at hresults
  have hevent : ∀ after, Event.contentSince (clearRecent before id) after =
      Event.contentSince before after := by
    intro after
    funext e
    rw [Event.contentSince, Event.contentSince, clearRecent_ids]
  simp only [hevent] at hlog
  exact ⟨hresults, hlog⟩

theorem resultContents_deactivate {before results : Results} {ids : List Nat}
    (hids : ∀ id ∈ ids, id ∈ before.rows.map Result.id) :
    resultContents before (deactivate results ids) = (resultContents before results).map
      (fun c => if ∃ id ∈ ids, c.1 = some id then (c.1, c.2.deactivate) else c) :=
  Table.contents_update Result.deactivate_id (fun _ => rfl) hids

/-- Executions in another order put the same rows. -/
theorem foldl_savedContent_perm {l l' : List Algorithm} (hperm : l.Perm l')
    (hnodup : (l.map Algorithm.id).Nodup) (C : Multiset (Option Nat × Result)) :
    l.foldl (fun C g => putKnown C (savedContent db asset verdicts g)) C =
      l'.foldl (fun C g => putKnown C (savedContent db asset verdicts g)) C := by
  apply hperm.foldl_eq'
  intro g hg g' hg' C
  by_cases hid : g.id = g'.id
  · rw [List.inj_on_of_nodup_map hnodup hg hg' hid]
  · exact putKnown_comm (saveResult_apart _ _ _ (fun h => hid h.2)) C

theorem Sweeps.mem_iff {l l' : List Algorithm} {pass pass' : Pass} (hperm : l.Perm l')
    (h : Sweeps db asset verdicts l pass) (h' : Sweeps db asset verdicts l' pass') (id : Nat) :
    id ∈ pass.previouslyActive ↔ id ∈ pass'.previouslyActive := by
  rw [h id, h' id]
  simp only [hperm.mem_iff]

theorem Sweeps.known {l : List Algorithm} {pass : Pass} (h : Sweeps db asset verdicts l pass) :
    ∀ id ∈ pass.previouslyActive, id ∈ (clearRecent db.results asset.id).rows.map Result.id := by
  intro id hid
  obtain ⟨r, hr, -, -, rfl⟩ := mem_activeIds.mp ((h id).mp hid).1
  exact List.mem_map_of_mem hr

/-- Two passes that have done the same executions leave the same after the sweep. -/
theorem swept_sameOutcome {l l' : List Algorithm} {pass pass' : Pass} {c c' : Checked}
    (hperm : l.Perm l') (hnodup : (l.map Algorithm.id).Nodup)
    (hexecuted : Executed db asset verdicts transports l pass)
    (hexecuted' : Executed db asset verdicts transports l' pass')
    (hsweeps : Sweeps db asset verdicts l pass) (hsweeps' : Sweeps db asset verdicts l' pass')
    (hc : c.db.results = deactivate pass.session pass.previouslyActive ∧ c.log = pass.log)
    (hc' : c'.db.results = deactivate pass'.session pass'.previouslyActive ∧ c'.log = pass'.log) :
    SameOutcome db.results c c' := by
  refine SameOutcome.of_clearRecent asset.id ?_ ?_
  · rw [hc.1, hc'.1, resultContents_deactivate hsweeps.known,
      resultContents_deactivate hsweeps'.known, hexecuted.results, hexecuted'.results,
      foldl_savedContent_perm hperm hnodup]
    simp only [hsweeps.mem_iff hperm hsweeps']
  · have hevent : ∀ (results : Results) (ids : List Nat),
        Event.contentSince (clearRecent db.results asset.id) (deactivate results ids) =
          Event.contentSince (clearRecent db.results asset.id) results := by
      intro results ids
      funext e
      rw [Event.contentSince, Event.contentSince, resultPair_deactivate]
    rw [hc.1, hc'.1, hc.2, hc'.2, hevent, hevent, hexecuted.log, hexecuted'.log]
    exact hperm.flatMap_right _

theorem runAlgorithms_executed {clock : Algorithm → Nat × Nat} {l : List Algorithm} {pass : Pass}
    (hnodup : (l.map Algorithm.id).Nodup)
    (h : runAlgorithms db asset (attemptAt verdicts transports clock)
      (Pass.start db.results asset.id) l = (pass, none)) :
    Executed db asset verdicts transports l pass ∧ Sweeps db asset verdicts l pass := by
  have hstep : ∀ {done : List Algorithm} {pass pass' : Pass} {g : Algorithm},
      Executed db asset verdicts transports done pass ∧ Sweeps db asset verdicts done pass →
      (∀ g' ∈ done, g'.id ≠ g.id) →
      pass.execute db asset g (attemptAt verdicts transports clock g) = (pass', none) →
      Executed db asset verdicts transports (done ++ [g]) pass' ∧
        Sweeps db asset verdicts (done ++ [g]) pass' :=
    fun hp hnew he => ⟨(hp.1.execute hnew he).2, hp.2.execute hp.1 hnew he⟩
  have hstart : Executed db asset verdicts transports [] (Pass.start db.results asset.id) ∧
      Sweeps db asset verdicts [] (Pass.start db.results asset.id) :=
    ⟨Executed.start, Sweeps.start⟩
  exact runAlgorithms_done hstep hstart hnodup h

theorem executionRaises_attemptAt (clock : Algorithm → Nat × Nat) (g : Algorithm) :
    executionRaises db asset g (attemptAt verdicts transports clock g) =
      notifierRaises db asset verdicts transports g := by
  have hcontent := saveResult_content (Undisturbed.refl db.results asset.id g.id)
    (verdictReading db asset verdicts g) (clock g)
  obtain ⟨hpassed, hpriority, hocc⟩ := Result.same_of_content hcontent
  exact congrArg (fun sends => sends.2.isSome)
    (handleResult_notices (transports g) asset g db hpassed hpriority hocc)

/-- A pass in which the notifier does not raise executes all its algorithms. -/
theorem checkAsset_executed (order : IterationOrder Algorithm) (clock : Algorithm → Nat × Nat)
    (hraises : ∀ g ∈ db.toRun asset, notifierRaises db asset verdicts transports g = false) :
    ∃ pass, Executed db asset verdicts transports (order.visit (db.toRun asset)) pass ∧
      Sweeps db asset verdicts (order.visit (db.toRun asset)) pass ∧
      (checkAsset db asset order (attemptAt verdicts transports clock)).db.results =
        deactivate pass.session pass.previouslyActive ∧
      (checkAsset db asset order (attemptAt verdicts transports clock)).log = pass.log := by
  have hnodup := db.visit_nodup asset order
  have hraised : (runAlgorithms db asset (attemptAt verdicts transports clock)
      (Pass.start db.results asset.id) (order.visit (db.toRun asset))).2.isSome =
      (order.visit (db.toRun asset)).any (fun g => executionRaises db asset g
        (attemptAt verdicts transports clock g)) :=
    runAlgorithms_raised hnodup (fun g _ => openIssues_clearRecent db.results asset.id asset.id g.id)
  have hnone : (order.visit (db.toRun asset)).any (fun g => executionRaises db asset g
      (attemptAt verdicts transports clock g)) = false := by
    rw [List.any_eq_false]
    intro g hg
    rw [executionRaises_attemptAt, hraises g (((order.perm _).mem_iff).mp hg)]
    exact Bool.false_ne_true
  rcases checkAsset_cases db asset order (attemptAt verdicts transports clock) with
    ⟨pass, e, hrun, -⟩ | ⟨pass, hrun, -, he⟩
  · rw [hrun, hnone] at hraised
    cases hraised
  · obtain ⟨hexecuted, hsweeps⟩ := runAlgorithms_executed hnodup hrun
    exact ⟨pass, hexecuted, hsweeps, by rw [he, Db.setHealth_results], by rw [he]⟩

/-- A pass that the notifier ends at its first algorithm. -/
theorem checkAsset_first_raises (order : IterationOrder Algorithm)
    (clock : Algorithm → Nat × Nat) {g : Algorithm} {rest : List Algorithm}
    (hvisit : order.visit (db.toRun asset) = g :: rest)
    (hraises : notifierRaises db asset verdicts transports g = true) :
    ∃ pass, Executed db asset verdicts transports [g] pass ∧
      (checkAsset db asset order (attemptAt verdicts transports clock)).db.results =
        pass.session ∧
      (checkAsset db asset order (attemptAt verdicts transports clock)).log = pass.log := by
  obtain ⟨⟨pass, e⟩, hexecute⟩ : ∃ out, (Pass.start db.results asset.id).execute db asset g
      (attemptAt verdicts transports clock g) = out := ⟨_, rfl⟩
  obtain ⟨hstored, hexecuted⟩ := Executed.start.execute (by simp) hexecute
  have hraised : (runAlgorithms db asset (attemptAt verdicts transports clock)
      (Pass.start db.results asset.id) [g]).2.isSome = [g].any (fun g => executionRaises db asset g
        (attemptAt verdicts transports clock g)) :=
    runAlgorithms_raised (List.nodup_singleton _)
      (fun g _ => openIssues_clearRecent db.results asset.id asset.id g.id)
  rw [List.any_cons, executionRaises_attemptAt, hraises, Bool.true_or] at hraised
  cases e with
  | none => simp [runAlgorithms, hexecute] at hraised
  | some e =>
    have he : checkAsset db asset order (attemptAt verdicts transports clock) =
        ⟨{ db with results := pass.stored }, pass.log, some e⟩ := by
      simp only [checkAsset, hvisit, runAlgorithms, hexecute]
    exact ⟨pass, hexecuted, by rw [he, ← hstored], by rw [he]⟩

/-- Some result of the pair is of the last pass. -/
def HasRecent (asset algorithm : Nat) (results : Results) : Prop :=
  ∃ r ∈ results.rows, r.assetId = asset ∧ r.algorithmId = algorithm ∧ r.recent = true

theorem HasRecent.of_contents {before results results' : Results} {a g : Nat}
    (h : resultContents before results = resultContents before results')
    (hrecent : HasRecent a g results) : HasRecent a g results' := by
  obtain ⟨r, hr, ha, hg, hrec⟩ := hrecent
  have hmem : r.contentSince before ∈ resultContents before results :=
    Table.mem_contents.mpr ⟨r, hr, rfl⟩
  rw [h] at hmem
  obtain ⟨r', hr', he⟩ := Table.mem_contents.mp hmem
  have hanonymous : r'.anonymous = r.anonymous := congrArg Prod.snd he
  simp only [Result.anonymous, Result.mk.injEq] at hanonymous
  exact ⟨r', hr', by grind⟩

theorem HasRecent.saveResult {results : Results} {a g : Nat} (h : HasRecent a g results)
    (asset : Asset) (algorithm : Algorithm) (reading : Reading) :
    HasRecent a g (saveResult results asset algorithm reading).1 := by
  obtain ⟨r, hr, ha, hg, hrec⟩ := h
  rcases saveResult_keeps results asset algorithm reading hr with hkept | hrecorded
  · exact ⟨r, hkept, ha, hg, hrec⟩
  · exact ⟨_, hrecorded, ha, hg, rfl⟩

theorem hasRecent_saved (results : Results) (asset : Asset) (algorithm : Algorithm)
    (reading : Reading) :
    HasRecent asset.id algorithm.id (saveResult results asset algorithm reading).1 :=
  ⟨_, (mem_saveResult results asset algorithm reading).mpr (Or.inl rfl), by simp, by simp,
    (saveResult_recorded results asset algorithm reading).2.2.2⟩

theorem Executed.not_hasRecent {done : List Algorithm} {pass : Pass} {g : Algorithm}
    (h : Executed db asset verdicts transports done pass) (hg : ∀ g' ∈ done, g'.id ≠ g.id) :
    ¬ HasRecent asset.id g.id pass.session := by
  rintro ⟨r, hr, ha, halgorithm, hrec⟩
  have hpair : r ∈ pass.session.rows.filter (Result.ofPair asset.id g.id) :=
    List.mem_filter.mpr ⟨hr, by simp [Result.ofPair, ha, halgorithm]⟩
  rw [(h.rest g hg).pair] at hpair
  rw [clearRecent_not_recent (List.mem_filter.mp hpair).1 ha] at hrec
  cases hrec

/-- Whatever happens after it, what the first algorithm of a pass has saved stays. -/
theorem checkAsset_first_recent (order : IterationOrder Algorithm)
    (clock : Algorithm → Nat × Nat) {g : Algorithm} {rest : List Algorithm}
    (hvisit : order.visit (db.toRun asset) = g :: rest) :
    HasRecent asset.id g.id
      (checkAsset db asset order (attemptAt verdicts transports clock)).db.results := by
  have hsaves : ∀ {pass pass' : Pass} {g' : Algorithm} {e : Option Exn},
      pass.execute db asset g' (attemptAt verdicts transports clock g') = (pass', e) →
      g' = g ∨ HasRecent asset.id g.id pass.session →
      HasRecent asset.id g.id pass'.session ∧ pass'.stored = pass'.session := by
    intro pass pass' g' e hexecute hbefore
    obtain ⟨reading, -, hsession, hstored, -⟩ :=
      (Pass.execute_cases hexecute).resolve_left (fun hno => by cases hno.1)
    refine ⟨?_, hstored.trans hsession.symm⟩
    rw [hsession]
    rcases hbefore with rfl | hbefore
    · exact hasRecent_saved _ _ _ _
    · exact hbefore.saveResult _ _ _
  have hrun : ∀ {pass : Pass} {e : Option Exn}, runAlgorithms db asset
      (attemptAt verdicts transports clock) (Pass.start db.results asset.id)
      (order.visit (db.toRun asset)) = (pass, e) →
      HasRecent asset.id g.id pass.session ∧ pass.stored = pass.session := by
    intro pass e h
    rw [hvisit] at h
    unfold runAlgorithms at h
    split at h
    · next first e' he =>
      cases h
      exact hsaves he (Or.inl rfl)
    · next first he =>
      exact runAlgorithms_invariant (fun he hp => hsaves he (Or.inr hp.1)) h
        (hsaves he (Or.inl rfl))
  rcases checkAsset_cases db asset order (attemptAt verdicts transports clock) with
    ⟨pass, e, h, he⟩ | ⟨pass, h, -, he⟩
  · rw [he]
    exact (hrun h).2 ▸ (hrun h).1
  · rw [he, Db.setHealth_results]
    obtain ⟨r, hr, ha, hg, hrec⟩ := (hrun h).1
    refine ⟨_, mem_deactivate.mpr ⟨r, hr, rfl⟩, ?_⟩
    split <;> exact ⟨ha, hg, hrec⟩

theorem exists_other {g : Algorithm} (hg : g ∈ db.toRun asset)
    (hmany : ¬ (db.toRun asset).length ≤ 1) : ∃ g' ∈ db.toRun asset, g'.id ≠ g.id := by
  by_contra hall
  push Not at hall
  have hsame : ∀ g' ∈ db.toRun asset, g' = g := fun g' hg' =>
    List.inj_on_of_nodup_map (db.toRun_nodup asset) hg' hg (hall g' hg')
  have hnodup : (db.toRun asset).Nodup := List.Nodup.of_map _ (db.toRun_nodup asset)
  rw [List.eq_replicate_of_mem hsame, List.nodup_replicate] at hnodup
  exact hmany hnodup

theorem headed_visit {g : Algorithm} (hg : g ∈ db.toRun asset) :
    (IterationOrder.headed g).visit (db.toRun asset) = g :: (db.toRun asset).erase g :=
  if_pos hg

/-- A pass that starts with an algorithm on which the notifier raises ends there. -/
theorem not_sameOutcome_headed {g g' : Algorithm} (hg : g ∈ db.toRun asset)
    (hg' : g' ∈ db.toRun asset) (hne : g.id ≠ g'.id)
    (hraises : notifierRaises db asset verdicts transports g = true)
    (clock clock' : Algorithm → Nat × Nat) :
    ¬ SameOutcome db.results
      (checkAsset db asset (.headed g') (attemptAt verdicts transports clock'))
      (checkAsset db asset (.headed g) (attemptAt verdicts transports clock)) := by
  intro hsame
  obtain ⟨pass, hexecuted, hresults, -⟩ :=
    checkAsset_first_raises (.headed g) clock (headed_visit hg) hraises
  have hrecent : HasRecent asset.id g'.id
      (checkAsset db asset (.headed g') (attemptAt verdicts transports clock')).db.results :=
    checkAsset_first_recent (.headed g') clock' (headed_visit hg')
  have hback := hrecent.of_contents hsame.results
  rw [hresults] at hback
  exact hexecuted.not_hasRecent (by simpa using hne) hback

theorem sameOutcome_of_quiet
    (hquiet : ∀ g ∈ db.toRun asset, notifierRaises db asset verdicts transports g = false)
    (order order' : IterationOrder Algorithm) (clock clock' : Algorithm → Nat × Nat) :
    SameOutcome db.results (checkAsset db asset order (attemptAt verdicts transports clock))
      (checkAsset db asset order' (attemptAt verdicts transports clock')) := by
  obtain ⟨pass, hexecuted, hsweeps, hc⟩ := checkAsset_executed order clock hquiet
  obtain ⟨pass', hexecuted', hsweeps', hc'⟩ := checkAsset_executed order' clock' hquiet
  exact swept_sameOutcome ((order.perm _).trans (order'.perm _).symm) (db.visit_nodup asset order)
    hexecuted hexecuted' hsweeps hsweeps' hc hc'

theorem sameOutcome_of_single {g : Algorithm} (hrun : db.toRun asset = [g])
    (hraises : notifierRaises db asset verdicts transports g = true)
    (order order' : IterationOrder Algorithm) (clock clock' : Algorithm → Nat × Nat) :
    SameOutcome db.results (checkAsset db asset order (attemptAt verdicts transports clock))
      (checkAsset db asset order' (attemptAt verdicts transports clock')) := by
  have hvisit : ∀ order : IterationOrder Algorithm, order.visit (db.toRun asset) = [g] := by
    intro order
    rw [hrun]
    exact List.perm_singleton.mp (order.perm [g])
  obtain ⟨pass, hexecuted, hresults, hlog⟩ :=
    checkAsset_first_raises order clock (hvisit order) hraises
  obtain ⟨pass', hexecuted', hresults', hlog'⟩ :=
    checkAsset_first_raises order' clock' (hvisit order') hraises
  apply SameOutcome.of_clearRecent asset.id
  · rw [hresults, hresults', hexecuted.results, hexecuted'.results]
  · rw [hresults, hresults', hlog, hlog', hexecuted.log, hexecuted'.log]

end

/-- Saves of different pairs commute. A pass leaves the same in every order if there is no
choice of an order, or if the notifier does not raise: where it raises, the algorithms
that come later in the order are not run. -/
theorem checkAsset_order_iff (db : Db) (asset : Asset) (verdicts : Algorithm → ℚ × Bool)
    (transports : Algorithm → Transport) :
    (∀ (before : Results) (asset asset' : Asset) (algorithm algorithm' : Algorithm)
      (reading reading' : Reading) (clock clock' : Nat × Nat),
      ¬ (asset.id = asset'.id ∧ algorithm.id = algorithm'.id) →
      SavesCommute before asset asset' algorithm algorithm' reading reading' clock clock') ∧
    ((∀ (order order' : IterationOrder Algorithm) (clock clock' : Algorithm → Nat × Nat),
      SameOutcome db.results
        (checkAsset db asset order (attemptAt verdicts transports clock))
        (checkAsset db asset order' (attemptAt verdicts transports clock'))) ↔
      (db.toRun asset).length ≤ 1 ∨
        ∀ g ∈ db.toRun asset, notifierRaises db asset verdicts transports g = false) := by
  refine ⟨fun before _ _ _ _ reading reading' clock clock' hne =>
    savesCommute before reading reading' clock clock' hne, ?_, ?_⟩
  · intro hsame
    by_contra hcondition
    push Not at hcondition
    obtain ⟨hmany, g, hg, hraises⟩ := hcondition
    obtain ⟨g', hg', hne⟩ := exists_other hg (Nat.not_le.mpr hmany)
    exact not_sameOutcome_headed hg hg' hne.symm (by simpa using hraises) (fun _ => (0, 0))
      (fun _ => (0, 0)) (hsame _ _ _ _)
  · intro hcondition order order' clock clock'
    by_cases hquiet : ∀ g ∈ db.toRun asset, notifierRaises db asset verdicts transports g = false
    · exact sameOutcome_of_quiet hquiet order order' clock clock'
    · have hone := hcondition.resolve_right hquiet
      push Not at hquiet
      obtain ⟨g, hg, hraises⟩ := hquiet
      obtain ⟨g', hg'⟩ := List.length_eq_one_iff.mp (le_antisymm hone (List.length_pos_of_mem hg))
      obtain rfl : g = g' := List.mem_singleton.mp (hg' ▸ hg)
      exact sameOutcome_of_single hg' (by simpa using hraises) order order' clock clock'

def filterCheck : Algorithm := ⟨2, "FilterCheck", "filter is blocked", true⟩

theorem fanChecks_nodup : ([fanCheck, filterCheck].map Algorithm.id).Nodup := by decide

def twoFanChecks : Db :=
  { plant with
    algorithms := ⟨[fanCheck, filterCheck], fanChecks_nodup⟩
    algoAssetMapping := {(1, 1), (1, 2)} }

/-- Both checks fail. -/
def bothFail : Algorithm → Attempt :=
  attemptAt (fun _ => (1, false)) (fun _ => .reliable) (fun _ => (0, 0))

theorem checkAsset_order_iff_twoFanChecks :
    SameOutcome twoFanChecks.results
      (checkAsset twoFanChecks fanUnit (.headed fanCheck) bothFail)
      (checkAsset twoFanChecks fanUnit (.headed filterCheck) bothFail) :=
  (checkAsset_order_iff twoFanChecks fanUnit (fun _ => (1, false)) (fun _ => .reliable)).2.mpr
    (Or.inr (by decide +kernel)) _ _ _ _

/-- The site has no configuration of Inbuildings. -/
def unlinkedPlant : Db :=
  { twoFanChecks with
    sites := ⟨[{ plantSite with inbuildingsConfig := none }], plantSite_nodup⟩ }

theorem checkAsset_order_matters :
    (checkAsset unlinkedPlant fanUnit (.headed fanCheck) bothFail).db.results.rows.map
        Result.algorithmId = [1] ∧
      (checkAsset unlinkedPlant fanUnit (.headed filterCheck) bothFail).db.results.rows.map
        Result.algorithmId = [2] ∧
      ¬ SameOutcome unlinkedPlant.results
        (checkAsset unlinkedPlant fanUnit (.headed filterCheck) bothFail)
        (checkAsset unlinkedPlant fanUnit (.headed fanCheck) bothFail) :=
  ⟨by decide +kernel, by decide +kernel,
    not_sameOutcome_headed (by decide +kernel) (by decide +kernel) (by decide) (by decide +kernel)
      _ _⟩

end Medusa
