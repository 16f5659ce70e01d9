import Medusa.IssueInvariants
import Medusa.Listing

/-! The result table as an issue tracker. The table has a row for every result there
ever was, most of them resolved. What it is for is simpler: an asset and an algorithm
have an open issue or none, and checks, sweeps and decisions of users move it. The
tracker is stated here on its own, and every run of the monitoring system follows it. -/

namespace Medusa

open Relational

/-- An open issue as its users see it. -/
structure Issue where
  since : Nat
  seen : Nat
  priority : Int
  value : ℚ
  occurances : Nat
  failing : Bool
  acknowledged : Bool
  notes : String
deriving DecidableEq

/-- What happens to the issue of an asset and an algorithm: the algorithm was run, it was
left out of a completed check, or a user has decided. A decision has notes if the issue
was on the page of the user. -/
inductive Move
  | observed (priority : Int) (reading : Reading)
  | dropped
  | decided (ticked : Bool) (notes : Option String)

/-- An issue is over when it does not fail any more and has been acknowledged. -/
def Issue.settle (i : Issue) : Option Issue := if i.failing || !i.acknowledged then some i else none

def Issue.next : Option Issue → Move → Option Issue
  | none, .observed priority reading =>
    if reading.passed then none
    else some ⟨reading.created, reading.now, priority, reading.value, 1, true, false, ""⟩
  | none, _ => none
  | some i, .observed _ reading =>
    { i with
      seen := reading.now
      value := reading.value
      occurances := i.occurances + 1
      failing := !reading.passed }.settle
  | some i, .dropped => { i with failing := false }.settle
  | some i, .decided ticked notes =>
    { i with
      acknowledged := if ticked then true else if notes.isSome then false else i.acknowledged
      notes := notes.getD i.notes }.settle

def Result.issue (r : Result) : Issue where
  since := r.firstTimestamp
  seen := r.recentTimestamp
  priority := r.priority
  value := r.value
  occurances := r.occurances
  failing := r.active
  acknowledged := r.acknowledged
  notes := r.notes

def issueAt (results : Results) (asset algorithm : Nat) : Option Issue :=
  (results.first? (Result.isOpenIssue asset algorithm)).map Result.issue

/-- The algorithms of a pass whose results were saved, in the order of the loop. -/
def executed (db : Db) (asset : Asset) (attempts : Algorithm → Attempt) :
    Pass → List Algorithm → List Algorithm
  | _, [] => []
  | pass, g :: rest =>
    match db.reading asset g (attempts g) with
    | none => []
    | some _ =>
      match pass.execute db asset g (attempts g) with
      | (pass, none) => g :: executed db asset attempts pass rest
      | (_, some _) => [g]

def Db.observations (db : Db) (asset : Asset) (algorithm : Algorithm) (attempt : Attempt) :
    List Move :=
  ((db.reading asset algorithm attempt).map (Move.observed asset.priority)).toList

/-- What a pass over an asset means for its issue with an algorithm. -/
def Db.passMoves (db : Db) (asset : Asset) (order : IterationOrder Algorithm)
    (attempts : Algorithm → Attempt) (algorithm : Nat) : List Move :=
  let start := Pass.start db.results asset.id
  let algorithms := order.visit (db.toRun asset)
  let done := executed db asset attempts start algorithms
  let completed := (runAlgorithms db asset attempts start algorithms).2.isNone
  (done.filter (fun g => g.id == algorithm)).flatMap (fun g => db.observations asset g (attempts g)) ++
    if completed && !(done.map Algorithm.id).contains algorithm then [.dropped] else []

/-- The form of a submit that commits, and the results on its page. -/
def Monitor.submission (s : Monitor) : Step → Option (IssueForm × List Result)
  | .submitAll sites form =>
    (unresolvedIssuesSubmitAll s.db sites form).map
      (fun _ => (form, sites.flatMap s.db.getUnresolved))
  | .submitSite sitename form => do
    let site ← s.db.sites.one? (fun site => site.name == sitename)
    let _ ← unresolvedIssuesSubmit s.db sitename form
    pure (form, s.db.getUnresolved site.id)
  | .submitAsset assetId form => do
    let asset ← s.db.assets.one? (fun a => a.id == assetId)
    let _ ← assetIssuesSubmit s.db assetId form
    pure (form, s.db.results.rows.filter (fun r => r.assetId == asset.id && r.unresolved))
  | _ => none

def IssueForm.decision (form : IssueForm) (issues : List Result) (r : Result) : Move :=
  .decided (decide (some r.id ∈ form.acknowledge))
    (if r.id ∈ issues.map Result.id then some ((form.notes r.id).getD "") else none)

def Monitor.moves (s : Monitor) (asset algorithm : Nat) (st : Step) : List Move :=
  match st with
  | .clearRecent _ | .edit _ => []
  | .execute a g attempt =>
    if a.id = asset ∧ g.id = algorithm then s.db.observations a g attempt else []
  | .finish _ previouslyActive _ =>
    match s.db.results.first? (Result.isOpenIssue asset algorithm) with
    | some r => if r.id ∈ previouslyActive then [.dropped] else []
    | none => []
  | .check a order attempts =>
    if a.id = asset then s.db.passMoves a order attempts algorithm else []
  | .submitAll _ _ | .submitSite _ _ | .submitAsset _ _ =>
    match s.submission st, s.db.results.first? (Result.isOpenIssue asset algorithm) with
    | some (form, issues), some r => [form.decision issues r]
    | _, _ => []

/-- All that happens to one issue in a run. -/
def journal (asset algorithm : Nat) : Monitor → List Step → List Move
  | _, [] => []
  | s, st :: rest => s.moves asset algorithm st ++ journal asset algorithm (s.step st) rest

section Abstraction

variable {results results' : Results} {asset algorithm : Nat}

theorem OneOpenIssue.first?_iff (h : OneOpenIssue results) {r : Result} :
    results.first? (Result.isOpenIssue asset algorithm) = some r ↔
      r ∈ results.rows ∧ r.isOpenIssue asset algorithm = true := by
  constructor
  · exact Table.mem_of_first?
  · rintro ⟨hr, ho⟩
    cases hf : results.first? (Result.isOpenIssue asset algorithm) with
    | none =>
      have hno := Table.first?_eq_none hf r hr
      rw [ho] at hno
      exact Bool.noConfusion hno
    | some r' =>
      obtain ⟨hr', ho'⟩ := Table.mem_of_first? hf
      have hopen := Result.isOpenIssue_iff.mp ho
      have hopen' := Result.isOpenIssue_iff.mp ho'
      rw [h r' hr' r hr hopen'.2.2 hopen.2.2 (hopen'.1.trans hopen.1.symm)
        (hopen'.2.1.trans hopen.2.1.symm)]

theorem OneOpenIssue.first?_eq_none (hn : ∀ r ∈ results.rows, r.isOpenIssue asset algorithm = false) :
    results.first? (Result.isOpenIssue asset algorithm) = none := by
  cases hf : results.first? (Result.isOpenIssue asset algorithm) with
  | none => rfl
  | some r =>
    obtain ⟨hr, ho⟩ := Table.mem_of_first? hf
    rw [hn r hr] at ho
    exact Bool.noConfusion ho

theorem Result.settle_issue (r : Result) :
    r.issue.settle = if r.unresolved then some r.issue else none := rfl

/-- Rows that are rewritten one by one, none of them reopened: the issue is the rewritten
row, unless that one is resolved. -/
theorem OneOpenIssue.issueAt_map (h : OneOpenIssue results) (h' : OneOpenIssue results')
    {f : Result → Result} (hrows : results'.rows = results.rows.map f)
    (hf : ∀ r ∈ results.rows, (f r).assetId = r.assetId ∧ (f r).algorithmId = r.algorithmId ∧
      ((f r).unresolved = true → r.unresolved = true)) :
    issueAt results' asset algorithm =
      (results.first? (Result.isOpenIssue asset algorithm)).bind (fun r => (f r).issue.settle) := by
  have hback : ∀ r ∈ results.rows, (f r).isOpenIssue asset algorithm = true →
      r.isOpenIssue asset algorithm = true := by
    intro r hr ho
    obtain ⟨ha, hg, hu⟩ := hf r hr
    have hopen := Result.isOpenIssue_iff.mp ho
    exact Result.isOpenIssue_iff.mpr ⟨ha ▸ hopen.1, hg ▸ hopen.2.1, hu hopen.2.2⟩
  unfold issueAt
  cases hfirst : results.first? (Result.isOpenIssue asset algorithm) with
  | none =>
    rw [OneOpenIssue.first?_eq_none]
    · rfl
    · intro r' hr'
      rw [hrows] at hr'
      obtain ⟨r, hr, rfl⟩ := List.mem_map.mp hr'
      have hno := Table.first?_eq_none hfirst r hr
      cases ho : (f r).isOpenIssue asset algorithm with
      | false => rfl
      | true => exact (hno.symm.trans (hback r hr ho)).symm
  | some r =>
    obtain ⟨hr, ho⟩ := h.first?_iff.mp hfirst
    obtain ⟨ha, hg, -⟩ := hf r hr
    have hopen := Result.isOpenIssue_iff.mp ho
    rw [Option.bind_some, Result.settle_issue]
    cases hu : (f r).unresolved with
    | true =>
      have hr' : f r ∈ results'.rows := by
        rw [hrows]
        exact List.mem_map_of_mem hr
      have ho' : (f r).isOpenIssue asset algorithm = true :=
        Result.isOpenIssue_iff.mpr ⟨ha.trans hopen.1, hg.trans hopen.2.1, hu⟩
      rw [h'.first?_iff.mpr ⟨hr', ho'⟩]
      rfl
    | false =>
      rw [OneOpenIssue.first?_eq_none]
      · rfl
      · intro r' hr'
        rw [hrows] at hr'
        obtain ⟨r₁, hr₁, rfl⟩ := List.mem_map.mp hr'
        cases ho₁ : (f r₁).isOpenIssue asset algorithm with
        | false => rfl
        | true =>
          have heq := (h.first?_iff.mpr ⟨hr₁, hback r₁ hr₁ ho₁⟩).symm.trans hfirst
          rw [Option.some.inj heq] at ho₁
          rw [(Result.isOpenIssue_iff.mp ho₁).2.2] at hu
          exact hu

theorem OneOpenIssue.issueAt_unchanged (h : OneOpenIssue results) (h' : OneOpenIssue results')
    {f : Result → Result} (hrows : results'.rows = results.rows.map f)
    (hf : ∀ r, (f r).assetId = r.assetId ∧ (f r).algorithmId = r.algorithmId ∧
      (f r).unresolved = r.unresolved ∧ (f r).issue = r.issue) :
    issueAt results' asset algorithm = issueAt results asset algorithm := by
  rw [h.issueAt_map h' hrows (fun r _ => ⟨(hf r).1, (hf r).2.1, fun hu => (hf r).2.2.1 ▸ hu⟩), issueAt]
  cases hfirst : results.first? (Result.isOpenIssue asset algorithm) with
  | none => rfl
  | some r =>
    have hu := (Result.isOpenIssue_iff.mp (h.first?_iff.mp hfirst).2).2.2
    rw [Option.bind_some, (hf r).2.2.2, Result.settle_issue, hu]
    rfl

/-- A saved result moves the issue of its pair, and no other one. -/
theorem OneOpenIssue.issueAt_save (h : OneOpenIssue results) (a : Asset) (g : Algorithm)
    (reading : Reading) :
    issueAt (saveResult results a g reading).1 asset algorithm =
      if a.id = asset ∧ g.id = algorithm then
        Issue.next (issueAt results asset algorithm) (.observed a.priority reading)
      else issueAt results asset algorithm := by
  have h' := h.save a g reading
  by_cases hpair : a.id = asset ∧ g.id = algorithm
  · obtain ⟨rfl, rfl⟩ := hpair
    rw [if_pos ⟨rfl, rfl⟩]
    let saved := (saveResult results a g reading).2
    have hmem : ∀ r, r ∈ (saveResult results a g reading).1.rows ↔ _ :=
      fun r => mem_saveResult results a g reading
    -- no other row of the pair is open, before or after
    have hsaved : issueAt (saveResult results a g reading).1 a.id g.id = saved.issue.settle := by
      rw [issueAt, Result.settle_issue]
      cases hu : saved.unresolved with
      | true =>
        have ho : saved.isOpenIssue a.id g.id = true :=
          Result.isOpenIssue_iff.mpr ⟨saveResult_assetId _ _ _ _, saveResult_algorithmId _ _ _ _, hu⟩
        rw [h'.first?_iff.mpr ⟨(hmem saved).mpr (Or.inl rfl), ho⟩]
        rfl
      | false =>
        rw [OneOpenIssue.first?_eq_none]
        · rfl
        · intro r hr
          cases ho : r.isOpenIssue a.id g.id with
          | false => rfl
          | true =>
            rcases (hmem r).mp hr with rfl | ⟨hold, hid⟩
            · exact ((Result.isOpenIssue_iff.mp ho).2.2.symm.trans hu)
            · exact absurd (h.id_eq_saved reading hold ho) hid
    rw [hsaved]
    rcases saveResult_cases results a g reading with ⟨r, hr, ho, he⟩ | ⟨hn, he⟩
    · rw [show saved = r.record reading from congrArg Prod.snd he, issueAt,
        h.first?_iff.mpr ⟨hr, ho⟩]
      rfl
    · rw [show saved = Result.firstSaved a g reading results.nextKey from congrArg Prod.snd he,
        issueAt, OneOpenIssue.first?_eq_none hn]
      cases hp : reading.passed <;>
        simp [Result.firstSaved, Result.create, Result.record, Result.issue, Issue.settle,
          Issue.next, hp]
  · rw [if_neg hpair]
    have hrows := saveResult_filter_other results a g reading
      (p := Result.isOpenIssue asset algorithm) (by
        intro r ho ha hg
        have hopen := Result.isOpenIssue_iff.mp ho
        exact hpair ⟨ha.symm.trans hopen.1, hg.symm.trans hopen.2.1⟩)
    simp only [issueAt, Table.first?, ← List.head?_filter, hrows]

end Abstraction

section Pass

variable {db : Db} {asset : Asset} {attempts : Algorithm → Attempt} {pass pass' : Pass}
  {algorithms : List Algorithm} {algorithm : Nat}

theorem executed_of_completed (h : runAlgorithms db asset attempts pass algorithms = (pass', none)) :
    executed db asset attempts pass algorithms = algorithms := by
  induction algorithms generalizing pass with
  | nil => rfl
  | cons g rest ih =>
    unfold runAlgorithms at h
    split at h
    · simp at h
    · next middle he =>
      obtain ⟨reading, hreading, -⟩ := (Pass.execute_cases he).resolve_left (by simp)
      simp only [executed, hreading, he, ih h]

/-- Nothing was saved, or all that was saved is committed. -/
theorem stored_of_executed {e : Option Exn}
    (h : runAlgorithms db asset attempts pass algorithms = (pass', e)) :
    (executed db asset attempts pass algorithms = [] ∧ pass' = pass) ∨
      pass'.stored = pass'.session := by
  induction algorithms generalizing pass with
  | nil => exact Or.inl ⟨rfl, (congrArg Prod.fst h).symm⟩
  | cons g rest ih =>
    unfold runAlgorithms at h
    split at h
    · next middle exn he =>
      obtain ⟨rfl, -⟩ := Prod.mk.inj h
      rcases Pass.execute_cases he with ⟨hnone, hpass, -⟩ | ⟨reading, -, hsession, hstored, -⟩
      · exact Or.inl ⟨by simp only [executed, hnone], hpass⟩
      · exact Or.inr (hstored.trans hsession.symm)
    · next middle he =>
      rcases ih h with ⟨-, hpass⟩ | hstored
      · obtain ⟨reading, -, hsession, hstored, -⟩ := (Pass.execute_cases he).resolve_left (by simp)
        rw [hpass]
        exact Or.inr (hstored.trans hsession.symm)
      · exact Or.inr hstored

theorem Pass.execute_issueAt (algorithm : Nat) {g : Algorithm} {reading : Reading}
    {e : Option Exn} (h : OneOpenIssue pass.session)
    (hreading : db.reading asset g (attempts g) = some reading)
    (hexecute : pass.execute db asset g (attempts g) = (pass', e)) :
    OneOpenIssue pass'.session ∧ issueAt pass'.session asset.id algorithm =
      if g.id = algorithm then
        Issue.next (issueAt pass.session asset.id algorithm) (.observed asset.priority reading)
      else issueAt pass.session asset.id algorithm := by
  rcases Pass.execute_cases hexecute with ⟨hnone, -⟩ | ⟨reading', hreading', hsession, -⟩
  · exact absurd (hnone.symm.trans hreading) (Option.some_ne_none reading).symm
  · obtain rfl := Option.some.inj (hreading.symm.trans hreading')
    rw [hsession]
    refine ⟨h.save asset g reading, ?_⟩
    rw [h.issueAt_save asset g reading]
    simp only [true_and]

/-- The loop of a pass moves each issue of the asset by what was observed of it. -/
theorem runAlgorithms_issueAt (algorithm : Nat) {e : Option Exn} (h : OneOpenIssue pass.session)
    (hrun : runAlgorithms db asset attempts pass algorithms = (pass', e)) :
    OneOpenIssue pass'.session ∧ issueAt pass'.session asset.id algorithm =
      (((executed db asset attempts pass algorithms).filter (fun g => g.id == algorithm)).flatMap
        (fun g => db.observations asset g (attempts g))).foldl Issue.next
          (issueAt pass.session asset.id algorithm) := by
  induction algorithms generalizing pass with
  | nil =>
    obtain ⟨rfl, -⟩ := Prod.mk.inj hrun
    exact ⟨h, rfl⟩
  | cons g rest ih =>
    cases hreading : db.reading asset g (attempts g) with
    | none =>
      have hsame : pass' = pass := by
        simp only [runAlgorithms, Pass.execute, hreading, Prod.mk.injEq] at hrun
        exact hrun.1.symm
      simp only [executed, hreading, hsame]
      exact ⟨h, rfl⟩
    | some reading =>
      have hmoves : db.observations asset g (attempts g) = [.observed asset.priority reading] := by
        simp [Db.observations, hreading]
      cases he : pass.execute db asset g (attempts g) with
      | mk middle exn =>
        obtain ⟨hmiddle, hissue⟩ := Pass.execute_issueAt algorithm h hreading he
        cases exn with
        | some exn =>
          have hsame : pass' = middle := by
            simp only [runAlgorithms, he, Prod.mk.injEq] at hrun
            exact hrun.1.symm
          rw [hsame]
          refine ⟨hmiddle, ?_⟩
          simp only [executed, hreading, he, hissue]
          by_cases hg : g.id = algorithm <;> simp [hg, hmoves]
        | none =>
          have hrest : runAlgorithms db asset attempts middle rest = (pass', e) := by
            simpa only [runAlgorithms, he] using hrun
          obtain ⟨hend, hmoved⟩ := ih hmiddle hrest
          refine ⟨hend, ?_⟩
          rw [hmoved, hissue]
          simp only [executed, hreading, he]
          by_cases hg : g.id = algorithm <;> simp [hg, hmoves]

/-- The state of the loop, with the open issues: what was executed is recent as long as it
is open. -/
structure Traced (db : Db) (asset : Asset) (attempts : Algorithm → Attempt)
    (done : List Algorithm) (pass : Pass) : Prop where
  progress : Progress db asset attempts done pass
  one : OneOpenIssue pass.session
  recent : ∀ g ∈ done, ∀ r ∈ pass.session.rows, r.isOpenIssue asset.id g.id = true →
    r.recent = true

theorem Traced.execute {done : List Algorithm} {g : Algorithm}
    (h : Traced db asset attempts done pass) (hnew : ∀ g' ∈ done, g'.id ≠ g.id)
    (hexecute : pass.execute db asset g (attempts g) = (pass', none)) :
    Traced db asset attempts (done ++ [g]) pass' := by
  obtain ⟨reading, -, hsession, -⟩ := (Pass.execute_cases hexecute).resolve_left (by simp)
  refine ⟨h.progress.execute hnew hexecute, hsession ▸ h.one.save asset g reading, ?_⟩
  intro g' hg' r hr ho
  rw [hsession] at hr
  rcases (mem_saveResult pass.session asset g reading).mp hr with rfl | ⟨hold, hid⟩
  · exact (saveResult_recorded _ _ _ _).2.2.2
  rcases List.mem_append.mp hg' with hdone | hg
  · exact h.recent g' hdone r hold ho
  · rw [List.mem_singleton.mp hg] at ho
    exact absurd (h.one.id_eq_saved reading hold ho) hid

theorem OneOpenIssue.clearRecent {results : Results} (h : OneOpenIssue results) (asset : Nat) :
    OneOpenIssue (Medusa.clearRecent results asset) ∧ ∀ a g,
      issueAt (Medusa.clearRecent results asset) a g = issueAt results a g := by
  have hf : ∀ r : Result, let r' := if (r.assetId == asset && r.recent) = true then r.clearRecent else r
      r'.assetId = r.assetId ∧ r'.algorithmId = r.algorithmId ∧ r'.unresolved = r.unresolved ∧
        r'.issue = r.issue := by
    intro r
    split <;> exact ⟨rfl, rfl, rfl, rfl⟩
  have hone : OneOpenIssue (Medusa.clearRecent results asset) := by
    intro r hr r' hr' hu hu' ha hg
    obtain ⟨r₀, hr₀, rfl⟩ := List.mem_map.mp hr
    obtain ⟨r₁, hr₁, rfl⟩ := List.mem_map.mp hr'
    rw [(hf r₀).2.2.1] at hu
    rw [(hf r₁).2.2.1] at hu'
    rw [(hf r₀).1, (hf r₁).1] at ha
    rw [(hf r₀).2.1, (hf r₁).2.1] at hg
    rw [h r₀ hr₀ r₁ hr₁ hu hu' ha hg]
  exact ⟨hone, fun a g => h.issueAt_unchanged hone rfl hf⟩

theorem OneOpenIssue.issueAt_deactivate {results : Results} (h : OneOpenIssue results) {a g : Nat}
    {previouslyActive : List Nat} (h' : OneOpenIssue (deactivate results previouslyActive)) :
    issueAt (deactivate results previouslyActive) a g =
      (results.first? (Result.isOpenIssue a g)).bind (fun r =>
        (if r.id ∈ previouslyActive then r.deactivate else r).issue.settle) := by
  rw [h.issueAt_map h' rfl]
  · simp only [decide_eq_true_eq]
  · intro r _
    split
    · refine ⟨rfl, rfl, fun hu => ?_⟩
      have hack : r.acknowledged = false := by
        simpa [Result.unresolved, Result.deactivate] using hu
      simp [Result.unresolved, hack]
    · exact ⟨rfl, rfl, fun hu => hu⟩

/-- The sweep of a completed pass closes what failed and was not executed. -/
theorem Traced.issueAt_swept {done : List Algorithm} (h : Traced db asset attempts done pass)
    (hswept : OneOpenIssue (deactivate pass.session pass.previouslyActive)) :
    issueAt (deactivate pass.session pass.previouslyActive) asset.id algorithm =
      (if (done.map Algorithm.id).contains algorithm then [] else [Move.dropped]).foldl Issue.next
        (issueAt pass.session asset.id algorithm) := by
  rw [h.one.issueAt_deactivate hswept, issueAt]
  cases hfirst : pass.session.first? (Result.isOpenIssue asset.id algorithm) with
  | none => cases (done.map Algorithm.id).contains algorithm <;> rfl
  | some r =>
    obtain ⟨hr, ho⟩ := h.one.first?_iff.mp hfirst
    obtain ⟨ha, hg, hu⟩ := Result.isOpenIssue_iff.mp ho
    rw [Option.bind_some]
    by_cases hdone : (done.map Algorithm.id).contains algorithm = true
    · obtain ⟨g, hgdone, hid⟩ := List.mem_map.mp (List.contains_iff_mem.mp hdone)
      have hrecent : r.recent = true := h.recent g hgdone r hr (hid ▸ ho)
      have hout := (h.progress.saved r hr ha hrecent).2
      simp only [hout, if_false, Result.settle_issue, hu, if_true, hdone, List.foldl_nil,
        Option.map_some]
    · have hrecent : r.recent = false := by
        cases hrec : r.recent with
        | false => rfl
        | true =>
          obtain ⟨⟨g, hgdone, hby⟩, -⟩ := h.progress.saved r hr ha hrec
          have hmem : algorithm ∈ done.map Algorithm.id :=
            List.mem_map.mpr ⟨g, hgdone, hby.1.symm.trans hg⟩
          exact absurd (List.contains_iff_mem.mpr hmem) hdone
      -- a row that is not active is not changed by the sweep, listed or not
      have hissue : (if r.id ∈ pass.previouslyActive then r.deactivate else r).issue =
          { r.issue with failing := false } := by
        by_cases hin : r.id ∈ pass.previouslyActive
        · simp only [hin, if_true]
          rfl
        · have hact : r.active = false := by
            cases hact : r.active with
            | false => rfl
            | true => exact absurd (h.progress.active r hr ha hrecent hact) hin
          simp [hin, Result.issue, hact]
      rw [hissue, if_neg hdone]
      rfl

/-- A pass moves the issues of its asset by what it has observed, raised or not. -/
theorem checkAsset_issueAt (h : OneOpenIssue db.results) (order : IterationOrder Algorithm)
    (hchecked : OneOpenIssue (checkAsset db asset order attempts).db.results) :
    issueAt (checkAsset db asset order attempts).db.results asset.id algorithm =
      (db.passMoves asset order attempts algorithm).foldl Issue.next
        (issueAt db.results asset.id algorithm) := by
  obtain ⟨hstart, hcleared⟩ := h.clearRecent asset.id
  have hbegin : issueAt (Pass.start db.results asset.id).session asset.id algorithm =
      issueAt db.results asset.id algorithm := hcleared _ _
  rcases checkAsset_cases db asset order attempts with ⟨pass, e, hrun, he⟩ | ⟨pass, hrun, -, he⟩
  · have hmoved := (runAlgorithms_issueAt algorithm hstart hrun).2
    simp only [he, Db.passMoves, hrun, Option.isNone_some, Bool.false_and, Bool.false_eq_true,
      if_false, List.append_nil]
    rcases stored_of_executed hrun with ⟨hnothing, hpass⟩ | hstored
    · -- the loop raised at its first algorithm, and the cleared flags were rolled back
      rw [hnothing, hpass]
      rfl
    · rw [hstored, hmoved, hbegin]
  · have hmoved := (runAlgorithms_issueAt algorithm hstart hrun).2
    have hbegun : Traced db asset attempts [] (Pass.start db.results asset.id) :=
      ⟨Progress.start db asset attempts, hstart, by simp⟩
    have htraced := runAlgorithms_done (fun h hnew hx => Traced.execute h hnew hx) hbegun
      (db.visit_nodup asset order) hrun
    have hresults : (checkAsset db asset order attempts).db.results =
        deactivate pass.session pass.previouslyActive := by
      rw [he]
      exact Db.setHealth_results _ _ _
    rw [hresults] at hchecked ⊢
    rw [htraced.issueAt_swept hchecked, hmoved, hbegin, Db.passMoves, hrun,
      executed_of_completed hrun, List.foldl_append, List.nil_append]
    cases ((order.visit (db.toRun asset)).map Algorithm.id).contains algorithm <;> rfl

theorem checkAsset_issueAt_other (order : IterationOrder Algorithm) {other : Nat}
    (hne : asset.id ≠ other) :
    issueAt (checkAsset db asset order attempts).db.results other algorithm =
      issueAt db.results other algorithm := by
  have hopen : ∀ r : Result, r.isOpenIssue other algorithm = true →
      (r.assetId != asset.id) = true := by
    intro r ho
    rw [(Result.isOpenIssue_iff.mp ho).1]
    exact bne_iff_ne.mpr hne.symm
  simp only [issueAt, Table.first?, ← List.head?_filter]
  rw [filter_eq_of_imp (checkAsset_others db asset order attempts) hopen]

end Pass

theorem IssueForm.submitted_issue (form : IssueForm) (issues : List Result) (r : Result) :
    (form.submitted issues r).issue.settle = Issue.next (some r.issue) (form.decision issues r) := by
  by_cases hin : r.id ∈ issues.map Result.id <;> by_cases ha : some r.id ∈ form.acknowledge <;>
    simp only [IssueForm.submitted, IssueForm.decision, Issue.next, Result.issue, hin, ha, if_true,
      if_false, decide_true, decide_false, Option.isSome_some, Option.isSome_none, Option.getD_some,
      Option.getD_none, Bool.false_eq_true]

/-- A submit commits what its form makes of the results on its page, or it raises. -/
theorem Monitor.submission_cases (s : Monitor) {st : Step} {form : IssueForm}
    (h : st.form? = some form) :
    (∃ issues results, s.submission st = some (form, issues) ∧
      (∀ r ∈ issues, r ∈ s.db.results.rows ∧ r.unresolved = true) ∧
      submitIssues form s.db.results issues = some results ∧
      (s.step st).db.results = results) ∨
    s.submission st = none ∧ (s.step st).db.results = s.db.results := by
  cases st with
  | submitAll sites form' =>
    obtain rfl : form' = form := Option.some.inj h
    cases hs : submitIssues form' s.db.results (sites.flatMap s.db.getUnresolved) with
    | none =>
      right
      simp [submission, Monitor.step, unresolvedIssuesSubmitAll, hs]
    | some results =>
      left
      refine ⟨_, results, by simp [submission, unresolvedIssuesSubmitAll, hs], ?_, hs,
        by simp [Monitor.step, unresolvedIssuesSubmitAll, hs]⟩
      intro r hr
      obtain ⟨site, -, hr⟩ := List.mem_flatMap.mp hr
      exact ⟨(mem_getUnresolved.mp hr).1, (mem_getUnresolved.mp hr).2.1⟩
  | submitSite sitename form' =>
    obtain rfl : form' = form := Option.some.inj h
    cases hsite : s.db.sites.one? (fun site => site.name == sitename) with
    | none =>
      right
      simp [submission, Monitor.step, unresolvedIssuesSubmit, hsite]
    | some site =>
      cases hs : submitIssues form' s.db.results (s.db.getUnresolved site.id) with
      | none =>
        right
        simp [submission, Monitor.step, unresolvedIssuesSubmit, hsite, hs]
      | some results =>
        left
        refine ⟨_, results, by simp [submission, unresolvedIssuesSubmit, hsite, hs], ?_, hs,
          by simp [Monitor.step, unresolvedIssuesSubmit, hsite, hs]⟩
        intro r hr
        exact ⟨(mem_getUnresolved.mp hr).1, (mem_getUnresolved.mp hr).2.1⟩
  | submitAsset assetId form' =>
    obtain rfl : form' = form := Option.some.inj h
    cases hasset : s.db.assets.one? (fun a => a.id == assetId) with
    | none =>
      right
      simp [submission, Monitor.step, assetIssuesSubmit, hasset]
    | some asset =>
      cases hs : submitIssues form' s.db.results
        (s.db.results.rows.filter (fun r => r.assetId == asset.id && r.unresolved)) with
      | none =>
        right
        simp [submission, Monitor.step, assetIssuesSubmit, hasset, hs]
      | some results =>
        left
        refine ⟨_, results, by simp [submission, assetIssuesSubmit, hasset, hs], ?_, hs,
          by simp [Monitor.step, assetIssuesSubmit, hasset, hs]⟩
        intro r hr
        have hm := List.mem_filter.mp hr
        exact ⟨hm.1, (Bool.and_eq_true_iff.mp hm.2).2⟩
  | _ => exact absurd h.symm (Option.some_ne_none form)

theorem OneOpenIssue.step {s : Monitor} (h : OneOpenIssue s.db.results) (st : Step) :
    OneOpenIssue (s.step st).db.results := by
  have hrun : OneOpenIssue (run [st] s).db.results :=
    run_invariant (P := fun s => OneOpenIssue s.db.results) (A := fun _ => True)
      (fun _ _ _ => trivial) (fun _ hw hs => hs.write hw) (fun _ _ => trivial) h
  exact hrun

section Step

variable {s : Monitor} {asset algorithm : Nat} (h : OneOpenIssue s.db.results)

include h

theorem Monitor.issueAt_submit {st : Step} {form : IssueForm} (hst : st.form? = some form) :
    issueAt (s.step st).db.results asset algorithm =
      (match s.submission st, s.db.results.first? (Result.isOpenIssue asset algorithm) with
        | some (form, issues), some r => [form.decision issues r]
        | _, _ => []).foldl Issue.next (issueAt s.db.results asset algorithm) := by
  rcases s.submission_cases hst with ⟨issues, results, hsub, hissues, hs, hstep⟩ | ⟨hsub, hstep⟩
  · have hone := h.step st
    rw [hstep] at hone ⊢
    rw [hsub, h.issueAt_map hone (submitIssues_rows hs), issueAt]
    · cases s.db.results.first? (Result.isOpenIssue asset algorithm) with
      | none => rfl
      | some r =>
        rw [Option.bind_some, form.submitted_issue]
        rfl
    · intro r hr
      refine ⟨rfl, rfl, IssueForm.submitted_unresolved ?_⟩
      intro hm
      obtain ⟨issue, hi, hid⟩ := List.mem_map.mp hm
      rw [Table.eq_of_key_eq hr (hissues issue hi).1 hid.symm]
      exact (hissues issue hi).2
  · rw [hstep, hsub]
    rfl

theorem Monitor.issueAt_finish (swept : Nat) (previouslyActive : List Nat) (algorithmsRun : Nat) :
    issueAt (s.step (.finish swept previouslyActive algorithmsRun)).db.results asset algorithm =
      (s.moves asset algorithm (.finish swept previouslyActive algorithmsRun)).foldl Issue.next
        (issueAt s.db.results asset algorithm) := by
  have hone := h.step (.finish swept previouslyActive algorithmsRun)
  have hresults : (s.step (.finish swept previouslyActive algorithmsRun)).db.results =
      deactivate s.db.results previouslyActive := Db.setHealth_results _ _ _
  rw [hresults] at hone ⊢
  rw [h.issueAt_deactivate hone, Monitor.moves, issueAt]
  cases hfirst : s.db.results.first? (Result.isOpenIssue asset algorithm) with
  | none => rfl
  | some r =>
    have hu := (Result.isOpenIssue_iff.mp (h.first?_iff.mp hfirst).2).2.2
    by_cases hin : r.id ∈ previouslyActive
    · simp only [Option.bind_some, hin, if_true]
      rfl
    · simp [hin, Result.settle_issue, hu]

/-- What one step does to an issue. -/
theorem Monitor.issueAt_step (st : Step) :
    issueAt (s.step st).db.results asset algorithm =
      (s.moves asset algorithm st).foldl Issue.next (issueAt s.db.results asset algorithm) := by
  cases st with
  | clearRecent a => exact (h.clearRecent a).2 _ _
  | edit tables => rfl
  | execute a g attempt =>
    cases hreading : s.db.reading a g attempt with
    | none => simp [Monitor.step, Monitor.moves, Db.observations, hreading]
    | some reading =>
      simp only [Monitor.step, hreading, Monitor.save, Monitor.moves, Db.observations]
      rw [h.issueAt_save a g reading]
      split <;> rfl
  | finish swept previouslyActive algorithmsRun =>
    exact Monitor.issueAt_finish h swept previouslyActive algorithmsRun
  | check a order attempts =>
    have hone := h.step (.check a order attempts)
    by_cases ha : a.id = asset
    · subst ha
      simp only [Monitor.moves, if_true]
      exact checkAsset_issueAt h order hone
    · simp only [Monitor.moves, if_neg ha, List.foldl_nil]
      exact checkAsset_issueAt_other order ha
  | submitAll sites form => exact Monitor.issueAt_submit h rfl
  | submitSite sitename form => exact Monitor.issueAt_submit h rfl
  | submitAsset assetId form => exact Monitor.issueAt_submit h rfl

end Step

theorem issueAt_run {s : Monitor} (h : OneOpenIssue s.db.results) (steps : List Step)
    (asset algorithm : Nat) :
    issueAt (run steps s).db.results asset algorithm =
      (journal asset algorithm s steps).foldl Issue.next (issueAt s.db.results asset algorithm) := by
  induction steps generalizing s with
  | nil => rfl
  | cons st rest ih =>
    rw [journal, List.foldl_append, ← Monitor.issueAt_step h st]
    exact ih (h.step st)

/-- However checks, sweeps and submits interleave, the result table shows for an asset and
an algorithm the issue that the tracker comes to from what happened to it. -/
theorem run_follows_tracker (db : Db) (steps : List Step) (asset algorithm : Nat) :
    issueAt (run steps (.fresh db)).db.results asset algorithm =
      (journal asset algorithm (.fresh db) steps).foldl Issue.next none := by
  have hfresh : OneOpenIssue (Monitor.fresh db).db.results :=
    fun r hr => absurd hr (List.not_mem_nil)
  exact issueAt_run hfresh steps asset algorithm

end Medusa
