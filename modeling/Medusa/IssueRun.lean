import Medusa.Acknowledge
import Medusa.CheckAsset

/-! Runs of the monitoring system: checks of assets, submits by users and edits
of the other tables, in any order. A check appears both as a whole pass and as
the transactions it commits one by one, so that a submit may come between two
transactions of a check. A step that is not a pass either saves one result or
rewrites each row of the result table on its own; the invariants are proved for
these two kinds of writes. -/

namespace Medusa

open Relational

structure Monitor where
  db : Db
  log : List Event

inductive Step
  | clearRecent (asset : Nat)
  | execute (asset : Asset) (algorithm : Algorithm) (attempt : Attempt)
  | finish (asset : Nat) (previouslyActive : List Nat) (algorithmsRun : Nat)
  | check (asset : Asset) (order : IterationOrder Algorithm) (attempts : Algorithm → Attempt)
  | submitAll (sites : List Nat) (form : IssueForm)
  | submitSite (sitename : String) (form : IssueForm)
  | submitAsset (assetId : Nat) (form : IssueForm)
  | edit (tables : Db)

def Monitor.save (s : Monitor) (asset : Asset) (algorithm : Algorithm) (reading : Reading)
    (transport : Transport) : Monitor :=
  { db := { s.db with results := (saveResult s.db.results asset algorithm reading).1 }
    log := s.log ++ (handleResult s.db transport asset algorithm
      (saveResult s.db.results asset algorithm reading).2).1 }

def Monitor.step (s : Monitor) : Step → Monitor
  | .clearRecent asset =>
    { s with db := { s.db with results := Medusa.clearRecent s.db.results asset } }
  | .execute asset algorithm attempt =>
    match s.db.reading asset algorithm attempt with
    | none => s
    | some reading => s.save asset algorithm reading attempt.transport
  | .finish asset previouslyActive algorithmsRun =>
    { s with
      db := { s.db with results := deactivate s.db.results previouslyActive }.setHealth asset
        algorithmsRun }
  | .check asset order attempts =>
    let checked := checkAsset s.db asset order attempts
    ⟨checked.db, s.log ++ checked.log⟩
  -- a submit that raises commits nothing
  | .submitAll sites form =>
    { s with db := (unresolvedIssuesSubmitAll s.db sites form).getD s.db }
  | .submitSite sitename form =>
    { s with db := (unresolvedIssuesSubmit s.db sitename form).getD s.db }
  | .submitAsset assetId form =>
    { s with db := (assetIssuesSubmit s.db assetId form).getD s.db }
  | .edit tables => { s with db := { tables with results := s.db.results } }

def run (steps : List Step) (s : Monitor) : Monitor := steps.foldl Monitor.step s

def Monitor.fresh (db : Db) : Monitor := ⟨{ db with results := .empty }, []⟩

def Step.form? : Step → Option IssueForm
  | .submitAll _ form | .submitSite _ form | .submitAsset _ form => some form
  | _ => none

def Step.acknowledges (st : Step) (id : Nat) : Prop :=
  ∃ form, st.form? = some form ∧ some id ∈ form.acknowledge

/-- The step may set the acknowledged state of the result to `b`: a submit takes
it away from any result and gives it to those it lists. -/
def Step.sets (st : Step) (b : Bool) (id : Nat) : Prop :=
  st.form?.isSome ∧ (b = true → st.acknowledges id)

def Step.isEdit : Step → Bool
  | .edit _ => true
  | _ => false

def Step.isPass : Step → Bool
  | .check _ _ _ => true
  | _ => false

/-- What a step that saves nothing may do to a row. -/
structure Result.Rewritten (st : Step) (r r' : Result) : Prop where
  id : r'.id = r.id
  assetId : r'.assetId = r.assetId
  algorithmId : r'.algorithmId = r.algorithmId
  priority : r'.priority = r.priority
  occurances : r'.occurances = r.occurances
  unresolved : r'.unresolved = true → r.unresolved = true
  acknowledged : ∀ b, r'.acknowledged = b → r.acknowledged = b ∨ st.sets b r.id

theorem Result.Rewritten.refl (st : Step) (r : Result) : r.Rewritten st r :=
  ⟨rfl, rfl, rfl, rfl, rfl, fun h => h, fun _ h => Or.inl h⟩

/-- Only the health of assets changes besides the results. -/
structure Db.KeepsConfig (db db' : Db) : Prop where
  sites : db'.sites = db.sites
  assets : ∀ a ∈ db'.assets.rows, ∃ a₀ ∈ db.assets.rows, a = a₀ ∨ a = a₀.setUnhealthy

theorem Db.KeepsConfig.of_eq {db db' : Db} (hsites : db'.sites = db.sites)
    (hassets : db'.assets = db.assets) : db.KeepsConfig db' := by
  refine ⟨hsites, ?_⟩
  intro a ha
  rw [hassets] at ha
  exact ⟨a, ha, Or.inl rfl⟩

theorem Db.KeepsConfig.setHealth (db : Db) (asset algorithmsRun : Nat) :
    db.KeepsConfig (db.setHealth asset algorithmsRun) := by
  unfold Db.setHealth
  split
  · exact .of_eq rfl rfl
  · refine ⟨rfl, ?_⟩
    intro a ha
    obtain ⟨a₀, ha₀, rfl⟩ := List.mem_map.mp ha
    refine ⟨a₀, ha₀, ?_⟩
    split
    · exact Or.inr rfl
    · exact Or.inl rfl

inductive Write (st : Step) (s : Monitor) : Monitor → Prop
  | rewrite (tables : Db) (f : Result → Result)
      (hrows : tables.results.rows = s.db.results.rows.map f)
      (hf : ∀ r ∈ s.db.results.rows, r.Rewritten st (f r))
      (hconfig : st.isEdit = false → s.db.KeepsConfig tables) : Write st s ⟨tables, s.log⟩
  | save (asset : Asset) (algorithm : Algorithm) (reading : Reading) (attempt : Attempt)
      (hst : st = .execute asset algorithm attempt) :
      Write st s (s.save asset algorithm reading attempt.transport)

theorem Write.keep {st : Step} {s : Monitor} {tables : Db} (h : tables.results = s.db.results)
    (hconfig : st.isEdit = false → s.db.KeepsConfig tables) : Write st s ⟨tables, s.log⟩ := by
  refine Write.rewrite tables id (by simp [h]) ?_ hconfig
  intro r _
  exact Result.Rewritten.refl st r

theorem Write.clearRecent (s : Monitor) (asset : Nat) :
    Write (.clearRecent asset) s (s.step (.clearRecent asset)) := by
  refine Write.rewrite _ _ rfl ?_ (fun _ => .of_eq rfl rfl)
  intro r _
  split
  · exact ⟨rfl, rfl, rfl, rfl, rfl, fun h => h, fun _ h => Or.inl h⟩
  · exact Result.Rewritten.refl _ r

theorem Write.finish (s : Monitor) (asset : Nat) (previouslyActive : List Nat)
    (algorithmsRun : Nat) : Write (.finish asset previouslyActive algorithmsRun) s
      (s.step (.finish asset previouslyActive algorithmsRun)) := by
  refine Write.rewrite _ _ (congrArg Table.rows (Db.setHealth_results _ _ _)) ?_ ?_
  · intro r _
    split
    · refine ⟨rfl, rfl, rfl, rfl, rfl, ?_, fun _ h => Or.inl h⟩
      intro h
      have hack : r.acknowledged = false := by
        simpa [Result.unresolved, Result.deactivate] using h
      simp [Result.unresolved, hack]
    · exact Result.Rewritten.refl _ r
  · intro _
    have hh := Db.KeepsConfig.setHealth
      { s.db with results := deactivate s.db.results previouslyActive } asset algorithmsRun
    exact ⟨hh.sites, hh.assets⟩

theorem Write.submit {st : Step} {s : Monitor} {form : IssueForm} {outcome : Option Db}
    (hform : st.form? = some form)
    (h : ∀ db', outcome = some db' → form.Commits s.db db') :
    Write st s { s with db := outcome.getD s.db } := by
  cases outcome with
  | none => exact Write.keep rfl (fun _ => .of_eq rfl rfl)
  | some db' =>
    obtain ⟨issues, results, hissues, hs, rfl⟩ := h db' rfl
    refine Write.rewrite _ (form.submitted issues) (submitIssues_rows hs) ?_
      (fun _ => .of_eq rfl rfl)
    intro r hr
    refine ⟨rfl, rfl, rfl, rfl, rfl, ?_, ?_⟩
    · apply IssueForm.submitted_unresolved
      intro hm
      obtain ⟨issue, hi, hid⟩ := List.mem_map.mp hm
      have hh := hissues issue hi
      rw [Table.eq_of_key_eq hr hh.1 hid.symm]
      exact hh.2
    · intro b hb
      by_cases hack : r.acknowledged = b
      · exact Or.inl hack
      · refine Or.inr ⟨by simp [hform], ?_⟩
        intro htrue
        subst htrue
        rcases IssueForm.submitted_acknowledged hb with hm | hm
        · exact ⟨form, hform, hm⟩
        · exact absurd hm hack

theorem Write.of_step (s : Monitor) {st : Step} (h : st.isPass = false) :
    Write st s (s.step st) := by
  cases st with
  | clearRecent asset => exact Write.clearRecent s asset
  | execute asset algorithm attempt =>
    simp only [Monitor.step]
    split
    · exact Write.keep rfl (fun _ => .of_eq rfl rfl)
    · exact Write.save asset algorithm _ attempt rfl
  | finish asset previouslyActive algorithmsRun =>
    exact Write.finish s asset previouslyActive algorithmsRun
  | check asset order attempts => simp [Step.isPass] at h
  | submitAll sites form => exact Write.submit rfl (fun _ hc => IssueForm.commits_all hc)
  | submitSite sitename form => exact Write.submit rfl (fun _ hc => IssueForm.commits_site hc)
  | submitAsset assetId form => exact Write.submit rfl (fun _ hc => IssueForm.commits_asset hc)
  | edit tables => exact Write.keep rfl (fun h => by simp [Step.isEdit] at h)

def Pass.monitor (s : Monitor) (pass : Pass) : Monitor :=
  ⟨{ s.db with results := pass.session }, s.log ++ pass.log⟩

theorem Pass.execute_step {s : Monitor} {asset : Asset} {pass pass' : Pass}
    {algorithm : Algorithm} {attempt : Attempt} {e : Option Exn}
    (h : pass.execute s.db asset algorithm attempt = (pass', e)) :
    pass' = pass ∨ (pass'.stored = pass'.session ∧
      pass'.monitor s = (pass.monitor s).step (.execute asset algorithm attempt)) := by
  have hdb : (pass.monitor s).db.reading asset algorithm attempt =
      s.db.reading asset algorithm attempt := rfl
  rcases Pass.execute_cases h with ⟨-, hp, -⟩ | ⟨reading, hr, hsession, hstored, hlog, -⟩
  · exact Or.inl hp
  · refine Or.inr ⟨hstored.trans hsession.symm, ?_⟩
    have hstep : (pass.monitor s).step (.execute asset algorithm attempt) =
        (pass.monitor s).save asset algorithm reading attempt.transport := by
      simp only [Monitor.step, hdb, hr]
    rw [hstep]
    simp only [Pass.monitor, hsession, hlog]
    exact congrArg (Monitor.mk _) (List.append_assoc _ _ _).symm

theorem run_append (steps steps' : List Step) (s : Monitor) :
    run (steps ++ steps') s = run steps' (run steps s) :=
  List.foldl_append

theorem runAlgorithms_steps {s : Monitor} {asset : Asset} {attempts : Algorithm → Attempt}
    {algorithms : List Algorithm} {pass pass' : Pass} {e : Option Exn}
    (h : runAlgorithms s.db asset attempts pass algorithms = (pass', e)) :
    ∃ done : List Algorithm,
      pass'.monitor s = run (done.map (fun g => .execute asset g (attempts g))) (pass.monitor s) ∧
      (pass' = pass ∨ pass'.stored = pass'.session) := by
  refine runAlgorithms_invariant (P := fun pass' => ∃ done : List Algorithm,
    pass'.monitor s = run (done.map (fun g => .execute asset g (attempts g))) (pass.monitor s) ∧
      (pass' = pass ∨ pass'.stored = pass'.session)) ?_ h ⟨[], rfl, Or.inl rfl⟩
  intro middle pass' g e he hm
  rcases Pass.execute_step he with rfl | ⟨hstored, hstep⟩
  · exact hm
  · obtain ⟨done, hrun, -⟩ := hm
    refine ⟨done ++ [g], ?_, Or.inr hstored⟩
    rw [List.map_append, run_append, ← hrun]
    exact hstep

def Step.partOf (asset : Asset) (attempts : Algorithm → Attempt) : Step → Prop
  | .clearRecent id => id = asset.id
  | .execute a g attempt => a = asset ∧ attempt = attempts g
  | .finish id _ _ => id = asset.id
  | _ => False

theorem check_steps (s : Monitor) (asset : Asset) (order : IterationOrder Algorithm)
    (attempts : Algorithm → Attempt) :
    ∃ steps : List Step, s.step (.check asset order attempts) = run steps s ∧
      ∀ st ∈ steps, st.partOf asset attempts := by
  have hexecute : ∀ done : List Algorithm, ∀ st ∈ Step.clearRecent asset.id ::
      done.map (fun g => Step.execute asset g (attempts g)), st.partOf asset attempts := by
    intro done st hst
    rcases List.mem_cons.mp hst with rfl | hst
    · exact rfl
    · obtain ⟨g, -, rfl⟩ := List.mem_map.mp hst
      exact ⟨rfl, rfl⟩
  have hstart : (Pass.start s.db.results asset.id).monitor s = s.step (.clearRecent asset.id) := by
    simp [Pass.monitor, Pass.start, Monitor.step]
  simp only [Monitor.step, checkAsset]
  split
  · next pass e he =>
    obtain ⟨done, hrun, hlast⟩ := runAlgorithms_steps he
    rcases hlast with hm | hstored
    · -- nothing was committed
      refine ⟨[], ?_, by simp⟩
      simp [hm, Pass.start, run]
    · refine ⟨.clearRecent asset.id :: done.map (fun g => .execute asset g (attempts g)), ?_,
        hexecute done⟩
      rw [hstart] at hrun
      rw [hstored]
      exact hrun
  · next pass he =>
    obtain ⟨done, hrun, -⟩ := runAlgorithms_steps he
    refine ⟨(.clearRecent asset.id :: done.map (fun g => .execute asset g (attempts g))) ++
      [.finish asset.id pass.previouslyActive pass.algorithmsRun], ?_, ?_⟩
    · rw [hstart] at hrun
      have hrun' : run (.clearRecent asset.id :: done.map (fun g => .execute asset g (attempts g)))
          s = pass.monitor s := hrun.symm
      rw [run_append, hrun']
      rfl
    · intro st hst
      rcases List.mem_append.mp hst with hst | hst
      · exact hexecute done st hst
      · rw [List.mem_singleton.mp hst]
        exact rfl

theorem Step.partOf.isPass {asset : Asset} {attempts : Algorithm → Attempt} {st : Step}
    (h : st.partOf asset attempts) : st.isPass = false := by
  cases st with
  | check asset order attempts => exact h.elim
  | _ => rfl

theorem Step.partOf.form? {asset : Asset} {attempts : Algorithm → Attempt} {st : Step}
    (h : st.partOf asset attempts) : st.form? = none := by
  cases st with
  | submitAll sites form => exact h.elim
  | submitSite sitename form => exact h.elim
  | submitAsset assetId form => exact h.elim
  | _ => rfl

/-- An invariant of runs whose steps are all in `A`, from the writes alone. With
a pass, `A` has to contain its transactions. -/
theorem run_invariant {P : Monitor → Prop} {A : Step → Prop}
    (hA : ∀ {asset order attempts}, A (.check asset order attempts) →
      ∀ st : Step, st.partOf asset attempts → A st)
    (hwrite : ∀ {st : Step} {s s' : Monitor}, A st → Write st s s' → P s → P s')
    {steps : List Step} (hsteps : ∀ st ∈ steps, A st) {s : Monitor} (hs : P s) :
    P (run steps s) := by
  have hrun : ∀ (steps : List Step) (s : Monitor), (∀ st ∈ steps, st.isPass = false ∧ A st) →
      P s → P (run steps s) := by
    intro steps
    induction steps with
    | nil => exact fun s _ hs => hs
    | cons st rest ih =>
      intro s h hs
      have hst := h st List.mem_cons_self
      exact ih _ (fun st' hst' => h st' (List.mem_cons_of_mem st hst'))
        (hwrite hst.2 (Write.of_step s hst.1) hs)
  induction steps generalizing s with
  | nil => exact hs
  | cons st rest ih =>
    have hst : A st := hsteps st List.mem_cons_self
    refine ih (fun st' hst' => hsteps st' (List.mem_cons_of_mem st hst')) ?_
    cases hp : st.isPass with
    | false => exact hwrite hst (Write.of_step s hp) hs
    | true =>
      cases st with
      | check asset order attempts =>
        obtain ⟨inner, he, hinner⟩ := check_steps s asset order attempts
        rw [he]
        refine hrun inner s ?_ hs
        intro st' hst'
        exact ⟨(hinner st' hst').isPass, hA hst st' (hinner st' hst')⟩
      | _ => simp [Step.isPass] at hp

end Medusa
