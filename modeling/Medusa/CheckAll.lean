import Medusa.IssueRun

/-! `check_all`, the scheduled check of every asset, and what a failing e-mail
does to it. The first exception ends the loop.

The session is closed at the end of `check_asset`. The assets that `check_all`
has loaded were expired by the commit before that, so reading the next one from
its detached object raises. Whether this happens depends on the session that the
objects belong to, and is a parameter: with `detaches` only the first asset of a
call is checked. -/

namespace Medusa

open Relational

structure Round where
  order : Asset → IterationOrder Algorithm
  attempts : Asset → Algorithm → Attempt

def checkAssets (detaches : Bool) (round : Round) (db : Db) : List Asset → Checked
  | [] => ⟨db, [], none⟩
  | asset :: rest =>
    let checked := checkAsset db asset (round.order asset) (round.attempts asset)
    match checked.raised with
    | some e => ⟨checked.db, checked.log, some e⟩
    | none =>
      if detaches && !rest.isEmpty then ⟨checked.db, checked.log, some .detachedInstance⟩
      else
        let others := checkAssets detaches round checked.db rest
        ⟨others.db, checked.log ++ others.log, others.raised⟩

def checkAll (detaches : Bool) (round : Round) (db : Db) : Checked :=
  checkAssets detaches round db db.assets.rows

/-- A call of `check_all` and the mapping that it starts from: the listener may
have mapped assets again since the call before. -/
structure Call where
  mapping : Finset (Nat × Nat)
  round : Round

def Monitor.remap (s : Monitor) (mapping : Finset (Nat × Nat)) : Monitor :=
  ⟨{ s.db with algoAssetMapping := mapping }, s.log⟩

def Monitor.checkAll (detaches : Bool) (s : Monitor) (call : Call) : Monitor :=
  let checked := Medusa.checkAll detaches call.round (s.remap call.mapping).db
  ⟨checked.db, s.log ++ checked.log⟩

def runCalls (detaches : Bool) (calls : List Call) (s : Monitor) : Monitor :=
  calls.foldl (Monitor.checkAll detaches) s

theorem checkAssets_steps (detaches : Bool) (round : Round) (assets : List Asset) (s : Monitor) :
    ∃ steps : List Step,
      ⟨(checkAssets detaches round s.db assets).db,
        s.log ++ (checkAssets detaches round s.db assets).log⟩ = run steps s ∧
      ∀ st ∈ steps, ∃ a ∈ assets, st = .check a (round.order a) (round.attempts a) := by
  induction assets generalizing s with
  | nil => exact ⟨[], by simp [checkAssets, run], by simp⟩
  | cons asset rest ih =>
    let checked := checkAsset s.db asset (round.order asset) (round.attempts asset)
    let first : Step := .check asset (round.order asset) (round.attempts asset)
    have hfirst : s.step first = ⟨checked.db, s.log ++ checked.log⟩ := rfl
    have hmem : ∀ st ∈ [first], ∃ a ∈ asset :: rest,
        st = .check a (round.order a) (round.attempts a) := by
      intro st hst
      exact ⟨asset, List.mem_cons_self, List.mem_singleton.mp hst⟩
    simp only [checkAssets]
    split
    · exact ⟨[first], hfirst.symm, hmem⟩
    · split
      · exact ⟨[first], hfirst.symm, hmem⟩
      · obtain ⟨steps, hrun, hsteps⟩ := ih (s.step first)
        refine ⟨first :: steps, ?_, ?_⟩
        · show _ = run steps (s.step first)
          rw [← hrun, hfirst, List.append_assoc]
        · intro st hst
          rcases List.mem_cons.mp hst with rfl | hst
          · exact ⟨asset, List.mem_cons_self, rfl⟩
          · obtain ⟨a, ha, he⟩ := hsteps st hst
            exact ⟨a, List.mem_cons_of_mem asset ha, he⟩

/-- Every active failure below the e-mail trigger of its site has been mailed to
all addresses of the site. -/
def AllMailed (s : Monitor) : Prop :=
  ∀ r ∈ s.db.results.rows, r.active = true → r.passed = false →
    ∀ a ∈ s.db.assets.rows, a.id = r.assetId → ∀ site, s.db.siteOf a = some site →
      r.priority < site.emailTriggerPriority →
        ∀ address ∈ site.emails, ∃ data, .mail r.id address data ∈ s.log

/-- The invariant behind `AllMailed` in runs that leave sites and assets of `db`
alone: it holds of every unresolved result. -/
structure Mailed (db : Db) (s : Monitor) : Prop where
  config : db.KeepsConfig s.db
  mailed : ∀ r ∈ s.db.results.rows, r.unresolved = true →
    ∀ a ∈ db.assets.rows, a.id = r.assetId → ∀ site, db.siteOf a = some site →
      r.priority < site.emailTriggerPriority →
        ∀ address ∈ site.emails, ∃ data, .mail r.id address data ∈ s.log

def Db.hasAsset (db : Db) (asset : Asset) : Prop :=
  ∃ a ∈ db.assets.rows, asset = a ∨ asset = a.setUnhealthy

theorem Db.hasAsset.row {db : Db} {asset a : Asset} (h : db.hasAsset asset)
    (ha : a ∈ db.assets.rows) (hid : a.id = asset.id) :
    asset.siteId = a.siteId ∧ asset.priority = a.priority := by
  obtain ⟨a₀, ha₀, he⟩ := h
  have hid₀ : a.id = a₀.id := by
    rcases he with rfl | rfl
    · exact hid
    · exact hid
  rw [Table.eq_of_key_eq ha ha₀ hid₀]
  rcases he with rfl | rfl
  · exact ⟨rfl, rfl⟩
  · exact ⟨rfl, rfl⟩

theorem Db.KeepsConfig.trans {db db' db'' : Db} (h : db.KeepsConfig db')
    (h' : db'.KeepsConfig db'') : db.KeepsConfig db'' := by
  refine ⟨h'.sites.trans h.sites, ?_⟩
  intro a ha
  obtain ⟨a', ha', he'⟩ := h'.assets a ha
  obtain ⟨a₀, ha₀, he⟩ := h.assets a' ha'
  refine ⟨a₀, ha₀, ?_⟩
  rcases he' with rfl | rfl
  · exact he
  · rcases he with rfl | rfl
    · exact Or.inr rfl
    · exact Or.inr rfl

def Step.mails (db : Db) : Step → Prop
  | .execute asset _ attempt => attempt.transport.mailFailure = none ∧ db.hasAsset asset
  | .check asset _ attempts =>
    (∀ g, (attempts g).transport.mailFailure = none) ∧ db.hasAsset asset
  | .edit _ => False
  | _ => True

theorem Step.mails.of_partOf {db : Db} {asset : Asset} {order : IterationOrder Algorithm}
    {attempts : Algorithm → Attempt} (h : (Step.check asset order attempts).mails db) (st : Step)
    (hst : st.partOf asset attempts) : st.mails db := by
  cases st with
  | execute a g attempt =>
    obtain ⟨rfl, rfl⟩ := hst
    exact ⟨h.1 g, h.2⟩
  | check a order attempts => exact hst.elim
  | edit tables => exact hst.elim
  | _ => exact trivial

theorem Mailed.save {db : Db} {s : Monitor} (h : Mailed db s) {asset : Asset}
    (algorithm : Algorithm) (reading : Reading) {transport : Transport}
    (hasset : db.hasAsset asset) (hmail : transport.mailFailure = none) :
    Mailed db (s.save asset algorithm reading transport) := by
  refine ⟨⟨h.config.sites, h.config.assets⟩, ?_⟩
  intro r hr hu a ha hid site hsite hp address haddress
  simp only [Monitor.save, List.mem_append]
  have hold : (∃ data, .mail r.id address data ∈ s.log) → ∃ data, .mail r.id address data ∈ s.log ∨
      .mail r.id address data ∈ (handleResult s.db transport asset algorithm
        (saveResult s.db.results asset algorithm reading).2).1 := by
    intro hm
    obtain ⟨data, hm⟩ := hm
    exact ⟨data, Or.inl hm⟩
  rcases (mem_saveResult s.db.results asset algorithm reading).mp hr with rfl | ⟨hr, -⟩
  · rw [saveResult_assetId] at hid
    rcases saveResult_origin s.db.results asset algorithm reading with ⟨r₀, hr₀, ho, he⟩ | ⟨-, he⟩
    · rw [he] at hp hold ⊢
      have hopen := Result.isOpenIssue_iff.mp ho
      exact hold (h.mailed r₀ hr₀ hopen.2.2 a ha (hid.trans hopen.1.symm) site hsite hp address
        haddress)
    · have hpassed : reading.passed = false := by
        rw [he] at hu
        simpa [Result.unresolved, Result.firstSaved, Result.create] using hu
      rw [he] at hp ⊢
      have hsiteOf : s.db.siteOf asset = some site := by
        have hrow := hasset.row ha hid
        simpa only [Db.siteOf, h.config.sites, hrow.1] using hsite
      exact ⟨_, Or.inr (handleResult_mail hsiteOf hpassed rfl hp hmail haddress)⟩
  · exact hold (h.mailed r hr hu a ha hid site hsite hp address haddress)

theorem Mailed.write {db : Db} {st : Step} {s s' : Monitor} (hst : st.mails db)
    (hw : Write st s s') (h : Mailed db s) : Mailed db s' := by
  cases hw with
  | rewrite tables f hrows hf hconfig =>
    have hedit : st.isEdit = false := by
      cases st with
      | edit tables => exact hst.elim
      | _ => rfl
    refine ⟨h.config.trans (hconfig hedit), ?_⟩
    intro r hr hu a ha hid site hsite hp address haddress
    simp only [hrows, List.mem_map] at hr
    obtain ⟨r₀, hr₀, rfl⟩ := hr
    have hrow := hf r₀ hr₀
    rw [hrow.assetId] at hid
    rw [hrow.priority] at hp
    rw [hrow.id]
    exact h.mailed r₀ hr₀ (hrow.unresolved hu) a ha hid site hsite hp address haddress
  | save asset algorithm reading attempt he =>
    subst he
    exact h.save algorithm reading hst.2 hst.1

theorem Mailed.remap {db : Db} {s : Monitor} (h : Mailed db s) (mapping : Finset (Nat × Nat)) :
    Mailed db (s.remap mapping) :=
  ⟨⟨h.config.sites, h.config.assets⟩, h.mailed⟩

theorem Mailed.checkAll {db : Db} {s : Monitor} (detaches : Bool) {call : Call}
    (hcall : ∀ a g, (call.round.attempts a g).transport.mailFailure = none) (h : Mailed db s) :
    Mailed db (s.checkAll detaches call) := by
  obtain ⟨steps, hrun, hsteps⟩ :=
    checkAssets_steps detaches call.round s.db.assets.rows (s.remap call.mapping)
  have heq : s.checkAll detaches call = run steps (s.remap call.mapping) := hrun
  rw [heq]
  refine run_invariant (A := fun st => st.mails db) Step.mails.of_partOf
    (fun hst hw hs => hs.write hst hw) ?_ (h.remap call.mapping)
  intro st hst
  obtain ⟨a, ha, rfl⟩ := hsteps st hst
  exact ⟨hcall a, h.config.assets a ha⟩

theorem Mailed.allMailed {db : Db} {s : Monitor} (h : Mailed db s) : AllMailed s := by
  intro r hr hact _ a ha hid site hsite hp address haddress
  obtain ⟨a₀, ha₀, he⟩ := h.config.assets a ha
  have hid₀ : a₀.id = a.id ∧ a.siteId = a₀.siteId := by
    rcases he with rfl | rfl
    · exact ⟨rfl, rfl⟩
    · exact ⟨rfl, rfl⟩
  rw [Db.siteOf, h.config.sites, hid₀.2] at hsite
  exact h.mailed r hr (by simp [Result.unresolved, hact]) a₀ ha₀ (hid₀.1.trans hid) site hsite hp
    address haddress

/-- Runs of `check_all` in which no e-mail fails lose no e-mail, whatever else
raises. -/
theorem runCalls_allMailed (detaches : Bool) (db : Db) {calls : List Call}
    (hcalls : ∀ call ∈ calls, ∀ a g,
      (call.round.attempts a g).transport.mailFailure = none) :
    AllMailed (runCalls detaches calls (.fresh db)) := by
  have hrun : ∀ (calls : List Call) (s : Monitor),
      (∀ call ∈ calls, ∀ a g, (call.round.attempts a g).transport.mailFailure = none) →
      Mailed db s → Mailed db (runCalls detaches calls s) := by
    intro calls
    induction calls with
    | nil => exact fun s _ hs => hs
    | cons call rest ih =>
      intro s h hs
      exact ih _ (fun call' hr => h call' (List.mem_cons_of_mem call hr))
        (hs.checkAll detaches (h call List.mem_cons_self))
  refine (hrun calls _ hcalls ⟨.of_eq rfl rfl, ?_⟩).allMailed
  intro r hr
  simp [Monitor.fresh] at hr

theorem runCalls_allMailed_plant :
    AllMailed (runCalls false [⟨{(1, 1)}, ⟨fun _ => .listed Algorithm, fun _ _ => fanFailure⟩⟩]
      (.fresh plant)) :=
  runCalls_allMailed false plant (by
    intro call hcall
    rw [List.mem_singleton.mp hcall]
    exact fun _ _ => rfl)

/-- The e-mail for a new failure is not sent, and the next pass counts the
failure as a known one. -/
theorem runCalls_mail_lost :
    let failing : Round :=
      ⟨fun _ => .listed Algorithm, fun _ _ => { fanFailure with transport := ⟨some 0, .delivered⟩ }⟩
    let clean : Round := ⟨fun _ => .listed Algorithm, fun _ _ => fanFailure⟩
    (∀ a g, (clean.attempts a g).transport = .reliable) ∧
      ∀ detaches, ¬ AllMailed
        (runCalls detaches [⟨{(1, 1)}, failing⟩, ⟨{(1, 1)}, clean⟩] (.fresh plant)) := by
  refine ⟨fun _ _ => rfl, ?_⟩
  intro detaches h
  cases detaches with
  | false =>
    obtain ⟨data, hm⟩ := h _ List.mem_cons_self rfl rfl fanUnit List.mem_cons_self rfl plantSite rfl
      (by decide) "operator" List.mem_cons_self
    have hlog : .mail 1 "operator" data ∈ [Event.notify 1] := hm
    simp at hlog
  | true =>
    obtain ⟨data, hm⟩ := h _ List.mem_cons_self rfl rfl fanUnit List.mem_cons_self rfl plantSite rfl
      (by decide) "operator" List.mem_cons_self
    have hlog : .mail 1 "operator" data ∈ [Event.notify 1] := hm
    simp at hlog

end Medusa
