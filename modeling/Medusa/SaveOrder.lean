import Medusa.Contents
import Medusa.Notify

/-! Results up to generated ids and timestamps. Saving the outcome of one pair of an asset
and an algorithm puts one row in the place of the open issue of the pair, if there is one.
What is put does not depend on what has been saved for other pairs. -/

namespace Medusa

open Relational

/-- The same outcome at another time. -/
def Reading.at (reading : Reading) (clock : Nat × Nat) : Reading :=
  { reading with
    created := clock.1
    now := clock.2 }

def Result.anonymous (r : Result) : Result :=
  { r with
    id := 0
    firstTimestamp := 0
    recentTimestamp := 0 }

def Result.ofPair (asset algorithm : Nat) (r : Result) : Bool :=
  r.assetId == asset && r.algorithmId == algorithm

abbrev Result.contentSince (before : Results) (r : Result) : Option Nat × Result :=
  Table.contentOf Result.id (before.rows.map Result.id) Result.anonymous r

abbrev resultContents (before results : Results) : Multiset (Option Nat × Result) :=
  results.contents (before.rows.map Result.id) Result.anonymous

/-- Since `before` nothing was saved for the pair and no row was deleted. -/
structure Undisturbed (before results : Results) (asset algorithm : Nat) : Prop where
  pair : results.rows.filter (Result.ofPair asset algorithm) =
    before.rows.filter (Result.ofPair asset algorithm)
  kept : ∀ r ∈ before.rows, ∃ r' ∈ results.rows, r'.id = r.id

theorem Undisturbed.refl (before : Results) (asset algorithm : Nat) :
    Undisturbed before before asset algorithm :=
  ⟨rfl, fun r hr => ⟨r, hr, rfl⟩⟩

section

variable {before results : Results} {asset asset' : Asset} {algorithm algorithm' : Algorithm}

theorem Undisturbed.save (h : Undisturbed before results asset.id algorithm.id)
    (hne : ¬ (asset'.id = asset.id ∧ algorithm'.id = algorithm.id)) (reading : Reading) :
    Undisturbed before (saveResult results asset' algorithm' reading).1 asset.id algorithm.id := by
  constructor
  · rw [← h.pair]
    apply saveResult_filter_other
    intro r hr ha hg
    rw [Result.ofPair, Bool.and_eq_true, beq_iff_eq, beq_iff_eq] at hr
    exact hne ⟨ha.symm.trans hr.1, hg.symm.trans hr.2⟩
  · intro r hr
    obtain ⟨r', hr', hid⟩ := h.kept r hr
    rcases saveResult_keeps results asset' algorithm' reading hr' with hkept | hrecorded
    · exact ⟨r', hkept, hid⟩
    · exact ⟨_, hrecorded, hid⟩

theorem Undisturbed.first? (h : Undisturbed before results asset.id algorithm.id) :
    results.first? (Result.isOpenIssue asset.id algorithm.id) =
      before.first? (Result.isOpenIssue asset.id algorithm.id) := by
  have hopen : ∀ t : Results, t.first? (Result.isOpenIssue asset.id algorithm.id) =
      (t.rows.filter (Result.ofPair asset.id algorithm.id)).find? Result.unresolved := by
    intro t
    rw [List.find?_filter, Table.first?]
    congr 1
    funext r
    rw [Bool.eq_iff_iff]
    simp [Result.isOpenIssue, Result.ofPair]
  rw [hopen, hopen, h.pair]

theorem Undisturbed.nextKey (h : Undisturbed before results asset.id algorithm.id) :
    results.nextKey ∉ before.rows.map Result.id := by
  intro hmem
  obtain ⟨r, hr, hid⟩ := List.mem_map.mp hmem
  obtain ⟨r', hr', hid'⟩ := h.kept r hr
  exact Nat.ne_of_lt (Table.key_lt_nextKey hr') (hid'.trans hid)

/-- What is saved for a pair is what would have been saved before. -/
theorem saveResult_content (h : Undisturbed before results asset.id algorithm.id)
    (reading : Reading) (clock : Nat × Nat) :
    (saveResult results asset algorithm (reading.at clock)).2.contentSince before =
      (saveResult before asset algorithm reading).2.contentSince before := by
  unfold saveResult
  rw [h.first?]
  cases before.first? (Result.isOpenIssue asset.id algorithm.id) with
  | some r => rfl
  | none =>
    have hnew := (Undisturbed.refl before asset.id algorithm.id).nextKey
    simp only [Result.contentSince, Table.contentOf, Result.firstSaved_id,
      knownKey_of_not_mem h.nextKey, knownKey_of_not_mem hnew]
    rfl

theorem resultContents_saveResult (h : Undisturbed before results asset.id algorithm.id)
    (reading : Reading) (clock : Nat × Nat) :
    resultContents before (saveResult results asset algorithm (reading.at clock)).1 =
      putKnown (resultContents before results)
        ((saveResult before asset algorithm reading).2.contentSince before) := by
  rw [← saveResult_content h reading clock]
  apply Table.contents_put _ (fun r => mem_saveResult results asset algorithm (reading.at clock))
  intro hnew r hr
  rcases saveResult_origin results asset algorithm (reading.at clock) with
    ⟨r₀, hr₀, hopen, he⟩ | ⟨hno, -⟩
  · have hpair : r₀ ∈ results.rows.filter (Result.ofPair asset.id algorithm.id) := by
      have hopen := Result.isOpenIssue_iff.mp hopen
      exact List.mem_filter.mpr ⟨hr₀, by simp [Result.ofPair, hopen.1, hopen.2.1]⟩
    rw [h.pair] at hpair
    rw [he] at hnew
    exact absurd (List.mem_map_of_mem (List.mem_filter.mp hpair).1) hnew
  · exact (hno r hr).2

/-- Different pairs do not save under the same known id. -/
theorem saveResult_apart (before : Results) (reading reading' : Reading)
    (hne : ¬ (asset.id = asset'.id ∧ algorithm.id = algorithm'.id)) :
    ((saveResult before asset algorithm reading).2.contentSince before).1 = none ∨
      ((saveResult before asset algorithm reading).2.contentSince before).1 ≠
        ((saveResult before asset' algorithm' reading').2.contentSince before).1 := by
  cases hknown : ((saveResult before asset algorithm reading).2.contentSince before).1 with
  | none => exact Or.inl rfl
  | some id =>
    right
    intro he
    obtain ⟨hmem, hid⟩ := knownKey_eq_some.mp hknown
    obtain ⟨-, hid'⟩ := knownKey_eq_some.mp he.symm
    obtain ⟨r, hr, hrid⟩ := List.mem_map.mp hmem
    have hsaved := saveResult_eq_record before asset algorithm reading hr hrid
    have hsaved' := saveResult_eq_record before asset' algorithm' reading' hr
      (hrid.trans (hid.trans hid'.symm))
    have ha := saveResult_assetId before asset algorithm reading
    have hg := saveResult_algorithmId before asset algorithm reading
    have ha' := saveResult_assetId before asset' algorithm' reading'
    have hg' := saveResult_algorithmId before asset' algorithm' reading'
    rw [hsaved] at ha hg
    rw [hsaved'] at ha' hg'
    exact hne ⟨ha.symm.trans ha', hg.symm.trans hg'⟩

theorem Result.same_of_content {r r' : Result} (h : r.contentSince before = r'.contentSince before) :
    r.passed = r'.passed ∧ r.priority = r'.priority ∧ r.occurances = r'.occurances := by
  have hanonymous : r.anonymous = r'.anonymous := congrArg Prod.snd h
  simp only [Result.anonymous, Result.mk.injEq] at hanonymous
  grind

theorem testForNotification_of_content {r r' : Result}
    (h : r.contentSince before = r'.contentSince before) (site : Site) :
    testForNotification site r = testForNotification site r' := by
  obtain ⟨hpassed, hpriority, hocc⟩ := Result.same_of_content h
  simp [testForNotification, testPriority, hpassed, hpriority, hocc]

/-- What two saves leave in one order and in the other, at any times. -/
structure SavesCommute (before : Results) (asset asset' : Asset) (algorithm algorithm' : Algorithm)
    (reading reading' : Reading) (clock clock' : Nat × Nat) : Prop where
  results :
    resultContents before
        (saveResult (saveResult before asset algorithm reading).1 asset' algorithm' reading').1 =
      resultContents before
        (saveResult (saveResult before asset' algorithm' (reading'.at clock')).1 asset algorithm
          (reading.at clock)).1
  first : (saveResult before asset algorithm reading).2.contentSince before =
    (saveResult (saveResult before asset' algorithm' (reading'.at clock')).1 asset algorithm
      (reading.at clock)).2.contentSince before
  second :
    (saveResult (saveResult before asset algorithm reading).1 asset' algorithm'
      reading').2.contentSince before =
      (saveResult before asset' algorithm' (reading'.at clock')).2.contentSince before
  decisions : ∀ site,
    testForNotification site (saveResult before asset algorithm reading).2 =
      testForNotification site (saveResult (saveResult before asset' algorithm'
        (reading'.at clock')).1 asset algorithm (reading.at clock)).2 ∧
    testForNotification site (saveResult (saveResult before asset algorithm reading).1 asset'
        algorithm' reading').2 =
      testForNotification site (saveResult before asset' algorithm' (reading'.at clock')).2

theorem savesCommute (before : Results) (reading reading' : Reading) (clock clock' : Nat × Nat)
    (hne : ¬ (asset.id = asset'.id ∧ algorithm.id = algorithm'.id)) :
    SavesCommute before asset asset' algorithm algorithm' reading reading' clock clock' := by
  have hne' : ¬ (asset'.id = asset.id ∧ algorithm'.id = algorithm.id) :=
    fun h => hne ⟨h.1.symm, h.2.symm⟩
  have hpair : Undisturbed before before asset.id algorithm.id := .refl _ _ _
  have hpair' : Undisturbed before before asset'.id algorithm'.id := .refl _ _ _
  have hafter := hpair.save hne' (reading'.at clock')
  have hafter' := hpair'.save hne reading
  have hfirst := saveResult_content hafter reading clock
  have hsecond : (saveResult (saveResult before asset algorithm reading).1 asset' algorithm'
      reading').2.contentSince before =
      (saveResult before asset' algorithm' reading').2.contentSince before :=
    saveResult_content hafter' reading' (reading'.created, reading'.now)
  have hsecond' := saveResult_content hpair' reading' clock'
  refine ⟨?_, hfirst.symm, hsecond.trans hsecond'.symm, ?_⟩
  · have hone : resultContents before (saveResult before asset algorithm reading).1 =
        putKnown (resultContents before before)
          ((saveResult before asset algorithm reading).2.contentSince before) :=
      resultContents_saveResult hpair reading (reading.created, reading.now)
    have htwo : resultContents before (saveResult (saveResult before asset algorithm reading).1
        asset' algorithm' reading').1 =
        putKnown (resultContents before (saveResult before asset algorithm reading).1)
          ((saveResult before asset' algorithm' reading').2.contentSince before) :=
      resultContents_saveResult hafter' reading' (reading'.created, reading'.now)
    rw [htwo, hone, resultContents_saveResult hafter reading clock,
      resultContents_saveResult hpair' reading' clock']
    exact putKnown_comm (saveResult_apart before reading reading' hne) _
  · intro site
    exact ⟨testForNotification_of_content hfirst.symm site,
      testForNotification_of_content (hsecond.trans hsecond'.symm) site⟩

end

end Medusa
