import Medusa.Model

/-! `save_result`: the outcome of an algorithm goes to the unresolved result of
its asset and algorithm, or to a new row if there is none. -/

namespace Medusa

open Relational

def Result.isOpenIssue (asset algorithm : Nat) (r : Result) : Bool :=
  r.assetId == asset && r.algorithmId == algorithm && r.unresolved

/-- What an execution hands to `save_result` besides the asset and the
algorithm, with the two readings of the clock made there. -/
structure Reading where
  value : ℚ
  passed : Bool
  pointList : List Nat
  created : Nat
  now : Nat

/-- The fields that `save_result` writes on every row it saves. The acknowledged
state of an existing row is not among them. -/
def Result.record (r : Result) (reading : Reading) : Result :=
  { r with
    recentTimestamp := reading.now
    value := reading.value
    passed := reading.passed
    active := !reading.passed
    occurances := r.occurances + 1
    points := reading.pointList
    recent := true }

def Result.create (asset : Asset) (algorithm : Algorithm) (reading : Reading) (id : Nat) :
    Result where
  id := id
  firstTimestamp := reading.created
  recentTimestamp := reading.created
  assetId := asset.id
  algorithmId := algorithm.id
  value := 0
  passed := reading.passed
  priority := asset.priority
  active := true
  acknowledged := reading.passed
  occurances := 0
  recent := true
  notes := ""
  points := []

section Record

variable (r : Result) (reading : Reading)

@[simp] theorem Result.record_id : (r.record reading).id = r.id := rfl
@[simp] theorem Result.record_assetId : (r.record reading).assetId = r.assetId := rfl
@[simp] theorem Result.record_value : (r.record reading).value = reading.value := rfl
@[simp] theorem Result.record_passed : (r.record reading).passed = reading.passed := rfl
@[simp] theorem Result.record_active : (r.record reading).active = !reading.passed := rfl
@[simp] theorem Result.record_recent : (r.record reading).recent = true := rfl

@[simp] theorem Result.record_acknowledged :
    (r.record reading).acknowledged = r.acknowledged := rfl

@[simp] theorem Result.record_occurances :
    (r.record reading).occurances = r.occurances + 1 := rfl

end Record

def Result.firstSaved (asset : Asset) (algorithm : Algorithm) (reading : Reading) (id : Nat) :
    Result :=
  (Result.create asset algorithm reading id).record reading

@[simp] theorem Result.firstSaved_id (asset : Asset) (algorithm : Algorithm) (reading : Reading)
    (id : Nat) : (Result.firstSaved asset algorithm reading id).id = id := rfl

def saveResult (results : Results) (asset : Asset) (algorithm : Algorithm) (reading : Reading) :
    Results × Result :=
  match results.first? (Result.isOpenIssue asset.id algorithm.id) with
  | some r =>
    (results.update (fun r' => r'.id == r.id) (Result.record · reading)
      (Result.record_id · reading), r.record reading)
  | none =>
    (results.insert (Result.firstSaved asset algorithm reading)
      (Result.firstSaved_id asset algorithm reading),
      Result.firstSaved asset algorithm reading results.nextKey)

theorem Result.isOpenIssue_iff {asset algorithm : Nat} {r : Result} :
    r.isOpenIssue asset algorithm = true ↔
      r.assetId = asset ∧ r.algorithmId = algorithm ∧ r.unresolved = true := by
  simp [Result.isOpenIssue, and_assoc]

section

variable (results : Results) (asset : Asset) (algorithm : Algorithm) (reading : Reading)

/-- Either an unresolved row of the pair is recorded in place, or there is none
and a new row is appended. -/
theorem saveResult_cases :
    (∃ r ∈ results.rows, r.isOpenIssue asset.id algorithm.id = true ∧
      saveResult results asset algorithm reading =
        (results.update (fun r' => r'.id == r.id) (Result.record · reading)
          (Result.record_id · reading), r.record reading)) ∨
    ((∀ r ∈ results.rows, r.isOpenIssue asset.id algorithm.id = false) ∧
      saveResult results asset algorithm reading =
        (results.insert (Result.firstSaved asset algorithm reading)
          (Result.firstSaved_id asset algorithm reading),
          Result.firstSaved asset algorithm reading results.nextKey)) := by
  unfold saveResult
  cases hf : results.first? (Result.isOpenIssue asset.id algorithm.id) with
  | some r =>
    have hr := Table.mem_of_first? hf
    exact Or.inl ⟨r, hr.1, hr.2, rfl⟩
  | none => exact Or.inr ⟨Table.first?_eq_none hf, rfl⟩

theorem mem_saveResult {r : Result} :
    r ∈ (saveResult results asset algorithm reading).1.rows ↔
      r = (saveResult results asset algorithm reading).2 ∨
        (r ∈ results.rows ∧ r.id ≠ (saveResult results asset algorithm reading).2.id) := by
  rcases saveResult_cases results asset algorithm reading with ⟨r₀, hr₀, -, he⟩ | ⟨-, he⟩
  · rw [he]
    exact Table.mem_update_row hr₀ (Result.record_id · reading)
  · rw [he]
    simp only [Table.mem_insert, Result.firstSaved_id]
    constructor
    · rintro (hr | rfl)
      · right
        exact ⟨hr, Nat.ne_of_lt (Table.key_lt_nextKey hr)⟩
      · exact Or.inl rfl
    · rintro (rfl | ⟨hr, -⟩)
      · exact Or.inr rfl
      · exact Or.inl hr

/-- The saved row is an open issue of the pair that was stored before, or a new
row of a pair without one. -/
theorem saveResult_origin :
    (∃ r ∈ results.rows, r.isOpenIssue asset.id algorithm.id = true ∧
      (saveResult results asset algorithm reading).2 = r.record reading) ∨
    ((∀ r ∈ results.rows, r.isOpenIssue asset.id algorithm.id = false ∧
        r.id ≠ (saveResult results asset algorithm reading).2.id) ∧
      (saveResult results asset algorithm reading).2 =
        Result.firstSaved asset algorithm reading results.nextKey) := by
  rcases saveResult_cases results asset algorithm reading with ⟨r, hr, ho, he⟩ | ⟨hn, he⟩
  · exact Or.inl ⟨r, hr, ho, by rw [he]⟩
  · refine Or.inr ⟨fun r hr => ⟨hn r hr, ?_⟩, by rw [he]⟩
    rw [he]
    exact Nat.ne_of_lt (Table.key_lt_nextKey hr)

theorem saveResult_eq_record {r : Result} (hr : r ∈ results.rows)
    (hid : r.id = (saveResult results asset algorithm reading).2.id) :
    (saveResult results asset algorithm reading).2 = r.record reading := by
  rcases saveResult_origin results asset algorithm reading with ⟨r₀, hr₀, -, he⟩ | ⟨hn, -⟩
  · have heq : r = r₀ := Table.eq_of_key_eq hr hr₀ (by rw [hid, he, Result.record_id])
    rw [he, heq]
  · exact absurd hid (hn r hr).2

/-- A row stays as it is, or it is the one that is recorded. -/
theorem saveResult_keeps {r : Result} (hr : r ∈ results.rows) :
    r ∈ (saveResult results asset algorithm reading).1.rows ∨
      r.record reading ∈ (saveResult results asset algorithm reading).1.rows := by
  by_cases hid : r.id = (saveResult results asset algorithm reading).2.id
  · right
    rw [← saveResult_eq_record results asset algorithm reading hr hid]
    exact (mem_saveResult results asset algorithm reading).mpr (Or.inl rfl)
  · exact Or.inl ((mem_saveResult results asset algorithm reading).mpr (Or.inr ⟨hr, hid⟩))

@[simp] theorem saveResult_assetId :
    (saveResult results asset algorithm reading).2.assetId = asset.id := by
  rcases saveResult_origin results asset algorithm reading with ⟨r, -, ho, he⟩ | ⟨-, he⟩
  · rw [he]
    exact (Result.isOpenIssue_iff.mp ho).1
  · rw [he]
    rfl

@[simp] theorem saveResult_algorithmId :
    (saveResult results asset algorithm reading).2.algorithmId = algorithm.id := by
  rcases saveResult_origin results asset algorithm reading with ⟨r, -, ho, he⟩ | ⟨-, he⟩
  · rw [he]
    exact (Result.isOpenIssue_iff.mp ho).2.1
  · rw [he]
    rfl

theorem saveResult_recorded :
    let saved := (saveResult results asset algorithm reading).2
    saved.value = reading.value ∧ saved.passed = reading.passed ∧
      saved.active = !reading.passed ∧ saved.recent = true := by
  rcases saveResult_origin results asset algorithm reading with ⟨r, -, -, he⟩ | ⟨-, he⟩
  · simp [he]
  · simp [he, Result.firstSaved]

theorem saveResult_filter_other {p : Result → Bool}
    (hp : ∀ r, p r = true → r.assetId = asset.id → r.algorithmId ≠ algorithm.id) :
    (saveResult results asset algorithm reading).1.rows.filter p = results.rows.filter p := by
  have hno : ∀ r : Result, r.assetId = asset.id → r.algorithmId = algorithm.id → p r = false := by
    intro r ha hg
    by_contra h
    exact hp r (by simpa using h) ha hg
  rcases saveResult_cases results asset algorithm reading with ⟨r₀, hr₀, ho, he⟩ | ⟨-, he⟩
  · rw [he]
    refine Table.filter_update (Result.record_id · reading) ?_
    intro r hr hid
    have hopen := Result.isOpenIssue_iff.mp ho
    rw [Table.eq_of_key_eq hr hr₀ (by simpa using hid)]
    exact ⟨hno r₀ hopen.1 hopen.2.1, hno (r₀.record reading) hopen.1 hopen.2.1⟩
  · rw [he, Table.rows_insert, List.filter_append]
    have hn : p (Result.firstSaved asset algorithm reading results.nextKey) = false :=
      hno _ rfl rfl
    simp [hn]

end

end Medusa
