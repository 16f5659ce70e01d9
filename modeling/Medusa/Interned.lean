import Medusa.References
import Medusa.Unique

/-! Values that are kept once in a table and that the rows of another table name by key.
As long as no row of the table is rewritten, a name is as good as a copy of the value. -/

namespace Relational

namespace Table

variable {ρ κ : Type*} {key : ρ → Nat} {col : ρ → κ} {t : Table ρ key} {ref : Option Nat}

/-- The value that is named. -/
def valueOf (t : Table ρ key) (col : ρ → κ) (ref : Option Nat) : Option κ := (ref.bind t.get?).map col

theorem valueOf_mem {r : ρ} (hr : r ∈ t.rows) : t.valueOf col (some (key r)) = some (col r) := by
  have hget : t.get? (key r) = some r := get?_eq_some.mpr ⟨hr, rfl⟩
  simp [valueOf, hget]

theorem valueOf_eq_some {value : κ} : t.valueOf col ref = some value ↔
    ∃ r ∈ t.rows, ref = some (key r) ∧ col r = value := by
  constructor
  · intro h
    obtain ⟨r, hr, hcol⟩ := Option.map_eq_some_iff.mp h
    obtain ⟨k, rfl, hget⟩ := Option.bind_eq_some_iff.mp hr
    obtain ⟨hmem, rfl⟩ := get?_eq_some.mp hget
    exact ⟨r, hmem, rfl, hcol⟩
  · rintro ⟨r, hr, rfl, rfl⟩
    exact valueOf_mem hr

/-- A new value does not change what the others are called. -/
theorem valueOf_insert {row : Nat → ρ} (hrow : ∀ k, key (row k) = k)
    (href : ∃ r ∈ t.rows, ref = some (key r)) :
    (t.insert row hrow).valueOf col ref = t.valueOf col ref := by
  obtain ⟨r, hr, rfl⟩ := href
  rw [valueOf_mem hr, valueOf_mem (mem_insert.mpr (Or.inl hr))]

theorem valueOf_nextKey {row : Nat → ρ} (hrow : ∀ k, key (row k) = k) :
    (t.insert row hrow).valueOf col (some t.nextKey) = some (col (row t.nextKey)) := by
  have hnew : (t.insert row hrow).valueOf col (some (key (row t.nextKey))) =
      some (col (row t.nextKey)) := valueOf_mem (new_mem_insert t hrow)
  rwa [hrow] at hnew

theorem valueOf_delete {k : Nat} (hk : ref ≠ some k) :
    (t.delete (fun r => key r == k)).valueOf col ref = t.valueOf col ref := by
  cases ref with
  | none => rfl
  | some k' =>
    have hne : ¬ k' = k := fun he => hk (congrArg some he)
    simp [valueOf, get?_delete_key t (fun k' => k' == k), hne]

/-- A row may be made to name another value. -/
theorem Refers.repoint {σ : Type*} {key' : σ → Nat} {s : Table σ key'} {name : σ → Option Nat}
    (h : s.Refers name t) {p : σ → Bool} {f : σ → σ} (hf : ∀ x, key' (f x) = key' x)
    (hnew : ∀ x, ∃ r ∈ t.rows, name (f x) = some (key r)) : (s.update p f hf).Refers name t := by
  intro x hx
  obtain ⟨x₀, hx₀, rfl⟩ := mem_update.mp hx
  split
  · exact hnew x₀
  · exact h x₀ hx₀

/-- Where no value is kept twice, a row names the value exactly if it names its key. -/
theorem Distinct.valueOf_iff (h : t.Distinct (fun r => some (col r))) {r : ρ} (hr : r ∈ t.rows) :
    t.valueOf col ref = some (col r) ↔ ref = some (key r) := by
  rw [valueOf_eq_some]
  constructor
  · rintro ⟨r', hr', rfl, he⟩
    rw [h r' hr' r hr rfl (congrArg some he)]
  · intro href
    exact ⟨r, hr, href, rfl⟩

/-- A value that is looked up first may be added. -/
theorem Distinct.insert_new (h : t.Distinct (fun r => some (col r))) {row : Nat → ρ}
    (hrow : ∀ k, key (row k) = k) {p : ρ → Bool} (hnone : t.first? p = none)
    (hp : ∀ r, col r = col (row t.nextKey) → p r = true) :
    (t.insert row hrow).Distinct (fun r => some (col r)) := by
  refine (distinct_insert_iff h hrow).mpr ?_
  intro r hr _ _ he
  have hfound := hp r (Option.some.inj he)
  rw [first?_eq_none hnone r hr] at hfound
  exact Bool.noConfusion hfound

end Table

end Relational
