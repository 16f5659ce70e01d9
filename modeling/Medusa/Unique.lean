import Medusa.Table

/-! Columns in which no value is repeated. As in SQL, rows without a value do not count,
and a write is looked at by comparing the row it leaves with the other rows. -/

namespace Relational

namespace Table

variable {ρ κ : Type*} {key : ρ → Nat} {col : ρ → Option κ} {t : Table ρ key}

def Distinct (t : Table ρ key) (col : ρ → Option κ) : Prop :=
  ∀ r ∈ t.rows, ∀ r' ∈ t.rows, (col r).isSome = true → col r = col r' → r = r'

/-- No row except that with the key `k` has the value that `new` has. -/
def FreeFor (t : Table ρ key) (col : ρ → Option κ) (k : Nat) (new : ρ) : Prop :=
  ∀ r ∈ t.rows, key r ≠ k → (col new).isSome = true → col r ≠ col new

instance [DecidableEq κ] (t : Table ρ key) (col : ρ → Option κ) (k : Nat) (new : ρ) :
    Decidable (t.FreeFor col k new) :=
  inferInstanceAs (Decidable (∀ r ∈ t.rows, key r ≠ k → (col new).isSome = true → col r ≠ col new))

theorem distinct_insert_iff (h : t.Distinct col) {row : Nat → ρ} (hrow : ∀ k, key (row k) = k) :
    (t.insert row hrow).Distinct col ↔ t.FreeFor col t.nextKey (row t.nextKey) := by
  constructor
  · intro hd r hr hk hsome he
    have hnew := hd _ (new_mem_insert t hrow) r (mem_insert.mpr (Or.inl hr)) hsome he.symm
    exact hk (by rw [← hnew, hrow])
  · intro hfree r hr r' hr' hsome he
    have hold : ∀ r ∈ t.rows, key r ≠ t.nextKey := fun r hr => Nat.ne_of_lt (key_lt_nextKey hr)
    rcases mem_insert.mp hr with hr | rfl <;> rcases mem_insert.mp hr' with hr' | rfl
    · exact h r hr r' hr' hsome he
    · exact absurd he (hfree r hr (hold r hr) (he ▸ hsome))
    · exact absurd he.symm (hfree r' hr' (hold r' hr') hsome)
    · rfl

theorem distinct_update_iff (h : t.Distinct col) (k : Nat) {f : ρ → ρ}
    (hf : ∀ r, key (f r) = key r) :
    (t.update (fun r => key r == k) f hf).Distinct col ↔
      ∀ r₀ ∈ t.rows, key r₀ = k → t.FreeFor col k (f r₀) := by
  constructor
  · intro hd r₀ hr₀ hk₀ r hr hk hsome he
    have hnew := hd _ ((mem_update_key hf).mpr (Or.inl ⟨r₀, hr₀, hk₀, rfl⟩)) r
      ((mem_update_key hf).mpr (Or.inr ⟨hr, hk⟩)) hsome he.symm
    exact hk (by rw [← hnew, hf, hk₀])
  · intro hfree r hr r' hr' hsome he
    rcases (mem_update_key hf).mp hr with ⟨r₀, hr₀, hk₀, rfl⟩ | ⟨hr, hk⟩ <;>
      rcases (mem_update_key hf).mp hr' with ⟨r₁, hr₁, hk₁, rfl⟩ | ⟨hr', hk'⟩
    · rw [eq_of_key_eq hr₀ hr₁ (hk₀.trans hk₁.symm)]
    · exact absurd he.symm (hfree r₀ hr₀ hk₀ r' hr' hk' hsome)
    · exact absurd he (hfree r₁ hr₁ hk₁ r hr hk (he ▸ hsome))
    · exact h r hr r' hr' hsome he

end Table

end Relational
