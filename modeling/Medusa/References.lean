import Medusa.Table

/-! A column of one table that names the rows of another by their key. Rows that
are deleted can take the rows that name them along, or leave them without a name. -/

namespace Relational

variable {ρ τ : Type*} {key : ρ → Nat} {key' : τ → Nat}

/-- Every row of `t` names a row of `t'`: no reference is missing or dangling. -/
def Table.Refers (t : Table ρ key) (ref : ρ → Option Nat) (t' : Table τ key') : Prop :=
  ∀ r ∈ t.rows, ∃ r' ∈ t'.rows, ref r = some (key' r')

namespace Table.Refers

variable {t t₁ : Table ρ key} {ref : ρ → Option Nat} {t' t₁' : Table τ key'}

/-- The references that are left were there before, and no key is lost. -/
theorem mono (h : t.Refers ref t') (hrows : ∀ r ∈ t₁.rows, ∃ r₀ ∈ t.rows, ref r = ref r₀)
    (hkeys : ∀ r' ∈ t'.rows, ∃ r₁' ∈ t₁'.rows, key' r₁' = key' r') : t₁.Refers ref t₁' := by
  intro r hr
  obtain ⟨r₀, hr₀, he⟩ := hrows r hr
  obtain ⟨r', hr', href⟩ := h r₀ hr₀
  obtain ⟨r₁', hr₁', hk⟩ := hkeys r' hr'
  exact ⟨r₁', hr₁', by rw [he, href, hk]⟩

theorem of_subset (h : t.Refers ref t') (hsub : t'.rows ⊆ t₁'.rows) : t.Refers ref t₁' :=
  h.mono (fun r hr => ⟨r, hr, rfl⟩) (fun r' hr' => ⟨r', hsub hr', rfl⟩)

theorem insert_target (h : t.Refers ref t') {row : Nat → τ} (hrow : ∀ k, key' (row k) = k) :
    t.Refers ref (t'.insert row hrow) :=
  h.of_subset (fun _ hr' => mem_insert.mpr (Or.inl hr'))

/-- An update keeps the keys. -/
theorem update_target_iff {p : τ → Bool} {f : τ → τ} (hf : ∀ r, key' (f r) = key' r) :
    t.Refers ref (t'.update p f hf) ↔ t.Refers ref t' := by
  constructor
  · intro h
    exact h.mono (fun r hr => ⟨r, hr, rfl⟩) (fun r' hr' => (exists_key_update hf).mp ⟨r', hr', rfl⟩)
  · intro h
    exact h.mono (fun r hr => ⟨r, hr, rfl⟩) (fun r' hr' => (exists_key_update hf).mpr ⟨r', hr', rfl⟩)

theorem delete (h : t.Refers ref t') (q : ρ → Bool) : (t.delete q).Refers ref t' :=
  fun r hr => h r (mem_delete.mp hr).1

theorem update (h : t.Refers ref t') {q : ρ → Bool} {f : ρ → ρ} (hf : ∀ r, key (f r) = key r)
    (href : ∀ r, ref (f r) = ref r) : (t.update q f hf).Refers ref t' := by
  refine forall_mem_update h ?_
  intro r hr _
  rw [href]
  exact hr

theorem insert (h : t.Refers ref t') {row : Nat → ρ} (hrow : ∀ k, key (row k) = k)
    (hnew : ∃ r' ∈ t'.rows, ref (row t.nextKey) = some (key' r')) :
    (t.insert row hrow).Refers ref t' := by
  intro r hr
  rcases mem_insert.mp hr with hr | rfl
  · exact h r hr
  · exact hnew

variable {p : τ → Bool} {q : ρ → Bool}

/-- The rows that name a deleted row are deleted as well. -/
theorem delete_both (h : t.Refers ref t')
    (hq : ∀ r ∈ t.rows, ∀ r' ∈ t'.rows, ref r = some (key' r') → p r' = true → q r = true) :
    (t.delete q).Refers ref (t'.delete p) := by
  intro r hr
  obtain ⟨hr, hkeep⟩ := mem_delete.mp hr
  obtain ⟨r', hr', href⟩ := h r hr
  refine ⟨r', mem_delete.mpr ⟨hr', ?_⟩, href⟩
  by_contra hp
  rw [hq r hr r' hr' href (by simpa using hp)] at hkeep
  exact Bool.noConfusion hkeep

/-- The rows that name a deleted row lose the name, so there may be none of them. -/
theorem forget_iff (h : t.Refers ref t')
    (hq : ∀ r ∈ t.rows, ∀ r' ∈ t'.rows, ref r = some (key' r') → (q r = true ↔ p r' = true))
    {f : ρ → ρ} (hf : ∀ r, key (f r) = key r) (hnone : ∀ r, ref (f r) = none) :
    (t.update q f hf).Refers ref (t'.delete p) ↔ ∀ r ∈ t.rows, q r = false := by
  constructor
  · intro hh r hr
    by_contra hqr
    have hqr : q r = true := by simpa using hqr
    obtain ⟨r', -, href⟩ := hh (f r) (mem_update.mpr ⟨r, hr, by rw [if_pos hqr]⟩)
    rw [hnone] at href
    exact absurd href.symm (Option.some_ne_none _)
  · intro hh r hr
    obtain ⟨r₀, hr₀, rfl⟩ := mem_update.mp hr
    have hqr := hh r₀ hr₀
    obtain ⟨r', hr', href⟩ := h r₀ hr₀
    have hp : p r' = false := by
      rw [← Bool.not_eq_true, ← hq r₀ hr₀ r' hr' href, hqr]
      exact Bool.false_ne_true
    exact ⟨r', mem_delete.mpr ⟨hr', hp⟩, by simpa [hqr] using href⟩

end Table.Refers

/-- A reference may be missing, but does not dangle. -/
def Table.ForeignKey (t : Table ρ key) (ref : ρ → Option Nat) (t' : Table τ key') : Prop :=
  ∀ r ∈ t.rows, ∀ k, ref r = some k → ∃ r' ∈ t'.rows, key' r' = k

namespace Table.ForeignKey

variable {t : Table ρ key} {ref : ρ → Option Nat} {t' t₁' : Table τ key'}

theorem ne_nextKey (h : t.ForeignKey ref t') {r : ρ} (hr : r ∈ t.rows) :
    ref r ≠ some t'.nextKey := by
  intro he
  obtain ⟨r', hr', hk⟩ := h r hr _ he
  exact absurd hk (Nat.ne_of_lt (key_lt_nextKey hr'))

theorem insert_target (h : t.ForeignKey ref t') {row : Nat → τ} (hrow : ∀ k, key' (row k) = k) :
    t.ForeignKey ref (t'.insert row hrow) := by
  intro r hr k hk
  obtain ⟨r', hr', he⟩ := h r hr k hk
  exact ⟨r', mem_insert.mpr (Or.inl hr'), he⟩

theorem update_target (h : t.ForeignKey ref t') {p : τ → Bool} {f : τ → τ}
    (hf : ∀ r, key' (f r) = key' r) : t.ForeignKey ref (t'.update p f hf) := by
  intro r hr k hk
  exact (exists_key_update hf).mpr (h r hr k hk)

theorem insert (h : t.ForeignKey ref t') {row : Nat → ρ} (hrow : ∀ k, key (row k) = k)
    (hnew : ∀ k, ref (row t.nextKey) = some k → ∃ r' ∈ t'.rows, key' r' = k) :
    (t.insert row hrow).ForeignKey ref t' := by
  intro r hr
  rcases mem_insert.mp hr with hr | rfl
  · exact h r hr
  · exact hnew

theorem delete (h : t.ForeignKey ref t') (q : ρ → Bool) : (t.delete q).ForeignKey ref t' :=
  fun r hr => h r (mem_delete.mp hr).1

theorem update (h : t.ForeignKey ref t') {q : ρ → Bool} {f : ρ → ρ} (hf : ∀ r, key (f r) = key r)
    (href : ∀ r, ref (f r) = ref r) : (t.update q f hf).ForeignKey ref t' := by
  refine forall_mem_update h ?_
  intro r hr _
  rw [href]
  exact hr

/-- The references to a deleted row are set to null. -/
theorem forget (h : t.ForeignKey ref t') (k : Nat) {f : ρ → ρ} (hf : ∀ r, key (f r) = key r)
    (hnone : ∀ r, ref (f r) = none) :
    (t.update (fun r => ref r == some k) f hf).ForeignKey ref
      (t'.delete (fun r' => key' r' == k)) := by
  intro r hr k' hk'
  obtain ⟨r₀, hr₀, rfl⟩ := mem_update.mp hr
  by_cases hk : ref r₀ = some k
  · simp [hk, hnone] at hk'
  · simp only [beq_iff_eq, hk, if_false] at hk'
    obtain ⟨r', hr', rfl⟩ := h r₀ hr₀ k' hk'
    refine ⟨r', mem_delete.mpr ⟨hr', ?_⟩, rfl⟩
    rw [hk', Option.some.injEq] at hk
    simpa using hk

end Table.ForeignKey

end Relational
