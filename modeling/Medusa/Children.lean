import Medusa.References
import Medusa.Unique

/-! The rows of a table under the row of another table that they name. Where the mapper
deletes a parent, its children lose the name and are under no row any more, also not under
one that gets the same key later. -/

namespace Relational

namespace Table

variable {ρ τ : Type*} {key : ρ → Nat} {key' : τ → Nat} {t : Table ρ key} {t' : Table τ key'}
  {ref : ρ → Option Nat}

def childrenOf (t : Table ρ key) (ref : ρ → Option Nat) (k : Nat) : List ρ :=
  t.rows.filter (fun r => ref r == some k)

theorem mem_childrenOf {k : Nat} {r : ρ} : r ∈ t.childrenOf ref k ↔ r ∈ t.rows ∧ ref r = some k := by
  simp [childrenOf]

/-- A query for a child, by two of its columns. -/
theorem first?_child (p : ρ → Bool) (k : Nat) :
    t.first? (fun r => ref r == some k && p r) = (t.childrenOf ref k).find? p := by
  rw [first?, childrenOf, List.find?_filter]
  congr 1
  funext r
  by_cases href : ref r = some k <;> simp [href]

theorem first?_child_of (p : ρ → Bool) (k : Nat) :
    t.first? (fun r => p r && ref r == some k) = (t.childrenOf ref k).find? p := by
  simp only [← first?_child, Bool.and_comm]

theorem find?_childrenOf {k x : Nat} {r : ρ} :
    (t.childrenOf ref k).find? (fun r => key r == x) = some r ↔
      r ∈ t.rows ∧ ref r = some k ∧ key r = x := by
  constructor
  · intro h
    obtain ⟨hr, href⟩ := mem_childrenOf.mp (List.mem_of_find?_eq_some h)
    exact ⟨hr, href, by simpa using List.find?_some h⟩
  · rintro ⟨hr, href, rfl⟩
    cases hfind : (t.childrenOf ref k).find? (fun r' => key r' == key r) with
    | none => simpa using List.find?_eq_none.mp hfind r (mem_childrenOf.mpr ⟨hr, href⟩)
    | some r' =>
      obtain ⟨hr', -⟩ := mem_childrenOf.mp (List.mem_of_find?_eq_some hfind)
      rw [eq_of_key_eq hr' hr (by simpa using List.find?_some hfind)]

theorem childrenOf_insert {row : Nat → ρ} (hrow : ∀ k, key (row k) = k) {parent : Nat}
    (href : ref (row t.nextKey) = some parent) (k : Nat) :
    (t.insert row hrow).childrenOf ref k =
      if k = parent then t.childrenOf ref k ++ [row t.nextKey] else t.childrenOf ref k := by
  rw [childrenOf, rows_insert, List.filter_append]
  by_cases hk : k = parent
  · simp [childrenOf, href, hk]
  · have hne : ¬ parent = k := fun h => hk h.symm
    simp [childrenOf, href, hk, hne]

/-- A row that was just inserted is found, or one that a query for it finds before. -/
theorem exists_first?_insert {row : Nat → ρ} (hrow : ∀ k, key (row k) = k) {p : ρ → Bool}
    (hp : p (row t.nextKey) = true) : ∃ r, (t.insert row hrow).first? p = some r :=
  Option.isSome_iff_exists.mp (List.find?_isSome.mpr ⟨_, new_mem_insert t hrow, hp⟩)

theorem childrenOf_update {p : ρ → Bool} {f : ρ → ρ} (hf : ∀ r, key (f r) = key r)
    (href : ∀ r, ref (f r) = ref r) (k : Nat) :
    (t.update p f hf).childrenOf ref k =
      (t.childrenOf ref k).map (fun r => if p r then f r else r) :=
  filter_update_map hf (fun r => by rw [href])

theorem childrenOf_delete (p : ρ → Bool) (k : Nat) :
    (t.delete p).childrenOf ref k = (t.childrenOf ref k).filter (fun r => !p r) := by
  simp only [childrenOf, rows_delete, List.filter_filter, Bool.and_comm]

/-- The children of a row that is deleted are under no row. -/
theorem childrenOf_forget {f : ρ → ρ} (hf : ∀ r, key (f r) = key r) (hnone : ∀ r, ref (f r) = none)
    {parent k : Nat} (hk : k ≠ parent) :
    (t.update (fun r => ref r == some parent) f hf).childrenOf ref k = t.childrenOf ref k := by
  refine filter_update hf ?_
  intro r _ hr
  rw [beq_iff_eq] at hr
  have hne : ¬ parent = k := fun h => hk h.symm
  simp [hr, hnone, hne]

theorem ForeignKey.childrenOf_nextKey (h : t.ForeignKey ref t') : t.childrenOf ref t'.nextKey = [] := by
  rw [childrenOf, List.filter_eq_nil_iff]
  intro r hr
  simpa using h.ne_nextKey hr

/-- Rows that nothing names may be deleted. -/
theorem ForeignKey.delete_target (h : t.ForeignKey ref t') {k : Nat}
    (hunused : ∀ r ∈ t.rows, ref r ≠ some k) :
    t.ForeignKey ref (t'.delete (fun r' => key' r' == k)) := by
  intro r hr k' hk'
  obtain ⟨r', hr', rfl⟩ := h r hr k' hk'
  refine ⟨r', mem_delete.mpr ⟨hr', ?_⟩, rfl⟩
  rw [beq_eq_false_iff_ne]
  rintro rfl
  exact hunused r hr hk'

namespace Distinct

variable {κ : Type*} {col : ρ → Option κ}

/-- Where no value is repeated, the first row that has a value is the only one. -/
theorem all_first? (h : t.Distinct col) {value : κ} {p : ρ → Bool}
    (hp : ∀ r, p r = true ↔ col r = some value) (k : Nat) :
    (t.first? p).all (fun r => key r == k) = true ↔ ∀ r ∈ t.rows, col r = some value → key r = k := by
  cases hfirst : t.first? p with
  | none =>
    refine iff_of_true rfl ?_
    intro r hr hcol
    exact absurd ((hp r).mpr hcol) (by simp [first?_eq_none hfirst r hr])
  | some r₀ =>
    obtain ⟨hr₀, hp₀⟩ := mem_of_first? hfirst
    have hcol₀ := (hp r₀).mp hp₀
    rw [Option.all_some, beq_iff_eq]
    constructor
    · rintro rfl r hr hcol
      rw [h r hr r₀ hr₀ (by simp [hcol]) (hcol.trans hcol₀.symm)]
    · intro hall
      exact hall r₀ hr₀ hcol₀

/-- A row may keep its value. -/
theorem freeFor_self (h : t.Distinct col) {r₀ new : ρ} (hr₀ : r₀ ∈ t.rows) (he : col new = col r₀) :
    t.FreeFor col (key r₀) new := by
  intro r hr hk hsome hcol
  have hr₁ := h r hr r₀ hr₀ (hcol ▸ hsome) (hcol.trans he)
  exact hk (congrArg key hr₁)

/-- The other columns may be rewritten. -/
theorem update (h : t.Distinct col) {p : ρ → Bool} {f : ρ → ρ} (hf : ∀ r, key (f r) = key r)
    (hcol : ∀ r, col (f r) = col r) : (t.update p f hf).Distinct col := by
  have hite : ∀ r, col (if p r = true then f r else r) = col r := by
    intro r
    split
    · exact hcol r
    · rfl
  intro r hr r' hr' hsome he
  obtain ⟨r₀, hr₀, rfl⟩ := mem_update.mp hr
  obtain ⟨r₁, hr₁, rfl⟩ := mem_update.mp hr'
  rw [hite] at hsome
  rw [hite, hite] at he
  rw [h r₀ hr₀ r₁ hr₁ hsome he]

theorem delete (h : t.Distinct col) (p : ρ → Bool) : (t.delete p).Distinct col :=
  fun r hr r' hr' => h r (mem_delete.mp hr).1 r' (mem_delete.mp hr').1

end Distinct

end Table

end Relational
