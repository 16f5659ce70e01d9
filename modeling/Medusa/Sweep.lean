import Medusa.Table

/-! A loop over some rows of a table that rewrites each of them in its turn, and gives up at
the first that it cannot rewrite. -/

namespace Relational

/-- A loop whose steps depend on what is visited only. -/
theorem foldlM_ite {σ ι : Type*} {step : σ → ι → Option σ} {next : σ → ι → σ} {good : ι → Prop}
    [DecidablePred good] (hstep : ∀ s i, step s i = if good i then some (next s i) else none)
    (l : List ι) (s : σ) :
    l.foldlM step s = if ∀ i ∈ l, good i then some (l.foldl next s) else none := by
  induction l generalizing s with
  | nil => simp
  | cons i rest ih =>
    rw [List.foldlM_cons, hstep]
    by_cases hi : good i
    · simp [hi, ih]
    · simp [hi]

namespace Table

variable {ρ : Type*} {key : ρ → Nat} {f : ρ → ρ → ρ}

/-- A query that does not look at what was rewritten finds the same row, rewritten. -/
theorem one?_of_map {t t' : Table ρ key} {g : ρ → ρ} (h : t'.rows = t.rows.map g) {q : ρ → Bool}
    (hq : ∀ r, q (g r) = q r) : t'.one? q = (t.one? q).map g := by
  have hfilter : t'.rows.filter q = (t.rows.filter q).map g := by
    rw [h, List.filter_map]
    congr 2
    funext r
    exact hq r
  unfold one?
  rw [hfilter]
  rcases t.rows.filter q with _ | ⟨r, _ | ⟨r', rest⟩⟩ <;> rfl

theorem rows_foldl_update (hf : ∀ x r, key (f x r) = key r) {l : List ρ} (hl : (l.map key).Nodup)
    (t : Table ρ key) :
    (l.foldl (fun t x => t.update (fun r => key r == key x) (f x) (hf x)) t).rows =
      t.rows.map (fun r => ((l.find? (fun x => key x == key r)).map (fun x => f x r)).getD r) := by
  induction l generalizing t with
  | nil => simp
  | cons x rest ih =>
    rw [List.map_cons, List.nodup_cons] at hl
    rw [List.foldl_cons, ih hl.2, rows_update, List.map_map]
    refine List.map_congr_left ?_
    intro r _
    by_cases hr : key r = key x
    · -- no later step finds the row again
      have hnone : rest.find? (fun y => key y == key x) = none := by
        rw [List.find?_eq_none]
        intro y hy
        rw [beq_iff_eq]
        exact fun he => hl.1 (List.mem_map.mpr ⟨y, hy, he⟩)
      simp [hr, hf, hnone]
    · have hne : ¬ key x = key r := fun he => hr he.symm
      simp [hr, hne]

/-- The loop over the rows that `p` selects, in one update. -/
theorem foldl_update_filter (hf : ∀ x r, key (f x r) = key r) (p : ρ → Bool) (t : Table ρ key) :
    (t.rows.filter p).foldl (fun t x => t.update (fun r => key r == key x) (f x) (hf x)) t =
      t.update p (fun r => f r r) (fun r => hf r r) := by
  apply Table.ext
  rw [rows_foldl_update hf (t.nodup.sublist (List.filter_sublist.map _)), rows_update]
  refine List.map_congr_left ?_
  intro r hr
  cases hfind : (t.rows.filter p).find? (fun x => key x == key r) with
  | none =>
    have hp : ¬ p r = true := by
      intro hp
      simpa using List.find?_eq_none.mp hfind r (List.mem_filter.mpr ⟨hr, hp⟩)
    simp [hp]
  | some x =>
    obtain ⟨hx, hp⟩ := List.mem_filter.mp (List.mem_of_find?_eq_some hfind)
    have hk : key x = key r := by simpa using List.find?_some hfind
    have hxr : x = r := eq_of_key_eq hx hr hk
    subst hxr
    simp [hp]

theorem foldlM_update_filter {step : Table ρ key → ρ → Option (Table ρ key)} {good : ρ → Prop}
    [DecidablePred good] (hf : ∀ x r, key (f x r) = key r)
    (hstep : ∀ t x, step t x =
      if good x then some (t.update (fun r => key r == key x) (f x) (hf x)) else none)
    (p : ρ → Bool) (t : Table ρ key) :
    (t.rows.filter p).foldlM step t = if ∀ r ∈ t.rows, p r = true → good r then
      some (t.update p (fun r => f r r) (fun r => hf r r)) else none := by
  rw [foldlM_ite hstep, foldl_update_filter hf]
  simp only [List.mem_filter, and_imp]

end Table

end Relational
