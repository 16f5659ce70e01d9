import Medusa.Table

/-! Rows that are rewritten if their key is there and added otherwise, and lists in which a
key may repeat. -/

namespace Relational

namespace Table

variable {ρ : Type*} {key : ρ → Nat}

theorem nodup_append_new {t : Table ρ key} {new : ρ} (h : ¬ ∃ r ∈ t.rows, key r = key new) :
    ((t.rows ++ [new]).map key).Nodup := by
  rw [List.map_append, List.nodup_append]
  refine ⟨t.nodup, by simp, ?_⟩
  intro a ha b hb hab
  obtain ⟨r, hr, rfl⟩ := List.mem_map.mp ha
  rw [List.map_singleton, List.mem_singleton] at hb
  exact h ⟨r, hr, hab.trans hb⟩

/-- Rewrite the row under the key of `new`, or `new` itself if there is none. -/
def upsert (t : Table ρ key) (new : ρ) (f : ρ → ρ) (hf : ∀ r, key (f r) = key r) : Table ρ key :=
  if h : ∃ r ∈ t.rows, key r = key new then t.update (fun r => key r == key new) f hf
  else ⟨t.rows ++ [f new], nodup_append_new (by rwa [hf new])⟩

theorem get?_append_new {t : Table ρ key} {new : ρ} (h : ((t.rows ++ [new]).map key).Nodup)
    (k : Nat) : (⟨t.rows ++ [new], h⟩ : Table ρ key).get? k =
      (t.get? k).or (if key new = k then some new else none) := by
  simp only [get?, first?, List.find?_append]
  congr 1
  by_cases hk : key new = k <;> simp [hk]

theorem get?_upsert (t : Table ρ key) (new : ρ) {f : ρ → ρ} (hf : ∀ r, key (f r) = key r)
    (k : Nat) :
    (t.upsert new f hf).get? k =
      if key new = k then some (f ((t.get? k).getD new)) else t.get? k := by
  unfold upsert
  split
  · next h =>
    obtain ⟨r, hr, hkey⟩ := h
    split
    · next hk =>
      have hget : t.get? k = some r := get?_eq_some.mpr ⟨hr, hkey.trans hk⟩
      rw [hk, get?_update, hget]
      rfl
    · next hk =>
      refine get?_update_of_ne hf ?_
      intro r' _ hr' hk'
      exact hk ((beq_iff_eq.mp hr').symm.trans hk')
  · next h =>
    rw [get?_append_new, hf new]
    split
    · next hk =>
      have hnone : t.get? k = none := by
        rw [Option.eq_none_iff_forall_ne_some]
        intro r hr
        obtain ⟨hmem, hkey⟩ := get?_eq_some.mp hr
        exact h ⟨r, hmem, hkey.trans hk.symm⟩
      rw [hnone]
      rfl
    · exact Option.or_none

end Table

variable {ι κ : Type*} {keyOf : ι → κ}

/-- The last item under a key. -/
theorem exists_last {l : List ι} {k : κ} (h : ∃ i ∈ l, keyOf i = k) :
    ∃ before i after, l = before ++ i :: after ∧ keyOf i = k ∧ ∀ j ∈ after, keyOf j ≠ k := by
  induction l with
  | nil => simp at h
  | cons i rest ih =>
    by_cases hrest : ∃ j ∈ rest, keyOf j = k
    · obtain ⟨before, j, after, rfl, hj, hafter⟩ := ih hrest
      exact ⟨i :: before, j, after, rfl, hj, hafter⟩
    · refine ⟨[], i, rest, rfl, ?_, fun j hj hk => hrest ⟨j, hj, hk⟩⟩
      obtain ⟨j, hj, hk⟩ := h
      rcases List.mem_cons.mp hj with rfl | hj
      · exact hk
      · exact absurd ⟨j, hj, hk⟩ hrest

end Relational
