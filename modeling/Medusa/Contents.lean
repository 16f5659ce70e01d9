import Mathlib.Data.Multiset.Filter
import Medusa.Table

/-! Tables up to the keys that are generated for new rows. Rows are compared by what they
hold, and by their key only where the key was there before. -/

namespace Relational

section

variable {κ α : Type*} [DecidableEq κ]

/-- Put a row in the place of the one that is known by the same key. -/
def putKnown (C : Multiset (Option κ × α)) (c : Option κ × α) : Multiset (Option κ × α) :=
  c ::ₘ C.filter (fun d => d.1 = none ∨ d.1 ≠ c.1)

theorem putKnown_comm {c d : Option κ × α} (h : c.1 = none ∨ c.1 ≠ d.1)
    (C : Multiset (Option κ × α)) :
    putKnown (putKnown C c) d = putKnown (putKnown C d) c := by
  have h' : d.1 = none ∨ d.1 ≠ c.1 := by
    rcases h with hnone | hne
    · rw [hnone]
      exact em _
    · exact Or.inr hne.symm
  simp only [putKnown]
  rw [Multiset.filter_cons_of_pos (p := fun a : Option κ × α => a.1 = none ∨ a.1 ≠ d.1) _ h,
    Multiset.filter_cons_of_pos (p := fun a : Option κ × α => a.1 = none ∨ a.1 ≠ c.1) _ h',
    Multiset.filter_filter, Multiset.filter_filter, Multiset.cons_swap]
  congr 2
  exact Multiset.filter_congr (fun _ _ => and_comm)

end

/-- The key of a row that was there before. -/
def knownKey (before : List Nat) (k : Nat) : Option Nat := if k ∈ before then some k else none

theorem knownKey_eq_some {before : List Nat} {k j : Nat} :
    knownKey before k = some j ↔ k ∈ before ∧ k = j := by
  unfold knownKey
  split <;> simp_all

theorem knownKey_of_not_mem {before : List Nat} {k : Nat} (h : k ∉ before) :
    knownKey before k = none := if_neg h

namespace Table

variable {ρ α : Type*} {key : ρ → Nat}

def contentOf (key : ρ → Nat) (before : List Nat) (f : ρ → α) (r : ρ) : Option Nat × α :=
  (knownKey before (key r), f r)

def contents (before : List Nat) (f : ρ → α) (t : Table ρ key) : Multiset (Option Nat × α) :=
  (t.rows.map (contentOf key before f) : List (Option Nat × α))

theorem mem_contents {before : List Nat} {f : ρ → α} {t : Table ρ key} {c : Option Nat × α} :
    c ∈ t.contents before f ↔ ∃ r ∈ t.rows, contentOf key before f r = c := by
  simp [contents]

/-- A table in which a row has been put, in the place of the row with its key or as a new
row with a new key. -/
theorem contents_put {before : List Nat} (f : ρ → α) {t t' : Table ρ key} {s : ρ}
    (hput : ∀ r, r ∈ t'.rows ↔ r = s ∨ (r ∈ t.rows ∧ key r ≠ key s))
    (hnew : key s ∉ before → ∀ r ∈ t.rows, key r ≠ key s) :
    t'.contents before f = putKnown (t.contents before f) (contentOf key before f s) := by
  have hperm : t'.rows.Perm (s :: t.rows.filter (fun r => decide (key r ≠ key s))) := by
    have hnodup : (s :: t.rows.filter (fun r => decide (key r ≠ key s))).Nodup := by
      refine List.nodup_cons.mpr ⟨?_, t.rows_nodup.filter _⟩
      simp
    apply (List.perm_ext_iff_of_nodup t'.rows_nodup hnodup).mpr
    intro r
    rw [hput, List.mem_cons, List.mem_filter, decide_eq_true_eq]
  have hkeys : ∀ r ∈ t.rows, (key r ≠ key s ↔ (contentOf key before f r).1 = none ∨
      (contentOf key before f r).1 ≠ (contentOf key before f s).1) := by
    intro r hr
    by_cases hkey : key r = key s
    · have hs : key s ∈ before := by
        by_contra hs
        exact hnew hs r hr hkey
      simp [contentOf, hkey, knownKey, hs]
    · by_cases hbefore : key r ∈ before
      · have hne : knownKey before (key s) ≠ some (key r) := fun h =>
          hkey (knownKey_eq_some.mp h).2.symm
        simp [contentOf, hkey, knownKey_eq_some.mpr ⟨hbefore, rfl⟩, hne.symm]
      · simp [contentOf, hkey, knownKey_of_not_mem hbefore]
  calc t'.contents before f
      = ((s :: t.rows.filter (fun r => decide (key r ≠ key s))).map
          (contentOf key before f) : List (Option Nat × α)) :=
        Multiset.coe_eq_coe.mpr (hperm.map _)
    _ = putKnown (t.contents before f) (contentOf key before f s) := by
        rw [List.map_cons, ← Multiset.cons_coe, putKnown, contents, Multiset.filter_coe,
          List.filter_map]
        congr 3
        apply List.filter_congr
        intro r hr
        simp only [Function.comp_apply, decide_eq_decide]
        exact hkeys r hr

/-- Rewriting the rows of some known keys. -/
theorem contents_update {before : List Nat} {f : ρ → α} {t : Table ρ key} {ids : List Nat}
    {g : ρ → ρ} (hg : ∀ r, key (g r) = key r) {g' : α → α} (hfg : ∀ r, f (g r) = g' (f r))
    (hids : ∀ k ∈ ids, k ∈ before) :
    (t.update (fun r => decide (key r ∈ ids)) g hg).contents before f =
      (t.contents before f).map (fun c =>
        if ∃ k ∈ ids, c.1 = some k then (c.1, g' c.2) else c) := by
  simp only [contents, rows_update, Multiset.map_coe, List.map_map]
  congr 1
  apply List.map_congr_left
  intro r _
  have hknown : (∃ k ∈ ids, (contentOf key before f r).1 = some k) ↔ key r ∈ ids := by
    constructor
    · rintro ⟨k, hk, he⟩
      rw [(knownKey_eq_some.mp he).2]
      exact hk
    · intro hr
      exact ⟨key r, hr, knownKey_eq_some.mpr ⟨hids _ hr, rfl⟩⟩
  simp only [Function.comp_apply, hknown, decide_eq_true_eq]
  split
  · simp [contentOf, hg, hfg]
  · rfl

end Table

end Relational
