import Mathlib.Algebra.BigOperators.Ring.Finset
import Mathlib.Data.Int.ConditionallyCompleteOrder
import Mathlib.Data.Int.Interval
import Mathlib.Data.Set.Card
import Mathlib.Order.Interval.Set.Nat

/-! Samples at irregular times, and what becomes of them on a regular grid: at each point of
the grid the latest sample not after it, from the first sample to the last. A column has a
value, or none, at each point of its index. Columns are combined point by point, on the
union of their indexes. -/

namespace Resample

variable {α β γ : Type*}

structure Sample (α : Type*) where
  time : Int
  value : Option α

/-- The latest sample not after `t`. Of several at one time the one read last counts. -/
def latest (t : Int) : List (Sample α) → Option (Sample α)
  | [] => none
  | s :: rest =>
    match latest t rest with
    | some s' => if s.time ≤ t ∧ s'.time < s.time then some s else some s'
    | none => if s.time ≤ t then some s else none

def IsLatest (samples : List (Sample α)) (t : Int) (s : Sample α) : Prop :=
  ∃ before after, samples = before ++ s :: after ∧ s.time ≤ t ∧
    (∀ p ∈ before, p.time ≤ t → p.time ≤ s.time) ∧ ∀ p ∈ after, p.time ≤ t → p.time < s.time

theorem IsLatest.mem {samples : List (Sample α)} {t : Int} {s : Sample α}
    (h : IsLatest samples t s) : s ∈ samples ∧ s.time ≤ t := by
  obtain ⟨before, after, rfl, ht, -⟩ := h
  exact ⟨List.mem_append_right before List.mem_cons_self, ht⟩

theorem IsLatest.le {samples : List (Sample α)} {t : Int} {s p : Sample α}
    (h : IsLatest samples t s) (hp : p ∈ samples) (hpt : p.time ≤ t) : p.time ≤ s.time := by
  obtain ⟨before, after, rfl, -, hbefore, hafter⟩ := h
  rcases List.mem_append.mp hp with hp | hp
  · exact hbefore p hp hpt
  · rcases List.mem_cons.mp hp with rfl | hp
    · exact le_rfl
    · exact (hafter p hp hpt).le

theorem latest_eq_none_iff {samples : List (Sample α)} {t : Int} :
    latest t samples = none ↔ ∀ p ∈ samples, t < p.time := by
  induction samples with
  | nil => simp [latest]
  | cons s rest ih =>
    unfold latest
    cases hrest : latest t rest with
    | none =>
      have hlater := ih.mp hrest
      by_cases hs : s.time ≤ t
      · simp [hs]
      · simpa [hs] using ⟨not_le.mp hs, hlater⟩
    | some s' =>
      have hnot : ¬ ∀ p ∈ rest, t < p.time := fun hall => by simp [ih.mpr hall] at hrest
      simp only [List.forall_mem_cons, hnot, and_false, iff_false]
      split <;> simp

theorem isLatest_of_latest {samples : List (Sample α)} {t : Int} {s : Sample α}
    (h : latest t samples = some s) : IsLatest samples t s := by
  induction samples generalizing s with
  | nil => simp [latest] at h
  | cons p rest ih =>
    unfold latest at h
    cases hrest : latest t rest with
    | none =>
      have hlater := latest_eq_none_iff.mp hrest
      simp only [hrest] at h
      split at h
      · next hp =>
        obtain rfl := Option.some.inj h
        exact ⟨[], rest, rfl, hp, by simp, fun q hq hqt => absurd hqt (not_le.mpr (hlater q hq))⟩
      · simp at h
    | some s' =>
      have hs' := ih hrest
      simp only [hrest] at h
      split at h
      · next hp =>
        obtain rfl := Option.some.inj h
        exact ⟨[], rest, rfl, hp.1, by simp, fun q hq hqt => lt_of_le_of_lt (hs'.le hq hqt) hp.2⟩
      · next hp =>
        obtain rfl := Option.some.inj h
        obtain ⟨before, after, rfl, ht, hbefore, hafter⟩ := hs'
        refine ⟨p :: before, after, rfl, ht, ?_, hafter⟩
        intro q hq hqt
        rcases List.mem_cons.mp hq with rfl | hq
        · exact not_lt.mp (fun hlt => hp ⟨hqt, hlt⟩)
        · exact hbefore q hq hqt

theorem latest_eq_some_iff {samples : List (Sample α)} {t : Int} {s : Sample α} :
    latest t samples = some s ↔ IsLatest samples t s := by
  refine ⟨isLatest_of_latest, ?_⟩
  rintro ⟨before, after, rfl, ht, hbefore, hafter⟩
  induction before with
  | nil =>
    simp only [List.nil_append]
    unfold latest
    cases hrest : latest t after with
    | none => simp [ht]
    | some s' =>
      have hs' := (isLatest_of_latest hrest).mem
      simp [ht, hafter s' hs'.1 hs'.2]
  | cons p before ih =>
    rw [List.cons_append]
    unfold latest
    rw [ih (fun q hq => hbefore q (List.mem_cons_of_mem p hq))]
    have hp := hbefore p List.mem_cons_self
    simp only [ite_eq_right_iff, and_imp]
    intro hpt hlt
    exact absurd (hp hpt) (not_le.mpr hlt)

def points (first last : Int) : Finset Int :=
  ((List.range (last + 1 - first).toNat).map (fun i : Nat => first + i)).toFinset

theorem mem_points {first last k : Int} : k ∈ points first last ↔ first ≤ k ∧ k ≤ last := by
  simp only [points, List.mem_toFinset, List.mem_map, List.mem_range]
  constructor
  · rintro ⟨i, hi, rfl⟩
    omega
  · rintro ⟨hfirst, hlast⟩
    exact ⟨(k - first).toNat, by omega, by omega⟩

/-- The points of the grid from that of the first sample to that of the last. -/
def bins (unit : Int) (samples : List (Sample α)) : Finset Int :=
  match (samples.map (fun s => s.time / unit)).min?, (samples.map (fun s => s.time / unit)).max? with
  | some first, some last => points first last
  | _, _ => ∅

theorem mem_bins {unit k : Int} {samples : List (Sample α)} :
    k ∈ bins unit samples ↔
      (∃ s ∈ samples, s.time / unit ≤ k) ∧ ∃ s ∈ samples, k ≤ s.time / unit := by
  unfold bins
  cases hmin : (samples.map (fun s => s.time / unit)).min? with
  | none => simp_all
  | some first =>
    cases hmax : (samples.map (fun s => s.time / unit)).max? with
    | none => simp_all
    | some last =>
      obtain ⟨hfirst, hle⟩ := List.min?_eq_some_iff.mp hmin
      obtain ⟨hlast, hge⟩ := List.max?_eq_some_iff.mp hmax
      simp only [List.mem_map, forall_exists_index, and_imp, forall_apply_eq_imp_iff₂] at *
      obtain ⟨s, hs, rfl⟩ := hfirst
      obtain ⟨s', hs', rfl⟩ := hlast
      rw [mem_points]
      constructor
      · rintro ⟨h, h'⟩
        exact ⟨⟨s, hs, h⟩, s', hs', h'⟩
      · rintro ⟨⟨p, hp, h⟩, p', hp', h'⟩
        exact ⟨(hle p hp).trans h, h'.trans (hge p' hp')⟩

theorem bins_eq_empty_iff {unit : Int} {samples : List (Sample α)} :
    bins unit samples = ∅ ↔ samples = [] := by
  constructor
  · intro h
    cases samples with
    | nil => rfl
    | cons s rest =>
      have hs : s.time / unit ∈ bins unit (s :: rest) :=
        mem_bins.mpr ⟨⟨s, List.mem_cons_self, le_rfl⟩, s, List.mem_cons_self, le_rfl⟩
      simp [h] at hs
  · rintro rfl
    rfl

structure Column (α : Type*) where
  index : Finset Int
  value : Int → Option α
  outside : ∀ k, k ∉ index → value k = none

theorem Column.mem_index {c : Column α} {k : Int} {x : α} (h : c.value k = some x) :
    k ∈ c.index := by
  by_contra hk
  simp [c.outside k hk] at h

/-- Resampling to the grid with the values filled forward. -/
def ffill (unit : Int) (samples : List (Sample α)) : Column α where
  index := bins unit samples
  value k := if k ∈ bins unit samples then (latest (k * unit) samples).bind Sample.value else none
  outside _ hk := if_neg hk

/-- The value at a point of the grid that is not after the last sample is the one of the
latest sample. -/
def FilledAt (unit : Int) (samples : List (Sample α)) (k : Int) (x : α) : Prop :=
  (∃ s ∈ samples, k * unit ≤ s.time) ∧ ∃ s, IsLatest samples (k * unit) s ∧ s.value = some x

theorem ffill_eq_some_iff {unit k : Int} (hunit : 0 < unit) {samples : List (Sample α)} {x : α} :
    (ffill unit samples).value k = some x ↔ FilledAt unit samples k x := by
  have hbin : ∀ s : Sample α, k ≤ s.time / unit ↔ k * unit ≤ s.time := fun s =>
    Int.le_ediv_iff_mul_le hunit
  simp only [ffill, FilledAt, ← latest_eq_some_iff, ← hbin]
  constructor
  · intro h
    split at h
    · next hk =>
      obtain ⟨s, hs, hx⟩ := Option.bind_eq_some_iff.mp h
      exact ⟨(mem_bins.mp hk).2, s, hs, hx⟩
    · simp at h
  · rintro ⟨hlast, s, hs, hx⟩
    obtain ⟨hmem, hle⟩ := (latest_eq_some_iff.mp hs).mem
    have hfirst : s.time / unit ≤ k := by
      rw [← Int.mul_ediv_cancel k hunit.ne']
      exact Int.ediv_le_ediv hunit hle
    rw [if_pos (mem_bins.mpr ⟨⟨s, hmem, hfirst⟩, hlast⟩), hs]
    exact hx

theorem FilledAt.between {unit k : Int} {samples : List (Sample α)} {x : α}
    (h : FilledAt unit samples k x) :
    (∃ s ∈ samples, s.time ≤ k * unit) ∧ ∃ s ∈ samples, k * unit ≤ s.time := by
  obtain ⟨hlast, s, hs, -⟩ := h
  exact ⟨⟨s, hs.mem⟩, hlast⟩

theorem FilledAt.unique {unit k : Int} {samples : List (Sample α)} {x y : α}
    (h : FilledAt unit samples k x) (h' : FilledAt unit samples k y) : x = y := by
  obtain ⟨-, s, hs, hx⟩ := h
  obtain ⟨-, s', hs', hy⟩ := h'
  rw [← latest_eq_some_iff] at hs hs'
  rw [Option.some.inj (hs.symm.trans hs'), hy] at hx
  exact (Option.some.inj hx).symm

theorem FilledAt.mem {unit k : Int} {samples : List (Sample α)} {x : α}
    (h : FilledAt unit samples k x) : ∃ s ∈ samples, s.value = some x := by
  obtain ⟨-, s, hs, hx⟩ := h
  exact ⟨s, hs.mem.1, hx⟩

theorem filledAt_of_constant {unit k : Int} {samples : List (Sample α)} {x : α}
    (hvalue : ∀ s ∈ samples, s.value = some x) (hfirst : ∃ s ∈ samples, s.time ≤ k * unit)
    (hlast : ∃ s ∈ samples, k * unit ≤ s.time) : FilledAt unit samples k x := by
  refine ⟨hlast, ?_⟩
  cases hlatest : latest (k * unit) samples with
  | none =>
    obtain ⟨s, hs, hle⟩ := hfirst
    exact absurd hle (not_le.mpr (latest_eq_none_iff.mp hlatest s hs))
  | some s =>
    have hs := isLatest_of_latest hlatest
    exact ⟨s, hs, hvalue s hs.mem.1⟩

theorem ncard_Icc (first last : Int) : (Set.Icc first last).ncard = (last + 1 - first).toNat := by
  rw [← Finset.coe_Icc, Set.ncard_coe_finset, Int.card_Icc]

/-- At most `n + 1` points lie in a closed window of length `n`, and that many only if it ends
on the grid and has them all. -/
theorem ncard_le_or_eq_Icc {unit now : Int} (hunit : 0 < unit) {n : Nat} {s : Set Int}
    (h : ∀ k ∈ s, now - n * unit ≤ k * unit ∧ k * unit ≤ now) :
    s.ncard ≤ n ∨ ∃ last, now = last * unit ∧ s = Set.Icc (last - n) last := by
  have hbin : now / unit * unit ≤ now := Int.ediv_mul_le now hunit.ne'
  have hsub : s ⊆ Set.Icc (now / unit - n) (now / unit) := by
    intro k hk
    obtain ⟨hlow, hhigh⟩ := h k hk
    refine ⟨Int.le_of_mul_le_mul_right ?_ hunit, (Int.le_ediv_iff_mul_le hunit).mpr hhigh⟩
    rw [sub_mul]
    exact (sub_le_sub_right hbin _).trans hlow
  have hcard : (Set.Icc (now / unit - n) (now / unit)).ncard = n + 1 := by
    rw [ncard_Icc]
    omega
  by_cases hle : s.ncard ≤ n
  · exact Or.inl hle
  · have hall : s = Set.Icc (now / unit - n) (now / unit) :=
      Set.eq_of_subset_of_ncard_le hsub (by omega) (Set.finite_Icc _ _)
    have hfirst := (h (now / unit - n) (by rw [hall]; simp)).1
    rw [sub_mul] at hfirst
    exact Or.inr ⟨now / unit, le_antisymm ((sub_le_sub_iff_right _).mp hfirst) hbin, hall⟩

namespace Column

/-- Point by point, with no value where either side has none. -/
def map₂ (f : α → β → γ) (a : Column α) (b : Column β) : Column γ where
  index := a.index ∪ b.index
  value k := Option.map₂ f (a.value k) (b.value k)
  outside k hk := by
    rw [a.outside k (fun h => hk (Finset.mem_union_left _ h))]
    rfl

def count (p : α → Bool) (c : Column α) : Nat :=
  (c.index.filter (fun k => (c.value k).any p)).card

theorem count_eq_ncard (p : α → Bool) (c : Column α) :
    c.count p = Set.ncard {k | ∃ x, c.value k = some x ∧ p x = true} := by
  rw [count, ← Set.ncard_coe_finset]
  congr 1
  ext k
  simp only [Finset.coe_filter, Set.mem_ofPred_eq, Option.any_eq_true]
  constructor
  · exact And.right
  · rintro ⟨x, hx, hp⟩
    exact ⟨c.mem_index hx, x, hx, hp⟩

/-- The sum of the values that are there; none if there is a point but no value. -/
def sum [AddCommMonoid α] (c : Column α) : Option α :=
  if c.index.Nonempty ∧ ∀ k ∈ c.index, (c.value k).isNone then none
  else some (∑ k ∈ c.index, (c.value k).getD 0)

/-- The sum of zeros and ones is the number of ones. -/
theorem sum_eq_count [Semiring α] [Nontrivial α] [DecidableEq α] {c : Column α}
    (hvalue : ∀ k x, c.value k = some x → x = 0 ∨ x = 1)
    (hsome : c.index.Nonempty → ∃ k x, c.value k = some x) :
    c.sum = some (c.count (fun x => decide (x = 1)) : α) := by
  have hnot : ¬ (c.index.Nonempty ∧ ∀ k ∈ c.index, (c.value k).isNone) := by
    rintro ⟨hne, hnone⟩
    obtain ⟨k, x, hx⟩ := hsome hne
    simpa [hx] using hnone k (c.mem_index hx)
  have hterm : ∀ k ∈ c.index, (c.value k).getD 0 =
      if (c.value k).any (fun x => decide (x = 1)) then 1 else 0 := by
    intro k _
    cases hx : c.value k with
    | none => simp
    | some x => rcases hvalue k x hx with rfl | rfl <;> simp
  rw [sum, if_neg hnot, count, Finset.sum_congr rfl hterm, Finset.sum_boole]

end Column

/-- Columns side by side on the union of their indexes. -/
structure Frame (α : Type*) where
  columns : List (Column α)

namespace Frame

def index (f : Frame α) : Finset Int := f.columns.foldr (fun c s => c.index ∪ s) ∅

def cell (f : Frame α) (k : Int) (i : Nat) : Option α := (f.columns[i]?).bind (fun c => c.value k)

def countRows (p : (Nat → Option α) → Bool) (f : Frame α) : Nat :=
  (f.index.filter (fun k => p (f.cell k))).card

theorem mem_index {f : Frame α} {k : Int} : k ∈ f.index ↔ ∃ c ∈ f.columns, k ∈ c.index := by
  unfold index
  induction f.columns with
  | nil => simp
  | cons c rest ih => simp [ih]

/-- A row outside the index is empty, so a condition that no empty row fulfils counts the
points at which it is fulfilled. -/
theorem countRows_eq_ncard {p : (Nat → Option α) → Bool} (f : Frame α)
    (hp : p (fun _ => none) = false) : f.countRows p = Set.ncard {k | p (f.cell k) = true} := by
  rw [countRows, ← Set.ncard_coe_finset]
  congr 1
  ext k
  simp only [Finset.coe_filter, Set.mem_ofPred_eq, and_iff_right_iff_imp]
  intro hrow
  by_contra hk
  have hempty : f.cell k = fun _ => none := by
    funext i
    refine Option.bind_eq_none_iff.mpr ?_
    intro c hc
    exact c.outside k (fun hin => hk (mem_index.mpr ⟨c, List.mem_of_getElem? hc, hin⟩))
  rw [hempty, hp] at hrow
  exact Bool.false_ne_true hrow

end Frame

end Resample
