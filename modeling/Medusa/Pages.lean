import Mathlib.Data.List.Sort
import Mathlib.Data.List.Nodup
import Mathlib.Data.List.Perm.Basic
import Medusa.Listing

/-! A sorted query that is read page by page. Every page is a query of its own, and rows with
the same key may be in another order each time. -/

namespace Relational

variable {α κ : Type*} [LinearOrder κ] {key : α → κ} {rows l l' : List α}

/-- A result of the query: the rows, in an order in which the keys do not decrease. -/
structure Sorts (key : α → κ) (rows l : List α) : Prop where
  perm : l.Perm rows
  sorted : l.Pairwise (fun a b => key a ≤ key b)

/-- The first `n` pages, each from a result of its own. -/
def browse (size : Nat) (results : Nat → List α) (n : Nat) : List α :=
  (List.range n).flatMap (fun k => pageOf size k (results k))

/-- No two rows with the same key are on two sides of a page break. -/
def BreaksApart (key : α → κ) (rows : List α) (size : Nat) : Prop :=
  ∀ k v, ¬ (rows.countP (fun r => decide (key r < v)) < size * k ∧
    size * k < rows.countP (fun r => decide (key r ≤ v)))

def sortRows (key : α → κ) (rows : List α) : List α :=
  rows.mergeSort (fun a b => decide (key a ≤ key b))

theorem sortRows_sorts (key : α → κ) (rows : List α) : Sorts key rows (sortRows key rows) := by
  refine ⟨List.mergeSort_perm _ _, ?_⟩
  have hsorted : (sortRows key rows).Pairwise (fun a b => decide (key a ≤ key b) = true) :=
    List.pairwise_mergeSort
      (fun a b c hab hbc => by
        simp only [decide_eq_true_eq] at hab hbc ⊢
        exact hab.trans hbc)
      (fun a b => by simpa using le_total (key a) (key b)) rows
  simpa using hsorted

theorem browse_same (size n : Nat) (l : List α) : browse size (fun _ => l) n = l.take (size * n) := by
  induction n with
  | zero => simp [browse]
  | succ n ih =>
    rw [browse, List.range_succ, List.flatMap_append, ← browse, ih, List.flatMap_singleton, pageOf,
      Nat.mul_succ, List.take_add]

/-- In a sorted list the small keys come first. -/
theorem take_countP {p : α → Bool} (h : l.Pairwise (fun a b => p b = true → p a = true)) :
    l.take (l.countP p) = l.filter p := by
  induction l with
  | nil => rfl
  | cons a rest ih =>
    have hrest := List.pairwise_cons.mp h
    by_cases ha : p a = true
    · simp [ha, ih hrest.2]
    · have hnone : ∀ b ∈ rest, ¬ p b = true := fun b hb hp => ha (hrest.1 b hb hp)
      have hfilter : rest.filter p = [] := List.filter_eq_nil_iff.mpr hnone
      have hcount : rest.countP p = 0 := List.countP_eq_zero.mpr hnone
      simp [ha, hfilter, hcount]

theorem Sorts.take_lt (h : Sorts key rows l) (v : κ) :
    (l.take (rows.countP (fun r => decide (key r < v)))).Perm (rows.filter (fun r => decide (key r < v))) := by
  have hdown : l.Pairwise (fun a b => decide (key b < v) = true → decide (key a < v) = true) :=
    h.sorted.imp (fun hab hb => by
      simp only [decide_eq_true_eq] at hb ⊢
      exact hab.trans_lt hb)
  rw [← h.perm.countP_eq, take_countP hdown]
  exact h.perm.filter _

/-- The rows with keys below and up to that of a row enclose its place. -/
theorem Sorts.place (h : Sorts key rows l) {i : Nat} {a : α} (ha : l[i]? = some a) :
    rows.countP (fun r => decide (key r < key a)) ≤ i ∧
      i < rows.countP (fun r => decide (key r ≤ key a)) := by
  obtain ⟨pre, post, rfl, hi⟩ : ∃ pre post, l = pre ++ a :: post ∧ pre.length = i := by
    obtain ⟨hlt, he⟩ := List.getElem?_eq_some_iff.mp ha
    refine ⟨l.take i, l.drop (i + 1), ?_, by simp [Nat.min_eq_left (Nat.le_of_lt hlt)]⟩
    rw [← he, List.cons_getElem_drop_succ, List.take_append_drop]
  have hsorted := List.pairwise_append.mp h.sorted
  have hafter := (List.pairwise_cons.mp hsorted.2.1).1
  rw [← h.perm.countP_eq, ← h.perm.countP_eq, List.countP_append, List.countP_append, ← hi]
  constructor
  · have hnone : (a :: post).countP (fun r => decide (key r < key a)) = 0 := by
      rw [List.countP_eq_zero]
      intro b hb
      rcases List.mem_cons.mp hb with rfl | hb
      · simp
      · simpa using hafter b hb
    rw [hnone]
    exact List.countP_le_length
  · have hall : pre.countP (fun r => decide (key r ≤ key a)) = pre.length := by
      rw [List.countP_eq_length]
      intro b hb
      simpa using hsorted.2.2 b hb a List.mem_cons_self
    rw [hall, List.countP_cons_of_pos (by simp)]
    omega

theorem countP_le_countP_lt (key : α → κ) {u v : κ} (huv : u < v) (rows : List α) :
    rows.countP (fun r => decide (key r ≤ u)) ≤ rows.countP (fun r => decide (key r < v)) := by
  refine List.countP_mono_left ?_
  intro r _ hr
  simp only [decide_eq_true_eq] at hr ⊢
  exact hr.trans_lt huv

theorem Sorts.key_of_place (h : Sorts key rows l) {i : Nat} {a : α} {v : κ} (ha : l[i]? = some a)
    (hlow : rows.countP (fun r => decide (key r < v)) ≤ i)
    (hhigh : i < rows.countP (fun r => decide (key r ≤ v))) : key a = v := by
  obtain ⟨hlow', hhigh'⟩ := h.place ha
  rcases lt_trichotomy (key a) v with hlt | heq | hgt
  · have hcount := countP_le_countP_lt key hlt rows
    omega
  · exact heq
  · have hcount := countP_le_countP_lt key hgt rows
    omega

/-- Neighbours with the same key may change places. -/
theorem Sorts.swap {pre post : List α} {x y : α} (h : Sorts key rows (pre ++ x :: y :: post))
    (hxy : key x = key y) : Sorts key rows (pre ++ y :: x :: post) := by
  refine ⟨((List.Perm.swap x y post).append_left pre).trans h.perm, ?_⟩
  have hkeys : (pre ++ y :: x :: post).map key = (pre ++ x :: y :: post).map key := by simp [hxy]
  have hsorted := List.pairwise_map.mpr h.sorted
  rw [← hkeys] at hsorted
  exact List.pairwise_map.mp hsorted

/-- A list is split at two neighbours. -/
theorem exists_neighbours {i : Nat} (hi : i + 1 < l.length) :
    ∃ pre x y post, l = pre ++ x :: y :: post ∧ pre.length = i := by
  refine ⟨l.take i, l[i], l[i + 1], l.drop (i + 2), ?_, by simp; omega⟩
  rw [List.cons_getElem_drop_succ, List.cons_getElem_drop_succ, List.take_append_drop]

theorem mem_pageOf {size i : Nat} (hsize : 0 < size) {a : α} (ha : l[i]? = some a) :
    a ∈ pageOf size (i / size) l := by
  rw [← getElem?_pageOf size i hsize] at ha
  exact List.mem_of_getElem? ha

/-- A row that is on two of the pages is shown twice. -/
theorem not_nodup_browse {size n j k : Nat} (results : Nat → List α) (hjk : j < k) (hkn : k < n) {a : α}
    (hj : a ∈ pageOf size j (results j)) (hk : a ∈ pageOf size k (results k)) :
    ¬ (browse size results n).Nodup := by
  intro hnodup
  have hpairs := List.pairwise_iff_getElem.mp (List.nodup_flatMap.mp hnodup).2 j k
    (by simp; omega) (by simpa using hkn) hjk
  simp only [Function.onFun, List.getElem_range] at hpairs
  exact hpairs hj hk

/-- Two results have the same rows up to every page break. -/
theorem BreaksApart.take_perm {size : Nat} (hbreaks : BreaksApart key rows size) (h : Sorts key rows l)
    (h' : Sorts key rows l') (k : Nat) : (l.take (size * k)).Perm (l'.take (size * k)) := by
  cases ha : l[size * k]? with
  | none =>
    have hlen := List.getElem?_eq_none_iff.mp ha
    have hlen' : l'.length ≤ size * k := by rw [h'.perm.length_eq, ← h.perm.length_eq]; exact hlen
    rw [List.take_of_length_le hlen, List.take_of_length_le hlen']
    exact h.perm.trans h'.perm.symm
  | some a =>
    obtain ⟨hlow, hhigh⟩ := h.place ha
    have hcount : rows.countP (fun r => decide (key r < key a)) = size * k := by
      have hnot := hbreaks k (key a)
      omega
    rw [← hcount]
    exact (h.take_lt (key a)).trans (h'.take_lt (key a)).symm

theorem BreaksApart.pageOf_perm {size : Nat} (hbreaks : BreaksApart key rows size) (h : Sorts key rows l)
    (h' : Sorts key rows l') (k : Nat) : (pageOf size k l).Perm (pageOf size k l') := by
  have hbefore := hbreaks.take_perm h h' k
  have hafter := hbreaks.take_perm h h' (k + 1)
  rw [Nat.mul_succ, List.take_add, List.take_add] at hafter
  exact (List.perm_append_left_iff _).mp (hafter.trans (hbefore.symm.append_right _))

/-- Where a break separates rows with a key, there are two of them beside it. -/
theorem exists_tie {b : Nat} {v : κ} (hlow : rows.countP (fun r => decide (key r < v)) < b)
    (hhigh : b < rows.countP (fun r => decide (key r ≤ v))) :
    ∃ pre x y post, Sorts key rows (pre ++ x :: y :: post) ∧ key x = key y ∧ pre.length + 1 = b := by
  have hl := sortRows_sorts key rows
  have hlen : rows.countP (fun r => decide (key r ≤ v)) ≤ rows.length := List.countP_le_length
  obtain ⟨pre, x, y, post, he, hpre⟩ := exists_neighbours (l := sortRows key rows) (i := b - 1)
    (by rw [hl.perm.length_eq]; omega)
  rw [he] at hl
  have hx : key x = v := hl.key_of_place (i := pre.length) (by simp) (by omega) (by omega)
  have hy : key y = v := hl.key_of_place (i := pre.length + 1) (by simp) (by omega) (by omega)
  exact ⟨pre, x, y, post, hl, hx.trans hy.symm, by omega⟩

/-- One of the two may then be shown twice. -/
theorem exists_shown_twice {size n k : Nat} {v : κ} (hsize : 0 < size) (hn : rows.length ≤ size * n)
    (hlow : rows.countP (fun r => decide (key r < v)) < size * k)
    (hhigh : size * k < rows.countP (fun r => decide (key r ≤ v))) :
    ∃ results : Nat → List α, (∀ m, Sorts key rows (results m)) ∧ ¬ (browse size results n).Nodup := by
  have hlen : rows.countP (fun r => decide (key r ≤ v)) ≤ rows.length := List.countP_le_length
  have hk : k ≠ 0 := by
    rintro rfl
    omega
  obtain ⟨j, rfl⟩ : ∃ j, k = j + 1 := Nat.exists_eq_succ_of_ne_zero hk
  have hkn : j + 1 < n := Nat.lt_of_mul_lt_mul_left (a := size) (by omega)
  obtain ⟨pre, x, y, post, hl, hxy, hpre⟩ := exists_tie hlow hhigh
  have hbefore : x ∈ pageOf size j (pre ++ x :: y :: post) := by
    have hpage := mem_pageOf hsize (l := pre ++ x :: y :: post) (i := pre.length) (a := x) (by simp)
    have hsplit : pre.length = size * j + (size - 1) := by
      rw [Nat.mul_succ] at hpre
      omega
    rwa [hsplit, Nat.mul_add_div hsize, Nat.div_eq_of_lt (by omega), Nat.add_zero] at hpage
  have hafter : x ∈ pageOf size (j + 1) (pre ++ y :: x :: post) := by
    have hpage := mem_pageOf hsize (l := pre ++ y :: x :: post) (i := pre.length + 1) (a := x) (by simp)
    rwa [hpre, Nat.mul_div_cancel_left _ hsize] at hpage
  refine ⟨fun m => if m = j then pre ++ x :: y :: post else pre ++ y :: x :: post, ?_, ?_⟩
  · intro m
    by_cases hm : m = j
    · simpa [hm] using hl
    · simpa [hm] using hl.swap hxy
  · exact not_nodup_browse _ (Nat.lt_succ_self j) hkn (by simpa using hbefore) (by simpa using hafter)

/-- The pages show every row once, whatever order rows with the same key come in, exactly if
no such rows are on two sides of a page break. -/
theorem browse_perm_iff {size n : Nat} (hsize : 0 < size) (hnodup : rows.Nodup)
    (hn : rows.length ≤ size * n) :
    (∀ results : Nat → List α, (∀ k, Sorts key rows (results k)) → (browse size results n).Perm rows) ↔
      BreaksApart key rows size := by
  constructor
  · rintro hall k v ⟨hlow, hhigh⟩
    obtain ⟨results, hresults, htwice⟩ := exists_shown_twice hsize hn hlow hhigh
    exact htwice ((hall results hresults).nodup_iff.mpr hnodup)
  · intro hbreaks results hresults
    have hl := sortRows_sorts key rows
    have hpages : (browse size results n).Perm (browse size (fun _ => sortRows key rows) n) := by
      refine List.Perm.flatMap_left _ ?_
      intro k _
      exact hbreaks.pageOf_perm (hresults k) hl k
    have hall : (sortRows key rows).length ≤ size * n := by
      rw [hl.perm.length_eq]
      exact hn
    rw [browse_same, List.take_of_length_le hall] at hpages
    exact hpages.trans hl.perm

/-- An order in which the database may list the rows of a query. -/
structure QueryOrder (key : α → κ) where
  visit : List α → List α
  sorts : ∀ rows, Sorts key rows (visit rows)

/-- Rows with the same key in the order in which they are stored. -/
def QueryOrder.stored (key : α → κ) : QueryOrder key := ⟨sortRows key, sortRows_sorts key⟩

open Classical in
theorem exists_order {results : Nat → List α} (h : ∀ k, Sorts key rows (results k)) :
    ∃ orders : Nat → QueryOrder key, ∀ k, (orders k).visit rows = results k := by
  refine ⟨fun k => ⟨fun l => if l = rows then results k else sortRows key l, ?_⟩, fun k => if_pos rfl⟩
  intro l
  by_cases hl : l = rows
  · rw [if_pos hl, hl]
    exact h k
  · rw [if_neg hl]
    exact sortRows_sorts key l

/-- The same where every page is read in an order that the database chooses. -/
theorem browse_orders_iff {size n : Nat} (hsize : 0 < size) (hnodup : rows.Nodup)
    (hn : rows.length ≤ size * n) :
    (∀ orders : Nat → QueryOrder key,
      (browse size (fun k => (orders k).visit rows) n).Perm rows) ↔ BreaksApart key rows size := by
  rw [← browse_perm_iff hsize hnodup hn]
  constructor
  · intro hall results hresults
    obtain ⟨orders, horders⟩ := exists_order hresults
    have hbrowse := hall orders
    simpa only [horders] using hbrowse
  · intro hall orders
    exact hall _ (fun k => (orders k).sorts rows)

/-- The same for a function that returns the pages. -/
theorem readPages_iff {size n : Nat} (hsize : 0 < size) (hnodup : rows.Nodup)
    (hn : rows.length ≤ size * n) {page : Nat → QueryOrder key → Option (List α)}
    (hpage : ∀ k order, page k order = some (pageOf size k (order.visit rows))) :
    (∀ orders : Nat → QueryOrder key, ∃ pages : Nat → List α,
      (∀ k < n, page k (orders k) = some (pages k)) ∧ ((List.range n).flatMap pages).Perm rows) ↔
      BreaksApart key rows size := by
  rw [← browse_orders_iff hsize hnodup hn]
  refine forall_congr' ?_
  intro orders
  constructor
  · rintro ⟨pages, hpages, hperm⟩
    have hsame : browse size (fun k => (orders k).visit rows) n = (List.range n).flatMap pages := by
      refine List.flatMap_congr ?_
      intro k hk
      have hk := hpages k (List.mem_range.mp hk)
      rw [hpage] at hk
      exact Option.some.inj hk
    rw [hsame]
    exact hperm
  · intro hperm
    exact ⟨_, fun k _ => hpage k (orders k), hperm⟩

/-- Where no two rows have the same key, there is nothing to separate. -/
theorem breaksApart_of_nodup (h : (rows.map key).Nodup) (size : Nat) : BreaksApart key rows size := by
  rintro k v ⟨hlow, hhigh⟩
  obtain ⟨pre, x, y, post, hl, hxy, -⟩ := exists_tie hlow hhigh
  have hkeys := (hl.perm.map key).nodup_iff.mpr h
  rw [List.map_append, List.map_cons, List.map_cons, hxy] at hkeys
  have hpair := (List.nodup_append.mp hkeys).2.1
  simp at hpair

/-- Every row is on one of the pages. -/
theorem exists_page {size n : Nat} (hsize : 0 < size) (hn : rows.length ≤ size * n)
    (h : Sorts key rows l) {a : α} (ha : a ∈ rows) : ∃ k < n, a ∈ pageOf size k l := by
  obtain ⟨i, hi, he⟩ := List.getElem_of_mem (h.perm.mem_iff.mpr ha)
  have hlen : i < size * n := by
    rw [h.perm.length_eq] at hi
    omega
  refine ⟨i / size, Nat.div_lt_of_lt_mul hlen, mem_pageOf hsize ?_⟩
  rw [List.getElem?_eq_getElem hi, he]

theorem mem_of_mem_pageOf {size k : Nat} {a : α} (h : a ∈ pageOf size k l) : a ∈ l :=
  List.mem_of_mem_drop (List.mem_of_mem_take h)

end Relational
