import Mathlib.Algebra.BigOperators.Group.List.Basic
import Mathlib.Algebra.GroupWithZero.Nat
import Mathlib.Data.List.Nodup
import Mathlib.Data.List.Perm.Basic

/-! Tables of rows under a numeric primary key. A table is the list of its rows
in the order in which a query without an order returns them. That no key occurs
twice is part of the type, so no operation can build a table with two rows
under one key. -/

namespace Relational

/-- References to keys may be missing. -/
instance lawfulBEqReference : LawfulBEq (Option Nat) := inferInstance

structure Table (ρ : Type*) (key : ρ → Nat) where
  rows : List ρ
  nodup : (rows.map key).Nodup

namespace Table

variable {ρ : Type*} {key : ρ → Nat}

@[ext]
theorem ext {t t' : Table ρ key} (h : t.rows = t'.rows) : t = t' := by
  cases t
  cases t'
  cases h
  rfl

def empty : Table ρ key := ⟨[], List.nodup_nil⟩

@[simp] theorem rows_empty : (empty : Table ρ key).rows = [] := rfl

def first? (t : Table ρ key) (p : ρ → Bool) : Option ρ := t.rows.find? p

/-- `one()` of a filtered query: `none` is the exception raised when no row or
more than one row passes the filter. -/
def one? (t : Table ρ key) (p : ρ → Bool) : Option ρ :=
  match t.rows.filter p with
  | [r] => some r
  | _ => none

def get? (t : Table ρ key) (k : Nat) : Option ρ := t.first? (fun r => key r == k)

theorem keys_rewrite (t : Table ρ key) {p : ρ → Bool} {f : ρ → ρ} (hf : ∀ r, key (f r) = key r) :
    (t.rows.map (fun r => if p r then f r else r)).map key = t.rows.map key := by
  rw [List.map_map]
  apply List.map_congr_left
  intro r _
  by_cases hp : p r <;> simp [hp, hf]

/-- Rewrite the rows that pass the filter. The primary key is never rewritten. -/
def update (t : Table ρ key) (p : ρ → Bool) (f : ρ → ρ) (hf : ∀ r, key (f r) = key r) :
    Table ρ key where
  rows := t.rows.map (fun r => if p r then f r else r)
  nodup := by
    rw [keys_rewrite t hf]
    exact t.nodup

def nextKey (t : Table ρ key) : Nat := (t.rows.map key).foldr max 0 + 1

theorem key_lt_nextKey {t : Table ρ key} {r : ρ} (h : r ∈ t.rows) : key r < t.nextKey := by
  have hk : ∀ (l : List Nat), ∀ k ∈ l, k ≤ l.foldr max 0 := by
    intro l
    induction l with
    | nil => simp
    | cons x xs ih =>
      intro k hm
      rcases List.mem_cons.mp hm with rfl | hm
      · exact Nat.le_max_left _ _
      · exact Nat.le_trans (ih k hm) (Nat.le_max_right _ _)
  exact Nat.lt_succ_of_le (hk _ _ (List.mem_map_of_mem h))

def insert (t : Table ρ key) (row : Nat → ρ) (hrow : ∀ k, key (row k) = k) : Table ρ key where
  rows := t.rows ++ [row t.nextKey]
  nodup := by
    rw [List.map_append, List.nodup_append]
    refine ⟨t.nodup, by simp, ?_⟩
    intro a ha b hb
    simp only [List.map_cons, List.map_nil, List.mem_singleton] at hb
    obtain ⟨r, hr, rfl⟩ := List.mem_map.mp ha
    have hlt := key_lt_nextKey hr
    rw [hb, hrow]
    exact Nat.ne_of_lt hlt

def delete (t : Table ρ key) (p : ρ → Bool) : Table ρ key where
  rows := t.rows.filter (fun r => !p r)
  nodup := t.nodup.sublist (List.filter_sublist.map key)

@[simp] theorem rows_update (t : Table ρ key) (p : ρ → Bool) (f : ρ → ρ)
    (hf : ∀ r, key (f r) = key r) :
    (t.update p f hf).rows = t.rows.map (fun r => if p r then f r else r) := rfl

@[simp] theorem rows_insert (t : Table ρ key) (row : Nat → ρ) (hrow : ∀ k, key (row k) = k) :
    (t.insert row hrow).rows = t.rows ++ [row t.nextKey] := rfl

@[simp] theorem rows_delete (t : Table ρ key) (p : ρ → Bool) :
    (t.delete p).rows = t.rows.filter (fun r => !p r) := rfl

theorem eq_of_key_eq {t : Table ρ key} {r r' : ρ} (h : r ∈ t.rows) (h' : r' ∈ t.rows)
    (hk : key r = key r') : r = r' :=
  List.inj_on_of_nodup_map t.nodup h h' hk

theorem rows_nodup (t : Table ρ key) : t.rows.Nodup := List.Nodup.of_map key t.nodup

theorem mem_of_first? {t : Table ρ key} {p : ρ → Bool} {r : ρ} (h : t.first? p = some r) :
    r ∈ t.rows ∧ p r = true :=
  ⟨List.mem_of_find?_eq_some h, List.find?_some h⟩

theorem first?_eq_none {t : Table ρ key} {p : ρ → Bool} (h : t.first? p = none) :
    ∀ r ∈ t.rows, p r = false := by
  intro r hr
  simpa using List.find?_eq_none.mp h r hr

theorem get?_eq_some {t : Table ρ key} {k : Nat} {r : ρ} :
    t.get? k = some r ↔ r ∈ t.rows ∧ key r = k := by
  constructor
  · intro h
    have hh := mem_of_first? h
    exact ⟨hh.1, by simpa using hh.2⟩
  · rintro ⟨hr, rfl⟩
    cases hf : t.get? (key r) with
    | none => simpa using first?_eq_none hf r hr
    | some r' =>
      have hh := mem_of_first? hf
      rw [eq_of_key_eq hh.1 hr (by simpa using hh.2)]

/-- A query that is joined to a row by its key. -/
theorem any_key (t : Table ρ key) (k : Nat) (p : ρ → Bool) :
    t.rows.any (fun r => key r == k && p r) = (t.get? k).any p := by
  rw [Bool.eq_iff_iff, List.any_eq_true]
  constructor
  · rintro ⟨r, hr, hp⟩
    obtain ⟨hk, hp⟩ := Bool.and_eq_true_iff.mp hp
    rw [get?_eq_some.mpr ⟨hr, beq_iff_eq.mp hk⟩]
    exact hp
  · intro h
    cases hget : t.get? k with
    | none => simp [hget] at h
    | some r =>
      rw [hget] at h
      obtain ⟨hr, hk⟩ := get?_eq_some.mp hget
      exact ⟨r, hr, Bool.and_eq_true_iff.mpr ⟨beq_iff_eq.mpr hk, h⟩⟩

theorem filter_eq_singleton {t : Table ρ key} {p : ρ → Bool} {r : ρ} :
    t.rows.filter p = [r] ↔ (r ∈ t.rows ∧ p r = true) ∧ ∀ r' ∈ t.rows, p r' = true → r' = r := by
  constructor
  · intro h
    have hm : ∀ r', r' ∈ t.rows.filter p ↔ r' = r := by simp [h]
    refine ⟨List.mem_filter.mp ((hm r).mpr rfl), ?_⟩
    intro r' hr' hp'
    exact (hm r').mp (List.mem_filter.mpr ⟨hr', hp'⟩)
  · rintro ⟨hr, huniq⟩
    have hnd := t.rows_nodup.filter p
    have hm : r ∈ t.rows.filter p := List.mem_filter.mpr hr
    have hall : ∀ r' ∈ t.rows.filter p, r' = r := by
      intro r' hr'
      exact huniq r' (List.mem_filter.mp hr').1 (List.mem_filter.mp hr').2
    have hrep := List.eq_replicate_of_mem hall
    have hlen : (t.rows.filter p).length ≤ 1 := by
      rw [hrep] at hnd
      exact List.nodup_replicate.mp hnd
    have hpos := List.length_pos_of_mem hm
    have hone : (t.rows.filter p).length = 1 := by omega
    rw [hrep, hone]
    rfl

theorem one?_eq_some {t : Table ρ key} {p : ρ → Bool} {r : ρ} :
    t.one? p = some r ↔ (r ∈ t.rows ∧ p r = true) ∧ ∀ r' ∈ t.rows, p r' = true → r' = r := by
  rw [← filter_eq_singleton]
  unfold one?
  split
  · next r' h => simp [h]
  · next h =>
    constructor
    · simp
    · intro hs
      exact absurd hs (h r)

theorem one?_key {t : Table ρ key} {r : ρ} (h : r ∈ t.rows) :
    t.one? (fun r' => key r' == key r) = some r := by
  rw [one?_eq_some]
  refine ⟨⟨h, by simp⟩, ?_⟩
  intro r' hr' hk
  exact eq_of_key_eq hr' h (by simpa using hk)

theorem one?_isSome {t : Table ρ key} {p : ρ → Bool} :
    (t.one? p).isSome ↔ ∃! r, r ∈ t.rows ∧ p r = true := by
  rw [Option.isSome_iff_exists]
  constructor
  · rintro ⟨r, h⟩
    have hh := one?_eq_some.mp h
    exact ⟨r, hh.1, fun r' hr' => hh.2 r' hr'.1 hr'.2⟩
  · rintro ⟨r, hr, huniq⟩
    exact ⟨r, one?_eq_some.mpr ⟨hr, fun r' hr' hp' => huniq r' ⟨hr', hp'⟩⟩⟩

theorem one?_map_iff {β : Type*} {t : Table ρ key} {p : ρ → Bool} {f : ρ → β} {P : β → Prop} :
    (∃ b, (t.one? p).map f = some b ∧ P b) ↔
      (∃! r, r ∈ t.rows ∧ p r = true) ∧ ∀ r ∈ t.rows, p r = true → P (f r) := by
  rw [← one?_isSome]
  constructor
  · intro h
    obtain ⟨b, hb, hP⟩ := h
    obtain ⟨r, hr, rfl⟩ := Option.map_eq_some_iff.mp hb
    refine ⟨by simp [hr], ?_⟩
    intro r' hr' hp'
    rw [(one?_eq_some.mp hr).2 r' hr' hp']
    exact hP
  · intro h
    obtain ⟨r, hr⟩ := Option.isSome_iff_exists.mp h.1
    have hrow := (one?_eq_some.mp hr).1
    exact ⟨f r, by simp [hr], h.2 r hrow.1 hrow.2⟩

theorem mem_update {t : Table ρ key} {p : ρ → Bool} {f : ρ → ρ} {hf : ∀ r, key (f r) = key r}
    {r : ρ} : r ∈ (t.update p f hf).rows ↔ ∃ r₀ ∈ t.rows, (if p r₀ then f r₀ else r₀) = r :=
  List.mem_map

/-- An update of rows outside a query, before and after, is not seen by it. -/
theorem filter_update {t : Table ρ key} {p q : ρ → Bool} {f : ρ → ρ}
    (hf : ∀ r, key (f r) = key r)
    (h : ∀ r ∈ t.rows, p r = true → q r = false ∧ q (f r) = false) :
    (t.update p f hf).rows.filter q = t.rows.filter q := by
  rw [rows_update]
  generalize t.rows = l at h
  induction l with
  | nil => rfl
  | cons x xs ih =>
    have hh := ih (fun r hr => h r (List.mem_cons_of_mem x hr))
    by_cases hp : p x = true
    · have hq := h x List.mem_cons_self hp
      simp only [List.map_cons, hp, if_true, List.filter_cons, hq.1, hq.2]
      exact hh
    · simp only [List.map_cons, hp, List.filter_cons]
      rw [hh]
      rfl

theorem filter_update_map {t : Table ρ key} {p q : ρ → Bool} {f : ρ → ρ}
    (hf : ∀ r, key (f r) = key r) (h : ∀ r, q (f r) = q r) :
    (t.update p f hf).rows.filter q = (t.rows.filter q).map (fun r => if p r then f r else r) := by
  rw [rows_update, List.filter_map]
  congr 1
  apply List.filter_congr
  intro r _
  simp only [Function.comp_apply]
  split
  · exact h r
  · rfl

theorem one?_update {t : Table ρ key} {p q : ρ → Bool} {f : ρ → ρ}
    (hf : ∀ r, key (f r) = key r) (h : ∀ r, q (f r) = q r) {r : ρ} (hr : t.one? q = some r) :
    (t.update p f hf).one? q = some (if p r then f r else r) := by
  have hone : t.rows.filter q = [r] := filter_eq_singleton.mpr (one?_eq_some.mp hr)
  unfold one?
  rw [filter_update_map hf h, hone, List.map_singleton]

theorem get?_update_of_ne {t : Table ρ key} {p : ρ → Bool} {f : ρ → ρ}
    (hf : ∀ r, key (f r) = key r) {k : Nat} (h : ∀ r ∈ t.rows, p r = true → key r ≠ k) :
    (t.update p f hf).get? k = t.get? k := by
  apply Option.ext
  intro r
  rw [get?_eq_some, get?_eq_some, mem_update]
  constructor
  · intro hr
    obtain ⟨⟨r₀, hr₀, he⟩, hk⟩ := hr
    by_cases hp : p r₀ = true
    · simp only [hp, if_true] at he
      rw [← he, hf] at hk
      exact absurd hk (h r₀ hr₀ hp)
    · simp only [hp] at he
      exact ⟨he ▸ hr₀, hk⟩
  · intro hr
    have hp : p r ≠ true := fun hp => h r hr.1 hp hr.2
    exact ⟨⟨r, hr.1, by simp [hp]⟩, hr.2⟩

theorem get?_update {t : Table ρ key} {f : ρ → ρ} (hf : ∀ r, key (f r) = key r) (k : Nat) :
    (t.update (fun r => key r == k) f hf).get? k = (t.get? k).map f := by
  apply Option.ext
  intro r
  simp only [get?_eq_some, mem_update, Option.map_eq_some_iff]
  constructor
  · intro hr
    obtain ⟨⟨r₀, hr₀, he⟩, hk⟩ := hr
    by_cases hk₀ : key r₀ = k
    · exact ⟨r₀, ⟨hr₀, hk₀⟩, by simpa [hk₀] using he⟩
    · simp only [beq_iff_eq, hk₀, if_false] at he
      exact absurd (he ▸ hk) hk₀
  · intro hr
    obtain ⟨r₀, ⟨hr₀, hk₀⟩, rfl⟩ := hr
    exact ⟨⟨r₀, hr₀, by simp [hk₀]⟩, (hf r₀).trans hk₀⟩

theorem get?_foldl_update_other {f : ρ → ρ → ρ} (hf : ∀ x r, key (f x r) = key r) {l : List ρ}
    {k : Nat} (hk : k ∉ l.map key) (t : Table ρ key) :
    (l.foldl (fun t x => t.update (fun r => key r == key x) (f x) (hf x)) t).get? k = t.get? k := by
  induction l generalizing t with
  | nil => rfl
  | cons x rest ih =>
    rw [List.map_cons, List.mem_cons, not_or] at hk
    rw [List.foldl_cons, ih hk.2, get?_update_of_ne]
    intro r _ hr
    rw [beq_iff_eq.mp hr]
    exact Ne.symm hk.1

/-- A loop over distinct rows that rewrites each of them in its turn. -/
theorem get?_foldl_update {f : ρ → ρ → ρ} (hf : ∀ x r, key (f x r) = key r) {l : List ρ}
    (hl : (l.map key).Nodup) {x : ρ} (hx : x ∈ l) (t : Table ρ key) :
    (l.foldl (fun t x => t.update (fun r => key r == key x) (f x) (hf x)) t).get? (key x) =
      (t.get? (key x)).map (f x) := by
  induction l generalizing t with
  | nil => exact absurd hx List.not_mem_nil
  | cons y rest ih =>
    rw [List.map_cons, List.nodup_cons] at hl
    rw [List.foldl_cons]
    rcases List.mem_cons.mp hx with rfl | hx
    · rw [get?_foldl_update_other hf hl.1, get?_update]
    · rw [ih hl.2 hx, get?_update_of_ne]
      intro r _ hr
      rw [beq_iff_eq.mp hr]
      intro he
      exact hl.1 (he ▸ List.mem_map_of_mem hx)

/-- A query that does not look at what was rewritten finds the same row, rewritten. -/
theorem first?_of_map {t t' : Table ρ key} {f : ρ → ρ} (h : t'.rows = t.rows.map f)
    {q : ρ → Bool} (hq : ∀ r, q (f r) = q r) : t'.first? q = (t.first? q).map f := by
  unfold first?
  rw [h, List.find?_map]
  congr 2
  funext r
  exact hq r

theorem first?_update {t : Table ρ key} {p q : ρ → Bool} {f : ρ → ρ}
    (hf : ∀ r, key (f r) = key r) (hq : ∀ r, q (f r) = q r) :
    (t.update p f hf).first? q = (t.first? q).map (fun r => if p r then f r else r) := by
  refine first?_of_map (rows_update t p f hf) (fun r => ?_)
  by_cases hp : p r = true <;> simp [hp, hq]

theorem get?_update_map {t : Table ρ key} {p : ρ → Bool} {f : ρ → ρ}
    (hf : ∀ r, key (f r) = key r) (k : Nat) :
    (t.update p f hf).get? k = (t.get? k).map (fun r => if p r then f r else r) :=
  first?_update hf (fun r => by rw [hf])

theorem sum_update {t : Table ρ key} {f : ρ → ρ} (hf : ∀ r, key (f r) = key r) (w : ρ → Nat)
    {r : ρ} (hr : r ∈ t.rows) :
    ((t.update (fun r' => key r' == key r) f hf).rows.map w).sum + w r =
      (t.rows.map w).sum + w (f r) := by
  have hnd := t.nodup
  rw [rows_update]
  generalize t.rows = l at hr hnd
  induction l with
  | nil => simp at hr
  | cons x xs ih =>
    rw [List.map_cons, List.nodup_cons] at hnd
    by_cases hk : key x = key r
    · have hsame : ∀ r' ∈ xs, (if (key r' == key r) = true then f r' else r') = r' := by
        intro r' hr'
        have hne : key r' ≠ key r := fun he => hnd.1 (hk ▸ he ▸ List.mem_map_of_mem hr')
        simp [hne]
      have hrest : xs.map (fun r' => if (key r' == key r) = true then f r' else r') = xs :=
        (List.map_congr_left hsame).trans (List.map_id' xs)
      have hx : x = r := by
        rcases List.mem_cons.mp hr with h | h
        · exact h.symm
        · exact absurd (List.mem_map_of_mem h) (hk ▸ hnd.1)
      rw [List.map_cons, hrest, hx]
      simp only [beq_self_eq_true, if_true, List.map_cons, List.sum_cons]
      omega
    · have hm : r ∈ xs := by
        rcases List.mem_cons.mp hr with h | h
        · exact absurd (congrArg key h).symm hk
        · exact h
      have hh := ih hm hnd.2
      simp only [List.map_cons, beq_iff_eq, hk, if_false, List.sum_cons]
      simp only [beq_iff_eq] at hh
      omega

theorem sum_filter {M : Type*} [AddMonoid M] (l : List ρ) (p : ρ → Bool) (w : ρ → M) :
    ((l.filter p).map w).sum = (l.map (fun r => if p r then w r else 0)).sum := by
  induction l with
  | nil => rfl
  | cons x xs ih => by_cases hp : p x = true <;> simp [hp, ih]

/-- Two lists with the same keys have the same sum of what depends on the key only. -/
theorem sum_eq_of_perm_keys {α β κ M : Type*} [AddCommMonoid M] {f : α → κ} {f' : β → κ}
    {w : α → M} {w' : β → M} {l : List α} {l' : List β} (hperm : (l.map f).Perm (l'.map f'))
    (h : ∀ a ∈ l, ∀ b ∈ l', f a = f' b → w a = w' b) : (l.map w).sum = (l'.map w').sum := by
  induction l' generalizing l with
  | nil => simp [List.map_eq_nil_iff.mp hperm.eq_nil]
  | cons b rest ih =>
    obtain ⟨a, ha, hab⟩ := List.mem_map.mp (hperm.symm.subset (List.mem_cons_self ..))
    obtain ⟨before, after, rfl⟩ := List.append_of_mem ha
    have hsplit : (before ++ a :: after).Perm (a :: (before ++ after)) := List.perm_middle
    have hrest : ((before ++ after).map f).Perm (rest.map f') := by
      have hh := (hsplit.map f).symm.trans hperm
      rw [List.map_cons, List.map_cons, hab] at hh
      exact hh.cons_inv
    have hsum := ih hrest (fun x hx y hy => h x (hsplit.symm.subset (List.mem_cons_of_mem a hx)) y
      (List.mem_cons_of_mem b hy))
    rw [(hsplit.map w).sum_eq, List.map_cons, List.sum_cons, List.map_cons, List.sum_cons, hsum,
      h a ha b (List.mem_cons_self ..) hab]

theorem keys_update (t : Table ρ key) (p : ρ → Bool) (f : ρ → ρ) (hf : ∀ r, key (f r) = key r) :
    (t.update p f hf).rows.map key = t.rows.map key :=
  keys_rewrite t hf

theorem keys_insert (t : Table ρ key) (row : Nat → ρ) (hrow : ∀ k, key (row k) = k) :
    (t.insert row hrow).rows.map key = t.rows.map key ++ [t.nextKey] := by
  simp [hrow]

theorem exists_key_update {t : Table ρ key} {p : ρ → Bool} {f : ρ → ρ}
    (hf : ∀ r, key (f r) = key r) {k : Nat} :
    (∃ r ∈ (t.update p f hf).rows, key r = k) ↔ ∃ r ∈ t.rows, key r = k := by
  rw [← List.mem_map, ← List.mem_map, keys_update]

theorem forall_mem_update {P : ρ → Prop} {t : Table ρ key} {p : ρ → Bool} {f : ρ → ρ}
    {hf : ∀ r, key (f r) = key r} (h : ∀ r ∈ t.rows, P r)
    (hstep : ∀ r, P r → p r = true → P (f r)) : ∀ r ∈ (t.update p f hf).rows, P r := by
  intro r hr
  obtain ⟨r₀, hr₀, rfl⟩ := mem_update.mp hr
  by_cases hp : p r₀ = true
  · rw [if_pos hp]
    exact hstep r₀ (h r₀ hr₀) hp
  · rw [if_neg hp]
    exact h r₀ hr₀

theorem update_update_key {t : Table ρ key} {f g : ρ → ρ} (hf : ∀ r, key (f r) = key r)
    (hg : ∀ r, key (g r) = key r) (k : Nat) :
    (t.update (fun r => key r == k) f hf).update (fun r => key r == k) g hg =
      t.update (fun r => key r == k) (fun r => g (f r)) (fun r => (hg _).trans (hf r)) := by
  apply Table.ext
  rw [rows_update, rows_update, rows_update, List.map_map]
  apply List.map_congr_left
  intro r _
  by_cases hk : key r = k <;> simp [hk, hf]

theorem mem_update_key {t : Table ρ key} {k : Nat} {f : ρ → ρ} (hf : ∀ r, key (f r) = key r)
    {r : ρ} : r ∈ (t.update (fun r => key r == k) f hf).rows ↔
      (∃ r₀ ∈ t.rows, key r₀ = k ∧ f r₀ = r) ∨ r ∈ t.rows ∧ key r ≠ k := by
  rw [mem_update]
  constructor
  · rintro ⟨r₀, hr₀, rfl⟩
    by_cases hk : key r₀ = k
    · exact Or.inl ⟨r₀, hr₀, hk, by simp [hk]⟩
    · exact Or.inr (by simp [hk, hr₀])
  · rintro (⟨r₀, hr₀, hk, rfl⟩ | ⟨hr, hk⟩)
    · exact ⟨r₀, hr₀, by simp [hk]⟩
    · exact ⟨r, hr, by simp [hk]⟩

/-- One row is rewritten and the others stay. -/
theorem mem_update_row {t : Table ρ key} {r₀ : ρ} (hr₀ : r₀ ∈ t.rows) {f : ρ → ρ}
    (hf : ∀ r, key (f r) = key r) {r : ρ} :
    r ∈ (t.update (fun r => key r == key r₀) f hf).rows ↔
      r = f r₀ ∨ (r ∈ t.rows ∧ key r ≠ key r₀) := by
  rw [mem_update_key hf]
  apply or_congr_left
  constructor
  · rintro ⟨r', hr', hk, rfl⟩
    rw [eq_of_key_eq hr' hr₀ hk]
  · rintro rfl
    exact ⟨r₀, hr₀, rfl, rfl⟩

/-- Where one row is rewritten, only that row has to be looked at again. -/
theorem forall_mem_update_key_iff {P : ρ → Prop} {t : Table ρ key} (h : ∀ r ∈ t.rows, P r)
    {r₀ : ρ} (hr₀ : r₀ ∈ t.rows) {f : ρ → ρ} (hf : ∀ r, key (f r) = key r) :
    (∀ r ∈ (t.update (fun r => key r == key r₀) f hf).rows, P r) ↔ P (f r₀) := by
  constructor
  · intro hh
    exact hh _ ((mem_update_row hr₀ hf).mpr (Or.inl rfl))
  · intro hP r hr
    rcases (mem_update_row hr₀ hf).mp hr with rfl | ⟨hr, -⟩
    · exact hP
    · exact h r hr

/-- A row of the table is a row of the rewritten table only if it is rewritten to itself. -/
theorem mem_map_rows_iff {t : Table ρ key} {f : ρ → ρ} (hf : ∀ r, key (f r) = key r) {r : ρ}
    (hr : r ∈ t.rows) : r ∈ t.rows.map f ↔ f r = r := by
  constructor
  · intro h
    obtain ⟨r₀, hr₀, he⟩ := List.mem_map.mp h
    have hk : key r₀ = key r := by rw [← he, hf]
    rwa [eq_of_key_eq hr₀ hr hk] at he
  · intro h
    exact List.mem_map.mpr ⟨r, hr, h⟩

theorem update_eq_self_iff {t : Table ρ key} {p : ρ → Bool} {f : ρ → ρ}
    (hf : ∀ r, key (f r) = key r) : t.update p f hf = t ↔ ∀ r ∈ t.rows, p r = true → f r = r := by
  have hrows : t.update p f hf = t ↔ t.rows.map (fun r => if p r then f r else r) = t.rows.map id := by
    rw [List.map_id]
    exact ⟨fun h => congrArg Table.rows h, fun h => Table.ext h⟩
  rw [hrows, List.map_inj_left]
  simp only [id, ite_eq_right_iff]

theorem mem_update_iff {t : Table ρ key} {p : ρ → Bool} {f : ρ → ρ} (hf : ∀ r, key (f r) = key r)
    {r : ρ} (hr : r ∈ t.rows) : r ∈ (t.update p f hf).rows ↔ (p r = true → f r = r) := by
  rw [rows_update, mem_map_rows_iff _ hr]
  · by_cases hp : p r = true <;> simp [hp]
  · intro r'
    by_cases hp : p r' = true <;> simp [hp, hf]

theorem mem_update_update_iff {t : Table ρ key} {p q : ρ → Bool} {f g : ρ → ρ}
    (hf : ∀ r, key (f r) = key r) (hg : ∀ r, key (g r) = key r) {r : ρ} (hr : r ∈ t.rows) :
    r ∈ ((t.update p f hf).update q g hg).rows ↔
      (if q (if p r then f r else r) then g (if p r then f r else r)
        else (if p r then f r else r)) = r := by
  rw [rows_update, rows_update, List.map_map, mem_map_rows_iff _ hr]
  · rfl
  · intro r'
    simp only [Function.comp_apply]
    split <;> split <;> simp [hf, hg]

theorem mem_delete {t : Table ρ key} {p : ρ → Bool} {r : ρ} :
    r ∈ (t.delete p).rows ↔ r ∈ t.rows ∧ p r = false := by
  simp

theorem get?_delete_key (t : Table ρ key) (q : Nat → Bool) (k : Nat) :
    (t.delete (fun r => q (key r))).get? k = if q k then none else t.get? k := by
  apply Option.ext
  intro r
  rw [get?_eq_some, mem_delete]
  constructor
  · rintro ⟨⟨hr, hq⟩, rfl⟩
    rw [hq]
    exact get?_eq_some.mpr ⟨hr, rfl⟩
  · intro h
    split at h
    · simp at h
    · next hq =>
      obtain ⟨hr, rfl⟩ := get?_eq_some.mp h
      exact ⟨⟨hr, by simpa using hq⟩, rfl⟩

theorem delete_ne {t : Table ρ key} {p : ρ → Bool} {r : ρ} (hr : r ∈ t.rows) (hp : p r = true) :
    t.delete p ≠ t := by
  intro he
  rw [← he] at hr
  rw [(mem_delete.mp hr).2] at hp
  exact Bool.noConfusion hp

theorem delete_eq_self_iff {t : Table ρ key} {p : ρ → Bool} :
    t.delete p = t ↔ ∀ r ∈ t.rows, p r = false := by
  have hrows : t.delete p = t ↔ t.rows.filter (fun r => !p r) = t.rows :=
    ⟨fun h => congrArg Table.rows h, fun h => Table.ext h⟩
  rw [hrows, List.filter_eq_self]
  simp only [Bool.not_eq_true']

/-- To rewrite rows in place of deleting them is the same only if there are none. -/
theorem update_eq_delete_iff {t : Table ρ key} {p q : ρ → Bool} {f : ρ → ρ}
    (hf : ∀ r, key (f r) = key r) (hpq : ∀ r, p r = true → q r = true) :
    t.update p f hf = t.delete q ↔ ∀ r ∈ t.rows, q r = false := by
  constructor
  · intro h
    have hlength : (t.rows.filter (fun r => !q r)).length = t.rows.length := by
      rw [← rows_delete, ← h, rows_update, List.length_map]
    simpa using List.length_filter_eq_length_iff.mp hlength
  · intro hnone
    rw [delete_eq_self_iff.mpr hnone, update_eq_self_iff]
    intro r hr hp
    exact absurd (hpq r hp) (by rw [hnone r hr]; exact Bool.false_ne_true)

/-- A row of a list of rows with distinct keys, and the rest of the list. -/
theorem perm_cons_filter {l : List ρ} (hl : (l.map key).Nodup) {r : ρ} (hr : r ∈ l) :
    l.Perm (r :: l.filter (fun r' => !(key r' == key r))) := by
  induction l with
  | nil => simp at hr
  | cons x xs ih =>
    rw [List.map_cons, List.nodup_cons] at hl
    by_cases hx : key x = key r
    · have hxr : x = r := by
        rcases List.mem_cons.mp hr with h | h
        · exact h.symm
        · exact absurd (hx ▸ List.mem_map_of_mem h) hl.1
      have hrest : xs.filter (fun r' => !(key r' == key r)) = xs := by
        apply List.filter_eq_self.mpr
        intro r' hr'
        have hne : key r' ≠ key r := fun he => hl.1 (hx ▸ he ▸ List.mem_map_of_mem hr')
        simp [hne]
      simp [hxr, hrest]
    · have hm : r ∈ xs := by
        rcases List.mem_cons.mp hr with h | h
        · exact absurd (congrArg key h).symm hx
        · exact h
      have hkeep : (x :: xs).filter (fun r' => !(key r' == key r)) =
          x :: xs.filter (fun r' => !(key r' == key r)) := by
        simp [hx]
      rw [hkeep]
      exact ((ih hl.2 hm).cons x).trans (List.Perm.swap r x _)

theorem mem_insert {t : Table ρ key} {row : Nat → ρ} {hrow : ∀ k, key (row k) = k} {r : ρ} :
    r ∈ (t.insert row hrow).rows ↔ r ∈ t.rows ∨ r = row t.nextKey := by
  simp

/-- A narrower query finds the same values exactly if it finds the same rows. -/
theorem perm_map_filter_iff {β : Type*} {l : List ρ} {p q : ρ → Bool} {f : ρ → β}
    (hpq : ∀ r ∈ l, p r = true → q r = true) :
    ((l.filter p).map f).Perm ((l.filter q).map f) ↔ ∀ r ∈ l, q r = true → p r = true := by
  have hfilter : l.filter p = (l.filter q).filter p := by
    rw [List.filter_filter]
    refine List.filter_congr ?_
    intro r hr
    by_cases hp : p r = true
    · simp [hp, hpq r hr hp]
    · simp [hp]
  constructor
  · intro hperm r hr hq
    have hlen : (l.filter p).length = (l.filter q).length := by
      simpa only [List.length_map] using hperm.length_eq
    have hsub : (l.filter p).Sublist (l.filter q) := by
      rw [hfilter]
      exact List.filter_sublist
    have hm : r ∈ l.filter p := by
      rw [hsub.eq_of_length hlen]
      exact List.mem_filter.mpr ⟨hr, hq⟩
    exact (List.mem_filter.mp hm).2
  · intro hqp
    have hsame : l.filter p = l.filter q := by
      refine List.filter_congr ?_
      intro r hr
      exact Bool.eq_iff_iff.mpr ⟨hpq r hr, hqp r hr⟩
    rw [hsame]

/-- Every row is still there, with the same `g`. -/
def Keeps {β : Type*} (g : ρ → β) (t t' : Table ρ key) : Prop :=
  ∀ k r, t.get? k = some r → (t'.get? k).map g = some (g r)

section Keeps

variable {β : Type*} {g : ρ → β} {t : Table ρ key}

theorem Keeps.refl (t : Table ρ key) : Keeps g t t := by
  intro k r hr
  rw [hr]
  rfl

theorem keeps_insert {row : Nat → ρ} (hrow : ∀ k, key (row k) = k) :
    Keeps g t (t.insert row hrow) := by
  intro k r hr
  have hmem := get?_eq_some.mp hr
  rw [get?_eq_some.mpr ⟨mem_insert.mpr (Or.inl hmem.1), hmem.2⟩]
  rfl

theorem keeps_update {p : ρ → Bool} {f : ρ → ρ} (hf : ∀ r, key (f r) = key r)
    (hg : ∀ r, g (f r) = g r) : Keeps g t (t.update p f hf) := by
  intro k r hr
  rw [get?_update_map, hr]
  simp only [Option.map_some, Option.some.injEq]
  split
  · exact hg r
  · rfl

end Keeps

/-- A row that was just inserted is rewritten, or not. -/
theorem rows_update_inserted (t : Table ρ key) (row : Nat → ρ) (hrow : ∀ k, key (row k) = k)
    (b : Bool) (f : ρ → ρ) (hf : ∀ r, key (f r) = key r) :
    ((t.insert row hrow).update (fun r => key r == t.nextKey && b) f hf).rows =
      t.rows ++ [if b then f (row t.nextKey) else row t.nextKey] := by
  rw [rows_update, rows_insert, List.map_append]
  congr 1
  · refine (List.map_congr_left ?_).trans (List.map_id' t.rows)
    intro r hr
    simp [Nat.ne_of_lt (key_lt_nextKey hr)]
  · simp [hrow]

theorem new_mem_insert (t : Table ρ key) {row : Nat → ρ} (hrow : ∀ k, key (row k) = k) :
    row t.nextKey ∈ (t.insert row hrow).rows :=
  mem_insert.mpr (Or.inr rfl)

theorem delete_insert (t : Table ρ key) {row : Nat → ρ} (hrow : ∀ k, key (row k) = k) :
    (t.insert row hrow).delete (fun r => key r == t.nextKey) = t := by
  apply Table.ext
  rw [rows_delete, rows_insert, List.filter_append, List.filter_eq_self.mpr]
  · simp [hrow]
  · intro r hr
    simpa using Nat.ne_of_lt (key_lt_nextKey hr)

end Table

/-- An order in which the members of a set are visited: any rearrangement of
the list of its members. -/
structure IterationOrder (α : Type*) where
  visit : List α → List α
  perm : ∀ l, (visit l).Perm l

def IterationOrder.listed (α : Type*) : IterationOrder α := ⟨id, fun l => List.Perm.refl l⟩

/-- The order that begins with `a`. -/
def IterationOrder.headed {α : Type*} [DecidableEq α] (a : α) : IterationOrder α where
  visit := fun l => if a ∈ l then a :: l.erase a else l
  perm := by
    intro l
    split
    · next h => exact (List.perm_cons_erase h).symm
    · exact List.Perm.refl l

end Relational
