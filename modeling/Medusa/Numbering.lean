import Mathlib.Data.List.Nodup
import Mathlib.Data.List.Perm.Subperm
import Mathlib.Data.List.Range
import Mathlib.Tactic.Linarith

/-! A column of numbers that is kept by hand: the rows of a list are numbered
1, ..., n in some order. Rows are added under the next number, and where a row is
taken out the numbers above it move down by one. A row may also lack its number. -/

namespace Relational

def numbersTo (n : Nat) : List (Option Int) := (List.range n).map (fun i : Nat => some ((i : Int) + 1))

/-- The numbers are exactly 1, ..., n, each once, where n is how many there are. -/
def Numbered (l : List (Option Int)) : Prop := l.Perm (numbersTo l.length)

instance (l : List (Option Int)) : Decidable (Numbered l) :=
  inferInstanceAs (Decidable (l.Perm (numbersTo l.length)))

/-- The number a row has after the row with number `k` is gone. -/
def closeGap (k : Int) (x : Option Int) : Option Int := x.map (fun n => if k < n then n - 1 else n)

@[simp] theorem length_numbersTo (n : Nat) : (numbersTo n).length = n := by
  simp [numbersTo]

theorem mem_numbersTo {n : Nat} {x : Option Int} :
    x ∈ numbersTo n ↔ ∃ k : Int, x = some k ∧ 1 ≤ k ∧ k ≤ n := by
  simp only [numbersTo, List.mem_map, List.mem_range]
  constructor
  · rintro ⟨i, hi, rfl⟩
    exact ⟨(i : Int) + 1, rfl, by omega, by omega⟩
  · rintro ⟨k, rfl, hlow, hhigh⟩
    refine ⟨(k - 1).toNat, by omega, ?_⟩
    congr 1
    omega

theorem nodup_numbersTo (n : Nat) : (numbersTo n).Nodup := by
  refine List.Nodup.map ?_ List.nodup_range
  intro i j h
  simpa using h

theorem numbersTo_succ (n : Nat) : numbersTo (n + 1) = numbersTo n ++ [some ((n : Int) + 1)] := by
  simp [numbersTo, List.range_succ]

theorem numbered_nil : Numbered [] := List.Perm.refl []

theorem Numbered.perm {l l' : List (Option Int)} (h : Numbered l) (hp : l.Perm l') :
    Numbered l' := by
  unfold Numbered
  rw [← hp.length_eq]
  exact hp.symm.trans h

theorem Numbered.mem_iff {l : List (Option Int)} (h : Numbered l) {x : Option Int} :
    x ∈ l ↔ ∃ k : Int, x = some k ∧ 1 ≤ k ∧ k ≤ l.length :=
  (List.Perm.mem_iff h).trans mem_numbersTo

theorem Numbered.nodup {l : List (Option Int)} (h : Numbered l) : l.Nodup :=
  (List.Perm.nodup_iff h).mpr (nodup_numbersTo _)

theorem numbered_iff {l : List (Option Int)} :
    Numbered l ↔ l.Nodup ∧ ∀ x ∈ l, ∃ k : Int, x = some k ∧ 1 ≤ k ∧ k ≤ l.length := by
  constructor
  · exact fun h => ⟨h.nodup, fun x hx => h.mem_iff.mp hx⟩
  · intro h
    have hsub : l ⊆ numbersTo l.length := fun x hx => mem_numbersTo.mpr (h.2 x hx)
    exact (h.1.subperm hsub).perm_of_length_le (by simp)

theorem numbered_concat_iff {l : List (Option Int)} (h : Numbered l) {x : Option Int} :
    Numbered (l ++ [x]) ↔ x = some ((l.length : Int) + 1) := by
  have hp : (numbersTo l.length ++ [some ((l.length : Int) + 1)]).Perm
      (l ++ [some ((l.length : Int) + 1)]) := (List.Perm.symm h).append_right _
  unfold Numbered
  rw [List.length_append, List.length_singleton, numbersTo_succ]
  constructor
  · intro hl
    have hx := (List.perm_append_left_iff l).mp (hl.trans hp)
    simpa using hx
  · rintro rfl
    exact hp.symm

theorem Numbered.concat {l : List (Option Int)} (h : Numbered l) :
    Numbered (l ++ [some ((l.length : Int) + 1)]) :=
  (numbered_concat_iff h).mpr rfl

theorem closeGap_inj {k a b : Int} (ha : a ≠ k) (hb : b ≠ k)
    (h : closeGap k (some a) = closeGap k (some b)) : a = b := by
  simp only [closeGap, Option.map_some, Option.some.injEq] at h
  split at h <;> split at h <;> omega

/-- Taking out one row and closing the gap leaves the others numbered. -/
theorem Numbered.close {k : Int} {l : List (Option Int)} (h : Numbered (some k :: l)) :
    Numbered (l.map (closeGap k)) := by
  have hnd := List.nodup_cons.mp h.nodup
  have hl : ∀ x ∈ l, ∃ a : Int, x = some a ∧ 1 ≤ a ∧ a ≤ (l.length : Int) + 1 ∧ a ≠ k := by
    intro x hx
    obtain ⟨a, rfl, hlow, hhigh⟩ := h.mem_iff.mp (List.mem_cons_of_mem _ hx)
    refine ⟨a, rfl, hlow, by simpa using hhigh, ?_⟩
    rintro rfl
    exact hnd.1 hx
  obtain ⟨k', hk, hklow, hkhigh⟩ := h.mem_iff.mp List.mem_cons_self
  simp only [Option.some.injEq, List.length_cons, Nat.cast_add, Nat.cast_one] at hk hkhigh
  rw [numbered_iff, List.length_map]
  constructor
  · apply List.Nodup.map_on _ hnd.2
    intro x hx y hy he
    obtain ⟨a, rfl, -, -, ha⟩ := hl x hx
    obtain ⟨b, rfl, -, -, hb⟩ := hl y hy
    rw [closeGap_inj ha hb he]
  · intro x hx
    obtain ⟨y, hy, rfl⟩ := List.mem_map.mp hx
    obtain ⟨a, rfl, hlow, hhigh, hne⟩ := hl y hy
    refine ⟨if k < a then a - 1 else a, rfl, ?_, ?_⟩ <;> split <;> omega

/-- Closing a gap that is not there leaves the rows numbered only if no row moves. -/
theorem Numbered.closeGap_iff {k : Int} {l : List (Option Int)} (h : Numbered l) :
    Numbered (l.map (closeGap k)) ↔ ∀ n : Int, some n ∈ l → n ≤ k := by
  constructor
  · intro hc n hn
    obtain ⟨n', he, hlow, hhigh⟩ := h.mem_iff.mp hn
    simp only [Option.some.injEq] at he
    subst he
    by_contra hk
    -- the highest number has moved down, and no other row can have taken its place
    have htop : some (l.length : Int) ∈ l.map (closeGap k) := by
      rw [hc.mem_iff, List.length_map]
      exact ⟨l.length, rfl, by omega, le_refl _⟩
    obtain ⟨x, hx, hxe⟩ := List.mem_map.mp htop
    obtain ⟨a, rfl, -, ha⟩ := h.mem_iff.mp hx
    simp only [closeGap, Option.map_some, Option.some.injEq] at hxe
    split at hxe <;> omega
  · intro hle
    have hid : l.map (closeGap k) = l := by
      refine (List.map_congr_left ?_).trans (List.map_id' l)
      intro x hx
      obtain ⟨a, rfl, -, -⟩ := h.mem_iff.mp hx
      have ha := hle a hx
      simp only [closeGap, Option.map_some, Option.some.injEq]
      split <;> omega
    rw [hid]
    exact h

section Rows

variable {ρ : Type*} {num : ρ → Option Int} {rows : List ρ}

/-- Taking out rows without renumbering leaves the others numbered exactly if the
rows taken out are the last ones. -/
theorem Numbered.filter_iff (h : Numbered (rows.map num)) (p : ρ → Bool) :
    Numbered ((rows.filter p).map num) ↔
      ∀ r ∈ rows, ∀ r' ∈ rows, p r = true → p r' = false →
        ∀ a b : Int, num r = some a → num r' = some b → a < b := by
  have hinj : ∀ r ∈ rows, ∀ r' ∈ rows, num r = num r' → r = r' :=
    fun r hr r' hr' he => List.inj_on_of_nodup_map h.nodup hr hr' he
  constructor
  · intro hp r hr r' hr' hpr hpr' a b ha hb
    obtain ⟨a', hae, -, hahigh⟩ := hp.mem_iff.mp
      (List.mem_map_of_mem (List.mem_filter.mpr ⟨hr, hpr⟩))
    obtain ⟨b', hbe, hblow, -⟩ := h.mem_iff.mp (List.mem_map_of_mem hr')
    rw [ha, Option.some.injEq] at hae
    rw [hb, Option.some.injEq] at hbe
    subst hae hbe
    by_contra hab
    -- a lower number of the remaining rows would be that of a remaining row
    have hmem : num r' ∈ (rows.filter p).map num := by
      rw [hp.mem_iff]
      exact ⟨b, hb, hblow, by omega⟩
    obtain ⟨r'', hr'', he⟩ := List.mem_map.mp hmem
    obtain ⟨hr'', hpr''⟩ := List.mem_filter.mp hr''
    rw [hinj r'' hr'' r' hr' he, hpr'] at hpr''
    exact Bool.noConfusion hpr''
  · intro hlast
    rw [numbered_iff]
    refine ⟨h.nodup.sublist (List.filter_sublist.map num), ?_⟩
    intro x hx
    obtain ⟨r, hr, rfl⟩ := List.mem_map.mp hx
    obtain ⟨hr, hpr⟩ := List.mem_filter.mp hr
    obtain ⟨a, ha, hlow, hhigh⟩ := h.mem_iff.mp (List.mem_map_of_mem hr)
    refine ⟨a, ha, hlow, ?_⟩
    -- the rows with the numbers up to that of a remaining row all remain
    have hsub : numbersTo a.toNat ⊆ (rows.filter p).map num := by
      intro y hy
      obtain ⟨b, rfl, hblow, hbhigh⟩ := mem_numbersTo.mp hy
      have hb : some b ∈ rows.map num := h.mem_iff.mpr ⟨b, rfl, hblow, by omega⟩
      obtain ⟨r', hr', hb⟩ := List.mem_map.mp hb
      refine List.mem_map.mpr ⟨r', List.mem_filter.mpr ⟨hr', ?_⟩, hb⟩
      by_contra hpr'
      have hab := hlast r hr r' hr' hpr (by simpa using hpr') a b ha hb
      omega
    have hlen := (nodup_numbersTo a.toNat).subperm hsub |>.length_le
    simp only [length_numbersTo, List.length_map] at hlen ⊢
    omega

/-- New numbers that are in range and all different. -/
theorem Numbered.rewrite {number : ρ → Option Int} (h : Numbered (rows.map num))
    (hrange : ∀ r ∈ rows, ∃ a : Int, number r = some a ∧ 1 ≤ a ∧ a ≤ rows.length)
    (hinj : ∀ r ∈ rows, ∀ r' ∈ rows, number r = number r' → num r = num r') :
    Numbered (rows.map number) := by
  rw [numbered_iff, List.length_map]
  constructor
  · apply List.Nodup.map_on _ (List.Nodup.of_map num h.nodup)
    intro r hr r' hr' he
    exact List.inj_on_of_nodup_map h.nodup hr hr' (hinj r hr r' hr' he)
  · intro x hx
    obtain ⟨r, hr, rfl⟩ := List.mem_map.mp hx
    exact hrange r hr

/-- Two numberings put the rows into the same order. -/
def SameOrder (num number : ρ → Option Int) (rows : List ρ) : Prop :=
  ∀ r ∈ rows, ∀ r' ∈ rows, number r < number r' ↔ num r < num r'

/-- `number` is what the numbers should be after the row `moved` was put to the
place `k`, or to the last place if there are fewer rows. -/
structure MovedTo (key : ρ → Nat) (num number : ρ → Option Int) (rows : List ρ) (moved : ρ)
    (k : Int) : Prop where
  numbered : Numbered (rows.map number)
  lands : number moved = some (min k rows.length)
  order : SameOrder num number (rows.filter (fun r => !(key r == key moved)))

theorem MovedTo.congr {key : ρ → Nat} {number number' : ρ → Option Int} {moved : ρ} {k : Int}
    (hmoved : moved ∈ rows) (he : ∀ r ∈ rows, number r = number' r)
    (h : MovedTo key num number rows moved k) : MovedTo key num number' rows moved k where
  numbered := by
    rw [← List.map_congr_left he]
    exact h.numbered
  lands := by
    rw [← he moved hmoved]
    exact h.lands
  order := by
    intro r hr r' hr'
    rw [← he r (List.mem_filter.mp hr).1, ← he r' (List.mem_filter.mp hr').1]
    exact h.order r hr r' hr'

/-- `rows'` are the rows after `moved` was put to the place `k`: the same rows, with
the numbers that they should have then. -/
def Moved (key : ρ → Nat) (num : ρ → Option Int) (rows rows' : List ρ) (moved : ρ) (k : Int) :
    Prop :=
  ∃ number : ρ → Option Int,
    rows'.map (fun r => (key r, num r)) = rows.map (fun r => (key r, number r)) ∧
      MovedTo key num number rows moved k

theorem moved_map_iff {key : ρ → Nat} {f : ρ → ρ} (hf : ∀ r, key (f r) = key r) {moved : ρ}
    (hmoved : moved ∈ rows) {k : Int} :
    Moved key num rows (rows.map f) moved k ↔
      MovedTo key num (fun r => num (f r)) rows moved k := by
  constructor
  · intro h
    obtain ⟨number, he, hm⟩ := h
    rw [List.map_map, List.map_inj_left] at he
    exact hm.congr hmoved (fun r hr => (congrArg Prod.snd (he r hr)).symm)
  · intro h
    refine ⟨_, ?_, h⟩
    rw [List.map_map]
    apply List.map_congr_left
    intro r _
    simp [hf]

end Rows

end Relational
