import Mathlib.Data.Finset.Basic

/-! A set of rows that is derived from other data: a row should be in it exactly
if it meets `spec`. Such a set is kept up to date by refreshing single rows at
any time, and is rebuilt by clearing some rows and looking at each of them
again, with refreshes of other rows in between. -/

namespace Relational

variable {κ : Type*}

/-- Every row in `K` is as it was or as it should be. -/
def Refreshes (K spec : κ → Prop) (R R' : Finset κ) : Prop :=
  ∀ k, K k → ((k ∈ R' ↔ k ∈ R) ∨ (k ∈ R' ↔ spec k))

namespace Refreshes

variable {K spec : κ → Prop} {R R' R'' : Finset κ}

theorem refl (K spec : κ → Prop) (R : Finset κ) : Refreshes K spec R R :=
  fun _ _ => Or.inl Iff.rfl

theorem trans (h : Refreshes K spec R R') (h' : Refreshes K spec R' R'') :
    Refreshes K spec R R'' := by
  intro k hk
  rcases h' k hk with h' | h'
  · rcases h k hk with h | h
    · exact Or.inl (h'.trans h)
    · exact Or.inr (h'.trans h)
  · exact Or.inr h'

theorem mono {K' : κ → Prop} (h : Refreshes K spec R R') (hK : ∀ k, K' k → K k) :
    Refreshes K' spec R R' :=
  fun k hk => h k (hK k hk)

theorem congr {spec' : κ → Prop} (h : Refreshes K spec R R') (hspec : ∀ k, K k → (spec k ↔ spec' k)) :
    Refreshes K spec' R R' := by
  intro k hk
  rw [← hspec k hk]
  exact h k hk

theorem keeps (h : Refreshes K spec R R') {k : κ} (hk : K k) (hR : k ∈ R ↔ spec k) :
    k ∈ R' ↔ spec k := by
  rcases h k hk with h | h
  · exact h.trans hR
  · exact h

theorem keeps_sound (h : Refreshes K spec R R') {k : κ} (hk : K k) (hR : k ∈ R → spec k) :
    k ∈ R' → spec k := by
  rcases h k hk with h | h
  · exact fun hm => hR (h.mp hm)
  · exact h.mp

theorem keeps_complete (h : Refreshes K spec R R') {k : κ} (hk : K k) (hs : spec k) (hR : k ∈ R) :
    k ∈ R' := by
  rcases h k hk with h | h
  · exact h.mpr hR
  · exact h.mpr hs

theorem insert [DecidableEq κ] (K : κ → Prop) {k : κ} (hk : spec k) (R : Finset κ) :
    Refreshes K spec R (insert k R) := by
  intro k' _
  by_cases he : k' = k
  · right
    simp [he, hk]
  · left
    simp [he]

end Refreshes

section Refill

variable {σ ι : Type*} {rel : σ → Finset κ} {spec : κ → Prop} {I : σ → Prop} {step : σ → ι → σ}
  {cell : ι → κ}

theorem foldl_refreshes {l : List ι} {s : σ} (hs : I s)
    (hstep : ∀ s, I s → ∀ i ∈ l, I (step s i) ∧
      Refreshes (fun _ => True) spec (rel s) (rel (step s i)) ∧
        (spec (cell i) → cell i ∈ rel (step s i))) :
    I (l.foldl step s) ∧ Refreshes (fun _ => True) spec (rel s) (rel (l.foldl step s)) ∧
      ∀ i ∈ l, spec (cell i) → cell i ∈ rel (l.foldl step s) := by
  induction l generalizing s with
  | nil => exact ⟨hs, Refreshes.refl _ _ _, by simp⟩
  | cons i rest ih =>
    obtain ⟨hI, hfirst, hcell⟩ := hstep s hs i List.mem_cons_self
    obtain ⟨hI', hrest, hcells⟩ := ih hI
      (fun s hs j hj => hstep s hs j (List.mem_cons_of_mem i hj))
    refine ⟨hI', hfirst.trans hrest, ?_⟩
    intro j hj hspec
    rcases List.mem_cons.mp hj with rfl | hj
    · exact hrest.keeps_complete trivial hspec (hcell hspec)
    · exact hcells j hj hspec

/-- If the loop starts with no wrong row in `Z` and looks at all rows there that
are due, then the rows in `Z` end as they should be. -/
theorem foldl_refills {R : Finset κ} {Z : κ → Prop} {l : List ι} {s : σ} (hs : I s)
    (hothers : Refreshes (fun k => ¬ Z k) spec R (rel s)) (hsound : ∀ k, Z k → k ∈ rel s → spec k)
    (hstep : ∀ s, I s → ∀ i ∈ l, I (step s i) ∧
      Refreshes (fun _ => True) spec (rel s) (rel (step s i)) ∧
        (spec (cell i) → cell i ∈ rel (step s i)))
    (hall : ∀ k, Z k → spec k → ∃ i ∈ l, cell i = k) :
    I (l.foldl step s) ∧ Refreshes (fun _ => True) spec R (rel (l.foldl step s)) ∧
      ∀ k, Z k → (k ∈ rel (l.foldl step s) ↔ spec k) := by
  obtain ⟨hI, hloop, hcells⟩ := foldl_refreshes hs hstep
  have hZ : ∀ k, Z k → (k ∈ rel (l.foldl step s) ↔ spec k) := by
    intro k hk
    constructor
    · exact hloop.keeps_sound trivial (hsound k hk)
    · intro hspec
      obtain ⟨i, hi, rfl⟩ := hall k hk hspec
      exact hcells i hi hspec
  refine ⟨hI, ?_, hZ⟩
  intro k _
  by_cases hk : Z k
  · exact Or.inr (hZ k hk)
  · exact (hothers.trans (hloop.mono (fun _ _ => trivial))) k hk

end Refill

/-- What every round of a loop that may stop keeps, the loop keeps. -/
theorem foldlM_keeps {σ ι : Type*} {P : σ → Prop} {step : σ → ι → Option σ}
    (hstep : ∀ {s i s'}, step s i = some s' → P s → P s') {l : List ι} {s s' : σ}
    (h : l.foldlM step s = some s') (hs : P s) : P s' := by
  induction l generalizing s with
  | nil =>
    rw [List.foldlM_nil, Option.pure_def, Option.some.injEq] at h
    exact h ▸ hs
  | cons i rest ih =>
    rw [List.foldlM_cons, Option.bind_eq_bind, Option.bind_eq_some_iff] at h
    obtain ⟨middle, hm, hrest⟩ := h
    exact ih hrest (hstep hm hs)

/-- The same for what a loop over numbers has reached before round `k + 1`. -/
theorem foldlM_range'_keeps {σ : Type*} {P : ℕ → σ → Prop} {step : σ → ℕ → Option σ}
    (hstep : ∀ {k s s'}, step s (k + 1) = some s' → P k s → P (k + 1) s') {k n : ℕ} {s s' : σ}
    (h : (List.range' (k + 1) n).foldlM step s = some s') (hs : P k s) : P (k + n) s' := by
  induction n generalizing k s with
  | zero =>
    obtain rfl := Option.some.inj h
    exact hs
  | succ n ih =>
    rw [List.range'_succ, List.foldlM_cons, Option.bind_eq_bind, Option.bind_eq_some_iff] at h
    obtain ⟨middle, hm, hrest⟩ := h
    have hlast := ih hrest (hstep hm hs)
    rwa [Nat.add_right_comm, Nat.add_assoc] at hlast

/-- A loop comes to its end if each of its rounds does, and rounds depend on what the
loop keeps only. -/
theorem foldlM_isSome_iff {σ ι : Type*} {P : σ → Prop} {good : ι → Prop} {step : σ → ι → Option σ}
    (hstep : ∀ s i, P s → ((step s i).isSome ↔ good i))
    (hkeep : ∀ {s i s'}, step s i = some s' → P s → P s') {l : List ι} {s : σ} (hs : P s) :
    (l.foldlM step s).isSome ↔ ∀ i ∈ l, good i := by
  induction l generalizing s with
  | nil => simp
  | cons i rest ih =>
    rw [List.foldlM_cons, List.forall_mem_cons, ← hstep s i hs]
    cases hi : step s i with
    | none => simp
    | some s' => simpa using ih (hkeep hi hs)

/-- Two loops are the same if their rounds are, wherever the loop gets to. -/
theorem foldlM_congr {σ ι : Type*} {P : σ → Prop} {f g : σ → ι → Option σ}
    (hstep : ∀ s i, P s → f s i = g s i) (hkeep : ∀ {s i s'}, f s i = some s' → P s → P s')
    (l : List ι) {s : σ} (hs : P s) : l.foldlM f s = l.foldlM g s := by
  induction l generalizing s with
  | nil => rfl
  | cons i rest ih =>
    rw [List.foldlM_cons, List.foldlM_cons, ← hstep s i hs]
    cases hi : f s i with
    | none => rfl
    | some s' => exact ih (hkeep hi hs)

theorem rel_bind {α β γ δ : Type*} {R : α → β → Prop} {S : γ → δ → Prop} {x : Option α}
    {y : Option β} {f : α → Option γ} {g : β → Option δ} (h : Option.Rel R x y)
    (hfg : ∀ a b, R a b → Option.Rel S (f a) (g b)) : Option.Rel S (x.bind f) (y.bind g) := by
  cases h with
  | none => exact Option.Rel.none
  | some hR => exact hfg _ _ hR

/-- Two loops whose rounds stop together and keep a relation otherwise. -/
theorem foldlM_rel {σ τ ι : Type*} {R : σ → τ → Prop} {f : σ → ι → Option σ} {g : τ → ι → Option τ}
    (hstep : ∀ s t i, R s t → Option.Rel R (f s i) (g t i)) {l : List ι} {s : σ} {t : τ}
    (h : R s t) : Option.Rel R (l.foldlM f s) (l.foldlM g t) := by
  induction l generalizing s t with
  | nil => exact Option.Rel.some h
  | cons i rest ih =>
    rw [List.foldlM_cons, List.foldlM_cons]
    exact rel_bind (hstep s t i h) (fun _ _ hR => ih hR)

/-- If from a good state a step ends well exactly when `C` holds of it, then a run
stays good exactly when `C` holds of all its steps. -/
theorem foldl_good_iff {σ ι : Type*} {I : σ → Prop} {C : σ → ι → Prop} {step : σ → ι → σ}
    (hstep : ∀ s i, I s → (I (step s i) ↔ C s i)) {l : List ι} {s : σ} (hs : I s) :
    (∀ pre post, l = pre ++ post → I (pre.foldl step s)) ↔
      ∀ pre i post, l = pre ++ i :: post → C (pre.foldl step s) i := by
  constructor
  · intro h pre i post he
    have hpre : I (pre.foldl step s) := h pre (i :: post) he
    have hnext : I ((pre ++ [i]).foldl step s) := h (pre ++ [i]) post (by simp [he])
    rw [List.foldl_append] at hnext
    exact (hstep _ i hpre).mp hnext
  · intro h pre
    -- from the end of the prefix, since each step is judged by the run before it
    induction pre using List.reverseRecOn with
    | nil => exact fun _ _ => hs
    | append_singleton pre i ih =>
      intro post he
      have hl : l = pre ++ i :: post := by simp [he]
      rw [List.foldl_append]
      exact (hstep _ i (ih (i :: post) hl)).mpr (h pre i post hl)

/-- The same where every step keeps `J`, which the judgement of a step needs. -/
theorem foldl_good_iff_of_keeps {σ ι : Type*} {I J : σ → Prop} {C : σ → ι → Prop}
    {step : σ → ι → σ} (hkeeps : ∀ s i, J s → J (step s i))
    (hstep : ∀ s i, J s → I s → (I (step s i) ↔ C s i)) {l : List ι} {s : σ} (hJ : J s)
    (hI : I s) :
    (∀ pre post, l = pre ++ post → I (pre.foldl step s)) ↔
      ∀ pre i post, l = pre ++ i :: post → C (pre.foldl step s) i := by
  have hgood := foldl_good_iff (I := fun s => J s ∧ I s) (C := C) (l := l)
    (fun s i hs =>
      ⟨fun h => (hstep s i hs.1 hs.2).mp h.2,
        fun hC => ⟨hkeeps s i hs.1, (hstep s i hs.1 hs.2).mpr hC⟩⟩) ⟨hJ, hI⟩
  have hrun : ∀ pre : List ι, J (pre.foldl step s) := by
    intro pre
    induction pre using List.reverseRecOn with
    | nil => exact hJ
    | append_singleton pre i ih =>
      rw [List.foldl_append]
      exact hkeeps _ i ih
  rw [← hgood]
  constructor
  · intro h pre post he
    exact ⟨hrun pre, h pre post he⟩
  · intro h pre post he
    exact (h pre post he).2

end Relational
