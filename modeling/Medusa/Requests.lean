import Medusa.Derived

/-! A store that serves requests one after the other. A request that is refused, or
that raises before it commits, leaves the store as it was. -/

namespace Relational

variable {σ ι : Type*} {commit : σ → ι → Option σ}

def serve (commit : σ → ι → Option σ) (s : σ) (request : ι) : σ := (commit s request).getD s

def serveAll (commit : σ → ι → Option σ) (s : σ) (requests : List ι) : σ :=
  requests.foldl (serve commit) s

theorem guard_eq_some {P : Prop} [Decidable P] {u : Unit} : guard P = some u ↔ P := by
  by_cases hP : P <;> simp [guard, hP]

/-- Two handlers that go on under the same condition. -/
theorem map_guard_bind {α β : Type*} {P Q : Prop} [Decidable P] [Decidable Q] (hPQ : P ↔ Q)
    {f : α → β} {x : Option α} {y : Option β} (hxy : Q → x.map f = y) :
    ((guard P : Option Unit).bind fun _ => x).map f = (guard Q : Option Unit).bind fun _ => y := by
  by_cases hQ : Q
  · simpa [guard, hPQ, hQ] using hxy hQ
  · simp [guard, hPQ, hQ]

/-- A query that has to find something, whatever it is. -/
theorem map_bind_isSome {α β γ : Type*} {x : Option α} {f : α → Option β} {g : β → γ} {y : Option γ}
    (hxy : ∀ a, x = some a → (f a).map g = y) :
    (x.bind f).map g = (guard (x.isSome = true) : Option Unit).bind fun _ => y := by
  cases x with
  | none => rfl
  | some a => exact hxy a rfl

theorem guard_bind_of {α : Type*} {P : Prop} [Decidable P] (hP : P) (x : Option α) :
    ((guard P : Option Unit).bind fun _ => x) = x := by
  simp [guard, hP]

/-- What is asked of the result of a query, where the query has one. -/
theorem forall_eq_some_iff {α : Type*} {o : Option α} {a : α} (h : o = some a) {P : α → Prop} :
    (∀ b, o = some b → P b) ↔ P a := by
  constructor
  · intro hall
    exact hall a h
  · intro ha b hb
    rw [← Option.some.inj (h.symm.trans hb)]
    exact ha

/-- A step that cannot fail after one that can. -/
theorem bind_pure_eq_none {α β : Type*} {o : Option α} {f : α → β} :
    (o.bind fun a => some (f a)) = none ↔ o = none := by
  cases o <;> simp

/-- A fallible loop over a list that collects its results. -/
theorem mapM_eq_some {α β : Type*} {f : α → Option β} {l : List α} {r : List β} :
    l.mapM f = some r ↔ l.map f = r.map some := by
  induction l generalizing r with
  | nil => cases r <;> simp
  | cons x l ih =>
    rw [List.mapM_cons, List.map_cons]
    cases f x with
    | none => cases r <;> simp
    | some y => cases r <;> simp [Option.bind_eq_some_iff, ih, and_comm]

/-- A fallible loop that collects lists, where each of them is known up to its order. -/
theorem exists_mapM_flatten_perm {α β : Type*} {f : α → Option (List β)} {g : α → List β}
    {l : List α} (h : ∀ x ∈ l, ∃ r, f x = some r ∧ r.Perm (g x)) :
    ∃ rs, l.mapM f = some rs ∧ rs.flatten.Perm (l.flatMap g) := by
  induction l with
  | nil => exact ⟨[], rfl, List.Perm.refl _⟩
  | cons x l ih =>
    obtain ⟨r, hr, hperm⟩ := h x List.mem_cons_self
    obtain ⟨rs, hrs, hrest⟩ := ih (fun y hy => h y (List.mem_cons_of_mem _ hy))
    refine ⟨r :: rs, ?_, ?_⟩
    · rw [List.mapM_cons, hr, hrs]
      rfl
    · rw [List.flatten_cons, List.flatMap_cons]
      exact hperm.append hrest

theorem serve_none {s : σ} {request : ι} (h : commit s request = none) :
    serve commit s request = s := by
  simp [serve, h]

theorem serve_some {s s' : σ} {request : ι} (h : commit s request = some s') :
    serve commit s request = s' := by
  simp [serve, h]

theorem serve_of_commit {P : σ → Prop} {s : σ} {request : ι} (h : P s)
    (hcommit : ∀ s', commit s request = some s' → P s') : P (serve commit s request) := by
  cases hc : commit s request with
  | none =>
    rw [serve_none hc]
    exact h
  | some s' =>
    rw [serve_some hc]
    exact hcommit s' hc

theorem serve_iff {I : σ → Prop} {Q : Prop} {s : σ} {request : ι} (h : I s)
    (hnone : commit s request = none → Q)
    (hsome : ∀ s', commit s request = some s' → (I s' ↔ Q)) : I (serve commit s request) ↔ Q := by
  cases hc : commit s request with
  | none =>
    rw [serve_none hc]
    exact iff_of_true h (hnone hc)
  | some s' =>
    rw [serve_some hc]
    exact hsome s' hc

theorem serveAll_concat (s : σ) (requests : List ι) (request : ι) :
    serveAll commit s (requests ++ [request]) = serve commit (serveAll commit s requests) request := by
  simp [serveAll]

theorem serveAll_invariant {J : σ → Prop} (hkeeps : ∀ s request, J s → J (serve commit s request))
    (requests : List ι) {s : σ} (h : J s) : J (serveAll commit s requests) := by
  unfold serveAll
  induction requests generalizing s with
  | nil => exact h
  | cons request rest ih => exact ih (hkeeps s request h)

/-- What every request that commits keeps, a run of requests keeps. -/
theorem serveAll_keeps {P : σ → Prop}
    (hstep : ∀ {s s' : σ} {request : ι}, commit s request = some s' → P s → P s') {s : σ}
    (requests : List ι) (h : P s) : P (serveAll commit s requests) :=
  serveAll_invariant (fun _ _ hs => serve_of_commit hs (fun _ hc => hstep hc hs)) requests h

/-- If from a good state the request ends well exactly when `C` holds, then a run
of requests stays good exactly when `C` holds of each of them, in the state that
the requests before it lead to. -/
theorem serveAll_good_iff {I : σ → Prop} {C : σ → ι → Prop}
    (hstep : ∀ s request, I s → (I (serve commit s request) ↔ C s request)) {s : σ}
    (requests : List ι) (hs : I s) :
    (∀ pre post, requests = pre ++ post → I (serveAll commit s pre)) ↔
      ∀ pre request post, requests = pre ++ request :: post →
        C (serveAll commit s pre) request :=
  foldl_good_iff hstep hs

/-- The same where every request keeps `J`, which the judgement of a request needs. -/
theorem serveAll_good_iff_of_keeps {I J : σ → Prop} {C : σ → ι → Prop}
    (hkeeps : ∀ s request, J s → J (serve commit s request))
    (hstep : ∀ s request, J s → I s → (I (serve commit s request) ↔ C s request)) {s : σ}
    (requests : List ι) (hJ : J s) (hI : I s) :
    (∀ pre post, requests = pre ++ post → I (serveAll commit s pre)) ↔
      ∀ pre request post, requests = pre ++ request :: post →
        C (serveAll commit s pre) request :=
  foldl_good_iff_of_keeps hkeeps hstep hJ hI

theorem concat_eq_split {l pre post : List ι} {x i : ι} :
    l ++ [x] = pre ++ i :: post ↔
      post = [] ∧ pre = l ∧ i = x ∨ ∃ post', post = post' ++ [x] ∧ l = pre ++ i :: post' := by
  constructor
  · intro h
    rcases List.eq_nil_or_concat post with rfl | ⟨post', y, rfl⟩
    · obtain ⟨rfl, hx⟩ := List.append_inj' h rfl
      exact Or.inl ⟨rfl, rfl, (List.singleton_inj.mp hx).symm⟩
    · rw [List.concat_eq_append, ← List.cons_append, ← List.append_assoc] at h
      obtain ⟨rfl, hx⟩ := List.append_inj' h rfl
      rw [List.singleton_inj.mp hx]
      exact Or.inr ⟨post', List.concat_eq_append, rfl⟩
  · rintro (⟨rfl, rfl, rfl⟩ | ⟨post', rfl, rfl⟩)
    · rfl
    · simp

/-- Where requests of one kind establish `G`, requests of another spoil it and the rest
leave it alone, a run ends in `G` exactly if after each request that spoils it there is
one that establishes it again. -/
theorem serveAll_restored_iff {G : σ → Prop} {sets spoils : σ → ι → Prop}
    (hsets : ∀ s request, sets s request → G (serve commit s request))
    (hspoils : ∀ s request, spoils s request → ¬ G (serve commit s request))
    (hother : ∀ s request, ¬ sets s request → ¬ spoils s request →
      (G (serve commit s request) ↔ G s))
    {s : σ} (h : G s) (requests : List ι) :
    G (serveAll commit s requests) ↔
      ∀ pre request post, requests = pre ++ request :: post →
        spoils (serveAll commit s pre) request →
        ∃ pre' request' post', post = pre' ++ request' :: post' ∧
          sets (serveAll commit s (pre ++ request :: pre')) request' := by
  induction requests using List.reverseRecOn with
  | nil => exact iff_of_true h (by simp)
  | append_singleton requests x ih =>
    rw [serveAll_concat]
    by_cases hset : sets (serveAll commit s requests) x
    · refine iff_of_true (hsets _ _ hset) ?_
      intro pre request post he hspoil
      rcases concat_eq_split.mp he with ⟨-, rfl, rfl⟩ | ⟨post', rfl, rfl⟩
      · exact absurd (hsets _ _ hset) (hspoils _ _ hspoil)
      · exact ⟨post', x, [], rfl, hset⟩
    by_cases hspoil : spoils (serveAll commit s requests) x
    · refine iff_of_false (hspoils _ _ hspoil) ?_
      intro hall
      obtain ⟨pre', request', post', he, -⟩ := hall requests x [] rfl hspoil
      simp at he
    rw [hother _ _ hset hspoil, ih]
    constructor
    · intro hall pre request post he hspoil'
      rcases concat_eq_split.mp he with ⟨-, rfl, rfl⟩ | ⟨post', rfl, he'⟩
      · exact absurd hspoil' hspoil
      · obtain ⟨pre', request', post'', rfl, hset'⟩ := hall pre request post' he' hspoil'
        exact ⟨pre', request', post'' ++ [x], by simp, hset'⟩
    · intro hall pre request post he hspoil'
      obtain ⟨pre', request', post', he', hset'⟩ :=
        hall pre request (post ++ [x]) (by simp [he]) hspoil'
      rcases concat_eq_split.mp he' with ⟨-, rfl, rfl⟩ | ⟨post'', rfl, rfl⟩
      · exact absurd (he ▸ hset') hset
      · exact ⟨pre', request', post'', rfl, hset'⟩

theorem forall_split_nil {C : List ι → ι → Prop} :
    (∀ pre i post, ([] : List ι) = pre ++ i :: post → C pre i) ↔ True := by
  simp

theorem forall_split_cons {C : List ι → ι → Prop} {x : ι} {l : List ι} :
    (∀ pre i post, x :: l = pre ++ i :: post → C pre i) ↔
      C [] x ∧ ∀ pre i post, l = pre ++ i :: post → C (x :: pre) i := by
  constructor
  · intro h
    refine ⟨h [] x l rfl, ?_⟩
    intro pre i post he
    exact h (x :: pre) i post (by rw [he, List.cons_append])
  · intro h pre i post he
    cases pre with
    | nil =>
      obtain ⟨rfl, -⟩ := List.cons.inj he
      exact h.1
    | cons y pre =>
      obtain ⟨rfl, hl⟩ := List.cons.inj he
      exact h.2 pre i post hl

end Relational
