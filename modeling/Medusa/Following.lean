import Medusa.Requests

/-! A store whose requests are followed on an abstract state. A request may add something
there, under an id that the store chooses. -/

namespace Relational

variable {σ τ ι κ : Type*}

/-- A run on the abstract state, with the id that each request may use. A request that is
refused leaves the state as it is. -/
def follow (step : Nat → τ → ι → Option τ) (t : τ) (run : List (ι × Nat)) : τ :=
  run.foldl (fun t ri => (step ri.2 t ri.1).getD t) t

/-- If every request does to the view of a good store what it does to the abstract state, a
run of requests does what the run does there. What the requests leave alone may be read. -/
theorem serveAll_follow {commit : σ → ι → Option σ} {J : σ → Prop} {view : σ → τ} {context : σ → κ}
    {step : κ → Nat → τ → ι → Option τ} {newKey : σ → ι → Nat}
    (hkeeps : ∀ {s s' : σ} (r : ι), J s → commit s r = some s' → J s' ∧ context s' = context s)
    (hstep : ∀ {s : σ} (r : ι), J s →
      view (serve commit s r) = (step (context s) (newKey s r) (view s) r).getD (view s))
    {s : σ} (h : J s) (requests : List ι) :
    J (serveAll commit s requests) ∧ ∃ ids : List Nat, ids.length = requests.length ∧
      view (serveAll commit s requests) = follow (step (context s)) (view s) (requests.zip ids) := by
  induction requests generalizing s with
  | nil => exact ⟨h, [], rfl, rfl⟩
  | cons r rest ih =>
    obtain ⟨hgood, hcontext⟩ := serve_of_commit (P := fun s' => J s' ∧ context s' = context s)
      ⟨h, rfl⟩ (fun _ hr => hkeeps r h hr)
    obtain ⟨hrest, ids, hlength, hview⟩ := ih hgood
    refine ⟨hrest, newKey s r :: ids, by simp [hlength], ?_⟩
    rw [hcontext, hstep r h] at hview
    exact hview

end Relational
