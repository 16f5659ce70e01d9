import Mathlib.Logic.Function.Basic
import Medusa.Requests

/-! Requests that are served in two phases: a request first looks at the store and
decides what it will write, and writes it later. Between the phases of one request
there may be any phases of others. -/

namespace Relational

variable {σ ι ω : Type*}

/-- The store, and what the requests that are under way will write. -/
structure InFlight (σ ω : Type*) where
  store : σ
  pending : Nat → Option ω

inductive Phase (ι : Type*)
  | check (request : Nat) (input : ι)
  | commit (request : Nat)

/-- A refused check leaves nothing to write. A commit is over also if the store refuses
the write. -/
def Phase.advance (check : σ → ι → Option ω) (apply : σ → ω → Option σ) (s : InFlight σ ω) :
    Phase ι → Option (InFlight σ ω)
  | .check request input => (check s.store input).map (fun write =>
      { s with pending := Function.update s.pending request (some write) })
  | .commit request => (s.pending request).map (fun write =>
      ⟨serve apply s.store write, Function.update s.pending request none⟩)

def interleave (check : σ → ι → Option ω) (apply : σ → ω → Option σ) (s : InFlight σ ω)
    (phases : List (Phase ι)) : InFlight σ ω :=
  serveAll (Phase.advance check apply) s phases

section

variable {check : σ → ι → Option ω} {apply : σ → ω → Option σ}

theorem store_check (s : InFlight σ ω) (request : Nat) (input : ι) :
    (serve (Phase.advance check apply) s (.check request input)).store = s.store := by
  cases hc : check s.store input <;> simp [serve, Phase.advance, hc]

theorem store_commit (s : InFlight σ ω) (request : Nat) :
    (serve (Phase.advance check apply) s (.commit request)).store =
      match s.pending request with
      | none => s.store
      | some write => serve apply s.store write := by
  cases hp : s.pending request <;> simp [serve, Phase.advance, hp]

/-- What every write keeps, every phase keeps. -/
theorem store_keeps {J : σ → Prop} (hkeeps : ∀ s write, J s → J (serve apply s write))
    (s : InFlight σ ω) (phase : Phase ι) (h : J s.store) :
    J (serve (Phase.advance check apply) s phase).store := by
  cases phase with
  | check request input =>
    rw [store_check]
    exact h
  | commit request =>
    rw [store_commit]
    split
    · exact h
    · exact hkeeps s.store _ h

theorem interleave_keeps {J : σ → Prop} (hkeeps : ∀ s write, J s → J (serve apply s write))
    (phases : List (Phase ι)) {s : InFlight σ ω} (h : J s.store) :
    J (interleave check apply s phases).store :=
  serveAll_invariant (J := fun s : InFlight σ ω => J s.store) (store_keeps hkeeps) phases h

/-- What the write of a commit has to meet. A check writes nothing. -/
def Phase.Meets (C : σ → ω → Prop) (s : InFlight σ ω) : Phase ι → Prop
  | .check _ _ => True
  | .commit request => ∀ write, s.pending request = some write → C s.store write

/-- An interleaving stays good exactly if each write, in the state in which it is
committed, meets the condition under which a write ends well. -/
theorem interleave_good_iff {I J : σ → Prop} {C : σ → ω → Prop}
    (hkeeps : ∀ s write, J s → J (serve apply s write))
    (hwrite : ∀ s write, J s → I s → (I (serve apply s write) ↔ C s write))
    (phases : List (Phase ι)) {s : InFlight σ ω} (hJ : J s.store) (hI : I s.store) :
    (∀ pre post, phases = pre ++ post → I (interleave check apply s pre).store) ↔
      ∀ pre phase post, phases = pre ++ phase :: post →
        phase.Meets C (interleave check apply s pre) := by
  refine serveAll_good_iff_of_keeps (I := fun s : InFlight σ ω => I s.store)
    (J := fun s : InFlight σ ω => J s.store) (store_keeps hkeeps) ?_ phases hJ hI
  intro s phase hJ hI
  cases phase with
  | check request input =>
    rw [store_check]
    exact iff_of_true hI trivial
  | commit request =>
    rw [store_commit]
    unfold Phase.Meets
    cases hp : s.pending request with
    | none => exact iff_of_true hI (fun _ h => absurd (h.symm.trans hp) (Option.some_ne_none _))
    | some write => exact (hwrite s.store write hJ hI).trans (forall_eq_some_iff hp).symm

end

end Relational
