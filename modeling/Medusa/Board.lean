import Mathlib.Data.Set.Insert
import Medusa.Requests

/-! A board of topics. Readers join and leave a topic, a topic can be closed, and what is
posted on a topic is for those who read it at that moment. -/

namespace Relational

variable {τ υ μ : Type*}

inductive BoardEvent (τ υ μ : Type*)
  | join (topic : τ) (reader : υ)
  | leave (topic : τ) (reader : υ)
  | close (topic : τ)
  | post (topic : τ) (message : μ)

structure Announcement (υ μ : Type*) where
  message : μ
  readers : Set υ

section

variable [DecidableEq τ]

/-- Who reads a topic, after an event. -/
def BoardEvent.next (readers : τ → Set υ) : BoardEvent τ υ μ → τ → Set υ
  | join topic reader => Function.update readers topic (insert reader (readers topic))
  | leave topic reader => Function.update readers topic (readers topic \ {reader})
  | close topic => Function.update readers topic ∅
  | post _ _ => readers

def BoardEvent.announces (readers : τ → Set υ) : BoardEvent τ υ μ → List (Announcement υ μ)
  | post topic message => [⟨message, readers topic⟩]
  | _ => []

def announcements (readers : τ → Set υ) : List (BoardEvent τ υ μ) → List (Announcement υ μ)
  | [] => []
  | event :: rest => event.announces readers ++ announcements (event.next readers) rest

theorem announcements_append (readers : τ → Set υ) (first rest : List (BoardEvent τ υ μ)) :
    announcements readers (first ++ rest) =
      announcements readers first ++ announcements (first.foldl BoardEvent.next readers) rest := by
  induction first generalizing readers with
  | nil => rfl
  | cons event first ih => simp only [List.cons_append, announcements, ih, List.append_assoc,
      List.foldl_cons]

end

section Served

variable {σ ι β : Type*} {commit : σ → ι → Option σ}

/-- What the requests yield, each in the state in which it is served. -/
def yielded (commit : σ → ι → Option σ) (f : σ → ι → List β) : σ → List ι → List β
  | _, [] => []
  | s, request :: rest => f s request ++ yielded commit f (serve commit s request) rest

variable [DecidableEq τ] {ν : Type*} {J : σ → Prop} {readers : σ → τ → Set υ}
  {events : σ → ι → List (BoardEvent τ υ μ)} {sent : σ → ι → List ν}
  {R : ν → Announcement υ μ → Prop} {keep : Announcement υ μ → Bool}

/-- A store whose requests are events of a board, one at a time, and send what is announced,
is a board over whole runs. -/
theorem serveAll_board
    (hkeeps : ∀ s request, J s → J (serve commit s request))
    (hreaders : ∀ s request, J s →
      readers (serve commit s request) = (events s request).foldl BoardEvent.next (readers s))
    (hsent : ∀ s request, J s →
      List.Forall₂ R (sent s request) ((announcements (readers s) (events s request)).filter keep))
    {s : σ} (hs : J s) (requests : List ι) :
    readers (serveAll commit s requests) =
        (yielded commit events s requests).foldl BoardEvent.next (readers s) ∧
      List.Forall₂ R (yielded commit sent s requests)
        ((announcements (readers s) (yielded commit events s requests)).filter keep) := by
  induction requests generalizing s with
  | nil => exact ⟨rfl, List.Forall₂.nil⟩
  | cons request rest ih =>
    obtain ⟨hend, hrest⟩ := ih (hkeeps s request hs)
    have hstep := hreaders s request hs
    constructor
    · rw [yielded, List.foldl_append, ← hstep]
      exact hend
    · rw [yielded, yielded, announcements_append, List.filter_append, ← hstep]
      exact List.rel_append (hsent s request hs) hrest

end Served

end Relational
