import Mathlib.Data.List.Destutter

/-! A text that is edited again and again, and the versions that the edits replace. A
version is kept under a name: that of its author, or that of whoever edited the text last. -/

namespace Versions

variable {κ υ : Type*}

/-- `mark` is what the edit leaves as the name of the last editor. -/
structure Edit (κ υ : Type*) where
  content : κ
  user : υ
  mark : υ
deriving DecidableEq

structure Draft (κ υ : Type*) where
  content : κ
  author : υ
  editor : υ

namespace Draft

variable [DecidableEq κ]

/-- An edit that keeps the content has another editor but no other author. -/
def edit (d : Draft κ υ) (e : Edit κ υ) : Draft κ υ :=
  ⟨e.content, if d.content = e.content then d.author else e.user, e.mark⟩

def edits (d : Draft κ υ) (es : List (Edit κ υ)) : Draft κ υ := es.foldl edit d

def putAside (name : Draft κ υ → υ) (d : Draft κ υ) (e : Edit κ υ) : List (κ × υ) :=
  if d.content = e.content then [] else [(d.content, name d)]

/-- The versions that the edits replace, each under a name taken from the draft it was. -/
def replaced (name : Draft κ υ → υ) : Draft κ υ → List (Edit κ υ) → List (κ × υ)
  | _, [] => []
  | d, e :: es => d.putAside name e ++ replaced name (d.edit e) es

theorem replaced_append (name : Draft κ υ → υ) (d : Draft κ υ) (es es' : List (Edit κ υ)) :
    d.replaced name (es ++ es') = d.replaced name es ++ (d.edits es).replaced name es' := by
  induction es generalizing d with
  | nil => rfl
  | cons e es ih =>
    rw [List.cons_append, replaced, replaced, ih, List.append_assoc]
    rfl

/-- With the content that is left, the versions are all contents without repetition. -/
theorem replaced_contents (name : Draft κ υ → υ) (d : Draft κ υ) (es : List (Edit κ υ)) :
    (d.replaced name es).map Prod.fst ++ [(d.edits es).content] =
      (d.content :: es.map Edit.content).destutter (· ≠ ·) := by
  induction es generalizing d with
  | nil => rfl
  | cons e es ih =>
    have hrest := ih (d.edit e)
    rw [List.destutter_cons'] at hrest
    rw [List.map_cons, List.destutter_cons_cons, replaced, List.map_append, List.append_assoc,
      edits, List.foldl_cons, ← edits, hrest]
    by_cases hsame : d.content = e.content
    · simp [putAside, edit, hsame]
    · simp [putAside, edit, hsame]

/-- The names of the last editors are those of the authors exactly if the two agree whenever
the content changes. -/
theorem replaced_editor_iff (d : Draft κ υ) (es : List (Edit κ υ)) :
    d.replaced editor es = d.replaced author es ↔
      ∀ done e rest, es = done ++ e :: rest → (d.edits done).content ≠ e.content →
        (d.edits done).editor = (d.edits done).author := by
  induction es generalizing d with
  | nil => simp [replaced]
  | cons e es ih =>
    have hhead : d.replaced editor (e :: es) = d.replaced author (e :: es) ↔
        (d.content ≠ e.content → d.editor = d.author) ∧
          (d.edit e).replaced editor es = (d.edit e).replaced author es := by
      by_cases hsame : d.content = e.content
      · simp [replaced, putAside, hsame]
      · simp [replaced, putAside, hsame]
    rw [hhead, ih]
    constructor
    · rintro ⟨hfirst, hlater⟩ done e' rest hsplit hchange
      cases done with
      | nil =>
        obtain ⟨rfl, -⟩ := List.cons.inj hsplit
        exact hfirst hchange
      | cons first done =>
        obtain ⟨rfl, htail⟩ := List.cons.inj hsplit
        exact hlater done e' rest htail hchange
    · intro hall
      refine ⟨fun hchange => hall [] e es rfl hchange, ?_⟩
      intro done e' rest hsplit hchange
      exact hall (e :: done) e' rest (by rw [hsplit, List.cons_append]) hchange

end Draft

end Versions
