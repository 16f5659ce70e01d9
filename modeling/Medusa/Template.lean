import Mathlib.Data.List.Basic
import Mathlib.Data.List.Infix

/-! Texts with marked places, and their filling by one replacement of a mark after the
other. If marks cannot overlap and the values start none, the order of the replacements
does not matter. -/

namespace Relational

variable {α κ : Type*} [DecidableEq α]

/-- Replaces what `old` matches, from left to right. The first argument after the two is
the number of symbols that still belong to the last match. -/
def replaceFrom (old new : List α) : Nat → List α → List α
  | _, [] => []
  | skip + 1, _ :: rest => replaceFrom old new skip rest
  | 0, x :: rest =>
    if old.isPrefixOf (x :: rest) then new ++ replaceFrom old new (old.length - 1) rest
    else x :: replaceFrom old new 0 rest

def replaceAll (old new text : List α) : List α := replaceFrom old new 0 text

section Replace

variable {old new : List α}

theorem replaceFrom_append (matched rest : List α) :
    replaceFrom old new matched.length (matched ++ rest) = replaceAll old new rest := by
  induction matched with
  | nil => rfl
  | cons x matched ih => exact ih

@[simp] theorem replaceAll_nil : replaceAll old new [] = [] := rfl

theorem replaceAll_matched (h : old ≠ []) (rest : List α) :
    replaceAll old new (old ++ rest) = new ++ replaceAll old new rest := by
  obtain ⟨x, tail, rfl⟩ := List.exists_cons_of_ne_nil h
  have hbegins : (x :: tail).isPrefixOf (x :: (tail ++ rest)) = true :=
    List.isPrefixOf_iff_prefix.mpr ⟨rest, rfl⟩
  rw [List.cons_append, replaceAll, replaceFrom, if_pos hbegins]
  exact congrArg (new ++ ·) (replaceFrom_append tail rest)

/-- Where no match starts, nothing changes. -/
theorem replaceAll_unmatched {part rest : List α}
    (h : ∀ tail, tail <:+ part → tail ≠ [] → ¬ old <+: tail ++ rest) :
    replaceAll old new (part ++ rest) = part ++ replaceAll old new rest := by
  induction part with
  | nil => rfl
  | cons x part ih =>
    have hhere : ¬ old.isPrefixOf (x :: (part ++ rest)) = true := fun hp =>
      h (x :: part) (List.suffix_refl _) (List.cons_ne_nil _ _) (List.isPrefixOf_iff_prefix.mp hp)
    have hlater := ih (fun tail ht hne => h tail (ht.trans (List.suffix_cons x part)) hne)
    rw [List.cons_append, replaceAll, replaceFrom, if_neg hhere]
    exact congrArg (x :: ·) hlater

end Replace

/-- A mark starts with a symbol twice and goes on with others, and no mark is the beginning
of another one. -/
structure Marks (κ α : Type*) where
  start : α
  mark : κ → List α
  starts : ∀ k, ∃ body, mark k = start :: start :: body ∧ start ∉ body ∧ body ≠ []
  separate : ∀ {k k' : κ} {rest : List α}, mark k <+: mark k' ++ rest → k = k'

inductive Segment (κ α : Type*)
  | text (t : List α)
  | hole (k : κ)
deriving DecidableEq

namespace Marks

variable (M : Marks κ α)

def write : Segment κ α → List α
  | .text t => t
  | .hole k => M.mark k

def source (template : List (Segment κ α)) : List α := template.flatMap M.write

/-- Marks start nowhere but at the holes. -/
def Plain (template : List (Segment κ α)) : Prop := ∀ t, Segment.text t ∈ template → M.start ∉ t

end Marks

variable [DecidableEq κ]

/-- The first value that is given for a hole fills it. -/
def Segment.fill (values : List (κ × List α)) : Segment κ α → Segment κ α
  | .text t => .text t
  | .hole k => match values.lookup k with
    | some v => .text v
    | none => .hole k

theorem mem_iff_lookup {β : Type*} {values : List (κ × β)} (h : (values.map Prod.fst).Nodup)
    {k : κ} {v : β} : (k, v) ∈ values ↔ values.lookup k = some v := by
  constructor
  · intro hmem
    obtain ⟨before, after, rfl⟩ := List.append_of_mem hmem
    refine List.lookup_eq_some_iff.mpr ⟨before, after, rfl, ?_⟩
    intro p hp
    rw [List.map_append, List.nodup_append] at h
    have hne := h.2.2 p.1 (List.mem_map_of_mem hp) k (by simp)
    simpa using Ne.symm hne
  · intro hlookup
    obtain ⟨before, after, rfl, -⟩ := List.lookup_eq_some_iff.mp hlookup
    simp

/-- A dictionary is read the same in whatever order its items stand. -/
theorem lookup_perm {β : Type*} {values values' : List (κ × β)} (hperm : values.Perm values')
    (h : (values.map Prod.fst).Nodup) (k : κ) : values.lookup k = values'.lookup k := by
  have h' : (values'.map Prod.fst).Nodup := (hperm.map Prod.fst).nodup_iff.mp h
  apply Option.ext
  intro v
  rw [← mem_iff_lookup h, ← mem_iff_lookup h', hperm.mem_iff]

namespace Marks

variable {M : Marks κ α}

omit [DecidableEq α] [DecidableEq κ] in
theorem mark_ne_nil (k : κ) : M.mark k ≠ [] := by
  obtain ⟨body, hmark, -⟩ := M.starts k
  simp [hmark]

omit [DecidableEq α] [DecidableEq κ] in
theorem no_match_in_text {t : List α} (ht : M.start ∉ t) (k : κ) (rest : List α) :
    ∀ tail, tail <:+ t → tail ≠ [] → ¬ M.mark k <+: tail ++ rest := by
  intro tail htail hne hbegins
  obtain ⟨x, tail, rfl⟩ := List.exists_cons_of_ne_nil hne
  obtain ⟨body, hmark, -⟩ := M.starts k
  rw [hmark, List.cons_append, List.cons_prefix_cons] at hbegins
  exact ht (hbegins.1 ▸ htail.subset List.mem_cons_self)

omit [DecidableEq α] [DecidableEq κ] in
theorem no_match_in_other {k k' : κ} (hne : k ≠ k') (rest : List α) :
    ∀ tail, tail <:+ M.mark k' → tail ≠ [] → ¬ M.mark k <+: tail ++ rest := by
  intro tail htail hnil hbegins
  obtain ⟨body', hmark', hbody', hne'⟩ := M.starts k'
  obtain ⟨body, hmark, -⟩ := M.starts k
  rw [hmark'] at htail
  rcases List.suffix_cons_iff.mp htail with rfl | htail
  · rw [← hmark'] at hbegins
    exact hne (M.separate hbegins)
  rcases List.suffix_cons_iff.mp htail with rfl | htail
  · -- one symbol later the second of the two does not follow
    obtain ⟨x, body', rfl⟩ := List.exists_cons_of_ne_nil hne'
    rw [hmark, List.cons_append, List.cons_append, List.cons_prefix_cons,
      List.cons_prefix_cons] at hbegins
    exact hbody' (hbegins.2.1 ▸ List.mem_cons_self)
  · exact no_match_in_text hbody' k rest tail htail hnil hbegins

/-- One replacement fills the holes of its mark. -/
theorem replaceAll_source {template : List (Segment κ α)} (h : M.Plain template) (k : κ)
    (v : List α) :
    replaceAll (M.mark k) v (M.source template) =
      M.source (template.map (Segment.fill [(k, v)])) := by
  induction template with
  | nil => rfl
  | cons segment template ih =>
    have hrest := ih (fun t ht => h t (List.mem_cons_of_mem _ ht))
    simp only [source, List.flatMap_cons, List.map_cons] at hrest ⊢
    cases segment with
    | text t =>
      rw [write, replaceAll_unmatched (no_match_in_text (h t List.mem_cons_self) k _), hrest]
      rfl
    | hole k' =>
      by_cases hk : k = k'
      · subst hk
        rw [write, replaceAll_matched (mark_ne_nil k), hrest]
        simp [Segment.fill, write]
      · rw [write, replaceAll_unmatched (no_match_in_other hk _), hrest]
        have hk' : (k' == k) = false := by simpa using Ne.symm hk
        simp [Segment.fill, List.lookup_cons, hk', write]

omit [DecidableEq α] in
theorem plain_fill {template : List (Segment κ α)} (h : M.Plain template)
    {values : List (κ × List α)} (hvalues : ∀ x ∈ values, M.start ∉ x.2) :
    M.Plain (template.map (Segment.fill values)) := by
  intro t ht
  obtain ⟨segment, hsegment, hfill⟩ := List.mem_map.mp ht
  cases segment with
  | text t' =>
    obtain rfl : t' = t := by simpa [Segment.fill] using hfill
    exact h t' hsegment
  | hole k =>
    simp only [Segment.fill] at hfill
    split at hfill
    · next v hv =>
      obtain rfl : v = t := by simpa using hfill
      obtain ⟨before, after, hsplit, -⟩ := List.lookup_eq_some_iff.mp hv
      exact hvalues (k, v) (by simp [hsplit])
    · exact absurd hfill (by simp)

omit [DecidableEq α] in
theorem fill_cons (k : κ) (v : List α) (values : List (κ × List α)) :
    Segment.fill values ∘ Segment.fill [(k, v)] = Segment.fill ((k, v) :: values) := by
  funext segment
  cases segment with
  | text t => rfl
  | hole k' =>
    cases hk : k' == k <;> simp [Segment.fill, List.lookup_cons, hk]

/-- A row of replacements fills the template. -/
theorem foldl_replaceAll_source {template : List (Segment κ α)} (h : M.Plain template)
    {values : List (κ × List α)} (hvalues : ∀ x ∈ values, M.start ∉ x.2) :
    values.foldl (fun text x => replaceAll (M.mark x.1) x.2 text) (M.source template) =
      M.source (template.map (Segment.fill values)) := by
  induction values generalizing template with
  | nil =>
    have hid : Segment.fill ([] : List (κ × List α)) = id := by
      funext segment
      cases segment <;> rfl
    rw [hid, List.map_id]
    rfl
  | cons x values ih =>
    have hx : ∀ y ∈ [x], M.start ∉ y.2 := fun y hy =>
      hvalues y (List.mem_cons.mpr (Or.inl (List.mem_singleton.mp hy)))
    rw [List.foldl_cons, replaceAll_source h x.1 x.2,
      ih (plain_fill h hx) (fun y hy => hvalues y (List.mem_cons_of_mem _ hy)), List.map_map,
      fill_cons]

end Marks

end Relational
