import Mathlib.Data.List.Basic

/-! Texts in which items stand one after the other, with a separator between them. -/

namespace Relational

variable {α : Type*} [DecidableEq α] {sep : α}

/-- The item stands between two separators, or between one and an end of the text. -/
def IsPiece (sep : α) (text item : List α) : Prop :=
  sep ∉ item ∧ ∃ before after, text = before ++ item ++ after ∧
    (before = [] ∨ ∃ b, before = b ++ [sep]) ∧ (after = [] ∨ ∃ a, after = sep :: a)

theorem splitOn_append_cons (before after : List α) :
    (before ++ sep :: after).splitOn sep = before.splitOn sep ++ after.splitOn sep :=
  List.splitOnP_append_cons before after (beq_self_eq_true sep)

theorem IsPiece.of_mem_splitOn {text item : List α} (h : item ∈ text.splitOn sep) :
    IsPiece sep text item := by
  -- the first item ends at the first separator, and the rest of the text is shorter
  induction hn : text.length using Nat.strongRecOn generalizing text with
  | _ n ih =>
    by_cases hsep : sep ∈ text
    · obtain ⟨first, rest, rfl, hfirst⟩ := List.eq_append_cons_of_mem hsep
      rw [splitOn_append_cons, List.splitOn_eq_singleton hfirst, List.singleton_append,
        List.mem_cons] at h
      rcases h with rfl | h
      · exact ⟨hfirst, [], sep :: rest, by simp, Or.inl rfl, Or.inr ⟨rest, rfl⟩⟩
      · have hshorter : rest.length < n := by
          rw [← hn, List.length_append, List.length_cons]
          omega
        obtain ⟨hfree, before, after, rfl, hbefore, hafter⟩ := ih _ hshorter h rfl
        refine ⟨hfree, first ++ sep :: before, after, by simp, Or.inr ?_, hafter⟩
        rcases hbefore with rfl | ⟨b, rfl⟩
        · exact ⟨first, rfl⟩
        · exact ⟨first ++ sep :: b, by simp⟩
    · rw [List.splitOn_eq_singleton hsep, List.mem_singleton] at h
      exact ⟨h ▸ hsep, [], [], by simp [h], Or.inl rfl, Or.inl rfl⟩

theorem mem_splitOn_iff {text item : List α} : item ∈ text.splitOn sep ↔ IsPiece sep text item := by
  constructor
  · exact IsPiece.of_mem_splitOn
  · rintro ⟨hfree, before, after, rfl, hbefore, hafter⟩
    have hfirst : item ∈ (item ++ after).splitOn sep := by
      rcases hafter with rfl | ⟨a, rfl⟩
      · simp [List.splitOn_eq_singleton hfree]
      · simp [splitOn_append_cons, List.splitOn_eq_singleton hfree]
    rcases hbefore with rfl | ⟨b, rfl⟩
    · simpa using hfirst
    · rw [List.append_assoc, List.append_assoc, List.singleton_append, splitOn_append_cons]
      exact List.mem_append_right _ hfirst

/-- Items that are free of the separator are read back as they were written, and from
the text without items only the empty one. -/
theorem mem_splitOn_intercalate {items : List (List α)} {item : List α}
    (hfree : ∀ item ∈ items, sep ∉ item) (hne : item ≠ []) :
    item ∈ ([sep].intercalate items).splitOn sep ↔ item ∈ items := by
  by_cases hnil : items = []
  · simp [hnil, hne]
  · rw [List.splitOn_intercalate sep hfree hnil]

omit [DecidableEq α] in
theorem mem_intercalate {items : List (List α)} {x : α} (h : x ∈ [sep].intercalate items) :
    x = sep ∨ ∃ item ∈ items, x ∈ item := by
  induction items with
  | nil => simp at h
  | cons item rest ih =>
    cases rest with
    | nil => exact Or.inr ⟨item, List.mem_cons_self, by simpa using h⟩
    | cons next rest =>
      rw [List.intercalate_cons_cons, List.append_assoc, List.mem_append,
        List.singleton_append, List.mem_cons] at h
      rcases h with h | h | h
      · exact Or.inr ⟨item, List.mem_cons_self, h⟩
      · exact Or.inl h
      · rcases ih h with rfl | ⟨item', hmem, hx⟩
        · exact Or.inl rfl
        · exact Or.inr ⟨item', List.mem_cons_of_mem _ hmem, hx⟩

end Relational
