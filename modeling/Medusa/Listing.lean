import Mathlib.Data.List.Basic
import Mathlib.Data.List.Forall2
import Mathlib.Data.List.Infix

/-! Lists as queries return and show them: what passes a filter, pages, and texts that are
compared with a pattern. -/

namespace Relational

variable {α β : Type*}

/-- Two tables that agree on some rows agree on every query for rows among these. -/
theorem filter_eq_of_imp {p q : α → Bool} {l l' : List α} (h : l'.filter q = l.filter q)
    (hpq : ∀ x, p x = true → q x = true) : l'.filter p = l.filter p := by
  have hp : ∀ l : List α, l.filter p = (l.filter q).filter p := by
    intro l
    rw [List.filter_filter]
    refine List.filter_congr ?_
    intro x _
    cases hx : p x with
    | false => rfl
    | true => simp [hpq x hx]
  rw [hp l', hp l, h]

theorem any_filter_of_imp {p q : α → Bool} (l : List α) (hpq : ∀ x, p x = true → q x = true) :
    l.any p = (l.filter q).any p := by
  rw [Bool.eq_iff_iff, List.any_eq_true, List.any_eq_true]
  constructor
  · rintro ⟨x, hx, hp⟩
    exact ⟨x, List.mem_filter.mpr ⟨hx, hpq x hp⟩, hp⟩
  · rintro ⟨x, hx, hp⟩
    exact ⟨x, (List.mem_filter.mp hx).1, hp⟩

/-- The same for a query that computes something from each row it returns. -/
theorem filterMap_eq_of_imp {f f' : α → Option β} {q : α → Bool} {l l' : List α}
    (h : l'.filter q = l.filter q) (hf : ∀ x, q x = true → f' x = f x)
    (hq : ∀ x, (f x).isSome = true → q x = true) (hq' : ∀ x, (f' x).isSome = true → q x = true) :
    l'.filterMap f' = l.filterMap f := by
  have hfilter : ∀ (l : List α) (f : α → Option β), (∀ x, (f x).isSome = true → q x = true) →
      l.filterMap f = (l.filter q).filterMap f := by
    intro l f hq
    rw [List.filterMap_filter]
    refine List.filterMap_congr ?_
    intro x _
    cases hx : f x with
    | none => simp
    | some y => simp [hq x (by simp [hx])]
  rw [hfilter l f hq, hfilter l' f' hq', h]
  refine List.filterMap_congr ?_
  intro x hx
  exact hf x (List.mem_filter.mp hx).2

/-- Two lists whose entries correspond, seen through filters and views that agree on
corresponding entries. -/
theorem map_filter_eq_of_forall₂ {γ : Type*} {R : α → β → Prop} {l : List α} {l' : List β}
    (h : List.Forall₂ R l l') {p : α → Bool} {q : β → Bool} {f : α → γ} {g : β → γ}
    (hR : ∀ a b, R a b → p a = q b ∧ f a = g b) : (l.filter p).map f = (l'.filter q).map g := by
  induction h with
  | nil => rfl
  | @cons a b l l' hab _ ih =>
    obtain ⟨hp, hf⟩ := hR a b hab
    rw [List.filter_cons, List.filter_cons, hp]
    cases q b with
    | false => exact ih
    | true => simp [hf, ih]

/-- A list is put together from its parts by the value of `f`, if the values are listed
without repetition. -/
theorem flatMap_fibers_perm [DecidableEq β] {f : α → β} {values : List β} (hnodup : values.Nodup)
    {l : List α} (hcover : ∀ x ∈ l, f x ∈ values) :
    (values.flatMap (fun v => l.filter (fun x => decide (f x = v)))).Perm l := by
  induction values generalizing l with
  | nil =>
    have hnil : l = [] := List.eq_nil_iff_forall_not_mem.mpr
      (fun x hx => absurd (hcover x hx) List.not_mem_nil)
    simp [hnil]
  | cons v values ih =>
    obtain ⟨hv, hnodup⟩ := List.nodup_cons.mp hnodup
    let rest := l.filter (fun x => !decide (f x = v))
    have hrest : values.flatMap (fun v => l.filter (fun x => decide (f x = v))) =
        values.flatMap (fun v => rest.filter (fun x => decide (f x = v))) := by
      refine List.flatMap_congr ?_
      intro v' hv'
      rw [List.filter_filter]
      refine List.filter_congr ?_
      intro x _
      have hne : f x = v' → f x ≠ v := fun he he' => hv ((he'.symm.trans he) ▸ hv')
      by_cases hx : f x = v'
      · simp [hx, hx ▸ hne hx]
      · simp [hx]
    have hcovered : ∀ x ∈ rest, f x ∈ values := by
      intro x hx
      have hx := List.mem_filter.mp hx
      exact (List.mem_cons.mp (hcover x hx.1)).resolve_left (by simpa using hx.2)
    rw [List.flatMap_cons, hrest]
    exact ((ih hnodup hcovered).append_left _).trans (List.filter_append_perm _ l)

/-- The page of the number `k`, where the first one has the number 0. -/
def pageOf (size k : Nat) (l : List α) : List α := (l.drop (size * k)).take size

theorem getElem?_pageOf (size n : Nat) (hsize : 0 < size) (l : List α) :
    (pageOf size (n / size) l)[n % size]? = l[n]? := by
  rw [pageOf, List.getElem?_take_of_lt (Nat.mod_lt n hsize), List.getElem?_drop,
    Nat.div_add_mod]

/-- A list is known from its pages. -/
theorem eq_of_pageOf_eq {size : Nat} (hsize : 0 < size) {l l' : List α}
    (h : ∀ k, pageOf size k l = pageOf size k l') : l = l' := by
  refine List.ext_getElem? ?_
  intro n
  rw [← getElem?_pageOf size n hsize l, h, getElem?_pageOf size n hsize l']

/-- A piece of a pattern of `LIKE`. -/
inductive Piece (α : Type*)
  | one
  | many
  | char (c : α)

/-- A backslash takes the next character as it is. -/
def likePieces : List Char → List (Piece Char)
  | [] => []
  | '%' :: rest => .many :: likePieces rest
  | '_' :: rest => .one :: likePieces rest
  | '\\' :: c :: rest => .char c :: likePieces rest
  | c :: rest => .char c :: likePieces rest

def like [DecidableEq α] : List (Piece α) → List α → Bool
  | [], text => text.isEmpty
  | .many :: pieces, text => text.tails.any (like pieces)
  | .one :: _, [] => false
  | .one :: pieces, _ :: text => like pieces text
  | .char _ :: _, [] => false
  | .char c :: pieces, d :: text => decide (c = d) && like pieces text

section Like

variable [DecidableEq α]

theorem like_many {pieces : List (Piece α)} {text : List α} :
    like (.many :: pieces) text = true ↔ ∃ rest, rest <:+ text ∧ like pieces rest = true := by
  simp [like, List.any_eq_true, List.mem_tails]

theorem like_chars {l text : List α} {pieces : List (Piece α)} :
    like (l.map Piece.char ++ pieces) text = true ↔
      ∃ rest, l ++ rest = text ∧ like pieces rest = true := by
  induction l generalizing text with
  | nil => simp
  | cons c l ih =>
    cases text with
    | nil => simp [like]
    | cons d text => simp [like, ih, and_assoc]

/-- A text between two `%` is found where it occurs. -/
theorem like_contains {l text : List α} :
    like (.many :: (l.map Piece.char ++ [.many])) text = true ↔ l <:+: text := by
  have hend : ∀ rest : List α, like [.many] rest = true := by
    intro rest
    exact like_many.mpr ⟨[], List.nil_suffix, rfl⟩
  simp only [like_many, like_chars, hend, and_true]
  constructor
  · rintro ⟨_, ⟨before, rfl⟩, rest, rfl⟩
    exact ⟨before, rest, List.append_assoc _ _ _⟩
  · rintro ⟨before, rest, rfl⟩
    exact ⟨l ++ rest, ⟨before, (List.append_assoc _ _ _).symm⟩, rest, rfl⟩

end Like

theorem likePieces_append {l : List Char} (h : ∀ c ∈ l, c ∉ ['%', '_', '\\']) (rest : List Char) :
    likePieces (l ++ rest) = l.map Piece.char ++ likePieces rest := by
  induction l with
  | nil => rfl
  | cons c l ih =>
    have hc := h c List.mem_cons_self
    simp only [List.mem_cons, List.not_mem_nil, or_false, not_or] at hc
    have hrest := ih (fun c' hc' => h c' (List.mem_cons_of_mem c hc'))
    rw [List.map_cons, List.cons_append, List.cons_append, ← hrest, likePieces]
    · exact hc.1
    · exact hc.2.1
    · exact fun _ _ he => absurd he hc.2.2

end Relational
