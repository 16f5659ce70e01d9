import Mathlib.Data.List.Nodup

/-! A record that sources publish is copied from one of them after the other. The copy
belongs to the source that it was first found at, also when another one overwrites it, and
goes when that source is read and has the record no more. -/

namespace Relational

variable {σ β : Type*}

/-- The record as it is at the first source that publishes it. -/
def publishedBy (published : σ → Option β) (sources : List σ) : Option (σ × β) :=
  sources.findSome? (fun s => (published s).map (fun value => (s, value)))

/-- No two of the sources publish the record. -/
def Sole (published : σ → Option β) (sources : List σ) : Prop :=
  ∀ s ∈ sources, ∀ t ∈ sources, (published s).isSome = true → (published t).isSome = true → s = t

variable {published : σ → Option β} {sources : List σ}

theorem unpublished_or (published : σ → Option β) (sources : List σ) :
    (∀ s ∈ sources, published s = none) ∨ ∃ s ∈ sources, ∃ value, published s = some value := by
  by_cases h : ∃ s ∈ sources, ∃ value, published s = some value
  · exact Or.inr h
  · refine Or.inl ?_
    intro s hs
    rw [Option.eq_none_iff_forall_ne_some]
    exact fun value hvalue => h ⟨s, hs, value, hvalue⟩

theorem Sole.split (h : Sole published sources) (hnodup : sources.Nodup) {s : σ} {value : β}
    (hmem : s ∈ sources) (hs : published s = some value) :
    ∃ before after, sources = before ++ s :: after ∧ s ∉ before ∧ s ∉ after ∧
      (∀ t ∈ before, published t = none) ∧ ∀ t ∈ after, published t = none := by
  obtain ⟨before, after, rfl⟩ := List.append_of_mem hmem
  have hmiddle := List.nodup_middle.mp hnodup
  have hnot : s ∉ before ++ after := (List.nodup_cons.mp hmiddle).1
  have hnone : ∀ t ∈ before ++ after, published t = none := by
    intro t ht
    have hin : t ∈ before ++ s :: after := by
      rcases List.mem_append.mp ht with ht | ht
      · exact List.mem_append_left _ ht
      · exact List.mem_append_right _ (List.mem_cons_of_mem _ ht)
    by_contra hsome
    have hst := h s hmem t hin (by simp [hs]) (Option.isSome_iff_ne_none.mpr hsome)
    exact hnot (hst ▸ ht)
  refine ⟨before, after, rfl, ?_, ?_, ?_, ?_⟩
  · exact fun hb => hnot (List.mem_append_left _ hb)
  · exact fun ha => hnot (List.mem_append_right _ ha)
  · exact fun t ht => hnone t (List.mem_append_left _ ht)
  · exact fun t ht => hnone t (List.mem_append_right _ ht)

theorem publishedBy_eq_some (h : Sole published sources) {s : σ} {value : β} :
    publishedBy published sources = some (s, value) ↔ s ∈ sources ∧ published s = some value := by
  rw [publishedBy]
  constructor
  · intro hfound
    obtain ⟨t, ht, hvalue⟩ := List.exists_of_findSome?_eq_some hfound
    obtain ⟨v, hv, he⟩ := Option.map_eq_some_iff.mp hvalue
    obtain ⟨rfl, rfl⟩ := Prod.mk.inj he
    exact ⟨ht, hv⟩
  · rintro ⟨hs, hvalue⟩
    cases hfound : sources.findSome? (fun s => (published s).map (fun value => (s, value))) with
    | none =>
      have hnone := List.findSome?_eq_none_iff.mp hfound s hs
      simp [hvalue] at hnone
    | some c =>
      obtain ⟨t, ht, hc⟩ := List.exists_of_findSome?_eq_some hfound
      obtain ⟨v, hv, rfl⟩ := Option.map_eq_some_iff.mp hc
      have hst : s = t := h s hs t ht (by simp [hvalue]) (by simp [hv])
      subst hst
      rw [hvalue] at hv
      rw [Option.some.inj hv]

theorem publishedBy_eq_none :
    publishedBy published sources = none ↔ ∀ s ∈ sources, published s = none := by
  simp [publishedBy, List.findSome?_eq_none_iff]

/-- The sources agree on the record if no two of them publish it, in whatever order. -/
theorem publishedBy_congr {sources' : List σ} (h : Sole published sources)
    (hmem : ∀ s, s ∈ sources' ↔ s ∈ sources) :
    publishedBy published sources' = publishedBy published sources := by
  have h' : Sole published sources' :=
    fun s hs t ht => h s ((hmem s).mp hs) t ((hmem t).mp ht)
  apply Option.ext
  rintro ⟨s, value⟩
  rw [publishedBy_eq_some h', publishedBy_eq_some h, hmem]

variable [DecidableEq σ]

/-- The copy, with the source that it belongs to, after one more source is read. -/
def copyFrom (published : σ → Option β) (held : Option (σ × β)) (source : σ) : Option (σ × β) :=
  match published source with
  | some value => some ((held.map Prod.fst).getD source, value)
  | none => held.filter (fun h => decide (h.1 ≠ source))

def copyAll (published : σ → Option β) (sources : List σ) (held : Option (σ × β)) : Option (σ × β) :=
  sources.foldl (copyFrom published) held

theorem copyAll_unpublished (held : Option (σ × β)) (h : ∀ s ∈ sources, published s = none) :
    copyAll published sources held = held.filter (fun h => decide (h.1 ∉ sources)) := by
  induction sources generalizing held with
  | nil => cases held <;> simp [copyAll, Option.filter]
  | cons s rest ih =>
    have hs : published s = none := h s List.mem_cons_self
    have hrest := ih (copyFrom published held s) (fun t ht => h t (List.mem_cons_of_mem _ ht))
    rw [copyAll, List.foldl_cons]
    rw [copyAll] at hrest
    rw [hrest, copyFrom, hs]
    cases held with
    | none => rfl
    | some c =>
      by_cases hc : c.1 = s <;> simp [Option.filter, hc]

variable {held : Option (σ × β)}

/-- With one source that publishes the record, what the copy belonged to before decides. -/
theorem copyAll_sole {before after : List σ} {s : σ} {value : β} (hs : published s = some value)
    (hbefore : ∀ t ∈ before, published t = none) (hafter : ∀ t ∈ after, published t = none) :
    copyAll published (before ++ s :: after) held =
      (some (((held.filter (fun h => decide (h.1 ∉ before))).map Prod.fst).getD s, value)).filter
        (fun h => decide (h.1 ∉ after)) := by
  have hfirst := copyAll_unpublished held hbefore
  rw [copyAll] at hfirst
  rw [copyAll, List.foldl_append, List.foldl_cons, hfirst, ← copyAll, copyAll_unpublished _ hafter,
    copyFrom, hs]

/-- One pass over the sources gets the copy right exactly if the source that it belonged to
is not read after the one that publishes the record. -/
theorem copyAll_settles_iff (h : Sole published sources) (hnodup : sources.Nodup)
    (hheld : ∀ c, held = some c → c.1 ∈ sources) :
    copyAll published sources held = publishedBy published sources ↔
      ∀ c, held = some c → ∀ s ∈ sources, (published s).isSome = true → c.1 ≠ s →
        c.1 ∈ sources.takeWhile (fun t => decide (t ≠ s)) := by
  rcases unpublished_or published sources with hnone | ⟨s, hs, value, hvalue⟩
  · rw [copyAll_unpublished _ hnone, publishedBy_eq_none.mpr hnone]
    refine iff_of_true ?_ (fun c _ s hs hsome => by simp [hnone s hs] at hsome)
    cases held with
    | none => rfl
    | some c => simp [Option.filter, hheld c rfl]
  · have hsome : (published s).isSome = true := by simp [hvalue]
    obtain ⟨before, after, rfl, hnb, hna, hbefore, hafter⟩ := h.split hnodup hs hvalue
    have hread : (before ++ s :: after).takeWhile (fun t => decide (t ≠ s)) = before := by
      rw [List.takeWhile_append_of_pos]
      · simp
      · intro t ht
        exact decide_eq_true (fun he => hnb (he ▸ ht))
    rw [copyAll_sole hvalue hbefore hafter, (publishedBy_eq_some h).mpr ⟨hs, hvalue⟩]
    have hiff : (∀ c, held = some c → ∀ t ∈ before ++ s :: after, (published t).isSome = true →
        c.1 ≠ t → c.1 ∈ (before ++ s :: after).takeWhile (fun u => decide (u ≠ t))) ↔
        ∀ c, held = some c → c.1 ≠ s → c.1 ∈ before := by
      constructor
      · intro hall c hc hne
        have hmem := hall c hc s hs hsome hne
        rwa [hread] at hmem
      · intro hall c hc t ht htsome hne
        have hts : s = t := h s hs t ht hsome htsome
        subst hts
        rw [hread]
        exact hall c hc hne
    rw [hiff]
    cases held with
    | none => simp [Option.filter, hna]
    | some c =>
      have hin : c.1 ∈ before ∨ c.1 = s ∨ c.1 ∈ after := by simpa using hheld c rfl
      by_cases hb : c.1 ∈ before
      · simp [Option.filter, hb, hna]
      · by_cases hcs : c.1 = s
        · simp [Option.filter, hcs, hnb, hna]
        · have ha : c.1 ∈ after := (hin.resolve_left hb).resolve_left hcs
          simp [Option.filter, hb, hcs, ha]

/-- What a pass leaves belongs to a source that publishes it. -/
theorem copyAll_owner (h : Sole published sources) (hnodup : sources.Nodup)
    (hheld : ∀ c, held = some c → c.1 ∈ sources) {c : σ × β}
    (hc : copyAll published sources held = some c) :
    c.1 ∈ sources ∧ (published c.1).isSome = true := by
  rcases unpublished_or published sources with hnone | ⟨s, hs, value, hvalue⟩
  · rw [copyAll_unpublished _ hnone, Option.filter_eq_some_iff] at hc
    simp [hheld c hc.1] at hc
  · obtain ⟨before, after, rfl, -, -, hbefore, hafter⟩ := h.split hnodup hs hvalue
    rw [copyAll_sole hvalue hbefore hafter, Option.filter_eq_some_iff] at hc
    obtain ⟨hc, hna⟩ := hc
    have hcs : c.1 = s := by
      rw [← Option.some.inj hc] at hna ⊢
      cases held with
      | none => rfl
      | some c₀ =>
        have hin : c₀.1 ∈ before ∨ c₀.1 = s ∨ c₀.1 ∈ after := by simpa using hheld c₀ rfl
        by_cases hb : c₀.1 ∈ before
        · simp [Option.filter, hb]
        · simp only [Option.filter, hb, not_false_eq_true, decide_true, if_true, Option.map_some,
            Option.getD_some, decide_eq_true_eq] at hna ⊢
          exact (hin.resolve_left hb).resolve_right hna
    rw [hcs]
    exact ⟨hs, by simp [hvalue]⟩

/-- A second pass gets the copy right whatever was there before the first. -/
theorem copyAll_settles {sources' : List σ} (h : Sole published sources) (hnodup : sources.Nodup)
    (hnodup' : sources'.Nodup) (hmem : ∀ s, s ∈ sources' ↔ s ∈ sources)
    (hheld : ∀ c, held = some c → c.1 ∈ sources) :
    copyAll published sources' (copyAll published sources held) = publishedBy published sources := by
  have h' : Sole published sources' :=
    fun s hs t ht => h s ((hmem s).mp hs) t ((hmem t).mp ht)
  rw [← publishedBy_congr h hmem]
  refine (copyAll_settles_iff h' hnodup' ?_).mpr ?_
  · intro c hc
    exact (hmem c.1).mpr (copyAll_owner h hnodup hheld hc).1
  · intro c hc s hs hsome hne
    obtain ⟨hin, hpub⟩ := copyAll_owner h hnodup hheld hc
    exact absurd (h c.1 hin s ((hmem s).mp hs) hpub hsome) hne

end Relational
