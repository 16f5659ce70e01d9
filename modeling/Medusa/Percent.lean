import Mathlib.Algebra.Order.Round
import Mathlib.Data.Rat.Floor
import Mathlib.Tactic.FieldSimp
import Mathlib.Tactic.Linarith

/-! A part of a whole as a percentage, and the percentage as a column of integers keeps
it. A percentage that is neither 0 nor 100 can be either of them once it is rounded. -/

namespace Percent

/-- The percentage of nothing is 0. -/
def percent (part whole : Nat) : ℚ :=
  if whole = 0 then 0 else (part : ℚ) / whole * 100

variable {part whole : Nat}

theorem percent_zero_whole (part : Nat) : percent part 0 = 0 := rfl

theorem percent_of_pos (h : 0 < whole) : percent part whole = (part : ℚ) / whole * 100 :=
  if_neg (Nat.ne_of_gt h)

theorem percent_eq_hundred_iff : percent part whole = 100 ↔ 0 < whole ∧ part = whole := by
  rcases Nat.eq_zero_or_pos whole with rfl | h
  · simp [percent_zero_whole]
  · have hpos : (0 : ℚ) < whole := Nat.cast_pos.mpr h
    rw [percent_of_pos h, and_iff_right h]
    constructor
    · intro hp
      have heq : (part : ℚ) = whole := by
        field_simp at hp
        linarith
      exact Nat.cast_injective heq
    · rintro rfl
      field_simp

theorem percent_pos_iff (h : part ≤ whole) : 0 < percent part whole ↔ 0 < part := by
  rcases Nat.eq_zero_or_pos whole with rfl | hw
  · simp [percent_zero_whole, Nat.le_zero.mp h]
  · have hpos : (0 : ℚ) < whole := Nat.cast_pos.mpr hw
    rw [percent_of_pos hw, ← Nat.cast_pos (α := ℚ)]
    constructor
    · intro hp
      field_simp at hp
      linarith
    · intro hp
      positivity

theorem percent_le_hundred (h : part ≤ whole) : percent part whole ≤ 100 := by
  rcases Nat.eq_zero_or_pos whole with rfl | hw
  · simp [percent_zero_whole]
  · have hpos : (0 : ℚ) < whole := Nat.cast_pos.mpr hw
    have hle : (part : ℚ) / whole ≤ 1 := (div_le_one hpos).mpr (Nat.cast_le.mpr h)
    rw [percent_of_pos hw]
    linarith

theorem percent_nonneg (part whole : Nat) : 0 ≤ percent part whole := by
  unfold percent
  split
  · exact le_rfl
  · positivity

theorem percent_eq_zero_iff (h : part ≤ whole) : percent part whole = 0 ↔ part = 0 := by
  rw [← not_iff_not, ← ne_eq, ← (percent_nonneg part whole).lt_iff_ne', percent_pos_iff h,
    Nat.pos_iff_ne_zero]

theorem round_percent_mem (h : part ≤ whole) :
    0 ≤ round (percent part whole) ∧ round (percent part whole) ≤ 100 := by
  have hnonneg := percent_nonneg part whole
  have hle := percent_le_hundred h
  rw [round_eq]
  constructor
  · exact Int.floor_nonneg.mpr (by linarith)
  · rw [← Int.lt_add_one_iff, Int.floor_lt]
    push_cast
    linarith

/-- Less than a half is rounded to 0. -/
theorem round_percent_eq_zero_iff (h : part ≤ whole) :
    round (percent part whole) = 0 ↔ part = 0 ∨ 200 * part < whole := by
  rcases Nat.eq_zero_or_pos whole with rfl | hw
  · simp [percent_zero_whole, Nat.le_zero.mp h]
  · have hpos : (0 : ℚ) < whole := Nat.cast_pos.mpr hw
    have hnonneg := percent_nonneg part whole
    have hhalf : percent part whole < 1 / 2 ↔ 200 * part < whole := by
      rw [percent_of_pos hw, ← Nat.cast_lt (α := ℚ)]
      push_cast
      constructor
      · intro hp
        field_simp at hp
        linarith
      · intro hp
        field_simp
        linarith
    rw [round_eq_zero_iff, Set.mem_Ico, hhalf]
    constructor
    · exact fun hp => Or.inr hp.2
    · rintro (rfl | hp)
      · exact ⟨by linarith, by omega⟩
      · exact ⟨by linarith, hp⟩

/-- All but less than a half is rounded to 100. -/
theorem round_percent_eq_hundred_iff (h : part ≤ whole) :
    round (percent part whole) = 100 ↔ 0 < whole ∧ 200 * (whole - part) ≤ whole := by
  rcases Nat.eq_zero_or_pos whole with rfl | hw
  · simp [percent_zero_whole]
  · have hpos : (0 : ℚ) < whole := Nat.cast_pos.mpr hw
    have hle := percent_le_hundred h
    have hhalf : (100 : ℚ) - 1 / 2 ≤ percent part whole ↔ 200 * (whole - part) ≤ whole := by
      rw [percent_of_pos hw, ← Nat.cast_le (α := ℚ)]
      push_cast [Nat.cast_sub h]
      constructor
      · intro hp
        field_simp at hp
        linarith
      · intro hp
        field_simp
        linarith
    rw [round_eq_iff, Set.mem_Ico, and_iff_right hw]
    push_cast
    rw [hhalf]
    exact and_iff_left (by linarith)

end Percent
