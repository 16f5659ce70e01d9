import Mathlib.Data.List.GetD
import Mathlib.Data.List.Nodup
import Mathlib.Logic.Function.Basic

/-! Base64 with padding: three bytes become four letters, and one or two bytes at the end
are filled up with zero bits and equality signs. -/

namespace Base64

def alphabet : List Char :=
  "ABCDEFGHIJKLMNOPQRSTUVWXYZabcdefghijklmnopqrstuvwxyz0123456789+/".toList

/-- The letter for six bits. -/
def letter (n : Nat) : Char := alphabet.getD n '='

def encode : List UInt8 → List Char
  | [] => []
  | [a] => [letter (a.toNat / 4), letter (a.toNat % 4 * 16), '=', '=']
  | [a, b] => [letter (a.toNat / 4), letter (a.toNat % 4 * 16 + b.toNat / 16),
      letter (b.toNat % 16 * 4), '=']
  | a :: b :: c :: rest =>
    letter (a.toNat / 4) :: letter (a.toNat % 4 * 16 + b.toNat / 16) ::
      letter (b.toNat % 16 * 4 + c.toNat / 64) :: letter (c.toNat % 64) :: encode rest

theorem alphabet_nodup : alphabet.Nodup := by decide +kernel

theorem letter_eq {n : Nat} (hn : n < 64) : ∃ h : n < alphabet.length, letter n = alphabet[n] := by
  have hlength : alphabet.length = 64 := by decide +kernel
  have h : n < alphabet.length := by omega
  exact ⟨h, List.getD_eq_getElem alphabet '=' h⟩

theorem letter_inj {m n : Nat} (hm : m < 64) (hn : n < 64) (h : letter m = letter n) : m = n := by
  obtain ⟨hm, hmeq⟩ := letter_eq hm
  obtain ⟨hn, hneq⟩ := letter_eq hn
  rw [hmeq, hneq] at h
  exact (List.Nodup.getElem_inj_iff alphabet_nodup).mp h

theorem letter_ne_pad {n : Nat} (hn : n < 64) : letter n ≠ '=' := by
  obtain ⟨hn, hneq⟩ := letter_eq hn
  have hpad : '=' ∉ alphabet := by decide +kernel
  rw [hneq]
  exact fun h => hpad (h ▸ List.getElem_mem hn)

/-- Two letters hold one byte and the first half of the next. -/
theorem first_byte_inj {a a' : UInt8} {x x' : Nat} (hx : x < 16) (hx' : x' < 16)
    (h : letter (a.toNat / 4) = letter (a'.toNat / 4))
    (h' : letter (a.toNat % 4 * 16 + x) = letter (a'.toNat % 4 * 16 + x')) : a = a' ∧ x = x' := by
  have ha := a.toNat_lt
  have ha' := a'.toNat_lt
  have hhigh := letter_inj (by omega) (by omega) h
  have hlow := letter_inj (by omega) (by omega) h'
  exact ⟨UInt8.toNat_inj.mp (by omega), by omega⟩

/-- The third letter holds the rest of that byte and the first bits of the last. -/
theorem second_byte_inj {b b' : UInt8} {x x' : Nat} (hx : x < 4) (hx' : x' < 4)
    (h : b.toNat / 16 = b'.toNat / 16)
    (h' : letter (b.toNat % 16 * 4 + x) = letter (b'.toNat % 16 * 4 + x')) : b = b' ∧ x = x' := by
  have hlow := letter_inj (by omega) (by omega) h'
  exact ⟨UInt8.toNat_inj.mp (by omega), by omega⟩

theorem encode_injective : Function.Injective encode := by
  have hfirst : ∀ b : UInt8, b.toNat / 16 < 16 := fun b => by have := b.toNat_lt; omega
  have hlast : ∀ c : UInt8, c.toNat / 64 < 4 := fun c => by have := c.toNat_lt; omega
  intro l
  -- the padding tells the two short ends apart from each other and from three bytes
  induction l using encode.induct with
  | case1 =>
    intro l' h
    match l' with
    | [] => rfl
    | [_] | [_, _] | _ :: _ :: _ :: _ => simp [encode] at h
  | case2 a =>
    intro l' h
    match l' with
    | [] => simp [encode] at h
    | [a'] =>
      simp only [encode, List.cons.injEq] at h
      rw [(@first_byte_inj a a' 0 0 (by omega) (by omega) h.1 h.2.1).1]
    | [a', b'] =>
      simp only [encode, List.cons.injEq] at h
      exact absurd h.2.2.1.symm (letter_ne_pad (by omega))
    | a' :: b' :: c' :: rest =>
      simp only [encode, List.cons.injEq] at h
      exact absurd h.2.2.1.symm (letter_ne_pad (by have := hlast c'; omega))
  | case3 a b =>
    intro l' h
    match l' with
    | [] => simp [encode] at h
    | [a'] =>
      simp only [encode, List.cons.injEq] at h
      exact absurd h.2.2.1 (letter_ne_pad (by omega))
    | [a', b'] =>
      simp only [encode, List.cons.injEq] at h
      obtain ⟨rfl, hb⟩ := first_byte_inj (hfirst b) (hfirst b') h.1 h.2.1
      rw [(@second_byte_inj b b' 0 0 (by omega) (by omega) hb h.2.2.1).1]
    | a' :: b' :: c' :: rest =>
      simp only [encode, List.cons.injEq] at h
      exact absurd h.2.2.2.1.symm (letter_ne_pad (by omega))
  | case4 a b c rest ih =>
    intro l' h
    match l' with
    | [] => simp [encode] at h
    | [a'] =>
      simp only [encode, List.cons.injEq] at h
      exact absurd h.2.2.1 (letter_ne_pad (by have := hlast c; omega))
    | [a', b'] =>
      simp only [encode, List.cons.injEq] at h
      exact absurd h.2.2.2.1 (letter_ne_pad (by omega))
    | a' :: b' :: c' :: rest' =>
      simp only [encode, List.cons.injEq] at h
      obtain ⟨rfl, hb⟩ := first_byte_inj (hfirst b) (hfirst b') h.1 h.2.1
      obtain ⟨rfl, hc⟩ := second_byte_inj (hlast c) (hlast c') hb h.2.2.1
      have hbits := letter_inj (by omega) (by omega) h.2.2.2.1
      have hlow : c = c' := UInt8.toNat_inj.mp (by omega)
      rw [hlow, ih h.2.2.2.2]

end Base64
