import Mathlib.Data.Nat.Basic
import Mathlib.Tactic.Common

/-!
# Fields of equal length packed into one word

The fields are numbered from the low end. `place i v` has `v` in field `i` and zeros elsewhere, so
that a word is changed in field `i` alone by setting the bits of `place i v` or by clearing them.
-/

namespace PackedFields

variable {n len : ℕ}

def field (len : ℕ) (w : BitVec n) (i : ℕ) : BitVec len := w.extractLsb' (i * len) len

def place (n i : ℕ) (v : BitVec len) : BitVec n := v.setWidth n <<< (i * len)

theorem getLsbD_field (w : BitVec n) (i : ℕ) {b : ℕ} (hb : b < len) :
    (field len w i).getLsbD b = w.getLsbD (i * len + b) := by
  rw [field, BitVec.getLsbD_extractLsb']
  simp [hb]

theorem getLsbD_place_self (i : ℕ) (v : BitVec len) {b : ℕ} (hb : b < len)
    (hn : (i + 1) * len ≤ n) : (place n i v).getLsbD (i * len + b) = v.getLsbD b := by
  rw [Nat.add_one_mul] at hn
  rw [place, BitVec.getLsbD_shiftLeft, Nat.add_sub_cancel_left, BitVec.getLsbD_setWidth]
  have h₁ : i * len + b < n := by omega
  have h₂ : b < n := by omega
  simp [h₁, h₂]

theorem getLsbD_place_of_ne {i j : ℕ} (h : i ≠ j) (v : BitVec len) {b : ℕ} (hb : b < len) :
    (place n j v).getLsbD (i * len + b) = false := by
  rw [place, BitVec.getLsbD_shiftLeft, BitVec.getLsbD_setWidth]
  rcases Nat.lt_or_gt_of_ne h with hlt | hgt
  · have hle : (i + 1) * len ≤ j * len := Nat.mul_le_mul_right len hlt
    rw [Nat.add_one_mul] at hle
    have hbit : i * len + b < j * len := by omega
    simp [hbit]
  · have hle : (j + 1) * len ≤ i * len := Nat.mul_le_mul_right len hgt
    rw [Nat.add_one_mul] at hle
    have hbit : v.getLsbD (i * len + b - j * len) = false := by
      apply BitVec.getLsbD_of_ge
      omega
    simp [hbit]

theorem field_or_place_self (w : BitVec n) (i : ℕ) (v : BitVec len) (hn : (i + 1) * len ≤ n) :
    field len (w ||| place n i v) i = field len w i ||| v := by
  apply BitVec.eq_of_getLsbD_eq
  intro b hb
  rw [getLsbD_field _ _ hb, BitVec.getLsbD_or, BitVec.getLsbD_or, getLsbD_field _ _ hb,
    getLsbD_place_self i v hb hn]

theorem field_or_place_of_ne (w : BitVec n) {i j : ℕ} (h : i ≠ j) (v : BitVec len) :
    field len (w ||| place n j v) i = field len w i := by
  apply BitVec.eq_of_getLsbD_eq
  intro b hb
  rw [getLsbD_field _ _ hb, BitVec.getLsbD_or, getLsbD_field _ _ hb, getLsbD_place_of_ne h v hb,
    Bool.or_false]

theorem field_clear_place_self (w : BitVec n) (i : ℕ) (v : BitVec len) (hn : (i + 1) * len ≤ n) :
    field len (w &&& ~~~place n i v) i = field len w i &&& ~~~v := by
  apply BitVec.eq_of_getLsbD_eq
  intro b hb
  rw [Nat.add_one_mul] at hn
  have hbit : i * len + b < n := by omega
  rw [getLsbD_field _ _ hb, BitVec.getLsbD_and, BitVec.getLsbD_and, getLsbD_field _ _ hb,
    BitVec.getLsbD_not, BitVec.getLsbD_not, getLsbD_place_self i v hb (by rw [Nat.add_one_mul]; omega)]
  simp [hbit, hb]

theorem field_clear_place_of_ne (w : BitVec n) {i j : ℕ} (h : i ≠ j) (v : BitVec len) :
    field len (w &&& ~~~place n j v) i = field len w i := by
  apply BitVec.eq_of_getLsbD_eq
  intro b hb
  rw [getLsbD_field _ _ hb, BitVec.getLsbD_and, getLsbD_field _ _ hb, BitVec.getLsbD_not,
    getLsbD_place_of_ne h v hb]
  by_cases hbit : i * len + b < n
  · simp [hbit]
  · simp [BitVec.getLsbD_of_ge w _ (Nat.le_of_not_lt hbit)]

end PackedFields
