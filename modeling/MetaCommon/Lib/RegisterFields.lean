import Mathlib.Algebra.Group.Nat.Defs
import Mathlib.Tactic.Common

/-!
# Named fields of a 32-bit register

A field is given by its highest and its lowest bit. `fieldPrep` puts a value in the place of its
field and `fieldGet` reads the field of a word. Fields that lie apart can be set together: each of
them reads the value that was meant for it.
-/

namespace RegisterFields

structure Field where
  high : ℕ
  low : ℕ
  low_le : low ≤ high := by decide
  high_lt : high < 32 := by decide
deriving DecidableEq

namespace Field

/-- The mask with the bits `low` to `high` set. -/
def mask (f : Field) : BitVec 32 :=
  (BitVec.allOnes 32 >>> (31 - f.high)) &&& (BitVec.allOnes 32 <<< f.low)

def Covers (f : Field) (i : ℕ) : Prop := f.low ≤ i ∧ i ≤ f.high

instance (f : Field) (i : ℕ) : Decidable (f.Covers i) := inferInstanceAs (Decidable (_ ∧ _))

def Apart (f g : Field) : Prop := f.high < g.low ∨ g.high < f.low

instance (f g : Field) : Decidable (f.Apart g) := inferInstanceAs (Decidable (_ ∨ _))

theorem Apart.symm {f g : Field} (h : f.Apart g) : g.Apart f := Or.symm h

def width (f : Field) : ℕ := f.high + 1 - f.low

theorem getLsbD_mask (f : Field) (i : ℕ) (hi : i < 32) :
    f.mask.getLsbD i = decide (f.Covers i) := by
  rw [mask, BitVec.getLsbD_and, BitVec.getLsbD_ushiftRight, BitVec.getLsbD_shiftLeft,
    BitVec.getLsbD_allOnes, BitVec.getLsbD_allOnes]
  unfold Covers
  by_cases hlow : f.low ≤ i <;> by_cases hhigh : i ≤ f.high
  · have h₁ : 31 - f.high + i < 32 := by omega
    have h₂ : i - f.low < 32 := by omega
    simp [hlow, hhigh, h₁, h₂, hi]
  · have h₁ : ¬ 31 - f.high + i < 32 := by omega
    simp [hlow, hhigh, h₁]
  · simp [hlow, hi]
  · simp [hlow, hi]

end Field

variable (f : Field)

def fieldPrep (v : BitVec 32) : BitVec 32 := (v <<< f.low) &&& f.mask

def fieldGet (w : BitVec 32) : ℕ := ((w &&& f.mask) >>> f.low).toNat

theorem getLsbD_fieldPrep (v : BitVec 32) {i : ℕ} (hi : i < 32) :
    (fieldPrep f v).getLsbD i = (decide (f.Covers i) && v.getLsbD (i - f.low)) := by
  rw [fieldPrep, BitVec.getLsbD_and, BitVec.getLsbD_shiftLeft, f.getLsbD_mask i hi]
  unfold Field.Covers
  by_cases hlow : f.low ≤ i
  · have hnot : ¬ i < f.low := Nat.not_lt.mpr hlow
    simp [hlow, hnot, hi, Bool.and_comm]
  · simp [hlow, hi]

variable {f}

theorem getLsbD_fieldPrep_self (v : BitVec 32) {i : ℕ} (hi : i < 32) (hf : f.Covers i) :
    (fieldPrep f v).getLsbD i = v.getLsbD (i - f.low) := by
  rw [getLsbD_fieldPrep f v hi, decide_eq_true hf, Bool.true_and]

/-- The value of a field that lies apart leaves the bits of the field alone. -/
theorem getLsbD_fieldPrep_of_apart {g : Field} (h : f.Apart g) (v : BitVec 32) {i : ℕ} (hi : i < 32)
    (hf : f.Covers i) : (fieldPrep g v).getLsbD i = false := by
  have hg : ¬ g.Covers i := by
    unfold Field.Apart at h
    unfold Field.Covers at hf ⊢
    omega
  rw [getLsbD_fieldPrep g v hi, decide_eq_false hg, Bool.false_and]

/-- A word whose bits in the field are those of a value that fits into it. -/
theorem fieldGet_eq_of_bits {w v : BitVec 32} (hv : v.toNat < 2 ^ f.width)
    (h : ∀ i < 32, f.Covers i → w.getLsbD i = v.getLsbD (i - f.low)) : fieldGet f w = v.toNat := by
  apply congrArg BitVec.toNat
  apply BitVec.eq_of_getLsbD_eq
  intro j hj
  rw [BitVec.getLsbD_ushiftRight, BitVec.getLsbD_and]
  have hout : ¬ f.low + j ≤ f.high → v.getLsbD j = false := by
    intro hgt
    have hle : f.width ≤ j := by
      unfold Field.width
      omega
    exact Nat.testBit_lt_two_pow (Nat.lt_of_lt_of_le hv (Nat.pow_le_pow_right (by omega) hle))
  have hlow : f.low ≤ f.low + j := Nat.le_add_right f.low j
  by_cases hin : f.low + j ≤ f.high
  · have hlt : f.low + j < 32 := Nat.lt_of_le_of_lt hin f.high_lt
    rw [f.getLsbD_mask _ hlt, h _ hlt ⟨hlow, hin⟩, Nat.add_sub_cancel_left]
    simp [Field.Covers, hin]
  · rw [hout hin]
    by_cases hlt : f.low + j < 32
    · rw [f.getLsbD_mask _ hlt]
      simp [Field.Covers, hin]
    · rw [BitVec.getLsbD_of_ge w _ (Nat.le_of_not_lt hlt), Bool.false_and]

/-- The masks of some fields together. -/
def masks : List (Field × BitVec 32) → BitVec 32
  | [] => 0
  | (f, _) :: fs => f.mask ||| masks fs

/-- The values of some fields together, each in its place. -/
def word : List (Field × BitVec 32) → BitVec 32
  | [] => 0
  | (f, v) :: fs => fieldPrep f v ||| word fs

variable {fs : List (Field × BitVec 32)} {v : BitVec 32}

theorem getLsbD_masks (hmem : (f, v) ∈ fs) {i : ℕ} (hi : i < 32) (hf : f.Covers i) :
    (masks fs).getLsbD i = true := by
  induction fs with
  | nil => exact absurd hmem List.not_mem_nil
  | cons p fs ih =>
    rw [masks, BitVec.getLsbD_or]
    rcases List.mem_cons.mp hmem with rfl | hrest
    · rw [f.getLsbD_mask i hi, decide_eq_true hf, Bool.true_or]
    · rw [ih hrest, Bool.or_true]

theorem getLsbD_word_of_apart (h : ∀ p ∈ fs, f.Apart p.1) {i : ℕ} (hi : i < 32) (hf : f.Covers i) :
    (word fs).getLsbD i = false := by
  induction fs with
  | nil => exact BitVec.getLsbD_zero
  | cons p fs ih =>
    rw [word, BitVec.getLsbD_or, getLsbD_fieldPrep_of_apart (h p List.mem_cons_self) _ hi hf,
      Bool.false_or]
    exact ih fun q hq => h q (List.mem_cons_of_mem p hq)

theorem getLsbD_word (hapart : fs.Pairwise fun p q => p.1.Apart q.1) (hmem : (f, v) ∈ fs) {i : ℕ}
    (hi : i < 32) (hf : f.Covers i) : (word fs).getLsbD i = v.getLsbD (i - f.low) := by
  induction fs with
  | nil => exact absurd hmem List.not_mem_nil
  | cons p fs ih =>
    obtain ⟨hhead, htail⟩ := List.pairwise_cons.mp hapart
    rw [word, BitVec.getLsbD_or]
    rcases List.mem_cons.mp hmem with rfl | hrest
    · rw [getLsbD_fieldPrep_self v hi hf, getLsbD_word_of_apart hhead hi hf, Bool.or_false]
    · have hp : f.Apart p.1 := (hhead (f, v) hrest).symm
      rw [getLsbD_fieldPrep_of_apart hp _ hi hf, Bool.false_or]
      exact ih htail hrest

/-- Each of the fields that a register is cleared in and then set in reads its value. -/
theorem fieldGet_clear_set (w : BitVec 32) (hapart : fs.Pairwise fun p q => p.1.Apart q.1)
    (hmem : (f, v) ∈ fs) (hv : v.toNat < 2 ^ f.width) :
    fieldGet f ((w &&& ~~~masks fs) ||| word fs) = v.toNat := by
  apply fieldGet_eq_of_bits hv
  intro i hi hf
  rw [BitVec.getLsbD_or, BitVec.getLsbD_and, BitVec.getLsbD_not, getLsbD_masks hmem hi hf,
    getLsbD_word hapart hmem hi hf]
  simp

end RegisterFields
