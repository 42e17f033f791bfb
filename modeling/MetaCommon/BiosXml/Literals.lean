import Mathlib.Data.List.TakeWhile
import Mathlib.Tactic.Positivity
import MetaCommon.Lib.Numerals

/-!
# The literals of a dependency expression

A number is read with `std::stoi` to the base 0, which takes the base from the prefix of the word: a
word of decimal digits with a leading zero is read as octal, up to the first digit that is not. The
value is less than the decimal one unless that is below 8.
-/

namespace MetaCommon.BiosXml

open Numerals (isDigitOf valueOf)

abbrev Text := List Char

def isNumber (s : Text) : Bool := !s.isEmpty && s.all Char.isDigit

/-- `0x`, and then hexadecimal digits. -/
def isHexNotation : Text → Bool
  | '0' :: 'x' :: t => !t.isEmpty && t.all (isDigitOf 16)
  | _ => false

def isOctDigit (c : Char) : Bool := c.isDigit && c.toNat - '0'.toNat < 8

def hexValue (s : Text) : ℕ := valueOf 16 (s.takeWhile (isDigitOf 16))

def octValue (s : Text) : ℕ := Nat.ofDigitChars 8 (s.takeWhile isOctDigit) 0

def decValue (s : Text) : ℕ := Nat.ofDigitChars 10 (s.takeWhile Char.isDigit) 0

/-- A value that an `int` can hold. -/
def toInt (n : ℕ) : Option ℤ := if n < 2147483648 then some n else none

/-- `std::stoi(word, nullptr, 0)`, of a word that begins with a digit. Where the value is out of
range, it throws. -/
def stoi : Text → Option ℤ
  | '0' :: 'x' :: t => toInt (hexValue t)
  | '0' :: t => toInt (octValue t)
  | word => toInt (decValue word)

/-- The value of a literal: decimal digits have their decimal value, whatever the first. -/
def literal : Text → Option ℤ
  | '0' :: 'x' :: t => toInt (hexValue t)
  | word => toInt (decValue word)

theorem isNumber_iff {s : Text} : isNumber s = true ↔ s ≠ [] ∧ ∀ c ∈ s, c.isDigit = true := by
  simp [isNumber]

/-! ### The octal value of decimal digits -/

theorem le_ofDigitChars (ds : Text) (n : ℕ) : n ≤ Nat.ofDigitChars 10 ds n := by
  rw [Nat.ofDigitChars_eq_ofDigitChars_zero]
  calc n ≤ 10 ^ ds.length * n := Nat.le_mul_of_pos_left n (by positivity)
    _ ≤ _ := Nat.le_add_right _ _

theorem eight_le_of_not_isOctDigit {c : Char} (hc : c.isDigit = true)
    (hoct : isOctDigit c = false) : 8 ≤ c.toNat - '0'.toNat := by
  rw [isOctDigit, hc, Bool.true_and] at hoct
  exact Nat.le_of_not_lt (of_decide_eq_false hoct)

theorem lt_eight_of_isOctDigit {c : Char} (hoct : isOctDigit c = true) :
    c.toNat - '0'.toNat < 8 := of_decide_eq_true (Bool.and_eq_true_iff.mp hoct).2

/-- From a smaller value on, reading in octal stays below reading in decimal. -/
theorem octal_lt_decimal {ds : Text} (hds : ∀ c ∈ ds, c.isDigit = true) {a b : ℕ} (hab : a < b) :
    Nat.ofDigitChars 8 (ds.takeWhile isOctDigit) a < Nat.ofDigitChars 10 ds b := by
  induction ds generalizing a b with
  | nil => simpa using hab
  | cons c ds ih =>
    rw [Nat.ofDigitChars_cons]
    cases hc : isOctDigit c with
    | true =>
      rw [List.takeWhile_cons_of_pos hc, Nat.ofDigitChars_cons]
      exact ih (fun d hd => hds d (List.mem_cons_of_mem c hd)) (by omega)
    | false =>
      rw [List.takeWhile_cons_of_neg (by simp [hc]), Nat.ofDigitChars_nil]
      have hle := le_ofDigitChars ds (10 * b + (c.toNat - '0'.toNat))
      omega

theorem octal_lt_decimal_of_pos {ds : Text} (hds : ∀ c ∈ ds, c.isDigit = true) (hne : ds ≠ [])
    {n : ℕ} (hn : 0 < n) :
    Nat.ofDigitChars 8 (ds.takeWhile isOctDigit) n < Nat.ofDigitChars 10 ds n ∧
      8 ≤ Nat.ofDigitChars 10 ds n := by
  obtain ⟨c, ds, rfl⟩ := List.exists_cons_of_ne_nil hne
  have hle := le_ofDigitChars ds (10 * n + (c.toNat - '0'.toNat))
  rw [Nat.ofDigitChars_cons]
  refine ⟨?_, by omega⟩
  cases hc : isOctDigit c with
  | true =>
    rw [List.takeWhile_cons_of_pos hc, Nat.ofDigitChars_cons]
    exact octal_lt_decimal (fun d hd => hds d (List.mem_cons_of_mem c hd)) (by omega)
  | false =>
    rw [List.takeWhile_cons_of_neg (by simp [hc]), Nat.ofDigitChars_nil]
    omega

/-- The octal value of decimal digits is their decimal value only if that has one octal digit. -/
theorem octal_le_decimal_and {ds : Text} (hds : ∀ c ∈ ds, c.isDigit = true) :
    octValue ds ≤ Nat.ofDigitChars 10 ds 0 ∧
      (octValue ds = Nat.ofDigitChars 10 ds 0 ↔ Nat.ofDigitChars 10 ds 0 < 8) := by
  unfold octValue
  induction ds with
  | nil => simp
  | cons c ds ih =>
    have hrest : ∀ d ∈ ds, d.isDigit = true := fun d hd => hds d (List.mem_cons_of_mem c hd)
    have hle := le_ofDigitChars ds (10 * 0 + (c.toNat - '0'.toNat))
    rw [Nat.ofDigitChars_cons]
    cases hc : isOctDigit c with
    | false =>
      have h8 := eight_le_of_not_isOctDigit (hds c List.mem_cons_self) hc
      rw [List.takeWhile_cons_of_neg (by simp [hc]), Nat.ofDigitChars_nil]
      omega
    | true =>
      rw [List.takeWhile_cons_of_pos hc, Nat.ofDigitChars_cons]
      simp only [Nat.mul_zero, Nat.zero_add]
      rcases Nat.eq_zero_or_pos (c.toNat - '0'.toNat) with h0 | hpos
      · rw [h0]
        exact ih hrest
      · rcases eq_or_ne ds [] with rfl | hne
        · have h8 := lt_eight_of_isOctDigit hc
          simpa using h8
        · have := octal_lt_decimal_of_pos hrest hne hpos
          omega

/-! ### The two readings of a literal -/

theorem decValue_of_isNumber {s : Text} (hs : ∀ c ∈ s, c.isDigit = true) :
    decValue s = Nat.ofDigitChars 10 s 0 := by
  rw [decValue, List.takeWhile_eq_self_iff.mpr hs]

/-- What `std::stoi` reads of digits after a zero. -/
theorem stoi_leadingZero {t : Text} (ht : ∀ c ∈ t, c.isDigit = true) :
    stoi ('0' :: t) = toInt (octValue t) ∧ literal ('0' :: t) = toInt (decValue t) := by
  have hx : ∀ s, t = 'x' :: s → False := by
    rintro s rfl
    exact absurd (ht 'x' List.mem_cons_self) (by decide)
  have hdec : decValue ('0' :: t) = decValue t := by
    rw [decValue_of_isNumber ht, decValue_of_isNumber (List.forall_mem_cons.mpr ⟨rfl, ht⟩)]
    simp [Nat.ofDigitChars_cons]
  constructor
  · rw [stoi]
    exact hx
  · rw [literal, hdec]
    exact fun s hs => hx s (List.cons.inj hs).2

theorem stoi_of_head_ne {s : Text} (h : s.head? ≠ some '0') : stoi s = literal s := by
  rw [stoi, literal]
  all_goals
    rintro t rfl
    exact h rfl

theorem toInt_ne_none_of_le {m n : ℕ} (hle : m ≤ n) (h : toInt m = none) : toInt n = none := by
  unfold toInt at h ⊢
  rw [if_neg]
  intro hn
  rw [if_pos (hle.trans_lt hn)] at h
  cases h

theorem toInt_eq_some_iff {n : ℕ} {v : ℤ} : toInt n = some v ↔ n < 2147483648 ∧ (n : ℤ) = v := by
  unfold toInt
  split_ifs with h <;> simp [h]

example : stoi "0100".toList = some 64 ∧ literal "0100".toList = some 100 := by decide

/-- A number whose value `std::stoi` gives as the digits have it. -/
def Plain (word : Text) : Prop :=
  isNumber word = true → word.head? = some '0' → decValue word < 8

instance (word : Text) : Decidable (Plain word) := by unfold Plain; infer_instance

theorem plain_leadingZero {t : Text} (ht : ∀ c ∈ t, c.isDigit = true) :
    Plain ('0' :: t) ↔ octValue t = decValue t := by
  have hnum : isNumber ('0' :: t) = true :=
    isNumber_iff.mpr ⟨List.cons_ne_nil _ _, List.forall_mem_cons.mpr ⟨rfl, ht⟩⟩
  have hdec : decValue ('0' :: t) = Nat.ofDigitChars 10 t 0 := by
    rw [decValue_of_isNumber (isNumber_iff.mp hnum).2]
    simp [Nat.ofDigitChars_cons]
  rw [Plain, hdec, decValue_of_isNumber ht, (octal_le_decimal_and ht).2]
  exact ⟨fun h => h hnum rfl, fun h _ _ => h⟩

/-- A literal is hexadecimal, has no zero in front, or has digits after the zero. -/
theorem literal_cases {word : Text} (h : isNumber word = true ∨ isHexNotation word = true) :
    (isNumber word = false ∧ stoi word = literal word) ∨
      (word.head? ≠ some '0' ∧ stoi word = literal word) ∨
      ∃ t, word = '0' :: t ∧ ∀ c ∈ t, c.isDigit = true := by
  rcases h with hnum | hhex
  · obtain ⟨hne, hdigits⟩ := isNumber_iff.mp hnum
    obtain ⟨c, t, rfl⟩ := List.exists_cons_of_ne_nil hne
    rcases eq_or_ne c '0' with rfl | hc
    · exact Or.inr (Or.inr ⟨t, rfl, (List.forall_mem_cons.mp hdigits).2⟩)
    · have hhead : (c :: t).head? ≠ some '0' := fun h => hc (Option.some.inj h)
      exact Or.inr (Or.inl ⟨hhead, stoi_of_head_ne hhead⟩)
  · unfold isHexNotation at hhex
    split at hhex
    case h_1 t =>
      refine Or.inl ⟨Bool.eq_false_iff.mpr fun hnum => ?_, rfl⟩
      exact absurd ((isNumber_iff.mp hnum).2 'x' (by simp)) (by decide)
    case h_2 => cases hhex

theorem stoi_eq_literal {word : Text} (h : isNumber word = true ∨ isHexNotation word = true)
    (hplain : Plain word) : stoi word = literal word := by
  rcases literal_cases h with ⟨-, heq⟩ | ⟨-, heq⟩ | ⟨t, rfl, ht⟩
  · exact heq
  · exact heq
  · obtain ⟨hstoi, hlit⟩ := stoi_leadingZero ht
    rw [hstoi, hlit, (plain_leadingZero ht).mp hplain]

theorem plain_of_stoi_eq {word : Text} {v : ℤ} (hword : isNumber word = true)
    (hstoi : stoi word = some v) (hlit : literal word = some v) : Plain word := by
  rcases literal_cases (Or.inl hword) with ⟨hno, -⟩ | ⟨hhead, -⟩ | ⟨t, rfl, ht⟩
  · exact absurd hword (by simp [hno])
  · exact fun _ h0 => absurd h0 hhead
  · rw [(stoi_leadingZero ht).1, toInt_eq_some_iff] at hstoi
    rw [(stoi_leadingZero ht).2, toInt_eq_some_iff] at hlit
    exact (plain_leadingZero ht).mpr (by omega)

theorem eight_le_literal {word : Text} {v : ℤ} (h : ¬ Plain word) (hlit : literal word = some v) :
    8 ≤ v := by
  unfold Plain at h
  push Not at h
  obtain ⟨hnum, hhead, hdec⟩ := h
  rw [literal, toInt_eq_some_iff] at hlit
  · omega
  · rintro t rfl
    exact absurd ((isNumber_iff.mp hnum).2 'x' (by simp)) (by decide)

/-- A literal that does not fit is refused, and it would not fit as its digits have it. -/
theorem literal_eq_none {word : Text} (h : isNumber word = true ∨ isHexNotation word = true)
    (hstoi : stoi word = none) : literal word = none := by
  rcases literal_cases h with ⟨-, heq⟩ | ⟨-, heq⟩ | ⟨t, rfl, ht⟩
  · exact heq ▸ hstoi
  · exact heq ▸ hstoi
  · rw [(stoi_leadingZero ht).1] at hstoi
    rw [(stoi_leadingZero ht).2]
    have hle := (octal_le_decimal_and ht).1
    rw [← decValue_of_isNumber ht] at hle
    exact toInt_ne_none_of_le hle hstoi

end MetaCommon.BiosXml
