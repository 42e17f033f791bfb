import MetaCommon.Tpmi.Cache
import Mathlib.Data.List.TakeWhile

/-!
# Decimal numbers read by `std::stoi`

A text of digits is read to its end, and its value is that of the digits unless it is too large for
an `int`.
-/

namespace MetaCommon.Tpmi

theorem not_isSpace_of_isDigit {c : Char} (hc : c.isDigit = true) : isSpace c = false := by
  refine decide_eq_false fun hmem => ?_
  simp only [List.mem_cons, List.not_mem_nil, or_false] at hmem
  rcases hmem with rfl | rfl | rfl | rfl | rfl | rfl <;> exact absurd hc (by decide)

theorem foldl_digits (l : List Char) (n : ℕ) :
    l.foldl (fun (n : ℤ) c => 10 * n + (c.toNat - '0'.toNat : ℕ)) n = Nat.ofDigitChars 10 l n := by
  induction l generalizing n with
  | nil => simp
  | cons c l ih =>
    rw [List.foldl_cons, Nat.ofDigitChars_cons, ← ih]
    push_cast
    rfl

theorem stoi_digits {x : List Char} (hne : x ≠ []) (hdigit : ∀ c ∈ x, c.isDigit = true) :
    stoi x =
      if 2147483647 < Nat.ofDigitChars 10 x 0 then .error .outOfRange
      else .ok (Nat.ofDigitChars 10 x 0, x.length) := by
  have hvalue := foldl_digits x 0
  have htake : x.takeWhile Char.isDigit = x := List.takeWhile_eq_self_iff.mpr hdigit
  obtain ⟨c, s, rfl⟩ := List.exists_cons_of_ne_nil hne
  have hc : c.isDigit = true := hdigit c List.mem_cons_self
  have hminus : c ≠ '-' := by rintro rfl; exact absurd hc (by decide)
  have hplus : c ≠ '+' := by rintro rfl; exact absurd hc (by decide)
  have hbody : (c :: s).dropWhile isSpace = c :: s :=
    List.dropWhile_cons_of_neg (by simp [not_isSpace_of_isDigit hc])
  obtain ⟨n, hn⟩ : ∃ n, Nat.ofDigitChars 10 (c :: s) 0 = n := ⟨_, rfl⟩
  rw [hn] at hvalue ⊢
  simp only [List.foldl_cons, Int.natCast_zero, Int.mul_zero, Int.zero_add,
    Char.reduceToNat] at hvalue
  simp only [stoi, hbody]
  by_cases hlarge : 2147483647 < n
  · have hlarge' : (2147483647 : ℤ) < n := by omega
    simp [hminus, hplus, htake, hvalue, hlarge, hlarge']
  · have hnot : ¬ 2147483647 < (n : ℤ) := by omega
    simp [hminus, hplus, htake, hvalue, hlarge, hnot]

theorem isDigit_of_mem_toDigits {n : ℕ} {c : Char} (hc : c ∈ Nat.toDigits 10 n) :
    c.isDigit = true := Nat.isDigit_of_mem_toDigits (by decide) (by decide) hc

theorem stoi_toDigits {n : ℕ} (hn : n < 2147483648) :
    stoi (Nat.toDigits 10 n) = .ok (n, (Nat.toDigits 10 n).length) := by
  rw [stoi_digits Nat.toDigits_ne_nil fun _ => isDigit_of_mem_toDigits,
    Nat.ofDigitChars_ten_toDigits, if_neg (by omega)]

theorem forall_mem_cpu {p : Char → Prop} :
    (∀ c ∈ "cpu".toList, p c) ↔ p 'c' ∧ p 'p' ∧ p 'u' := by simp

theorem isAlphanum_of_mem_cpu : ∀ c ∈ "cpu".toList, c.isAlphanum = true :=
  forall_mem_cpu.mpr ⟨rfl, rfl, rfl⟩

theorem stoi_nil : stoi [] = .error .invalidArgument := rfl

end MetaCommon.Tpmi
