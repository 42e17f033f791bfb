import Mathlib.Algebra.Ring.Int.Defs
import Mathlib.Algebra.Ring.Nat
import Mathlib.Order.Lattice
import Mathlib.Tactic.Common

/-!
# Numerals at the beginning of a text

The family of `strtol`: white space, a sign, a mark of the radix, and digits. The number may be too
large for the result, and what follows the numeral is left. A text denotes a number if it is a
numeral as a whole. The base 0 stands for the radix of the mark.
-/

namespace Numerals

def isSpace (c : Char) : Bool := [' ', '\t', '\n', '\x0b', '\x0c', '\r'].contains c

def digitValue (c : Char) : ℕ :=
  if c.isDigit then c.toNat - '0'.toNat
  else if c.isLower then c.toNat - 'a'.toNat + 10
  else if c.isUpper then c.toNat - 'A'.toNat + 10
  else 36

def isDigitOf (radix : ℕ) (c : Char) : Bool := digitValue c < radix

/-- Whether there is a minus sign, and what follows the sign. -/
def takeSign : List Char → Bool × List Char
  | '-' :: s => (true, s)
  | '+' :: s => (false, s)
  | s => (false, s)

/-- A mark counts only if a hexadecimal digit follows. -/
def dropMark : List Char → Option (List Char)
  | '0' :: x :: d :: s => if (x = 'x' || x = 'X') && isDigitOf 16 d then some (d :: s) else none
  | _ => none

def takeMark (base : ℕ) (s : List Char) : ℕ × List Char :=
  if base = 0 then
    match dropMark s with
    | some t => (16, t)
    | none => if s.head? = some '0' then (8, s) else (10, s)
  else if base = 16 then (16, (dropMark s).getD s)
  else (base, s)

def valueOf (radix : ℕ) (digits : List Char) : ℕ :=
  digits.foldl (fun n c => radix * n + digitValue c) 0

/-- The sign, the magnitude and the rest of a text that begins with a numeral. -/
def numeral (base : ℕ) (s : List Char) : Option (Bool × ℕ × List Char) :=
  let (minus, t) := takeSign (s.dropWhile isSpace)
  let (radix, t) := takeMark base t
  let digits := t.takeWhile (isDigitOf radix)
  if digits.isEmpty then none
  else some (minus, valueOf radix digits, t.dropWhile (isDigitOf radix))

def signed (minus : Bool) (magnitude : ℕ) : ℤ := if minus then -magnitude else magnitude

/-- The number at the beginning, or 0. -/
def leading (base : ℕ) (s : List Char) : ℤ :=
  match numeral base s with
  | none => 0
  | some (minus, magnitude, _) => signed minus magnitude

/-- The number that the whole text denotes. -/
def denotes (base : ℕ) (s : List Char) : Option ℤ :=
  match numeral base s with
  | some (minus, magnitude, []) => some (signed minus magnitude)
  | _ => none

/-- The value, the rest behind `endptr`, and whether `errno` is set. -/
structure Conversion (α : Type) where
  value : α
  rest : List Char
  erange : Bool

/-- `strtol`, for a `long` of `w` bits. Without a numeral the rest is the whole text. -/
def strtol (w base : ℕ) (s : List Char) : Conversion ℤ :=
  match numeral base s with
  | none => ⟨0, s, false⟩
  | some (minus, magnitude, rest) =>
    let n := signed minus magnitude
    if n < -(2 ^ (w - 1)) then ⟨-(2 ^ (w - 1)), rest, true⟩
    else if 2 ^ (w - 1) - 1 < n then ⟨2 ^ (w - 1) - 1, rest, true⟩
    else ⟨n, rest, false⟩

/-- `strtoul`, which takes a number with a minus sign modulo `2 ^ w`. -/
def strtoul (w base : ℕ) (s : List Char) : Conversion (BitVec w) :=
  match numeral base s with
  | none => ⟨0#w, s, false⟩
  | some (minus, magnitude, rest) =>
    if 2 ^ w - 1 < magnitude then ⟨BitVec.allOnes w, rest, true⟩
    else ⟨BitVec.ofInt w (signed minus magnitude), rest, false⟩

/-- The text denotes a number between two others. -/
def Within (base : ℕ) (s : List Char) (lo hi : ℤ) : Prop :=
  ∃ n, denotes base s = some n ∧ lo ≤ n ∧ n ≤ hi

variable {w base : ℕ} {s : List Char} {n lo hi : ℤ}

theorem numeral_nil : numeral base [] = none := by
  have hmark : (takeMark base []).2 = [] := by
    unfold takeMark
    split_ifs <;> rfl
  unfold numeral
  simp [takeSign, hmark]

/-- A bound inside the range of the result may be put to the number itself. -/
theorem le_strtol_iff (hlo : -(2 ^ (w - 1)) < lo) (hhi : lo ≤ 2 ^ (w - 1) - 1) :
    lo ≤ (strtol w base s).value ↔ lo ≤ leading base s := by
  unfold strtol leading
  cases numeral base s with
  | none => rfl
  | some parts => grind

theorem strtol_le_iff (hlo : -(2 ^ (w - 1)) ≤ hi) (hhi : hi < 2 ^ (w - 1) - 1) :
    (strtol w base s).value ≤ hi ↔ leading base s ≤ hi := by
  unfold strtol leading
  cases numeral base s with
  | none => rfl
  | some parts => grind

/-- A number that fits is the result. -/
theorem strtol_value_of_denotes (h : denotes base s = some n) (hlo : -(2 ^ (w - 1)) ≤ n)
    (hhi : n ≤ 2 ^ (w - 1) - 1) : (strtol w base s).value = n := by
  unfold denotes at h
  unfold strtol
  grind

/-- The conversion reads the whole text and sets no error: the text is empty, or denotes a number
that fits. -/
theorem strtol_whole_iff (hlo : -(2 ^ (w - 1)) ≤ lo) (hhi : hi ≤ 2 ^ (w - 1) - 1)
    (hzero : lo ≤ 0 ∧ 0 ≤ hi) :
    (strtol w base s).erange = false ∧ (strtol w base s).rest = [] ∧
        lo ≤ (strtol w base s).value ∧ (strtol w base s).value ≤ hi ↔
      s = [] ∨ Within base s lo hi := by
  unfold Within strtol denotes
  cases hnumeral : numeral base s with
  | none => simp [hzero.1, hzero.2]
  | some parts =>
    obtain ⟨minus, magnitude, rest⟩ := parts
    have hne : s ≠ [] := by
      rintro rfl
      simp [numeral_nil] at hnumeral
    cases rest with
    | nil => grind
    | cons c rest => grind

/-- The lower bits of the result, of a text that denotes a number which fits into them. -/
theorem toNat_strtoul_of_denotes {m : ℕ} (h : denotes base s = some n) (hlo : 0 ≤ n)
    (hhi : n < 2 ^ m) (hm : m ≤ w) : (((strtoul w base s).value.setWidth m).toNat : ℤ) = n := by
  obtain ⟨k, rfl⟩ := Int.eq_ofNat_of_zero_le hlo
  have hk : k < 2 ^ m := by exact_mod_cast hhi
  have hw : k < 2 ^ w := hk.trans_le (Nat.pow_le_pow_right (by omega) hm)
  have hvalue : (strtoul w base s).value = BitVec.ofInt w k := by
    unfold denotes at h
    unfold strtoul
    split at h
    · next minus magnitude hnumeral =>
      have hsigned : signed minus magnitude = k := Option.some.inj h
      have hmagnitude : magnitude = k := by
        unfold signed at hsigned
        split at hsigned <;> omega
      rw [hnumeral]
      simp only
      rw [if_neg (by omega), hsigned]
    · exact absurd h (by simp)
  rw [hvalue, BitVec.ofInt_natCast, BitVec.toNat_setWidth, BitVec.toNat_ofNat,
    Nat.mod_eq_of_lt hw, Nat.mod_eq_of_lt hk]

example : denotes 0 "0x1F".toList = some 31 ∧ denotes 10 "1x".toList = none ∧
    leading 10 " +1x".toList = 1 := by decide

end Numerals
