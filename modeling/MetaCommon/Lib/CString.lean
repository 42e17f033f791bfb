import Mathlib.Data.List.TakeWhile

/-!
# C strings

A byte string that is handed on as a C string ends at its first NUL.
-/

namespace CString

def upToNul (s : List UInt8) : List UInt8 := s.takeWhile (· ≠ 0)

@[simp] theorem upToNul_nil : upToNul [] = [] := rfl

@[simp] theorem upToNul_zero_cons (xs : List UInt8) : upToNul (0 :: xs) = [] := rfl

theorem upToNul_cons {x : UInt8} (hx : x ≠ 0) (xs : List UInt8) :
    upToNul (x :: xs) = x :: upToNul xs := List.takeWhile_cons_of_pos (by simpa using hx)

theorem upToNul_append_zeros (xs : List UInt8) (n : ℕ) :
    upToNul (xs ++ List.replicate n 0) = upToNul xs := by
  induction xs with
  | nil => cases n <;> rfl
  | cons x xs ih =>
    rw [List.cons_append]
    by_cases hx : x = 0
    · subst hx
      rfl
    · rw [upToNul_cons hx, upToNul_cons hx, ih]

theorem zero_notMem_upToNul (xs : List UInt8) : 0 ∉ upToNul xs := fun h => by
  simpa using List.mem_takeWhile_imp h

theorem upToNul_eq_self_iff (xs : List UInt8) : upToNul xs = xs ↔ 0 ∉ xs := by
  constructor
  · intro h
    rw [← h]
    exact zero_notMem_upToNul xs
  · intro h
    refine List.takeWhile_eq_self_iff.mpr fun x hx => ?_
    have hne : x ≠ 0 := fun h0 => h (h0 ▸ hx)
    simpa using hne

/-- What stands after the first NUL does not count. -/
theorem upToNul_append_of_mem {xs : List UInt8} (h : 0 ∈ xs) (ys : List UInt8) :
    upToNul (xs ++ ys) = upToNul xs := by
  induction xs with
  | nil => cases h
  | cons x xs ih =>
    rw [List.cons_append]
    by_cases hx : x = 0
    · subst hx
      rfl
    · have hxs : 0 ∈ xs := (List.mem_cons.mp h).resolve_left (Ne.symm hx)
      rw [upToNul_cons hx, upToNul_cons hx, ih hxs]

theorem upToNul_append_of_notMem {xs : List UInt8} (h : 0 ∉ xs) (ys : List UInt8) :
    upToNul (xs ++ ys) = xs ++ upToNul ys := by
  induction xs with
  | nil => rfl
  | cons x xs ih =>
    have hx : x ≠ 0 := fun h0 => h (h0 ▸ List.mem_cons_self)
    rw [List.cons_append, upToNul_cons hx, ih fun hmem => h (List.mem_cons_of_mem x hmem),
      List.cons_append]

theorem length_upToNul_lt {xs : List UInt8} (h : 0 ∈ xs) : (upToNul xs).length < xs.length := by
  refine Nat.lt_of_le_of_ne (List.takeWhile_sublist _).length_le fun heq => ?_
  have hself : upToNul xs = xs := (List.takeWhile_sublist _).eq_of_length heq
  exact (upToNul_eq_self_iff xs).mp hself h

theorem upToNul_eq_nil_iff (xs : List UInt8) :
    upToNul xs = [] ↔ xs[0]? = none ∨ xs[0]? = some 0 := by
  cases xs with
  | nil => simp
  | cons x xs =>
    by_cases hx : x = 0
    · subst hx
      simp
    · simp [upToNul_cons hx, hx]

end CString
