import Mathlib.Tactic.Common

/-!
# Statements that may return

A statement changes the state and then falls through to the next statement or returns a value.
`andThen` runs the second statement only where the first one falls through, `forLoop` runs its body
for a number of rounds unless one of them returns, and `run` is a body that ends in a `return`.
-/

namespace Statements

def Stmt (σ ρ : Type*) := σ → σ × Option ρ

namespace Stmt

variable {σ ρ : Type*}

def skip : Stmt σ ρ := fun s => (s, none)

def effect (f : σ → σ) : Stmt σ ρ := fun s => (f s, none)

def ret (r : ρ) : Stmt σ ρ := fun s => (s, some r)

def andThen (p q : Stmt σ ρ) : Stmt σ ρ := fun s =>
  match p s with
  | (s', some r) => (s', some r)
  | (s', none) => q s'

/-- The rounds `i`, `i + 1`, ... of a loop, `n` of them. -/
def forLoop (body : ℕ → Stmt σ ρ) : ℕ → ℕ → Stmt σ ρ
  | _, 0 => skip
  | i, n + 1 => (body i).andThen (forLoop body (i + 1) n)

/-- The statement, and `return r` where it falls through. -/
def run (p : Stmt σ ρ) (r : ρ) (s : σ) : σ × ρ := ((p s).1, (p s).2.getD r)

@[simp] theorem effect_andThen (f : σ → σ) (q : Stmt σ ρ) (s : σ) :
    (effect f).andThen q s = q (f s) := rfl

/-- What comes after a statement that returns is not run. -/
theorem andThen_of_returns {p : Stmt σ ρ} (q : Stmt σ ρ) {s s' : σ} {r : ρ}
    (h : p s = (s', some r)) : p.andThen q s = (s', some r) := by
  unfold andThen
  rw [h]

/-- A loop whose first round returns has no other. -/
theorem forLoop_of_returns (body : ℕ → Stmt σ ρ) {i n : ℕ} (hn : 0 < n) {s s' : σ} {r : ρ}
    (h : body i s = (s', some r)) : forLoop body i n s = (s', some r) := by
  cases n with
  | zero => exact absurd hn (Nat.lt_irrefl 0)
  | succ n => exact andThen_of_returns _ h

theorem run_of_returns {p : Stmt σ ρ} (r : ρ) {s s' : σ} {r' : ρ} (h : p s = (s', some r')) :
    p.run r s = (s', r') := by
  unfold run
  rw [h]
  rfl

end Stmt

end Statements
