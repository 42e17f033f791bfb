import Mathlib.Data.List.Basic
import Mathlib.Tactic.Common

/-!
# Computations that change a state and may throw

A computation that throws keeps the state it has reached. `ReadOnly` says of a computation that it
changes nothing that can be seen through a view of the state, and that its result depends on the
view alone: it may fill a cache. The result of such a computation at a state is its `value`, which
the rules below take apart.
-/

namespace Fallible

def Comp (σ ε α : Type) := σ → Except ε α × σ

variable {σ ε α β ν : Type}

instance : Monad (Comp σ ε) where
  pure a := fun s => (.ok a, s)
  bind x k := fun s =>
    match x s with
    | (.ok a, s') => k a s'
    | (.error e, s') => (.error e, s')

namespace Comp

def throw (e : ε) : Comp σ ε α := fun s => (.error e, s)

def gets (f : σ → α) : Comp σ ε α := fun s => (.ok (f s), s)

def modify (f : σ → σ) : Comp σ ε Unit := fun s => (.ok (), f s)

/-- The elements for which `p` gives `true`. -/
def filter (p : α → Comp σ ε Bool) : List α → Comp σ ε (List α)
  | [] => pure []
  | a :: as => do
    let keep ← p a
    let rest ← filter p as
    return if keep then a :: rest else rest

end Comp

open Fallible.Comp

@[simp] theorem pure_apply (a : α) (s : σ) : (pure a : Comp σ ε α) s = (.ok a, s) := rfl

@[simp] theorem throw_apply (e : ε) (s : σ) : (throw e : Comp σ ε α) s = (.error e, s) := rfl

@[simp] theorem gets_apply (f : σ → α) (s : σ) : (gets f : Comp σ ε α) s = (.ok (f s), s) := rfl

@[simp] theorem modify_apply (f : σ → σ) (s : σ) : (modify f : Comp σ ε Unit) s = (.ok (), f s) :=
  rfl

theorem bind_apply (x : Comp σ ε α) (k : α → Comp σ ε β) (s : σ) :
    (x >>= k) s =
      match (x s).1 with
      | .ok a => k a (x s).2
      | .error e => (.error e, (x s).2) := by
  simp only [bind]
  rcases x s with ⟨_ | _, _⟩ <;> rfl

theorem bind_of_ok {x : Comp σ ε α} {s : σ} {a : α} (h : (x s).1 = .ok a) (k : α → Comp σ ε β) :
    (x >>= k) s = k a (x s).2 := by
  rw [bind_apply, h]

theorem bind_of_error {x : Comp σ ε α} {s : σ} {e : ε} (h : (x s).1 = .error e)
    (k : α → Comp σ ε β) : (x >>= k) s = (.error e, (x s).2) := by
  rw [bind_apply, h]

/-! ### Reading -/

/-- The computation leaves the view as it is, and its result is determined by the view. -/
structure ReadOnly (view : σ → ν) (x : Comp σ ε α) : Prop where
  keeps : ∀ s, view (x s).2 = view s
  determined : ∀ s t, view s = view t → (x s).1 = (x t).1

variable {view : σ → ν}

def value (x : Comp σ ε α) (s : σ) : Except ε α := (x s).1

theorem readOnly_pure (a : α) : ReadOnly view (pure a : Comp σ ε α) :=
  ⟨fun _ => rfl, fun _ _ _ => rfl⟩

theorem readOnly_throw (e : ε) : ReadOnly view (throw e : Comp σ ε α) :=
  ⟨fun _ => rfl, fun _ _ _ => rfl⟩

theorem readOnly_gets {f : σ → α} (hf : ∀ s t, view s = view t → f s = f t) :
    ReadOnly view (gets f : Comp σ ε α) := ⟨fun _ => rfl, fun s t h => congrArg Except.ok (hf s t h)⟩

theorem ReadOnly.ite {p : Prop} [Decidable p] {x y : Comp σ ε α} (hx : ReadOnly view x)
    (hy : ReadOnly view y) : ReadOnly view (if p then x else y) := by
  split_ifs
  · exact hx
  · exact hy

/-- A computation that reads gives the same at two states with one view. -/
theorem ReadOnly.value_eq {x : Comp σ ε α} (hx : ReadOnly view x) {s t : σ} (h : view s = view t) :
    value x s = value x t := hx.determined s t h

theorem ReadOnly.value_bind {x : Comp σ ε α} (hx : ReadOnly view x) {k : α → Comp σ ε β}
    (hk : ∀ a, ReadOnly view (k a)) (s : σ) :
    value (x >>= k) s = value x s >>= fun a => value (k a) s := by
  unfold value
  cases h : (x s).1 with
  | error e =>
    rw [bind_of_error h]
    rfl
  | ok a =>
    rw [bind_of_ok h]
    exact (hk a).determined _ _ (hx.keeps s)

theorem ReadOnly.bind {x : Comp σ ε α} (hx : ReadOnly view x) {k : α → Comp σ ε β}
    (hk : ∀ a, ReadOnly view (k a)) : ReadOnly view (x >>= k) := by
  constructor
  · intro s
    cases h : (x s).1 with
    | error e =>
      rw [bind_of_error h]
      exact hx.keeps s
    | ok a =>
      rw [bind_of_ok h]
      exact ((hk a).keeps _).trans (hx.keeps s)
  · intro s t hst
    have hs := hx.value_bind hk s
    have ht := hx.value_bind hk t
    unfold value at hs ht
    rw [hs, ht, hx.determined s t hst]
    exact congrArg _ (funext fun a => (hk a).determined s t hst)

theorem ReadOnly.filter {p : α → Comp σ ε Bool} (hp : ∀ a, ReadOnly view (p a)) (as : List α) :
    ReadOnly view (Comp.filter p as) := by
  induction as with
  | nil => exact readOnly_pure _
  | cons a as ih => exact (hp a).bind fun _ => ih.bind fun _ => readOnly_pure _

/-- The condition is found to hold at `s`. -/
def HoldsAt (x : Comp σ ε Bool) (s : σ) : Bool :=
  match value x s with
  | .ok b => b
  | .error _ => false

theorem ReadOnly.value_filter {p : α → Comp σ ε Bool} (hp : ∀ a, ReadOnly view (p a)) {s : σ}
    {as bs : List α} (h : value (Comp.filter p as) s = .ok bs) :
    bs = as.filter fun a => HoldsAt (p a) s := by
  induction as generalizing bs with
  | nil => exact (Except.ok.inj h).symm
  | cons a as ih =>
    have hrest : ∀ keep : Bool, ReadOnly view
        (do let rest ← Comp.filter p as; return if keep then a :: rest else rest) := fun keep =>
      (ReadOnly.filter hp as).bind fun _ => readOnly_pure _
    unfold Comp.filter at h
    rw [(hp a).value_bind hrest] at h
    cases ha : value (p a) s with
    | error e =>
      rw [ha] at h
      cases h
    | ok keep =>
      rw [ha] at h
      change value (Comp.filter p as >>= _) s = _ at h
      rw [(ReadOnly.filter hp as).value_bind fun _ => readOnly_pure _] at h
      cases has : value (Comp.filter p as) s with
      | error e =>
        rw [has] at h
        cases h
      | ok rest =>
        rw [has] at h
        obtain rfl : (if keep then a :: rest else rest) = bs := Except.ok.inj h
        have hkeep : HoldsAt (p a) s = keep := by
          unfold HoldsAt
          rw [ha]
        rw [List.filter_cons, hkeep, ← ih has]

end Fallible
