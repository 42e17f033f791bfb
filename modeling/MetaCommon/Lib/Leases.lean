import Mathlib.Data.List.Induction
import Mathlib.Logic.Function.Basic
import Mathlib.Tactic.Common

/-!
# Leases with one timer

Keys are leased to sessions. The record of what happened is a list of events, and `table` says who
holds what after it: a grant gives the key to its session, a release takes it back, and an expiry
takes back the key whose grant started the timer, which is the one granted last. A grant is handed
out when the session has learned of it.
-/

namespace Leases

variable {κ σ : Type*}

inductive Event (κ σ : Type*)
  | granted (k : κ) (x : σ)
  | answered (k : κ)
  | released (k : κ)
  | expired
  deriving DecidableEq, Repr

structure Table (κ σ : Type*) where
  holder : κ → Option σ
  answered : κ → Bool
  owner : Option κ

namespace Table

def empty : Table κ σ := ⟨fun _ => none, fun _ => false, none⟩

variable [DecidableEq κ]

def record (t : Table κ σ) : Event κ σ → Table κ σ
  | .granted k x => ⟨Function.update t.holder k (some x), Function.update t.answered k false, some k⟩
  | .answered k => { t with answered := Function.update t.answered k true }
  | .released k => { t with holder := Function.update t.holder k none }
  | .expired =>
    match t.owner with
    | some k => { t with holder := Function.update t.holder k none }
    | none => t

variable (t : Table κ σ)

@[simp] theorem record_granted_holder (k : κ) (x : σ) :
    (t.record (.granted k x)).holder = Function.update t.holder k (some x) := rfl

@[simp] theorem record_answered_holder (k : κ) :
    (t.record (.answered k)).holder = t.holder := rfl

@[simp] theorem record_released_holder (k : κ) :
    (t.record (.released k)).holder = Function.update t.holder k none := rfl

@[simp] theorem record_granted_owner (k : κ) (x : σ) :
    (t.record (.granted k x)).owner = some k := rfl

@[simp] theorem record_answered_owner (k : κ) : (t.record (.answered k)).owner = t.owner := rfl

@[simp] theorem record_released_owner (k : κ) : (t.record (.released k)).owner = t.owner := rfl

@[simp] theorem record_expired_owner : (t.record .expired).owner = t.owner := by
  simp only [record]
  split <;> rfl

theorem record_expired_holder {k : κ} {x : σ} (ho : t.owner ≠ some k) (h : t.holder k = some x) :
    (t.record .expired).holder k = some x := by
  simp only [record]
  split
  · next k' hk' =>
    have he : k ≠ k' := by
      rintro rfl
      exact ho hk'
    simp only [Function.update_of_ne he, h]
  · exact h

/-- Who still holds a key after an expiry has held it before, and does not own the timer. -/
theorem holder_of_record_expired {k : κ} {x : σ} (h : (t.record .expired).holder k = some x) :
    t.owner ≠ some k ∧ t.holder k = some x := by
  simp only [record] at h
  split at h
  · next k' hk' =>
    by_cases he : k = k'
    · subst he
      simp only [Function.update_self] at h
      cases h
    · simp only [Function.update_of_ne he] at h
      refine ⟨fun hk => he ?_, h⟩
      exact Option.some.inj (hk.symm.trans hk')
  · next hnone =>
    refine ⟨?_, h⟩
    rw [hnone]
    exact nofun

end Table

variable [DecidableEq κ]

def table (es : List (Event κ σ)) : Table κ σ := es.foldl Table.record .empty

@[simp] theorem table_concat (es : List (Event κ σ)) (e : Event κ σ) :
    table (es ++ [e]) = (table es).record e := by
  simp [table]

/-- Every grant finds its key free. -/
def Exclusive (es : List (Event κ σ)) : Prop :=
  ∀ pre k x post, es = pre ++ .granted k x :: post → (table pre).holder k = none

theorem exclusive_nil : Exclusive ([] : List (Event κ σ)) := by
  intro pre k x post h
  simp at h

theorem Exclusive.concat {es : List (Event κ σ)} {e : Event κ σ} (h : Exclusive es)
    (he : ∀ k x, e = .granted k x → (table es).holder k = none) : Exclusive (es ++ [e]) := by
  intro pre k x post hes
  induction post using List.reverseRecOn with
  | nil =>
    obtain ⟨rfl, heq⟩ := List.append_inj' hes rfl
    exact he k x (List.cons.inj heq).1
  | append_singleton post f _ =>
    have hes' : es ++ [e] = (pre ++ .granted k x :: post) ++ [f] := by simpa using hes
    exact h pre k x post (List.append_inj' hes' rfl).1

/-- The session holds the key, and has learned of it. -/
def Valid (es : List (Event κ σ)) (k : κ) (x : σ) : Prop :=
  (table es).holder k = some x ∧ (table es).answered k = true

end Leases
