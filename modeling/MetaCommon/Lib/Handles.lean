import Mathlib.Data.Finset.Option
import Mathlib.Logic.Function.Basic

/-!
# Handles and who holds them

A process opens handles and closes them by their numbers. `Accounted` says that every open handle is
held by one owner, or is lost: nobody holds it, so nobody will ever close it. The rules say what
taking, overwriting and giving back a handle does to the accounts.
-/

namespace Handles

/-- The numbers a system gives to new handles are not in use. -/
structure Source where
  allocate : Finset ℕ → Option ℕ
  fresh : ∀ o, ∀ h ∈ allocate o, h ∉ o

/-- The lowest number that is free, of those below `limit`. -/
def Source.lowest (limit : ℕ) : Source where
  allocate o := (List.range limit).find? fun h => decide (h ∉ o)
  fresh o h hh := by
    have hfree := List.find?_some (Option.mem_def.mp hh)
    exact of_decide_eq_true hfree

/-- A handle is only closed while it is open. -/
def close (opened : Finset ℕ) (h : ℕ) : Option (Finset ℕ) :=
  if h ∈ opened then some (opened.erase h) else none

variable {κ : Type*}

structure Accounted (holds : κ → Option ℕ) (lost opened : Finset ℕ) : Prop where
  mem : ∀ h, h ∈ opened ↔ (∃ k, holds k = some h) ∨ h ∈ lost
  unique : ∀ {k k' h}, holds k = some h → holds k' = some h → k = k'
  apart : ∀ {k h}, holds k = some h → h ∉ lost

variable {holds : κ → Option ℕ} {lost opened : Finset ℕ}

theorem accounted_empty : Accounted (fun _ : κ => none) ∅ ∅ := by
  constructor
  · intro h
    simp
  · intro k k' h hk
    exact nomatch hk
  · intro k h hk
    exact nomatch hk

theorem Accounted.mem_opened (ha : Accounted holds lost opened) {k : κ} {h : ℕ}
    (hk : holds k = some h) : h ∈ opened := (ha.mem h).mpr (.inl ⟨k, hk⟩)

/-- Nothing is lost exactly if every open handle is held. -/
theorem Accounted.lost_eq_empty_iff (ha : Accounted holds lost opened) :
    lost = ∅ ↔ ∀ h ∈ opened, ∃ k, holds k = some h := by
  constructor
  · intro hlost h hh
    rcases (ha.mem h).mp hh with hheld | hin
    · exact hheld
    · rw [hlost] at hin
      exact absurd hin (Finset.notMem_empty h)
  · intro hheld
    apply Finset.eq_empty_of_forall_notMem
    intro h hin
    obtain ⟨k, hk⟩ := hheld h ((ha.mem h).mpr (.inr hin))
    exact ha.apart hk hin

variable [DecidableEq κ]

/-- A new handle, in the place of the one that its owner may have held before. -/
theorem Accounted.take (ha : Accounted holds lost opened) {h : ℕ} (hfresh : h ∉ opened) (k : κ) :
    Accounted (Function.update holds k (some h)) (lost ∪ (holds k).toFinset) (insert h opened) := by
  have hother : ∀ {k' h'}, k' ≠ k → holds k' = some h' → h' ≠ h := by
    intro k' h' _ hk' heq
    exact hfresh (heq ▸ ha.mem_opened hk')
  constructor
  · intro h'
    rw [Finset.mem_insert, ha.mem, Finset.mem_union, Option.mem_toFinset, Option.mem_def]
    constructor
    · rintro (rfl | ⟨k', hk'⟩ | hlost)
      · exact .inl ⟨k, Function.update_self ..⟩
      · by_cases hkk : k' = k
        · subst hkk
          exact .inr (.inr hk')
        · exact .inl ⟨k', by rw [Function.update_of_ne hkk, hk']⟩
      · exact .inr (.inl hlost)
    · rintro (⟨k', hk'⟩ | hlost | hk')
      · by_cases hkk : k' = k
        · subst hkk
          rw [Function.update_self] at hk'
          exact .inl (Option.some.inj hk').symm
        · rw [Function.update_of_ne hkk] at hk'
          exact .inr (.inl ⟨k', hk'⟩)
      · exact .inr (.inr hlost)
      · exact .inr (.inl ⟨k, hk'⟩)
  · intro k₁ k₂ h' h₁ h₂
    by_cases hk₁ : k₁ = k <;> by_cases hk₂ : k₂ = k
    · exact hk₁.trans hk₂.symm
    · subst hk₁
      rw [Function.update_self] at h₁
      rw [Function.update_of_ne hk₂] at h₂
      exact absurd (Option.some.inj h₁).symm (hother hk₂ h₂)
    · subst hk₂
      rw [Function.update_self] at h₂
      rw [Function.update_of_ne hk₁] at h₁
      exact absurd (Option.some.inj h₂).symm (hother hk₁ h₁)
    · rw [Function.update_of_ne hk₁] at h₁
      rw [Function.update_of_ne hk₂] at h₂
      exact ha.unique h₁ h₂
  · intro k' h' hk' hin
    rw [Finset.mem_union, Option.mem_toFinset, Option.mem_def] at hin
    by_cases hkk : k' = k
    · subst hkk
      rw [Function.update_self] at hk'
      obtain rfl := Option.some.inj hk'
      rcases hin with hlost | hheld
      · exact hfresh ((ha.mem _).mpr (.inr hlost))
      · exact hfresh (ha.mem_opened hheld)
    · rw [Function.update_of_ne hkk] at hk'
      rcases hin with hlost | hheld
      · exact ha.apart hk' hlost
      · exact hkk (ha.unique hk' hheld)

theorem Accounted.giveBack (ha : Accounted holds lost opened) {k : κ} {h : ℕ}
    (hk : holds k = some h) :
    close opened h = some (opened.erase h) ∧
      Accounted (Function.update holds k none) lost (opened.erase h) := by
  refine ⟨if_pos (ha.mem_opened hk), ?_, ?_, ?_⟩
  · intro h'
    rw [Finset.mem_erase, ha.mem]
    constructor
    · rintro ⟨hne, ⟨k', hk'⟩ | hlost⟩
      · have hkk : k' ≠ k := by
          rintro rfl
          exact hne (Option.some.inj (hk'.symm.trans hk))
        exact .inl ⟨k', by rw [Function.update_of_ne hkk, hk']⟩
      · exact .inr hlost
    · rintro (⟨k', hk'⟩ | hlost)
      · by_cases hkk : k' = k
        · subst hkk
          rw [Function.update_self] at hk'
          exact nomatch hk'
        · rw [Function.update_of_ne hkk] at hk'
          refine ⟨?_, .inl ⟨k', hk'⟩⟩
          rintro rfl
          exact hkk (ha.unique hk' hk)
      · refine ⟨?_, .inr hlost⟩
        rintro rfl
        exact ha.apart hk hlost
  · intro k₁ k₂ h' h₁ h₂
    by_cases hk₁ : k₁ = k
    · subst hk₁
      rw [Function.update_self] at h₁
      exact nomatch h₁
    · by_cases hk₂ : k₂ = k
      · subst hk₂
        rw [Function.update_self] at h₂
        exact nomatch h₂
      · rw [Function.update_of_ne hk₁] at h₁
        rw [Function.update_of_ne hk₂] at h₂
        exact ha.unique h₁ h₂
  · intro k' h' hk'
    by_cases hkk : k' = k
    · subst hkk
      rw [Function.update_self] at hk'
      exact nomatch hk'
    · rw [Function.update_of_ne hkk] at hk'
      exact ha.apart hk'

end Handles
