import Mathlib.Data.List.Basic
import Mathlib.Tactic.Common

/-!
# Objects that are shared by their holders

An object lives as long as somebody holds it, and is finalized with the value it then has when its
last holder lets it go. `Sound` is what the holders keep as long as they only use what they hold: the
object is finalized once, with its last value, exactly when nobody holds it any more.
-/

structure Shared (α : Type*) where
  holders : ℕ
  value : α
  finalized : List α

namespace Shared

variable {α : Type*}

/-- A new object. -/
def make (holders : ℕ) (value : α) : Shared α := ⟨holders, value, []⟩

def acquire (s : Shared α) : Shared α := { s with holders := s.holders + 1 }

def release (s : Shared α) : Shared α where
  holders := s.holders - 1
  value := s.value
  finalized := if s.holders = 1 then s.finalized ++ [s.value] else s.finalized

def modify (s : Shared α) (f : α → α) : Shared α := { s with value := f s.value }

@[simp] theorem holders_make (n : ℕ) (a : α) : (make n a).holders = n := rfl

@[simp] theorem holders_acquire (s : Shared α) : s.acquire.holders = s.holders + 1 := rfl

@[simp] theorem holders_release (s : Shared α) : s.release.holders = s.holders - 1 := rfl

@[simp] theorem holders_modify (s : Shared α) (f : α → α) :
    (s.modify f).holders = s.holders := rfl

@[simp] theorem value_acquire (s : Shared α) : s.acquire.value = s.value := rfl

@[simp] theorem value_release (s : Shared α) : s.release.value = s.value := rfl

@[simp] theorem value_modify (s : Shared α) (f : α → α) : (s.modify f).value = f s.value := rfl

def Sound (s : Shared α) : Prop := s.finalized = if s.holders = 0 then [s.value] else []

theorem sound_make {n : ℕ} (hn : 0 < n) (a : α) : (make n a).Sound := by
  have hne : n ≠ 0 := by omega
  exact (if_neg hne).symm

theorem Sound.acquire {s : Shared α} (h : s.Sound) (hheld : 0 < s.holders) : s.acquire.Sound := by
  have hne : s.holders ≠ 0 := by omega
  have hne' : s.holders + 1 ≠ 0 := by omega
  rw [Sound, if_neg hne] at h
  rw [Sound, holders_acquire, if_neg hne']
  exact h

theorem Sound.modify {s : Shared α} (h : s.Sound) (hheld : 0 < s.holders) (f : α → α) :
    (s.modify f).Sound := by
  have hne : s.holders ≠ 0 := by omega
  rw [Sound, if_neg hne] at h
  rw [Sound, holders_modify, if_neg hne]
  exact h

theorem Sound.release {s : Shared α} (h : s.Sound) (hheld : 0 < s.holders) : s.release.Sound := by
  have hne : s.holders ≠ 0 := by omega
  rw [Sound, if_neg hne] at h
  rw [Sound, holders_release, value_release]
  by_cases hlast : s.holders = 1
  · rw [hlast, if_pos rfl]
    simp only [Shared.release, if_pos hlast, h, List.nil_append]
  · have hmore : s.holders - 1 ≠ 0 := by omega
    rw [if_neg hmore]
    simp only [Shared.release, if_neg hlast, h]

theorem Sound.finalized_of_free {s : Shared α} (h : s.Sound) (hfree : s.holders = 0) :
    s.finalized = [s.value] := by
  rw [h, if_pos hfree]

theorem Sound.finalized_of_held {s : Shared α} (h : s.Sound) (hheld : 0 < s.holders) :
    s.finalized = [] := by
  have hne : s.holders ≠ 0 := by omega
  rw [h, if_neg hne]

end Shared
