import Mathlib.Data.List.Basic
import Mathlib.Data.List.Infix

/-!
# Words between separators, and the first occurrence of a pattern

A list is read as words with a separator between them. A pattern without the separator lies inside
one word, so the first place where it occurs is found word by word.
-/

namespace Words

variable {α : Type*}

/-- A list is one word, or a word and a list behind a separator. -/
@[elab_as_elim]
theorem word_induction (sep : α) {P : List α → Prop} (word : ∀ w, sep ∉ w → P w)
    (cons : ∀ w rest, sep ∉ w → P rest → P (w ++ sep :: rest)) (s : List α) : P s := by
  induction hlen : s.length using Nat.strong_induction_on generalizing s with
  | _ n ih =>
    by_cases hmem : sep ∈ s
    · obtain ⟨w, rest, rfl, hw⟩ := List.eq_append_cons_of_mem hmem
      refine cons w rest hw (ih rest.length ?_ rest rfl)
      rw [← hlen, List.length_append, List.length_cons]
      omega
    · exact word s hmem

variable {pat w s t : List α} {sep : α}

/-- What follows a separator is no part of a pattern without it. -/
theorem prefix_of_prefix_append_sep (hsep : sep ∉ pat) (h : pat <+: w ++ sep :: t) : pat <+: w := by
  rcases Nat.lt_or_ge w.length pat.length with hlt | hle
  · have hw : w ++ [sep] <+: pat := by
      refine List.prefix_of_prefix_length_le ⟨t, by simp⟩ h ?_
      rw [List.length_append, List.length_singleton]
      exact hlt
    exact absurd (hw.subset (List.mem_append_right w List.mem_cons_self)) hsep
  · exact List.prefix_of_prefix_length_le h (List.prefix_append w _) hle

variable [DecidableEq α]

/-- Where a pattern occurs first, if it does. -/
def firstAt (pat : List α) : List α → Option ℕ
  | [] => if pat = [] then some 0 else none
  | c :: s => if pat <+: c :: s then some 0 else (firstAt pat s).map (· + 1)

theorem firstAt_start (h : pat <+: s) : firstAt pat s = some 0 := by
  cases s with
  | nil => exact if_pos (List.prefix_nil.mp h)
  | cons c s => exact if_pos h

theorem firstAt_cons_later {c : α} (h : ¬ pat <+: c :: s) :
    firstAt pat (c :: s) = (firstAt pat s).map (· + 1) := if_neg h

theorem firstAt_eq_none_iff : firstAt pat s = none ↔ ¬ pat <:+: s := by
  induction s with
  | nil => simp [firstAt]
  | cons c s ih =>
    rw [List.infix_cons_iff]
    by_cases h : pat <+: c :: s
    · simp [firstAt_start h, h]
    · rw [firstAt_cons_later h, Option.map_eq_none_iff, ih]
      simp [h]

theorem firstAt_eq_zero_iff : firstAt pat s = some 0 ↔ pat <+: s := by
  refine ⟨fun h => ?_, firstAt_start⟩
  by_contra hp
  cases s with
  | nil =>
    unfold firstAt at h
    split_ifs at h with hpat
    exact hp (hpat ▸ List.nil_prefix)
  | cons c s =>
    rw [firstAt_cons_later hp] at h
    obtain ⟨i, -, hi⟩ := Option.map_eq_some_iff.mp h
    exact Nat.succ_ne_zero i hi

theorem firstAt_lt_of_not_nil {i : ℕ} (hpat : pat ≠ []) (h : firstAt pat s = some i) :
    i < s.length := by
  induction s generalizing i with
  | nil => exact absurd h (by simp [firstAt, hpat])
  | cons c s ih =>
    unfold firstAt at h
    split_ifs at h
    · obtain rfl : 0 = i := Option.some.inj h
      exact Nat.succ_pos _
    · obtain ⟨j, hj, rfl⟩ := Option.map_eq_some_iff.mp h
      exact Nat.succ_lt_succ (ih hj)

/-- A pattern in the first word is found there. -/
theorem firstAt_append_inside (hsep : sep ∉ pat) (h : pat <:+: w) :
    firstAt pat (w ++ sep :: t) = firstAt pat w := by
  induction w with
  | nil =>
    obtain rfl := List.infix_nil.mp h
    rw [firstAt_start List.nil_prefix, firstAt_start List.nil_prefix]
  | cons c w ih =>
    by_cases hp : pat <+: c :: w
    · rw [firstAt_start hp, firstAt_start (hp.trans (List.prefix_append _ _))]
    · have hp' : ¬ pat <+: c :: (w ++ sep :: t) := fun h =>
        hp (prefix_of_prefix_append_sep hsep h)
      have hw : pat <:+: w := (List.infix_cons_iff.mp h).resolve_left hp
      rw [List.cons_append, firstAt_cons_later hp', firstAt_cons_later hp, ih hw]

/-- A pattern that is not in the first word is found behind it. -/
theorem firstAt_append_outside (hsep : sep ∉ pat) (h : ¬ pat <:+: w) :
    firstAt pat (w ++ sep :: t) = (firstAt pat t).map (· + (w.length + 1)) := by
  induction w with
  | nil =>
    have hp : ¬ pat <+: sep :: t := fun hp =>
      h (prefix_of_prefix_append_sep (w := []) hsep hp).isInfix
    rw [List.nil_append, firstAt_cons_later hp]
    rfl
  | cons c w ih =>
    rw [List.infix_cons_iff, not_or] at h
    have hp : ¬ pat <+: c :: (w ++ sep :: t) := fun hp =>
      h.1 (prefix_of_prefix_append_sep hsep hp)
    rw [List.cons_append, firstAt_cons_later hp, ih h.2, Option.map_map]
    rfl

/-- No word has the separator in it. -/
theorem sep_notMem_of_mem_splitOn (h : w ∈ s.splitOn sep) : sep ∉ w := by
  induction s using word_induction sep with
  | word v hv =>
    rw [List.splitOn_eq_singleton hv, List.mem_singleton] at h
    exact h ▸ hv
  | cons v rest hv ih =>
    rw [List.splitOn_append_cons_self_of_not_mem hv] at h
    rcases List.mem_cons.mp h with rfl | hrest
    · exact hv
    · exact ih hrest

theorem splitOn_inj (sep : α) : s.splitOn sep = t.splitOn sep ↔ s = t := by
  refine ⟨fun h => ?_, fun h => congrArg (List.splitOn sep) h⟩
  have hs : [sep].intercalate (s.splitOn sep) = s := List.intercalate_splitOn sep
  rw [← hs, h, List.intercalate_splitOn]

end Words
