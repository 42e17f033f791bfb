import Mathlib.Data.List.DropRight
import Mathlib.Data.List.Infix
import Mathlib.Tactic.Common

/-!
# The last segment of a path

A path is a list with separators. Where names have no separator, a name is the end of a path
exactly if it is the end of its last segment, so a directory that is searched for the first path
with a given end finds every name of it exactly if no name is the end of one before it.
-/

namespace Segments

variable {α : Type*}

/-! ### The first that is related -/

/-- Each element is the first that it is related to, exactly if none is related to one before it. -/
theorem forall_find?_eq_some_iff {r : α → α → Prop} [DecidableRel r] (hrefl : ∀ a, r a a)
    {l : List α} (hnodup : l.Nodup) :
    (∀ a ∈ l, l.find? (fun b => r a b) = some a) ↔ l.Pairwise fun a b => ¬ r b a := by
  induction l with
  | nil => simp
  | cons x l ih =>
    obtain ⟨hx, hl⟩ := List.nodup_cons.mp hnodup
    have hself : (x :: l).find? (fun b => r x b) = some x := by
      simp only [List.find?_cons, decide_eq_true (hrefl x)]
    have htail (a : α) (ha : a ∈ l) :
        (x :: l).find? (fun b => r a b) = some a ↔
          ¬ r a x ∧ l.find? (fun b => r a b) = some a := by
      by_cases hr : r a x
      · simp only [List.find?_cons, decide_eq_true hr, Option.some_inj]
        constructor
        · intro heq
          exact absurd (heq ▸ ha) hx
        · intro h
          exact absurd hr h.1
      · simp only [List.find?_cons, decide_eq_false hr]
        exact (and_iff_right hr).symm
    rw [List.forall_mem_cons, List.pairwise_cons, ← ih hl, and_iff_right hself]
    constructor
    · intro h
      exact ⟨fun a ha => ((htail a ha).mp (h a ha)).1, fun a ha => ((htail a ha).mp (h a ha)).2⟩
    · intro h a ha
      exact (htail a ha).mpr ⟨h.1 a ha, h.2 a ha⟩

/-! ### The last segment -/

variable {sep : α} {name dir last : List α}

theorem suffix_append_cons_iff (h : sep ∉ name) : name <:+ dir ++ sep :: last ↔ name <:+ last := by
  constructor
  · intro hname
    rcases List.suffix_or_suffix_of_suffix hname (List.suffix_append dir (sep :: last)) with hl | hl
    · rcases List.suffix_cons_iff.mp hl with rfl | hl
      · exact absurd List.mem_cons_self h
      · exact hl
    · exact absurd (hl.subset List.mem_cons_self) h
  · intro hname
    exact hname.trans ((List.suffix_cons sep last).trans (List.suffix_append dir _))

theorem rtakeWhile_append_cons [DecidableEq α] (h : sep ∉ last) :
    (dir ++ sep :: last).rtakeWhile (· ≠ sep) = last := by
  induction last using List.reverseRecOn with
  | nil => exact List.rtakeWhile_concat_neg _ _ _ (by simp)
  | append_singleton last x ih =>
    rw [List.mem_append, List.mem_singleton, not_or] at h
    rw [← List.cons_append, ← List.append_assoc,
      List.rtakeWhile_concat_pos _ _ _ (by simpa using Ne.symm h.2), ih h.1]

end Segments
