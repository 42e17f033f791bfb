import Mathlib.Data.List.Perm.Basic
import Mathlib.Tactic.Common

/-!
# Scans that may stop

A scan goes over a list and visits the key of each element, the first time it meets that key. A
visit finds some items and may end the whole scan. The rules say what a scan finds in every order of
the list: an item found by any visit is found in some order, and something is found in every order
only if each visit that can end the scan finds it by itself.
-/

namespace Scan

/-- An element with the property `Q` comes after elements with the property `P` only. -/
def First {α : Type*} (P Q : α → Prop) (l : List α) : Prop :=
  ∃ before x after, l = before ++ x :: after ∧ (∀ y ∈ before, P y) ∧ Q x

section First

variable {α : Type*} {P Q : α → Prop}

@[simp] theorem not_first_nil : ¬ First P Q [] := by
  rintro ⟨before, x, after, h, -⟩
  simp at h

theorem first_cons {x : α} {l : List α} : First P Q (x :: l) ↔ Q x ∨ P x ∧ First P Q l := by
  constructor
  · rintro ⟨before, y, after, h, hbefore, hy⟩
    cases before with
    | nil =>
      cases h
      exact .inl hy
    | cons z before =>
      cases h
      exact .inr ⟨hbefore x List.mem_cons_self, before, y, after, rfl,
        fun w hw => hbefore w (List.mem_cons_of_mem _ hw), hy⟩
  · rintro (hx | ⟨hx, before, y, after, rfl, hbefore, hy⟩)
    · exact ⟨[], x, l, rfl, fun y hy => absurd hy List.not_mem_nil, hx⟩
    · refine ⟨x :: before, y, after, rfl, fun w hw => ?_, hy⟩
      rcases List.mem_cons.mp hw with rfl | hw
      · exact hx
      · exact hbefore w hw

theorem First.exists_mem {l : List α} (h : First P Q l) : ∃ x ∈ l, Q x := by
  obtain ⟨before, x, after, rfl, -, hx⟩ := h
  exact ⟨x, by simp, hx⟩

end First

variable {α κ β : Type*} (key : α → Option κ) (visit : κ → List β × Bool)

/-- Elements without a key are skipped, and so are keys that were seen. -/
def scan [DecidableEq κ] : List κ → List α → List β
  | _, [] => []
  | seen, x :: xs =>
    match key x with
    | none => scan seen xs
    | some k =>
      if k ∈ seen then scan seen xs
      else (visit k).1 ++ if (visit k).2 then [] else scan (k :: seen) xs

/-- An element of the list has the key. -/
def HasKey (l : List α) (k : κ) : Prop := ∃ x ∈ l, key x = some k

variable {key visit} {seen : List κ} {l : List α} {k : κ} {b : β} {x : α}

theorem hasKey_cons : HasKey key (x :: l) k ↔ key x = some k ∨ HasKey key l k := by
  simp [HasKey]

theorem HasKey.perm {l' : List α} (h : l'.Perm l) : HasKey key l' k ↔ HasKey key l k := by
  unfold HasKey
  simp only [h.mem_iff]

variable [DecidableEq κ]

theorem scan_cons_none (h : key x = none) :
    scan key visit seen (x :: l) = scan key visit seen l := by
  rw [scan, h]

theorem scan_cons_seen (h : key x = some k) (hseen : k ∈ seen) :
    scan key visit seen (x :: l) = scan key visit seen l := by
  rw [scan, h]
  exact if_pos hseen

theorem scan_cons_new (h : key x = some k) (hseen : k ∉ seen) :
    scan key visit seen (x :: l) =
      (visit k).1 ++ if (visit k).2 then [] else scan key visit (k :: seen) l := by
  rw [scan, h]
  exact if_neg hseen

/-- What a scan finds, a visit has found. -/
theorem exists_visit_of_mem (h : b ∈ scan key visit seen l) :
    ∃ k, HasKey key l k ∧ b ∈ (visit k).1 := by
  induction l generalizing seen with
  | nil => cases h
  | cons x l ih =>
    have hlater : (∃ seen, b ∈ scan key visit seen l) →
        ∃ k, HasKey key (x :: l) k ∧ b ∈ (visit k).1 := by
      rintro ⟨seen, hb⟩
      obtain ⟨k, hk, hvisit⟩ := ih hb
      exact ⟨k, hasKey_cons.mpr (.inr hk), hvisit⟩
    cases hx : key x with
    | none =>
      rw [scan_cons_none hx] at h
      exact hlater ⟨_, h⟩
    | some k =>
      by_cases hseen : k ∈ seen
      · rw [scan_cons_seen hx hseen] at h
        exact hlater ⟨_, h⟩
      · rw [scan_cons_new hx hseen, List.mem_append] at h
        rcases h with hvisit | hrest
        · exact ⟨k, hasKey_cons.mpr (.inl hx), hvisit⟩
        · split at hrest
          · cases hrest
          · exact hlater ⟨_, hrest⟩

/-- If no visit ends the scan, it finds everything. -/
theorem mem_scan_of_visit (hstop : ∀ k, HasKey key l k → k ∉ seen → (visit k).2 = false)
    (hk : HasKey key l k) (hseen : k ∉ seen) (hb : b ∈ (visit k).1) :
    b ∈ scan key visit seen l := by
  induction l generalizing seen with
  | nil =>
    obtain ⟨x, hx, -⟩ := hk
    cases hx
  | cons x l ih =>
    have hstop' : ∀ seen' : List κ, (∀ k ∈ seen, k ∈ seen') →
        ∀ k, HasKey key l k → k ∉ seen' → (visit k).2 = false :=
      fun seen' hsub k hk hnot =>
        hstop k (hasKey_cons.mpr (.inr hk)) fun hmem => hnot (hsub k hmem)
    cases hx : key x with
    | none =>
      rw [scan_cons_none hx]
      refine ih (hstop' seen fun _ h => h) ?_ hseen
      exact (hasKey_cons.mp hk).resolve_left (by rw [hx]; simp)
    | some k' =>
      by_cases hseen' : k' ∈ seen
      · rw [scan_cons_seen hx hseen']
        refine ih (hstop' seen fun _ h => h) ?_ hseen
        refine (hasKey_cons.mp hk).resolve_left fun heq => hseen ?_
        rw [hx] at heq
        exact Option.some.inj heq ▸ hseen'
      · rw [scan_cons_new hx hseen', hstop k' (hasKey_cons.mpr (.inl hx)) hseen', List.mem_append]
        by_cases hkk : k = k'
        · exact .inl (hkk ▸ hb)
        · refine .inr (ih (hstop' (k' :: seen) fun _ h => List.mem_cons_of_mem _ h) ?_ ?_)
          · refine (hasKey_cons.mp hk).resolve_left fun heq => hkk ?_
            rw [hx] at heq
            exact (Option.some.inj heq).symm
          · simp [hkk, hseen]

/-- If a visit can end the scan, one that does is found whole. -/
theorem exists_stop_subset (hk : HasKey key l k) (hseen : k ∉ seen) (hstop : (visit k).2 = true) :
    ∃ k', HasKey key l k' ∧ (visit k').2 = true ∧ (visit k').1 ⊆ scan key visit seen l := by
  induction l generalizing seen with
  | nil =>
    obtain ⟨x, hx, -⟩ := hk
    cases hx
  | cons x l ih =>
    have hlater : ∀ seen', HasKey key l k → k ∉ seen' →
        scan key visit seen' l ⊆ scan key visit seen (x :: l) →
        ∃ k', HasKey key (x :: l) k' ∧ (visit k').2 = true ∧
          (visit k').1 ⊆ scan key visit seen (x :: l) := by
      intro seen' hk' hseen' hsub
      obtain ⟨k', hk', hstop', hsub'⟩ := ih hk' hseen'
      exact ⟨k', hasKey_cons.mpr (.inr hk'), hstop', List.Subset.trans hsub' hsub⟩
    cases hx : key x with
    | none =>
      have hkl := (hasKey_cons.mp hk).resolve_left (by rw [hx]; simp)
      exact hlater seen hkl hseen (by rw [scan_cons_none hx]; exact List.Subset.refl _)
    | some k' =>
      by_cases hseen' : k' ∈ seen
      · have hkl := (hasKey_cons.mp hk).resolve_left fun heq => hseen (by
          rw [hx] at heq
          exact Option.some.inj heq ▸ hseen')
        exact hlater seen hkl hseen (by rw [scan_cons_seen hx hseen']; exact List.Subset.refl _)
      · by_cases hstop' : (visit k').2 = true
        · refine ⟨k', hasKey_cons.mpr (.inl hx), hstop', ?_⟩
          rw [scan_cons_new hx hseen']
          exact List.subset_append_left _ _
        · have hkk : k ≠ k' := fun heq => hstop' (heq ▸ hstop)
          have hkl := (hasKey_cons.mp hk).resolve_left fun heq => hkk (by
            rw [hx] at heq
            exact (Option.some.inj heq).symm)
          refine hlater (k' :: seen) hkl (by simp [hkk, hseen]) ?_
          rw [scan_cons_new hx hseen', if_neg hstop']
          exact List.subset_append_right _ _

variable (visit) in
/-- A key is visited first in some order. -/
theorem exists_perm_first (hk : HasKey key l k) :
    ∃ l', l'.Perm l ∧ ∃ rest, scan key visit [] l' =
      (visit k).1 ++ if (visit k).2 then [] else rest := by
  obtain ⟨x, hx, hkey⟩ := hk
  obtain ⟨before, after, rfl⟩ := List.append_of_mem hx
  refine ⟨x :: (before ++ after), List.perm_middle.symm, scan key visit [k] (before ++ after), ?_⟩
  exact scan_cons_new hkey (by simp)

/-- What is found in any order has a property exactly if every visit finds only such. -/
theorem forall_perm_forall_iff {P : β → Prop} :
    (∀ l', l'.Perm l → ∀ b ∈ scan key visit [] l', P b) ↔
      ∀ k, HasKey key l k → ∀ b ∈ (visit k).1, P b := by
  constructor
  · intro h k hk b hb
    obtain ⟨l', hperm, rest, hscan⟩ := exists_perm_first visit hk
    exact h l' hperm b (hscan ▸ List.mem_append_left _ hb)
  · intro h l' hperm b hb
    obtain ⟨k, hk, hvisit⟩ := exists_visit_of_mem hb
    exact h k ((HasKey.perm hperm).mp hk) b hvisit

/-- Something with a property is found in every order exactly if some visit finds it, and so does
each that can end the scan. -/
theorem forall_perm_exists_iff {P : β → Prop} :
    (∀ l', l'.Perm l → ∃ b ∈ scan key visit [] l', P b) ↔
      (∃ k, HasKey key l k ∧ ∃ b ∈ (visit k).1, P b) ∧
        ∀ k, HasKey key l k → (visit k).2 = true → ∃ b ∈ (visit k).1, P b := by
  constructor
  · intro h
    constructor
    · obtain ⟨b, hb, hP⟩ := h l (List.Perm.refl l)
      obtain ⟨k, hk, hvisit⟩ := exists_visit_of_mem hb
      exact ⟨k, hk, b, hvisit, hP⟩
    · intro k hk hstop
      obtain ⟨l', hperm, rest, hscan⟩ := exists_perm_first visit hk
      obtain ⟨b, hb, hP⟩ := h l' hperm
      rw [hscan, if_pos hstop, List.append_nil] at hb
      exact ⟨b, hb, hP⟩
  · rintro ⟨⟨k, hk, b, hb, hP⟩, hstops⟩ l' hperm
    by_cases hstop : ∃ k', HasKey key l k' ∧ (visit k').2 = true
    · obtain ⟨k', hk', hstop'⟩ := hstop
      obtain ⟨k', hk', hstop', hsub⟩ :=
        exists_stop_subset ((HasKey.perm hperm).mpr hk') (List.not_mem_nil (a := k')) hstop'
      obtain ⟨b, hb, hP⟩ := hstops k' ((HasKey.perm hperm).mp hk') hstop'
      exact ⟨b, hsub hb, hP⟩
    · refine ⟨b, mem_scan_of_visit (fun k' hk' _ => ?_) ((HasKey.perm hperm).mpr hk)
        (List.not_mem_nil (a := k)) hb, hP⟩
      by_contra hnot
      exact hstop ⟨k', (HasKey.perm hperm).mp hk', by simpa using hnot⟩

end Scan
