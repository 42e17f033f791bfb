import Mathlib.Data.List.Basic
import Mathlib.Data.List.Forall2

/-!
# Loops that return early, loops that overwrite, and switches

A loop whose body may return is `mapM` over `Option`. In a loop that overwrites a part of the state
the last element that does so decides. A switch jumps to the first case with the
label and runs on from there until a case breaks, into the cases of other labels if none does.
-/

namespace Control

section EarlyReturn

variable {α β : Type*} {f : α → Option β} {as : List α} {bs : List β}

theorem mapM_eq_some_iff :
    as.mapM f = some bs ↔ List.Forall₂ (fun a b => f a = some b) as bs := by
  induction as generalizing bs with
  | nil => simp [eq_comm]
  | cons a as ih =>
    rw [List.mapM_cons, List.forall₂_cons_left_iff]
    cases ha : f a with
    | none => simp
    | some b =>
      cases has : as.mapM f with
      | none => simp [← ih, has]
      | some bs' => simp [← ih, has, eq_comm]

theorem mapM_eq_none_iff : as.mapM f = none ↔ ∃ a ∈ as, f a = none := by
  induction as with
  | nil => simp
  | cons a as ih =>
    rw [List.mapM_cons, List.exists_mem_cons_iff, ← ih]
    cases ha : f a with
    | none => simp
    | some b =>
      cases has : as.mapM f with
      | none => simp
      | some bs => simp

theorem exists_mapM_eq_some (h : ∀ a ∈ as, ∃ b, f a = some b) : ∃ bs, as.mapM f = some bs := by
  refine Option.ne_none_iff_exists'.mp fun hnone => ?_
  obtain ⟨a, ha, hfa⟩ := mapM_eq_none_iff.mp hnone
  obtain ⟨b, hb⟩ := h a ha
  exact Option.some_ne_none b (hb.symm.trans hfa)

theorem mem_of_mapM_eq_some (h : as.mapM f = some bs) (b : β) :
    b ∈ bs ↔ ∃ a ∈ as, f a = some b := by
  rw [mapM_eq_some_iff] at h
  induction h with
  | nil => simp
  | cons hab _ ih =>
    rw [List.mem_cons, List.exists_mem_cons_iff, hab, Option.some_inj]
    exact or_congr eq_comm ih

/-- Two relations to the same list, at one of its elements. -/
theorem exists_of_forall₂ {R S : α → β → Prop} (hR : List.Forall₂ R as bs)
    (hS : List.Forall₂ S as bs) : ∀ a ∈ as, ∃ b, R a b ∧ S a b := by
  induction hR with
  | nil => simp
  | @cons a b as bs hab _ ih =>
    obtain ⟨hS, hSs⟩ := List.forall₂_cons.mp hS
    exact List.forall_mem_cons.mpr ⟨⟨b, hab, hS⟩, ih hSs⟩

end EarlyReturn

section Overwriting

variable {σ ρ α : Type*} {step : σ → ρ → σ} {g : σ → α} {p : ρ → Prop} [DecidablePred p] {w : ρ → α}

/-- If all elements that overwrite the part agree, it has their value, or its own if there are
none. -/
theorem foldl_overwrite (hstep : ∀ s r, g (step s r) = if p r then w r else g s) {l : List ρ}
    {v : α} (hv : ∀ r ∈ l, p r → w r = v) (s : σ) :
    g (l.foldl step s) = if ∃ r ∈ l, p r then v else g s := by
  induction l generalizing s with
  | nil => simp
  | cons r l ih =>
    obtain ⟨hr, hl⟩ := List.forall_mem_cons.mp hv
    rw [List.foldl_cons, ih hl, hstep]
    by_cases hpr : p r
    · simp [hpr, hr hpr]
    · simp [hpr]

theorem foldl_overwrite_last (hstep : ∀ s r, g (step s r) = if p r then w r else g s) {l : List ρ}
    {r : ρ} (hr : p r) {rest : List ρ} (hrest : ∀ r ∈ rest, ¬ p r) (s : σ) :
    g ((l ++ r :: rest).foldl step s) = w r := by
  rw [List.foldl_append, List.foldl_cons,
    foldl_overwrite (v := w r) hstep (fun r' hr' hp => absurd hp (hrest r' hr')), if_neg, hstep,
    if_pos hr]
  rintro ⟨r', hr', hp⟩
  exact hrest r' hr' hp

end Overwriting

/-- The labels, the body, and whether a `break` ends it. -/
structure Case (μ β : Type*) where
  labels : μ → Bool
  body : β
  breaks : Bool

variable {μ β : Type*}

/-- The bodies that are run from the first case on. -/
def untilBreak : List (Case μ β) → List β
  | [] => []
  | c :: cs => c.body :: if c.breaks then [] else untilBreak cs

/-- The bodies that a switch runs. -/
def ran (cases : List (Case μ β)) (m : μ) : List β :=
  untilBreak (cases.dropWhile fun c => !c.labels m)

/-- The cases before the one of the label are passed over. -/
theorem ran_append {before : List (Case μ β)} {m : μ} (h : ∀ c ∈ before, c.labels m = false)
    (c : Case μ β) (after : List (Case μ β)) (hc : c.labels m = true) :
    ran (before ++ c :: after) m = c.body :: if c.breaks then [] else untilBreak after := by
  have hdrop : (before ++ c :: after).dropWhile (fun c => !c.labels m) = c :: after := by
    rw [List.dropWhile_append_of_pos fun c hc => by simp [h c hc],
      List.dropWhile_cons_of_neg (by simp [hc])]
  rw [ran, hdrop, untilBreak]

end Control
