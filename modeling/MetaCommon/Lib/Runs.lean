import Mathlib.Data.List.Basic
import Mathlib.Tactic.Common

/-!
# Runs of a machine driven by inputs

A machine is a step function from a state and an input to the next state. `run` feeds it a list
of inputs. `Guarded` says that every step of a run meets a side condition on the state it finds
and the input it takes. The rules below carry an invariant, or a relation between the inputs seen
so far and the state, along a guarded run. The second half is the same for a machine whose steps
may be undefined.
-/

namespace Runs

variable {σ ε : Type*} (step : σ → ε → σ)

def run (s : σ) (es : List ε) : σ := es.foldl step s

@[simp] theorem run_nil (s : σ) : run step s [] = s := rfl

@[simp] theorem run_cons (s : σ) (e : ε) (es : List ε) :
    run step s (e :: es) = run step (step s e) es := rfl

@[simp] theorem run_append (s : σ) (es fs : List ε) :
    run step s (es ++ fs) = run step (run step s es) fs := List.foldl_append

theorem run_concat (s : σ) (es : List ε) (e : ε) :
    run step s (es ++ [e]) = step (run step s es) e := by simp

variable {step} in
/-- What holds at the start and is kept by every step holds after a run. -/
theorem run_invariant {I : σ → Prop} (hI : ∀ s e, I s → I (step s e)) {s : σ} (hs : I s)
    (es : List ε) : I (run step s es) := by
  induction es generalizing s with
  | nil => exact hs
  | cons e es ih => exact ih (hI s e hs)

/-- Every step of the run from `s` meets `C` at the state in which it is taken. -/
def Guarded (C : σ → ε → Prop) : σ → List ε → Prop
  | _, [] => True
  | s, e :: es => C s e ∧ Guarded C (step s e) es

variable {step} {C : σ → ε → Prop}

instance [DecidableRel C] : ∀ (s : σ) (es : List ε), Decidable (Guarded step C s es)
  | _, [] => inferInstanceAs (Decidable True)
  | s, e :: es =>
    have : Decidable (Guarded step C (step s e) es) := instDecidableGuardedOfDecidableRel _ es
    inferInstanceAs (Decidable (C s e ∧ Guarded step C (step s e) es))

@[simp] theorem guarded_nil (s : σ) : Guarded step C s [] := trivial

@[simp] theorem guarded_cons (s : σ) (e : ε) (es : List ε) :
    Guarded step C s (e :: es) ↔ C s e ∧ Guarded step C (step s e) es := Iff.rfl

theorem guarded_append (s : σ) (es fs : List ε) :
    Guarded step C s (es ++ fs) ↔ Guarded step C s es ∧ Guarded step C (run step s es) fs := by
  induction es generalizing s with
  | nil => simp
  | cons e es ih => simp only [List.cons_append, guarded_cons, run_cons, ih, and_assoc]

/-- What holds at the start and is kept by every step that meets `C` holds after a guarded run. -/
theorem Guarded.invariant {I : σ → Prop} (hI : ∀ s e, I s → C s e → I (step s e))
    {s : σ} {es : List ε} (hs : I s) (hg : Guarded step C s es) : I (run step s es) := by
  induction es generalizing s with
  | nil => exact hs
  | cons e es ih => exact ih (hI s e hs hg.1) hg.2

/-- The rule for a relation between the inputs seen so far and the state. -/
theorem Guarded.history_invariant {R : List ε → σ → Prop}
    (hR : ∀ h s e, R h s → C s e → R (h ++ [e]) (step s e)) {s : σ} {es : List ε}
    (hs : R [] s) (hg : Guarded step C s es) : R es (run step s es) := by
  suffices H : ∀ (fs h : List ε) (s : σ), R h s → Guarded step C s fs →
      R (h ++ fs) (run step s fs) from H es [] s hs hg
  intro fs
  induction fs with
  | nil => intro h s hh _; simpa using hh
  | cons f fs ih =>
    intro h s hh hg
    have := ih (h ++ [f]) (step s f) (hR h s f hh hg.1) hg.2
    simpa using this

/-- A side condition may be replaced by another one if an invariant of the runs that meet it makes
them equivalent. -/
theorem guarded_congr {D : σ → ε → Prop} {I : σ → Prop} (hI : ∀ s e, I s → D s e → I (step s e))
    (hCD : ∀ s e, I s → (C s e ↔ D s e)) {s : σ} {es : List ε} (hs : I s) :
    Guarded step C s es ↔ Guarded step D s es := by
  induction es generalizing s with
  | nil => exact Iff.rfl
  | cons e es ih =>
    rw [guarded_cons, guarded_cons, hCD s e hs]
    exact and_congr_right fun hD => ih (hI s e hs hD)

/-- A side condition that keeps an invariant brings with it every other one that follows from the
two. -/
theorem Guarded.mono {D : σ → ε → Prop} {I : σ → Prop} (hI : ∀ s e, I s → D s e → I (step s e))
    (hDC : ∀ s e, I s → D s e → C s e) {s : σ} {es : List ε} (hs : I s)
    (hg : Guarded step D s es) : Guarded step C s es := by
  induction es generalizing s with
  | nil => trivial
  | cons e es ih => exact ⟨hDC s e hs hg.1, ih (hI s e hs hg.1) hg.2⟩

section Exec

variable (step : σ → ε → Option σ)

/-- The run of a machine whose step may be undefined. -/
def exec : σ → List ε → Option σ
  | s, [] => some s
  | s, e :: es => (step s e).bind fun s' => exec s' es

@[simp] theorem exec_nil (s : σ) : exec step s [] = some s := rfl

@[simp] theorem exec_cons (s : σ) (e : ε) (es : List ε) :
    exec step s (e :: es) = (step s e).bind fun s' => exec step s' es := rfl

theorem exec_append (s : σ) (es fs : List ε) :
    exec step s (es ++ fs) = (exec step s es).bind fun s' => exec step s' fs := by
  induction es generalizing s with
  | nil => rfl
  | cons e es ih =>
    simp only [List.cons_append, exec_cons, ih, Option.bind_assoc]

/-- The image of a run is a run, if that of a step is a step. -/
theorem exec_map {τ : Type*} {f : σ → τ} {step' : τ → ε → Option τ}
    (h : ∀ s e, (step s e).map f = step' (f s) e) (s : σ) (es : List ε) :
    (exec step s es).map f = exec step' (f s) es := by
  induction es generalizing s with
  | nil => rfl
  | cons e es ih =>
    rw [exec_cons, exec_cons, ← h s e]
    cases step s e with
    | none => rfl
    | some s' => exact ih s'

/-- Every step of the run from `s` meets `C`, as far as the run is defined. -/
def ExecGuarded (C : σ → ε → Prop) : σ → List ε → Prop
  | _, [] => True
  | s, e :: es => C s e ∧ match step s e with
    | some s' => ExecGuarded C s' es
    | none => True

variable {step} {C : σ → ε → Prop}

instance [DecidableRel C] : ∀ (s : σ) (es : List ε), Decidable (ExecGuarded step C s es)
  | _, [] => inferInstanceAs (Decidable True)
  | s, e :: es =>
    have : Decidable (match step s e with
        | some s' => ExecGuarded step C s' es
        | none => True) :=
      match step s e with
      | some s' => instDecidableExecGuardedOfDecidableRel s' es
      | none => inferInstanceAs (Decidable True)
    inferInstanceAs (Decidable (C s e ∧ _))

theorem ExecGuarded.tail {s s' : σ} {e : ε} {es : List ε}
    (hg : ExecGuarded step C s (e :: es)) (he : step s e = some s') :
    ExecGuarded step C s' es := by
  have h := hg.2
  rwa [he] at h

/-- What holds at the start and is kept by every step that meets `C` holds after a guarded run. -/
theorem ExecGuarded.invariant {I : σ → Prop}
    (hI : ∀ s e s', I s → C s e → step s e = some s' → I s') {s s' : σ} {es : List ε}
    (hs : I s) (hg : ExecGuarded step C s es) (he : exec step s es = some s') : I s' := by
  induction es generalizing s with
  | nil =>
    obtain rfl : s = s' := Option.some.inj he
    exact hs
  | cons e es ih =>
    obtain ⟨t, ht, he⟩ := Option.bind_eq_some_iff.mp he
    exact ih (hI s e t hs hg.1 ht) (hg.tail ht) he

/-- The rule for a relation between the inputs seen so far and the state. -/
theorem exec_history_invariant {R : List ε → σ → Prop}
    (hR : ∀ h s e s', R h s → step s e = some s' → R (h ++ [e]) s') {s s' : σ} {es : List ε}
    (hs : R [] s) (he : exec step s es = some s') : R es s' := by
  suffices H : ∀ (fs h : List ε) (s : σ), R h s → exec step s fs = some s' → R (h ++ fs) s' from
    H es [] s hs he
  intro fs
  induction fs with
  | nil =>
    intro h s hh he
    obtain rfl : s = s' := Option.some.inj he
    simpa using hh
  | cons f fs ih =>
    intro h s hh he
    obtain ⟨t, ht, he⟩ := Option.bind_eq_some_iff.mp he
    have := ih (h ++ [f]) t (hR h s f t hh ht) he
    simpa using this

/-- A side condition that follows from an invariant of the steps is met in every run. -/
theorem execGuarded_of_invariant {I : σ → Prop} (hI : ∀ s e s', I s → step s e = some s' → I s')
    (hC : ∀ s e, I s → C s e) {s : σ} (hs : I s) (es : List ε) : ExecGuarded step C s es := by
  induction es generalizing s with
  | nil => trivial
  | cons e es ih =>
    unfold ExecGuarded
    refine ⟨hC s e hs, ?_⟩
    split
    · next s' he => exact ih (hI s e s' hs he)
    · trivial

theorem exec_invariant {I : σ → Prop} (hI : ∀ s e s', I s → step s e = some s' → I s') {s s' : σ}
    {es : List ε} (hs : I s) (he : exec step s es = some s') : I s' :=
  (execGuarded_of_invariant (C := fun _ _ => True) hI (fun _ _ _ => trivial) hs es).invariant
    (fun s e s' h _ => hI s e s' h) hs he

theorem ExecGuarded.split {s s' : σ} {es fs : List ε}
    (hg : ExecGuarded step C s (es ++ fs)) (he : exec step s es = some s') :
    ExecGuarded step C s es ∧ ExecGuarded step C s' fs := by
  induction es generalizing s with
  | nil =>
    obtain rfl : s = s' := Option.some.inj he
    exact ⟨trivial, hg⟩
  | cons e es ih =>
    obtain ⟨t, ht, he⟩ := Option.bind_eq_some_iff.mp he
    obtain ⟨h₁, h₂⟩ := ih (hg.tail ht) he
    refine ⟨⟨hg.1, ?_⟩, h₂⟩
    rwa [ht]

/-- A guarded run is one whose every step, after whatever part of the run, meets the condition. -/
theorem execGuarded_iff {s : σ} {es : List ε} : ExecGuarded step C s es ↔
    ∀ es₁ e es₂ s₁, es = es₁ ++ e :: es₂ → exec step s es₁ = some s₁ → C s₁ e := by
  induction es generalizing s with
  | nil => simp [ExecGuarded]
  | cons e es ih =>
    unfold ExecGuarded
    constructor
    · rintro ⟨he, hrest⟩ es₁ e' es₂ s₁ heq hs₁
      cases es₁ with
      | nil =>
        obtain ⟨rfl, -⟩ := List.cons.inj heq
        obtain rfl := Option.some.inj hs₁
        exact he
      | cons _ es₁ =>
        obtain ⟨rfl, htail⟩ := List.cons.inj heq
        obtain ⟨t, ht, hs₁⟩ := Option.bind_eq_some_iff.mp hs₁
        rw [ht] at hrest
        exact ih.mp hrest es₁ e' es₂ s₁ htail hs₁
    · intro h
      refine ⟨h [] e es s rfl rfl, ?_⟩
      split
      · next t ht =>
        apply ih.mpr
        intro es₁ e' es₂ s₁ heq hs₁
        apply h (e :: es₁) e' es₂ s₁ (congrArg (List.cons e) heq)
        rw [exec_cons, ht]
        exact hs₁
      · trivial

/-- A side condition may be replaced by another one if an invariant of the runs that meet it makes
them equivalent. -/
theorem execGuarded_congr {D : σ → ε → Prop} {I : σ → Prop} {s : σ} {es : List ε}
    (hI : ∀ s, ∀ e ∈ es, ∀ s', I s → D s e → step s e = some s' → I s')
    (hCD : ∀ s, ∀ e ∈ es, I s → (C s e ↔ D s e)) (hs : I s) :
    ExecGuarded step C s es ↔ ExecGuarded step D s es := by
  induction es generalizing s with
  | nil => exact Iff.rfl
  | cons e es ih =>
    unfold ExecGuarded
    rw [hCD s e List.mem_cons_self hs]
    refine and_congr_right fun hD => ?_
    split
    · next s' he =>
      exact ih (fun s e hmem => hI s e (List.mem_cons_of_mem _ hmem))
        (fun s e hmem => hCD s e (List.mem_cons_of_mem _ hmem))
        (hI s e List.mem_cons_self s' hs hD he)
    · exact Iff.rfl

/-- A run is defined to its end if its side condition has every step defined. -/
theorem ExecGuarded.exec_some {I : σ → Prop}
    (hI : ∀ s e, I s → C s e → ∃ s', step s e = some s' ∧ I s') {s : σ} {es : List ε}
    (hs : I s) (hg : ExecGuarded step C s es) : ∃ s', exec step s es = some s' ∧ I s' := by
  induction es generalizing s with
  | nil => exact ⟨s, rfl, hs⟩
  | cons e es ih =>
    obtain ⟨t, ht, hIt⟩ := hI s e hs hg.1
    obtain ⟨s', he, hIs'⟩ := ih hIt (hg.tail ht)
    exact ⟨s', by rw [exec_cons, ht, Option.bind_some, he], hIs'⟩

/-- A side condition that keeps an invariant brings with it every other one that follows from the
two. -/
theorem ExecGuarded.mono {D : σ → ε → Prop} {I : σ → Prop}
    (hI : ∀ s e s', I s → D s e → step s e = some s' → I s')
    (hDC : ∀ s e, I s → D s e → C s e) {s : σ} {es : List ε} (hs : I s)
    (hg : ExecGuarded step D s es) : ExecGuarded step C s es := by
  induction es generalizing s with
  | nil => trivial
  | cons e es ih =>
    unfold ExecGuarded at hg ⊢
    refine ⟨hDC s e hs hg.1, ?_⟩
    split
    · next s' he =>
      have htail := hg.2
      rw [he] at htail
      exact ih (hI s e s' hs hg.1 he) htail
    · trivial

/-- The run from `s` is defined to its end, and all its states meet `P`. -/
def Everywhere (step : σ → ε → Option σ) (P : σ → Prop) : σ → List ε → Prop
  | s, [] => P s
  | s, e :: es => P s ∧ ∃ s', step s e = some s' ∧ Everywhere step P s' es

/-- If a step keeps `P` exactly where its input meets `C`, a run keeps `P` everywhere exactly where
all its inputs meet `C`. -/
theorem everywhere_iff {I P : σ → Prop} {C : ε → Prop}
    (hI : ∀ s e s', I s → step s e = some s' → I s')
    (hP : ∀ s e, I s → P s → ((∃ s', step s e = some s' ∧ P s') ↔ C e)) {s : σ} {es : List ε}
    (hs : I s) (hPs : P s) : Everywhere step P s es ↔ ∀ e ∈ es, C e := by
  induction es generalizing s with
  | nil => simp [Everywhere, hPs]
  | cons e es ih =>
    rw [List.forall_mem_cons, ← hP s e hs hPs]
    constructor
    · rintro ⟨-, s', he, h⟩
      have hPs' : P s' := by
        cases es with
        | nil => exact h
        | cons _ _ => exact h.1
      exact ⟨⟨s', he, hPs'⟩, (ih (hI s e s' hs he) hPs').mp h⟩
    · rintro ⟨⟨s', he, hPs'⟩, h⟩
      exact ⟨hPs, s', he, (ih (hI s e s' hs he) hPs').mpr h⟩

end Exec

end Runs
