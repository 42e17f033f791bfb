import MetaCommon.SoftwareManager.Activation

/-!
# Attempts to activate an image

An attempt should start fwupd at most once, the ones that follow a failed one should start it or
fail, and one for a standby spare should not become Active. `run_attemptsSound_iff` says which runs
have only such attempts.
-/

namespace MetaCommon.SoftwareManager

open Runs

/-- The image is refused: its signature is wrong and the field mode is enabled. -/
def Verification.rejects (v : Verification) : Bool := !v.verifySignature && v.fieldModeEnabled

def Write.rejects : Write → Bool
  | activation v _ => v.rejects
  | requestedActivation v _ => v.rejects
  | progress _ => false

namespace Activation

/-- What a call of `activation` with a value does: the property and the progress afterwards, and
whether fwupd has been started. -/
inductive Called (a : Activation) (rejects : Bool) (value : Activations) :
    Activations → Option UInt8 → Bool → Prop
  | refuses (hv : value.isActivating) (hp : a.activationProgress = none) (hr : rejects = true) :
    Called a rejects value .failed (some 0) false
  | starts (hv : value.isActivating) (hp : a.activationProgress = none) (hr : rejects = false) :
    Called a rejects value value (some 0) true
  | finishes (hv : value.isActivating) (hp : a.activationProgress = some 100) :
    Called a rejects value .active (some 100) false
  | continues (hv : value.isActivating) (p : UInt8) (hp : a.activationProgress = some p)
    (hne : p ≠ 100) : Called a rejects value value (some p) false
  | leaves (hv : ¬ value.isActivating) : Called a rejects value value none false

variable (a : Activation)

theorem setActivation_called (v : Verification) (value : Activations) :
    a.Called v.rejects value (a.setActivation v value).1.activation
      (a.setActivation v value).1.activationProgress (a.setActivation v value).2 := by
  have hprogress : (a.resetPriority value).activationProgress = a.activationProgress := rfl
  unfold setActivation
  simp only [hprogress]
  by_cases hv : value.isActivating
  · rw [if_pos hv]
    cases hp : a.activationProgress with
    | none =>
      simp only
      cases hr : v.rejects with
      | true =>
        rw [Verification.rejects] at hr
        rw [if_pos hr]
        exact .refuses hv hp rfl
      | false =>
        rw [Verification.rejects] at hr
        rw [if_neg (by simp [hr])]
        exact .starts hv hp rfl
    | some p =>
      simp only
      by_cases h100 : p = 100
      · rw [if_pos h100, h100]
        exact .finishes hv (h100 ▸ hp)
      · rw [if_neg h100]
        exact .continues hv p hp h100
  · rw [if_neg hv]
    exact .leaves hv

theorem write_called {w : Write} {value : Activations} (h : a.asked w = some value) :
    a.Called w.rejects value (a.write w).1.activation (a.write w).1.activationProgress
      (a.write w).2 := by
  cases w with
  | activation v t =>
    obtain rfl := Option.some.inj h
    exact a.setActivation_called v t
  | requestedActivation v t =>
    simp only [asked] at h
    split_ifs at h with hcalls
    obtain ⟨hne, hstate⟩ := hcalls
    cases t with
    | none => cases h
    | active =>
      obtain rfl := Option.some.inj h
      have hset : a.setRequestedActivation v .active =
          ({ (a.setActivation v .activating).1 with requestedActivation := .active },
            (a.setActivation v .activating).2) := by
        unfold setRequestedActivation
        rw [if_pos ⟨rfl, hne.symm⟩, if_pos hstate]
      simp only [write, hset]
      exact a.setActivation_called v .activating
    | standbySpare =>
      obtain rfl := Option.some.inj h
      have hset : a.setRequestedActivation v .standbySpare =
          ({ (a.setActivation v .activatingAsStandbySpare).1 with
              requestedActivation := .standbySpare },
            (a.setActivation v .activatingAsStandbySpare).2) := by
        unfold setRequestedActivation
        rw [if_neg (fun h => nomatch h.1), if_pos ⟨rfl, hne.symm⟩, if_pos hstate]
      simp only [write, hset]
      exact a.setActivation_called v .activatingAsStandbySpare
  | progress => cases h

end Activation

namespace Attempts

variable (m : Attempts)

/-- What the call of `activation` in a write promises for the attempt it belongs to. -/
def Sound (w : Write) : Prop :=
  ∀ value ∈ m.object.asked w, ∀ x ∈ m.during value (m.object.write w).2,
    x.starts ≤ 1 ∧ (x.standby = true → (m.object.write w).1.activation ≠ .active) ∧
    (m.object.begins value → m.failed = true →
      1 ≤ x.starts ∨ (m.object.write w).1.activation = .failed)

/-- The condition on a write and the state it finds. A new attempt finds no progress object; one
that does is not the first after a failure, nor for a standby spare with the progress at 100. In an
attempt that has started fwupd no activating value is written without a progress object unless the
image is refused, and in one for a standby spare neither Active is, nor an activating value with the
progress at 100. -/
def Clean (w : Write) : Prop :=
  ∀ value ∈ m.object.asked w,
    if m.object.begins value then
      m.object.activationProgress = none ∨ m.failed = false ∧
        (value = .activatingAsStandbySpare → m.object.activationProgress ≠ some 100)
    else ∀ x ∈ m.current,
      (value.isActivating → m.object.activationProgress = none → x.starts = 0 ∨
        w.rejects = true) ∧
      (x.standby = true → value ≠ .active ∧
        (value.isActivating → m.object.activationProgress ≠ some 100))

/-- The attempt has started fwupd at most once. -/
def Once : Prop := ∀ x ∈ m.current, x.starts ≤ 1

variable {m}

theorem during_of_begins {value : Activations} (hb : m.object.begins value) (started : Bool) :
    m.during value started =
      some ⟨value = .activatingAsStandbySpare, started.toNat⟩ := by
  simp [during, hb]

theorem forall_mem_during {value : Activations} (hb : ¬ m.object.begins value) {started : Bool}
    {P : Attempt → Prop} : (∀ x ∈ m.during value started, P x) ↔
      ∀ x ∈ m.current, P { x with starts := x.starts + started.toNat } := by
  simp only [during, if_neg hb]
  cases m.current <;> simp

theorem sound_iff {w : Write} (hm : m.Once) : m.Sound w ↔ m.Clean w := by
  unfold Sound Clean
  refine forall₂_congr fun value hvalue => ?_
  have hcalled := m.object.write_called hvalue
  generalize (m.object.write w).1.activation = after at hcalled ⊢
  generalize (m.object.write w).1.activationProgress = progress at hcalled
  generalize (m.object.write w).2 = started at hcalled ⊢
  have hne : value.isActivating → value ≠ .active := by
    rintro (rfl | rfl) <;> decide
  have hfailed : value.isActivating → value ≠ .failed := by
    rintro (rfl | rfl) <;> decide
  by_cases hb : m.object.begins value
  · rw [during_of_begins hb, if_pos hb]
    simp only [Option.mem_some_iff, forall_eq', hb, true_implies, decide_eq_true_eq]
    cases hcalled with
    | refuses hv hp => simp [hp]
    | starts hv hp => simp [hp, hne hv]
    | finishes hv hp => simp [hp, and_comm]
    | continues hv p hp h100 => simp [hp, hne hv, hfailed hv, h100]
    | leaves hv => exact absurd hb.2 hv
  · rw [forall_mem_during hb, if_neg hb]
    refine forall₂_congr fun x hx => ?_
    have hx : x.starts ≤ 1 := hm x hx
    cases hcalled with
    | refuses hv hp hr => simp [hp, hr, hx, hb, hne hv]
    | starts hv hp hr =>
      have hone : x.starts + 1 ≤ 1 ↔ x.starts = 0 := by omega
      simp [hp, hr, hb, hv, hne hv, hone]
    | finishes hv hp => simp [hp, hv, hx, hb, hne hv]
    | continues hv p hp h100 => simp [hp, hx, hb, hne hv, h100]
    | leaves hv => simp [hv, hx, hb]

/-- The attempt after a write is the one its call belongs to, unless that has ended. -/
theorem Once.step {w : Write} (hm : m.Once) (hw : m.Sound w) : (m.step w).Once := by
  intro x hx
  unfold Attempts.step at hx
  cases hasked : m.object.asked w with
  | none =>
    simp only [hasked] at hx
    exact hm x hx
  | some value =>
    simp only [hasked, called] at hx
    split_ifs at hx
    · cases hx
    · exact (hw value hasked x hx).1

/-- From any object that is in no attempt, all attempts of a run are as they should be exactly if
every write meets the condition. -/
theorem run_attemptsSound_iff (object : Activation) (ws : List Write) :
    Guarded step Sound ⟨object, none, false⟩ ws ↔ Guarded step Clean ⟨object, none, false⟩ ws :=
  guarded_congr (I := Once) (fun _ _ hm hw => hm.step ((sound_iff hm).mpr hw))
    (fun _ _ hm => sound_iff hm) nofun

instance : DecidableRel Sound := fun m w =>
  inferInstanceAs (Decidable (∀ value ∈ m.object.asked w, ∀ x ∈ m.during value _, _))

def readyObject : Activation := ⟨.ready, .none, none, false⟩

/-- An image is refused, and then asked for again. -/
def refusedOnce : List Write :=
  [.requestedActivation ⟨false, true⟩ .active, .requestedActivation ⟨true, true⟩ .none,
    .requestedActivation ⟨true, true⟩ .active]

/-- A standby spare is finished as any other image is. -/
def finishedSpare : List Write :=
  [.requestedActivation ⟨true, true⟩ .standbySpare, .progress 100,
    .activation ⟨true, true⟩ .activatingAsStandbySpare]

/-- The object leaves the activating values for another that ends no attempt, and comes back. -/
def restarted : List Write :=
  [.activation ⟨true, true⟩ .activating, .activation ⟨true, true⟩ (.other 0),
    .activation ⟨true, true⟩ .activating]

theorem not_run_attemptsSound :
    ¬Guarded step Sound ⟨readyObject, none, false⟩ refusedOnce ∧
      ¬Guarded step Sound ⟨readyObject, none, false⟩ finishedSpare ∧
      ¬Guarded step Sound ⟨readyObject, none, false⟩ restarted := by decide

end Attempts

end MetaCommon.SoftwareManager
