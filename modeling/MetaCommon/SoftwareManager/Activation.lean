import MetaCommon.Lib.Runs

/-!
# Activation of a firmware image by fwupd

`activation` starts fwupd when it makes the progress object, and finishes when it finds the progress
at 100. `requestedActivation` begins an activation of an object that is ready or has failed. Both
properties and the progress are written over D-Bus. The build has FWUPD_SCRIPT and verifies
signatures.
-/

namespace MetaCommon.SoftwareManager

/-- The values of the property; the ones that the code does not compare with are numbered. -/
inductive Activations
  | ready
  | activating
  | activatingAsStandbySpare
  | active
  | failed
  | standbySpare
  | other (n : ℕ)
deriving DecidableEq

inductive RequestedActivations
  | none
  | active
  | standbySpare
deriving DecidableEq

/-- What the image and the system are found to be when an activation starts. -/
structure Verification where
  verifySignature : Bool
  fieldModeEnabled : Bool
deriving DecidableEq

/-- The progress object holds its percentage. -/
structure Activation where
  activation : Activations
  requestedActivation : RequestedActivations
  activationProgress : Option UInt8
  redundancyPriority : Bool
deriving DecidableEq

def Activations.isActivating (value : Activations) : Prop :=
  value = .activating ∨ value = .activatingAsStandbySpare

instance : DecidablePred Activations.isActivating := fun _ =>
  inferInstanceAs (Decidable (_ ∨ _))

namespace Activation

variable (a : Activation)

/-- Every value but Active and the activating ones drops the priority. -/
def resetPriority (value : Activations) : Activation :=
  { a with
    redundancyPriority := a.redundancyPriority && (value = .active ∨ value.isActivating) }

/-- `activation(value)`, and whether it has started fwupd. -/
def setActivation (v : Verification) (value : Activations) : Activation × Bool :=
  let a := a.resetPriority value
  if value.isActivating then
    match a.activationProgress with
    | none =>
      let a := { a with activationProgress := some 0 }
      -- The early return leaves the new progress object where it is.
      if !v.verifySignature && v.fieldModeEnabled then ({ a with activation := .failed }, false)
      else ({ a with activation := value }, true)
    | some progress =>
      if progress = 100 then ({ a with redundancyPriority := true, activation := .active }, false)
      else ({ a with activation := value }, false)
  else ({ a with activationProgress := none, activation := value }, false)

def setRequestedActivation (v : Verification) (value : RequestedActivations) : Activation × Bool :=
  let (a, started) :=
    if value = .active ∧ a.requestedActivation ≠ .active then
      if a.activation = .ready ∨ a.activation = .failed then a.setActivation v .activating
      else (a, false)
    else if value = .standbySpare ∧ a.requestedActivation ≠ .standbySpare then
      if a.activation = .ready ∨ a.activation = .failed then
        a.setActivation v .activatingAsStandbySpare
      else (a, false)
    else (a, false)
  ({ a with requestedActivation := value }, started)

/-- A write to the progress, which has no one to answer it without the object. -/
def setProgress (progress : UInt8) : Activation :=
  { a with activationProgress := a.activationProgress.map fun _ => progress }

end Activation

/-- The writes over D-Bus. -/
inductive Write
  | activation (v : Verification) (value : Activations)
  | requestedActivation (v : Verification) (value : RequestedActivations)
  | progress (progress : UInt8)
deriving DecidableEq

def Activation.write (a : Activation) : Write → Activation × Bool
  | .activation v value => a.setActivation v value
  | .requestedActivation v value => a.setRequestedActivation v value
  | .progress progress => (a.setProgress progress, false)

/-! ### Attempts -/

/-- An attempt is for a standby spare or not, and has started fwupd so many times. -/
structure Attempt where
  standby : Bool
  starts : ℕ
deriving DecidableEq

/-- The object, the attempt it is in, and whether an attempt has ended in Failed. -/
structure Attempts where
  object : Activation
  current : Option Attempt
  failed : Bool
deriving DecidableEq

/-- The values in which an attempt ends. -/
def Activations.ends (value : Activations) : Prop :=
  value = .active ∨ value = .standbySpare ∨ value = .failed

instance : DecidablePred Activations.ends := fun _ => inferInstanceAs (Decidable (_ ∨ _))

/-- The value with which a write calls `activation`. -/
def Activation.asked (a : Activation) : Write → Option Activations
  | .activation _ value => some value
  | .requestedActivation _ value =>
    if value ≠ a.requestedActivation ∧ (a.activation = .ready ∨ a.activation = .failed) then
      match value with
      | .none => none
      | .active => some .activating
      | .standbySpare => some .activatingAsStandbySpare
    else none
  | .progress _ => none

/-- The object leaves Ready or Failed for a new attempt. -/
def Activation.begins (a : Activation) (value : Activations) : Prop :=
  (a.activation = .ready ∨ a.activation = .failed) ∧ value.isActivating

instance (a : Activation) : DecidablePred a.begins := fun _ => inferInstanceAs (Decidable (_ ∧ _))

namespace Attempts

variable (m : Attempts)

/-- The attempt that a call of `activation` belongs to, with that call. -/
def during (value : Activations) (started : Bool) : Option Attempt :=
  let attempt := if m.object.begins value then some ⟨value = .activatingAsStandbySpare, 0⟩
    else m.current
  attempt.map fun x => { x with starts := x.starts + started.toNat }

def called (value : Activations) (object : Activation) (started : Bool) : Attempts :=
  let attempt := m.during value started
  if object.activation.ends then
    { object, current := none,
      failed := m.failed || attempt.isSome && object.activation == .failed }
  else { m with object, current := attempt }

def step (w : Write) : Attempts :=
  let (object, started) := m.object.write w
  match m.object.asked w with
  | none => { m with object }
  | some value => m.called value object started

end Attempts

end MetaCommon.SoftwareManager
