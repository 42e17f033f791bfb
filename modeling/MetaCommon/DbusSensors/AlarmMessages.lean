import Mathlib.Logic.Function.Basic
import MetaCommon.DbusSensors.ZeroFilter

/-!
# Messages about threshold alarms

A message is sent when an alarm property changes. A sensor that is constructed anew starts with its
alarms de-asserted, so until the first value that is a number each message is sent. We keep beside
the sensor what the checks have found. A first number between threshold and hysteresis finds
nothing, and still ends the time in which messages are sent anyway.
-/

namespace MetaCommon.DbusSensors

open Runs

inductive Direction
  | high
  | low
deriving DecidableEq

variable {L α : Type*}

structure Threshold (L α : Type*) where
  level : L
  direction : Direction
  value : Double α
  hysteresis : Double α

/-- What a check has found for one threshold. -/
structure ChangeParam (L α : Type*) where
  level : L
  direction : Direction
  asserted : Bool
  assertValue : Double α

/-- The alarm property: that of the direction in the interface of the level. -/
def ChangeParam.alarm (change : ChangeParam L α) : L × Direction := (change.level, change.direction)

section Check

variable [LE (Double α)] [DecidableLE (Double α)] [LT (Double α)] [DecidableLT (Double α)]
  [Add (Double α)] [Sub (Double α)]

/-- The check of one threshold, which is upstream. -/
def Threshold.check (threshold : Threshold L α) (value : Double α) : Option Bool :=
  match threshold.direction with
  | .high =>
    if threshold.value ≤ value then some true
    else if value < threshold.value - threshold.hysteresis then some false
    else none
  | .low =>
    if value ≤ threshold.value then some true
    else if threshold.value + threshold.hysteresis < value then some false
    else none

/-- `checkThresholds` with a value, which is upstream. -/
def changesAt (thresholds : List (Threshold L α)) (value : Double α) : List (ChangeParam L α) :=
  match value with
  | .nan => []
  | .num _ => thresholds.filterMap fun t =>
    (t.check value).map fun asserted => ⟨t.level, t.direction, asserted, value⟩

end Check

/-- An instance of the sensor. -/
structure Sensor (L α : Type*) where
  thresholds : List (Threshold L α)
  alarms : L × Direction → Bool
  hadValidValue : Bool

def Sensor.construct (thresholds : List (Threshold L α)) : Sensor L α :=
  ⟨thresholds, fun _ => false, false⟩

/-- The present instance, and the messages of all instances, the latest first. -/
structure Service (L α : Type*) where
  sensor : Sensor L α
  messages : List (ChangeParam L α)

inductive Event (L α : Type*)
  | reading (value : Double α)
  | construct (thresholds : List (Threshold L α))

variable [DecidableEq L]

namespace Service

def assertThresholds (force : Bool) (s : Service L α) (change : ChangeParam L α) : Service L α where
  sensor := { s.sensor with
    alarms := Function.update s.sensor.alarms change.alarm change.asserted }
  messages :=
    if force || s.sensor.alarms change.alarm != change.asserted then change :: s.messages
    else s.messages

/-- The alarm state that was published last. -/
def lastPublished (s : Service L α) (alarm : L × Direction) : Option Bool :=
  (s.messages.find? fun message => message.alarm = alarm).map (·.asserted)

end Service

/-- What the checks have found: whether the present instance has had a number, for which alarms one
of its checks found something, and what any check found last. -/
structure Findings (L α : Type*) where
  thresholds : List (Threshold L α)
  valid : Bool
  judged : L × Direction → Bool
  last : L × Direction → Option Bool

def Findings.add (f : Findings L α) (change : ChangeParam L α) : Findings L α :=
  { f with
    judged := Function.update f.judged change.alarm true
    last := Function.update f.last change.alarm (some change.asserted) }

/-- The sensor, and what its checks have found. -/
structure Watched (L α : Type*) where
  service : Service L α
  findings : Findings L α

namespace Watched

def start (thresholds : List (Threshold L α)) : Watched L α :=
  ⟨⟨.construct thresholds, []⟩, ⟨thresholds, false, fun _ => false, fun _ => none⟩⟩

/-- The alarm properties are what was found since the construction, and the messages tell what was
found last. -/
structure Inv (w : Watched L α) : Prop where
  thresholds : w.findings.thresholds = w.service.sensor.thresholds
  valid : w.findings.valid = w.service.sensor.hadValidValue
  published : ∀ alarm, w.service.lastPublished alarm = w.findings.last alarm
  judged : ∀ alarm, w.findings.judged alarm = true →
    w.findings.last alarm = some (w.service.sensor.alarms alarm)
  notJudged : ∀ alarm, w.findings.judged alarm = false → w.service.sensor.alarms alarm = false

theorem inv_start (thresholds : List (Threshold L α)) : (start thresholds).Inv :=
  ⟨rfl, rfl, fun _ => rfl, fun _ h => absurd h (by simp [start]), fun _ _ => rfl⟩

end Watched

/-- Two thresholds for one alarm find the same. -/
def Agreeing (changes : List (ChangeParam L α)) : Prop :=
  ∀ c ∈ changes, ∀ d ∈ changes, c.alarm = d.alarm → c.asserted = d.asserted

/-! ### One check -/

section Changes

variable {changes : List (ChangeParam L α)} {alarm : L × Direction} {asserted force : Bool}
  (s : Service L α) (f : Findings L α)

open Service

omit [DecidableEq L] in
theorem Agreeing.forall_asserted (h : Agreeing changes) {c : ChangeParam L α} (hc : c ∈ changes) :
    ∀ d ∈ changes, d.alarm = c.alarm → d.asserted = c.asserted :=
  fun d hd heq => h d hd c hc heq

theorem lastPublished_assertThresholds (change : ChangeParam L α) (alarm : L × Direction) :
    (s.assertThresholds force change).lastPublished alarm =
      if change.alarm = alarm ∧ (force ∨ s.sensor.alarms alarm ≠ change.asserted) then
        some change.asserted
      else s.lastPublished alarm := by
  unfold lastPublished assertThresholds
  by_cases heq : change.alarm = alarm
  · subst heq
    by_cases hsend : force = true ∨ s.sensor.alarms change.alarm ≠ change.asserted
    · rw [if_pos (by simpa using hsend), if_pos ⟨rfl, hsend⟩]
      simp
    · rw [if_neg (by simpa using hsend), if_neg (fun hand => hsend hand.2)]
  · have hnot : ¬ (change.alarm = alarm ∧
        (force = true ∨ s.sensor.alarms alarm ≠ change.asserted)) := fun hand => heq hand.1
    simp only [if_neg hnot]
    split <;> simp [heq]

/-- After a check whose changes for an alarm all agree. -/
theorem foldl_assertThresholds (force : Bool)
    (hsame : ∀ c ∈ changes, c.alarm = alarm → c.asserted = asserted) :
    (changes.foldl (assertThresholds force) s).sensor.alarms alarm =
        (if alarm ∈ changes.map ChangeParam.alarm then asserted else s.sensor.alarms alarm) ∧
      (changes.foldl (assertThresholds force) s).lastPublished alarm =
        if alarm ∈ changes.map ChangeParam.alarm ∧
            (force ∨ s.sensor.alarms alarm ≠ asserted) then some asserted
        else s.lastPublished alarm := by
  induction changes generalizing s with
  | nil => simp
  | cons c changes ih =>
    obtain ⟨halarms, hlast⟩ := ih (s.assertThresholds force c)
      fun d hd => hsame d (List.mem_cons_of_mem _ hd)
    rw [List.foldl_cons, halarms, hlast, lastPublished_assertThresholds]
    by_cases heq : c.alarm = alarm
    · obtain rfl := hsame c List.mem_cons_self heq
      subst heq
      have hset : (s.assertThresholds force c).sensor.alarms c.alarm = c.asserted := by
        simp [assertThresholds]
      rw [hset]
      simp
      grind
    · have hset : (s.assertThresholds force c).sensor.alarms alarm = s.sensor.alarms alarm := by
        simp [assertThresholds, Ne.symm heq]
      simp [hset, heq, Ne.symm heq]

theorem foldl_add (hsame : ∀ c ∈ changes, c.alarm = alarm → c.asserted = asserted) :
    (changes.foldl Findings.add f).judged alarm =
        (f.judged alarm || decide (alarm ∈ changes.map ChangeParam.alarm)) ∧
      (changes.foldl Findings.add f).last alarm =
        if alarm ∈ changes.map ChangeParam.alarm then some asserted else f.last alarm := by
  induction changes generalizing f with
  | nil => simp
  | cons c changes ih =>
    obtain ⟨hjudged, hlast⟩ := ih (f.add c) fun d hd => hsame d (List.mem_cons_of_mem _ hd)
    rw [List.foldl_cons, hjudged, hlast]
    by_cases heq : c.alarm = alarm
    · obtain rfl := hsame c List.mem_cons_self heq
      subst heq
      simp [Findings.add]
    · simp [Findings.add, Ne.symm heq]

theorem foldl_assertThresholds_frame :
    (changes.foldl (assertThresholds force) s).sensor.thresholds = s.sensor.thresholds ∧
      (changes.foldl (assertThresholds force) s).sensor.hadValidValue = s.sensor.hadValidValue := by
  induction changes generalizing s with
  | nil => exact ⟨rfl, rfl⟩
  | cons c changes ih => exact ih (s.assertThresholds force c)

theorem foldl_add_frame : (changes.foldl Findings.add f).thresholds = f.thresholds ∧
    (changes.foldl Findings.add f).valid = f.valid := by
  induction changes generalizing f with
  | nil => exact ⟨rfl, rfl⟩
  | cons c changes ih => exact ih (f.add c)

omit [DecidableEq L] in
theorem Agreeing.exists_asserted (h : Agreeing changes) (alarm : L × Direction) :
    ∃ asserted, ∀ c ∈ changes, c.alarm = alarm → c.asserted = asserted := by
  by_cases hc : ∃ c ∈ changes, c.alarm = alarm
  · obtain ⟨c, hc, rfl⟩ := hc
    exact ⟨c.asserted, h.forall_asserted hc⟩
  · exact ⟨false, fun c hmem heq => absurd ⟨c, hmem, heq⟩ hc⟩

end Changes

/-! ### Readings and constructions -/

variable [LE (Double α)] [DecidableLE (Double α)] [LT (Double α)] [DecidableLT (Double α)]
  [Add (Double α)] [Sub (Double α)]

namespace Service

def checkThresholds (s : Service L α) (value : Double α) : Service L α :=
  let forceAssert := !s.sensor.hadValidValue
  (changesAt s.sensor.thresholds value).foldl (assertThresholds forceAssert) s

/-- `updateValue` checks the thresholds, and then sets `hadValidValue`. -/
def updateValue (s : Service L α) (value : Double α) : Service L α :=
  let s := s.checkThresholds value
  match value with
  | .nan => s
  | .num _ => { s with sensor := { s.sensor with hadValidValue := true } }

def step (s : Service L α) : Event L α → Service L α
  | .reading value => s.updateValue value
  | .construct thresholds => { s with sensor := .construct thresholds }

/-- The alarm states that the check of a reading finds have been published when it is over. -/
def Hears (s : Service L α) : Event L α → Prop
  | .reading value => ∀ change ∈ changesAt s.sensor.thresholds value,
    (s.updateValue value).lastPublished change.alarm = some change.asserted
  | .construct _ => True

end Service

def Findings.step (f : Findings L α) : Event L α → Findings L α
  | .reading value =>
    let f := (changesAt f.thresholds value).foldl Findings.add f
    match value with
    | .nan => f
    | .num _ => { f with valid := true }
  | .construct thresholds => { f with thresholds, valid := false, judged := fun _ => false }

/-- A check that finds a de-assert is the first one with a number, or not the first one that finds
something for the alarm, or what was found last is a de-assert as well. -/
def Findings.Announces (f : Findings L α) : Event L α → Prop
  | .reading value => Agreeing (changesAt f.thresholds value) ∧
    ∀ change ∈ changesAt f.thresholds value, change.asserted = false → f.valid = true →
      f.judged change.alarm = false → f.last change.alarm = some false
  | .construct _ => True

namespace Watched

def step (w : Watched L α) (event : Event L α) : Watched L α :=
  ⟨w.service.step event, w.findings.step event⟩

/-! ### Runs -/

variable {w : Watched L α} {event : Event L α} {value : Double α} {alarm : L × Direction}
  {asserted : Bool}

section Reading

variable (s : Service L α) (f : Findings L α)

/-- A reading whose changes for an alarm all agree. -/
theorem updateValue_spec (hsame : ∀ c ∈ changesAt s.sensor.thresholds value,
    c.alarm = alarm → c.asserted = asserted) :
    (s.updateValue value).sensor.alarms alarm =
        (if alarm ∈ (changesAt s.sensor.thresholds value).map ChangeParam.alarm then asserted
        else s.sensor.alarms alarm) ∧
      (s.updateValue value).lastPublished alarm =
        if alarm ∈ (changesAt s.sensor.thresholds value).map ChangeParam.alarm ∧
            (s.sensor.hadValidValue = false ∨ s.sensor.alarms alarm ≠ asserted) then some asserted
        else s.lastPublished alarm := by
  have h := foldl_assertThresholds s (!s.sensor.hadValidValue) hsame
  simp only [Bool.not_eq_true'] at h
  cases value <;> exact h

theorem findings_step_spec (hsame : ∀ c ∈ changesAt f.thresholds value,
    c.alarm = alarm → c.asserted = asserted) :
    (f.step (.reading value)).judged alarm =
        (f.judged alarm || decide (alarm ∈ (changesAt f.thresholds value).map ChangeParam.alarm)) ∧
      (f.step (.reading value)).last alarm =
        if alarm ∈ (changesAt f.thresholds value).map ChangeParam.alarm then some asserted
        else f.last alarm := by
  cases value <;> exact foldl_add f hsame

end Reading

theorem Inv.hears_iff (hw : w.Inv) :
    w.service.Hears event ↔ w.findings.Announces event := by
  match event with
  | .construct thresholds => exact Iff.rfl
  | .reading value =>
    simp only [Service.Hears, Findings.Announces, hw.thresholds, hw.valid]
    constructor
    · intro hheard
      have hagree : Agreeing (changesAt w.service.sensor.thresholds value) := by
        intro c hc d hd heq
        have hlast := hheard c hc
        rw [heq, hheard d hd] at hlast
        exact (Option.some.inj hlast).symm
      refine ⟨hagree, fun c hc hasserted hvalid hjudged => ?_⟩
      have hlast := (updateValue_spec w.service (hagree.forall_asserted hc)).2
      -- no message is sent, so the one that was sent last is the one for this change
      rw [if_neg, hheard c hc, hw.published, hasserted] at hlast
      · exact hlast.symm
      · simp [hvalid, hw.notJudged _ hjudged, hasserted]
    · rintro ⟨hagree, hfirst⟩ c hc
      rw [(updateValue_spec w.service (hagree.forall_asserted hc)).2]
      split
      · rfl
      · next hsilent =>
        have hmem := List.mem_map_of_mem (f := ChangeParam.alarm) hc
        have hvalid : w.service.sensor.hadValidValue = true := by
          by_contra hno
          exact hsilent ⟨hmem, .inl (by simpa using hno)⟩
        have halarm : w.service.sensor.alarms c.alarm = c.asserted := by
          by_contra hno
          exact hsilent ⟨hmem, .inr hno⟩
        rw [hw.published]
        cases hjudged : w.findings.judged c.alarm with
        | true => rw [hw.judged _ hjudged, halarm]
        | false =>
          have hasserted : c.asserted = false := halarm ▸ hw.notJudged _ hjudged
          rw [hasserted]
          exact hfirst c hc hasserted hvalid hjudged

/-- What a reading that is heard leaves for one alarm: the change that its check has for it, or what
there was. -/
theorem Inv.reading_spec (hw : w.Inv) (h : w.service.Hears (.reading value))
    (alarm : L × Direction) : ∃ change : Option Bool,
      (w.service.updateValue value).sensor.alarms alarm =
        change.getD (w.service.sensor.alarms alarm) ∧
      (w.service.updateValue value).lastPublished alarm =
        change.or (w.service.lastPublished alarm) ∧
      (w.findings.step (.reading value)).judged alarm =
        (w.findings.judged alarm || change.isSome) ∧
      (w.findings.step (.reading value)).last alarm = change.or (w.findings.last alarm) := by
  have hagree : Agreeing (changesAt w.service.sensor.thresholds value) := by
    have hannounces := hw.hears_iff.mp h
    rw [Findings.Announces, hw.thresholds] at hannounces
    exact hannounces.1
  obtain ⟨asserted, hsame⟩ := hagree.exists_asserted alarm
  obtain ⟨halarms, hpublished⟩ := updateValue_spec w.service hsame
  obtain ⟨hjudged, hlast⟩ := findings_step_spec w.findings (hw.thresholds ▸ hsame)
  rw [hw.thresholds] at hjudged hlast
  by_cases hmem : alarm ∈ (changesAt w.service.sensor.thresholds value).map ChangeParam.alarm
  · obtain ⟨c, hc, rfl⟩ := List.mem_map.mp hmem
    obtain rfl := hsame c hc rfl
    refine ⟨some c.asserted, ?_, h c hc, ?_, ?_⟩
    · rw [halarms, if_pos hmem]
      rfl
    · rw [hjudged, decide_eq_true hmem]
      rfl
    · rw [hlast, if_pos hmem]
      rfl
  · refine ⟨none, ?_, ?_, ?_, ?_⟩
    · rw [halarms, if_neg hmem]
      rfl
    · rw [hpublished, if_neg fun hand => hmem hand.1]
      rfl
    · rw [hjudged]
      simp [hmem]
    · rw [hlast, if_neg hmem]
      rfl

theorem Inv.step (hw : w.Inv) (h : w.service.Hears event) : (w.step event).Inv := by
  match event with
  | .construct thresholds =>
    exact ⟨rfl, rfl, hw.published, fun _ hjudged => Bool.noConfusion hjudged, fun _ _ => rfl⟩
  | .reading value =>
    refine ⟨?_, ?_, fun alarm => ?_, fun alarm hjudged => ?_, fun alarm hjudged => ?_⟩
    · cases value <;>
        exact (foldl_add_frame w.findings).1.trans
          (hw.thresholds.trans (foldl_assertThresholds_frame w.service).1.symm)
    · cases value with
      | nan => exact hw.valid
      | num x => rfl
    all_goals
      obtain ⟨change, halarms, hpublished, hjudged', hlast⟩ := hw.reading_spec h alarm
    · exact hpublished.trans (hw.published alarm ▸ hlast.symm)
    · rw [Watched.step, hlast, Service.step, halarms]
      cases change with
      | some asserted => rfl
      | none =>
        rw [Watched.step, hjudged'] at hjudged
        exact hw.judged alarm (by simpa using hjudged)
    · rw [Watched.step, hjudged', Bool.or_eq_false_iff] at hjudged
      obtain rfl : change = none := by simpa using hjudged.2
      exact halarms.trans (hw.notJudged alarm hjudged.1)

/-- In a run every change that a check finds is heard, if and only if every de-assert is announced by
what was found before. -/
theorem guarded_hears_iff (thresholds : List (Threshold L α)) (events : List (Event L α)) :
    Guarded step (fun w event => w.service.Hears event) (start thresholds) events ↔
      Guarded step (fun w event => w.findings.Announces event) (start thresholds) events :=
  guarded_congr (I := Inv) (fun _ _ hw h => hw.step (hw.hears_iff.mpr h))
    (fun _ _ hw => hw.hears_iff) (inv_start thresholds)

instance (s : Service L α) : (event : Event L α) → Decidable (s.Hears event)
  | .reading _ => inferInstanceAs (Decidable (∀ change ∈ _, _))
  | .construct _ => isTrue trivial

end Watched

/-! ### Rational values -/

namespace Double

/-- A comparison of numbers, which is false of NaN. -/
def compares {α : Type*} (r : α → α → Bool) : Double α → Double α → Bool
  | .num x, .num y => r x y
  | _, _ => false

instance : LE (Double ℚ) := ⟨fun x y => compares (fun a b => a ≤ b) x y = true⟩

instance : LT (Double ℚ) := ⟨fun x y => compares (fun a b => a < b) x y = true⟩

instance : DecidableLE (Double ℚ) := fun _ _ => inferInstanceAs (Decidable (_ = true))

instance : DecidableLT (Double ℚ) := fun _ _ => inferInstanceAs (Decidable (_ = true))

instance : Sub (Double ℚ) := ⟨map₂ fun x y => .num (x - y)⟩

end Double

/-- An alarm is raised, and the sensor constructed anew with a higher threshold. The first reading
is below it, but not below the hysteresis, and the second one de-asserts the alarm without a
message. -/
theorem Watched.not_guarded_hears :
    ¬ Guarded Watched.step (fun w event => w.service.Hears event)
      (Watched.start [⟨"CRITICAL", .high, .num (10 : ℚ), .num 1⟩])
      [.reading (.num 12), .construct [⟨"CRITICAL", .high, .num 20, .num 5⟩], .reading (.num 17),
        .reading (.num 12)] := by
  decide +kernel

end MetaCommon.DbusSensors
