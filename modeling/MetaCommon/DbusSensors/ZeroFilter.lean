import Mathlib.Algebra.Ring.Rat
import Mathlib.Data.List.Infix
import MetaCommon.Lib.Runs

/-!
# The filter for zeros of a PSU sensor

A first zero is ignored by setting `value` to zero, and `value` is also what `updateValue` compares
with. So the second zero is taken for one that has been published, if it is zero also when scaled,
and otherwise the third zero is taken for a first one. The values are doubles with an arithmetic
that is left open.
-/

namespace MetaCommon.DbusSensors

open Runs

inductive Double (α : Type*)
  | nan
  | num (x : α)
deriving DecidableEq

structure PSUSensor (α : Type*) where
  filterZero : Bool
  sensorFactor : Double α
  sensorOffset : Double α

/-- The constructor, with the path that belongs to the units. -/
def PSUSensor.construct {α : Type*} (unitPath name : String) (factor offset : Double α) :
    PSUSensor α where
  filterZero := decide (unitPath = "temperature" ∧ "CPU".toList <:+: name.toList)
  sensorFactor := factor
  sensorOffset := offset

/-- The members that a reading changes: `value`, the value that was published last, and the values
that thresholds have been checked against, the latest first. -/
structure Readout (α : Type*) where
  value : Double α
  published : Option (Double α)
  checked : List (Double α)

def Readout.initial {α : Type*} : Readout α := ⟨.nan, none, []⟩

section Sensor

variable {α : Type*} [DecidableEq α]

/-- `==`, by which NaN equals nothing. -/
def Double.eq : Double α → Double α → Bool
  | .num x, .num y => decide (x = y)
  | _, _ => false

theorem Double.eq_iff {x y : Double α} : x.eq y = true ↔ x = y ∧ x ≠ .nan := by
  cases x <;> cases y <;> simp [Double.eq]

/-- `Sensor::updateValue`, which is upstream. -/
def Readout.updateValue (s : Readout α) (newValue : Double α) : Readout α where
  value := newValue
  published := if newValue.eq s.value then s.published else some newValue
  checked := newValue :: s.checked

theorem Readout.published_updateValue_iff {s : Readout α} {newValue : Double α} :
    (s.updateValue newValue).published = some newValue ↔
      (newValue = s.value → newValue ≠ .nan → s.published = some newValue) := by
  unfold Readout.updateValue
  by_cases heq : newValue.eq s.value = true
  · obtain ⟨hvalue, hnan⟩ := Double.eq_iff.mp heq
    rw [if_pos heq]
    exact ⟨fun h _ _ => h, fun h => h hvalue hnan⟩
  · rw [if_neg heq]
    exact ⟨fun _ hvalue hnan => absurd (Double.eq_iff.mpr ⟨hvalue, hnan⟩) heq, fun _ => rfl⟩

variable [Zero α] {p : PSUSensor α} {rawValue : Double α} {readings : List (Double α)}

def PSUSensor.ignores (p : PSUSensor α) (s : Readout α) (rawValue : Double α) : Bool :=
  p.filterZero && rawValue.eq (.num 0) && !s.value.eq (.num 0)

theorem PSUSensor.ignores_iff (hfilter : p.filterZero = true) {s : Readout α} :
    p.ignores s rawValue = true ↔ rawValue = .num 0 ∧ s.value ≠ .num 0 := by
  have hvalue : s.value.eq (.num 0) = false ↔ s.value ≠ .num 0 := by
    rw [← Bool.not_eq_true, Double.eq_iff]
    grind
  simp only [ignores, hfilter, Bool.true_and, Bool.and_eq_true, Bool.not_eq_true', hvalue,
    Double.eq_iff]
  grind

/-- The zeros at the front of the readings. -/
def zerosBefore (readings : List (Double α)) : ℕ := (readings.takeWhile (· = .num 0)).length

theorem zerosBefore_cons (x : Double α) (readings : List (Double α)) :
    zerosBefore (x :: readings) = if x = .num 0 then zerosBefore readings + 1 else 0 := by
  unfold zerosBefore
  split <;> simp_all

theorem zerosBefore_eq_zero_iff : zerosBefore readings = 0 ↔ readings.head? ≠ some (.num 0) := by
  cases readings with
  | nil => simp [zerosBefore]
  | cons x xs => by_cases hx : x = .num 0 <;> simp [zerosBefore_cons, hx]

variable [Add (Double α)] [Div (Double α)]

namespace PSUSensor

variable (p : PSUSensor α)

def scaled (rawValue : Double α) : Double α := rawValue / p.sensorFactor + p.sensorOffset

/-- The part of `handleResponse` for a number that has been read. -/
def handleResponse (s : Readout α) (rawValue : Double α) : Readout α :=
  if p.ignores s rawValue then { s with value := .num 0 }
  else s.updateValue (p.scaled rawValue)

end PSUSensor

/-- The sensor, and what has been read from it, the latest first. -/
structure Polled (α : Type*) where
  sensor : Readout α
  readings : List (Double α)

namespace Polled

def start : Polled α := ⟨.initial, []⟩

def step (p : PSUSensor α) (s : Polled α) (rawValue : Double α) : Polled α :=
  ⟨p.handleResponse s.sensor rawValue, rawValue :: s.readings⟩

/-- The reading is ignored if it is a zero and the one before was none. One that is not ignored is
published, scaled and with its offset, and thresholds are checked against it. -/
def Handles (p : PSUSensor α) (s : Polled α) (rawValue : Double α) : Prop :=
  (p.ignores s.sensor rawValue = true ↔ rawValue = .num 0 ∧ s.readings.head? ≠ some (.num 0)) ∧
    (p.ignores s.sensor rawValue = false →
      (s.step p rawValue).sensor.published = some (p.scaled rawValue) ∧
        (s.step p rawValue).sensor.checked = p.scaled rawValue :: s.sensor.checked)

/-- Before a first zero the reading is not scaled to zero. After one zero none is, and after two of
them there is no third. -/
def Distinguishes (p : PSUSensor α) (s : Polled α) (rawValue : Double α) : Prop :=
  match zerosBefore s.readings with
  | 0 => rawValue = .num 0 → ∀ last, s.readings.head? = some last → p.scaled last ≠ .num 0
  | 1 => p.scaled rawValue ≠ .num 0
  | _ + 2 => rawValue ≠ .num 0

/-- Where a filtered sensor stands after readings that were all handled. -/
inductive Stands (p : PSUSensor α) (s : Polled α) : Prop
  | fresh (hread : s.readings = []) (hvalue : s.sensor.value = .nan)
      (hpublished : s.sensor.published = none)
  | shown (last : Double α) (hlast : s.readings.head? = some last) (hzero : last ≠ .num 0)
      (hvalue : s.sensor.value = p.scaled last)
      (hpublished : s.sensor.published = some (p.scaled last))
  | ignored (hzeros : zerosBefore s.readings = 1) (hvalue : s.sensor.value = .num 0)
      (hpublished : s.sensor.published ≠ some (.num 0))
  | repeated (n : ℕ) (hzeros : zerosBefore s.readings = n + 2)
      (hvalue : s.sensor.value = p.scaled (.num 0)) (hne : p.scaled (.num 0) ≠ .num 0)
      (hpublished : s.sensor.published = some (p.scaled (.num 0)))

/-! ### One reading -/

variable {s : Polled α} {last : Double α}

theorem sensor_step_of_ignores (h : p.ignores s.sensor rawValue = true) :
    (s.step p rawValue).sensor = { s.sensor with value := .num 0 } :=
  if_pos h

theorem sensor_step_of_not_ignores (h : p.ignores s.sensor rawValue = false) :
    (s.step p rawValue).sensor = s.sensor.updateValue (p.scaled rawValue) :=
  if_neg (by simp [h])

theorem handles_iff (hfilter : p.filterZero = true) : s.Handles p rawValue ↔
    (rawValue = .num 0 → (s.sensor.value ≠ .num 0 ↔ zerosBefore s.readings = 0)) ∧
      ((rawValue = .num 0 → s.sensor.value = .num 0) → p.scaled rawValue = s.sensor.value →
        p.scaled rawValue ≠ .nan → s.sensor.published = some (p.scaled rawValue)) := by
  have hignores : p.ignores s.sensor rawValue = true ↔ _ := PSUSensor.ignores_iff hfilter
  rw [Handles, hignores, zerosBefore_eq_zero_iff, and_congr_right_iff]
  refine and_congr_right' ?_
  rw [← Bool.not_eq_true, hignores, not_and_not_right]
  refine imp_congr_right fun hnot => ?_
  have hfalse : p.ignores s.sensor rawValue = false := by
    rw [← Bool.not_eq_true, hignores, not_and_not_right]
    exact hnot
  rw [sensor_step_of_not_ignores hfalse, Readout.published_updateValue_iff]
  exact and_iff_left rfl

theorem handles_iff_distinguishes (hfilter : p.filterZero = true) (hs : s.Stands p) :
    s.Handles p rawValue ↔ s.Distinguishes p rawValue := by
  rw [handles_iff hfilter, Distinguishes]
  cases hs with
  | fresh hread hvalue hpublished =>
    have hzeros : zerosBefore s.readings = 0 := by simp [hread, zerosBefore]
    have hnone : s.readings.head? = none := by simp [hread]
    simp only [hzeros, hvalue, hnone]
    constructor
    · intro _ _ last hlast
      exact absurd hlast (by simp)
    · exact fun _ => ⟨fun _ => by simp, fun _ hnan hne => absurd hnan hne⟩
  | shown last hlast hzero hvalue hpublished =>
    have hzeros : zerosBefore s.readings = 0 := by
      rw [zerosBefore_eq_zero_iff, hlast]
      simpa using hzero
    simp only [hzeros, hvalue, hpublished, hlast, iff_true, Option.some.injEq, forall_eq']
    exact and_iff_left fun _ h _ => h.symm
  | ignored hzeros hvalue hpublished =>
    simp only [hzeros, hvalue]
    constructor
    · rintro ⟨-, h⟩ hscaled
      have hzero := h (fun _ => trivial) hscaled (by simp [hscaled])
      exact hpublished (hscaled ▸ hzero)
    · exact fun h => ⟨fun _ => by simp, fun _ hscaled => absurd hscaled h⟩
  | repeated n hzeros hvalue hne hpublished =>
    simp only [hzeros, hvalue, hpublished, Option.some.injEq]
    constructor
    · rintro ⟨hzero, -⟩ rfl
      exact absurd ((hzero rfl).mp hne) (by omega)
    · exact fun h => ⟨fun hzero => absurd hzero h, fun _ heq _ => heq.symm⟩

/-- A reading that is handled leaves the sensor at the place for what has been read. -/
theorem Stands.step (hfilter : p.filterZero = true) (hs : s.Stands p)
    (h : s.Handles p rawValue) : (s.step p rawValue).Stands p := by
  have hignores : p.ignores s.sensor rawValue = true ↔ _ := PSUSensor.ignores_iff hfilter
  cases hig : p.ignores s.sensor rawValue with
  | true =>
    obtain ⟨rfl, hvalue⟩ := hignores.mp hig
    have hzeros : zerosBefore s.readings = 0 := zerosBefore_eq_zero_iff.mpr (h.1.mp hig).2
    have hsensor := sensor_step_of_ignores hig
    refine .ignored ?_ (by rw [hsensor]) ?_
    · rw [step, zerosBefore_cons, if_pos rfl, hzeros]
    · rw [hsensor]
      cases hs with
      | fresh _ _ hpublished => simp [hpublished]
      | shown last _ _ hlast hpublished => simpa [hpublished, hlast] using hvalue
      | ignored hone => omega
      | repeated n hmore => omega
  | false =>
    obtain ⟨hpublished, -⟩ := h.2 hig
    have hsensor := sensor_step_of_not_ignores hig
    have hvalue : (s.step p rawValue).sensor.value = p.scaled rawValue := by
      rw [hsensor]
      rfl
    by_cases hzero : rawValue = .num 0
    · subst hzero
      -- there was a zero before, as this one is not ignored
      obtain ⟨n, hn⟩ : ∃ n, zerosBefore s.readings = n + 1 := by
        refine Nat.exists_eq_succ_of_ne_zero fun hnone => ?_
        have := h.1.mpr ⟨rfl, zerosBefore_eq_zero_iff.mp hnone⟩
        simp [hig] at this
      refine .repeated n ?_ hvalue ?_ hpublished
      · rw [step, zerosBefore_cons, if_pos rfl, hn]
      · cases hs with
        | fresh hread => simp [hread, zerosBefore] at hn
        | shown last hlast hne =>
          have hnone : zerosBefore s.readings = 0 :=
            zerosBefore_eq_zero_iff.mpr (by simpa [hlast] using hne)
          omega
        | ignored _ hbefore hnot =>
          intro hscaled
          rw [hsensor, Readout.published_updateValue_iff, hscaled] at hpublished
          exact hnot (hpublished hbefore.symm (by simp))
        | repeated _ _ _ hne => exact hne
    · exact .shown rawValue rfl hzero hvalue hpublished

/-! ### Runs -/

theorem stands_start : (start : Polled α).Stands p := .fresh rfl rfl rfl

/-- All readings of a filtered sensor are handled if and only if no zero is confused. -/
theorem guarded_handles_iff (hfilter : p.filterZero = true) (rawValues : List (Double α)) :
    Guarded (step p) (Handles p) start rawValues ↔
      Guarded (step p) (Distinguishes p) start rawValues :=
  guarded_congr (I := fun s => s.Stands p)
    (fun _ _ hs h => hs.step hfilter ((handles_iff_distinguishes hfilter hs).mpr h))
    (fun _ _ hs => handles_iff_distinguishes hfilter hs) stands_start

end Polled

end Sensor

/-! ### Rational values -/

namespace Double

/-- An operation on numbers, of which NaN makes NaN. -/
def map₂ {α : Type*} (f : α → α → Double α) : Double α → Double α → Double α
  | .num x, .num y => f x y
  | _, _ => .nan

instance : Add (Double ℚ) := ⟨map₂ fun x y => .num (x + y)⟩

instance : Div (Double ℚ) := ⟨map₂ fun x y => if y = 0 then .nan else .num (x / y)⟩

end Double

namespace Polled

instance {α : Type*} [DecidableEq α] [Zero α] [Add (Double α)] [Div (Double α)] (p : PSUSensor α)
    (s : Polled α) (rawValue : Double α) : Decidable (s.Handles p rawValue) :=
  inferInstanceAs (Decidable (_ ∧ _))

/-- The temperature of a voltage regulator, in thousandths. -/
def vrTemperature : PSUSensor ℚ := .construct "temperature" "CPU1_VCCIN_VR_Temp" (.num 1000) (.num 0)

/-- One zero between other readings is ignored. -/
theorem guarded_handles_single : Guarded (step vrTemperature) (Handles vrTemperature) start
    [.num 30000, .num 0, .num 31000] :=
  have hlast : ∀ last, [Double.num 30000].head? = some last →
      vrTemperature.scaled last ≠ .num 0 := by
    rintro _ ⟨⟩
    decide +kernel
  have hscaled : vrTemperature.scaled (.num 31000) ≠ .num 0 := by decide +kernel
  (guarded_handles_iff (by decide +kernel) _).mpr ⟨fun _ => nofun, fun _ => hlast, hscaled, trivial⟩

/-- The second zero is not published. -/
theorem not_guarded_handles : ¬ Guarded (step vrTemperature) (Handles vrTemperature) start
    [.num 30000, .num 0, .num 0] := by
  decide +kernel

end Polled

end MetaCommon.DbusSensors
