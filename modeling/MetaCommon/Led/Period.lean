import Mathlib.Data.Nat.Bits
import Mathlib.Logic.Function.Iterate
import MetaCommon.Led.Uclass
import MetaCommon.Lib.Runs

/-!
# The period of a blinking LED

The tick count goes from the period down to zero and the pin is turned over at the tick that finds
it at zero, so there is one tick more between two turns than the period says. The start of a
blink compares a period in ticks with the length of a tick in milliseconds, and puts the default in
the place of a period of fewer than ten ticks.
-/

namespace MetaCommon.Led

open Runs

/-! ### One LED -/

/-- The ticks of a period that has been set, which is the default where it is less than a tick. -/
def ticksOf (periodMs : ℤ) : ℕ := if periodMs < 10 then 50 else (periodMs / 10).toNat

theorem ticksOf_pos (periodMs : ℤ) : 0 < ticksOf periodMs := by
  unfold ticksOf
  split_ifs <;> omega

namespace LedGpioPriv

variable (priv : LedGpioPriv)

theorem gpioLedSetPeriod_eq (periodMs : ℤ) :
    priv.gpioLedSetPeriod periodMs =
      { priv with period := ticksOf periodMs, periodTickCount := ticksOf periodMs } := by
  unfold gpioLedSetPeriod ticksOf ledBlinkUpdateTickMs ledBlinkPeriodDefaultMs
  by_cases h : periodMs < 10 <;> simp [h]

def Blinks : Prop := priv.gpio.valid = true ∧ priv.state = .blink

instance : Decidable priv.Blinks := inferInstanceAs (Decidable (_ ∧ _))

theorem gpioLedGetState_eq_blink_iff : priv.gpioLedGetState = some .blink ↔ priv.Blinks := by
  unfold gpioLedGetState Blinks
  by_cases hvalid : priv.gpio.valid = true
  · by_cases hstate : priv.state = .blink
    · simp [hvalid, hstate]
    · rw [if_pos hvalid, if_neg hstate]
      dsimp only
      split_ifs <;> simp [hstate]
  · simp [hvalid]

/-- The tick of an LED whose pin is valid. -/
theorem gpioLedUpdateBlink_eq (h : priv.gpio.valid = true) :
    priv.gpioLedUpdateBlink =
      if priv.periodTickCount = 0 then
        { priv with
          gpio := { priv.gpio with value := !priv.gpio.value }
          periodTickCount := priv.period }
      else { priv with periodTickCount := priv.periodTickCount - 1 } := by
  unfold gpioLedUpdateBlink GpioDesc.dmGpioGetValue GpioDesc.dmGpioSetValue
  cases priv.gpio.value <;> simp [h]

/-- The period and the count that a blink starts with. -/
def startPeriod : ℕ × ℕ :=
  if priv.period < 10 then (50, 50) else (priv.period, priv.periodTickCount)

theorem gpioLedSetState_of_not_valid (h : priv.gpio.valid = false) (state : LedState) :
    priv.gpioLedSetState state = (-eRemoteIo, priv) := by
  simp [gpioLedSetState, h]

theorem gpioLedSetState_blink (h : priv.gpio.valid = true) :
    priv.gpioLedSetState .blink =
      (0, { gpio := { priv.gpio with value := true }, period := priv.startPeriod.1,
            periodTickCount := priv.startPeriod.2, state := .blink }) := by
  by_cases hlt : priv.period < 10 <;>
    simp [gpioLedSetState, enterState, startPeriod, GpioDesc.dmGpioSetValue, h, hlt,
      ledBlinkUpdateTickMs, ledBlinkPeriodDefaultMs]

/-- Any other state stops the blinking and leaves period and count as they are. -/
theorem gpioLedSetState_of_ne_blink (h : priv.gpio.valid = true) {state : LedState}
    (hstate : state ≠ .blink) :
    ∃ value st, st ≠ .blink ∧ priv.gpioLedSetState state =
      (0, { priv with gpio := { priv.gpio with value }, state := st }) := by
  have henter : ∀ st : LedState, st ≠ .blink → priv.enterState st =
      (0, { priv with gpio := { priv.gpio with value := st == .on }, state := st }) := by
    intro st hst
    simp [enterState, GpioDesc.dmGpioSetValue, h, hst]
  have hget : ¬ priv.gpio.dmGpioGetValue < 0 := by
    unfold GpioDesc.dmGpioGetValue
    cases priv.gpio.value <;> simp [h]
  cases state with
  | off => exact ⟨_, _, hstate, by rw [← henter .off hstate]; simp [gpioLedSetState, h]⟩
  | on => exact ⟨_, _, hstate, by rw [← henter .on hstate]; simp [gpioLedSetState, h]⟩
  | toggle =>
    have hst : (if priv.gpio.dmGpioGetValue = 0 then LedState.on else .off) ≠ .blink := by
      split_ifs <;> decide
    exact ⟨_, _, hst, by rw [← henter _ hst]; simp [gpioLedSetState, h, hget]⟩
  | blink => exact absurd rfl hstate

end LedGpioPriv

/-! ### What an observer of one LED expects -/

/-- The period in force, in ticks, which is `none` before the first one, the ticks that the LED has
blinked since it came into force, and whether a blink has been started and not been ended. -/
structure Watch where
  period : Option ℕ
  ticks : ℕ
  blinking : Bool
deriving DecidableEq

def Watch.init : Watch := ⟨none, 0, false⟩

/-- A blink without a period set before brings the default period of 50 ticks. -/
def Watch.startBlink (w : Watch) : Watch :=
  match w.period with
  | some period => ⟨some period, w.ticks, true⟩
  | none => ⟨some 50, 0, true⟩

/-- The LEDs with what the observer of LED `i` has seen. -/
structure Watched where
  uclass : LedUclass
  watch : Watch
deriving DecidableEq

namespace Watched

/-- The observer sees the calls for its LED and the ticks that are let through. -/
def observe (s : Watched) (i : ℕ) : Event → Watch
  | .setPeriod led periodMs =>
    if led = i then { s.watch with period := some (ticksOf periodMs), ticks := 0 } else s.watch
  | .setState led state =>
    if led = i ∧ (s.uclass.leds[i]?.map fun dev => (dev.probe.ledSetState state).1) = some 0 then
      if state = .blink then s.watch.startBlink else { s.watch with blinking := false }
    else s.watch
  | .timer =>
    if s.watch.blinking ∧ s.uclass.blinkEnable then { s.watch with ticks := s.watch.ticks + 1 }
    else s.watch
  | .ledBlinkEnable => s.watch
  | .ledBlinkDisable => s.watch

def step (i : ℕ) (s : Watched) (e : Event) : Watched :=
  ⟨s.uclass.step e, s.observe i e⟩

def priv? (s : Watched) (i : ℕ) : Option LedGpioPriv := (s.uclass.leds[i]?).map Udevice.priv

/-- The LED is due to be turned over at the next tick. -/
def Due (s : Watched) : Prop :=
  s.watch.blinking = true ∧ s.uclass.blinkEnable = true ∧
    ∃ period, s.watch.period = some period ∧ (s.watch.ticks + 1) % period = 0

/-- What a step ought to do: a tick turns the output over exactly if it is due, and the start of a
blink leaves a period that is in force. -/
structure Sound (i : ℕ) (s : Watched) (e : Event) : Prop where
  toggles : e = .timer → ∀ priv ∈ s.priv? i, ∀ priv' ∈ (s.step i e).priv? i,
    (priv'.gpio.value ≠ priv.gpio.value ↔ s.Due)
  keeps : e = .setState i .blink → ∀ period ∈ s.watch.period, ∀ priv' ∈ (s.step i e).priv? i,
    priv'.period = period

/-- A blinking LED gets fewer ticks than its period has before the next period is set, and no blink
is started with a period in force that is shorter than ten ticks. -/
def Fits (i : ℕ) (s : Watched) : Event → Prop
  | .timer => s.watch.blinking = true → s.uclass.blinkEnable = true →
      ∀ period ∈ s.watch.period, s.watch.ticks + 1 < period
  | .setState led state => led = i → state = .blink → ∀ dev ∈ s.uclass.leds[i]?,
      dev.priv.gpio.valid = true → ∀ period ∈ s.watch.period, 10 ≤ period
  | _ => True

instance (i : ℕ) (s : Watched) : ∀ e, Decidable (Fits i s e)
  | .timer => inferInstanceAs (Decidable (_ → _ → ∀ period ∈ s.watch.period, _))
  | .setState _ _ => inferInstanceAs (Decidable (_ → _ → ∀ dev ∈ s.uclass.leds[i]?, _ →
      ∀ period ∈ s.watch.period, _))
  | .setPeriod _ _ => inferInstanceAs (Decidable True)
  | .ledBlinkEnable => inferInstanceAs (Decidable True)
  | .ledBlinkDisable => inferInstanceAs (Decidable True)

end Watched

/-! ### One step seen from one LED -/

namespace Udevice

/-- What an event does to LED `i`. -/
def event (enabled : Bool) (i : ℕ) (dev : Udevice) : Event → Udevice
  | .setPeriod led periodMs => if led = i then dev.probe.ledSetPeriod periodMs else dev
  | .setState led state => if led = i then (dev.probe.ledSetState state).2 else dev
  | .timer => if enabled then dev.ledUpdateBlink else dev
  | .ledBlinkEnable => dev
  | .ledBlinkDisable => dev

variable (dev : Udevice)

@[simp] theorem probe_active : dev.probe.active = true := by
  unfold probe
  split_ifs with h
  · exact h
  · rfl

@[simp] theorem probe_valid : dev.probe.priv.gpio.valid = dev.priv.gpio.valid := by
  unfold probe
  split_ifs <;> rfl

theorem probe_of_active (h : dev.active = true) : dev.probe = dev := if_pos h

end Udevice

theorem LedUclass.getElem?_step (s : LedUclass) (i : ℕ) (e : Event) :
    (s.step e).leds[i]? = s.leds[i]?.map fun dev => dev.event s.blinkEnable i e := by
  cases e with
  | setPeriod led periodMs =>
    by_cases h : led = i <;> simp [step, Udevice.event, h]
  | setState led state =>
    by_cases h : led = i <;> simp [step, Udevice.event, h]
  | timer =>
    by_cases h : s.blinkEnable = true <;> simp [step, ledBlinkUpdate, Udevice.event, h]
  | ledBlinkEnable => simp [step, Udevice.event]
  | ledBlinkDisable => simp [step, Udevice.event]

namespace Watched

/-- The driver's data of a LED agree with what its observer has seen. -/
structure Agrees (w : Watch) (dev : Udevice) : Prop where
  blinking : w.blinking = true ↔ dev.active = true ∧ dev.priv.Blinks
  none : w.period = none → w.blinking = false ∧ (dev.active = true → dev.priv.period = 0)
  some : ∀ period ∈ w.period, dev.active = true ∧ dev.priv.period = period ∧ w.ticks < period ∧
    dev.priv.periodTickCount + w.ticks = period

namespace Agrees

variable {w : Watch} {dev : Udevice}

theorem period_eq_none (h : Agrees w dev) (hactive : dev.active = false) : w.period = .none := by
  cases hw : w.period with
  | none => rfl
  | some period =>
    have hon := (h.some period hw).1
    rw [hactive] at hon
    cases hon

theorem probe (h : Agrees w dev) : Agrees w dev.probe := by
  cases hactive : dev.active with
  | true => rwa [dev.probe_of_active hactive]
  | false =>
    have hperiod := h.period_eq_none hactive
    have hprobe : dev.probe =
        ⟨true, ⟨⟨dev.priv.gpio.valid, false⟩, 0, 0, .off⟩⟩ := by simp [Udevice.probe, hactive]
    rw [hprobe]
    refine ⟨?_, fun _ => ⟨(h.none hperiod).1, fun _ => rfl⟩, fun period hmem => ?_⟩
    · simp [(h.none hperiod).1, LedGpioPriv.Blinks]
    · rw [hperiod] at hmem
      cases hmem

theorem setPeriod (h : Agrees w dev) (hactive : dev.active = true) (periodMs : ℤ) :
    Agrees { w with period := .some (ticksOf periodMs), ticks := 0 } (dev.ledSetPeriod periodMs) := by
  unfold Udevice.ledSetPeriod
  rw [LedGpioPriv.gpioLedSetPeriod_eq]
  refine ⟨h.blinking, fun hnone => ?_, fun period hmem => ?_⟩
  · cases hnone
  · obtain rfl : ticksOf periodMs = period := Option.some.inj hmem
    exact ⟨hactive, rfl, ticksOf_pos periodMs, rfl⟩

theorem setState_blink (h : Agrees w dev) (hactive : dev.active = true)
    (hvalid : dev.priv.gpio.valid = true) (hlong : ∀ period ∈ w.period, 10 ≤ period) :
    Agrees w.startBlink (dev.ledSetState .blink).2 := by
  unfold Udevice.ledSetState Watch.startBlink
  rw [LedGpioPriv.gpioLedSetState_blink _ hvalid]
  cases hw : w.period with
  | none =>
    have hstart : dev.priv.startPeriod = (50, 50) := by
      simp [LedGpioPriv.startPeriod, (h.none hw).2 hactive]
    rw [hstart]
    refine ⟨?_, fun hnone => ?_, fun period hmem => ?_⟩
    · simp [hactive, hvalid, LedGpioPriv.Blinks]
    · cases hnone
    · obtain rfl : 50 = period := Option.some.inj hmem
      exact ⟨hactive, rfl, Nat.succ_pos 49, rfl⟩
  | some period =>
    obtain ⟨-, hperiod, hlt, hcount⟩ := h.some period hw
    have hstart : dev.priv.startPeriod = (dev.priv.period, dev.priv.periodTickCount) := by
      rw [LedGpioPriv.startPeriod, if_neg]
      rw [hperiod]
      exact Nat.not_lt_of_le (hlong period hw)
    rw [hstart]
    refine ⟨?_, fun hnone => ?_, fun period' hmem => ?_⟩
    · simp [hactive, hvalid, LedGpioPriv.Blinks]
    · cases hnone
    · obtain rfl : period = period' := Option.some.inj hmem
      exact ⟨hactive, hperiod, hlt, hcount⟩

theorem setState_of_ne_blink (h : Agrees w dev) (hvalid : dev.priv.gpio.valid = true)
    {state : LedState} (hstate : state ≠ .blink) :
    Agrees { w with blinking := false } (dev.ledSetState state).2 := by
  obtain ⟨value, st, hst, heq⟩ := dev.priv.gpioLedSetState_of_ne_blink hvalid hstate
  unfold Udevice.ledSetState
  rw [heq]
  refine ⟨?_, fun hnone => ⟨rfl, (h.none hnone).2⟩, h.some⟩
  simp [LedGpioPriv.Blinks, hst]

theorem count_ne_zero (h : Agrees w dev) (hblinking : w.blinking = true) :
    dev.priv.periodTickCount ≠ 0 := by
  cases hw : w.period with
  | none =>
    rw [(h.none hw).1] at hblinking
    cases hblinking
  | some period =>
    obtain ⟨-, -, hlt, hcount⟩ := h.some period hw
    omega

/-- As long as the observer has seen fewer ticks than the period has, a tick counts down. -/
theorem ledUpdateBlink_eq (h : Agrees w dev) (hblinking : w.blinking = true) :
    dev.ledUpdateBlink =
      { dev with priv := { dev.priv with periodTickCount := dev.priv.periodTickCount - 1 } } := by
  obtain ⟨hactive, hblinks⟩ := h.blinking.mp hblinking
  unfold Udevice.ledUpdateBlink
  rw [if_pos ⟨hactive, dev.priv.gpioLedGetState_eq_blink_iff.mpr hblinks⟩,
    LedGpioPriv.gpioLedUpdateBlink_eq _ hblinks.1, if_neg (h.count_ne_zero hblinking)]

theorem tick (h : Agrees w dev) (hblinking : w.blinking = true)
    (hfew : ∀ period ∈ w.period, w.ticks + 1 < period) :
    Agrees { w with ticks := w.ticks + 1 } dev.ledUpdateBlink := by
  have hne := h.count_ne_zero hblinking
  rw [h.ledUpdateBlink_eq hblinking]
  refine ⟨h.blinking, h.none, fun period hmem => ?_⟩
  obtain ⟨hactive, hperiod, -, hcount⟩ := h.some period hmem
  refine ⟨hactive, hperiod, hfew period hmem, ?_⟩
  dsimp only
  omega

end Agrees

theorem ledUpdateBlink_of_not_blinking {w : Watch} {dev : Udevice} (h : Agrees w dev)
    (hblinking : w.blinking ≠ true) : dev.ledUpdateBlink = dev :=
  if_neg fun hon => hblinking (h.blinking.mpr
    ⟨hon.1, dev.priv.gpioLedGetState_eq_blink_iff.mp hon.2⟩)

def Inv (i : ℕ) (s : Watched) : Prop :=
  match s.uclass.leds[i]? with
  | some dev => Agrees s.watch dev
  | none => s.watch.blinking = false

variable {i : ℕ} {s : Watched} {dev : Udevice}

theorem inv_iff_of_some (hdev : s.uclass.leds[i]? = some dev) :
    Inv i s ↔ Agrees s.watch dev := by
  unfold Inv
  rw [hdev]

theorem agrees_setState (h : Agrees s.watch dev) (hdev : s.uclass.leds[i]? = some dev)
    {state : LedState} (hfits : Fits i s (.setState i state)) :
    Agrees (s.observe i (.setState i state))
      (dev.event s.uclass.blinkEnable i (.setState i state)) := by
  unfold observe Udevice.event
  dsimp only
  rw [hdev, if_pos rfl, Option.map_some]
  cases hvalid : dev.probe.priv.gpio.valid with
  | false =>
    have hfail : dev.probe.ledSetState state = (-eRemoteIo, dev.probe) := by
      unfold Udevice.ledSetState
      rw [LedGpioPriv.gpioLedSetState_of_not_valid _ hvalid]
    rw [hfail, if_neg (by simp [eRemoteIo])]
    exact h.probe
  | true =>
    by_cases hstate : state = .blink
    · subst hstate
      have hok : (dev.probe.ledSetState .blink).1 = 0 := by
        unfold Udevice.ledSetState
        rw [LedGpioPriv.gpioLedSetState_blink _ hvalid]
      rw [if_pos ⟨rfl, congrArg some hok⟩, if_pos rfl]
      refine h.probe.setState_blink dev.probe_active hvalid ?_
      exact hfits rfl rfl dev hdev (dev.probe_valid ▸ hvalid)
    · have hok : (dev.probe.ledSetState state).1 = 0 := by
        obtain ⟨_, _, -, heq⟩ := dev.probe.priv.gpioLedSetState_of_ne_blink hvalid hstate
        unfold Udevice.ledSetState
        rw [heq]
      rw [if_pos ⟨rfl, congrArg some hok⟩, if_neg hstate]
      exact h.probe.setState_of_ne_blink hvalid hstate

theorem agrees_event (h : Agrees s.watch dev) (hdev : s.uclass.leds[i]? = some dev) (e : Event)
    (hfits : Fits i s e) : Agrees (s.observe i e) (dev.event s.uclass.blinkEnable i e) := by
  cases e with
  | setPeriod led periodMs =>
    unfold observe Udevice.event
    dsimp only
    by_cases hled : led = i
    · rw [if_pos hled, if_pos hled]
      exact h.probe.setPeriod dev.probe_active periodMs
    · rw [if_neg hled, if_neg hled]
      exact h
  | setState led state =>
    by_cases hled : led = i
    · subst hled
      exact agrees_setState h hdev hfits
    · unfold observe Udevice.event
      dsimp only
      rw [if_neg hled, if_neg fun hno => hled hno.1]
      exact h
  | timer =>
    unfold observe Udevice.event
    dsimp only
    by_cases henabled : s.uclass.blinkEnable = true
    · rw [if_pos henabled]
      by_cases hblinking : s.watch.blinking = true
      · rw [if_pos ⟨hblinking, henabled⟩]
        exact h.tick hblinking (hfits hblinking henabled)
      · rw [if_neg fun hno => hblinking hno.1, ledUpdateBlink_of_not_blinking h hblinking]
        exact h
    · rw [if_neg henabled, if_neg fun hno => henabled hno.2]
      exact h
  | ledBlinkEnable => exact h
  | ledBlinkDisable => exact h

theorem inv_step (hinv : Inv i s) {e : Event} (hfits : Fits i s e) : Inv i (s.step i e) := by
  cases hdev : s.uclass.leds[i]? with
  | some dev =>
    have hnext : (s.step i e).uclass.leds[i]? = some (dev.event s.uclass.blinkEnable i e) := by
      simp [step, LedUclass.getElem?_step, hdev]
    rw [inv_iff_of_some hdev] at hinv
    rw [inv_iff_of_some hnext]
    exact agrees_event hinv hdev e hfits
  | none =>
    have hoff : s.watch.blinking = false := by
      unfold Inv at hinv
      rwa [hdev] at hinv
    have hnext : (s.step i e).uclass.leds[i]? = none := by
      simp [step, LedUclass.getElem?_step, hdev]
    unfold Inv
    rw [hnext]
    cases e with
    | setPeriod led periodMs =>
      simp only [step, observe]
      split_ifs <;> exact hoff
    | setState led state => simp [step, observe, hdev, hoff]
    | timer => simp [step, observe, hoff]
    | ledBlinkEnable => exact hoff
    | ledBlinkDisable => exact hoff

theorem inv_init {u : LedUclass} (hfresh : ∀ dev ∈ u.leds, dev.active = false) :
    Inv i ⟨u, .init⟩ := by
  cases hdev : u.leds[i]? with
  | some dev =>
    have hoff : dev.active = false := hfresh dev (List.mem_of_getElem? hdev)
    rw [inv_iff_of_some (s := ⟨u, .init⟩) hdev]
    refine ⟨by simp [Watch.init, hoff], fun _ => ⟨rfl, fun hon => ?_⟩, fun period hmem => ?_⟩
    · rw [hoff] at hon
      cases hon
    · cases hmem
  | none =>
    unfold Inv
    rw [show (⟨u, .init⟩ : Watched).uclass.leds[i]? = none from hdev]
    rfl

theorem priv?_step (hdev : s.uclass.leds[i]? = some dev) (e : Event) :
    (s.step i e).priv? i = some (dev.event s.uclass.blinkEnable i e).priv := by
  simp [priv?, step, LedUclass.getElem?_step, hdev]

theorem priv?_of_some (hdev : s.uclass.leds[i]? = some dev) : s.priv? i = some dev.priv := by
  simp [priv?, hdev]

/-- A tick turns nothing over, so it is sound exactly if no turn is due. -/
theorem sound_timer_iff (h : Agrees s.watch dev) (hdev : s.uclass.leds[i]? = some dev) :
    Sound i s .timer ↔ Fits i s .timer := by
  have hsame : ((dev.event s.uclass.blinkEnable i .timer).priv.gpio.value ≠
      dev.priv.gpio.value) ↔ False := by
    unfold Udevice.event
    dsimp only
    by_cases henabled : s.uclass.blinkEnable = true
    · by_cases hblinking : s.watch.blinking = true
      · simp [henabled, h.ledUpdateBlink_eq hblinking]
      · simp [henabled, ledUpdateBlink_of_not_blinking h hblinking]
    · simp [henabled]
  have hsound : Sound i s .timer ↔ ¬ s.Due := by
    constructor
    · intro hs hdue
      have := hs.toggles rfl _ (priv?_of_some hdev) _ (priv?_step hdev .timer)
      exact hsame.mp (this.mpr hdue)
    · intro hdue
      refine ⟨fun _ priv hpriv priv' hpriv' => ?_, fun he => absurd he (by simp)⟩
      obtain rfl : dev.priv = priv := Option.some.inj ((priv?_of_some hdev).symm.trans hpriv)
      obtain rfl := Option.some.inj ((priv?_step hdev .timer).symm.trans hpriv')
      exact hsame.trans (iff_of_false id hdue)
  rw [hsound]
  constructor
  · intro hdue hblinking henabled period hmem
    have hlt := (h.some period hmem).2.2.1
    refine Nat.lt_of_le_of_ne hlt fun heq => hdue ⟨hblinking, henabled, period, hmem, ?_⟩
    rw [heq, Nat.mod_self]
  · rintro hfits ⟨hblinking, henabled, period, hmem, hmod⟩
    rw [Nat.mod_eq_of_lt (hfits hblinking henabled period hmem)] at hmod
    cases hmod

theorem sound_blink_iff (h : Agrees s.watch dev) (hdev : s.uclass.leds[i]? = some dev) :
    Sound i s (.setState i .blink) ↔ Fits i s (.setState i .blink) := by
  have hperiod : ∀ period ∈ s.watch.period,
      ((dev.event s.uclass.blinkEnable i (.setState i .blink)).priv.period = period ↔
        (dev.priv.gpio.valid = true → 10 ≤ period)) := by
    intro period hmem
    obtain ⟨hactive, hper, hlt, -⟩ := h.some period hmem
    unfold Udevice.event Udevice.ledSetState
    dsimp only
    rw [if_pos rfl, dev.probe_of_active hactive]
    cases hvalid : dev.priv.gpio.valid with
    | false =>
      rw [LedGpioPriv.gpioLedSetState_of_not_valid _ hvalid]
      simp [hper]
    | true =>
      rw [LedGpioPriv.gpioLedSetState_blink _ hvalid]
      unfold LedGpioPriv.startPeriod
      rw [hper]
      split_ifs with hshort
      · simp
        omega
      · simp
        omega
  constructor
  · intro hs _ _ dev' hdev' hvalid period hmem
    obtain rfl : dev = dev' := Option.some.inj (hdev.symm.trans hdev')
    exact (hperiod period hmem).mp (hs.keeps rfl period hmem _ (priv?_step hdev _)) hvalid
  · intro hfits
    refine ⟨fun he => absurd he (by simp), fun _ period hmem priv' hpriv' => ?_⟩
    obtain rfl := Option.some.inj ((priv?_step hdev (.setState i .blink)).symm.trans hpriv')
    exact (hperiod period hmem).mpr fun hvalid => hfits rfl rfl dev hdev hvalid period hmem

theorem sound_iff (hinv : Inv i s) (e : Event) : Sound i s e ↔ Fits i s e := by
  cases hdev : s.uclass.leds[i]? with
  | none =>
    have hnone : s.priv? i = none := by simp [priv?, hdev]
    have hnone' : (s.step i e).priv? i = none := by
      simp [priv?, step, LedUclass.getElem?_step, hdev]
    have hoff : s.watch.blinking = false := by
      unfold Inv at hinv
      rwa [hdev] at hinv
    refine iff_of_true ⟨?_, ?_⟩ ?_
    · simp [hnone]
    · simp [hnone']
    · cases e <;> simp [Fits, hoff, hdev]
  | some dev =>
    have h := (inv_iff_of_some hdev).mp hinv
    have hother : e ≠ .timer → e ≠ .setState i .blink → (Sound i s e ↔ Fits i s e) := by
      intro htimer hblink
      refine iff_of_true ⟨fun he => absurd he htimer, fun he => absurd he hblink⟩ ?_
      cases e with
      | setState led state =>
        rintro rfl rfl
        exact absurd rfl hblink
      | timer => exact absurd rfl htimer
      | setPeriod _ _ => trivial
      | ledBlinkEnable => trivial
      | ledBlinkDisable => trivial
    by_cases htimer : e = .timer
    · subst htimer
      exact sound_timer_iff h hdev
    · by_cases hblink : e = .setState i .blink
      · subst hblink
        exact sound_blink_iff h hdev
      · exact hother htimer hblink

/-- In a run that begins with no LED probed, the output of an LED is turned over as its period says
and no blink replaces its period, exactly if every blinking LED gets fewer ticks than its period has
before the next period is set and no blink is started with a period shorter than ten ticks. -/
theorem blinks_with_period_iff {u : LedUclass} (hfresh : ∀ dev ∈ u.leds, dev.active = false)
    (i : ℕ) (es : List Event) :
    Guarded (step i) (Sound i) ⟨u, .init⟩ es ↔ Guarded (step i) (Fits i) ⟨u, .init⟩ es :=
  guarded_congr (fun _ _ hinv hfits => inv_step hinv hfits) (fun _ e hinv => sound_iff hinv e)
    (inv_init hfresh)

/-- An LED that has not been probed. -/
def unprobed : Udevice := ⟨false, ⟨⟨true, false⟩, 0, 0, .off⟩⟩

/-- The id LED with its period of 160 ms blinks for 15 ticks. -/
theorem blinks_with_period_id :
    Guarded (step 0) (Sound 0) ⟨⟨true, [unprobed]⟩, .init⟩
      ([.setPeriod 0 160, .setState 0 .blink] ++ List.replicate 15 .timer) :=
  (blinks_with_period_iff (by decide) 0 _).mpr (by decide)

/-- With a period of 100 ms the tenth tick does not turn the output over. -/
theorem tenth_tick_turns_nothing :
    ¬ Guarded (step 0) (Sound 0) ⟨⟨true, [unprobed]⟩, .init⟩
      ([.setPeriod 0 100, .setState 0 .blink] ++ List.replicate 9 .timer ++ [.timer]) := by
  intro hg
  have hsound := ((guarded_append _ _ _).mp hg).2.1
  have hsame := hsound.toggles rfl ⟨⟨true, true⟩, 10, 1, .blink⟩ (by decide)
    ⟨⟨true, true⟩, 10, 0, .blink⟩ (by decide)
  exact hsame.mpr ⟨by decide, by decide, 10, by decide, by decide⟩ rfl

end Watched

end MetaCommon.Led
