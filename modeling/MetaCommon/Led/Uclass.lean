import Mathlib.Data.List.Basic
import Mathlib.Data.Int.Notation
import Mathlib.Tactic.Common

/-!
# The LEDs of U-Boot

Every 10 ms the timer calls `led_blink_update`, which goes through the LEDs and lets the driver of
each blinking one count the tick. The GPIO driver keeps the period of its LED in ticks.
-/

namespace MetaCommon.Led

def ledBlinkUpdateTickMs : ℕ := 10

def ledBlinkPeriodDefaultMs : ℕ := 500

def eRemoteIo : ℤ := 121

def eNoEnt : ℤ := 2

inductive LedState
  | off
  | on
  | toggle
  | blink
deriving DecidableEq

/-- The pin of an LED. One that is not valid can be neither read nor written. -/
structure GpioDesc where
  valid : Bool
  value : Bool
deriving DecidableEq

namespace GpioDesc

variable (gpio : GpioDesc)

def dmGpioGetValue : ℤ := if gpio.valid then gpio.value.toInt else -eNoEnt

def dmGpioSetValue (value : Bool) : ℤ × GpioDesc :=
  if gpio.valid then (0, { gpio with value }) else (-eNoEnt, gpio)

end GpioDesc

structure LedGpioPriv where
  gpio : GpioDesc
  period : ℕ
  periodTickCount : ℕ
  state : LedState
deriving DecidableEq

namespace LedGpioPriv

variable (priv : LedGpioPriv)

def gpioLedSetPeriod (periodMs : ℤ) : LedGpioPriv :=
  let periodMs : ℤ :=
    if periodMs < ledBlinkUpdateTickMs then ledBlinkPeriodDefaultMs else periodMs
  let period := (periodMs / ledBlinkUpdateTickMs).toNat
  { priv with period, periodTickCount := period }

def gpioLedUpdateBlink : LedGpioPriv :=
  if priv.periodTickCount ≠ 0 then { priv with periodTickCount := priv.periodTickCount - 1 }
  else
    let ret := priv.gpio.dmGpioGetValue
    let gpio := if ret ≥ 0 then (priv.gpio.dmGpioSetValue (ret == 0)).2 else priv.gpio
    { priv with gpio, periodTickCount := priv.period }

/-- The last part of `gpio_led_set_state`, with a state other than `LEDST_TOGGLE`. -/
def enterState (state : LedState) : ℤ × LedGpioPriv :=
  let priv := { priv with state }
  if priv.state = .blink then
    let priv := if priv.period < ledBlinkUpdateTickMs then
        { priv with
          period := ledBlinkPeriodDefaultMs / ledBlinkUpdateTickMs
          periodTickCount := ledBlinkPeriodDefaultMs / ledBlinkUpdateTickMs }
      else priv
    let r := priv.gpio.dmGpioSetValue true
    (r.1, { priv with gpio := r.2 })
  else
    let r := priv.gpio.dmGpioSetValue (state == .on)
    (r.1, { priv with gpio := r.2 })

def gpioLedSetState (state : LedState) : ℤ × LedGpioPriv :=
  if priv.gpio.valid then
    match state with
    | .toggle =>
      let ret := priv.gpio.dmGpioGetValue
      if ret < 0 then (ret, priv) else priv.enterState (if ret = 0 then .on else .off)
    | state => priv.enterState state
  else (-eRemoteIo, priv)

/-- `none` stands for a negative error number. -/
def gpioLedGetState : Option LedState :=
  if priv.gpio.valid then
    if priv.state = .blink then some .blink
    else
      let ret := priv.gpio.dmGpioGetValue
      if ret < 0 then none else some (if ret = 0 then .off else .on)
  else none

end LedGpioPriv

structure Udevice where
  active : Bool
  priv : LedGpioPriv
deriving DecidableEq

namespace Udevice

variable (dev : Udevice)

/-- What `led_get_by_label` does to the device it finds: the first time it is probed, with zeroed
private data and its pin as an output. -/
def probe : Udevice :=
  if dev.active then dev
  else { active := true, priv := ⟨{ dev.priv.gpio with value := false }, 0, 0, .off⟩ }

def ledSetPeriod (periodMs : ℤ) : Udevice :=
  { dev with priv := dev.priv.gpioLedSetPeriod periodMs }

def ledSetState (state : LedState) : ℤ × Udevice :=
  let r := dev.priv.gpioLedSetState state
  (r.1, { dev with priv := r.2 })

def ledUpdateBlink : Udevice :=
  if dev.active ∧ dev.priv.gpioLedGetState = some .blink then
    { dev with priv := dev.priv.gpioLedUpdateBlink }
  else dev

end Udevice

/-- The static `blink_enable` and the devices of `UCLASS_LED`. -/
structure LedUclass where
  blinkEnable : Bool
  leds : List Udevice
deriving DecidableEq

/-- The callers of `led_set_period` and `led_set_state` get the device by its label just before. -/
inductive Event
  | setPeriod (led : ℕ) (periodMs : ℤ)
  | setState (led : ℕ) (state : LedState)
  | ledBlinkEnable
  | ledBlinkDisable
  | timer
deriving DecidableEq

namespace LedUclass

variable (s : LedUclass)

def ledBlinkUpdate : LedUclass :=
  if s.blinkEnable then { s with leds := s.leds.map Udevice.ledUpdateBlink } else s

def step : Event → LedUclass
  | .setPeriod led periodMs => { s with leds := s.leds.modify led (·.probe.ledSetPeriod periodMs) }
  | .setState led state => { s with leds := s.leds.modify led (·.probe.ledSetState state |>.2) }
  | .ledBlinkEnable => { s with blinkEnable := true }
  | .ledBlinkDisable => { s with blinkEnable := false }
  | .timer => s.ledBlinkUpdate

end LedUclass

end MetaCommon.Led
