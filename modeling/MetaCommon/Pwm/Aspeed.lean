import Mathlib.Logic.Function.Iterate
import Mathlib.Tactic.Common
import MetaCommon.Lib.RegisterFields

/-!
# The PWM driver of the AST2600 in U-Boot

`aspeed_pwm_set_config` looks for the two dividers of the clock, with the low one as the outer loop
and the high one as the inner loop, until 255 ticks of the divided clock reach the period. All of
its arithmetic is in 32 bits and the dividers count in 8, so the search is a machine whose step is
one test or one pass of a loop.
-/

namespace MetaCommon.Pwm

open RegisterFields

def nsecPerSec : UInt32 := 1000000000

def pwmPeriodMax : UInt32 := 255

def eRange : Int := 34

def pwmClkDivH : Field := { high := 11, low := 8 }
def pwmClkDivL : Field := { high := 7, low := 0 }
def pwmPeriod : Field := { high := 31, low := 24 }
def pwmRisingPoint : Field := { high := 15, low := 8 }
def pwmFallingPoint : Field := { high := 7, low := 0 }

def aspeedPwmCtrlCh (x : UInt32) : UInt32 := x * 0x10 + 0x00

def aspeedPwmDutyCycleCh (x : UInt32) : UInt32 := x * 0x10 + 0x04

structure AspeedPwmPriv where
  clkFreq : UInt32
  clkTickNs : UInt32
deriving DecidableEq

/-- The clock part of `aspeed_pwm_probe`. A rate of zero is a division by zero. -/
def aspeedPwmProbe (rate : UInt32) : Option AspeedPwmPriv :=
  if rate = 0 then none else some ⟨rate, nsecPerSec / rate⟩

/-! ### The search for the dividers -/

structure Locals where
  divL : UInt8
  divH : UInt8
  tickNs : UInt32
deriving DecidableEq

/-- Where the search stands: at the test of the outer loop, at the test of the inner loop, at the
test that follows the inner loop, or behind both loops. -/
inductive Search
  | outer (v : Locals)
  | inner (v : Locals)
  | leaving (v : Locals)
  | done (v : Locals)
deriving DecidableEq

def tickOf (clkTickNs : UInt32) (v : Locals) : UInt32 :=
  clkTickNs * ((1 : UInt32) <<< v.divH.toUInt32) * (v.divL.toUInt32 + 1)

def searchStep (clkTickNs periodNs : UInt32) : Search → Search
  | .outer v => if v.divL ≤ 0xff then .inner { v with divH := 0 } else .done v
  | .inner v =>
    if v.divH ≤ 0xf then
      let v := { v with tickNs := tickOf clkTickNs v }
      if v.tickNs * pwmPeriodMax ≥ periodNs then .leaving v
      else .inner { v with divH := v.divH + 1 }
    else .leaving v
  | .leaving v =>
    if v.tickNs * pwmPeriodMax ≥ periodNs then .done v else .outer { v with divL := v.divL + 1 }
  | .done v => .done v

/-- The search after `n` steps, from anything in the locals. -/
def searchRun (clkTickNs periodNs : UInt32) (v : Locals) (n : ℕ) : Search :=
  (searchStep clkTickNs periodNs)^[n] (.outer { v with divL := 0 })

/-- The products that the next step forms fit into 32 bits, and the counters it counts up into
8 bits. -/
def NoOverflow (clkTickNs : UInt32) : Search → Prop
  | .outer _ => True
  | .inner v => v.divH ≤ 0xf →
      clkTickNs.toNat * 2 ^ v.divH.toNat < 2 ^ 32 ∧
      clkTickNs.toNat * 2 ^ v.divH.toNat * (v.divL.toNat + 1) < 2 ^ 32 ∧
      clkTickNs.toNat * 2 ^ v.divH.toNat * (v.divL.toNat + 1) * 255 < 2 ^ 32 ∧
      v.divH.toNat + 1 < 2 ^ 8
  | .leaving v => v.tickNs.toNat * 255 < 2 ^ 32 ∧ v.divL.toNat + 1 < 2 ^ 8
  | .done _ => True

/-! ### Programming a channel -/

abbrev Regs := UInt32 → BitVec 32

def clrsetbitsLe32 (regs : Regs) (offset : UInt32) (clear set : BitVec 32) : Regs :=
  Function.update regs offset ((regs offset &&& ~~~clear) ||| set)

def ofU8 (v : UInt8) : BitVec 32 := v.toUInt32.toBitVec

/-- `aspeed_pwm_set_config` behind the search. A tick of zero is a division by zero. -/
def program (regs : Regs) (channel periodNs dutyNs : UInt32) (v : Locals) : Option (Int × Regs) :=
  if v.tickNs = 0 then none
  else if periodNs / v.tickNs > pwmPeriodMax then some (-eRange, regs)
  else
    let ctrlValue := fieldPrep pwmClkDivH (ofU8 v.divH) ||| fieldPrep pwmClkDivL (ofU8 v.divL)
    let periodValue := (periodNs / v.tickNs).toUInt8
    let fallingPoint : UInt8 := 0
    let risingPoint := (dutyNs / v.tickNs).toUInt8
    let dutyValue := fieldPrep pwmPeriod (ofU8 periodValue) |||
      fieldPrep pwmRisingPoint (ofU8 risingPoint) ||| fieldPrep pwmFallingPoint (ofU8 fallingPoint)
    let regs := clrsetbitsLe32 regs (aspeedPwmDutyCycleCh channel)
      (pwmPeriod.mask ||| pwmRisingPoint.mask ||| pwmFallingPoint.mask) dutyValue
    let regs := clrsetbitsLe32 regs (aspeedPwmCtrlCh channel) (pwmClkDivH.mask ||| pwmClkDivL.mask)
      ctrlValue
    some (0, regs)

/-- The return value and the registers afterwards, or `none` where the search has not come to its
end within `fuel` steps or the code divides by zero. -/
def aspeedPwmSetConfig (priv : AspeedPwmPriv) (regs : Regs) (channel periodNs dutyNs : UInt32)
    (v : Locals) (fuel : ℕ) : Option (Int × Regs) :=
  if periodNs > nsecPerSec then some (-eRange, regs)
  else match searchRun priv.clkTickNs periodNs v fuel with
    | .done v => program regs channel periodNs dutyNs v
    | _ => none

end MetaCommon.Pwm
