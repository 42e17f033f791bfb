import Mathlib.Data.Fin.VecNotation
import MetaCommon.Gic.Irq

/-!
# The timers of the ASPEED in U-Boot

`timer_enable` and `timer_disable` program one of eight timers, whose control bits are packed four
by four into one register. All of them interrupt through `timer_irq_handler`, which is installed
with the number of the timer as its cookie and calls the callback of that timer.
-/

namespace MetaCommon.AstTimer

open Gic

/-- The interrupt handlers that the timers install. -/
inductive IrqHandler
  | timerIrqHandler
deriving DecidableEq

def timerIrqs : Fin 8 → Int32 := ![48, 49, 50, 51, 52, 53, 54, 55]

def timerBases : Fin 8 → ℕ := ![0, 0x10, 0x20, 0x40, 0x50, 0x60, 0x70, 0x80]

def timerEnableBit : BitVec 32 := 1
def timer1mhzClkSel : BitVec 32 := 2
def timerEnableIrq : BitVec 32 := 4
def timerResetByWdt : BitVec 32 := 8

def timerControl : ℕ := 0x30
def timerIntClr : ℕ := 0x34
def timerReload : ℕ := 0x04
def timerControlClear : ℕ := 0x3c

variable {H C : Type}

/-- The interrupt controller, the timer registers by their offset, the two tables, and the calls of
callbacks that `timer_irq_handler` has made so far. -/
structure Timers (H C : Type) where
  gic : IrqState IrqHandler UInt32
  regs : ℕ → BitVec 32
  timerCallback : Fin 8 → Option H
  cbCookie : Fin 8 → Option C
  calls : List (H × Option C)

namespace Timers

/-- A write to the control-clear register clears bits of the control register, and a write of bits
to the interrupt register clears these interrupts. -/
def writel (s : Timers H C) (value : BitVec 32) (offset : ℕ) : Timers H C :=
  { s with
    regs :=
      if offset = timerControlClear then
        Function.update s.regs timerControl (s.regs timerControl &&& ~~~value)
      else if offset = timerIntClr then
        Function.update s.regs timerIntClr (s.regs timerIntClr &&& ~~~value)
      else Function.update s.regs offset value }

/-- `timer_irq_handler` with the number of a timer. -/
def serveTimer (s : Timers H C) (n : Fin 8) : Timers H C :=
  let s := s.writel ((1 : BitVec 32) <<< n.val) timerIntClr
  match s.timerCallback n with
  | some callback => { s with calls := s.calls ++ [(callback, s.cbCookie n)] }
  | none => s

/-- Undefined for a cookie that is no number of a timer. -/
def timerIrqHandler (s : Timers H C) (cookie : Option UInt32) : Option (Timers H C) :=
  let timerNr := (cookie.getD 0).toNat
  if h : timerNr < 8 then some (s.serveTimer ⟨timerNr, h⟩) else none

/-- `timer_disable` once the number is in range. -/
def disableTimer (s : Timers H C) (n : Fin 8) : Timers H C :=
  { s with
    gic := (s.gic.irqFreeHandler (timerIrqs n)).2
    timerCallback := Function.update s.timerCallback n none
    cbCookie := Function.update s.cbCookie n none }.writel ((0xf : BitVec 32) <<< (n.val * 4))
      timerControlClear

def timerDisable (s : Timers H C) (n : Int32) : Timers H C :=
  if h : 0 ≤ n.toInt ∧ n.toInt < 8 then s.disableTimer ⟨n.toInt.toNat, by omega⟩ else s

/-- `timer_enable` once the number is in range and the interval is not zero. Undefined if
`irq_install_handler` is. -/
def enableTimer (s : Timers H C) (n : Fin 8) (intervalUs : BitVec 32) (handler : Option H)
    (cookie : Option C) : Option (Timers H C) :=
  let s := s.disableTimer n
  let s := s.writel intervalUs (timerBases n + timerReload)
  let tctrl := (timerEnableBit ||| timer1mhzClkSel ||| timerResetByWdt) <<< (n.val * 4) |||
    timerEnableIrq <<< (n.val * 4)
  let s := if handler.isSome then
      { s with
        timerCallback := Function.update s.timerCallback n handler
        cbCookie := Function.update s.cbCookie n cookie }
    else s
  (s.gic.irqInstallHandler (timerIrqs n) (some .timerIrqHandler) (some (UInt32.ofNat n))).map
    fun r => { s with gic := r.2 }.writel (s.regs timerControl ||| tctrl) timerControl

def timerEnable (s : Timers H C) (n : UInt32) (intervalUs : BitVec 32) (handler : Option H)
    (cookie : Option C) : Option (Timers H C) :=
  if h : n.toNat < 8 ∧ intervalUs ≠ 0 then s.enableTimer ⟨n.toNat, h.1⟩ intervalUs handler cookie
  else some s

/-- What the GIC answers to the read of `GICC_IAR` for an interrupt of the timer. -/
def timerIar (n : Fin 8) : UInt32 := UInt32.ofNat (48 + n)

/-- The handlers that `do_irq` calls, one after the other. -/
def callHandlers (s : Timers H C) : List (IrqState.Action IrqHandler UInt32) → Option (Timers H C)
  | [] => some s
  | .call .timerIrqHandler cookie :: actions =>
    (s.timerIrqHandler cookie).bind fun s => s.callHandlers actions
  | _ :: actions => s.callHandlers actions

def timerInterrupt (s : Timers H C) (n : Fin 8) : Option (Timers H C) :=
  let r := s.gic.doIrq (timerIar n)
  { s with gic := r.2 }.callHandlers r.1

/-- The timer counts down to zero and raises its interrupt. -/
def expire (s : Timers H C) (n : Fin 8) : Timers H C :=
  { s with
    regs := Function.update s.regs timerIntClr
      (s.regs timerIntClr ||| (1 : BitVec 32) <<< n.val) }

/-- After `arch_interrupt_init`, with anything in the registers. -/
def init (H C : Type) (gicRegs : GicRegs) (regs : ℕ → BitVec 32) : Timers H C where
  gic := archInterruptInit IrqHandler UInt32 gicRegs
  regs := regs
  timerCallback := fun _ => none
  cbCookie := fun _ => none
  calls := []

end Timers

inductive Event (H C : Type)
  | enable (n : UInt32) (intervalUs : BitVec 32) (handler : Option H) (cookie : Option C)
  | disable (n : Int32)
  | expire (n : Fin 8)
  | interrupt (n : Fin 8)
deriving DecidableEq

/-- The timer that an event is about. A call that is turned away is about none. -/
def Event.timer : Event H C → Option (Fin 8)
  | .enable n intervalUs _ _ =>
    if h : n.toNat < 8 ∧ intervalUs ≠ 0 then some ⟨n.toNat, h.1⟩ else none
  | .disable n => if h : 0 ≤ n.toInt ∧ n.toInt < 8 then some ⟨n.toInt.toNat, by omega⟩ else none
  | .expire n => some n
  | .interrupt n => some n

namespace Timers

def handle (s : Timers H C) : Event H C → Option (Timers H C)
  | .enable n intervalUs handler cookie => s.timerEnable n intervalUs handler cookie
  | .disable n => some (s.timerDisable n)
  | .expire n => some (s.expire n)
  | .interrupt n => s.timerInterrupt n

/-- The GIC forwards an interrupt if its line is enabled. -/
def Possible (s : Timers H C) : Event H C → Prop
  | .interrupt n => s.gic.enabled (toSize (timerIrqs n)) = true
  | _ => True

instance (s : Timers H C) : DecidablePred s.Possible := fun e =>
  match e with
  | .interrupt n => inferInstanceAs (Decidable (s.gic.enabled (toSize (timerIrqs n)) = true))
  | .enable _ _ _ _ => isTrue trivial
  | .disable _ => isTrue trivial
  | .expire _ => isTrue trivial

def step (s : Timers H C) (e : Event H C) : Option (Timers H C) :=
  if s.Possible e then s.handle e else none

end Timers

end MetaCommon.AstTimer
