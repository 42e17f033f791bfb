import Mathlib.Data.List.Basic
import Mathlib.Logic.Function.Basic
import MetaCommon.Lib.Runs

/-!
# The interrupt controller driver of U-Boot

`arch_interrupt_init` empties the handler table and reads the number of interrupt lines from the
GIC, `irq_install_handler` and `irq_free_handler` change the table, and `do_irq` takes one interrupt
from the CPU interface and calls the handler that is installed for it.
-/

namespace MetaCommon.Gic

def gicDistributorImplementerMagic : UInt32 := 0x0100143b

def gicCpuImplementerMagic : UInt32 := 0x0102143b

def gicVirtCpuImplementerMagic : UInt32 := 0x0102143b

def gicMaxIrq : ℕ := 1020

def spiIntNumMin : ℕ := 32

/-- `MAX_IRQ`, where the counters stop. -/
def maxCount : ℕ := 0xfffffffe

/-- The registers that `gic_probe` reads. -/
structure GicRegs where
  gicdIidr : UInt32
  giccIidr : UInt32
  gicvIidr : UInt32
  gicdTyper : UInt32
deriving DecidableEq

/-- `max_irq` after `gic_probe`: only if no magic matches it keeps its initial value. -/
def gicProbe (regs : GicRegs) : ℕ :=
  if regs.gicdIidr ≠ gicDistributorImplementerMagic ∧ regs.giccIidr ≠ gicCpuImplementerMagic ∧
      regs.gicvIidr ≠ gicVirtCpuImplementerMagic then 0
  else
    let maxIrq := ((regs.gicdTyper &&& 0x1f).toNat + 1) * 32
    if maxIrq > gicMaxIrq then gicMaxIrq else maxIrq

variable {H K : Type}

/-- The static data of the driver, for handlers of type `H` and cookies of type `K`. A handler may
be `NULL`, and `enabled` is what `enable_irq_id` and `disable_irq_id` have written to the
distributor. -/
structure IrqState (H K : Type) where
  maxIrq : ℕ
  maxIrq_le : maxIrq ≤ gicMaxIrq
  handlers : ℕ → Option H
  cookies : ℕ → Option K
  enabled : ℕ → Bool
  irqTotal : ℕ
  irqCounts : ℕ → ℕ

theorem gicProbe_le (regs : GicRegs) : gicProbe regs ≤ gicMaxIrq := by
  unfold gicProbe
  simp only
  split_ifs
  · exact Nat.zero_le _
  · exact Nat.le_refl _
  · omega

/-- `arch_interrupt_init` after reset. -/
def archInterruptInit (H K : Type) (regs : GicRegs) : IrqState H K where
  maxIrq := gicProbe regs
  maxIrq_le := gicProbe_le regs
  handlers := fun _ => none
  cookies := fun _ => none
  enabled := fun id => decide (id < 16)
  irqTotal := 0
  irqCounts := fun _ => 0

/-- The conversion of an `int` to `size_t`, in which it is compared with `max_irq`. -/
def toSize (irq : Int32) : ℕ := irq.toUInt32.toNat

inductive Installed
  | outOfRange
  | alreadyInUse
  | installed
deriving DecidableEq

namespace IrqState

variable (g : IrqState H K)

/-- Undefined where `handlers` is accessed outside its bounds. -/
def irqInstallHandler (irq : Int32) (handler : Option H) (cookie : Option K) :
    Option (Installed × IrqState H K) :=
  if toSize irq > g.maxIrq then some (.outOfRange, g)
  else if gicMaxIrq ≤ toSize irq then none
  else if (g.handlers (toSize irq)).isSome then some (.alreadyInUse, g)
  else some (.installed, { g with
    handlers := Function.update g.handlers (toSize irq) handler
    cookies := Function.update g.cookies (toSize irq) cookie
    enabled := Function.update g.enabled (toSize irq) true })

/-- Whether the number is in range, and the table afterwards. -/
def irqFreeHandler (irq : Int32) : Bool × IrqState H K :=
  if toSize irq ≥ g.maxIrq then (false, g)
  else if (g.handlers (toSize irq)).isSome then
    (true, { g with
      handlers := Function.update g.handlers (toSize irq) none
      cookies := Function.update g.cookies (toSize irq) none
      enabled := Function.update g.enabled (toSize irq) false })
  else (true, g)

/-- What `do_irq` does that can be seen from outside, in order. -/
inductive Action (H K : Type)
  | ack (iar : UInt32)
  | eoi (id : ℕ)
  | call (handler : H) (cookie : Option K)
deriving DecidableEq

/-- `irqstat & GICC_IAR_INT_ID_MASK`. -/
def intId (iar : UInt32) : ℕ := (iar &&& 0x3ff).toNat

/-- The call `handlers[irqnr](cookies[irqnr])`, if a handler is installed. -/
def dispatch (irqnr : ℕ) : List (Action H K) :=
  match g.handlers irqnr with
  | none => []
  | some handler => [.call handler (g.cookies irqnr)]

/-- `do_irq`, when the CPU interface answers the read of `GICC_IAR` with `iar`. -/
def doIrq (iar : UInt32) : List (Action H K) × IrqState H K :=
  let irqTotal := if g.irqTotal < maxCount then g.irqTotal + 1 else g.irqTotal
  let irqnr := intId iar
  if irqnr > spiIntNumMin ∧ irqnr < gicMaxIrq then
    let count := g.irqCounts irqnr
    (.ack iar :: .eoi irqnr :: g.dispatch irqnr,
      { g with
        irqTotal := irqTotal
        irqCounts := Function.update g.irqCounts irqnr
          (if count < maxCount then count + 1 else count) })
  else ([.ack iar], { g with irqTotal := irqTotal })

theorem doIrq_actions (iar : UInt32) : (g.doIrq iar).1 =
    if spiIntNumMin < intId iar ∧ intId iar < gicMaxIrq then
      .ack iar :: .eoi (intId iar) :: g.dispatch (intId iar)
    else [.ack iar] := by
  unfold doIrq
  by_cases h : intId iar > spiIntNumMin ∧ intId iar < gicMaxIrq
  · simp only [if_pos h]
  · simp only [if_neg h]

/-- An interrupt leaves the table alone. -/
theorem doIrq_table (iar : UInt32) : (g.doIrq iar).2.maxIrq = g.maxIrq ∧
    (g.doIrq iar).2.handlers = g.handlers ∧ (g.doIrq iar).2.cookies = g.cookies := by
  unfold doIrq
  by_cases h : intId iar > spiIntNumMin ∧ intId iar < gicMaxIrq
  · simp only [if_pos h, and_self]
  · simp only [if_neg h, and_self]

theorem doIrq_enabled (iar : UInt32) : (g.doIrq iar).2.enabled = g.enabled := by
  unfold doIrq
  by_cases h : intId iar > spiIntNumMin ∧ intId iar < gicMaxIrq
  · simp only [if_pos h]
  · simp only [if_neg h]

end IrqState

inductive Event (H K : Type)
  | install (irq : Int32) (handler : Option H) (cookie : Option K)
  | free (irq : Int32)
  | interrupt (iar : UInt32)
deriving DecidableEq

/-- The driver, with what it has told its callers: the installs it has accepted and not released
since, by interrupt number, and the actions of each call of `do_irq`. -/
structure Driver (H K : Type) where
  gic : IrqState H K
  registry : ℕ → Option (Option H × Option K)
  irqs : List (List (IrqState.Action H K))

namespace Driver

def init (H K : Type) (regs : GicRegs) : Driver H K where
  gic := archInterruptInit H K regs
  registry := fun _ => none
  irqs := []

/-- A handler called by an interrupt may install and free handlers itself; the call is the last
thing `do_irq` does, so these are events of their own. -/
def step (s : Driver H K) : Event H K → Option (Driver H K)
  | .install irq handler cookie => (s.gic.irqInstallHandler irq handler cookie).map fun r =>
    { s with
      gic := r.2
      registry := if r.1 = .installed then
        Function.update s.registry (toSize irq) (some (handler, cookie)) else s.registry }
  | .free irq =>
    let r := s.gic.irqFreeHandler irq
    some { s with
      gic := r.2
      registry := if r.1 then Function.update s.registry (toSize irq) none else s.registry }
  | .interrupt iar =>
    let r := s.gic.doIrq iar
    some { s with gic := r.2, irqs := s.irqs ++ [r.1] }

end Driver

end MetaCommon.Gic
