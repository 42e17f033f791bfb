import MetaCommon.AstTimer.Timer
import MetaCommon.Lib.PackedFields

/-!
# The timers are independent

What one timer is configured to do is read off the shared registers and tables by `config`. An
operation changes the configuration of its own timer, in a way that depends on nothing else, and
leaves the other seven alone. So the eight timers together are eight machines side by side.
-/

namespace MetaCommon.AstTimer

open Gic PackedFields

variable {H C : Type}

/-- One timer: its control bits, reload value and interrupt bit, its callback with the cookie, and
whether its line is enabled in the GIC. -/
structure TimerConfig (H C : Type) where
  control : BitVec 4
  reload : BitVec 32
  interrupt : BitVec 1
  callback : Option H
  cookie : Option C
  enabled : Bool
deriving DecidableEq

namespace TimerConfig

/-- What an event does to the timer it is about; `served` says whether the GIC has its line. -/
def next (served : Bool) (c : TimerConfig H C) : Event H C → TimerConfig H C
  | .enable _ intervalUs handler cookie =>
    { c with
      control := 0xf
      reload := intervalUs
      callback := handler
      cookie := if handler.isSome then cookie else none
      enabled := served }
  | .disable _ => { c with control := 0, callback := none, cookie := none, enabled := false }
  | .expire _ => { c with interrupt := 1 }
  | .interrupt _ => { c with interrupt := 0 }

/-- The call that an event makes to the timer's callback. -/
def calls (c : TimerConfig H C) : Event H C → List (H × Option C)
  | .interrupt _ => (c.callback.map fun callback => (callback, c.cookie)).toList
  | _ => []

end TimerConfig

namespace Timers

variable (s : Timers H C) (n : Fin 8)

def config : TimerConfig H C where
  control := field 4 (s.regs timerControl) n
  reload := s.regs (timerBases n + timerReload)
  interrupt := field 1 (s.regs timerIntClr) n
  callback := s.timerCallback n
  cookie := s.cbCookie n
  enabled := s.gic.enabled (toSize (timerIrqs n))

/-! ### Registers -/

theorem toSize_timerIrqs : toSize (timerIrqs n) = 48 + n := by
  revert n
  decide

theorem intId_timerIar : IrqState.intId (timerIar n) = 48 + n := by
  revert n
  decide

/-- The reload registers lie apart from the shared registers and from each other. -/
theorem reload_apart : timerBases n + timerReload ≠ timerControl ∧
    timerBases n + timerReload ≠ timerIntClr ∧ timerBases n + timerReload ≠ timerControlClear := by
  revert n
  decide

theorem reload_ne {m n : Fin 8} (h : m ≠ n) :
    timerBases m + timerReload ≠ timerBases n + timerReload := by
  revert m n
  decide

theorem clear_eq_place : (0xf : BitVec 32) <<< (n.val * 4) = place 32 n (0xf : BitVec 4) := by
  revert n
  decide

theorem tctrl_eq_place :
    (timerEnableBit ||| timer1mhzClkSel ||| timerResetByWdt) <<< (n.val * 4) |||
      timerEnableIrq <<< (n.val * 4) = place 32 n (0xf : BitVec 4) := by
  revert n
  decide

theorem bit_eq_place : (1 : BitVec 32) <<< n.val = place 32 n (1 : BitVec 1) := by
  revert n
  decide

theorem place_fits {n len : ℕ} (hn : n < 8) (hlen : len ≤ 4) : (n + 1) * len ≤ 32 := by
  have h : (n + 1) * len ≤ 8 * 4 := Nat.mul_le_mul hn hlen
  omega

/-- Only the first three components of a configuration are in registers. -/
theorem config_congr {s s' : Timers H C} {n : Fin 8}
    (hcontrol : field 4 (s'.regs timerControl) n = field 4 (s.regs timerControl) n)
    (hreload : s'.regs (timerBases n + timerReload) = s.regs (timerBases n + timerReload))
    (hinterrupt : field 1 (s'.regs timerIntClr) n = field 1 (s.regs timerIntClr) n)
    (hcallback : s'.timerCallback n = s.timerCallback n) (hcookie : s'.cbCookie n = s.cbCookie n)
    (henabled : s'.gic.enabled (toSize (timerIrqs n)) = s.gic.enabled (toSize (timerIrqs n))) :
    s'.config n = s.config n := by
  unfold config
  rw [hcontrol, hreload, hinterrupt, hcallback, hcookie, henabled]

/-- A write to another register than those for reload leaves all but what the two shared registers
hold. -/
theorem config_update_shared {r : ℕ} (hr : ∀ m : Fin 8, timerBases m + timerReload ≠ r)
    (w : BitVec 32) (m : Fin 8) :
    ({ s with regs := Function.update s.regs r w } : Timers H C).config m =
      { s.config m with
        control := field 4 (Function.update s.regs r w timerControl) m
        interrupt := field 1 (Function.update s.regs r w timerIntClr) m } := by
  simp only [config, Function.update_of_ne (hr m)]

/-- A new value of the control register that differs in the field of one timer. -/
theorem config_update_control {s' : Timers H C} {v : BitVec 4} {w : BitVec 32}
    (hs : s' = { s with regs := Function.update s.regs timerControl w }) (hself : field 4 w n = v)
    (hother : ∀ m, m ≠ n → field 4 w (Fin.val m) = field 4 (s.regs timerControl) m) :
    s'.config = Function.update s.config n { s.config n with control := v } := by
  subst hs
  have hint : timerIntClr ≠ timerControl := by decide
  have hconfig := config_update_shared s (fun m => (reload_apart m).1) w
  rw [Function.update_self, Function.update_of_ne hint] at hconfig
  rw [Function.eq_update_iff]
  constructor
  · rw [hconfig, hself]
    rfl
  · intro m hm
    rw [hconfig, hother m hm]
    rfl

theorem config_writel_clear :
    (s.writel ((0xf : BitVec 32) <<< (n.val * 4)) timerControlClear).config =
      Function.update s.config n { s.config n with control := 0 } := by
  apply config_update_control s n (w := s.regs timerControl &&& ~~~place 32 n (0xf : BitVec 4))
  · rw [clear_eq_place]
    rfl
  · have hall : ∀ c : BitVec 4, c &&& ~~~0xf = 0 := by decide
    rw [field_clear_place_self _ _ _ (place_fits n.isLt (Nat.le_refl 4)), hall]
  · intro m hm
    rw [field_clear_place_of_ne _ (Fin.val_ne_of_ne hm)]

theorem config_writel_reload (v : BitVec 32) : (s.writel v (timerBases n + timerReload)).config =
    Function.update s.config n { s.config n with reload := v } := by
  obtain ⟨hcontrol, hint, hclear⟩ := reload_apart n
  have hwritel : s.writel v (timerBases n + timerReload) =
      { s with regs := Function.update s.regs (timerBases n + timerReload) v } := by
    simp only [writel, if_neg hclear, if_neg hint]
  rw [hwritel, Function.eq_update_iff]
  constructor
  · simp only [config, Function.update_self, Function.update_of_ne hcontrol.symm,
      Function.update_of_ne hint.symm]
  · intro m hm
    apply config_congr
    · simp only [Function.update_of_ne hcontrol.symm]
    · simp only [Function.update_of_ne (reload_ne hm)]
    · simp only [Function.update_of_ne hint.symm]
    · rfl
    · rfl
    · rfl

theorem config_writel_control : (s.writel (s.regs timerControl ||| place 32 n (0xf : BitVec 4))
    timerControl).config = Function.update s.config n { s.config n with control := 0xf } := by
  apply config_update_control s n rfl
  · have hall : ∀ c : BitVec 4, c ||| 0xf = 0xf := by decide
    rw [field_or_place_self _ _ _ (place_fits n.isLt (Nat.le_refl 4)), hall]
  · intro m hm
    rw [field_or_place_of_ne _ (Fin.val_ne_of_ne hm)]

/-- A new value of the interrupt register that differs in the bit of one timer. -/
theorem config_update_interrupt {s' : Timers H C} {v : BitVec 1} {w : BitVec 32}
    (hs : s' = { s with regs := Function.update s.regs timerIntClr w }) (hself : field 1 w n = v)
    (hother : ∀ m, m ≠ n → field 1 w (Fin.val m) = field 1 (s.regs timerIntClr) m) :
    s'.config = Function.update s.config n { s.config n with interrupt := v } := by
  subst hs
  have hcontrol : timerControl ≠ timerIntClr := by decide
  have hconfig := config_update_shared s (fun m => (reload_apart m).2.1) w
  rw [Function.update_self, Function.update_of_ne hcontrol] at hconfig
  rw [Function.eq_update_iff]
  constructor
  · rw [hconfig, hself]
    rfl
  · intro m hm
    rw [hconfig, hother m hm]
    rfl

theorem config_expire :
    (s.expire n).config = Function.update s.config n { s.config n with interrupt := 1 } := by
  have hall : ∀ b : BitVec 1, b ||| 1 = 1 := by decide
  apply config_update_interrupt s n rfl
  · rw [bit_eq_place, field_or_place_self _ _ _ (place_fits n.isLt (by decide)), hall]
  · intro m hm
    rw [bit_eq_place, field_or_place_of_ne _ (Fin.val_ne_of_ne hm)]

theorem config_writel_interrupt : (s.writel ((1 : BitVec 32) <<< n.val) timerIntClr).config =
    Function.update s.config n { s.config n with interrupt := 0 } := by
  have hall : ∀ b : BitVec 1, b &&& ~~~1 = 0 := by decide
  apply config_update_interrupt s n (w := s.regs timerIntClr &&& ~~~((1 : BitVec 32) <<< n.val)) rfl
  · rw [bit_eq_place, field_clear_place_self _ _ _ (place_fits n.isLt (by decide)), hall]
  · intro m hm
    rw [bit_eq_place, field_clear_place_of_ne _ (Fin.val_ne_of_ne hm)]

/-! ### Tables -/

variable {s} {n} in
/-- A change of the tables for one timer. -/
theorem config_update_tables {s' : Timers H C} {callback : Option H} {cookie : Option C} {b : Bool}
    (hregs : s'.regs = s.regs)
    (hcallback : s'.timerCallback = Function.update s.timerCallback n callback)
    (hcookie : s'.cbCookie = Function.update s.cbCookie n cookie)
    (henabled : s'.gic.enabled = Function.update s.gic.enabled (48 + n.val) b) :
    s'.config = Function.update s.config n
      { s.config n with callback := callback, cookie := cookie, enabled := b } := by
  rw [Function.eq_update_iff]
  constructor
  · simp only [config, hregs, hcallback, hcookie, henabled, toSize_timerIrqs, Function.update_self]
  · intro m hm
    have hirq : 48 + m.val ≠ 48 + n.val := by
      have := Fin.val_ne_of_ne hm
      omega
    apply config_congr
    · rw [hregs]
    · rw [hregs]
    · rw [hregs]
    · rw [hcallback, Function.update_of_ne hm]
    · rw [hcookie, Function.update_of_ne hm]
    · rw [henabled, toSize_timerIrqs, Function.update_of_ne hirq]

/-- The lines of the timers that are enabled are those with the handler in place, and the handler
has the number of the timer as its cookie. -/
structure Wf (maxIrq : ℕ) (s : Timers H C) : Prop where
  maxIrq_eq : s.gic.maxIrq = maxIrq
  handler_of_enabled : ∀ n : Fin 8, s.gic.enabled (48 + n) = true → 48 + n.val < maxIrq ∧
    s.gic.handlers (48 + n) = some .timerIrqHandler ∧
    s.gic.cookies (48 + n) = some (UInt32.ofNat n)
  handler_of_not_enabled : ∀ n : Fin 8, s.gic.enabled (48 + n) = false →
    s.gic.handlers (48 + n) = none

/-- The number of interrupt lines is none of the numbers of the timers. -/
theorem gicProbe_ne (gicRegs : GicRegs) : gicProbe gicRegs ≠ 48 + n := by
  have hn := n.isLt
  unfold gicProbe gicMaxIrq
  dsimp only
  split_ifs
  · omega
  · omega
  · omega

theorem wf_init (gicRegs : GicRegs) (regs : ℕ → BitVec 32) :
    (init H C gicRegs regs).Wf (gicProbe gicRegs) := by
  refine ⟨rfl, ?_, fun _ _ => rfl⟩
  intro n henabled
  have hlt := of_decide_eq_true henabled
  omega

variable {s} {maxIrq : ℕ}

theorem Wf.congr {s' : Timers H C} (h : s.Wf maxIrq) (hmax : s'.gic.maxIrq = s.gic.maxIrq)
    (hhandlers : s'.gic.handlers = s.gic.handlers) (hcookies : s'.gic.cookies = s.gic.cookies)
    (henabled : s'.gic.enabled = s.gic.enabled) : s'.Wf maxIrq := by
  refine ⟨hmax.trans h.maxIrq_eq, ?_, ?_⟩
  · rw [henabled, hhandlers, hcookies]
    exact h.handler_of_enabled
  · rw [henabled, hhandlers]
    exact h.handler_of_not_enabled

/-- `irq_free_handler` takes the handler of a timer out, if there is one, and disables the line. -/
theorem Wf.irqFreeHandler (h : s.Wf maxIrq) (n : Fin 8) :
    let g := (s.gic.irqFreeHandler (timerIrqs n)).2
    g.maxIrq = s.gic.maxIrq ∧ g.handlers = Function.update s.gic.handlers (48 + n.val) none ∧
      g.enabled = Function.update s.gic.enabled (48 + n.val) false ∧
      ∀ m, m ≠ 48 + n.val → g.cookies m = s.gic.cookies m := by
  have hfree : s.gic.handlers (48 + n) = none → s.gic.enabled (48 + n) = false := by
    intro hnone
    by_contra henabled
    have := (h.handler_of_enabled n (Bool.eq_true_of_not_eq_false henabled)).2.1
    rw [hnone] at this
    cases this
  dsimp only
  unfold IrqState.irqFreeHandler
  rw [toSize_timerIrqs]
  split_ifs with hrange hsome
  · have hdisabled : s.gic.enabled (48 + n) = false := by
      by_contra henabled
      have := (h.handler_of_enabled n (Bool.eq_true_of_not_eq_false henabled)).1
      rw [← h.maxIrq_eq] at this
      omega
    refine ⟨rfl, ?_, ?_, fun _ _ => rfl⟩
    · rw [← h.handler_of_not_enabled n hdisabled, Function.update_eq_self]
    · rw [← hdisabled, Function.update_eq_self]
  · exact ⟨rfl, rfl, rfl, fun m hm => Function.update_of_ne hm _ _⟩
  · rw [Option.not_isSome_iff_eq_none] at hsome
    refine ⟨rfl, ?_, ?_, fun _ _ => rfl⟩
    · rw [← hsome, Function.update_eq_self]
    · rw [← hfree hsome, Function.update_eq_self]

/-- `irq_install_handler` puts the handler of a timer in if there is none and the GIC has the
line. -/
theorem Wf.irqInstallHandler (h : s.Wf maxIrq) (hmax : ∀ n : Fin 8, maxIrq ≠ 48 + n) {n : Fin 8}
    (hnone : s.gic.handlers (48 + n) = none) :
    ∃ r, s.gic.irqInstallHandler (timerIrqs n) (some .timerIrqHandler)
        (some (UInt32.ofNat n)) = some r ∧ r.2.maxIrq = s.gic.maxIrq ∧
      if 48 + n.val < maxIrq then
        r.2.handlers = Function.update s.gic.handlers (48 + n.val) (some .timerIrqHandler) ∧
        r.2.cookies = Function.update s.gic.cookies (48 + n.val) (some (UInt32.ofNat n)) ∧
        r.2.enabled = Function.update s.gic.enabled (48 + n.val) true
      else r.2 = s.gic := by
  have hn := hmax n
  have heq := h.maxIrq_eq
  have hle := s.gic.maxIrq_le
  unfold IrqState.irqInstallHandler
  rw [toSize_timerIrqs, hnone]
  by_cases hlt : 48 + n.val < maxIrq
  · have hin : ¬ 48 + n.val > s.gic.maxIrq := by omega
    have hbound : ¬ gicMaxIrq ≤ 48 + n.val := by omega
    rw [if_neg hin, if_neg hbound, if_neg (by simp)]
    refine ⟨_, rfl, rfl, ?_⟩
    rw [if_pos hlt]
    exact ⟨rfl, rfl, rfl⟩
  · have hout : 48 + n.val > s.gic.maxIrq := by omega
    rw [if_pos hout]
    refine ⟨_, rfl, rfl, ?_⟩
    rw [if_neg hlt]

/-! ### Operations -/

theorem Wf.disableTimer (h : s.Wf maxIrq) (n : Fin 8) : (s.disableTimer n).Wf maxIrq ∧
    (s.disableTimer n).gic.handlers (48 + n) = none ∧ (s.disableTimer n).calls = s.calls ∧
    (s.disableTimer n).config = Function.update s.config n
      { s.config n with control := 0, callback := none, cookie := none, enabled := false } := by
  obtain ⟨hmax, hhandlers, henabled, hcookies⟩ := h.irqFreeHandler n
  refine ⟨⟨hmax.trans h.maxIrq_eq, ?_, ?_⟩, ?_, rfl, ?_⟩
  · intro m hm
    change (s.gic.irqFreeHandler (timerIrqs n)).2.enabled (48 + m) = true at hm
    change _ ∧ (s.gic.irqFreeHandler (timerIrqs n)).2.handlers (48 + m) = _ ∧
      (s.gic.irqFreeHandler (timerIrqs n)).2.cookies (48 + m) = _
    have hne : 48 + m.val ≠ 48 + n.val := by
      intro heq
      rw [henabled, heq, Function.update_self] at hm
      cases hm
    rw [henabled, Function.update_of_ne hne] at hm
    rw [hhandlers, Function.update_of_ne hne, hcookies _ hne]
    exact h.handler_of_enabled m hm
  · intro m hm
    change (s.gic.irqFreeHandler (timerIrqs n)).2.enabled (48 + m) = false at hm
    change (s.gic.irqFreeHandler (timerIrqs n)).2.handlers (48 + m) = none
    by_cases heq : 48 + m.val = 48 + n.val
    · rw [hhandlers, heq, Function.update_self]
    · rw [henabled, Function.update_of_ne heq] at hm
      rw [hhandlers, Function.update_of_ne heq]
      exact h.handler_of_not_enabled m hm
  · change (s.gic.irqFreeHandler (timerIrqs n)).2.handlers (48 + n) = none
    rw [hhandlers, Function.update_self]
  · unfold Timers.disableTimer
    have htables : ({ s with
        gic := (s.gic.irqFreeHandler (timerIrqs n)).2
        timerCallback := Function.update s.timerCallback n none
        cbCookie := Function.update s.cbCookie n none } : Timers H C).config = _ :=
      config_update_tables (s := s) (n := n) rfl rfl rfl henabled
    rw [config_writel_clear, htables, Function.update_idem, Function.update_self]

/-- The callback and the cookie are stored if there is a callback. -/
theorem config_setCallback (n : Fin 8) (handler : Option H) (cookie : Option C)
    (hcallback : s.timerCallback n = none) (hcookie : s.cbCookie n = none) :
    (if handler.isSome then
      { s with
        timerCallback := Function.update s.timerCallback n handler
        cbCookie := Function.update s.cbCookie n cookie }
    else s).config = Function.update s.config n { s.config n with
      callback := handler, cookie := if handler.isSome then cookie else none } := by
  have henabled : s.gic.enabled =
      Function.update s.gic.enabled (48 + n.val) (s.config n).enabled := by
    rw [config, toSize_timerIrqs, Function.update_eq_self]
  cases handler with
  | none =>
    have hself : s.config n = { s.config n with callback := none, cookie := none } := by
      simp [config, hcallback, hcookie]
    simp [← hself]
  | some callback => exact config_update_tables rfl rfl rfl henabled

/-- The handler of one timer is put in and its line enabled. -/
theorem Wf.install (h : s.Wf maxIrq) {n : Fin 8} (hlt : 48 + n.val < maxIrq)
    {g : IrqState IrqHandler UInt32} (hmax : g.maxIrq = s.gic.maxIrq)
    (hhandlers : g.handlers =
      Function.update s.gic.handlers (48 + n.val) (some .timerIrqHandler))
    (hcookies : g.cookies = Function.update s.gic.cookies (48 + n.val) (some (UInt32.ofNat n)))
    (henabled : g.enabled = Function.update s.gic.enabled (48 + n.val) true) :
    ({ s with gic := g } : Timers H C).Wf maxIrq := by
  refine ⟨hmax.trans h.maxIrq_eq, ?_, ?_⟩
  · intro m hm
    dsimp only at hm ⊢
    rw [hhandlers, hcookies]
    by_cases heq : m = n
    · subst heq
      rw [Function.update_self, Function.update_self]
      exact ⟨hlt, rfl, rfl⟩
    · have hne : 48 + m.val ≠ 48 + n.val := by
        have := Fin.val_ne_of_ne heq
        omega
      rw [henabled, Function.update_of_ne hne] at hm
      rw [Function.update_of_ne hne, Function.update_of_ne hne]
      exact h.handler_of_enabled m hm
  · intro m hm
    dsimp only at hm ⊢
    have hne : 48 + m.val ≠ 48 + n.val := by
      intro heq
      rw [henabled, heq, Function.update_self] at hm
      cases hm
    rw [henabled, Function.update_of_ne hne] at hm
    rw [hhandlers, Function.update_of_ne hne]
    exact h.handler_of_not_enabled m hm

theorem config_setGic (n : Fin 8) {g : IrqState IrqHandler UInt32} {b : Bool}
    (henabled : g.enabled = Function.update s.gic.enabled (48 + n.val) b) :
    ({ s with gic := g } : Timers H C).config =
      Function.update s.config n { s.config n with enabled := b } :=
  config_update_tables rfl (Function.update_eq_self _ _).symm (Function.update_eq_self _ _).symm
    henabled

theorem Wf.enableTimer (h : s.Wf maxIrq) (hmax : ∀ n : Fin 8, maxIrq ≠ 48 + n) (n : Fin 8)
    (intervalUs : BitVec 32) (handler : Option H) (cookie : Option C) :
    ∃ s', s.enableTimer n intervalUs handler cookie = some s' ∧ s'.Wf maxIrq ∧
      s'.calls = s.calls ∧ s'.config = Function.update s.config n { s.config n with
        control := 0xf
        reload := intervalUs
        callback := handler
        cookie := if handler.isSome then cookie else none
        enabled := decide (48 + n.val < maxIrq) } := by
  obtain ⟨hwf, hnone, hcalls, hconfig⟩ := h.disableTimer n
  let s₁ := (s.disableTimer n).writel intervalUs (timerBases n + timerReload)
  let s₂ : Timers H C := if handler.isSome then
      { s₁ with
        timerCallback := Function.update s₁.timerCallback n handler
        cbCookie := Function.update s₁.cbCookie n cookie }
    else s₁
  have hgic : s₂.gic = (s.disableTimer n).gic := by
    change (if handler.isSome then _ else _ : Timers H C).gic = _
    split_ifs <;> rfl
  have hcalls₂ : s₂.calls = (s.disableTimer n).calls := by
    change (if handler.isSome then _ else _ : Timers H C).calls = _
    split_ifs <;> rfl
  have hconfig₂ : s₂.config = Function.update s.config n { s.config n with
      control := 0
      reload := intervalUs
      callback := handler
      cookie := if handler.isSome then cookie else none
      enabled := false } := by
    have hstored := config_setCallback (s := s₁) n handler cookie
      (Function.update_self ..) (Function.update_self ..)
    rw [hstored, config_writel_reload, hconfig]
    simp only [Function.update_self, Function.update_idem]
  have hwf₂ : s₂.Wf maxIrq := hwf.congr (by rw [hgic]) (by rw [hgic]) (by rw [hgic]) (by rw [hgic])
  obtain ⟨r, hr, hmaxIrq, hserved⟩ := hwf₂.irqInstallHandler hmax (by rw [hgic]; exact hnone)
  refine ⟨({ s₂ with gic := r.2 } : Timers H C).writel
    (s₂.regs timerControl ||| place 32 n (0xf : BitVec 4)) timerControl, ?_, ?_, ?_, ?_⟩
  · rw [← tctrl_eq_place]
    exact congrArg (Option.map _) hr
  · refine Wf.congr (s := { s₂ with gic := r.2 }) ?_ rfl rfl rfl rfl
    split_ifs at hserved with hlt
    · obtain ⟨hhandlers, hcookies, henabled⟩ := hserved
      exact hwf₂.install hlt hmaxIrq hhandlers hcookies henabled
    · rw [hserved]
      exact hwf₂
  · exact hcalls₂.trans hcalls
  · have henabled : r.2.enabled =
        Function.update s₂.gic.enabled (48 + n.val) (decide (48 + n.val < maxIrq)) := by
      split_ifs at hserved with hlt
      · rw [hserved.2.2, decide_eq_true hlt]
      · have hoff : s₂.gic.enabled (48 + n.val) = false := by
          have := congrArg (fun c => (c n).enabled) hconfig₂
          rwa [Function.update_self, config, toSize_timerIrqs] at this
        rw [hserved, decide_eq_false hlt, ← hoff, Function.update_eq_self]
    have hset := config_setGic (s := s₂) n henabled
    have hcontrol := config_writel_control ({ s₂ with gic := r.2 } : Timers H C) n
    rw [hcontrol, hset, hconfig₂]
    simp only [Function.update_self, Function.update_idem]

theorem toNat_cookie (n : Fin 8) : (UInt32.ofNat n).toNat = n := by
  revert n
  decide

theorem timerIrqHandler_cookie (s : Timers H C) (n : Fin 8) :
    s.timerIrqHandler (some (UInt32.ofNat n)) = some (s.serveTimer n) := by
  have hlt : ((some (UInt32.ofNat n)).getD 0).toNat < 8 := by
    rw [Option.getD_some, toNat_cookie]
    exact n.isLt
  have hindex : (⟨((some (UInt32.ofNat n)).getD 0).toNat, hlt⟩ : Fin 8) = n :=
    Fin.ext (toNat_cookie n)
  unfold timerIrqHandler
  dsimp only
  rw [dif_pos hlt, hindex]

theorem serveTimer_spec (s : Timers H C) (n : Fin 8) : (s.serveTimer n).gic = s.gic ∧
    (s.serveTimer n).calls = s.calls ++ (s.config n).calls (.interrupt n) ∧
    (s.serveTimer n).config = Function.update s.config n { s.config n with interrupt := 0 } := by
  have hconfig := config_writel_interrupt s n
  unfold serveTimer
  dsimp only
  cases hc : (s.writel ((1 : BitVec 32) <<< n.val) timerIntClr).timerCallback n with
  | none =>
    change (s.config n).callback = none at hc
    exact ⟨rfl, by simp [TimerConfig.calls, hc, writel], hconfig⟩
  | some callback =>
    change (s.config n).callback = some callback at hc
    refine ⟨rfl, ?_, hconfig⟩
    simp only [TimerConfig.calls, hc]
    rfl

theorem Wf.timerInterrupt (h : s.Wf maxIrq) {n : Fin 8} (henabled : s.gic.enabled (48 + n) = true) :
    ∃ s', s.timerInterrupt n = some s' ∧ s'.Wf maxIrq ∧
      s'.calls = s.calls ++ (s.config n).calls (.interrupt n) ∧
      s'.config = Function.update s.config n { s.config n with interrupt := 0 } := by
  obtain ⟨-, hhandler, hcookie⟩ := h.handler_of_enabled n henabled
  have hn := n.isLt
  have hactions : (s.gic.doIrq (timerIar n)).1 =
      [.ack (timerIar n), .eoi (48 + n.val), .call .timerIrqHandler (some (UInt32.ofNat n))] := by
    have hrange : spiIntNumMin < 48 + n.val ∧ 48 + n.val < gicMaxIrq := by
      unfold spiIntNumMin gicMaxIrq
      omega
    rw [IrqState.doIrq_actions, intId_timerIar, if_pos hrange, IrqState.dispatch, hhandler, hcookie]
  obtain ⟨hmax, hhandlers, hcookies⟩ := s.gic.doIrq_table (timerIar n)
  have hlines := s.gic.doIrq_enabled (timerIar n)
  let s₁ : Timers H C := { s with gic := (s.gic.doIrq (timerIar n)).2 }
  have hconfig : s₁.config = s.config := by
    funext m
    refine config_congr (s := s) rfl rfl rfl rfl rfl ?_
    exact congrFun hlines _
  obtain ⟨hgic, hcalls, hserved⟩ := serveTimer_spec s₁ n
  refine ⟨s₁.serveTimer n, ?_, ?_, ?_, ?_⟩
  · change s₁.callHandlers _ = _
    rw [hactions]
    simp only [callHandlers, timerIrqHandler_cookie, Option.bind_some]
  · apply h.congr
    · rw [hgic]
      exact hmax
    · rw [hgic]
      exact hhandlers
    · rw [hgic]
      exact hcookies
    · rw [hgic]
      exact hlines
  · rw [hcalls, hconfig]
  · rw [hserved, hconfig]

/-! ### Runs -/

theorem forall_mem_some_and {α : Type*} {P : α → Prop} {Q : Prop} {a : α} (h : P a) :
    (∀ b ∈ some a, P b) ∧ (some a = none → Q) := by
  refine ⟨fun b hb => ?_, fun hnone => absurd hnone (Option.some_ne_none a)⟩
  obtain rfl := Option.some_inj.mp hb
  exact h

theorem forall_mem_none_and {α : Type*} {P : α → Prop} {Q : Prop} (h : Q) :
    (∀ b ∈ (none : Option α), P b) ∧ ((none : Option α) = none → Q) :=
  ⟨fun b hb => absurd hb.symm (Option.some_ne_none b), fun _ => h⟩

/-- An event changes the configuration of its own timer, as that timer alone would have it, and
calls at most its callback. -/
theorem Wf.handle (h : s.Wf maxIrq) (hmax : ∀ n : Fin 8, maxIrq ≠ 48 + n) {e : Event H C}
    (hpossible : s.Possible e) : ∃ s', s.handle e = some s' ∧ s'.Wf maxIrq ∧
      (∀ n ∈ e.timer, s'.calls = s.calls ++ (s.config n).calls e ∧
        s'.config = Function.update s.config n
          ((s.config n).next (decide (48 + n.val < maxIrq)) e)) ∧
      (e.timer = none → s' = s) := by
  cases e with
  | enable n intervalUs handler cookie =>
    by_cases hcond : n.toNat < 8 ∧ intervalUs ≠ 0
    · obtain ⟨s', hs', hwf, hcalls, hconfig⟩ :=
        h.enableTimer hmax ⟨n.toNat, hcond.1⟩ intervalUs handler cookie
      refine ⟨s', by rw [Timers.handle, timerEnable, dif_pos hcond, hs'], hwf, ?_⟩
      rw [Event.timer, dif_pos hcond]
      exact forall_mem_some_and ⟨hcalls.trans (List.append_nil _).symm, hconfig⟩
    · refine ⟨s, by rw [Timers.handle, timerEnable, dif_neg hcond], h, ?_⟩
      rw [Event.timer, dif_neg hcond]
      exact forall_mem_none_and rfl
  | disable n =>
    by_cases hcond : 0 ≤ n.toInt ∧ n.toInt < 8
    · obtain ⟨hwf, -, hcalls, hconfig⟩ := h.disableTimer ⟨n.toInt.toNat, by omega⟩
      refine ⟨_, by rw [Timers.handle, timerDisable, dif_pos hcond], hwf, ?_⟩
      rw [Event.timer, dif_pos hcond]
      exact forall_mem_some_and ⟨hcalls.trans (List.append_nil _).symm, hconfig⟩
    · refine ⟨s, by rw [Timers.handle, timerDisable, dif_neg hcond], h, ?_⟩
      rw [Event.timer, dif_neg hcond]
      exact forall_mem_none_and rfl
  | expire n =>
    refine ⟨_, rfl, h.congr rfl rfl rfl rfl, ?_⟩
    exact forall_mem_some_and ⟨(List.append_nil _).symm, config_expire s n⟩
  | interrupt n =>
    have henabled : s.gic.enabled (48 + n) = true := by
      rw [← toSize_timerIrqs]
      exact hpossible
    obtain ⟨s', hs', hwf, hcalls, hconfig⟩ := h.timerInterrupt henabled
    exact ⟨s', hs', hwf, forall_mem_some_and ⟨hcalls, hconfig⟩⟩

end Timers

/-- The callback that was last enabled for the timer and not disabled since, with its cookie. -/
def lastEnabled (n : Fin 8) (es : List (Event H C)) : Option (H × Option C) :=
  es.foldl (fun last e =>
    if e.timer = some n then
      match e with
      | .enable _ _ handler cookie => handler.map fun callback => (callback, cookie)
      | .disable _ => none
      | _ => last
    else last) none

namespace Timers

/-- What is known of the timers after the events `es`. -/
structure Tracks (gicRegs : GicRegs) (regs : ℕ → BitVec 32) (es : List (Event H C))
    (s : Timers H C) : Prop where
  wf : s.Wf (gicProbe gicRegs)
  config_eq : ∀ n : Fin 8, s.config n =
    Runs.run (TimerConfig.next (decide (48 + n.val < gicProbe gicRegs)))
      ((init H C gicRegs regs).config n) (es.filter fun e => e.timer = some n)
  callback_eq : ∀ n, ((s.config n).callback.map fun callback => (callback, (s.config n).cookie)) =
    lastEnabled n es

theorem tracks_init (gicRegs : GicRegs) (regs : ℕ → BitVec 32) :
    Tracks gicRegs regs [] (init H C gicRegs regs) :=
  ⟨wf_init gicRegs regs, fun _ => rfl, fun _ => rfl⟩

theorem lastEnabled_concat (n : Fin 8) (es : List (Event H C)) (e : Event H C) :
    lastEnabled n (es ++ [e]) = if e.timer = some n then
      match e with
      | .enable _ _ handler cookie => handler.map fun callback => (callback, cookie)
      | .disable _ => none
      | _ => lastEnabled n es
    else lastEnabled n es := by
  unfold lastEnabled
  rw [List.foldl_append, List.foldl_cons, List.foldl_nil]

theorem Tracks.step {gicRegs : GicRegs} {regs : ℕ → BitVec 32} {es : List (Event H C)}
    {e : Event H C} {s s' : Timers H C} (h : s.Tracks gicRegs regs es) (hs : s.step e = some s') :
    s'.Tracks gicRegs regs (es ++ [e]) := by
  unfold Timers.step at hs
  split_ifs at hs with hpossible
  obtain ⟨t, ht, hwf, hown, hnone⟩ := h.wf.handle (gicProbe_ne · gicRegs) hpossible
  obtain rfl := Option.some.inj (ht.symm.trans hs)
  have hconfig : ∀ n, t.config n = if e.timer = some n then
      (s.config n).next (decide (48 + n.val < gicProbe gicRegs)) e else s.config n := by
    intro n
    cases htimer : e.timer with
    | none => rw [hnone htimer, if_neg nofun]
    | some m =>
      rw [(hown m htimer).2]
      by_cases hm : m = n
      · subst hm
        rw [Function.update_self, if_pos rfl]
      · rw [Function.update_of_ne (Ne.symm hm), if_neg (by simpa using hm)]
  refine ⟨hwf, ?_, ?_⟩
  · intro n
    rw [hconfig, List.filter_append, Runs.run_append, ← h.config_eq n]
    by_cases htimer : e.timer = some n
    · simp [htimer]
    · simp [htimer]
  · intro n
    rw [hconfig, lastEnabled_concat]
    by_cases htimer : e.timer = some n
    · rw [if_pos htimer, if_pos htimer]
      cases e with
      | enable _ _ handler cookie => cases handler <;> rfl
      | disable _ => rfl
      | expire _ => exact h.callback_eq n
      | interrupt _ => exact h.callback_eq n
    · rw [if_neg htimer, if_neg htimer]
      exact h.callback_eq n

/-- In every run the configuration of a timer is the one that the events of this timer alone give,
no event is undefined, an event leaves the other timers alone, and an interrupt calls the callback
last enabled for its timer with its cookie, and nothing else. -/
theorem run_independent (gicRegs : GicRegs) (regs : ℕ → BitVec 32) (es : List (Event H C))
    (s : Timers H C) (h : Runs.exec step (init H C gicRegs regs) es = some s) :
    (∀ n : Fin 8, s.config n =
      Runs.run (TimerConfig.next (decide (48 + n.val < gicProbe gicRegs)))
        ((init H C gicRegs regs).config n) (es.filter fun e => e.timer = some n)) ∧
    ∀ e, s.Possible e → ∃ s', s.step e = some s' ∧
      (∀ n, e.timer ≠ some n → s'.config n = s.config n) ∧
      s'.calls = s.calls ++
        match e with
        | .interrupt n => (lastEnabled n es).toList
        | _ => [] := by
  have htracks : s.Tracks gicRegs regs es :=
    Runs.exec_history_invariant (fun _ _ _ _ ht hs => ht.step hs) (tracks_init gicRegs regs) h
  refine ⟨htracks.config_eq, ?_⟩
  intro e hpossible
  obtain ⟨s', hs', -, hown, hnone⟩ := htracks.wf.handle (gicProbe_ne · gicRegs) hpossible
  refine ⟨s', by rw [Timers.step, if_pos hpossible, hs'], ?_, ?_⟩
  · intro n hn
    cases htimer : e.timer with
    | none => rw [hnone htimer]
    | some m =>
      have hne : n ≠ m := fun heq => hn (by rw [htimer, heq])
      rw [(hown m htimer).2, Function.update_of_ne hne]
  · cases htimer : e.timer with
    | none =>
      cases e with
      | interrupt n => cases htimer
      | _ => rw [hnone htimer, List.append_nil]
    | some m =>
      rw [(hown m htimer).1]
      cases e with
      | interrupt n =>
        obtain rfl := Option.some.inj htimer
        dsimp only
        rw [← htracks.callback_eq]
        rfl
      | _ => rfl

/-- On a GIC with all lines timer 3 is enabled, timer 0 is enabled twice and timer 3 disabled, and
timer 0 interrupts. -/
theorem run_independent_two : ∃ s : Timers ℕ ℕ, s.calls = [(11, some 5)] ∧
    ∀ n : Fin 8, s.config n =
      Runs.run (TimerConfig.next (decide (48 + n.val < gicProbe ⟨0x0100143b, 0, 0, 31⟩)))
        ((init ℕ ℕ ⟨0x0100143b, 0, 0, 31⟩ fun _ => 0).config n)
        (([.enable 3 1000 (some 9) none, .enable 0 1000000 (some 10) none,
          .enable 0 500000 (some 11) (some 5), .disable 3, .expire 0,
          .interrupt 0] : List (Event ℕ ℕ)).filter fun e => e.timer = some n) :=
  ⟨_, by rfl, (run_independent ⟨0x0100143b, 0, 0, 31⟩ (fun _ => 0) _ _ rfl).1⟩

end Timers

end MetaCommon.AstTimer
