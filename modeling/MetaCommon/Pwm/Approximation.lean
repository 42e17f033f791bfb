import Mathlib.Algebra.Order.Ring.Nat
import MetaCommon.Pwm.Aspeed

/-!
# What a PWM channel is programmed with

A pair of dividers is passed over only while 255 of its ticks are shorter than the period, which is
at most a second. The next pair has at most twice the tick, so that no product comes near 32 bits,
and the outer loop ends before its 120th pass. The last tick reaches the period within the 255 steps
of the period register, and the divisions round down.
-/

namespace MetaCommon.Pwm

open RegisterFields

/-- The tick of a pair of dividers, without a bound on its size. -/
def exactTick (clk h l : ℕ) : ℕ := clk * 2 ^ h * (l + 1)

theorem exactTick_succ (clk h l : ℕ) : exactTick clk (h + 1) l = 2 * exactTick clk h l := by
  unfold exactTick
  rw [Nat.pow_succ]
  ac_rfl

theorem exactTick_pos {clk : ℕ} (hclk : 0 < clk) (h l : ℕ) : 0 < exactTick clk h l :=
  Nat.mul_pos (Nat.mul_pos hclk (Nat.two_pow_pos h)) (Nat.succ_pos l)

/-- The first tick of a pass is no longer than the last one of the pass before. -/
theorem exactTick_zero_succ_le (clk l : ℕ) : exactTick clk 0 (l + 1) ≤ exactTick clk 15 l := by
  unfold exactTick
  rw [Nat.mul_assoc, Nat.mul_assoc]
  apply Nat.mul_le_mul_left
  omega

/-- The pairs of dividers that the loops have passed over up to a pair. -/
structure Passed (clk period h l : ℕ) : Prop where
  outer : ∀ l', l = l' + 1 → exactTick clk 15 l' * 255 < period
  inner : ∀ h', h = h' + 1 → exactTick clk h' l * 255 < period

variable {clk period : ℕ}

theorem Passed.exactTick_lt {h l : ℕ} (hp : Passed clk period h l) (hfit : 255 * clk < 2 ^ 32)
    (hperiod : period ≤ 10 ^ 9) : exactTick clk h l * 255 < 2 ^ 32 := by
  cases h with
  | succ h =>
    have hlt := hp.inner h rfl
    rw [exactTick_succ, Nat.mul_assoc]
    omega
  | zero =>
    cases l with
    | zero =>
      unfold exactTick
      omega
    | succ l =>
      have hle : exactTick clk 0 (l + 1) * 255 ≤ exactTick clk 15 l * 255 :=
        Nat.mul_le_mul_right 255 (exactTick_zero_succ_le clk l)
      exact Nat.lt_of_le_of_lt hle (Nat.lt_of_lt_of_le (hp.outer l rfl)
        (Nat.le_trans hperiod (by decide)))

theorem Passed.divL_le {h l : ℕ} (hp : Passed clk period h l) (hclk : 0 < clk)
    (hperiod : period ≤ 10 ^ 9) : l ≤ 119 := by
  cases l with
  | zero => exact Nat.zero_le 119
  | succ l =>
    have hlt := hp.outer l rfl
    have hle : 1 * 2 ^ 15 * (l + 1) ≤ exactTick clk 15 l :=
      Nat.mul_le_mul_right (l + 1) (Nat.mul_le_mul_right (2 ^ 15) hclk)
    omega

/-! ### One step of the search -/

variable {clkTickNs periodNs : UInt32}

theorem tickOf_toNat {v : Locals} (hh : v.divH.toNat < 32)
    (hlt : exactTick clkTickNs.toNat v.divH.toNat v.divL.toNat < 2 ^ 32) :
    (tickOf clkTickNs v).toNat = exactTick clkTickNs.toNat v.divH.toNat v.divL.toNat := by
  have hl : v.divL.toNat < 2 ^ 8 := v.divL.toNat_lt
  unfold exactTick at hlt
  have hfirst : clkTickNs.toNat * 2 ^ v.divH.toNat < 2 ^ 32 :=
    Nat.lt_of_le_of_lt (Nat.le_mul_of_pos_right _ (Nat.succ_pos v.divL.toNat)) hlt
  have hbit : ((1 : UInt32) <<< v.divH.toUInt32).toNat = 2 ^ v.divH.toNat := by
    have hpow : 2 ^ v.divH.toNat < 2 ^ 32 := Nat.pow_lt_pow_right (by decide) hh
    rw [UInt32.toNat_shiftLeft, UInt8.toNat_toUInt32, Nat.mod_eq_of_lt hh, UInt32.toNat_one,
      Nat.one_shiftLeft, Nat.mod_eq_of_lt hpow]
  have hsucc : (v.divL.toUInt32 + 1).toNat = v.divL.toNat + 1 := by
    rw [UInt32.toNat_add, UInt8.toNat_toUInt32, UInt32.toNat_one]
    omega
  rw [tickOf, UInt32.toNat_mul, UInt32.toNat_mul, hbit, hsucc, Nat.mod_eq_of_lt hfirst,
    Nat.mod_eq_of_lt hlt, exactTick]

/-- What holds of the locals where the search stands. -/
def Invariant (clkTickNs periodNs : UInt32) : Search → Prop
  | .outer v => Passed clkTickNs.toNat periodNs.toNat 0 v.divL.toNat
  | .inner v => v.divH.toNat ≤ 16 ∧
      Passed clkTickNs.toNat periodNs.toNat v.divH.toNat v.divL.toNat ∧
      (v.divH.toNat = 16 →
        v.tickNs.toNat = exactTick clkTickNs.toNat 15 v.divL.toNat)
  | .leaving v => Passed clkTickNs.toNat periodNs.toNat 0 v.divL.toNat ∧
      v.tickNs.toNat * 255 < 2 ^ 32 ∧
      v.tickNs.toNat = exactTick clkTickNs.toNat (min v.divH.toNat 15) v.divL.toNat ∧
      (v.divH.toNat ≤ 15 ↔ periodNs.toNat ≤ v.tickNs.toNat * 255)
  | .done v => v.divH.toNat ≤ 15 ∧
      v.tickNs.toNat = exactTick clkTickNs.toNat v.divH.toNat v.divL.toNat ∧
      periodNs.toNat ≤ v.tickNs.toNat * 255

/-- The comparison of both loops, which tells the same as without the wrap. -/
theorem reaches_iff {tickNs : UInt32} (hlt : tickNs.toNat * 255 < 2 ^ 32) :
    tickNs * pwmPeriodMax ≥ periodNs ↔ periodNs.toNat ≤ tickNs.toNat * 255 := by
  have hmax : pwmPeriodMax.toNat = 255 := rfl
  rw [ge_iff_le, UInt32.le_iff_toNat_le, UInt32.toNat_mul, hmax, Nat.mod_eq_of_lt hlt]

theorem Passed.restart {h l : ℕ} (hp : Passed clk period h l) : Passed clk period 0 l :=
  ⟨hp.outer, fun _ h => absurd h (Nat.succ_ne_zero _).symm⟩

section Steps

variable (hfit : 255 * clkTickNs.toNat < 2 ^ 32) (hperiod : periodNs.toNat ≤ 10 ^ 9)

theorem invariant_outer {v : Locals} (hs : Invariant clkTickNs periodNs (.outer v)) :
    Invariant clkTickNs periodNs (searchStep clkTickNs periodNs (.outer v)) := by
  have hle : v.divL ≤ 0xff := UInt8.le_iff_toNat_le.mpr (Nat.le_of_lt_succ v.divL.toNat_lt)
  have hzero : (0 : UInt8).toNat = 0 := rfl
  rw [searchStep, if_pos hle]
  exact ⟨Nat.zero_le 16, hs, fun h => absurd (hzero.symm.trans h) (by decide)⟩

include hfit hperiod in
theorem exactTick_inner {v : Locals} (hs : Invariant clkTickNs periodNs (.inner v)) :
    exactTick clkTickNs.toNat v.divH.toNat v.divL.toNat * 255 < 2 ^ 32 :=
  hs.2.1.exactTick_lt hfit hperiod

include hfit hperiod in
theorem noOverflow_inner {v : Locals} (hs : Invariant clkTickNs periodNs (.inner v)) :
    NoOverflow clkTickNs (.inner v) := by
  intro _
  have hlt := exactTick_inner hfit hperiod hs
  have hle : clkTickNs.toNat * 2 ^ v.divH.toNat ≤
      exactTick clkTickNs.toNat v.divH.toNat v.divL.toNat :=
    Nat.le_mul_of_pos_right _ (Nat.succ_pos v.divL.toNat)
  have hh := hs.1
  exact ⟨by omega, by rw [← exactTick]; omega, hlt, by omega⟩

include hfit hperiod in
theorem invariant_inner {v : Locals} (hs : Invariant clkTickNs periodNs (.inner v)) :
    Invariant clkTickNs periodNs (searchStep clkTickNs periodNs (.inner v)) := by
  have hlt := exactTick_inner hfit hperiod hs
  obtain ⟨hh, hp, htick⟩ := hs
  by_cases hin : v.divH ≤ 0xf
  · have hle : v.divH.toNat ≤ 15 := UInt8.le_iff_toNat_le.mp hin
    have hexact : (tickOf clkTickNs v).toNat =
        exactTick clkTickNs.toNat v.divH.toNat v.divL.toNat :=
      tickOf_toNat (by omega) (by omega)
    rw [searchStep, if_pos hin]
    by_cases hreach : tickOf clkTickNs v * pwmPeriodMax ≥ periodNs
    · rw [if_pos hreach]
      rw [reaches_iff (by rwa [hexact])] at hreach
      have hmin : min v.divH.toNat 15 = v.divH.toNat := Nat.min_eq_left hle
      exact ⟨hp.restart, by rwa [hexact], by rw [hexact, hmin], by simp [hle, hreach]⟩
    · rw [if_neg hreach]
      rw [reaches_iff (by rwa [hexact]), hexact] at hreach
      have hsucc : (v.divH + 1).toNat = v.divH.toNat + 1 := by
        rw [UInt8.toNat_add, UInt8.toNat_one]
        omega
      refine ⟨by rw [hsucc]; omega, ⟨hp.outer, ?_⟩, ?_⟩
      · intro h' h
        obtain rfl : v.divH.toNat = h' := by rw [hsucc] at h; omega
        exact Nat.lt_of_not_le hreach
      · intro h
        rw [hsucc] at h
        rw [hexact, show v.divH.toNat = 15 by omega]
  · have hge : v.divH.toNat = 16 := by
      have hgt : ¬ v.divH.toNat ≤ 15 := fun h => hin (UInt8.le_iff_toNat_le.mpr h)
      omega
    have hpassed : v.tickNs.toNat * 255 < periodNs.toNat := by
      rw [htick hge]
      exact hp.inner 15 hge
    rw [searchStep, if_neg hin]
    have hsmall : v.tickNs.toNat * 255 < 2 ^ 32 :=
      hpassed.trans_le (hperiod.trans (by decide))
    refine ⟨hp.restart, hsmall, by rw [htick hge, hge, Nat.min_eq_right (by decide)], ?_⟩
    rw [hge]
    exact iff_of_false (by decide) (Nat.not_le.mpr hpassed)

theorem noOverflow_leaving (hclk : 0 < clkTickNs.toNat) (hperiod : periodNs.toNat ≤ 10 ^ 9)
    {v : Locals} (hs : Invariant clkTickNs periodNs (.leaving v)) :
    NoOverflow clkTickNs (.leaving v) := by
  have hle := hs.1.divL_le hclk hperiod
  exact ⟨hs.2.1, by omega⟩

theorem invariant_leaving (hclk : 0 < clkTickNs.toNat) (hperiod : periodNs.toNat ≤ 10 ^ 9)
    {v : Locals} (hs : Invariant clkTickNs periodNs (.leaving v)) :
    Invariant clkTickNs periodNs (searchStep clkTickNs periodNs (.leaving v)) := by
  have hle := hs.1.divL_le hclk hperiod
  obtain ⟨hp, hlt, htick, hiff⟩ := hs
  by_cases hreach : v.tickNs * pwmPeriodMax ≥ periodNs
  · rw [searchStep, if_pos hreach]
    rw [reaches_iff hlt] at hreach
    have hh : v.divH.toNat ≤ 15 := hiff.mpr hreach
    rw [Nat.min_eq_left hh] at htick
    exact ⟨hh, htick, hreach⟩
  · rw [searchStep, if_neg hreach]
    rw [reaches_iff hlt] at hreach
    have hh : ¬ v.divH.toNat ≤ 15 := fun h => hreach (hiff.mp h)
    rw [Nat.min_eq_right (by omega)] at htick
    have hsucc : (v.divL + 1).toNat = v.divL.toNat + 1 := by
      rw [UInt8.toNat_add, UInt8.toNat_one]
      omega
    refine ⟨?_, fun _ h => absurd h (Nat.succ_ne_zero _).symm⟩
    intro l' h
    obtain rfl : v.divL.toNat = l' := by rw [hsucc] at h; omega
    rw [← htick]
    omega

include hfit hperiod in
theorem invariant_searchStep (hclk : 0 < clkTickNs.toNat) {s : Search}
    (hs : Invariant clkTickNs periodNs s) :
    NoOverflow clkTickNs s ∧ Invariant clkTickNs periodNs (searchStep clkTickNs periodNs s) := by
  cases s with
  | outer v => exact ⟨trivial, invariant_outer hs⟩
  | inner v => exact ⟨noOverflow_inner hfit hperiod hs, invariant_inner hfit hperiod hs⟩
  | leaving v =>
    exact ⟨noOverflow_leaving hclk hperiod hs, invariant_leaving hclk hperiod hs⟩
  | done v => exact ⟨trivial, hs⟩

end Steps

/-! ### The whole search -/

/-- The steps that are left to the search at most. -/
def stepsLeft : Search → ℕ
  | .outer v => (256 - v.divL.toNat) * 32
  | .inner v => (256 - v.divL.toNat) * 32 - 1 - v.divH.toNat
  | .leaving v => (256 - v.divL.toNat) * 32 - 18
  | .done _ => 0

theorem stepsLeft_searchStep (hclk : 0 < clkTickNs.toNat) (hperiod : periodNs.toNat ≤ 10 ^ 9)
    {s : Search} (hs : Invariant clkTickNs periodNs s) :
    stepsLeft (searchStep clkTickNs periodNs s) ≤ stepsLeft s - 1 := by
  cases s with
  | outer v =>
    have hle : v.divL ≤ 0xff := UInt8.le_iff_toNat_le.mpr (Nat.le_of_lt_succ v.divL.toNat_lt)
    rw [searchStep, if_pos hle]
    exact Nat.sub_le _ _
  | inner v =>
    have hh := hs.1
    have hl : v.divL.toNat < 2 ^ 8 := v.divL.toNat_lt
    have hleave : (256 - v.divL.toNat) * 32 - 18 ≤
        (256 - v.divL.toNat) * 32 - 1 - v.divH.toNat - 1 := by omega
    rw [searchStep]
    dsimp only
    split_ifs with hin hreach
    · exact hleave
    · have hle : v.divH.toNat ≤ 15 := UInt8.le_iff_toNat_le.mp hin
      have hsucc : (v.divH + 1).toNat = v.divH.toNat + 1 := by
        rw [UInt8.toNat_add, UInt8.toNat_one]
        omega
      dsimp only [stepsLeft]
      omega
    · exact hleave
  | leaving v =>
    have hle := hs.1.divL_le hclk hperiod
    rw [searchStep]
    split_ifs
    · exact Nat.zero_le _
    · have hsucc : (v.divL + 1).toNat = v.divL.toNat + 1 := by
        rw [UInt8.toNat_add, UInt8.toNat_one]
        omega
      dsimp only [stepsLeft]
      omega
  | done v => exact le_rfl

section Runs

variable (hfit : 255 * clkTickNs.toNat < 2 ^ 32) (hperiod : periodNs.toNat ≤ 10 ^ 9)
  (hclk : 0 < clkTickNs.toNat) (v : Locals)
include hfit hperiod hclk

theorem invariant_searchRun (n : ℕ) :
    Invariant clkTickNs periodNs (searchRun clkTickNs periodNs v n) := by
  induction n with
  | zero =>
    have hzero : (0 : UInt8).toNat = 0 := rfl
    refine ⟨fun _ h => ?_, fun _ h => absurd h (Nat.succ_ne_zero _).symm⟩
    exact absurd (hzero.symm.trans h) (Nat.succ_ne_zero _).symm
  | succ n ih =>
    rw [searchRun, Function.iterate_succ_apply']
    exact (invariant_searchStep hfit hperiod hclk ih).2

theorem stepsLeft_searchRun (n : ℕ) :
    stepsLeft (searchRun clkTickNs periodNs v n) ≤
      stepsLeft (searchRun clkTickNs periodNs v 0) - n := by
  induction n with
  | zero => exact le_rfl
  | succ n ih =>
    have hstep := stepsLeft_searchStep hclk hperiod (invariant_searchRun hfit hperiod hclk v n)
    have hsucc : searchRun clkTickNs periodNs v (n + 1) =
        searchStep clkTickNs periodNs (searchRun clkTickNs periodNs v n) :=
      Function.iterate_succ_apply' _ n _
    rw [hsucc]
    omega

/-- The search ends, and from then on stays where it is. -/
theorem searchRun_ends : ∃ steps found, ∀ n ≥ steps,
    searchRun clkTickNs periodNs v n = .done found := by
  obtain ⟨steps, hsteps⟩ : ∃ steps, stepsLeft (searchRun clkTickNs periodNs v 0) = steps := ⟨_, rfl⟩
  have hended : stepsLeft (searchRun clkTickNs periodNs v steps) = 0 := by
    have hle := stepsLeft_searchRun hfit hperiod hclk v steps
    rwa [hsteps, Nat.sub_self, Nat.le_zero] at hle
  have hinv := invariant_searchRun hfit hperiod hclk v steps
  have hdone : ∃ found, searchRun clkTickNs periodNs v steps = .done found := by
    cases hs : searchRun clkTickNs periodNs v steps with
    | outer w =>
      have hl : w.divL.toNat < 2 ^ 8 := w.divL.toNat_lt
      rw [hs, stepsLeft] at hended
      omega
    | inner w =>
      have hl : w.divL.toNat < 2 ^ 8 := w.divL.toNat_lt
      rw [hs] at hended hinv
      have hh := hinv.1
      rw [stepsLeft] at hended
      omega
    | leaving w =>
      have hl : w.divL.toNat < 2 ^ 8 := w.divL.toNat_lt
      rw [hs, stepsLeft] at hended
      omega
    | done w => exact ⟨w, rfl⟩
  obtain ⟨found, hfound⟩ := hdone
  refine ⟨steps, found, fun n hn => ?_⟩
  obtain ⟨k, rfl⟩ := Nat.exists_eq_add_of_le' hn
  rw [searchRun] at hfound
  rw [searchRun, Function.iterate_add_apply, hfound]
  exact Function.iterate_fixed rfl k

end Runs

/-! ### The registers of the channel -/

theorem aspeedPwmCtrlCh_ne (channel : UInt32) :
    aspeedPwmDutyCycleCh channel ≠ aspeedPwmCtrlCh channel := by
  intro h
  have hoff : (0x04 : UInt32) = 0x00 := UInt32.add_right_inj (channel * 0x10) |>.mp h
  exact absurd hoff (by decide)

theorem toNat_ofU8 (v : UInt8) : (ofU8 v).toNat = v.toNat := rfl

theorem toNat_ofU8_lt (v : UInt8) : (ofU8 v).toNat < 2 ^ 8 := v.toNat_lt

def ctrlFields (v : Locals) : List (Field × BitVec 32) :=
  [(pwmClkDivH, ofU8 v.divH), (pwmClkDivL, ofU8 v.divL)]

def dutyFields (periodValue risingPoint : UInt8) : List (Field × BitVec 32) :=
  [(pwmPeriod, ofU8 periodValue), (pwmRisingPoint, ofU8 risingPoint),
    (pwmFallingPoint, ofU8 0)]

theorem ctrlFields_apart (v : Locals) :
    (ctrlFields v).Pairwise fun p q => p.1.Apart q.1 := by
  simp only [ctrlFields, List.pairwise_cons, List.mem_cons, List.not_mem_nil, or_false, forall_eq]
  exact ⟨by decide, fun _ h => h.elim, List.Pairwise.nil⟩

theorem dutyFields_apart (periodValue risingPoint : UInt8) :
    (dutyFields periodValue risingPoint).Pairwise fun p q => p.1.Apart q.1 := by
  simp only [dutyFields, List.pairwise_cons, List.mem_cons, List.not_mem_nil, or_false,
    forall_eq_or_imp, forall_eq]
  exact ⟨⟨by decide, by decide⟩, by decide, fun _ h => h.elim, List.Pairwise.nil⟩

def setFields (w : BitVec 32) (fs : List (Field × BitVec 32)) : BitVec 32 :=
  (w &&& ~~~masks fs) ||| word fs

theorem program_of_fits (regs : Regs) (channel dutyNs : UInt32) {v : Locals}
    (htick : v.tickNs ≠ 0) (hfits : ¬ periodNs / v.tickNs > pwmPeriodMax) :
    ∃ regs', program regs channel periodNs dutyNs v = some (0, regs') ∧
      regs' (aspeedPwmCtrlCh channel) =
        setFields (regs (aspeedPwmCtrlCh channel)) (ctrlFields v) ∧
      regs' (aspeedPwmDutyCycleCh channel) =
        setFields (regs (aspeedPwmDutyCycleCh channel))
          (dutyFields (periodNs / v.tickNs).toUInt8 (dutyNs / v.tickNs).toUInt8) := by
  rw [program, if_neg htick, if_neg hfits]
  refine ⟨_, rfl, ?_, ?_⟩
  · rw [clrsetbitsLe32, Function.update_self, clrsetbitsLe32,
      Function.update_of_ne (aspeedPwmCtrlCh_ne channel).symm]
    simp [setFields, ctrlFields, masks, word]
  · rw [clrsetbitsLe32, Function.update_of_ne (aspeedPwmCtrlCh_ne channel), clrsetbitsLe32,
      Function.update_self]
    simp [setFields, dutyFields, masks, word, BitVec.or_assoc]

/-- What the channel is programmed with, as the PWM reads it from its two registers. -/
structure Approximates (clkTickNs periodNs dutyNs : ℕ) (found : Locals) (ctrl duty : BitVec 32) :
    Prop where
  divH : fieldGet pwmClkDivH ctrl = found.divH.toNat
  divL : fieldGet pwmClkDivL ctrl = found.divL.toNat
  tick : exactTick clkTickNs (fieldGet pwmClkDivH ctrl) (fieldGet pwmClkDivL ctrl) =
    found.tickNs.toNat
  period_le : fieldGet pwmPeriod duty ≤ 255
  rising_le : fieldGet pwmRisingPoint duty ≤ fieldGet pwmPeriod duty
  falling : fieldGet pwmFallingPoint duty = 0
  period_below : fieldGet pwmPeriod duty * found.tickNs.toNat ≤ periodNs
  period_above : periodNs < (fieldGet pwmPeriod duty + 1) * found.tickNs.toNat
  duty_below : fieldGet pwmRisingPoint duty * found.tickNs.toNat ≤ dutyNs
  duty_above : dutyNs < (fieldGet pwmRisingPoint duty + 1) * found.tickNs.toNat

section Approximation

variable {dutyNs : UInt32} {v : Locals}

theorem tickNs_pos (hclk : 0 < clkTickNs.toNat) (hv : Invariant clkTickNs periodNs (.done v)) :
    0 < v.tickNs.toNat := by
  rw [hv.2.1]
  exact exactTick_pos hclk _ _

theorem quotient_le (hv : Invariant clkTickNs periodNs (.done v)) :
    periodNs.toNat / v.tickNs.toNat ≤ 255 := by
  apply Nat.div_le_of_le_mul
  rw [Nat.mul_comm]
  exact hv.2.2.trans (Nat.le_of_eq (Nat.mul_comm _ _))

theorem toUInt8_quotient {q : UInt32} (hq : (q / v.tickNs).toNat ≤ 255) :
    (ofU8 (q / v.tickNs).toUInt8).toNat = q.toNat / v.tickNs.toNat := by
  rw [toNat_ofU8, UInt32.toNat_toUInt8, Nat.mod_eq_of_lt (by omega), UInt32.toNat_div]

theorem quotient_above (q : ℕ) {t : ℕ} (ht : 0 < t) : q < (q / t + 1) * t := by
  rw [Nat.mul_comm]
  exact Nat.lt_mul_div_succ q ht

theorem program_approximates (regs : Regs) (channel : UInt32) (hclk : 0 < clkTickNs.toNat)
    (hduty : dutyNs.toNat ≤ periodNs.toNat) (hv : Invariant clkTickNs periodNs (.done v)) :
    ∃ regs', program regs channel periodNs dutyNs v = some (0, regs') ∧
      Approximates clkTickNs.toNat periodNs.toNat dutyNs.toNat v
        (regs' (aspeedPwmCtrlCh channel)) (regs' (aspeedPwmDutyCycleCh channel)) := by
  have hpos := tickNs_pos hclk hv
  have hperiodLe : (periodNs / v.tickNs).toNat ≤ 255 := quotient_le hv
  have hdutyLe : (dutyNs / v.tickNs).toNat ≤ (periodNs / v.tickNs).toNat :=
    Nat.div_le_div_right hduty
  have htick : v.tickNs ≠ 0 := fun h => absurd hpos (by rw [h]; decide)
  have hfits : ¬ periodNs / v.tickNs > pwmPeriodMax := by
    rw [gt_iff_lt, UInt32.lt_iff_toNat_lt, Nat.not_lt]
    exact hperiodLe
  obtain ⟨regs', hprogram, hctrl, hdutyReg⟩ := program_of_fits regs channel dutyNs htick hfits
  have hdivH : fieldGet pwmClkDivH (regs' (aspeedPwmCtrlCh channel)) = v.divH.toNat := by
    rw [hctrl]
    exact fieldGet_clear_set _ (ctrlFields_apart v) List.mem_cons_self (Nat.lt_succ_of_le hv.1)
  have hdivL : fieldGet pwmClkDivL (regs' (aspeedPwmCtrlCh channel)) = v.divL.toNat := by
    rw [hctrl]
    exact fieldGet_clear_set _ (ctrlFields_apart v)
      (List.mem_cons_of_mem _ List.mem_cons_self) (toNat_ofU8_lt v.divL)
  have hperiodField : fieldGet pwmPeriod (regs' (aspeedPwmDutyCycleCh channel)) =
      periodNs.toNat / v.tickNs.toNat := by
    rw [hdutyReg, ← toUInt8_quotient hperiodLe]
    exact fieldGet_clear_set _ (dutyFields_apart _ _) List.mem_cons_self (toNat_ofU8_lt _)
  have hrising : fieldGet pwmRisingPoint (regs' (aspeedPwmDutyCycleCh channel)) =
      dutyNs.toNat / v.tickNs.toNat := by
    rw [hdutyReg, ← toUInt8_quotient (hdutyLe.trans hperiodLe)]
    exact fieldGet_clear_set _ (dutyFields_apart _ _)
      (List.mem_cons_of_mem _ List.mem_cons_self) (toNat_ofU8_lt _)
  have hfalling : fieldGet pwmFallingPoint (regs' (aspeedPwmDutyCycleCh channel)) = 0 := by
    rw [hdutyReg]
    exact fieldGet_clear_set _ (dutyFields_apart _ _)
      (List.mem_cons_of_mem _ (List.mem_cons_of_mem _ List.mem_cons_self)) (toNat_ofU8_lt 0)
  refine ⟨regs', hprogram, ?_⟩
  exact {
    divH := hdivH
    divL := hdivL
    tick := by rw [hdivH, hdivL, hv.2.1]
    period_le := hperiodField ▸ hperiodLe
    rising_le := by rw [hrising, hperiodField]; exact hdutyLe
    falling := hfalling
    period_below := by rw [hperiodField]; exact Nat.div_mul_le_self _ _
    period_above := by rw [hperiodField]; exact quotient_above _ hpos
    duty_below := by rw [hrising]; exact Nat.div_mul_le_self _ _
    duty_above := by rw [hrising]; exact quotient_above _ hpos }

end Approximation

/-- Every tick and period in range: the search ends without an overflow, and the channel is
programmed with the period and the duty rounded down to the chosen tick. -/
theorem aspeedPwmSetConfig_approximates (priv : AspeedPwmPriv) (regs : Regs)
    (channel periodNs dutyNs : UInt32) (locals : Locals) (hclk : 1 ≤ priv.clkTickNs.toNat)
    (hfit : 255 * priv.clkTickNs.toNat < 2 ^ 32) (hperiod : periodNs.toNat ≤ 10 ^ 9)
    (hduty : dutyNs.toNat ≤ periodNs.toNat) :
    (∀ n, NoOverflow priv.clkTickNs (searchRun priv.clkTickNs periodNs locals n)) ∧
    ∃ steps found regs', ∀ fuel ≥ steps,
      searchRun priv.clkTickNs periodNs locals fuel = .done found ∧
      aspeedPwmSetConfig priv regs channel periodNs dutyNs locals fuel = some (0, regs') ∧
      Approximates priv.clkTickNs.toNat periodNs.toNat dutyNs.toNat found
        (regs' (aspeedPwmCtrlCh channel)) (regs' (aspeedPwmDutyCycleCh channel)) := by
  have hinv := invariant_searchRun hfit hperiod hclk locals
  refine ⟨fun n => (invariant_searchStep hfit hperiod hclk (hinv n)).1, ?_⟩
  obtain ⟨steps, found, hdone⟩ := searchRun_ends hfit hperiod hclk locals
  have hfound : Invariant priv.clkTickNs periodNs (.done found) := by
    rw [← hdone steps le_rfl]
    exact hinv steps
  obtain ⟨regs', hprogram, happrox⟩ := program_approximates regs channel hclk hduty hfound
  refine ⟨steps, found, regs', fun fuel hfuel => ⟨hdone fuel hfuel, ?_, happrox⟩⟩
  have hmax : ¬ periodNs > nsecPerSec := by
    rw [gt_iff_lt, UInt32.lt_iff_toNat_lt, Nat.not_lt]
    exact hperiod
  rw [aspeedPwmSetConfig, if_neg hmax, hdone fuel hfuel]
  exact hprogram

/-- A PWM of 25 kHz at half the duty, from the clock of 200 MHz that the probe finds. -/
theorem aspeedPwmSetConfig_approximates_25khz :
    aspeedPwmProbe 200000000 = some ⟨200000000, 5⟩ ∧
    (∀ n, NoOverflow 5 (searchRun 5 40000 ⟨0, 0, 0⟩ n)) ∧
    ∃ steps found regs', ∀ fuel ≥ steps,
      searchRun 5 40000 ⟨0, 0, 0⟩ fuel = .done found ∧
      aspeedPwmSetConfig ⟨200000000, 5⟩ (fun _ => 0) 0 40000 20000 ⟨0, 0, 0⟩ fuel =
        some (0, regs') ∧
      Approximates 5 40000 20000 found
        (regs' (aspeedPwmCtrlCh 0)) (regs' (aspeedPwmDutyCycleCh 0)) :=
  ⟨rfl, aspeedPwmSetConfig_approximates ⟨200000000, 5⟩ (fun _ => 0) 0 40000 20000 ⟨0, 0, 0⟩
    (by decide) (by decide) (by decide) (by decide)⟩

end MetaCommon.Pwm
