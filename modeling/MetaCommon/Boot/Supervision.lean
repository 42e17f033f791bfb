import Mathlib.Tactic.Linarith
import MetaCommon.Bootargs.Update
import MetaCommon.Lib.Runs

/-!
# The supervision of the boots

`board_late_init` counts in the environment the boots that follow a reset by the watchdog, and
`abortboot` stays in the boot loader when there have been too many, when the jumper for the forced
update is set, or when a key is pressed. One boot is a step from the saved environment to the next
one. The release image and the image for PFR differ from the others in the patches they take.
-/

namespace MetaCommon.Boot

open Bootargs (Text updateBootargsCmd)

abbrev Word := BitVec 32

/-- The numbers of the bits of the reset reason. -/
def SYS_PWR_RESET_FLAG : ℕ := 0
def EXTRST_RESET_BIT : ℕ := 1
def WATCHDOG_RESET_BIT : ℕ := 20

def BOOT_FAILURE_LIMIT : ℕ := 3

structure Features where
  pfr : Bool
  release : Bool

/-- The variables of the environment: the number that the text of `bootfailures` stands for, and
the command line. -/
structure Env where
  bootfailures : Option Word
  bootargs : Option Text
  deriving DecidableEq

/-- What a boot finds: the reset reason, the readings of the power button in their order, whether
there is memory for the two updates of the command line, the three readings of the jumper in their
order, the delay and whether a key is pressed in it. -/
structure Inputs where
  resetReason : Word
  button : ℕ → ℤ
  mallocReason : Bool
  mallocSpecial : Bool
  ffujLateInit : ℤ
  ffujAbort : ℤ
  ffujPreAbort : ℤ
  bootdelay : ℤ
  keyPressed : Bool

inductive Verdict where
  | autoboot
  | aborted
  /-- The endless loop of the release image. -/
  | disabled
  deriving DecidableEq, Repr

structure Outcome where
  bootargs : Option Text
  saved : Env
  inits : ℕ
  delayMs : ℕ
  verdict : Verdict

def getBootFailures (env : Env) : Word := env.bootfailures.getD 0

/-- The environment in memory and the saved one. -/
def setBootFailures (count : Word) (env flash : Env) : Env × Env :=
  if BOOT_FAILURE_LIMIT < count.toNat then (env, flash)
  else ({ env with bootfailures := some count }, { env with bootfailures := some count })

/-- The comparison is one of `int`s. -/
def intelFailedBoot (env : Env) : Bool := decide (BOOT_FAILURE_LIMIT ≤ (getBootFailures env).toInt)

/-- The number of turns of a loop that stops at the first reading that is not `1`, from the reading
`i` on and for `n` turns at most. -/
def countPressed (button : ℕ → ℤ) : ℕ → ℕ → ℕ
  | _, 0 => 0
  | i, n + 1 => if button i ≠ 1 then 0 else countPressed button (i + 1) n + 1

def delayInMs : ℕ := 100
def readCount : ℕ := 15 * 1000 / delayInMs
def delayForIndication : ℕ := 2 * 1000

/-- The answer, and the delay in milliseconds. -/
def isMfgModePhyReq (button : ℕ → ℤ) : Bool × ℕ :=
  let count := countPressed button 0 readCount
  if count < readCount then (false, delayInMs * count)
  else
    let held := countPressed button readCount readCount
    (true, delayInMs * readCount + delayInMs * held +
      if delayInMs * held < delayForIndication then delayForIndication - delayInMs * held else 0)

/-- The text of the reset reason. Its ten characters fit into the buffer of eleven. -/
def reasonText (reason : Word) : Text := '0' :: 'x' :: Nat.toDigits 16 reason.toNat

def resetreason : Text := "resetreason".toList
def special : Text := "special".toList
def mfg : Text := "mfg".toList

/-- A reset that counts as a failed boot. -/
def countsAsFailure (features : Features) (inp : Inputs) : Bool :=
  inp.resetReason.getLsbD WATCHDOG_RESET_BIT &&
    !(features.pfr && inp.resetReason.getLsbD EXTRST_RESET_BIT)

def countFailure (features : Features) (inp : Inputs) (env flash : Env) : Env × Env :=
  if countsAsFailure features inp then setBootFailures (getBootFailures env + 1) env flash
  else setBootFailures 0 env flash

/-- The special mode in the command line, with the delay. -/
def markSpecial (inp : Inputs) (bootargs : Option Text) : Option (Option Text × ℕ) :=
  if inp.resetReason.getLsbD SYS_PWR_RESET_FLAG then
    let (request, delayMs) := isMfgModePhyReq inp.button
    if request then
      (updateBootargsCmd inp.mallocSpecial bootargs (some special) (some mfg)).map
        fun r => (r.bootargs, delayMs)
    else some (bootargs, delayMs)
  else some (bootargs, 0)

structure LateInit where
  env : Env
  saved : Env
  /-- How often `espi_init` and `kcs_init` are called, which is always together. -/
  inits : ℕ
  delayMs : ℕ

/-- `board_late_init`; it is `none` where `bootargs` is missing. -/
def boardLateInit (features : Features) (flash : Env) (inp : Inputs) : Option LateInit := do
  let r ← updateBootargsCmd inp.mallocReason flash.bootargs (some resetreason)
    (some (reasonText inp.resetReason))
  let envs := countFailure features inp { flash with bootargs := r.bootargs } flash
  let marked ← markSpecial inp envs.1.bootargs
  some ⟨{ envs.1 with bootargs := marked.1 }, envs.2, if inp.ffujLateInit ≠ 0 then 1 else 0,
    marked.2⟩

/-- The delay leaves time for a key, and one is pressed. -/
def stopped (inp : Inputs) : Bool := decide (0 ≤ inp.bootdelay) && inp.keyPressed

/-- In the release image the jumper and the failures are two tests, and the first one does not
return where it is set. -/
def abortboot (features : Features) (env : Env) (inp : Inputs) : Verdict :=
  if features.release then
    if stopped inp = false ∧ 0 < inp.ffujAbort then .disabled
    else if intelFailedBoot env then .aborted
    else if stopped inp then .aborted
    else .autoboot
  else if stopped inp then .aborted
  else if intelFailedBoot env then .aborted
  else if 0 < inp.ffujAbort then .aborted
  else .autoboot

/-- `board_pre_abort_autoboot` -/
def preAbortInits (verdict : Verdict) (inp : Inputs) : ℕ :=
  if verdict = .aborted ∧ inp.ffujPreAbort = 0 then 1 else 0

def boot (features : Features) (flash : Env) (inp : Inputs) : Option Outcome :=
  (boardLateInit features flash inp).map fun late =>
    let verdict := abortboot features late.env inp
    { bootargs := late.env.bootargs
      saved := late.saved
      inits := late.inits + preAbortInits verdict inp
      delayMs := late.delayMs
      verdict }

/-- A boot as a step of the saved environment. -/
def bootStep (features : Features) (flash : Env) (inp : Inputs) : Option Env :=
  (boot features flash inp).map Outcome.saved

/-! ### What a boot does -/

variable {features : Features} {flash : Env} {inp : Inputs}

theorem bootargs_countFailure (env flash : Env) :
    (countFailure features inp env flash).1.bootargs = env.bootargs := by
  unfold countFailure setBootFailures
  split_ifs <;> rfl

theorem boardLateInit_cases {late : LateInit} (h : boardLateInit features flash inp = some late) :
    ∃ r marked,
      updateBootargsCmd inp.mallocReason flash.bootargs (some resetreason)
        (some (reasonText inp.resetReason)) = some r ∧
      markSpecial inp r.bootargs = some marked ∧
      late = ⟨{ (countFailure features inp { flash with bootargs := r.bootargs } flash).1 with
          bootargs := marked.1 },
        (countFailure features inp { flash with bootargs := r.bootargs } flash).2,
        if inp.ffujLateInit ≠ 0 then 1 else 0, marked.2⟩ := by
  unfold boardLateInit at h
  obtain ⟨r, hr, h⟩ := Option.bind_eq_some_iff.mp h
  obtain ⟨marked, hmarked, h⟩ := Option.bind_eq_some_iff.mp h
  rw [bootargs_countFailure] at hmarked
  exact ⟨r, marked, hr, hmarked, (Option.some.inj h).symm⟩

theorem boot_cases {out : Outcome} (h : boot features flash inp = some out) :
    ∃ late, boardLateInit features flash inp = some late ∧
      out.saved = late.saved ∧ out.bootargs = late.env.bootargs ∧ out.delayMs = late.delayMs ∧
      out.verdict = abortboot features late.env inp ∧
      out.inits = late.inits + preAbortInits out.verdict inp := by
  obtain ⟨late, hlate, rfl⟩ := Option.map_eq_some_iff.mp h
  exact ⟨late, hlate, rfl, rfl, rfl, rfl, rfl⟩

/-! ### The count of the failures -/

/-- The counter as it is meant: it is cleared by every boot that does not count, and stays at the
limit. -/
def nextFailures (features : Features) (inp : Inputs) (n : ℕ) : ℕ :=
  if countsAsFailure features inp then min BOOT_FAILURE_LIMIT (n + 1) else 0

/-- The number of the boots at the end of a run that count as failures. -/
def streak (features : Features) (inps : List Inputs) : ℕ :=
  (inps.reverse.takeWhile (countsAsFailure features)).length

theorem streak_concat (features : Features) (inps : List Inputs) (inp : Inputs) :
    streak features (inps ++ [inp]) =
      if countsAsFailure features inp then streak features inps + 1 else 0 := by
  unfold streak
  rw [List.reverse_append, List.reverse_singleton, List.singleton_append]
  by_cases hc : countsAsFailure features inp = true
  · rw [List.takeWhile_cons_of_pos hc, if_pos hc, List.length_cons]
  · rw [List.takeWhile_cons_of_neg hc, if_neg hc, List.length_nil]

def failures (env : Env) : ℕ := (getBootFailures env).toNat

/-- Up to the limit the counter in memory and the saved one are what they are meant to be. -/
theorem failures_countFailure (env : Env) (hle : failures env ≤ BOOT_FAILURE_LIMIT)
    (hsame : failures flash = failures env) :
    failures (countFailure features inp env flash).1 = nextFailures features inp (failures env) ∧
    failures (countFailure features inp env flash).2 = nextFailures features inp (failures env) := by
  unfold countFailure nextFailures
  by_cases hc : countsAsFailure features inp = true
  · rw [if_pos hc, if_pos hc]
    have hsucc : (getBootFailures env + 1).toNat = failures env + 1 := by
      have hlimit : (getBootFailures env).toNat ≤ 3 := hle
      have hone : (1 : Word).toNat = 1 := rfl
      rw [BitVec.toNat_add, hone]
      exact Nat.mod_eq_of_lt (by omega)
    unfold setBootFailures
    rw [hsucc]
    by_cases hlimit : BOOT_FAILURE_LIMIT < failures env + 1
    · rw [if_pos hlimit]
      constructor <;> simp only [hsame] <;> omega
    · rw [if_neg hlimit]
      have hset : failures { env with bootfailures := some (getBootFailures env + 1) } =
          failures env + 1 := hsucc
      rw [hset]
      constructor <;> omega
  · rw [if_neg hc, if_neg hc]
    exact ⟨rfl, rfl⟩

theorem failures_of_boardLateInit {late : LateInit} (hle : failures flash ≤ BOOT_FAILURE_LIMIT)
    (h : boardLateInit features flash inp = some late) :
    failures late.env = nextFailures features inp (failures flash) ∧
    failures late.saved = nextFailures features inp (failures flash) := by
  obtain ⟨r, marked, -, -, rfl⟩ := boardLateInit_cases h
  exact failures_countFailure { flash with bootargs := r.bootargs } hle rfl

theorem nextFailures_le (n : ℕ) : nextFailures features inp n ≤ BOOT_FAILURE_LIMIT := by
  unfold nextFailures
  split_ifs <;> omega

/-- After a run the counter is the length of its last streak, and of the one before the run if all
its boots count, up to the limit. -/
theorem failures_of_exec {flash' : Env} (hle : failures flash ≤ BOOT_FAILURE_LIMIT)
    {inps : List Inputs} (h : Runs.exec (bootStep features) flash inps = some flash') :
    failures flash' = min BOOT_FAILURE_LIMIT
      (streak features inps +
        if streak features inps = inps.length then failures flash else 0) := by
  apply Runs.exec_history_invariant (R := fun inps env => failures env = min BOOT_FAILURE_LIMIT
    (streak features inps + if streak features inps = inps.length then failures flash else 0)) _ _ h
  · intro inps env inp env' hR hstep
    obtain ⟨out, hout, rfl⟩ := Option.map_eq_some_iff.mp hstep
    obtain ⟨late, hlate, hsaved, -⟩ := boot_cases hout
    have hle' : failures env ≤ BOOT_FAILURE_LIMIT := by omega
    rw [hsaved, (failures_of_boardLateInit hle' hlate).2, nextFailures, streak_concat, hR,
      List.length_append, List.length_singleton]
    by_cases hc : countsAsFailure features inp = true
    · rw [if_pos hc, if_pos hc]
      by_cases hall : streak features inps = inps.length
      · rw [if_pos hall, if_pos (by omega)]
        omega
      · rw [if_neg hall, if_neg (by omega)]
        omega
    · rw [if_neg hc, if_neg hc, if_neg (by omega)]
      omega
  · simpa [streak] using (Nat.min_eq_right hle).symm

theorem intelFailedBoot_iff {env : Env} (hle : failures env ≤ BOOT_FAILURE_LIMIT) :
    intelFailedBoot env = true ↔ failures env = BOOT_FAILURE_LIMIT := by
  have hint : (getBootFailures env).toInt = failures env := by
    have hlimit : (getBootFailures env).toNat ≤ 3 := hle
    apply BitVec.toInt_eq_toNat_of_lt
    omega
  rw [intelFailedBoot, decide_eq_true_eq, hint]
  omega

/-! ### The verdict on a boot -/

theorem abortboot_autoboot_iff {env : Env} (hle : failures env ≤ BOOT_FAILURE_LIMIT) :
    abortboot features env inp = .autoboot ↔
      stopped inp = false ∧ inp.ffujAbort ≤ 0 ∧ failures env < BOOT_FAILURE_LIMIT := by
  have hfailed := intelFailedBoot_iff hle
  have hlt : failures env < BOOT_FAILURE_LIMIT ↔ intelFailedBoot env = false := by
    rw [← Bool.not_eq_true, hfailed]
    omega
  rw [hlt]
  unfold abortboot
  by_cases hs : stopped inp = true
  · cases features.release with
    | true => cases intelFailedBoot env <;> simp [hs]
    | false => simp [hs]
  · by_cases hffuj : 0 < inp.ffujAbort
    · have hnot : ¬ inp.ffujAbort ≤ 0 := by omega
      cases features.release with
      | true => simp [hs, hffuj, hnot]
      | false => cases intelFailedBoot env <;> simp [hs, hffuj, hnot]
    · have hle : inp.ffujAbort ≤ 0 := by omega
      cases features.release with
      | true => cases intelFailedBoot env <;> simp [hs, hffuj, hle]
      | false => cases intelFailedBoot env <;> simp [hs, hffuj, hle]

theorem abortboot_disabled_iff {env : Env} :
    abortboot features env inp = .disabled ↔
      features.release = true ∧ stopped inp = false ∧ 0 < inp.ffujAbort := by
  unfold abortboot
  cases features.release with
  | true =>
    by_cases hloop : stopped inp = false ∧ 0 < inp.ffujAbort
    · simp [hloop]
    · simp only [if_true, if_neg hloop]
      refine iff_of_false ?_ fun h => hloop h.2
      split_ifs <;> simp
  | false =>
    simp only [Bool.false_eq_true, if_false, false_and, iff_false]
    split_ifs <;> simp

/-- With a jumper that reads the same each time, eSPI and KCS are set up once where it is not clear
or the boot stays in the boot loader, and otherwise not at all. -/
theorem inits_of_steady_jumper {out : Outcome} (h : boot features flash inp = some out)
    (hPre : inp.ffujPreAbort = inp.ffujLateInit) :
    out.inits = if inp.ffujLateInit ≠ 0 ∨ out.verdict = .aborted then 1 else 0 := by
  obtain ⟨late, hlate, -, -, -, -, hinits⟩ := boot_cases h
  obtain ⟨r, marked, -, -, rfl⟩ := boardLateInit_cases hlate
  rw [hinits, preAbortInits, hPre]
  by_cases hzero : inp.ffujLateInit = 0
  · by_cases hverdict : out.verdict = .aborted
    · simp [hzero, hverdict]
    · simp [hzero, hverdict]
  · simp [hzero]

/-- Whatever boots came before: the counter is the length of the last streak of counted resets, the
boot goes on to the kernel exactly where no key, no jumper and no full counter stops it, and eSPI is
left alone in the boots that do so with a jumper that is clear. -/
theorem boot_after_streak (features : Features) (flash flash' : Env) (inps : List Inputs)
    (inp : Inputs) (out : Outcome) (hle : failures flash ≤ BOOT_FAILURE_LIMIT)
    (hrun : Runs.exec (bootStep features) flash inps = some flash')
    (hout : boot features flash' inp = some out) :
    failures out.saved = min BOOT_FAILURE_LIMIT (streak features (inps ++ [inp]) +
      if streak features (inps ++ [inp]) = (inps ++ [inp]).length then failures flash else 0) ∧
    (out.verdict = .autoboot ↔
      stopped inp = false ∧ inp.ffujAbort ≤ 0 ∧ failures out.saved < BOOT_FAILURE_LIMIT) ∧
    (out.verdict = .disabled ↔ features.release = true ∧ stopped inp = false ∧ 0 < inp.ffujAbort) ∧
    (inp.ffujPreAbort = inp.ffujLateInit →
      out.inits = if inp.ffujLateInit ≠ 0 ∨ out.verdict = .aborted then 1 else 0) := by
  have hall : Runs.exec (bootStep features) flash (inps ++ [inp]) = some out.saved := by
    rw [Runs.exec_append, hrun, Option.bind_some, Runs.exec_cons, bootStep, hout]
    rfl
  have hle' : failures flash' ≤ BOOT_FAILURE_LIMIT := by
    rw [failures_of_exec hle hrun]
    omega
  obtain ⟨late, hlate, hsaved, -, -, hverdict, -⟩ := boot_cases hout
  obtain ⟨henv, hflash⟩ := failures_of_boardLateInit hle' hlate
  have hlateLe : failures late.env ≤ BOOT_FAILURE_LIMIT := by
    rw [henv]
    exact nextFailures_le _
  refine ⟨failures_of_exec hle hall, ?_, ?_, inits_of_steady_jumper hout⟩
  · rw [hverdict, abortboot_autoboot_iff hlateLe, hsaved, hflash, henv]
  · rw [hverdict, abortboot_disabled_iff]

/-- A boot after a reset by the watchdog, with nothing that stops it. -/
def watchdogBoot : Inputs where
  resetReason := 0x00100000
  button _ := 0
  mallocReason := true
  mallocSpecial := true
  ffujLateInit := 0
  ffujAbort := 0
  ffujPreAbort := 0
  bootdelay := 2
  keyPressed := false

def freshEnv : Env := ⟨none, some "console=ttyS4".toList⟩

def envAfterTwo : Env := ⟨some 2, some "console=ttyS4 resetreason=0x100000".toList⟩

/-- The third such boot in a row stays in the boot loader. -/
theorem boot_after_three_watchdog_resets :
    ∃ out, boot ⟨false, false⟩ envAfterTwo watchdogBoot = some out ∧ failures out.saved = 3 ∧
      out.verdict ≠ .autoboot := by
  have hsome : (boot ⟨false, false⟩ envAfterTwo watchdogBoot).isSome = true := by decide
  obtain ⟨out, hout⟩ := Option.isSome_iff_exists.mp hsome
  obtain ⟨hsaved, hverdict, -⟩ := boot_after_streak ⟨false, false⟩ freshEnv envAfterTwo
    [watchdogBoot, watchdogBoot] watchdogBoot out (by decide) (by decide) hout
  have hthree : failures out.saved = 3 := hsaved
  refine ⟨out, hout, hthree, fun h => ?_⟩
  have hlt := (hverdict.mp h).2.2
  rw [hthree] at hlt
  exact absurd hlt (by decide)

end MetaCommon.Boot
