import MetaCommon.Boot.Supervision

/-!
# The command line over the boots

The command line that a boot hands to the kernel names the reset reason of that boot and, where the
power button was held, the special mode. The saved environment carries the reset reason on to the
next boot, where it is replaced; the special mode is set after the environment is saved.
-/

namespace MetaCommon.Boot

open Bootargs (Text updateBootargsCmd HasKey token compKey replaced replaceWord)

/-- The button reads as pressed for all of the first fifteen seconds. -/
def HeldAtPowerOn (inp : Inputs) : Prop :=
  inp.resetReason.getLsbD SYS_PWR_RESET_FLAG = true ∧ ∀ i < readCount, inp.button i = 1

instance (inp : Inputs) : Decidable (HeldAtPowerOn inp) :=
  inferInstanceAs (Decidable (_ ∧ ∀ i < readCount, inp.button i = 1))

/-! ### The power button -/

theorem countPressed_le (button : ℕ → ℤ) (i n : ℕ) : countPressed button i n ≤ n := by
  induction n generalizing i with
  | zero => exact Nat.le_refl 0
  | succ n ih =>
    rw [countPressed]
    split_ifs
    · exact Nat.zero_le _
    · exact Nat.succ_le_succ (ih (i + 1))

theorem countPressed_eq_iff (button : ℕ → ℤ) (i n : ℕ) :
    countPressed button i n = n ↔ ∀ j < n, button (i + j) = 1 := by
  induction n generalizing i with
  | zero => simp [countPressed]
  | succ n ih =>
    rw [countPressed]
    by_cases hi : button i = 1
    · rw [if_neg (not_not.mpr hi), Nat.add_right_cancel_iff, ih]
      constructor
      · intro h j hj
        cases j with
        | zero => exact hi
        | succ j =>
          have hstep := h j (by omega)
          rwa [Nat.add_assoc, Nat.add_comm 1 j] at hstep
      · intro h j hj
        have hstep := h (j + 1) (by omega)
        rwa [Nat.add_assoc, Nat.add_comm 1 j]
    · rw [if_pos hi]
      refine iff_of_false (by omega) fun h => hi ?_
      exact h 0 (by omega)

theorem isMfgModePhyReq_iff (button : ℕ → ℤ) :
    (isMfgModePhyReq button).1 = true ↔ ∀ i < readCount, button i = 1 := by
  have hcount := countPressed_eq_iff button 0 readCount
  have hle := countPressed_le button 0 readCount
  simp only [Nat.zero_add] at hcount
  rw [← hcount]
  unfold isMfgModePhyReq
  by_cases hlt : countPressed button 0 readCount < readCount
  · simp only [if_pos hlt]
    exact iff_of_false (by decide) (by omega)
  · simp only [if_neg hlt]
    exact iff_of_true trivial (by omega)

/-! ### The words of the line -/

/-- What the code expects of the words of a command line: the reset reason stands in one word at
most, no word before that one has it inside, and no word has the special mode in it. -/
structure Expected (ws : List Text) : Prop where
  atMostOne : (ws.filter (HasKey resetreason)).length ≤ 1
  first : ∀ w, ws.find? (compKey resetreason <:+: ·) = some w → HasKey resetreason w
  noSpecial : ∀ w ∈ ws, ¬ compKey special <:+: w

/-- The words that neither update touches. -/
def otherWords (ws : List Text) : List Text := ws.filter (¬ HasKey resetreason ·)

def reasonToken (reason : Word) : Text := token resetreason (reasonText reason)

def specialToken : Text := token special mfg

def hexDigits : List Char := "0123456789abcdef".toList

theorem mem_hexDigits_of_mem_toDigits (n : ℕ) : ∀ c ∈ Nat.toDigits 16 n, c ∈ hexDigits := by
  have hdigit : ∀ d < 16, Nat.digitChar d ∈ hexDigits := by decide
  induction n using Nat.strong_induction_on with
  | _ n ih =>
    intro c hc
    rw [Nat.toDigits_eq_if (by decide)] at hc
    by_cases hlt : n < 16
    · rw [if_pos hlt, List.mem_singleton] at hc
      rw [hc]
      exact hdigit n hlt
    · rw [if_neg hlt, List.mem_append, List.mem_singleton] at hc
      rcases hc with hc | hc
      · exact ih (n / 16) (by omega) c hc
      · rw [hc]
        exact hdigit (n % 16) (by omega)

theorem mem_of_mem_reasonToken {reason : Word} {c : Char} (hc : c ∈ reasonToken reason) :
    c ∈ "resetreason=0x".toList ++ hexDigits := by
  have hsplit : reasonToken reason = "resetreason=0x".toList ++ Nat.toDigits 16 reason.toNat := rfl
  rw [hsplit, List.mem_append] at hc
  rw [List.mem_append]
  exact hc.imp_right (mem_hexDigits_of_mem_toDigits _ c)

theorem not_special_in_reasonToken (reason : Word) :
    ¬ compKey special <:+: reasonToken reason := by
  intro h
  have hp : 'p' ∈ reasonToken reason := h.subset (by decide)
  exact absurd (mem_of_mem_reasonToken hp) (by decide)

theorem space_notMem_reasonToken (reason : Word) : ' ' ∉ reasonToken reason := by
  intro h
  exact absurd (mem_of_mem_reasonToken h) (by decide)

/-- The update of the reset reason keeps the words in order and names the reason once. -/
theorem expected_replaceWord {ws : List Text} (h : Expected ws) (reason : Word) :
    Expected (replaceWord (compKey resetreason) (reasonToken reason) ws) ∧
    (replaceWord (compKey resetreason) (reasonToken reason) ws).filter (HasKey resetreason) =
      [reasonToken reason] ∧
    otherWords (replaceWord (compKey resetreason) (reasonToken reason) ws) = otherWords ws := by
  have hkey : HasKey resetreason (reasonToken reason) := Bootargs.hasKey_token _ _
  have hcomp := Bootargs.compKey_prefix_key resetreason
  obtain ⟨hone, hothers, htwice⟩ :=
    (Bootargs.replaceWord_settled_iff hcomp hkey ws).mpr ⟨h.atMostOne, h.first⟩
  generalize replaceWord (compKey resetreason) (reasonToken reason) ws = us at hone hothers htwice ⊢
  obtain ⟨hmost, hfirst⟩ := (Bootargs.replaceWord_settled_iff hcomp hkey us).mp
    ⟨by rw [htwice, hone], by rw [htwice], by rw [htwice, htwice]⟩
  refine ⟨⟨hmost, hfirst, ?_⟩, hone, hothers⟩
  intro w hw
  by_cases hhas : HasKey resetreason w
  · have hmem : w ∈ us.filter (HasKey resetreason) := List.mem_filter.mpr ⟨hw, by simpa using hhas⟩
    rw [hone, List.mem_singleton] at hmem
    rw [hmem]
    exact not_special_in_reasonToken reason
  · have hmem : w ∈ us.filter (¬ HasKey resetreason ·) :=
      List.mem_filter.mpr ⟨hw, by simpa using hhas⟩
    rw [hothers] at hmem
    exact h.noSpecial w (List.mem_filter.mp hmem).1

/-- Where no word has the special mode in it, it becomes the last word. -/
theorem replaceWord_special {ws : List Text} (h : ∀ w ∈ ws, ¬ compKey special <:+: w) :
    replaceWord (compKey special) specialToken ws = ws ++ [specialToken] := by
  induction ws with
  | nil => rfl
  | cons w ws ih =>
    rw [List.forall_mem_cons] at h
    rw [replaceWord, if_neg h.1, ih h.2, List.cons_append]

/-! ### One boot -/

theorem updateReason (line : Text) (reason : Word) :
    ∃ r line', updateBootargsCmd true (some line) (some resetreason) (some (reasonText reason)) =
        some r ∧ r.bootargs = some line' ∧
      line'.splitOn ' ' =
        replaceWord (compKey resetreason) (reasonToken reason) (line.splitOn ' ') := by
  have hkey : resetreason ≠ [] := by decide
  obtain ⟨r, hr, hline, -⟩ := Bootargs.updateBootargsCmd_replaced hkey
    line (some (reasonText reason))
  refine ⟨r, _, hr, hline, ?_⟩
  exact Bootargs.splitOn_replaced (by decide) (space_notMem_reasonToken reason) line

theorem updateSpecial {line : Text} (h : ∀ w ∈ line.splitOn ' ', ¬ compKey special <:+: w) :
    ∃ r line', updateBootargsCmd true (some line) (some special) (some mfg) = some r ∧
      r.bootargs = some line' ∧ line'.splitOn ' ' = line.splitOn ' ' ++ [specialToken] := by
  have hkey : special ≠ [] := by decide
  obtain ⟨r, hr, hline, -⟩ := Bootargs.updateBootargsCmd_replaced hkey line (some mfg)
  refine ⟨r, _, hr, hline, ?_⟩
  rw [Bootargs.splitOn_replaced (by decide) (by decide) line]
  exact replaceWord_special h

theorem markSpecial_words {inp : Inputs} {line : Text} (hmalloc : inp.mallocSpecial = true)
    (h : ∀ w ∈ line.splitOn ' ', ¬ compKey special <:+: w) :
    ∃ marked line', markSpecial inp (some line) = some marked ∧ marked.1 = some line' ∧
      line'.splitOn ' ' =
        line.splitOn ' ' ++ if HeldAtPowerOn inp then [specialToken] else [] := by
  unfold markSpecial
  by_cases hpower : inp.resetReason.getLsbD SYS_PWR_RESET_FLAG = true
  · rw [if_pos hpower]
    dsimp only
    by_cases hheld : (isMfgModePhyReq inp.button).1 = true
    · obtain ⟨r, line', hr, hline, hwords⟩ := updateSpecial h
      rw [if_pos hheld, hmalloc, hr, if_pos ⟨hpower, (isMfgModePhyReq_iff _).mp hheld⟩]
      exact ⟨_, line', rfl, hline, hwords⟩
    · rw [if_neg hheld, if_neg fun hh => hheld ((isMfgModePhyReq_iff _).mpr hh.2)]
      exact ⟨_, line, rfl, rfl, (List.append_nil _).symm⟩
  · rw [if_neg hpower, if_neg fun hh => hpower hh.1]
    exact ⟨_, line, rfl, rfl, (List.append_nil _).symm⟩

/-- The saved command line is as the code expects it, and its other words are those of `ws`. -/
def LineKept (ws : List Text) (env : Env) : Prop :=
  ∃ line, env.bootargs = some line ∧ Expected (line.splitOn ' ') ∧
    otherWords (line.splitOn ' ') = otherWords ws

/-- The counter decides which of the two environments is saved; both keep the line. -/
theorem lineKept_saved {features : Features} {ws : List Text} {inp : Inputs} {env flash : Env}
    (henv : LineKept ws env) (hflash : LineKept ws flash) :
    LineKept ws (countFailure features inp env flash).2 := by
  unfold countFailure setBootFailures
  split_ifs
  · exact hflash
  · exact henv
  · exact hflash
  · exact henv

theorem boot_lineKept (features : Features) {ws : List Text} {flash : Env} {inp : Inputs}
    (h : LineKept ws flash) (hreason : inp.mallocReason = true)
    (hspecial : inp.mallocSpecial = true) :
    ∃ out line', boot features flash inp = some out ∧ LineKept ws out.saved ∧
      out.bootargs = some line' ∧
      (line'.splitOn ' ').filter (HasKey resetreason) = [reasonToken inp.resetReason] ∧
      (line'.splitOn ' ').filter (HasKey special) =
        (if HeldAtPowerOn inp then [specialToken] else []) ∧
      (otherWords (line'.splitOn ' ')).filter (¬ HasKey special ·) = otherWords ws := by
  obtain ⟨line, hline, hexpected, hothers⟩ := h
  obtain ⟨r, line₁, hr, hr₁, hwords₁⟩ := updateReason line inp.resetReason
  obtain ⟨hexpected₁, hone₁, hothers₁⟩ := expected_replaceWord hexpected inp.resetReason
  rw [← hwords₁] at hexpected₁ hone₁ hothers₁
  obtain ⟨marked, line₂, hmarked, hmarkedLine, hwords₂⟩ :=
    markSpecial_words hspecial hexpected₁.noSpecial
  have hkept₁ : LineKept ws { flash with bootargs := r.bootargs } :=
    ⟨line₁, hr₁, hexpected₁, hothers₁.trans hothers⟩
  have hlate : boardLateInit features flash inp = some
      ⟨{ (countFailure features inp { flash with bootargs := r.bootargs } flash).1 with
          bootargs := marked.1 },
        (countFailure features inp { flash with bootargs := r.bootargs } flash).2,
        if inp.ffujLateInit ≠ 0 then 1 else 0, marked.2⟩ := by
    simp only [boardLateInit, hreason, hline, hr, Option.bind_eq_bind, Option.bind_some,
      bootargs_countFailure, hr₁, hmarked]
  have hplain : ∀ w ∈ line₁.splitOn ' ', ¬ HasKey special w := fun w hw hhas =>
    hexpected₁.noSpecial w hw ((Bootargs.compKey_prefix_key special).trans hhas).isInfix
  have hnone : (line₁.splitOn ' ').filter (HasKey special) = [] := by
    rw [List.filter_eq_nil_iff]
    simpa using hplain
  refine ⟨_, line₂, by rw [boot, hlate, Option.map_some], lineKept_saved hkept₁ ⟨line, hline,
    hexpected, hothers⟩, hmarkedLine, ?_, ?_, ?_⟩
  · rw [hwords₂, List.filter_append, hone₁]
    split_ifs <;> rfl
  · rw [hwords₂, List.filter_append, hnone]
    split_ifs <;> rfl
  · have hlast : (otherWords (if HeldAtPowerOn inp then [specialToken] else [])).filter
        (¬ HasKey special ·) = [] := by
      split_ifs <;> rfl
    have hkeep : (otherWords (line₁.splitOn ' ')).filter (¬ HasKey special ·) =
        otherWords (line₁.splitOn ' ') := by
      rw [List.filter_eq_self]
      intro w hw
      simpa using hplain w (List.mem_filter.mp hw).1
    rw [hwords₂, otherWords, List.filter_append, List.filter_append]
    exact (congrArg₂ (· ++ ·) hkeep hlast).trans
      ((List.append_nil _).trans (hothers₁.trans hothers))

/-- A boot after the power came on, with the button held. -/
def heldBoot : Inputs := { watchdogBoot with resetReason := 1, button := fun _ => 1 }

end MetaCommon.Boot
