import MetaCommon.Gic.Irq

/-!
# Installed handlers are served

An accepted install is served if the table has a place for its number, `do_irq` calls the handler
with its cookie and nothing else for that number, and `irq_free_handler` takes the number. The three
functions agree on the numbers strictly between 32 and `max_irq`, and only on those.
-/

namespace MetaCommon.Gic

variable {H K : Type}

namespace IrqState

variable (g : IrqState H K)

/-- The calls among the actions of an interrupt. -/
def calls (actions : List (Action H K)) : List (H × Option K) :=
  actions.filterMap fun
    | .call handler cookie => some (handler, cookie)
    | _ => none

theorem calls_doIrq (iar : UInt32) : calls (g.doIrq iar).1 =
    if spiIntNumMin < intId iar ∧ intId iar < gicMaxIrq then
      ((g.handlers (intId iar)).map fun h => (h, g.cookies (intId iar))).toList
    else [] := by
  rw [doIrq_actions]
  by_cases h : spiIntNumMin < intId iar ∧ intId iar < gicMaxIrq
  · rw [if_pos h, if_pos h]
    cases hh : g.handlers (intId iar) <;> simp [calls, dispatch, hh]
  · rw [if_neg h, if_neg h]
    rfl

theorem exists_intId {n : ℕ} (h : n < 1024) : ∃ iar, intId iar = n := by
  refine ⟨UInt32.ofNat n, ?_⟩
  have hn : n % 2 ^ 32 = n := Nat.mod_eq_of_lt (Nat.lt_trans h (by decide))
  rw [intId, UInt32.toNat_and, UInt32.toNat_ofNat', hn]
  exact Nat.and_two_pow_sub_one_of_lt_two_pow (n := 10) h

/-- What is promised of a number for which `entry` is installed. -/
structure Serves (irq : Int32) (entry : Option H × Option K) : Prop where
  valid : toSize irq < gicMaxIrq
  dispatched : ∀ iar, intId iar = toSize irq →
    calls (g.doIrq iar).1 = (entry.1.map fun h => (h, entry.2)).toList
  released : (g.irqFreeHandler irq).1 = true ∧
    ∀ iar, intId iar = toSize irq → calls ((g.irqFreeHandler irq).2.doIrq iar).1 = []

end IrqState

namespace Driver

/-- Every number that is installed is served, no other one is dispatched, and a number that install
refuses is refused by free. -/
structure Sound (s : Driver H K) : Prop where
  installed : ∀ irq entry, s.registry (toSize irq) = some entry → s.gic.Serves irq entry
  idle : ∀ iar, s.registry (IrqState.intId iar) = none → IrqState.calls (s.gic.doIrq iar).1 = []
  refused : ∀ irq handler cookie g, s.gic.irqInstallHandler irq handler cookie =
    some (.outOfRange, g) → (s.gic.irqFreeHandler irq).1 = false

/-- The table is what the callers have been told. A cookie outlives a release if its handler was
`NULL`. -/
structure TableInv (maxIrq : ℕ) (s : Driver H K) : Prop where
  maxIrq_eq : s.gic.maxIrq = maxIrq
  handlers : ∀ n, s.gic.handlers n = (s.registry n).bind Prod.fst
  cookies : ∀ n, ∀ entry ∈ s.registry n, s.gic.cookies n = entry.2

variable {s s' : Driver H K} {maxIrq : ℕ}

theorem tableInv_init (regs : GicRegs) : TableInv (gicProbe regs) (init H K regs) :=
  ⟨rfl, fun _ => rfl, nofun⟩

theorem TableInv.update (h : s.TableInv maxIrq) (n : ℕ) (entry : Option (Option H × Option K))
    {g : IrqState H K} {irqs : List (List (IrqState.Action H K))} (hg : g.maxIrq = s.gic.maxIrq)
    (hh : g.handlers = Function.update s.gic.handlers n (entry.bind Prod.fst))
    (hc : ∀ m, m ≠ n → g.cookies m = s.gic.cookies m) (hn : ∀ e ∈ entry, g.cookies n = e.2) :
    TableInv maxIrq ⟨g, Function.update s.registry n entry, irqs⟩ := by
  refine ⟨hg.trans h.maxIrq_eq, fun m => ?_, fun m e he => ?_⟩
  · rw [hh]
    by_cases hm : m = n
    · subst hm
      simp
    · simp [Function.update_of_ne hm, h.handlers]
  · by_cases hm : m = n
    · subst hm
      exact hn e (by simpa using he)
    · rw [hc m hm]
      exact h.cookies m e (by simpa [Function.update_of_ne hm] using he)

/-- What an install can do. -/
theorem step_install_cases {irq : Int32} {handler : Option H} {cookie : Option K}
    (hs : s.step (.install irq handler cookie) = some s') :
    (s' = s ∧ (s.gic.maxIrq < toSize irq ∨ (s.gic.handlers (toSize irq)).isSome)) ∨
    (toSize irq ≤ s.gic.maxIrq ∧ toSize irq < gicMaxIrq ∧
      s'.registry = Function.update s.registry (toSize irq) (some (handler, cookie)) ∧
      s'.gic.maxIrq = s.gic.maxIrq ∧
      s'.gic.handlers = Function.update s.gic.handlers (toSize irq) handler ∧
      s'.gic.cookies = Function.update s.gic.cookies (toSize irq) cookie) := by
  obtain ⟨r, hr, rfl⟩ := Option.map_eq_some_iff.mp hs
  unfold IrqState.irqInstallHandler at hr
  split_ifs at hr with h₁ h₂ h₃
  · obtain rfl := Option.some.inj hr
    exact .inl ⟨rfl, .inl h₁⟩
  · obtain rfl := Option.some.inj hr
    exact .inl ⟨rfl, .inr h₃⟩
  · obtain rfl := Option.some.inj hr
    exact .inr ⟨by omega, by omega, rfl, rfl, rfl, rfl⟩

theorem step_install_isSome {irq : Int32} {handler : Option H} {cookie : Option K} :
    (s.step (.install irq handler cookie)).isSome ↔
      s.gic.maxIrq < toSize irq ∨ toSize irq < gicMaxIrq := by
  simp only [step, Option.isSome_map]
  unfold IrqState.irqInstallHandler
  split_ifs with h₁ h₂ h₃
  · simp [h₁]
  · simp only [Option.isSome_none, Bool.false_eq_true, false_iff]
    omega
  · simp only [Option.isSome_some, true_iff]
    omega
  · simp only [Option.isSome_some, true_iff]
    omega

/-- What a release can do. -/
theorem free_cases (g : IrqState H K) (irq : Int32) :
    (g.maxIrq ≤ toSize irq ∧ g.irqFreeHandler irq = (false, g)) ∨
    (toSize irq < g.maxIrq ∧ (g.irqFreeHandler irq).1 = true ∧
      (g.irqFreeHandler irq).2.maxIrq = g.maxIrq ∧
      (g.irqFreeHandler irq).2.handlers = Function.update g.handlers (toSize irq) none ∧
      ∀ m, m ≠ toSize irq → (g.irqFreeHandler irq).2.cookies m = g.cookies m) := by
  unfold IrqState.irqFreeHandler
  by_cases h₁ : toSize irq ≥ g.maxIrq
  · rw [if_pos h₁]
    exact .inl ⟨h₁, rfl⟩
  · rw [if_neg h₁]
    by_cases h₂ : (g.handlers (toSize irq)).isSome
    · rw [if_pos h₂]
      exact .inr ⟨by omega, rfl, rfl, rfl, fun m hm => Function.update_of_ne hm _ _⟩
    · rw [if_neg h₂]
      refine .inr ⟨by omega, rfl, rfl, ?_, fun _ _ => rfl⟩
      rw [Option.not_isSome_iff_eq_none] at h₂
      rw [← h₂, Function.update_eq_self]

theorem TableInv.step (h : s.TableInv maxIrq) {e : Event H K} (hs : s.step e = some s') :
    s'.TableInv maxIrq := by
  cases e with
  | install irq handler cookie =>
    rcases step_install_cases hs with ⟨rfl, -⟩ | ⟨-, -, hr, hm, hh, hc⟩
    · exact h
    · obtain ⟨g, registry, irqs⟩ := s'
      simp only at hr hm hh hc
      subst hr
      apply h.update _ _ hm
      · exact hh
      · intro m hn
        rw [hc, Function.update_of_ne hn]
      · rintro _ ⟨⟩
        rw [hc, Function.update_self]
  | free irq =>
    obtain rfl := Option.some.inj hs
    rcases free_cases s.gic irq with ⟨-, he⟩ | ⟨-, hr, hm, hh, hc⟩
    · rw [he]
      exact h
    · simp only [hr, if_true]
      exact h.update (toSize irq) none hm hh hc nofun
  | interrupt iar =>
    obtain rfl := Option.some.inj hs
    obtain ⟨hm, hh, hc⟩ := s.gic.doIrq_table iar
    refine ⟨hm.trans h.maxIrq_eq, fun n => ?_, fun n entry he => ?_⟩
    · rw [hh]
      exact h.handlers n
    · rw [hc]
      exact h.cookies n entry he

/-- Every installed number is below `max_irq`, and one with a handler is above 32. -/
def Fits (maxIrq : ℕ) (s : Driver H K) : Prop :=
  ∀ irq, ∀ entry ∈ s.registry (toSize irq), toSize irq < maxIrq ∧
    (entry.1.isSome → spiIntNumMin < toSize irq)

theorem TableInv.serves_iff (h : s.TableInv maxIrq) {irq : Int32} {entry : Option H × Option K}
    (he : entry ∈ s.registry (toSize irq)) : s.gic.Serves irq entry ↔
      toSize irq < maxIrq ∧ (entry.1.isSome → spiIntNumMin < toSize irq) := by
  have hh : s.gic.handlers (toSize irq) = entry.1 := by
    rw [h.handlers, Option.mem_def.mp he, Option.bind_some]
  have hc : s.gic.cookies (toSize irq) = entry.2 := h.cookies _ entry he
  have hle := s.gic.maxIrq_le
  constructor
  · rintro ⟨hv, hd, hr, -⟩
    constructor
    · rcases free_cases s.gic irq with ⟨-, hf⟩ | ⟨hlt, -⟩
      · rw [hf] at hr
        cases hr
      · exact h.maxIrq_eq ▸ hlt
    · intro hsome
      obtain ⟨iar, hi⟩ := IrqState.exists_intId (n := toSize irq) (Nat.lt_trans hv (by decide))
      have hcall := hd iar hi
      obtain ⟨handler, hhandler⟩ := Option.isSome_iff_exists.mp hsome
      rw [IrqState.calls_doIrq, hi, hh, hhandler] at hcall
      split_ifs at hcall with hrange
      · exact hrange.1
      · cases hcall
  · rintro ⟨hlt, h32⟩
    rw [← h.maxIrq_eq] at hlt
    refine ⟨Nat.lt_of_lt_of_le hlt hle, fun iar hi => ?_, ?_⟩
    · rw [IrqState.calls_doIrq, hi, hh, hc]
      cases hentry : entry.1 with
      | none => simp
      | some handler =>
        have hgt := h32 (by rw [hentry]; rfl)
        rw [if_pos ⟨hgt, Nat.lt_of_lt_of_le hlt hle⟩]
    · rcases free_cases s.gic irq with ⟨hge, -⟩ | ⟨-, ht, -, hf, -⟩
      · omega
      · refine ⟨ht, fun iar hi => ?_⟩
        rw [IrqState.calls_doIrq, hi, hf]
        simp

theorem TableInv.sound_iff (h : s.TableInv maxIrq) : s.Sound ↔ s.Fits maxIrq := by
  constructor
  · intro hs irq entry he
    exact (h.serves_iff he).mp (hs.installed irq entry he)
  · intro hf
    refine ⟨fun irq entry he => (h.serves_iff he).mpr (hf irq entry he), ?_, ?_⟩
    · intro iar hn
      rw [IrqState.calls_doIrq, h.handlers, hn]
      simp
    · intro irq handler cookie g hi
      unfold IrqState.irqInstallHandler at hi
      rcases free_cases s.gic irq with ⟨-, hf⟩ | ⟨hlt, -⟩
      · rw [hf]
      · split_ifs at hi <;> simp at hi
        omega

/-- The number is refused, or it is below `max_irq` and, if there is a handler, above 32. -/
def InstallFits (maxIrq : ℕ) : Event H K → Prop
  | .install irq handler _ => toSize irq ≤ maxIrq →
      toSize irq < maxIrq ∧ (handler.isSome → spiIntNumMin < toSize irq)
  | _ => True

theorem Fits.update {n : ℕ} {entry : Option (Option H × Option K)} (hf : s.Fits maxIrq)
    (hr : s'.registry = Function.update s.registry n entry)
    (hn : ∀ e ∈ entry, n < maxIrq ∧ (e.1.isSome → spiIntNumMin < n)) : s'.Fits maxIrq := by
  intro irq e he
  rw [hr] at he
  by_cases hi : toSize irq = n
  · rw [hi, Function.update_self] at he
    rw [hi]
    exact hn e he
  · rw [Function.update_of_ne hi] at he
    exact hf irq e he

theorem TableInv.step_iff (h : s.TableInv maxIrq) (hf : s.Fits maxIrq) (e : Event H K) :
    (∃ s', s.step e = some s' ∧ s'.Fits maxIrq) ↔ InstallFits maxIrq e := by
  cases e with
  | install irq handler cookie =>
    have hle := s.gic.maxIrq_le
    have hm := h.maxIrq_eq
    constructor
    · rintro ⟨s', hs, hf'⟩ hrange
      rcases step_install_cases hs with ⟨rfl, hout | huse⟩ | ⟨-, -, hr, -⟩
      · omega
      · rw [h.handlers] at huse
        obtain ⟨handler', hh⟩ := Option.isSome_iff_exists.mp huse
        obtain ⟨entry, he, hentry⟩ := Option.bind_eq_some_iff.mp hh
        obtain ⟨hlt, h32⟩ := hf irq entry he
        exact ⟨hlt, fun _ => h32 (by rw [hentry]; rfl)⟩
      · apply hf' irq (handler, cookie)
        rw [hr, Function.update_self]
        rfl
    · intro hi
      have hdef : (s.step (.install irq handler cookie)).isSome := by
        rw [step_install_isSome]
        by_cases hrange : toSize irq ≤ maxIrq
        · have hlt := (hi hrange).1
          omega
        · omega
      obtain ⟨s', hs⟩ := Option.isSome_iff_exists.mp hdef
      refine ⟨s', hs, ?_⟩
      rcases step_install_cases hs with ⟨rfl, -⟩ | ⟨hrange, -, hr, -⟩
      · exact hf
      · apply hf.update hr
        rintro _ ⟨⟩
        exact hi (hm ▸ hrange)
  | free irq =>
    refine ⟨fun _ => trivial, fun _ => ⟨_, rfl, ?_⟩⟩
    by_cases hr : (s.gic.irqFreeHandler irq).1
    · exact hf.update (if_pos hr) nofun
    · intro irq' entry he
      exact hf irq' entry ((congrFun (if_neg hr) (toSize irq')).symm.trans he)
  | interrupt iar => exact ⟨fun _ => trivial, fun _ => ⟨_, rfl, hf⟩⟩

/-- Whatever the probed registers, a run stays within the table and serves every installed number
everywhere if and only if every install in it is out of range, or is of a number below `max_irq`
that is above 32 unless the handler is `NULL`. -/
theorem run_sound_iff (regs : GicRegs) (es : List (Event H K)) :
    Runs.Everywhere step Sound (init H K regs) es ↔ ∀ e ∈ es, InstallFits (gicProbe regs) e := by
  refine Runs.everywhere_iff (I := TableInv (gicProbe regs)) (fun _ _ _ h hs => h.step hs) ?_
    (tableInv_init regs) ((tableInv_init regs).sound_iff.mpr nofun)
  intro s e h hs
  rw [← h.step_iff (h.sound_iff.mp hs) e]
  constructor
  · rintro ⟨s', hs', hsound⟩
    exact ⟨s', hs', (h.step hs').sound_iff.mp hsound⟩
  · rintro ⟨s', hs', hfits⟩
    exact ⟨s', hs', (h.step hs').sound_iff.mpr hfits⟩

/-- A GIC with 64 lines: the number 64 is accepted and cannot be released again, and the number 32
is accepted and never dispatched. On one with all 1020 lines the number 1020 is accepted and written
behind the table. -/
theorem not_run_sound :
    (¬ Runs.Everywhere step Sound (init Unit Unit ⟨0x0100143b, 0x0102143b, 0x0102143b, 1⟩)
      [.install 64 (some ()) none] ∧
    ¬ Runs.Everywhere step Sound (init Unit Unit ⟨0x0100143b, 0x0102143b, 0x0102143b, 1⟩)
      [.install 32 (some ()) none]) ∧
    ¬ Runs.Everywhere step Sound (init Unit Unit ⟨0x0100143b, 0x0102143b, 0x0102143b, 31⟩)
      [.install 1020 (some ()) none] := by
  refine ⟨⟨?_, ?_⟩, ?_⟩
  · rintro ⟨-, s', hs, h⟩
    obtain rfl := Option.some.inj hs
    have hserves := h.installed 64 (some (), none) rfl
    exact absurd hserves.released.1 (by decide)
  · rintro ⟨-, s', hs, h⟩
    obtain rfl := Option.some.inj hs
    have hserves := h.installed 32 (some (), none) rfl
    exact absurd (hserves.dispatched 32 rfl) (by decide)
  · rintro ⟨-, s', hs, -⟩
    cases hs

end Driver

end MetaCommon.Gic
