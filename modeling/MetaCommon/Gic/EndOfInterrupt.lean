import MetaCommon.Gic.Irq

/-!
# Acknowledged interrupts are ended

An interrupt that the CPU interface has handed out stays active, and holds back those of the same or
a lower priority, until its number is written to `GICC_EOIR`. The write stands on the branch of
`do_irq` for the numbers above 32.
-/

namespace MetaCommon.Gic

variable {H K : Type}

namespace IrqState

def Action.isAck : Action H K → Bool
  | .ack _ => true
  | _ => false

def Action.isEoi : Action H K → Bool
  | .eoi _ => true
  | _ => false

/-- Every acknowledge of an interrupt that is not spurious is followed, before the next acknowledge
or the end, by one write of the end of an interrupt, and it is of the same number. -/
def AcksEnded : List (Action H K) → Prop
  | [] => True
  | .ack iar :: rest =>
    (intId iar < gicMaxIrq →
      (rest.takeWhile fun a => !a.isAck).filter Action.isEoi = [.eoi (intId iar)]) ∧
    AcksEnded rest
  | _ :: rest => AcksEnded rest

variable (g : IrqState H K)

theorem dispatch_filter (irqnr : ℕ) :
    ((g.dispatch irqnr).takeWhile fun a => !a.isAck).filter Action.isEoi = [] := by
  unfold dispatch
  cases g.handlers irqnr <;> rfl

theorem acksEnded_dispatch (irqnr : ℕ) : AcksEnded (g.dispatch irqnr) := by
  unfold dispatch
  cases g.handlers irqnr <;> trivial

theorem acksEnded_doIrq (iar : UInt32) :
    AcksEnded (g.doIrq iar).1 ↔ spiIntNumMin < intId iar ∨ gicMaxIrq ≤ intId iar := by
  rw [doIrq_actions]
  by_cases h : spiIntNumMin < intId iar ∧ intId iar < gicMaxIrq
  · rw [if_pos h]
    refine iff_of_true ⟨fun _ => ?_, g.acksEnded_dispatch _⟩ (.inl h.1)
    exact congrArg (List.cons _) (g.dispatch_filter (intId iar))
  · rw [if_neg h]
    simp only [AcksEnded, List.takeWhile_nil, List.filter_nil, and_true]
    constructor
    · intro hno
      by_contra hlow
      have hlt : intId iar < gicMaxIrq := by omega
      cases hno hlt
    · intro hhigh hlt
      omega

end IrqState

namespace Driver

/-- The number of the interrupt, if the event is one, is above 32, or it is one of the four that
stand for a spurious interrupt. -/
def Ends : Event H K → Prop
  | .interrupt iar => spiIntNumMin < IrqState.intId iar ∨ gicMaxIrq ≤ IrqState.intId iar
  | _ => True

instance : ∀ e : Event H K, Decidable (Ends e)
  | .interrupt _ => inferInstanceAs (Decidable (_ ∨ _))
  | .install .. => inferInstanceAs (Decidable True)
  | .free _ => inferInstanceAs (Decidable True)

theorem step_irqs {s s' : Driver H K} {e : Event H K} (hs : s.step e = some s') :
    ∃ irqs, s'.irqs = s.irqs ++ irqs ∧ ((∀ t ∈ irqs, IrqState.AcksEnded t) ↔ Ends e) := by
  cases e with
  | install irq handler cookie =>
    obtain ⟨r, -, rfl⟩ := Option.map_eq_some_iff.mp hs
    exact ⟨[], by simp, by simp [Ends]⟩
  | free irq =>
    obtain rfl := Option.some.inj hs
    exact ⟨[], by simp, by simp [Ends]⟩
  | interrupt iar =>
    obtain rfl := Option.some.inj hs
    refine ⟨[(s.gic.doIrq iar).1], rfl, ?_⟩
    rw [List.forall_mem_singleton]
    exact s.gic.acksEnded_doIrq iar

theorem exec_irqs {s s' : Driver H K} {es : List (Event H K)}
    (hs : Runs.exec step s es = some s') :
    ∃ irqs, s'.irqs = s.irqs ++ irqs ∧
      ((∀ t ∈ irqs, IrqState.AcksEnded t) ↔ ∀ e ∈ es, Ends e) := by
  induction es generalizing s with
  | nil =>
    obtain rfl := Option.some.inj hs
    exact ⟨[], by simp, by simp⟩
  | cons e es ih =>
    obtain ⟨s₁, he, hs⟩ := Option.bind_eq_some_iff.mp hs
    obtain ⟨irqs, hirqs, hiff⟩ := step_irqs he
    obtain ⟨irqs', hirqs', hiff'⟩ := ih hs
    refine ⟨irqs ++ irqs', ?_, ?_⟩
    · rw [hirqs', hirqs, List.append_assoc]
    · rw [List.forall_mem_append, List.forall_mem_cons, hiff, hiff']

/-- In a run all acknowledged interrupts are ended if and only if each of them has a number above 32
or is spurious. -/
theorem run_acksEnded_iff (regs : GicRegs) (es : List (Event H K)) (s : Driver H K)
    (hs : Runs.exec step (init H K regs) es = some s) :
    (∀ t ∈ s.irqs, IrqState.AcksEnded t) ↔ ∀ e ∈ es, Ends e := by
  obtain ⟨irqs, hirqs, hiff⟩ := exec_irqs hs
  rw [hirqs]
  exact hiff

def timerRun : List (Event Unit Unit) :=
  [.install 48 (some ()) none, .interrupt 48, .interrupt 1023, .free 48, .interrupt 48]

theorem run_acksEnded_iff_timer :
    ∃ s, Runs.exec step (init Unit Unit ⟨0x0100143b, 0x0102143b, 0x0102143b, 4⟩) timerRun =
      some s ∧ s.irqs.length = 3 ∧ ∀ t ∈ s.irqs, IrqState.AcksEnded t := by
  have hs := Option.some_get
    (x := Runs.exec step (init Unit Unit ⟨0x0100143b, 0x0102143b, 0x0102143b, 4⟩) timerRun) rfl
  exact ⟨_, hs.symm, rfl, (run_acksEnded_iff _ timerRun _ hs.symm).mpr (by decide)⟩

/-- The SPI of the lowest number, 32, is acknowledged and never ended, nor is an SGI. -/
theorem not_run_acksEnded :
    (∃ s, Runs.exec step (init Unit Unit ⟨0x0100143b, 0x0102143b, 0x0102143b, 4⟩)
      [.install 32 (some ()) none, .interrupt 32] = some s ∧
      ¬ ∀ t ∈ s.irqs, IrqState.AcksEnded t) ∧
    ∃ s, Runs.exec step (init Unit Unit ⟨0x0100143b, 0x0102143b, 0x0102143b, 4⟩)
      [.interrupt 1] = some s ∧ ¬ ∀ t ∈ s.irqs, IrqState.AcksEnded t := by
  refine ⟨⟨_, rfl, fun h => ?_⟩, ⟨_, rfl, fun h => ?_⟩⟩
  · have hack := h [.ack 32] (List.mem_singleton.mpr rfl)
    exact absurd (hack.1 (by decide)) nofun
  · have hack := h [.ack 1] (List.mem_singleton.mpr rfl)
    exact absurd (hack.1 (by decide)) nofun

end Driver

end MetaCommon.Gic
