import MetaCommon.Espi.Acks

/-!
# Settled runs

A status that is cleared after its wire has changed again is lost, and with it the answer.
`run_settled` says that without such a clear every acknowledge bit has the level of its wire
whenever the handler is not running and nothing is pending, and that no other bit is changed.
-/

namespace MetaCommon.Espi

open Runs

namespace Machine

variable {m : Machine}

/-! ### Settled states and the bits of others -/

/-- With the handler not running and nothing pending each acknowledge bit has the level of its
wire. -/
def Settled (m : Machine) : Prop :=
  m.point = .idle → (∀ w, m.regs.pending w = false) → ∀ w, m.regs.ack w = m.regs.level w

theorem Inv.settled (h : m.Inv) : m.Settled := by
  intro _ hpend w
  refine (h.agrees w).resolve_left fun hw => ?_
  rw [hpend w] at hw
  cases hw

/-- The bits of an event register that are the handler's: the acknowledge bits and those of the
boot. -/
def Own (b : Bank) (i : ℕ) : Prop :=
  (∃ w : Warn, w.bank = b ∧ w.ack = i) ∨ b = .sys ∧ (i = slBtDone ∨ i = slBtStatus)

/-- The handler changes no bit of an event register that is not its own. -/
def KeepsOthers (m : Machine) (e : Event) : Prop :=
  e = .access → ∀ b i, ¬ Own b i →
    (m.access.regs.event b).getLsbD i = (m.regs.event b).getLsbD i

theorem getLsbD_writeCopy {r : Regs} {b : Bank} {v v' : BitVec 32} (hv : r.Copies b v) (b' : Bank)
    {i : ℕ} (hi : b' = b → i < 32 → v'.getLsbD i = v.getLsbD i) :
    ((r.writeEvent b v').event b').getLsbD i = (r.event b').getLsbD i := by
  by_cases hlt : i < 32
  · rw [Regs.getLsbD_writeEvent _ _ _ _ hlt]
    refine ite_eq_right_iff.mpr fun h => ?_
    rw [hi h.1 hlt, hv i hlt h.2, h.1]
  · have hge : 32 ≤ i := Nat.le_of_not_lt hlt
    rw [BitVec.getLsbD_of_ge _ _ hge, BitVec.getLsbD_of_ge _ _ hge]

theorem Inv.keepsOthers (h : m.Inv) (e : Event) : m.KeepsOthers e := by
  intro _ b i hown
  have hknows := h.knows
  cases hp : m.point with
  | writeAck b' irq status event w ws v =>
    rw [hp] at hknows
    simp only [Machine.access, hp]
    refine getLsbD_writeCopy hknows.2 b fun hb hi => ?_
    rw [getLsbD_ackValue _ _ _ hi]
    refine if_neg fun hw => hown (.inl ⟨w, ?_, hw⟩)
    rw [hb]
    exact hknows.1.bank w List.mem_cons_self
  | writeBoot irq v =>
    rw [hp] at hknows
    obtain ⟨v', hv', rfl⟩ := hknows
    simp only [Machine.access, hp]
    refine getLsbD_writeCopy hv' b fun hb hi => ?_
    have hdone : slBtDone ≠ i := fun h => hown (.inr ⟨hb, .inl h.symm⟩)
    have hstatus : slBtStatus ≠ i := fun h => hown (.inr ⟨hb, .inr h.symm⟩)
    rw [BitVec.getLsbD_or, BitVec.getLsbD_or, getLsbD_BIT, getLsbD_BIT, decide_eq_false hdone,
      decide_eq_false hstatus]
    simp
  | writeSus irq event =>
    rw [hp] at hknows
    simp only [Machine.access, hp]
    refine getLsbD_writeCopy hknows.1 b fun hb hi => ?_
    have hsus : Warn.sus.ack ≠ i := fun h => hown (.inl ⟨.sus, hb.symm, h⟩)
    rw [BitVec.getLsbD_or, getLsbD_BIT, decide_eq_false hsus]
    simp
  | clearStatus =>
    simp only [Machine.access, hp]
    rfl
  | clearIrqStatus =>
    simp only [Machine.access, hp]
    rfl
  | _ => simp only [Machine.access, hp]

/-- What a step promises: the state it leads to is settled, and the handler has kept the bits that
are not its own. -/
def Sound (m : Machine) (e : Event) : Prop := (m.step e).Settled ∧ m.KeepsOthers e

/-- From a machine whose handler is not running and whose acknowledge bits are answered or about to
be, the steps are sound as long as each meets the condition. -/
theorem run_settled {es : List Event} (hp : m.point = .idle) (ha : m.regs.Agrees)
    (hg : Guarded step Clean m es) : Guarded step Sound m es := by
  have hm : m.Inv := ⟨ha, by rw [hp]; trivial⟩
  exact hg.mono (fun _ _ h hc => h.step hc)
    (fun _ e h hc => ⟨(h.step hc).settled, h.keepsOthers e⟩) hm

instance : DecidableRel Clean := fun m e => by
  unfold Clean
  cases e with
  | access =>
    cases m.point with
    | clearStatus b irq status event =>
      exact inferInstanceAs (Decidable (∀ w ∈ b.warns, _ → _))
    | _ => exact inferInstanceAs (Decidable True)
  | _ => exact inferInstanceAs (Decidable True)

def init : Machine := ⟨⟨0, 0, fun _ => 0, fun _ => 0⟩, .idle⟩

/-- The handler runs from its entry to its end, for one warning. -/
def serve : List Event := .interrupt :: List.replicate 7 .access

theorem run_settled_reset : Guarded step Sound init
    ([.edge .hostRst] ++ serve ++ [.edge .hostRst] ++ serve) :=
  run_settled rfl (fun w => .inr (by cases w <;> rfl)) (by decide)

/-- The host takes the warning back after the handler has read its level. -/
def lostEdge : List Event :=
  [.edge .hostRst, .interrupt, .access, .access, .access, .edge .hostRst, .access, .access,
    .access]

/-- The warning is off and acknowledged, with nothing pending. -/
theorem not_run_settled : ¬ Guarded step Sound init (lostEdge ++ [.access]) := by
  rw [guarded_append]
  rintro ⟨-, ⟨hsettled, -⟩, -⟩
  have hpend : ∀ w, (run step init (lostEdge ++ [.access])).regs.pending w = false := by
    intro w
    cases w <;> rfl
  have h := hsettled rfl hpend .hostRst
  revert h
  decide

end Machine

end MetaCommon.Espi
