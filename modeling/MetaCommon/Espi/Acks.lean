import MetaCommon.Espi.Handler

/-!
# Acknowledge bits and pending edges

Between its accesses the handler holds a status, an event and a copy of a register that may be out
of date. `Regs.Knows` is what is still true of them at each access. With it an acknowledge bit that
differs from its wire has a pending edge, as long as no status is cleared that has become new.
-/

namespace MetaCommon.Espi

theorem getLsbD_BIT (n i : ℕ) : (BIT n).getLsbD i = (decide (n < 32) && decide (n = i)) :=
  BitVec.getLsbD_twoPow _ _

/-! ### The bits of the warnings -/

theorem Warn.warn_lt (w : Warn) : w.warn < 32 := by cases w <;> decide

theorem Warn.ack_lt (w : Warn) : w.ack < 32 := by cases w <;> decide

theorem Warn.warn_injective {w w' : Warn} (h : w.warn = w'.warn) : w = w' := by
  cases w <;> cases w' <;> first | rfl | cases h

theorem Warn.ack_injective {w w' : Warn} (h : w.ack = w'.ack) : w = w' := by
  cases w <;> cases w' <;> first | rfl | cases h

theorem Warn.mem_warns {w : Warn} {b : Bank} : w ∈ b.warns ↔ w.bank = b := by
  cases w <;> cases b <;> decide

theorem wires_warn (w : Warn) : w.bank.wires.getLsbD w.warn = true := by cases w <;> rfl

theorem wires_ack (b : Bank) (w : Warn) : b.wires.getLsbD w.ack = false := by
  cases b <;> cases w <;> rfl

/-! ### Register accesses -/

namespace Regs

variable (r : Regs) (b b' : Bank) {i : ℕ}

theorem getLsbD_writeEvent (v : BitVec 32) (hi : i < 32) :
    ((r.writeEvent b v).event b').getLsbD i =
      if b' = b ∧ b.wires.getLsbD i = false then v.getLsbD i else (r.event b').getLsbD i := by
  simp only [writeEvent]
  by_cases hb : b' = b
  · subst hb
    rw [Function.update_self, BitVec.getLsbD_or, BitVec.getLsbD_and, BitVec.getLsbD_and,
      BitVec.getLsbD_not]
    cases b'.wires.getLsbD i with
    | true => simp
    | false => simp [hi]
  · rw [Function.update_of_ne hb, if_neg fun h => hb h.1]

theorem getLsbD_writeStatus (v : BitVec 32) (hi : i < 32) :
    ((r.writeStatus b v).status b').getLsbD i =
      ((r.status b').getLsbD i && !(decide (b' = b) && v.getLsbD i)) := by
  simp only [writeStatus]
  by_cases hb : b' = b
  · subst hb
    rw [Function.update_self, BitVec.getLsbD_and, BitVec.getLsbD_not]
    simp [hi]
  · rw [Function.update_of_ne hb]
    simp [hb]

theorem getLsbD_event_edge (w : Warn) (i : ℕ) : ((r.edge w).event b).getLsbD i =
    ((r.event b).getLsbD i ^^ (decide (b = w.bank) && decide (w.warn = i))) := by
  simp only [edge]
  by_cases hb : b = w.bank
  · subst hb
    rw [Function.update_self, BitVec.getLsbD_xor, getLsbD_BIT]
    simp [w.warn_lt]
  · rw [Function.update_of_ne hb]
    simp [hb]

theorem getLsbD_status_edge (w : Warn) (i : ℕ) : ((r.edge w).status b).getLsbD i =
    ((r.status b).getLsbD i || (decide (b = w.bank) && decide (w.warn = i))) := by
  simp only [edge]
  by_cases hb : b = w.bank
  · subst hb
    rw [Function.update_self, BitVec.getLsbD_or, getLsbD_BIT]
    simp [w.warn_lt]
  · rw [Function.update_of_ne hb]
    simp [hb]

/-! ### Levels, acknowledge bits and pending edges -/

variable (w : Warn) {b} {v : BitVec 32}

theorem level_writeEvent : (r.writeEvent b v).level w = r.level w := by
  unfold level
  rw [getLsbD_writeEvent _ _ _ _ w.warn_lt]
  refine if_neg fun h => ?_
  rw [← h.1, wires_warn] at h
  exact absurd h.2 (by decide)

theorem ack_writeEvent : (r.writeEvent b v).ack w =
    if w.bank = b then v.getLsbD w.ack else r.ack w := by
  unfold ack
  rw [getLsbD_writeEvent _ _ _ _ w.ack_lt]
  simp only [wires_ack, and_true]

theorem pending_writeStatus : (r.writeStatus b v).pending w =
    (r.pending w && !(decide (w.bank = b) && v.getLsbD w.warn)) :=
  getLsbD_writeStatus _ _ _ _ w.warn_lt

variable (w' : Warn)

/-- The bit that an edge changes is the one of its warning. -/
theorem edge_bit : (decide (w.bank = w'.bank) && decide (w'.warn = w.warn)) = decide (w' = w) := by
  by_cases h : w' = w
  · simp [h]
  · have hwarn : w'.warn ≠ w.warn := fun hw => h (Warn.warn_injective hw)
    simp [h, hwarn]

theorem level_edge : (r.edge w').level w = (r.level w ^^ decide (w' = w)) := by
  unfold level
  rw [getLsbD_event_edge, edge_bit]

theorem pending_edge : (r.edge w').pending w = (r.pending w || decide (w' = w)) := by
  unfold pending
  rw [getLsbD_status_edge, edge_bit]

end Regs

theorem getLsbD_ackValue (event : BitVec 32) (w : Warn) (v : BitVec 32) {i : ℕ} (hi : i < 32) :
    (Machine.ackValue event w v).getLsbD i =
      if w.ack = i then event.getLsbD w.warn else v.getLsbD i := by
  unfold Machine.ackValue
  have hlt := w.ack_lt
  cases hev : event.getLsbD w.warn with
  | true =>
    rw [if_pos rfl, BitVec.getLsbD_or, getLsbD_BIT]
    by_cases h : w.ack = i <;> simp [h, hi]
  | false =>
    rw [if_neg (by decide), BitVec.getLsbD_and, BitVec.getLsbD_not, getLsbD_BIT]
    by_cases h : w.ack = i <;> simp [h, hi]

/-! ### What the handler knows -/

namespace Regs

variable (r : Regs)

/-- The edges of the status that the handler has read are still pending. -/
def Seen (b : Bank) (status : BitVec 32) : Prop :=
  ∀ w : Warn, w.bank = b → status.getLsbD w.warn = true → r.pending w = true

/-- The warnings of the status have been answered with the levels read, but for those of a list. -/
def Answered (b : Bank) (status event : BitVec 32) (ws : List Warn) : Prop :=
  ∀ w : Warn, w.bank = b → w ∉ ws → status.getLsbD w.warn = true →
    r.ack w = event.getLsbD w.warn

/-- The value has the bits of an event register that are not wires. -/
def Copies (b : Bank) (v : BitVec 32) : Prop :=
  ∀ i < 32, b.wires.getLsbD i = false → v.getLsbD i = (r.event b).getLsbD i

/-- The handler is answering the first of the warnings. -/
structure Answering (b : Bank) (status event : BitVec 32) (w : Warn) (ws : List Warn) : Prop where
  seen : r.Seen b status
  answered : r.Answered b status event (w :: ws)
  bank : ∀ w' ∈ w :: ws, w'.bank = b
  warns : status.getLsbD w.warn = true

/-- What holds of the registers before each access. -/
def Knows : Point → Prop
  | .readEvent b _ status => r.Seen b status
  | .readAck b _ status event w ws => r.Answering b status event w ws
  | .writeAck b _ status event w ws v => r.Answering b status event w ws ∧ r.Copies b v
  | .clearStatus b _ status event => r.Seen b status ∧ r.Answered b status event []
  | .writeBoot _ v => ∃ v', r.Copies .sys v' ∧ v = v' ||| BIT slBtStatus ||| BIT slBtDone
  | .writeSus _ event => r.Copies .sys1 event ∧ (r.pending .sus = true ∨ r.level .sus = true)
  | _ => True

/-- An acknowledge bit that differs from its wire has an edge to answer. -/
def Agrees : Prop := ∀ w, r.pending w = true ∨ r.ack w = r.level w

variable {r} {b : Bank} {status event : BitVec 32} {ws : List Warn}

/-! ### Events of the host -/

/-- What an event of the host leaves: the pending edges and all bits that are not wires. -/
structure Driven (r r' : Regs) : Prop where
  pending : ∀ w, r.pending w = true → r'.pending w = true
  level : ∀ w, r'.level w = r.level w ∨ r'.pending w = true
  event : ∀ b i, b.wires.getLsbD i = false → (r'.event b).getLsbD i = (r.event b).getLsbD i

theorem driven_edge (w : Warn) : Driven r (r.edge w) where
  pending w' h := by rw [pending_edge, h, Bool.true_or]
  level w' := by
    rw [level_edge, pending_edge]
    by_cases h : w = w' <;> simp [h]
  event b i h := by
    rw [getLsbD_event_edge]
    by_cases hw : b = w.bank ∧ w.warn = i
    · rw [hw.1, ← hw.2, wires_warn] at h
      cases h
    · rw [← Bool.decide_and, decide_eq_false hw, Bool.xor_false]

theorem driven_hwReset : Driven r r.hwReset := ⟨fun _ => id, fun _ => .inl rfl, fun _ _ _ => rfl⟩

variable {r' : Regs}

theorem Driven.ack (h : Driven r r') (w : Warn) : r'.ack w = r.ack w :=
  h.event w.bank w.ack (wires_ack _ w)

theorem Driven.seen (h : Driven r r') (hr : r.Seen b status) : r'.Seen b status :=
  fun w hw hs => h.pending w (hr w hw hs)

theorem Driven.answered (h : Driven r r') (hr : r.Answered b status event ws) :
    r'.Answered b status event ws := fun w hw hws hs => (h.ack w).trans (hr w hw hws hs)

theorem Driven.copies (h : Driven r r') {v : BitVec 32} (hr : r.Copies b v) : r'.Copies b v :=
  fun i hi hw => (hr i hi hw).trans (h.event b i hw).symm

theorem Driven.agrees (h : Driven r r') (hr : r.Agrees) : r'.Agrees := by
  intro w
  rcases h.level w with hl | hp
  · rcases hr w with hp | ha
    · exact .inl (h.pending w hp)
    · exact .inr (by rw [h.ack, ha, hl])
  · exact .inl hp

theorem Driven.knows (h : Driven r r') {p : Point} (hr : r.Knows p) : r'.Knows p := by
  cases p with
  | readEvent => exact h.seen hr
  | readAck => exact ⟨h.seen hr.seen, h.answered hr.answered, hr.bank, hr.warns⟩
  | writeAck =>
    exact ⟨⟨h.seen hr.1.seen, h.answered hr.1.answered, hr.1.bank, hr.1.warns⟩, h.copies hr.2⟩
  | clearStatus => exact ⟨h.seen hr.1, h.answered hr.2⟩
  | writeBoot irq v =>
    obtain ⟨v', hv', rfl⟩ := hr
    exact ⟨v', h.copies hv', rfl⟩
  | writeSus =>
    refine ⟨h.copies hr.1, ?_⟩
    rcases h.level .sus with hl | hp
    · rw [hl]
      exact hr.2.imp_left (h.pending .sus)
    · exact .inl hp
  | _ => trivial

/-! ### Accesses of the handler -/

/-- After the event has been read the warnings of the status are answered in turn. -/
theorem knows_answers (irq : BitVec 32) (hs : r.Seen b status)
    (ha : r.Answered b status event ws) (hb : ∀ w ∈ ws, w.bank = b) :
    r.Knows (.answers b irq status event ws) := by
  induction ws with
  | nil => exact ⟨hs, ha⟩
  | cons w ws ih =>
    unfold Point.answers
    obtain ⟨hw, hws⟩ := List.forall_mem_cons.mp hb
    split_ifs with hstatus
    · exact ⟨hs, ha, hb, hstatus⟩
    · refine ih (fun w' hw' hmem hs' => ?_) hws
      refine ha w' hw' (fun hcons => ?_) hs'
      rcases List.mem_cons.mp hcons with rfl | h
      · exact hstatus hs'
      · exact hmem h

/-- The points at which the handler has no copy of a register. -/
theorem knows_reset (irq : BitVec 32) : r.Knows (.reset irq) := by
  unfold Point.reset
  split_ifs <;> trivial

theorem knows_fromBank (irq : BitVec 32) (b : Bank) : r.Knows (.fromBank irq b) := by
  cases b with
  | sys =>
    simp only [Point.fromBank]
    split_ifs
    · trivial
    · trivial
    · exact knows_reset irq
  | sys1 =>
    simp only [Point.fromBank]
    split_ifs
    · trivial
    · exact knows_reset irq

theorem knows_afterBank (irq : BitVec 32) (b : Bank) : r.Knows (.afterBank irq b) := by
  cases b with
  | sys => exact knows_fromBank irq .sys1
  | sys1 => exact knows_reset irq

theorem ack_writeAck (event : BitVec 32) {w : Warn} {v : BitVec 32} (hv : r.Copies b v)
    (hw : w.bank = b) (w' : Warn) : (r.writeEvent b (Machine.ackValue event w v)).ack w' =
      if w' = w then event.getLsbD w.warn else r.ack w' := by
  rw [ack_writeEvent]
  by_cases hb : w'.bank = b
  · rw [if_pos hb, getLsbD_ackValue _ _ _ w'.ack_lt]
    by_cases h : w' = w
    · rw [if_pos h, if_pos (by rw [h])]
    · rw [if_neg h, if_neg fun ha => h (Warn.ack_injective ha).symm,
        hv _ w'.ack_lt (wires_ack b w'), ack, hb]
  · rw [if_neg hb, if_neg]
    rintro rfl
    exact hb hw

/-- A write of a copy with bits set answers no warning but that of its bits. -/
theorem ack_writeCopy {v v' : BitVec 32} (hv : r.Copies b v) {w : Warn}
    (hw : w.bank = b → v'.getLsbD w.ack = v.getLsbD w.ack) :
    (r.writeEvent b v').ack w = r.ack w := by
  rw [ack_writeEvent]
  by_cases hb : w.bank = b
  · rw [if_pos hb, hw hb, hv _ w.ack_lt (wires_ack b w), ack, hb]
  · rw [if_neg hb]

end Regs

namespace Machine

structure Inv (m : Machine) : Prop where
  agrees : m.regs.Agrees
  knows : m.regs.Knows m.point

/-- The condition on a step: a write that clears a status finds the wires of the edges it clears at
the levels that have been read. -/
def Clean (m : Machine) : Event → Prop
  | .access =>
    match m.point with
    | .clearStatus b _ status event => ∀ w ∈ b.warns, status.getLsbD w.warn = true →
        m.regs.level w = event.getLsbD w.warn
    | _ => True
  | _ => True

variable {m : Machine}

theorem Inv.writeAck {b : Bank} {irq status event v : BitVec 32} {w : Warn} {ws : List Warn}
    (h : m.Inv) (hp : m.point = .writeAck b irq status event w ws v) : m.access.Inv := by
  obtain ⟨ha, hknows⟩ := h
  rw [hp] at hknows
  obtain ⟨⟨hseen, hanswered, hbank, hwarns⟩, hv⟩ := hknows
  obtain ⟨hw, hws⟩ := List.forall_mem_cons.mp hbank
  have hack := Regs.ack_writeAck event hv hw
  simp only [access, hp]
  refine ⟨fun w' => ?_, Regs.knows_answers irq hseen (fun w' hw' hmem hs => ?_) hws⟩
  · by_cases h : w' = w
    · subst h
      exact .inl (hseen w' hw hwarns)
    · rw [hack, if_neg h, Regs.level_writeEvent]
      exact ha w'
  · rw [hack]
    split_ifs with h
    · rw [h]
    · exact hanswered w' hw' (fun hcons => (List.mem_cons.mp hcons).elim h hmem) hs

theorem Inv.clearStatus {b : Bank} {irq status event : BitVec 32} (h : m.Inv)
    (hp : m.point = .clearStatus b irq status event) (hc : m.Clean .access) : m.access.Inv := by
  obtain ⟨ha, hknows⟩ := h
  unfold Clean at hc
  rw [hp] at hknows hc
  simp only [access, hp]
  refine ⟨fun w => ?_, Regs.knows_afterBank irq b⟩
  rw [Regs.pending_writeStatus]
  by_cases hw : w.bank = b ∧ status.getLsbD w.warn = true
  · have hlevel := hc w (Warn.mem_warns.mpr hw.1) hw.2
    have hack := hknows.2 w hw.1 List.not_mem_nil hw.2
    exact .inr (hack.trans hlevel.symm)
  · rcases ha w with hpend | hack
    · left
      rcases not_and_or.mp hw with hb | hs
      · simp [hpend, hb]
      · simp [hpend, hs]
    · exact .inr hack

theorem Inv.writeBoot {irq v : BitVec 32} (h : m.Inv) (hp : m.point = .writeBoot irq v) :
    m.access.Inv := by
  obtain ⟨ha, hknows⟩ := h
  rw [hp] at hknows
  obtain ⟨v', hv', rfl⟩ := hknows
  simp only [access, hp]
  refine ⟨fun w => ?_, trivial⟩
  rw [Regs.level_writeEvent, Regs.ack_writeCopy hv' fun hw => ?_]
  · exact ha w
  · rw [BitVec.getLsbD_or, BitVec.getLsbD_or, getLsbD_BIT, getLsbD_BIT]
    cases w with
    | hostRst => simp [Warn.ack, slBtStatus, slBtDone]
    | oobRst => simp [Warn.ack, slBtStatus, slBtDone]
    | sus => cases hw

theorem Inv.writeSus {irq event : BitVec 32} (h : m.Inv) (hp : m.point = .writeSus irq event) :
    m.access.Inv := by
  obtain ⟨ha, hknows⟩ := h
  rw [hp] at hknows
  obtain ⟨hv, hsus⟩ := hknows
  simp only [access, hp]
  refine ⟨fun w => ?_, trivial⟩
  by_cases hw : w = .sus
  · subst hw
    have hbank : Warn.sus.bank = .sys1 := rfl
    rw [Regs.level_writeEvent, Regs.ack_writeEvent, if_pos hbank, BitVec.getLsbD_or, getLsbD_BIT]
    refine hsus.imp_right fun hlevel => ?_
    rw [hlevel]
    simp [Warn.ack]
  · rw [Regs.level_writeEvent, Regs.ack_writeCopy hv fun hb => ?_]
    · exact ha w
    · cases w with
      | sus => exact absurd rfl hw
      | hostRst => cases hb
      | oobRst => cases hb

theorem Inv.access (h : m.Inv) (hc : m.Clean .access) : m.access.Inv := by
  have hsame : ∀ {p : Point}, m.regs.Knows p → Inv { m with point := p } := fun hk => ⟨h.agrees, hk⟩
  have hknows := h.knows
  cases hp : m.point with
  | idle => simpa only [Machine.access, hp] using h
  | readIrqStatus =>
    simp only [Machine.access, hp]
    exact hsame (Regs.knows_fromBank _ _)
  | readStatus b irq =>
    simp only [Machine.access, hp]
    refine hsame fun w hw hs => ?_
    subst hw
    exact hs
  | readEvent b irq status =>
    rw [hp] at hknows
    simp only [Machine.access, hp]
    refine hsame (Regs.knows_answers irq hknows (fun w hw hmem => ?_) fun w => Warn.mem_warns.mp)
    exact absurd (Warn.mem_warns.mpr hw) hmem
  | readAck b irq status event w ws =>
    rw [hp] at hknows
    simp only [Machine.access, hp]
    exact hsame ⟨hknows, fun _ _ _ => rfl⟩
  | writeAck b irq status event w ws v => exact h.writeAck hp
  | clearStatus b irq status event => exact h.clearStatus hp hc
  | readControl irq =>
    simp only [Machine.access, hp]
    exact hsame trivial
  | resetControl irq v =>
    simp only [Machine.access, hp]
    exact ⟨h.agrees, trivial⟩
  | setControl irq v =>
    simp only [Machine.access, hp]
    exact ⟨h.agrees, trivial⟩
  | readBootStatus irq =>
    simp only [Machine.access, hp]
    split_ifs
    · exact hsame trivial
    · exact hsame trivial
  | readBoot irq =>
    simp only [Machine.access, hp]
    exact hsame ⟨_, fun _ _ _ => rfl, rfl⟩
  | writeBoot irq v => exact h.writeBoot hp
  | readSus irq =>
    simp only [Machine.access, hp]
    split_ifs with hsus
    · rw [Bool.and_eq_true] at hsus
      exact hsame ⟨fun _ _ _ => rfl, .inr hsus.1⟩
    · exact hsame trivial
  | writeSus irq event => exact h.writeSus hp
  | clearIrqStatus irq =>
    simp only [Machine.access, hp]
    exact ⟨h.agrees, trivial⟩

theorem Inv.step (h : m.Inv) {e : Event} (hc : m.Clean e) : (m.step e).Inv := by
  cases e with
  | edge w => exact ⟨(Regs.driven_edge w).agrees h.agrees, (Regs.driven_edge w).knows h.knows⟩
  | hwReset => exact ⟨Regs.driven_hwReset.agrees h.agrees, Regs.driven_hwReset.knows h.knows⟩
  | interrupt =>
    unfold Machine.step
    split_ifs
    · exact ⟨h.agrees, trivial⟩
    · exact h
  | access => exact h.access hc

end Machine

end MetaCommon.Espi
