import MetaCommon.Kcs.Transaction

/-!
# The status the host sees

The state field of the status register and the phase of the packet are set by different statements.
`KcsPhase.state` is the state that belongs to a phase: the write phases, among them ABORT_1, where
the driver waits for the byte that the host writes after GET_STATUS/ABORT, show WRITE; READ and
ABORT_2, where the response or the error code stands in ODR, show READ.

Two branches let them come apart. A data byte other than READ in the read phase shows ERROR and
stays in the phase, so that the response goes on under that status. A data byte outside a
transaction shows ERROR and records no error, so that a WRITE_END is then accepted.
-/

namespace MetaCommon.Kcs

variable {ε : Type*} (tbl : List (IpmiCmdTable ε))

def KcsPhase.state : KcsPhase → KcsState
  | .idle => .idle
  | .writeStart | .writeData | .writeEnd | .abort1 => .write
  | .readWait | .read | .abort2 => .read
  | .error => .error

structure StatusAgrees (c : Channel ε) : Prop where
  read : c.regs.Shows .read ↔ c.pkt.phase = .read ∨ c.pkt.phase = .abort2
  write : c.regs.Shows .write ↔ c.pkt.phase = .writeStart ∨ c.pkt.phase = .writeData ∨
    c.pkt.phase = .writeEnd ∨ c.pkt.phase = .abort1
  error : c.regs.Shows .error ↔ c.pkt.phase = .error
  idle : c.regs.Shows .idle ↔ c.pkt.phase = .idle

/-- The host bytes that are errors: a bad control code, a WRITE_END while an error is recorded, a
data byte that no phase asks for, and anything but READ in the read phase. -/
def IsError (p : KcsPacket) : HostByte → Prop
  | .cmd b => b = kcsCtrlCodeWriteEnd ∧ p.error ≠ .noError ∨
      b ≠ kcsCtrlCodeWriteStart ∧ b ≠ kcsCtrlCodeWriteEnd ∧ b ≠ kcsCtrlCodeGetStatusAbort
  | .data b => p.phase = .idle ∨ p.phase = .readWait ∨ p.phase = .error ∨
      p.phase = .read ∧ b ≠ kcsCtrlCodeRead

/-- GET_STATUS/ABORT and WRITE_START end an error. -/
def EndsError (b : HostByte) : Prop :=
  b = .cmd kcsCtrlCodeGetStatusAbort ∨ b = .cmd kcsCtrlCodeWriteStart

/-- Along the run the status agrees with the phase, ERROR is shown from an error to the next byte
that ends it, and response bytes are put in ODR under READ only. -/
structure StatusSound (c₀ : Channel ε) (bs : List HostByte) : Prop where
  agrees : StatusAgrees (run tbl c₀ bs)
  error : ∀ pre b post, bs = pre ++ b :: post →
    ((run tbl c₀ (pre ++ [b])).regs.Shows .error ↔ IsError (run tbl c₀ pre).pkt b ∨
      (run tbl c₀ pre).regs.Shows .error ∧ ¬ EndsError b)
  served : ∀ e ∈ (run tbl c₀ bs).served, e.stateBits = KcsState.read.bits

/-- Where the status strays: anything but READ in the read phase, and a WRITE_END that is accepted
in the error phase. -/
def InStep (c : Channel ε) : HostByte → Prop
  | .cmd b => b = kcsCtrlCodeWriteEnd → c.pkt.error = .noError → c.pkt.phase ≠ .error
  | .data b => c.pkt.phase = .read → b = kcsCtrlCodeRead

instance : DecidableRel (InStep (ε := ε))
  | _, .cmd _ => by unfold InStep; infer_instance
  | _, .data _ => by unfold InStep; infer_instance

structure StatusInv (c : Channel ε) : Prop where
  shows : c.regs.Shows c.pkt.phase.state
  settled : c.pkt.phase ≠ .readWait
  served : ∀ e ∈ c.served, e.stateBits = KcsState.read.bits

theorem statusInv_init (regs : KcsIoReg) (env : ε) : StatusInv (kcsInit regs env) :=
  ⟨by simp [kcsInit, KcsPhase.state], by simp [kcsInit], by simp [kcsInit]⟩

theorem KcsIoReg.Shows.iff_eq {r : KcsIoReg} {st : KcsState} (h : r.Shows st) (st' : KcsState) :
    r.Shows st' ↔ st = st' :=
  ⟨fun h' => KcsIoReg.bits_injective (h.symm.trans h'), fun he => he ▸ h⟩

theorem StatusInv.agrees {c : Channel ε} (hi : StatusInv c) : StatusAgrees c := by
  have hsettled := hi.settled
  constructor <;> rw [hi.shows.iff_eq] <;> cases hph : c.pkt.phase <;> simp_all [KcsPhase.state]

theorem Refuses.isError {p : KcsPacket} {b : HostByte} {e : KcsError} (hr : Refuses p b e) :
    IsError p b := by
  cases hr with
  | badCmd h₁ h₂ h₃ => exact .inr ⟨h₁, h₂, h₃⟩
  | writeEnd h => exact .inl ⟨rfl, h⟩
  | data h => exact h.imp id (.imp id .inl)

theorem Reaction.statusInv {c c' : Channel ε} {b : HostByte} (hr : Reaction tbl c b c')
    (hi : StatusInv c) (hg : InStep c b) : StatusInv c' := by
  cases hr with
  | writeStart hq hp hs | writeEnd _ hq hp hs | abortCmd hq hp hs | refuse _ hq hp hs _
  | accept _ hq hp hs | readLast _ _ hq hp hs _ | abort1 _ hq hp hs _ | abort2 _ hq hp hs _ =>
    exact ⟨by rw [hp]; exact hs, by simp [hp, KcsPacket.accept],
      by rw [hq.served]; exact hi.served⟩
  | execute _ r _ hp _ _ hserved hs =>
    refine ⟨by rw [hp]; exact hs, by simp [hp, KcsPacket.respond], fun e he => ?_⟩
    rw [hserved, List.mem_append, List.mem_singleton] at he
    rcases he with he | rfl
    · exact hi.served e he
    · rfl
  | badRead hph hb => exact absurd (hg hph) hb
  | readNext hph _ _ _ hserved hp hs =>
    have hread : c.regs.Shows .read := by simpa [hph, KcsPhase.state] using hi.shows
    refine ⟨?_, by simp [hp, hph], fun e he => ?_⟩
    · rw [hp, KcsIoReg.shows_congr hs]
      exact hi.shows
    · rw [hserved, List.mem_append, List.mem_singleton] at he
      rcases he with he | rfl
      · exact hi.served e he
      · exact hread

theorem Reaction.shows_error_iff {c c' : Channel ε} {b : HostByte} (hr : Reaction tbl c b c')
    (hi : StatusInv c) (hg : InStep c b) :
    c'.regs.Shows .error ↔ IsError c.pkt b ∨ c.regs.Shows .error ∧ ¬ EndsError b := by
  have hbefore : c.regs.Shows .error ↔ c.pkt.phase = .error := hi.agrees.error
  have hafter : c'.regs.Shows .error ↔ c'.pkt.phase = .error := (hr.statusInv tbl hi hg).agrees.error
  rw [hbefore, hafter]
  cases hr with
  | writeStart _ hp | abortCmd _ hp =>
    simp [hp, IsError, EndsError, kcsCtrlCodeWriteStart, kcsCtrlCodeWriteEnd,
      kcsCtrlCodeGetStatusAbort]
  | writeEnd herr _ hp =>
    have hph : c.pkt.phase ≠ .error := hg rfl herr
    simp [hp, IsError, herr, hph]
  | refuse hr _ hp =>
    simp [hp, hr.isError]
  | accept hph _ hp =>
    rcases hph with h | h <;> simp [hp, IsError, h, KcsPacket.accept]
  | execute hph r _ hp => simp [hp, IsError, hph, KcsPacket.respond]
  | badRead hph hb => exact absurd (hg hph) hb
  | readNext hph _ _ _ _ hp => simp [hp, IsError, hph]
  | readLast hph _ _ hp | abort1 hph _ hp | abort2 hph _ hp => simp [hp, IsError, hph]

theorem run_statusSound (regs : KcsIoReg) (env : ε) (bs : List HostByte)
    (hg : Runs.Guarded (hostWrite tbl) InStep (kcsInit regs env) bs) :
    StatusSound tbl (kcsInit regs env) bs := by
  have hinv : ∀ {bs}, Runs.Guarded (hostWrite tbl) InStep (kcsInit regs env) bs →
      StatusInv (run tbl (kcsInit regs env) bs) := fun hg =>
    hg.invariant (fun c b hi hc => (hostWrite_reaction tbl c b).statusInv tbl hi hc)
      (statusInv_init regs env)
  refine ⟨(hinv hg).agrees, ?_, (hinv hg).served⟩
  rintro pre b post rfl
  obtain ⟨hpre, hb, _⟩ := (Runs.guarded_append _ pre (b :: post)).mp hg
  exact (run_reaction tbl (kcsInit regs env) pre b).shows_error_iff tbl (hinv hpre) hb

/-- A bad control code and the abort sequence that ends its error. -/
theorem run_statusSound_abort :
    StatusSound (cmdInfo EnvLib.plain) (kcsInit ⟨0, 0, 0⟩ (none, none))
      [.cmd 0x63, .cmd 0x60, .data 0x00, .data 0x68] :=
  run_statusSound (cmdInfo EnvLib.plain) ⟨0, 0, 0⟩ (none, none) _ (by decide)

/-- A byte that is not READ, in the middle of a response: the rest of the response is put in ODR
while the status shows ERROR. -/
theorem not_statusSound :
    ¬ ∀ bs, StatusSound (cmdInfo EnvLib.plain) (kcsInit ⟨0, 0, 0⟩ (none, none)) bs := by
  intro h
  have hs := (h (writeTransaction [0x18] 0x04 ++ [.data 0x00, .data 0x68])).served
    ⟨1, 5, KcsState.error.bits⟩ (by decide +kernel)
  exact absurd hs (by decide)

end MetaCommon.Kcs
