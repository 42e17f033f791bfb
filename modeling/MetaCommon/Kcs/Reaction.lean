import MetaCommon.Kcs.Driver

/-!
# What the driver does with one host byte

`Reaction` lists the ways the driver answers a byte, one constructor for each branch of the two
read functions, with everything the branch changes. `hostWrite_reaction` is the inversion of the
interrupt handler; the invariants of the channel are derived from it and never unfold the handler.
-/

namespace MetaCommon.Kcs

open Buffer

variable {ε : Type*} (tbl : List (IpmiCmdTable ε))

/-- Nothing but the packet and the registers differs. -/
structure Quiet (c c' : Channel ε) : Prop where
  env : c'.env = c.env
  calls : c'.calls = c.calls
  served : c'.served = c.served

/-- The bytes the driver answers by aborting, with the error it then has on record. -/
inductive Refuses (p : KcsPacket) : HostByte → KcsError → Prop
  | badCmd {b : UInt8} (h₁ : b ≠ kcsCtrlCodeWriteStart) (h₂ : b ≠ kcsCtrlCodeWriteEnd)
      (h₃ : b ≠ kcsCtrlCodeGetStatusAbort) : Refuses p (.cmd b) .illegalCtrlCmd
  | writeEnd (h : p.error ≠ .noError) : Refuses p (.cmd kcsCtrlCodeWriteEnd) p.error
  | data {b : UInt8} (h : p.phase = .idle ∨ p.phase = .readWait ∨ p.phase = .error) :
      Refuses p (.data b) p.error

/-- The packet after `b` has been read into `data_in`. -/
def KcsPacket.accept (p : KcsPacket) (b : UInt8) : KcsPacket :=
  { p with
    dataIn := Function.update p.dataIn p.dataInIdx.toNat b
    dataInIdx := p.dataInIdx + 1 }

/-- The packet after the response `bytes` has been filled in and its first byte served. -/
def KcsPacket.respond (p : KcsPacket) (bytes : List UInt8) : KcsPacket :=
  { p with
    dataOut := store p.dataOut 0 bytes
    dataOutLen := UInt16.ofNat bytes.length
    phase := .read
    dataOutIdx := p.dataOutIdx + 1
    readReqDone := false }

inductive Reaction (c : Channel ε) : HostByte → Channel ε → Prop
  | writeStart {c'} (hq : Quiet c c')
      (hp : c'.pkt = { initKcsPacket c.pkt with phase := .writeStart })
      (hs : c'.regs.Shows .write) : Reaction c (.cmd kcsCtrlCodeWriteStart) c'
  | writeEnd {c'} (herr : c.pkt.error = .noError) (hq : Quiet c c')
      (hp : c'.pkt = { c.pkt with phase := .writeEnd })
      (hs : c'.regs.Shows .write) : Reaction c (.cmd kcsCtrlCodeWriteEnd) c'
  | abortCmd {c'} (hq : Quiet c c')
      (hp : c'.pkt = { c.pkt with phase := .abort1, error := .abortByCmd })
      (hs : c'.regs.Shows .write) : Reaction c (.cmd kcsCtrlCodeGetStatusAbort) c'
  | refuse {c' b e} (hr : Refuses c.pkt b e) (hq : Quiet c c')
      (hp : c'.pkt = { c.pkt with error := e, phase := .error, readReqDone := false, dataInIdx := 0 })
      (hs : c'.regs.Shows .error) (ho : c'.regs.odr = zeroData) : Reaction c b c'
  | accept {c' b} (hph : c.pkt.phase = .writeStart ∨ c.pkt.phase = .writeData) (hq : Quiet c c')
      (hp : c'.pkt = { c.pkt with phase := .writeData }.accept b)
      (hs : c'.regs.Shows .write) : Reaction c (.data b) c'
  | execute {c' b} (hph : c.pkt.phase = .writeEnd) (r : KcsResponse ε)
      (hr : r = fillResponse tbl
        { c.pkt.accept b with phase := .readWait, readReqDone := true } c.env)
      (hp : c'.pkt = (c.pkt.accept b).respond r.bytes)
      (henv : c'.env = r.env) (hcalls : c'.calls = c.calls ++ r.call.toList)
      (hserved : c'.served =
        c.served ++ [⟨c.pkt.dataOutIdx, UInt16.ofNat r.bytes.length, KcsState.read.bits⟩])
      (hs : c'.regs.Shows .read)
      (ho : c'.regs.odr = c'.pkt.dataOut c.pkt.dataOutIdx.toNat) : Reaction c (.data b) c'
  | badRead {c' b} (hph : c.pkt.phase = .read) (hb : b ≠ kcsCtrlCodeRead) (hq : Quiet c c')
      (hp : c'.pkt = c.pkt) (hs : c'.regs.Shows .error) (ho : c'.regs.odr = zeroData) :
      Reaction c (.data b) c'
  | readNext {c'} (hph : c.pkt.phase = .read) (hne : c.pkt.dataOutIdx ≠ c.pkt.dataOutLen)
      (henv : c'.env = c.env) (hcalls : c'.calls = c.calls)
      (hserved : c'.served =
        c.served ++ [⟨c.pkt.dataOutIdx, c.pkt.dataOutLen, c.regs.stateBits⟩])
      (hp : c'.pkt = { c.pkt with dataOutIdx := c.pkt.dataOutIdx + 1 })
      (hs : c'.regs.stateBits = c.regs.stateBits)
      (ho : c'.regs.odr = c.pkt.dataOut c.pkt.dataOutIdx.toNat) :
      Reaction c (.data kcsCtrlCodeRead) c'
  | readLast {c'} (hph : c.pkt.phase = .read) (heq : c.pkt.dataOutIdx = c.pkt.dataOutLen)
      (hq : Quiet c c') (hp : c'.pkt = { c.pkt with phase := .idle }) (hs : c'.regs.Shows .idle)
      (ho : c'.regs.odr = zeroData) : Reaction c (.data kcsCtrlCodeRead) c'
  | abort1 {c' b} (hph : c.pkt.phase = .abort1) (hq : Quiet c c')
      (hp : c'.pkt = { c.pkt with phase := .abort2 }) (hs : c'.regs.Shows .read)
      (ho : c'.regs.odr = c.pkt.error.code) : Reaction c (.data b) c'
  | abort2 {c' b} (hph : c.pkt.phase = .abort2) (hq : Quiet c c')
      (hp : c'.pkt = { c.pkt with phase := .idle }) (hs : c'.regs.Shows .idle)
      (ho : c'.regs.odr = zeroData) : Reaction c (.data b) c'

theorem toNat_succ_of_lt {n : UInt16} (hn : n.toNat < 65535) : (n + 1).toNat = n.toNat + 1 := by
  rw [UInt16.toNat_add, UInt16.toNat_one, Nat.mod_eq_of_lt (by omega)]

/-- The index is a `u16`, so it is always below the size of the array it indexes. -/
theorem withLengthCheck_eq (c accept : Channel ε) : withLengthCheck c accept = accept := by
  have hlt : c.pkt.dataInIdx.toNat < maxKcsPktSize := c.pkt.dataInIdx.toNat_lt
  rw [withLengthCheck, if_neg (by omega)]

theorem kcsForceAbort_reaction {c c' : Channel ε} {b : HostByte} {e : KcsError}
    (hr : Refuses c.pkt b e) (hq : Quiet c c') (hp : c'.pkt = { c.pkt with error := e }) :
    Reaction tbl c b (kcsForceAbort c') := by
  refine .refuse hr ⟨hq.env, hq.calls, hq.served⟩ ?_ ?_ rfl
  · simp only [kcsForceAbort, hp]
  · simp [kcsForceAbort, KcsIoReg.Shows]

theorem readKcsCmd_reaction (c : Channel ε) (b : UInt8) :
    Reaction tbl c (.cmd b) (readKcsCmd { c with regs := c.regs.hostWrite (.cmd b) }) := by
  by_cases h₁ : b = kcsCtrlCodeWriteStart
  · subst h₁
    exact .writeStart ⟨rfl, rfl, rfl⟩ rfl (by simp [readKcsCmd, KcsIoReg.Shows])
  by_cases h₂ : b = kcsCtrlCodeWriteEnd
  · subst h₂
    by_cases herr : c.pkt.error = .noError
    · refine .writeEnd herr ?_ ?_ ?_ <;>
        simp [readKcsCmd, h₁, herr, KcsIoReg.Shows, Quiet.mk]
    · simp only [readKcsCmd, KcsIoReg.readData_fst, KcsIoReg.writeData_idr,
        KcsIoReg.setKcsState_idr, KcsIoReg.hostWrite_cmd_idr, if_neg h₁, ne_eq, herr,
        not_false_eq_true, if_true]
      exact kcsForceAbort_reaction (c := c) tbl (.writeEnd herr) ⟨rfl, rfl, rfl⟩ rfl
  by_cases h₃ : b = kcsCtrlCodeGetStatusAbort
  · subst h₃
    refine .abortCmd ?_ ?_ ?_ <;> simp [readKcsCmd, h₁, h₂, KcsIoReg.Shows, Quiet.mk]
  · simp only [readKcsCmd, KcsIoReg.readData_fst, KcsIoReg.writeData_idr,
      KcsIoReg.setKcsState_idr, KcsIoReg.hostWrite_cmd_idr, h₁, h₂, h₃, if_false]
    exact kcsForceAbort_reaction (c := c) tbl (.badCmd h₁ h₂ h₃) ⟨rfl, rfl, rfl⟩ rfl

theorem readKcsDataRead_reaction (c : Channel ε) (b : UInt8) (hph : c.pkt.phase = .read) :
    Reaction tbl c (.data b) (readKcsDataRead { c with regs := c.regs.hostWrite (.data b) }) := by
  by_cases heq : c.pkt.dataOutIdx = c.pkt.dataOutLen
  · by_cases hb : b = kcsCtrlCodeRead
    · subst hb
      refine .readLast hph heq ?_ ?_ ?_ ?_ <;>
        simp [readKcsDataRead, heq, KcsIoReg.Shows, Quiet.mk]
    · refine .badRead hph hb ?_ ?_ ?_ ?_ <;>
        simp [readKcsDataRead, heq, hb, KcsIoReg.Shows, Quiet.mk]
  · by_cases hb : b = kcsCtrlCodeRead
    · subst hb
      refine .readNext hph heq ?_ ?_ ?_ ?_ ?_ ?_ <;>
        simp [readKcsDataRead, heq, writeDataOut]
    · refine .badRead hph hb ?_ ?_ ?_ ?_ <;>
        simp [readKcsDataRead, heq, hb, KcsIoReg.Shows, Quiet.mk]

theorem readKcsDataWrite_reaction (c : Channel ε) (b : UInt8)
    (hph : c.pkt.phase = .writeStart ∨ c.pkt.phase = .writeData) :
    Reaction tbl c (.data b) (readKcsDataWrite
      { c with
        regs := c.regs.hostWrite (.data b)
        pkt := { c.pkt with phase := .writeData } }) := by
  rw [readKcsDataWrite, withLengthCheck_eq]
  exact .accept hph ⟨rfl, rfl, rfl⟩ (by simp [acceptData, KcsPacket.accept])
    (by simp [acceptData, KcsIoReg.Shows])

theorem readKcsDataWriteEnd_reaction (c : Channel ε) (b : UInt8) (hph : c.pkt.phase = .writeEnd) :
    Reaction tbl c (.data b) (readKcsDataWriteEnd tbl
      { c with regs := c.regs.hostWrite (.data b) }) := by
  rw [readKcsDataWriteEnd, withLengthCheck_eq]
  refine .execute hph _ rfl ?_ ?_ ?_ ?_ ?_ ?_ <;>
    simp [processKcsRequest, writeDataOut, acceptData, KcsPacket.accept, KcsPacket.respond,
      KcsIoReg.Shows]

theorem readKcsData_reaction (c : Channel ε) (b : UInt8) :
    Reaction tbl c (.data b) (readKcsData tbl { c with regs := c.regs.hostWrite (.data b) }) := by
  cases hph : c.pkt.phase with
  | writeStart =>
    simpa only [readKcsData, hph] using readKcsDataWrite_reaction tbl c b (.inl hph)
  | writeData =>
    have hpkt : { c.pkt with phase := .writeData } = c.pkt := by rw [← hph]
    have h := readKcsDataWrite_reaction tbl c b (.inr hph)
    rw [hpkt] at h
    simpa only [readKcsData, hph] using h
  | writeEnd => simpa only [readKcsData, hph] using readKcsDataWriteEnd_reaction tbl c b hph
  | read => simpa only [readKcsData, hph] using readKcsDataRead_reaction tbl c b hph
  | abort1 =>
    refine .abort1 hph ?_ ?_ ?_ ?_ <;> simp [readKcsData, hph, KcsIoReg.Shows, Quiet.mk]
  | abort2 =>
    refine .abort2 hph ?_ ?_ ?_ ?_ <;> simp [readKcsData, hph, KcsIoReg.Shows, Quiet.mk]
  | idle =>
    simp only [readKcsData, hph]
    exact kcsForceAbort_reaction tbl (.data (.inl hph)) ⟨rfl, rfl, rfl⟩ rfl
  | readWait =>
    simp only [readKcsData, hph]
    exact kcsForceAbort_reaction tbl (.data (.inr (.inl hph))) ⟨rfl, rfl, rfl⟩ rfl
  | error =>
    simp only [readKcsData, hph]
    exact kcsForceAbort_reaction tbl (.data (.inr (.inr hph))) ⟨rfl, rfl, rfl⟩ rfl

/-- Every byte is answered in one of the listed ways. -/
theorem hostWrite_reaction (c : Channel ε) (b : HostByte) :
    Reaction tbl c b (hostWrite tbl c b) := by
  cases b with
  | cmd b => rw [hostWrite_cmd]; exact readKcsCmd_reaction tbl c b
  | data b => rw [hostWrite_data]; exact readKcsData_reaction tbl c b

theorem run_reaction (c : Channel ε) (pre : List HostByte) (b : HostByte) :
    Reaction tbl (run tbl c pre) b (run tbl c (pre ++ [b])) := by
  rw [run, run, Runs.run_concat]
  exact hostWrite_reaction tbl _ b

/-! The answers the host relies on in a transaction. -/

variable {tbl} {c c' : Channel ε} {x : UInt8}

theorem Refuses.of_cmd {p : KcsPacket} {e : KcsError} (hr : Refuses p (.cmd x) e) :
    x ≠ kcsCtrlCodeWriteStart ∧ (x = kcsCtrlCodeWriteEnd → p.error ≠ .noError) := by
  cases hr with
  | badCmd h₁ h₂ _ => exact ⟨h₁, fun h => absurd h h₂⟩
  | writeEnd h => exact ⟨by decide, fun _ => h⟩

theorem Refuses.of_data {p : KcsPacket} {e : KcsError} (hr : Refuses p (.data x) e) :
    (p.phase = .idle ∨ p.phase = .readWait ∨ p.phase = .error) ∧ e = p.error := by
  cases hr with
  | data h => exact ⟨h, rfl⟩

theorem Reaction.of_writeStart (hr : Reaction tbl c (.cmd x) c') (hx : x = kcsCtrlCodeWriteStart) :
    Quiet c c' ∧ c'.pkt = { initKcsPacket c.pkt with phase := .writeStart } := by
  cases hr with
  | writeStart hq hp _ => exact ⟨hq, hp⟩
  | writeEnd | abortCmd => exact absurd hx (by decide)
  | refuse hr => exact absurd hx hr.of_cmd.1

theorem Reaction.of_writeEnd (hr : Reaction tbl c (.cmd x) c') (hx : x = kcsCtrlCodeWriteEnd)
    (herr : c.pkt.error = .noError) : Quiet c c' ∧ c'.pkt = { c.pkt with phase := .writeEnd } := by
  cases hr with
  | writeEnd _ hq hp _ => exact ⟨hq, hp⟩
  | writeStart | abortCmd => exact absurd hx (by decide)
  | refuse hr => exact absurd herr (hr.of_cmd.2 hx)

theorem Reaction.of_accept (hr : Reaction tbl c (.data x) c')
    (hph : c.pkt.phase = .writeStart ∨ c.pkt.phase = .writeData) :
    Quiet c c' ∧ c'.pkt = { c.pkt with phase := .writeData }.accept x := by
  cases hr with
  | accept _ hq hp _ => exact ⟨hq, hp⟩
  | refuse hr => rcases hph with h | h <;> exact absurd hr.of_data.1 (by simp [h])
  | execute h | badRead h | readNext h | readLast h | abort1 h | abort2 h =>
    exact absurd hph (by simp [h])

theorem Reaction.of_execute (hr : Reaction tbl c (.data x) c') (hph : c.pkt.phase = .writeEnd) :
    ∃ r, r = fillResponse tbl { c.pkt.accept x with phase := .readWait, readReqDone := true } c.env ∧
      c'.pkt = (c.pkt.accept x).respond r.bytes ∧ c'.env = r.env ∧
      c'.calls = c.calls ++ r.call.toList ∧ c'.regs.Shows .read ∧
      c'.regs.odr = c'.pkt.dataOut c.pkt.dataOutIdx.toNat := by
  cases hr with
  | execute _ r hr hp henv hcalls _ hs ho => exact ⟨r, hr, hp, henv, hcalls, hs, ho⟩
  | refuse hr => exact absurd hr.of_data.1 (by simp [hph])
  | accept h => exact absurd h (by simp [hph])
  | badRead h | readNext h | readLast h | abort1 h | abort2 h =>
    exact absurd (hph.symm.trans h) (by simp)

theorem Reaction.of_readNext (hr : Reaction tbl c (.data x) c') (hx : x = kcsCtrlCodeRead)
    (hph : c.pkt.phase = .read) (hne : c.pkt.dataOutIdx ≠ c.pkt.dataOutLen) :
    c'.env = c.env ∧ c'.calls = c.calls ∧
      c'.pkt = { c.pkt with dataOutIdx := c.pkt.dataOutIdx + 1 } ∧
      c'.regs.stateBits = c.regs.stateBits ∧
      c'.regs.odr = c.pkt.dataOut c.pkt.dataOutIdx.toNat := by
  cases hr with
  | readNext _ _ henv hcalls _ hp hs ho => exact ⟨henv, hcalls, hp, hs, ho⟩
  | readLast _ heq => exact absurd heq hne
  | badRead _ hb => exact absurd hx hb
  | refuse hr => exact absurd hr.of_data.1 (by simp [hph])
  | accept h => exact absurd h (by simp [hph])
  | execute h | abort1 h | abort2 h => exact absurd (hph.symm.trans h) (by simp)

theorem Reaction.of_readLast (hr : Reaction tbl c (.data x) c') (hx : x = kcsCtrlCodeRead)
    (hph : c.pkt.phase = .read) (heq : c.pkt.dataOutIdx = c.pkt.dataOutLen) :
    Quiet c c' ∧ c'.pkt = { c.pkt with phase := .idle } ∧ c'.regs.Shows .idle := by
  cases hr with
  | readLast _ _ hq hp hs _ => exact ⟨hq, hp, hs⟩
  | readNext _ hne => exact absurd heq hne
  | badRead _ hb => exact absurd hx hb
  | refuse hr => exact absurd hr.of_data.1 (by simp [hph])
  | accept h => exact absurd h (by simp [hph])
  | execute h | abort1 h | abort2 h => exact absurd (hph.symm.trans h) (by simp)

end MetaCommon.Kcs
