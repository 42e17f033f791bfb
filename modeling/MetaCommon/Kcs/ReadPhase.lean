import MetaCommon.Kcs.Transaction

/-!
# The read phase stays inside the response

In the read phase the two output counters are related only by the equality test that ends it.
`OutBounded` is the invariant that makes the test come true: the index is reset by WRITE_START and
must not have moved far when a request is executed. A WRITE_END that is accepted after a response
has been read is what breaks it.
-/

namespace MetaCommon.Kcs

variable {ε : Type*} (tbl : List (IpmiCmdTable ε))

/-- The end-of-data test of the read phase is true. -/
def EndOfData (c : Channel ε) : Prop :=
  c.pkt.phase = .read ∧ c.pkt.dataOutIdx = c.pkt.dataOutLen

/-- In the read phase the index is inside the response and the end-of-data test comes after at most
as many READ bytes as the response is long; no byte outside a response has been put in ODR. -/
structure ReadsWithin (c : Channel ε) : Prop where
  bounded : c.pkt.phase = .read → c.pkt.dataOutIdx.toNat ≤ c.pkt.dataOutLen.toNat ∧
    c.pkt.dataOutLen.toNat ≤ maxKcsPktSize
  ends : c.pkt.phase = .read → ∃ k ≤ c.pkt.dataOutLen.toNat,
    EndOfData (run tbl c (List.replicate k (.data kcsCtrlCodeRead)))
  served : ∀ e ∈ c.served, e.idx < e.len

/-- A WRITE_END is accepted only while at most one byte has been served since the latest
WRITE_START. -/
def OneResponse (c : Channel ε) (b : HostByte) : Prop :=
  b = .cmd kcsCtrlCodeWriteEnd → c.pkt.error = .noError → c.pkt.dataOutIdx.toNat ≤ 1

instance : DecidableRel (OneResponse (ε := ε)) :=
  fun _ _ => by unfold OneResponse; infer_instance

structure OutBounded (c : Channel ε) : Prop where
  read : c.pkt.phase = .read → c.pkt.dataOutIdx.toNat ≤ c.pkt.dataOutLen.toNat
  writeEnd : c.pkt.phase = .writeEnd → c.pkt.dataOutIdx.toNat ≤ 1
  served : ∀ e ∈ c.served, e.idx < e.len

theorem outBounded_init (regs : KcsIoReg) (env : ε) : OutBounded (kcsInit regs env) :=
  ⟨by simp [kcsInit], by simp [kcsInit], by simp [kcsInit]⟩

theorem outBounded_of_phase {c : Channel ε} (h₁ : c.pkt.phase ≠ .read)
    (h₂ : c.pkt.phase ≠ .writeEnd) (hs : ∀ e ∈ c.served, e.idx < e.len) : OutBounded c :=
  ⟨fun h => absurd h h₁, fun h => absurd h h₂, hs⟩

theorem Reaction.outBounded {c c' : Channel ε} {b : HostByte} (hr : Reaction tbl c b c')
    (hb : OutBounded c) (hg : OneResponse c b) : OutBounded c' := by
  cases hr with
  | writeStart hq hp _ | abortCmd hq hp _ | refuse _ hq hp _ _ | accept _ hq hp _
  | readLast _ _ hq hp _ _ | abort1 _ hq hp _ _ | abort2 _ hq hp _ _ =>
    refine outBounded_of_phase ?_ ?_ (by rw [hq.served]; exact hb.served)
    · simp [hp, KcsPacket.accept]
    · simp [hp, KcsPacket.accept]
  | writeEnd herr hq hp _ =>
    exact ⟨by simp [hp], fun _ => by rw [hp]; exact hg rfl herr,
      by rw [hq.served]; exact hb.served⟩
  | @execute _ x hph r hr hp _ _ hserved =>
    have hidx := hb.writeEnd hph
    have hsize := fillResponse_length tbl
      { c.pkt.accept x with phase := .readWait, readReqDone := true } c.env
    rw [← hr] at hsize
    have hlen : (UInt16.ofNat r.bytes.length).toNat = r.bytes.length := by
      simp only [maxIpmiResDataSize] at hsize
      exact UInt16.toNat_ofNat_of_lt' (by change _ < 65536; omega)
    have hnext := toNat_succ_of_lt (n := c.pkt.dataOutIdx) (by omega)
    refine ⟨fun _ => ?_, by simp [hp, KcsPacket.respond], ?_⟩
    · rw [hp]
      change (c.pkt.dataOutIdx + 1).toNat ≤ (UInt16.ofNat r.bytes.length).toNat
      omega
    · intro e he
      rw [hserved, List.mem_append, List.mem_singleton] at he
      rcases he with he | rfl
      · exact hb.served e he
      · exact UInt16.lt_iff_toNat_lt.mpr (by
          change c.pkt.dataOutIdx.toNat < (UInt16.ofNat r.bytes.length).toNat
          omega)
  | badRead hph _ hq hp _ _ =>
    exact ⟨fun _ => by rw [hp]; exact hb.read hph, by simp [hp, hph],
      by rw [hq.served]; exact hb.served⟩
  | readNext hph hne _ _ hserved hp _ _ =>
    have hlt : c.pkt.dataOutIdx.toNat < c.pkt.dataOutLen.toNat :=
      Nat.lt_of_le_of_ne (hb.read hph) (fun h => hne (UInt16.toNat_inj.mp h))
    have hlen : c.pkt.dataOutLen.toNat < 65536 := c.pkt.dataOutLen.toNat_lt
    have hnext := toNat_succ_of_lt (n := c.pkt.dataOutIdx) (by omega)
    refine ⟨fun _ => ?_, by simp [hp, hph], ?_⟩
    · rw [hp]
      change (c.pkt.dataOutIdx + 1).toNat ≤ c.pkt.dataOutLen.toNat
      omega
    · intro e he
      rw [hserved, List.mem_append, List.mem_singleton] at he
      rcases he with he | rfl
      · exact hb.served e he
      · exact UInt16.lt_iff_toNat_lt.mpr hlt

/-- READ bytes move the index up to the end of the response. -/
theorem endOfData_after (n : ℕ) (c : Channel ε) (hph : c.pkt.phase = .read)
    (hn : c.pkt.dataOutIdx.toNat + n = c.pkt.dataOutLen.toNat) :
    EndOfData (run tbl c (List.replicate n (.data kcsCtrlCodeRead))) := by
  induction n generalizing c with
  | zero => exact ⟨hph, UInt16.toNat_inj.mp hn⟩
  | succ n ih =>
    have hlen : c.pkt.dataOutLen.toNat < 65536 := c.pkt.dataOutLen.toNat_lt
    have hne : c.pkt.dataOutIdx ≠ c.pkt.dataOutLen := by
      intro h
      rw [h] at hn
      omega
    obtain ⟨_, _, hp, _, _⟩ := (hostWrite_reaction tbl c _).of_readNext rfl hph hne
    rw [List.replicate_succ, run, Runs.run_cons]
    apply ih
    · rw [hp]
      exact hph
    · rw [hp]
      change (c.pkt.dataOutIdx + 1).toNat + n = c.pkt.dataOutLen.toNat
      rw [toNat_succ_of_lt (by omega)]
      omega

theorem OutBounded.readsWithin {c : Channel ε} (hb : OutBounded c) : ReadsWithin tbl c := by
  refine ⟨fun hph => ⟨hb.read hph, ?_⟩, fun hph => ?_, hb.served⟩
  · have hlen : c.pkt.dataOutLen.toNat < 65536 := c.pkt.dataOutLen.toNat_lt
    simp only [maxKcsPktSize]
    omega
  · have hle := hb.read hph
    exact ⟨c.pkt.dataOutLen.toNat - c.pkt.dataOutIdx.toNat, by omega,
      endOfData_after tbl _ c hph (by omega)⟩

theorem run_readsWithin (regs : KcsIoReg) (env : ε) (bs : List HostByte)
    (hg : Runs.Guarded (hostWrite tbl) OneResponse (kcsInit regs env) bs) :
    ReadsWithin tbl (run tbl (kcsInit regs env) bs) :=
  (Runs.Guarded.invariant (fun c b hb hc => (hostWrite_reaction tbl c b).outBounded tbl hb hc)
    (outBounded_init regs env) hg).readsWithin tbl

/-- Get Self Test Results, read up to its third byte. -/
theorem run_readsWithin_self_test :
    ReadsWithin (cmdInfo EnvLib.plain) (run (cmdInfo EnvLib.plain) (kcsInit ⟨0, 0, 0⟩ (none, none))
      (writeTransaction [0x18] 0x04 ++ [.data 0x68, .data 0x68])) :=
  run_readsWithin (cmdInfo EnvLib.plain) ⟨0, 0, 0⟩ (none, none) _ (by decide)

/-- When the host has read three of the five response bytes of Get Self Test Results, WRITE_END and
one data byte execute the request again, and the index moves behind the new response of three
bytes. -/
theorem not_readsWithin :
    ¬ ∀ bs, ReadsWithin (cmdInfo EnvLib.plain)
      (run (cmdInfo EnvLib.plain) (kcsInit ⟨0, 0, 0⟩ (none, none)) bs) := by
  intro h
  have hb := (h (writeTransaction [0x18] 0x04 ++ List.replicate 2 (.data 0x68) ++
    [.cmd 0x62, .data 0x00])).bounded
  exact absurd (hb (by decide +kernel)).1 (by decide +kernel)

end MetaCommon.Kcs
