import MetaCommon.Kcs.Transaction

/-!
# The security mode over KCS

Three layers lie between the host's bytes and the variable `provision`: the byte engine, the
command table and the two handlers. A step of the engine changes the variable only by executing a
well-formed Set Security Mode request, and as long as the engine keeps to the protocol that request
is the transaction the host has just sent. Get Security Mode reads back the last mode set, if the
environment library reports that its writes succeeded: the handler does not look.
-/

namespace MetaCommon.Kcs

open Buffer

variable {ε : Type*} (E : EnvLib ε)

/-- The mode that a well-formed Set Security Mode request asks for. -/
def setMode (d : IpmiCmdData) : Option UInt8 :=
  match d.reqData with
  | [mode] =>
    if d.netFun = netfnIntelOem ∧ d.cmd = cmdIntlOemSetSecMode ∧
        restrictionModeMinValue ≤ mode ∧ mode ≤ restrictionModeMaxValue then some mode
    else none
  | _ => none

def lastSet (calls : List IpmiCmdData) : Option UInt8 :=
  calls.foldl (fun m d => (setMode d).or m) none

/-- What the host gets from Get Security Mode, behind network function and command. -/
def getModeResponse (env : ε) : List UInt8 :=
  (ipmiCmdHandler (cmdInfo E) ⟨netfnIntelOem, cmdIntlOemGetSecMode, []⟩ env).1.bytes

/-- The variable holds `mode`, in memory and on flash. -/
def HoldsMode (env : ε) (mode : UInt8) : Prop :=
  E.envGet env = some (simpleItoa mode.toNat) ∧ E.envSaved env = some (simpleItoa mode.toNat)

structure SecurityModeSound (c₀ : Channel ε) (bs : List HostByte) : Prop where
  changes : ∀ pre b post, bs = pre ++ b :: post →
    let c := run (cmdInfo E) c₀ pre
    let c' := run (cmdInfo E) c₀ (pre ++ [b])
    E.envGet c'.env = E.envGet c.env ∧ E.envSaved c'.env = E.envSaved c.env ∨
      ∃ req d mode, EndsTransaction (pre ++ [b]) req ∧ ipmiRequest req = some d ∧
        setMode d = some mode ∧ HoldsMode E c'.env mode
  get : ∀ mode, lastSet (run (cmdInfo E) c₀ bs).calls = some mode →
    getModeResponse E (run (cmdInfo E) c₀ bs).env = [ipmiCcOk, mode, 0]

/-- The environment writes of the Set Security Mode request that the byte completes succeed. -/
def EnvWrites (c : Channel ε) : HostByte → Prop
  | .cmd _ => True
  | .data x => c.pkt.phase = .writeEnd →
      match (ipmiRequest (load c.pkt.dataIn 0 c.pkt.dataInIdx.toNat ++ [x])).bind setMode with
      | some mode => (E.envSetUlong c.env mode.toNat).2 = 0 ∧
          (E.envSave (E.envSetUlong c.env mode.toNat).1).2 = 0
      | none => True

def Orderly (c : Channel ε) (b : HostByte) : Prop := InProtocol c b ∧ EnvWrites E c b

instance : DecidableRel (Orderly E)
  | _, .cmd _ => by unfold Orderly EnvWrites; infer_instance
  | _, .data _ => by
    unfold Orderly EnvWrites
    have : ∀ (o : Option UInt8) (P : UInt8 → Prop) [DecidablePred P],
        Decidable (match o with | some m => P m | none => True) := fun o P _ => by
      cases o <;> infer_instance
    infer_instance

/-- Of the six commands only Set Security Mode works on the environment. -/
theorem ipmiCmdHandler_env (d : IpmiCmdData) (env : ε) :
    (ipmiCmdHandler (cmdInfo E) d env).2 = match setMode d with
      | some mode => (E.envSave (E.envSetUlong env mode.toNat).1).1
      | none => env := by
  by_cases hd : d.netFun = netfnIntelOem ∧ d.cmd = cmdIntlOemSetSecMode
  · obtain ⟨netFun, cmd, reqData⟩ := d
    obtain ⟨rfl, rfl⟩ := hd
    have hh : ipmiCmdHandler (cmdInfo E) ⟨netfnIntelOem, cmdIntlOemSetSecMode, reqData⟩ env =
        intelSetSecurityMode E reqData env := rfl
    rw [hh]
    match reqData with
    | [] => rfl
    | _ :: _ :: _ => rfl
    | [mode] =>
      by_cases hrange : restrictionModeMinValue ≤ mode ∧ mode ≤ restrictionModeMaxValue
      · have hno : ¬ (restrictionModeMaxValue < mode ∨ mode < restrictionModeMinValue) := by
          simpa only [not_or, UInt8.not_lt] using hrange.symm
        simp [intelSetSecurityMode, setMode, hno, hrange]
      · have hout : restrictionModeMaxValue < mode ∨ mode < restrictionModeMinValue := by
          simpa only [not_and_or, UInt8.not_le, or_comm] using hrange
        simp [intelSetSecurityMode, setMode, hout, hrange]
  · have hnone : setMode d = none := by
      simp only [setMode]
      split
      · rw [if_neg (fun h => hd ⟨h.1, h.2.1⟩)]
      · rfl
    rw [hnone]
    by_contra hne
    obtain ⟨e, he, hnf, hcmd, hrun⟩ := ipmiCmdHandler_env_ne hne
    rw [hrun] at hne
    simp only [cmdInfo, List.mem_cons, List.not_mem_nil, or_false] at he
    rcases he with rfl | rfl | rfl | rfl | rfl | rfl
    · exact hne (getDeviceId_env d.reqData env)
    · exact hne (getSelfTestResult_env d.reqData env)
    · exact hne (fwupdGetExecutionCtx_env d.reqData env)
    · exact hne (intelGetBufferSize_env d.reqData env)
    · exact hne (intelGetSecurityMode_env E d.reqData env)
    · exact hd ⟨hnf.symm, hcmd.symm⟩

theorem setMode_range {d : IpmiCmdData} {mode : UInt8} (h : setMode d = some mode) :
    mode = 3 ∨ mode = 4 ∨ mode = 5 := by
  simp only [setMode] at h
  split at h
  · split_ifs at h with hd
    obtain rfl := Option.some.inj h
    obtain ⟨_, _, hlo, hhi⟩ := hd
    simp only [restrictionModeMinValue, restrictionModeMaxValue, UInt8.le_iff_toNat_le] at hlo hhi
    simp only [← UInt8.toNat_inj]
    change 3 ≤ _ at hlo
    change _ ≤ 5 at hhi
    change _ = 3 ∨ _ = 4 ∨ _ = 5
    omega
  · cases h

/-- `simple_strtol` reads back what `env_set_ulong` has written. -/
theorem simpleStrtol_simpleItoa {d : IpmiCmdData} {mode : UInt8} (h : setMode d = some mode) :
    UInt8.ofInt (simpleStrtol (simpleItoa mode.toNat)) = mode := by
  rcases setMode_range h with rfl | rfl | rfl <;> decide

theorem holdsMode_of_writes (hE : E.Lawful) {env : ε} {mode : UInt8}
    (hset : (E.envSetUlong env mode.toNat).2 = 0)
    (hsave : (E.envSave (E.envSetUlong env mode.toNat).1).2 = 0) :
    HoldsMode E (E.envSave (E.envSetUlong env mode.toNat).1).1 mode := by
  have hget : E.envGet (E.envSetUlong env mode.toNat).1 = some (simpleItoa mode.toNat) :=
    hE.envGet_envSet _ _ hset
  exact ⟨by rw [hE.envGet_envSave, hget], by rw [hE.envSaved_envSave _ hsave, hget]⟩

theorem getModeResponse_of_get {env : ε} {d : IpmiCmdData} {mode : UInt8}
    (hd : setMode d = some mode) (hg : E.envGet env = some (simpleItoa mode.toNat)) :
    getModeResponse E env = [ipmiCcOk, mode, 0] := by
  have hh : getModeResponse E env = (intelGetSecurityMode E [] env).1.bytes := rfl
  rw [hh]
  simp [intelGetSecurityMode, hg, simpleStrtol_simpleItoa hd]

theorem lastSet_concat (calls : List IpmiCmdData) (d : IpmiCmdData) :
    lastSet (calls ++ [d]) = (setMode d).or (lastSet calls) := by
  simp [lastSet]

theorem lastSet_isSome {calls : List IpmiCmdData} {mode : UInt8} (h : lastSet calls = some mode) :
    ∃ d, setMode d = some mode := by
  induction calls using List.reverseRecOn with
  | nil => cases h
  | append_singleton calls d ih =>
    rw [lastSet_concat] at h
    cases hd : setMode d with
    | none => exact ih (by simpa [hd] using h)
    | some m => exact ⟨d, by simpa [hd] using h⟩

/-- The channel follows the protocol and the variable holds the last mode set. -/
structure ModeInv (t : Transfer) (c : Channel ε) : Prop where
  tracks : Tracks t c
  last : ∀ mode, lastSet c.calls = some mode → E.envGet c.env = some (simpleItoa mode.toNat)

/-- What an orderly byte does to the variable. -/
theorem Reaction.mode_step (hE : E.Lawful) {c c' : Channel ε} {b : HostByte} {t : Transfer}
    (hr : Reaction (cmdInfo E) c b c') (ht : Tracks t c) (hg : Orderly E c b) :
    c'.env = c.env ∧ lastSet c'.calls = lastSet c.calls ∨
      ∃ bs x d mode, t = .ending bs ∧ b = .data x ∧ ipmiRequest (bs ++ [x]) = some d ∧
        setMode d = some mode ∧ HoldsMode E c'.env mode ∧ lastSet c'.calls = some mode := by
  rcases hr.executes (cmdInfo E) ht with ⟨hcalls, henv⟩ | ⟨bs, x, d, rfl, rfl, hreq, hcalls, henv⟩
  · exact .inl ⟨henv, by rw [hcalls]⟩
  · rw [ipmiCmdHandler_env] at henv
    cases hd : setMode d with
    | none =>
      rw [hd] at henv
      exact .inl ⟨henv, by rw [hcalls, lastSet_concat, hd, Option.none_or]⟩
    | some mode =>
      rw [hd] at henv
      have hwrites := hg.2 ht.1
      rw [ht.2.1, ht.2.2, hreq, Option.bind_some, hd] at hwrites
      refine .inr ⟨bs, x, d, mode, rfl, rfl, hreq, hd, ?_, ?_⟩
      · rw [henv]
        exact holdsMode_of_writes E hE hwrites.1 hwrites.2
      · rw [hcalls, lastSet_concat, hd, Option.some_or]

theorem run_modeInv (hE : E.Lawful) (regs : KcsIoReg) (env : ε) {bs : List HostByte}
    (hg : Runs.Guarded (hostWrite (cmdInfo E)) (Orderly E) (kcsInit regs env) bs) :
    ModeInv E (transfer bs) (run (cmdInfo E) (kcsInit regs env) bs) := by
  refine Runs.Guarded.history_invariant (R := fun h c => ModeInv E (transfer h) c) ?_
    ⟨tracks_init regs env, fun _ h => by cases h⟩ hg
  intro h c b hi hc
  have hr := hostWrite_reaction (cmdInfo E) c b
  rw [transfer_concat]
  refine ⟨hr.tracks (cmdInfo E) hi.tracks hc.1, fun mode hmode => ?_⟩
  rcases hr.mode_step E hE hi.tracks hc with ⟨henv, hlast⟩ | ⟨_, _, _, m, _, _, _, _, hholds, hlast⟩
  · rw [henv]
    exact hi.last mode (by rw [← hlast, hmode])
  · obtain rfl : m = mode := Option.some.inj (hlast.symm.trans hmode)
    exact hholds.1

theorem run_securityModeSound (hE : E.Lawful) (regs : KcsIoReg) (env : ε) (bs : List HostByte)
    (hg : Runs.Guarded (hostWrite (cmdInfo E)) (Orderly E) (kcsInit regs env) bs) :
    SecurityModeSound E (kcsInit regs env) bs := by
  constructor
  · rintro pre b post rfl
    obtain ⟨hpre, hb, _⟩ := (Runs.guarded_append _ pre (b :: post)).mp hg
    have hi := run_modeInv E hE regs env hpre
    rcases (run_reaction (cmdInfo E) (kcsInit regs env) pre b).mode_step E hE hi.tracks hb with
      ⟨henv, _⟩ | ⟨rs, x, d, mode, hend, rfl, hreq, hd, hholds, _⟩
    · exact .inl ⟨by rw [henv], by rw [henv]⟩
    · obtain ⟨pre', hpre'⟩ := transfer_ending hend
      exact .inr ⟨rs ++ [x], d, mode, ⟨pre', rs, x, by simp [hpre', writeTransaction], rfl⟩, hreq,
        hd, hholds⟩
  · intro mode hmode
    obtain ⟨d, hd⟩ := lastSet_isSome hmode
    exact getModeResponse_of_get E hd ((run_modeInv E hE regs env hg).last mode hmode)

theorem run_securityModeSound_set :
    SecurityModeSound EnvLib.plain (kcsInit ⟨0, 0, 0⟩ (none, none))
      (writeTransaction [0xC0, 0xB4] 0x05) :=
  run_securityModeSound EnvLib.plain EnvLib.plain_lawful ⟨0, 0, 0⟩ (none, none) _ (by decide)

/-- Set Security Mode 5 without a WRITE_START, each byte behind a WRITE_END of its own. -/
theorem not_securityModeSound :
    ¬ ∀ bs, SecurityModeSound EnvLib.plain (kcsInit ⟨0, 0, 0⟩ (none, none)) bs := by
  intro h
  have hc := (h [.cmd 0x62, .data 0xC0, .cmd 0x62, .data 0xB4, .cmd 0x62, .data 0x05]).changes
    [.cmd 0x62, .data 0xC0, .cmd 0x62, .data 0xB4, .cmd 0x62] (.data 0x05) [] rfl
  rcases hc with ⟨hget, _⟩ | ⟨req, d, mode, ⟨pre, bs, b, hbs, _⟩, _⟩
  · exact absurd hget (by decide +kernel)
  · have hmem : HostByte.cmd kcsCtrlCodeWriteStart ∈
        [HostByte.cmd 0x62, .data 0xC0, .cmd 0x62, .data 0xB4, .cmd 0x62] ++ [.data 0x05] := by
      rw [hbs]
      simp [writeTransaction]
    exact absurd hmem (by decide)

end MetaCommon.Kcs
