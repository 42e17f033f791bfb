import MetaCommon.Mdrv2.Storage

/-!
# The announced length of a table

`DataStart` and `SendDataInfo` both announce the length of the table that the host is going to send.
`SendDataInfo` compares it with `maxDataSize` of the agent's first entry, which no command changes;
`DataStart` compares it with the size of the SMBIOS table.
-/

namespace MetaCommon.Mdrv2

open Buffer

/-- The agent's own maximum. -/
def maxTableSize (a : AgentIndex) : UInt32 :=
  if a = acpiAgentIndex then acpiTableStorageSize else smbiosTableStorageSize

structure SendDataInfoReq where
  agentId : UInt16
  dataLength : UInt32
  idReply : IdReply
  /-- Whether the entry has changed, from `SendDataInformation`, unless the call fails. -/
  sendReply : Option Bool

/-- How `SendDataInfo` fails: at a check, or because of the service. -/
inductive InfoFailure
  | check (f : Failure)
  | responseError
  deriving DecidableEq, Repr

namespace MDRV2

variable (P : Platform) (s : MDRV2)

/-- `mdr2SendDataInfo`. An agent without a service is answered right behind the length check. -/
def sendDataInfo (r : SendDataInfoReq) : Except InfoFailure Bool × MDRV2 :=
  match s.agentLookup r.agentId with
  | (none, s) => (.error (.check .unknownAgentId), s)
  | (some a, s) =>
    if (s.entry a mdrv2DirIndex).maxDataSize < r.dataLength then
      (.error (.check .dataLengthOutOfRange), s)
    else if (s.mdrv2Dir a).noService then (.ok true, s)
    else
      match r.idReply with
      | none => (.error (.check .serviceNotFound), s)
      | some idIndex =>
        match checkDataId idIndex, r.sendReply with
        | none, _ => (.error (.check .invalidDataId), s)
        | some _, none => (.error .responseError, s)
        | some _, some entryChanged => (.ok entryChanged, s)

/-! ### No command changes the limits -/

def limits (a : AgentIndex) (i : DirIndex) : UInt32 := (s.entry a i).maxDataSize

theorem limits_setEntry {a : AgentIndex} {i : DirIndex} {e : Mdr2DirLocalStruct}
    (he : e.maxDataSize = (s.entry a i).maxDataSize) : (s.setEntry a i e).limits = s.limits := by
  funext b j
  by_cases hk : (b, j) = (a, i)
  · obtain ⟨rfl, rfl⟩ := Prod.mk.inj hk
    rw [limits, entry_setEntry_self, he]
    rfl
  · rw [limits, entry_setEntry_of_ne _ _ hk]
    rfl

@[simp] theorem limits_note (e : LockEvent) : (s.note e).limits = s.limits := rfl

@[simp] theorem limits_focus (c : Option AgentIndex) : (s.focus c).limits = s.limits := rfl

@[simp] theorem limits_started (a : AgentIndex) : (s.started a).limits = s.limits := rfl

@[simp] theorem limits_granted (a : AgentIndex) (i : DirIndex) (l : EntryLock) :
    (s.granted a i l).limits = s.limits := by
  have hentry : (s.granted a i l).limits =
      (s.setEntry a i ((s.entry a i).setLock l)).limits := by
    funext b j
    exact congrArg Mdr2DirLocalStruct.maxDataSize (s.entry_granted a b i j l)
  rw [hentry]
  exact s.limits_setEntry rfl

@[simp] theorem limits_released (a : AgentIndex) (i : DirIndex) :
    (s.released a i).limits = s.limits :=
  s.limits_setEntry rfl

@[simp] theorem limits_announced (a : AgentIndex) (i : DirIndex) (session : UInt16)
    (dataLength : UInt32) : (s.announced a i session dataLength).limits = s.limits := by
  have hset := limits_setEntry { (s.started a).granted a i
    ((s.entry a i).lockState.grant true session) with area := true } (a := a) (i := i)
    (e := { (((s.started a).granted a i ((s.entry a i).lockState.grant true session)).entry a i) with
      common := { (((s.started a).granted a i
        ((s.entry a i).lockState.grant true session)).entry a i).common with size := dataLength }
      lockHandle := session }) rfl
  exact hset.trans (limits_granted _ a i _)

@[simp] theorem limits_syncDirCommonData (a : AgentIndex) (i : DirIndex)
    (reply : Option (UInt32 × UInt32 × UInt32)) :
    (s.syncDirCommonData a i reply).2.limits = s.limits := by
  cases reply with
  | none => rfl
  | some reply => exact s.limits_setEntry rfl

@[simp] theorem limits_smbiosUnlock (a : AgentIndex) (i : DirIndex) :
    (s.smbiosUnlock a i).2.limits = s.limits := by
  by_cases hs : (s.entry a i).stage = .mdr2Init
  · rw [smbiosUnlock_of_init _ hs]
  · rw [smbiosUnlock_of_ne_init _ hs, limits_released]

@[simp] theorem limits_smbiosTryLock (a : AgentIndex) (flag : Bool) (i : DirIndex) :
    (s.smbiosTryLock P a flag i).2.limits = s.limits := by
  by_cases hc : (s.entry a i).lockState.CanLock flag
  · obtain ⟨session, hlock⟩ := s.smbiosTryLock_of_canLock P hc
    rw [hlock, limits_granted]
  · rw [smbiosTryLock_of_not_canLock P s hc]

theorem limits_of_dirs {s' : MDRV2} (hd : s'.mdrv2Dir = s.mdrv2Dir) : s'.limits = s.limits := by
  unfold limits entry
  rw [hd]

theorem Relocked.limits {s s' : MDRV2} (hr : s.Relocked P s') : s'.limits = s.limits := by
  cases hr with
  | stays hd => exact s.limits_of_dirs hd
  | tries t ht a i hd =>
    exact (limits_of_dirs _ hd).trans ((t.limits_smbiosTryLock P a false i).trans
      (s.limits_of_dirs ht))
  | unlocks t ht a i hd =>
    exact (limits_of_dirs _ hd).trans ((t.limits_smbiosUnlock a i).trans (s.limits_of_dirs ht))

theorem limits_dataStart (r : DataStartReq) : (s.dataStart P r).2.limits = s.limits := by
  have hw := s.dataStart_dataStarts P r
  generalize (s.dataStart P r).1 = resp, (s.dataStart P r).2 = s' at hw ⊢
  cases hw <;> simp

theorem limits_respond {s s' : MDRV2} {e : Event} {resp : Response} (hs : s.Sized)
    (hr : s.respond P e = some (resp, s')) : s'.limits = s.limits := by
  cases e with
  | dataStart r =>
    have hs' : (s.dataStart P r).2 = s' := congrArg Prod.snd (Option.some.inj hr)
    rw [← hs']
    exact s.limits_dataStart P r
  | sendDataBlock r =>
    cases sendDataBlock_sendsBlock hs hr with
    | rejected f => rfl
    | accepted a bytes _ _ _ _ _ => exact (s.focus (some a)).limits_setEntry rfl
  | _ => exact (respond_relocked (by simp) (by simp) hr).limits

theorem limits_init (m : Memory) (files : String → Option TableFile) (a : AgentIndex) :
    (MDRV2.init m files).limits a mdrv2DirIndex = maxTableSize a := by
  by_cases ha : a = acpiAgentIndex <;>
    simp [limits, MDRV2.init, entry, acpiDir, smbiosDir, maxTableSize, mdrv2DirIndex, firstEntry, ha]

theorem run_limits (m : Memory) (files : String → Option TableFile) (es : List Event) {s : MDRV2}
    (hs : Runs.exec (MDRV2.step P) (MDRV2.init m files) es = some s) (a : AgentIndex) :
    s.limits a mdrv2DirIndex = maxTableSize a := by
  have h := Runs.exec_invariant
    (I := fun s => s.Sized ∧ s.limits = (MDRV2.init m files).limits) (fun s e s' h he => by
      obtain ⟨⟨resp, _⟩, hr, rfl⟩ := Option.map_eq_some_iff.mp he
      exact ⟨h.1.respond hr, (limits_respond P h.1 hr).trans h.2⟩) ⟨sized_init m files, rfl⟩ hs
  rw [h.2]
  exact limits_init m files a

/-! ### Which lengths are refused -/

theorem dataIdIndex_ne_length (d : Mdr2DirStruct) (dataInfo : Vector UInt8 16) (idReply : IdReply) :
    d.dataIdIndex dataInfo idReply ≠ .error .dataLengthOutOfRange := by
  unfold Mdr2DirStruct.dataIdIndex
  repeat' split
  all_goals simp

theorem dataStart_length_iff (r : DataStartReq) :
    (s.dataStart P r).1 = .error .dataLengthOutOfRange ↔ smbiosTableStorageSize < r.dataLength := by
  by_cases hlen : smbiosTableStorageSize < r.dataLength
  · simp [dataStart, hlen]
  · refine iff_of_false ?_ hlen
    by_cases hx : P.xferOutOfRange r.xferAddress r.xferLength = true
    · simp [dataStart, hlen, hx]
    · have hr : InRange P r := ⟨UInt32.not_lt.mp hlen, by simpa using hx⟩
      have hw := s.dataStart_dataStarts P r
      generalize (s.dataStart P r).1 = resp, (s.dataStart P r).2 = s' at hw ⊢
      cases hw with
      | outOfRange f hn => exact absurd hr hn
      | noEntry a f _ hi =>
        intro hf
        obtain rfl := Except.error.inj hf
        exact dataIdIndex_ne_length _ _ _ hi
      | unknownAgent | removalFails | cannotLock | noSharedMemory | syncFailed => simp
      | acceptedLocal | acceptedSynced => simp

theorem sendDataInfo_length_iff {r : SendDataInfoReq} {a : AgentIndex}
    (ha : agentOf r.agentId = some a) :
    (s.sendDataInfo r).1 = .error (.check .dataLengthOutOfRange) ↔
      s.limits a mdrv2DirIndex < r.dataLength := by
  unfold sendDataInfo
  rw [agentLookup_of_agentOf _ ha]
  change _ ↔ ((s.focus (some a)).entry a mdrv2DirIndex).maxDataSize < r.dataLength
  dsimp only
  split_ifs with hlen
  · exact iff_of_true rfl hlen
  · exact iff_of_false (by simp) hlen
  · refine iff_of_false ?_ hlen
    repeat' split
    all_goals simp

/-- As far as the length is concerned, both commands accept a table of `n` bytes for agent `a`
exactly if it is no longer than the agent's maximum. -/
def LengthsAgree (a : AgentIndex) (n : UInt32) : Prop :=
  ∀ (r : DataStartReq) (q : SendDataInfoReq), agentOf r.agentId = some a →
    agentOf q.agentId = some a → r.dataLength = n → q.dataLength = n →
    ((s.dataStart P r).1 ≠ .error .dataLengthOutOfRange ↔ n ≤ maxTableSize a) ∧
      ((s.sendDataInfo q).1 ≠ .error (.check .dataLengthOutOfRange) ↔ n ≤ maxTableSize a)

def idOf (a : AgentIndex) : UInt16 := if a = acpiAgentIndex then acpiAgentId else smbiosAgentId

theorem agentOf_idOf : ∀ a, agentOf (idOf a) = some a := by decide

/-- The commands agree up to the size of the SMBIOS table and beyond the agent's own maximum, but on
no length between the two. -/
theorem run_lengthsAgree_iff (m : Memory) (files : String → Option TableFile) (es : List Event)
    {s : MDRV2} (hs : Runs.exec (MDRV2.step P) (MDRV2.init m files) es = some s) (a : AgentIndex)
    (n : UInt32) :
    s.LengthsAgree P a n ↔ n ≤ smbiosTableStorageSize ∨ maxTableSize a < n := by
  have hmax : smbiosTableStorageSize ≤ maxTableSize a := by
    unfold maxTableSize
    split_ifs <;> decide
  have hinfo : ∀ q : SendDataInfoReq, agentOf q.agentId = some a → q.dataLength = n →
      ((s.sendDataInfo q).1 ≠ .error (.check .dataLengthOutOfRange) ↔ n ≤ maxTableSize a) := by
    intro q hq hn
    rw [ne_eq, sendDataInfo_length_iff s hq, run_limits P m files es hs, hn, UInt32.not_lt]
  have hstart : ∀ r : DataStartReq, r.dataLength = n →
      ((s.dataStart P r).1 ≠ .error .dataLengthOutOfRange ↔ n ≤ smbiosTableStorageSize) := by
    intro r hn
    rw [ne_eq, dataStart_length_iff, hn, UInt32.not_lt]
  constructor
  · intro h
    have hr := (h (.plain (idOf a) n) ⟨idOf a, n, none, none⟩ (agentOf_idOf a) (agentOf_idOf a)
      rfl rfl).1
    rw [hstart _ rfl] at hr
    by_cases hle : n ≤ maxTableSize a
    · exact .inl (hr.mpr hle)
    · exact .inr (UInt32.not_le.mp hle)
  · intro h r q hr hq hrn hqn
    refine ⟨?_, hinfo q hq hqn⟩
    rw [hstart r hrn]
    refine ⟨fun hle => UInt32.le_trans hle hmax, fun hle => h.resolve_right ?_⟩
    exact UInt32.not_lt.mpr hle

theorem run_lengthsAgree_iff_init :
    (MDRV2.init Memory.plain fun _ => none).LengthsAgree Platform.plain acpiAgentIndex 0x10000 ↔
      (0x10000 : UInt32) ≤ smbiosTableStorageSize ∨ maxTableSize acpiAgentIndex < 0x10000 :=
  run_lengthsAgree_iff Platform.plain Memory.plain (fun _ => none) [] rfl acpiAgentIndex 0x10000

/-- An ACPI table of 100000 bytes, which `SendDataInfo` accepts and `DataStart` refuses. -/
theorem not_lengthsAgree :
    ¬ (MDRV2.init Memory.plain fun _ => none).LengthsAgree Platform.plain acpiAgentIndex 100000 := by
  intro h
  have hr := (h (.plain acpiAgentId 100000) ⟨acpiAgentId, 100000, none, none⟩ rfl rfl rfl rfl).1
  rw [ne_eq, dataStart_length_iff] at hr
  exact absurd (hr.mpr (by decide)) (by decide)

end MDRV2

end MetaCommon.Mdrv2
