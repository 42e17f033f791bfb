import MetaCommon.Mdrv2.Commands
import MetaCommon.Mdrv2.LockTable

/-!
# What a command has done when it returns

A command looks up the agent and then leaves at one of its checks, or gets to the lock functions.
`DataStarts` lists the ways through `DataStart`, with the response and the state of each.
-/

namespace MetaCommon.Mdrv2

/-- The agent a command is for. -/
def agentOf (agentId : UInt16) : Option AgentIndex :=
  if agentId = lastAgentId then none
  else if agentId = smbiosAgentId then some firstAgentIndex
  else if agentId = acpiAgentId then some acpiAgentIndex
  else none

/-- The current agent after a lookup: an unknown id leaves it, except for 0xFFFF. -/
def currentAfter (agentId : UInt16) (current : Option AgentIndex) : Option AgentIndex :=
  if agentId = lastAgentId then none else (agentOf agentId).or current

theorem currentAfter_of_agentOf {agentId : UInt16} {a : AgentIndex} (h : agentOf agentId = some a)
    (current : Option AgentIndex) : currentAfter agentId current = some a := by
  have hne : agentId ≠ lastAgentId := by
    rintro rfl
    cases h
  rw [currentAfter, if_neg hne, h, Option.some_or]

namespace MDRV2

variable (P : Platform) (s : MDRV2)

def focus (current : Option AgentIndex) : MDRV2 := { s with currentAgentIndex := current }

@[simp] theorem focus_mdrv2Dir (c : Option AgentIndex) : (s.focus c).mdrv2Dir = s.mdrv2Dir := rfl

@[simp] theorem focus_entry (c : Option AgentIndex) (a : AgentIndex) (i : DirIndex) :
    (s.focus c).entry a i = s.entry a i := rfl

@[simp] theorem focus_findLockHandle (c : Option AgentIndex) (a : AgentIndex) (h : UInt16) :
    (s.focus c).findLockHandle a h = s.findLockHandle a h := rfl

theorem agentLookup_eq (agentId : UInt16) :
    s.agentLookup agentId =
      (agentOf agentId, s.focus (currentAfter agentId s.currentAgentIndex)) := by
  unfold agentLookup agentOf currentAfter agentOf
  by_cases hl : agentId = lastAgentId
  · subst hl
    rfl
  · rw [if_neg (Ne.symm hl), if_neg hl, if_neg hl]
    by_cases hs : agentId = smbiosAgentId
    · subst hs
      rfl
    · by_cases ha : agentId = acpiAgentId
      · subst ha
        rfl
      · simp [hs, ha, focus]

theorem agentLookup_of_agentOf {agentId : UInt16} {a : AgentIndex}
    (h : agentOf agentId = some a) :
    s.agentLookup agentId = (some a, s.focus (some a)) := by
  rw [agentLookup_eq, h, currentAfter_of_agentOf h]

/-- The state in which `DataStart` for agent `a` calls `smbiosTryLock`. -/
def started (a : AgentIndex) : MDRV2 :=
  { s.focus (some a) with
    files := if (s.mdrv2Dir a).noService then
      Function.update s.files (s.mdrv2Dir a).fileName none else s.files }

@[simp] theorem started_entry (a b : AgentIndex) (i : DirIndex) :
    (s.started a).entry b i = s.entry b i := rfl

/-- The state after `smbiosTryLock` and the mapping have succeeded. -/
def announced (a : AgentIndex) (i : DirIndex) (session : UInt16) (dataLength : UInt32) : MDRV2 :=
  ((s.started a).granted a i ((s.entry a i).lockState.grant true session)).announce a i session
    dataLength

/-- The request passes the checks that come before the agent lookup. -/
def InRange (r : DataStartReq) : Prop :=
  r.dataLength ≤ smbiosTableStorageSize ∧ P.xferOutOfRange r.xferAddress r.xferLength = false

/-- The removal of the table file throws. -/
def RemovalFails (a : AgentIndex) (r : DataStartReq) : Prop :=
  (s.mdrv2Dir a).noService = true ∧ r.fileSystemFails = true

/-- The request is for agent `a` and has got past the removal of the file. -/
structure Reaches (r : DataStartReq) (a : AgentIndex) : Prop where
  inRange : InRange P r
  agent : agentOf r.agentId = some a
  removal : ¬ s.RemovalFails a r

/-- The request calls `smbiosTryLock` for entry `i` of agent `a`. -/
structure Requests (r : DataStartReq) (a : AgentIndex) (i : DirIndex) : Prop
    extends Reaches P s r a where
  index : (s.mdrv2Dir a).dataIdIndex r.dataInfo r.idReply = .ok i

/-- The ways through `DataStart`. -/
inductive DataStarts (r : DataStartReq) : Response → MDRV2 → Prop
  | outOfRange (f : Failure) (hr : ¬ InRange P r) : DataStarts r (.error f) s
  | unknownAgent (hr : InRange P r) (ha : agentOf r.agentId = none) :
    DataStarts r (.error .unknownAgentId) (s.focus (currentAfter r.agentId s.currentAgentIndex))
  | removalFails (a : AgentIndex) (hr : InRange P r) (ha : agentOf r.agentId = some a)
    (hf : s.RemovalFails a r) : DataStarts r (.error .fileSystem) (s.focus (some a))
  | noEntry (a : AgentIndex) (f : Failure) (hr : Reaches P s r a)
    (hi : (s.mdrv2Dir a).dataIdIndex r.dataInfo r.idReply = .error f) :
    DataStarts r (.error f) (s.started a)
  | cannotLock (a : AgentIndex) (i : DirIndex) (hr : Requests P s r a i)
    (hc : ¬ (s.entry a i).lockState.CanLock true) :
    DataStarts r (.error .cannotLock) (s.started a)
  | noSharedMemory (a : AgentIndex) (i : DirIndex) (session : UInt16) (hr : Requests P s r a i)
    (hc : (s.entry a i).lockState.CanLock true) (hm : r.maps = false) :
    DataStarts r (.error .noSharedMemory)
      ((((s.started a).granted a i ((s.entry a i).lockState.grant true session)).released a i).note
        (.released (a, i)))
  | syncFailed (a : AgentIndex) (i : DirIndex) (session : UInt16) (hr : Requests P s r a i)
    (hc : (s.entry a i).lockState.CanLock true) (hm : r.maps = true)
    (hn : (s.mdrv2Dir a).noService = false) (hy : r.syncReply = none) :
    DataStarts r (.error .syncFailed) (s.announced a i session r.dataLength)
  | acceptedLocal (a : AgentIndex) (i : DirIndex) (session : UInt16) (hr : Requests P s r a i)
    (hc : (s.entry a i).lockState.CanLock true) (hm : r.maps = true)
    (hn : (s.mdrv2Dir a).noService = true) :
    DataStarts r (.ok (.session session))
      ((s.announced a i session r.dataLength).note (.answered (a, i)))
  | acceptedSynced (a : AgentIndex) (i : DirIndex) (session : UInt16) (hr : Requests P s r a i)
    (hc : (s.entry a i).lockState.CanLock true) (hm : r.maps = true)
    (hn : (s.mdrv2Dir a).noService = false) (hy : r.syncReply.isSome) :
    DataStarts r (.ok (.session session))
      (((s.announced a i session r.dataLength).syncDirCommonData a i r.syncReply).2.note
        (.answered (a, i)))

theorem dataStartIndex_of_removalFails {a : AgentIndex} {r : DataStartReq}
    (hf : s.RemovalFails a r) :
    (s.focus (some a)).dataStartIndex a r = (.error .fileSystem, s.focus (some a)) := by
  simp [dataStartIndex, removeFile, hf.1, hf.2]

theorem dataStartIndex_of_not_removalFails {a : AgentIndex} {r : DataStartReq}
    (hf : ¬ s.RemovalFails a r) :
    (s.focus (some a)).dataStartIndex a r =
      ((s.mdrv2Dir a).dataIdIndex r.dataInfo r.idReply, s.started a) := by
  by_cases hn : (s.mdrv2Dir a).noService = true
  · have hfs : r.fileSystemFails = false := by
      simpa [RemovalFails, hn] using hf
    simp [dataStartIndex, removeFile, hn, hfs, started, focus]
  · simp [dataStartIndex, hn, started, focus]

theorem granted_entry_self (a : AgentIndex) (i : DirIndex) (l : EntryLock) :
    (s.granted a i l).entry a i = (s.entry a i).setLock l := by
  rw [entry_granted, entry_setEntry_self]

theorem granted_config (a b : AgentIndex) (i : DirIndex) (l : EntryLock) :
    ((s.granted a i l).mdrv2Dir b).config = (s.mdrv2Dir b).config := by
  by_cases hb : b = a
  · subst hb
    simp [granted, setDir, note, Mdr2DirStruct.config]
  · simp [granted, setDir, note, hb]

theorem announced_config (a b : AgentIndex) (i : DirIndex) (session : UInt16)
    (dataLength : UInt32) :
    ((s.announced a i session dataLength).mdrv2Dir b).config = (s.mdrv2Dir b).config := by
  let g := (s.started a).granted a i ((s.entry a i).lockState.grant true session)
  have hset : ((g.announce a i session dataLength).mdrv2Dir b).config = (g.mdrv2Dir b).config :=
    setEntry_config { g with area := true } a b i _
  exact hset.trans ((s.started a).granted_config a b i _)

theorem announced_noService (a b : AgentIndex) (i : DirIndex) (session : UInt16)
    (dataLength : UInt32) :
    ((s.announced a i session dataLength).mdrv2Dir b).noService = (s.mdrv2Dir b).noService :=
  Mdr2DirStruct.noService_congr (s.announced_config a b i session dataLength)

theorem lockTable_announced (a : AgentIndex) (i : DirIndex) (session : UInt16)
    (dataLength : UInt32) :
    (s.announced a i session dataLength).lockTable =
      (s.lockTable.focus (some a)).grant (a, i)
        ((s.lockTable.entry (a, i)).grant true session) := by
  have hg := (s.started a).lockTable_granted a i ((s.entry a i).lockState.grant true session)
  have hh : (((s.started a).granted a i
      ((s.entry a i).lockState.grant true session)).entry a i).lockHandle = session := by
    rw [granted_entry_self]
    exact EntryLock.grant_lockHandle _ _ _
  refine Eq.trans ?_ hg
  refine (lockTable_setEntry_of_lockState _ ?_).trans rfl
  exact congrArg (EntryLock.mk _ _) hh.symm

theorem lockTable_syncDirCommonData (a : AgentIndex) (i : DirIndex)
    (reply : Option (UInt32 × UInt32 × UInt32)) :
    (s.syncDirCommonData a i reply).2.lockTable = s.lockTable := by
  cases reply with
  | none => rfl
  | some reply => exact s.lockTable_setEntry_of_lockState rfl

theorem dataStart_dataStarts (r : DataStartReq) :
    DataStarts P s r (s.dataStart P r).1 (s.dataStart P r).2 := by
  unfold dataStart
  by_cases hlen : smbiosTableStorageSize < r.dataLength
  · rw [if_pos hlen]
    exact .outOfRange _ fun h => absurd h.1 (UInt32.not_le.mpr hlen)
  rw [if_neg hlen]
  by_cases hx : P.xferOutOfRange r.xferAddress r.xferLength = true
  · rw [if_pos hx]
    exact .outOfRange _ fun h => by rw [h.2] at hx; cases hx
  rw [if_neg hx, agentLookup_eq]
  have hr : InRange P r := ⟨UInt32.not_lt.mp hlen, by simpa using hx⟩
  cases ha : agentOf r.agentId with
  | none => exact .unknownAgent hr ha
  | some a =>
    rw [currentAfter_of_agentOf ha]
    simp only
    by_cases hf : s.RemovalFails a r
    · rw [dataStartIndex_of_removalFails _ hf]
      exact .removalFails a hr ha hf
    · rw [dataStartIndex_of_not_removalFails _ hf]
      cases hi : (s.mdrv2Dir a).dataIdIndex r.dataInfo r.idReply with
      | error f => exact .noEntry a f ⟨hr, ha, hf⟩ hi
      | ok i =>
        have hreq : Requests P s r a i := ⟨⟨hr, ha, hf⟩, hi⟩
        by_cases hc : (s.entry a i).lockState.CanLock true
        · obtain ⟨session, hlock⟩ := (s.started a).smbiosTryLock_of_canLock P hc
          simp only [hlock, started_entry]
          by_cases hm : r.maps = true
          · have hfold : ((s.started a).granted a i
                ((s.entry a i).lockState.grant true session)).announce a i session r.dataLength =
                s.announced a i session r.dataLength := rfl
            simp only [hm, if_true, hfold, announced_noService]
            by_cases hn : (s.mdrv2Dir a).noService = true
            · simp only [hn, if_true]
              exact .acceptedLocal a i session hreq hc hm hn
            · simp only [hn]
              have hn' : (s.mdrv2Dir a).noService = false := by simpa using hn
              cases hy : r.syncReply with
              | none => exact .syncFailed a i session hreq hc hm hn' hy
              | some reply =>
                have hacc := DataStarts.acceptedSynced (P := P) a i session hreq hc hm hn'
                  (by rw [hy]; rfl)
                rw [hy] at hacc
                exact hacc
          · have hm' : r.maps = false := by simpa using hm
            simp only [hm', Bool.false_eq_true, if_false]
            rw [smbiosUnlock_of_ne_init]
            · exact .noSharedMemory a i session hreq hc hm'
            · rw [granted_entry_self]
              exact EntryLock.grant_stage_ne_init _ _ _
        · have hlock := (s.started a).smbiosTryLock_of_not_canLock P hc
          simp only [hlock]
          exact .cannotLock a i hreq hc

end MDRV2

end MetaCommon.Mdrv2
