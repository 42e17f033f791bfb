import MetaCommon.Mdrv2.DataStart

/-!
# What an event does to the lock table

Whatever the event, the lock table moves in one of six ways. `lockRequest` is the entry for which a
command calls `smbiosTryLock`, `found` the entry in which a command finds the handle of its request.
-/

namespace MetaCommon.Mdrv2

-- What is asked of a request is asked of at most one id or entry, never of all ids in turn.
instance (priority := high) decidableForallRequest {α : Type} (p : α → Prop) [DecidablePred p]
    (o : Option α) : Decidable (∀ x ∈ o, p x) := Option.decidableForallMem o

instance (priority := high) decidableForallEntry (p : EntryIndex → Prop) [DecidablePred p] :
    Decidable (∀ k, p k) :=
  have (a : AgentIndex) : Decidable (∀ i, p (a, i)) := Nat.decidableForallFin _
  have : Decidable (∀ a i, p (a, i)) := Nat.decidableForallFin _
  decidable_of_iff _ Prod.forall.symm

instance (P : Platform) (r : DataStartReq) : Decidable (MDRV2.InRange P r) :=
  inferInstanceAs (Decidable (_ ∧ _))

instance (s : MDRV2) (a : AgentIndex) (r : DataStartReq) : Decidable (s.RemovalFails a r) :=
  inferInstanceAs (Decidable (_ ∧ _))

namespace Event

/-- The agent id that the command looks up. -/
def lookup (P : Platform) : Event → Option UInt16
  | .agentLookup agentId => some agentId
  | .lockData r => some r.agentId
  | .unlockData r => some r.agentId
  | .dataStart r => if MDRV2.InRange P r then some r.agentId else none
  | .dataDone r => some r.agentId
  | .getDataBlock r => some r.agentId
  | .sendDataBlock r => some r.agentId
  | .timeout => none

/-- `p` if the event is an expiry. -/
def OnTimeout (p : Prop) : Event → Prop
  | .timeout => p
  | _ => True

instance (p : Prop) [Decidable p] : DecidablePred (OnTimeout p) := fun e => by
  cases e <;> unfold OnTimeout <;> infer_instance

/-- The current agent after the lookup. -/
def current (P : Platform) (e : Event) (current : Option AgentIndex) : Option AgentIndex :=
  match e.lookup P with
  | some agentId => currentAfter agentId current
  | none => current

/-- Agent id and lock handle of a request that carries a handle. -/
def handle : Event → Option (UInt16 × UInt16)
  | .unlockData r => some (r.agentId, r.lockHandle)
  | .dataDone r => some (r.agentId, r.lockHandle)
  | .getDataBlock r => some (r.agentId, r.lockHandle)
  | .sendDataBlock r => some (r.agentId, r.lockHandle)
  | _ => none

/-- The command calls `smbiosUnlock` for the entry it finds. -/
def unlocks : Event → Bool
  | .unlockData _ => true
  | .dataDone _ => true
  | _ => false

end Event

/-- The current agent is that of the entry whose grant started the timer, if the grant is still
held. -/
def MDRV2.ExpiresOwner (s : MDRV2) (e : Event) : Prop :=
  e.OnTimeout (s.timer = true → ∀ k ∈ (Leases.table s.history).owner,
    (Leases.table s.history).holder k ≠ none → s.currentAgentIndex = some k.1)

instance (s : MDRV2) : DecidablePred s.ExpiresOwner := fun e =>
  inferInstanceAs (Decidable (e.OnTimeout _))

namespace MDRV2

variable (P : Platform) (s : MDRV2)

def lockRequest : Event → Option (EntryIndex × Bool)
  | .lockData r => (agentOf r.agentId).bind fun a =>
    ((s.mdrv2Dir a).dataIdIndex r.dataInfo r.idReply).toOption.map fun i => ((a, i), false)
  | .dataStart r =>
    if InRange P r then
      (agentOf r.agentId).bind fun a =>
        if s.RemovalFails a r then none
        else ((s.mdrv2Dir a).dataIdIndex r.dataInfo r.idReply).toOption.map fun i => ((a, i), true)
    else none
  | _ => none

def found (agentId lockHandle : UInt16) : Option EntryIndex :=
  (agentOf agentId).bind fun a => (s.findLockHandle a lockHandle).map fun i => (a, i)

variable {s}

theorem found_lockHandle {agentId lockHandle : UInt16} {k : EntryIndex}
    (h : s.found agentId lockHandle = some k) :
    agentOf agentId = some k.1 ∧ (s.lockTable.entry k).lockHandle = lockHandle := by
  obtain ⟨a, ha, hk⟩ := Option.bind_eq_some_iff.mp h
  obtain ⟨i, hi, rfl⟩ := Option.map_eq_some_iff.mp hk
  exact ⟨ha, (s.findLockHandle_eq_some hi).2⟩

theorem Requests.lockRequest {r : DataStartReq} {a : AgentIndex} {i : DirIndex}
    (h : Requests P s r a i) : s.lockRequest P (.dataStart r) = some ((a, i), true) := by
  simp [MDRV2.lockRequest, h.inRange, h.agent, h.removal, h.index, Except.toOption]

variable (s)

/-- The ways in which the lock table moves. A grant is answered unless `DataStart` fails behind it:
it gives the entry back when the mapping fails, and keeps it when the synchronisation fails. -/
inductive LockStep (e : Event) : LockTable → Prop
  | stays : LockStep e (s.lockTable.focus (e.current P s.currentAgentIndex))
  | grants (k : EntryIndex) (flag : Bool) (session : UInt16)
    (hq : s.lockRequest P e = some (k, flag)) (hc : (s.lockTable.entry k).CanLock flag) :
    LockStep e (((s.lockTable.focus (some k.1)).grant k
      ((s.lockTable.entry k).grant flag session)).note (.answered k))
  | keeps (k : EntryIndex) (flag : Bool) (session : UInt16)
    (hq : s.lockRequest P e = some (k, flag)) (hc : (s.lockTable.entry k).CanLock flag) :
    LockStep e ((s.lockTable.focus (some k.1)).grant k ((s.lockTable.entry k).grant flag session))
  | returns (k : EntryIndex) (flag : Bool) (session : UInt16)
    (hq : s.lockRequest P e = some (k, flag)) (hc : (s.lockTable.entry k).CanLock flag) :
    LockStep e ((((s.lockTable.focus (some k.1)).grant k
      ((s.lockTable.entry k).grant flag session)).release k).note (.released k))
  | releases (k : EntryIndex) (agentId lockHandle : UInt16)
    (hh : e.handle = some (agentId, lockHandle)) (hu : e.unlocks = true)
    (hf : s.found agentId lockHandle = some k) (hi : (s.lockTable.entry k).stage ≠ .mdr2Init) :
    LockStep e (((s.lockTable.focus (some k.1)).release k).note (.released k))
  | expires (a : AgentIndex) (he : e = .timeout) (ht : s.timer = true)
    (hc : s.currentAgentIndex = some a) : LockStep e (s.lockTable.expire a)

theorem lockStep_of_lookup {e : Event} {agentId : UInt16} (h : e.lookup P = some agentId) :
    s.LockStep P e (s.focus (currentAfter agentId s.currentAgentIndex)).lockTable := by
  have hst := LockStep.stays (P := P) (s := s) (e := e)
  simp only [Event.current, h] at hst
  exact hst

theorem lockStep_of_agentOf {e : Event} {agentId : UInt16} {a : AgentIndex}
    (h : e.lookup P = some agentId) (ha : agentOf agentId = some a) :
    s.LockStep P e (s.focus (some a)).lockTable := by
  have hst := s.lockStep_of_lookup P h
  rwa [currentAfter_of_agentOf ha] at hst

theorem lockData_lockStep (r : LockDataReq) :
    s.LockStep P (.lockData r) (s.lockData P r).2.lockTable := by
  unfold lockData
  rw [agentLookup_eq]
  cases ha : agentOf r.agentId with
  | none => exact s.lockStep_of_lookup P rfl
  | some a =>
    have hstay : s.LockStep P (.lockData r) (s.focus (some a)).lockTable :=
      s.lockStep_of_agentOf P rfl ha
    rw [currentAfter_of_agentOf ha]
    simp only [focus_mdrv2Dir]
    cases hi : (s.mdrv2Dir a).dataIdIndex r.dataInfo r.idReply with
    | error f =>
      exact hstay
    | ok i =>
      by_cases hc : (s.entry a i).lockState.CanLock false
      · obtain ⟨session, hlock⟩ := (s.focus (some a)).smbiosTryLock_of_canLock P hc
        have hq : s.lockRequest P (.lockData r) = some ((a, i), false) := by
          simp [lockRequest, ha, hi, Except.toOption]
        simp only [hlock, lockTable_note, lockTable_granted]
        exact .grants (a, i) false session hq hc
      · have hlock := (s.focus (some a)).smbiosTryLock_of_not_canLock P hc
        simp only [hlock]
        exact hstay

theorem dataStart_lockStep (r : DataStartReq) :
    s.LockStep P (.dataStart r) (s.dataStart P r).2.lockTable := by
  have hlook (hr : InRange P r) : (Event.dataStart r).lookup P = some r.agentId := if_pos hr
  have h := s.dataStart_dataStarts P r
  generalize (s.dataStart P r).1 = resp, (s.dataStart P r).2 = s' at h ⊢
  cases h with
  | outOfRange f hr =>
    have hst := LockStep.stays (P := P) (s := s) (e := .dataStart r)
    simp only [Event.current, Event.lookup, if_neg hr] at hst
    exact hst
  | unknownAgent hr ha => exact s.lockStep_of_lookup P (hlook hr)
  | removalFails a hr ha hf => exact s.lockStep_of_agentOf P (hlook hr) ha
  | noEntry a f hr hi => exact s.lockStep_of_agentOf P (hlook hr.inRange) hr.agent
  | cannotLock a i hr hc => exact s.lockStep_of_agentOf P (hlook hr.inRange) hr.agent
  | noSharedMemory a i session hr hc hm =>
    rw [lockTable_note, lockTable_released, lockTable_granted]
    exact .returns (a, i) true session hr.lockRequest hc
  | syncFailed a i session hr hc hm hn hy =>
    rw [lockTable_announced]
    exact .keeps (a, i) true session hr.lockRequest hc
  | acceptedLocal a i session hr hc hm hn =>
    rw [lockTable_note, lockTable_announced]
    exact .grants (a, i) true session hr.lockRequest hc
  | acceptedSynced a i session hr hc hm hn hy =>
    rw [lockTable_note, lockTable_syncDirCommonData, lockTable_announced]
    exact .grants (a, i) true session hr.lockRequest hc

theorem unlockData_lockStep {e : Event} (r : UnlockDataReq) (hl : e.lookup P = some r.agentId)
    (hh : e.handle = some (r.agentId, r.lockHandle)) (hu : e.unlocks = true) :
    s.LockStep P e (s.unlockData r).2.lockTable := by
  unfold unlockData
  rw [agentLookup_eq]
  cases ha : agentOf r.agentId with
  | none => exact s.lockStep_of_lookup P hl
  | some a =>
    have hstay : s.LockStep P e (s.focus (some a)).lockTable := s.lockStep_of_agentOf P hl ha
    rw [currentAfter_of_agentOf ha]
    simp only [focus_findLockHandle]
    cases hf : s.findLockHandle a r.lockHandle with
    | none =>
      exact hstay
    | some i =>
      by_cases hi : (s.entry a i).stage = .mdr2Init
      · have hun := (s.focus (some a)).smbiosUnlock_of_init hi
        simp only [hun]
        exact hstay
      · have hun := (s.focus (some a)).smbiosUnlock_of_ne_init hi
        simp only [hun, lockTable_note, lockTable_released]
        exact .releases (a, i) r.agentId r.lockHandle hh hu (by simp [found, ha, hf]) hi

/-- `DataDone` does to the entries and to the lock table what `UnlockData` does. -/
theorem dataDone_unlocks (r : DataDoneReq) :
    (s.dataDone P r).2.lockTable = (s.unlockData ⟨r.agentId, r.lockHandle⟩).2.lockTable ∧
      (s.dataDone P r).2.mdrv2Dir = (s.unlockData ⟨r.agentId, r.lockHandle⟩).2.mdrv2Dir := by
  unfold dataDone unlockData
  rw [agentLookup_eq]
  generalize s.focus (currentAfter r.agentId s.currentAgentIndex) = t
  cases agentOf r.agentId with
  | none => exact ⟨rfl, rfl⟩
  | some a =>
    dsimp only
    cases t.findLockHandle a r.lockHandle with
    | none => exact ⟨rfl, rfl⟩
    | some i =>
      dsimp only
      generalize t.smbiosUnlock a i = u
      obtain ⟨unlocked, t'⟩ := u
      cases unlocked with
      | false => exact ⟨rfl, rfl⟩
      | true =>
        dsimp only
        split_ifs
        · exact ⟨rfl, rfl⟩
        · exact ⟨rfl, rfl⟩
        · exact ⟨rfl, rfl⟩
        · exact ⟨rfl, rfl⟩

theorem getDataBlock_eq_focus {r : GetDataBlockReq} {resp : Response} {s' : MDRV2}
    (h : s.getDataBlock P r = some (resp, s')) :
    s' = s.focus (currentAfter r.agentId s.currentAgentIndex) := by
  unfold getDataBlock at h
  rw [agentLookup_eq] at h
  cases ha : agentOf r.agentId with
  | none =>
    simp only [ha] at h
    exact (Prod.mk.inj (Option.some.inj h)).2.symm
  | some a =>
    simp only [ha, focus_findLockHandle] at h
    cases hf : s.findLockHandle a r.lockHandle with
    | none =>
      simp only [hf] at h
      exact (Prod.mk.inj (Option.some.inj h)).2.symm
    | some i =>
      simp only [hf] at h
      obtain ⟨_, _, hr⟩ := Option.map_eq_some_iff.mp h
      exact (Prod.mk.inj hr).2.symm

theorem sendDataBlock_lockTable {r : SendDataBlockReq} {resp : Response} {s' : MDRV2}
    (h : s.sendDataBlock P r = some (resp, s')) :
    s'.lockTable = (s.focus (currentAfter r.agentId s.currentAgentIndex)).lockTable := by
  unfold sendDataBlock at h
  rw [agentLookup_eq] at h
  cases ha : agentOf r.agentId with
  | none =>
    simp only [ha] at h
    rw [← (Prod.mk.inj (Option.some.inj h)).2]
  | some a =>
    simp only [ha, focus_findLockHandle] at h
    cases hf : s.findLockHandle a r.lockHandle with
    | none =>
      simp only [hf] at h
      rw [← (Prod.mk.inj (Option.some.inj h)).2]
    | some i =>
      simp only [hf] at h
      split_ifs at h
      · rw [← (Prod.mk.inj (Option.some.inj h)).2]
      · rw [← (Prod.mk.inj (Option.some.inj h)).2]
      · rw [← (Prod.mk.inj (Option.some.inj h)).2]
      · rw [← (Prod.mk.inj (Option.some.inj h)).2]
      · split at h
        · rw [← (Prod.mk.inj (Option.some.inj h)).2]
        · rw [← (Prod.mk.inj (Option.some.inj h)).2]
          exact lockTable_setEntry_of_lockState _ rfl
      · rw [← (Prod.mk.inj (Option.some.inj h)).2]

/-- Every event moves the lock table in one of the six ways. -/
theorem respond_lockStep {e : Event} {resp : Response} {s' : MDRV2}
    (h : s.respond P e = some (resp, s')) : s.LockStep P e s'.lockTable := by
  cases e with
  | agentLookup agentId =>
    rw [← (Prod.mk.inj (Option.some.inj h)).2, agentLookup_eq]
    exact s.lockStep_of_lookup P rfl
  | lockData r =>
    have hs : (s.lockData P r).2 = s' := congrArg Prod.snd (Option.some.inj h)
    rw [← hs]
    exact s.lockData_lockStep P r
  | unlockData r =>
    have hs : (s.unlockData r).2 = s' := congrArg Prod.snd (Option.some.inj h)
    rw [← hs]
    exact s.unlockData_lockStep P r rfl rfl rfl
  | dataStart r =>
    have hs : (s.dataStart P r).2 = s' := congrArg Prod.snd (Option.some.inj h)
    rw [← hs]
    exact s.dataStart_lockStep P r
  | dataDone r =>
    have hs : (s.dataDone P r).2 = s' := congrArg Prod.snd (Option.some.inj h)
    rw [← hs]
    rw [(s.dataDone_unlocks P r).1]
    exact s.unlockData_lockStep P ⟨r.agentId, r.lockHandle⟩ rfl rfl rfl
  | getDataBlock r =>
    rw [s.getDataBlock_eq_focus P h]
    exact s.lockStep_of_lookup P rfl
  | sendDataBlock r =>
    rw [s.sendDataBlock_lockTable P h]
    exact s.lockStep_of_lookup P rfl
  | timeout =>
    simp only [respond] at h
    split_ifs at h with ht
    · obtain ⟨s'', hs, hr⟩ := Option.map_eq_some_iff.mp h
      obtain rfl := (Prod.mk.inj hr).2
      cases hc : s.currentAgentIndex with
      | none =>
        unfold timeoutHandler at hs
        split at hs
        · cases hs
        · next b hb => cases hb.symm.trans hc
      | some a =>
        obtain ⟨s₁, hs₁, htab, _⟩ := s.timeoutHandler_of_current hc
        obtain rfl := Option.some.inj (hs₁.symm.trans hs)
        rw [htab]
        exact .expires a rfl ht hc
    · rw [← (Prod.mk.inj (Option.some.inj h)).2]
      exact .stays

theorem step_lockStep {e : Event} {s' : MDRV2} (h : s.step P e = some s') :
    s.LockStep P e s'.lockTable := by
  obtain ⟨⟨resp, _⟩, hr, rfl⟩ := Option.map_eq_some_iff.mp h
  exact s.respond_lockStep P hr

theorem fresh_init (m : Memory) (files : String → Option TableFile) :
    (MDRV2.init m files).lockTable.Fresh := by
  intro k _
  rw [init_lockTable_entry]

end MDRV2

end MetaCommon.Mdrv2
