import MetaCommon.Mdrv2.Lock

/-!
# The lock table

The lock functions read and write a few fields only. `LockTable` keeps these: the lock of every
entry, the timer with its two indices and the record of the lock events. The operations on it are
those of `smbiosTryLock`, `smbiosUnlock`, `agentLookup` and `timeoutHandler`, and `lockTable` maps
the state of the code to it.
-/

namespace MetaCommon.Mdrv2

/-- The fields of an entry that make up its lock. -/
structure EntryLock where
  stage : MDR2SMBIOSStatusEnum
  lock : MDR2DirLockEnum
  lockHandle : UInt16
  deriving DecidableEq, Repr

def Mdr2DirLocalStruct.lockState (e : Mdr2DirLocalStruct) : EntryLock :=
  ⟨e.stage, e.lock, e.lockHandle⟩

namespace EntryLock

variable (e : EntryLock)

/-- `smbiosTryLock` grants the entry. -/
def CanLock (flag : Bool) : Prop :=
  match e.stage with
  | .mdr2Init => flag = true
  | _ => e.lock ≠ .mdr2DirLock

instance (flag : Bool) : Decidable (e.CanLock flag) := by
  unfold CanLock
  split <;> infer_instance

/-- The entry after a grant. -/
def grant (flag : Bool) (session : UInt16) : EntryLock :=
  match e.stage with
  | .mdr2Updating => ⟨.mdr2Updating, .mdr2DirLock, session⟩
  | .mdr2Init => ⟨.mdr2Updating, .mdr2DirUnlock, session⟩
  | stage => if flag then ⟨.mdr2Updating, .mdr2DirUnlock, session⟩
    else ⟨stage, .mdr2DirLock, session⟩

/-- The entry after `smbiosUnlock`. -/
def release : EntryLock :=
  match e.stage with
  | .mdr2Init => e
  | .mdr2Updating => ⟨.mdr2Updated, .mdr2DirUnlock, 0⟩
  | stage => ⟨stage, .mdr2DirUnlock, 0⟩

/-- The entry is locked: it is being updated, or it carries the flag of a read lock. -/
def Locked : Prop := e.stage = .mdr2Updating ∨ e.lock = .mdr2DirLock

instance : Decidable e.Locked := inferInstanceAs (Decidable (_ ∨ _))

@[simp] theorem grant_lockHandle (flag : Bool) (session : UInt16) :
    (e.grant flag session).lockHandle = session := by
  unfold grant
  split
  · rfl
  · rfl
  · split <;> rfl

theorem grant_stage_ne_init (flag : Bool) (session : UInt16) :
    (e.grant flag session).stage ≠ .mdr2Init := by
  unfold grant
  split
  · exact nofun
  · exact nofun
  · split
    · exact nofun
    · assumption

theorem locked_grant (flag : Bool) (session : UInt16) : (e.grant flag session).Locked := by
  unfold grant Locked
  split
  · exact .inl rfl
  · exact .inl rfl
  · split
    · exact .inl rfl
    · exact .inr rfl

theorem release_stage_ne_init (h : e.stage ≠ .mdr2Init) : e.release.stage ≠ .mdr2Init := by
  unfold release
  split
  · contradiction
  · exact nofun
  · exact h

theorem release_of_ne_init (h : e.stage ≠ .mdr2Init) :
    e.release.stage ≠ .mdr2Updating ∧ e.release.lock = .mdr2DirUnlock ∧
      e.release.lockHandle = 0 := by
  unfold release
  split
  · contradiction
  · exact ⟨nofun, rfl, rfl⟩
  · exact ⟨by assumption, rfl, rfl⟩

theorem not_locked_release (h : e.stage ≠ .mdr2Init) : ¬ e.release.Locked := by
  obtain ⟨hs, hl, _⟩ := e.release_of_ne_init h
  rintro (hu | hu)
  · exact hs hu
  · rw [hl] at hu
    cases hu

end EntryLock

/-- What the lock functions work on: the lock of every entry, the timer and its two indices, and
the record of what happened. -/
@[ext] structure LockTable where
  entry : EntryIndex → EntryLock
  timer : Bool
  lockIndex : DirIndex
  current : Option AgentIndex
  history : List LockEvent

namespace LockTable

variable (t : LockTable)

def note (e : LockEvent) : LockTable := { t with history := t.history ++ [e] }

def focus (current : Option AgentIndex) : LockTable := { t with current := current }

def grant (k : EntryIndex) (l : EntryLock) : LockTable :=
  { t with
    entry := Function.update t.entry k l
    timer := true
    lockIndex := k.2 }.note (.granted k l.lockHandle)

def release (k : EntryIndex) : LockTable :=
  { t with
    entry := Function.update t.entry k (t.entry k).release
    timer := false }

/-- The expiry with current agent `a`. -/
def expire (a : AgentIndex) : LockTable := (t.note .expired).release (a, t.lockIndex)

@[simp] theorem note_entry (e : LockEvent) : (t.note e).entry = t.entry := rfl

@[simp] theorem focus_entry (c : Option AgentIndex) : (t.focus c).entry = t.entry := rfl

@[simp] theorem grant_entry (k : EntryIndex) (l : EntryLock) :
    (t.grant k l).entry = Function.update t.entry k l := rfl

@[simp] theorem release_entry (k : EntryIndex) :
    (t.release k).entry = Function.update t.entry k (t.entry k).release := rfl

@[simp] theorem note_history (e : LockEvent) : (t.note e).history = t.history ++ [e] := rfl

@[simp] theorem grant_history (k : EntryIndex) (l : EntryLock) :
    (t.grant k l).history = t.history ++ [.granted k l.lockHandle] := rfl

@[simp] theorem release_history (k : EntryIndex) : (t.release k).history = t.history := rfl

theorem expire_entry (a : AgentIndex) : (t.expire a).entry =
    Function.update t.entry (a, t.lockIndex) (t.entry (a, t.lockIndex)).release := rfl

/-- An entry in its first stage is not locked and carries no handle. -/
def Fresh : Prop := ∀ k, (t.entry k).stage = .mdr2Init → t.entry k = ⟨.mdr2Init, .mdr2DirUnlock, 0⟩

variable {t}

theorem Fresh.stage_ne_init (h : t.Fresh) {k : EntryIndex} (hk : (t.entry k).Locked) :
    (t.entry k).stage ≠ .mdr2Init := by
  intro hs
  rw [h k hs] at hk
  rcases hk with hu | hu <;> cases hu

theorem Fresh.grant (h : t.Fresh) {k : EntryIndex} {l : EntryLock} (hl : l.stage ≠ .mdr2Init) :
    (t.grant k l).Fresh := by
  intro k' hs
  by_cases he : k' = k
  · subst he
    rw [grant_entry, Function.update_self] at hs
    exact absurd hs hl
  · rw [grant_entry, Function.update_of_ne he] at hs ⊢
    exact h k' hs

theorem Fresh.release (h : t.Fresh) (k : EntryIndex) : (t.release k).Fresh := by
  intro k' hs
  by_cases he : k' = k
  · subst he
    rw [release_entry, Function.update_self] at hs ⊢
    by_cases hi : (t.entry k').stage = .mdr2Init
    · rw [h k' hi]
      rfl
    · exact absurd hs ((t.entry k').release_stage_ne_init hi)
  · rw [release_entry, Function.update_of_ne he] at hs ⊢
    exact h k' hs

variable (t)

theorem expire_history (a : AgentIndex) : (t.expire a).history = t.history ++ [.expired] := rfl

end LockTable

def Mdr2DirLocalStruct.setLock (e : Mdr2DirLocalStruct) (l : EntryLock) : Mdr2DirLocalStruct :=
  { e with stage := l.stage, lock := l.lock, lockHandle := l.lockHandle }

namespace MDRV2

variable (P : Platform) (s : MDRV2)

def lockTable : LockTable where
  entry k := (s.entry k.1 k.2).lockState
  timer := s.timer
  lockIndex := s.lockIndex
  current := s.currentAgentIndex
  history := s.history

@[simp] theorem lockTable_entry (k : EntryIndex) :
    s.lockTable.entry k = (s.entry k.1 k.2).lockState := rfl

theorem init_lockTable_entry (m : Memory) (files : String → Option TableFile) (k : EntryIndex) :
    (MDRV2.init m files).lockTable.entry k = ⟨.mdr2Init, .mdr2DirUnlock, 0⟩ := by
  obtain ⟨a, i⟩ := k
  by_cases ha : a = acpiAgentIndex <;> by_cases hi : i = 0 <;>
    simp [MDRV2.init, entry, acpiDir, smbiosDir, firstEntry, zeroEntry,
      Mdr2DirLocalStruct.lockState, ha, hi]

theorem lockTable_setEntry (a : AgentIndex) (i : DirIndex) (e : Mdr2DirLocalStruct) :
    (s.setEntry a i e).lockTable =
      { s.lockTable with entry := Function.update s.lockTable.entry (a, i) e.lockState } := by
  refine LockTable.ext ?_ rfl rfl rfl rfl
  · funext ⟨b, j⟩
    by_cases h : (b, j) = (a, i)
    · obtain ⟨rfl, rfl⟩ := Prod.mk.inj h
      simp [lockTable]
    · simp [lockTable, Function.update_of_ne h, s.entry_setEntry_of_ne e h]

theorem lockTable_setEntry_of_lockState {a : AgentIndex} {i : DirIndex} {e : Mdr2DirLocalStruct}
    (h : e.lockState = (s.entry a i).lockState) : (s.setEntry a i e).lockTable = s.lockTable := by
  rw [lockTable_setEntry, h]
  refine LockTable.ext ?_ rfl rfl rfl rfl
  exact Function.update_eq_self (a, i) s.lockTable.entry

@[simp] theorem lockTable_note (e : LockEvent) : (s.note e).lockTable = s.lockTable.note e := rfl

/-- The state after a grant that leaves the lock `l`. -/
def granted (a : AgentIndex) (i : DirIndex) (l : EntryLock) : MDRV2 :=
  let d := { s.mdrv2Dir a with
    sessionHandle := l.lockHandle
    dir := Function.update (s.mdrv2Dir a).dir i ((s.entry a i).setLock l) }
  { s.setDir a d with timer := true, lockIndex := i }.note (.granted (a, i) l.lockHandle)

/-- The state after a release. -/
def released (a : AgentIndex) (i : DirIndex) : MDRV2 :=
  let e := s.entry a i
  { s.setEntry a i (e.setLock e.lockState.release) with timer := false }

theorem lockTable_released (a : AgentIndex) (i : DirIndex) :
    (s.released a i).lockTable = s.lockTable.release (a, i) :=
  congrArg (fun t : LockTable => { t with timer := false }) (s.lockTable_setEntry a i _)

theorem entry_granted (a b : AgentIndex) (i j : DirIndex) (l : EntryLock) :
    (s.granted a i l).entry b j = (s.setEntry a i ((s.entry a i).setLock l)).entry b j := by
  by_cases hb : b = a
  · subst hb
    simp [granted, setEntry, setDir, entry, note]
  · simp [granted, setEntry, setDir, entry, note, hb]

theorem lockTable_granted (a : AgentIndex) (i : DirIndex) (l : EntryLock) :
    (s.granted a i l).lockTable = s.lockTable.grant (a, i) l := by
  have hentry : (s.granted a i l).lockTable.entry =
      (s.setEntry a i ((s.entry a i).setLock l)).lockTable.entry := by
    funext ⟨b, j⟩
    exact congrArg Mdr2DirLocalStruct.lockState (s.entry_granted a b i j l)
  rw [lockTable_setEntry] at hentry
  exact LockTable.ext hentry rfl rfl rfl rfl

theorem startSession_eq (a : AgentIndex) (i : DirIndex) (stage : MDR2SMBIOSStatusEnum)
    (lock : MDR2DirLockEnum) :
    ∃ session, s.startSession P a i stage lock =
      (some session, s.granted a i ⟨stage, lock, session⟩) := by
  refine ⟨_, Prod.ext rfl ?_⟩
  simp [startSession, granted, setEntry, setDir, note, Mdr2DirLocalStruct.setLock]

theorem smbiosTryLock_of_canLock {a : AgentIndex} {flag : Bool} {i : DirIndex}
    (h : (s.entry a i).lockState.CanLock flag) :
    ∃ session, s.smbiosTryLock P a flag i =
      (some session, s.granted a i ((s.entry a i).lockState.grant flag session)) := by
  simp only [EntryLock.CanLock, Mdr2DirLocalStruct.lockState] at h
  simp only [smbiosTryLock, EntryLock.grant, Mdr2DirLocalStruct.lockState]
  cases hs : (s.entry a i).stage with
  | mdr2Init =>
    rw [hs] at h
    simpa [show flag = true from h] using s.startSession_eq P a i _ _
  | mdr2Updating =>
    rw [hs] at h
    simpa [show (s.entry a i).lock ≠ _ from h] using s.startSession_eq P a i _ _
  | mdr2Updated =>
    rw [hs] at h
    cases flag <;> simpa [show (s.entry a i).lock ≠ _ from h] using s.startSession_eq P a i _ _
  | mdr2Loaded =>
    rw [hs] at h
    cases flag <;> simpa [show (s.entry a i).lock ≠ _ from h] using s.startSession_eq P a i _ _

theorem smbiosTryLock_of_not_canLock {a : AgentIndex} {flag : Bool} {i : DirIndex}
    (h : ¬ (s.entry a i).lockState.CanLock flag) : s.smbiosTryLock P a flag i = (none, s) := by
  simp only [EntryLock.CanLock, Mdr2DirLocalStruct.lockState] at h
  unfold smbiosTryLock
  cases hs : (s.entry a i).stage <;> simp_all

theorem smbiosUnlock_of_ne_init {a : AgentIndex} {i : DirIndex}
    (h : (s.entry a i).stage ≠ .mdr2Init) : s.smbiosUnlock a i = (true, s.released a i) := by
  simp only [smbiosUnlock, released, EntryLock.release, Mdr2DirLocalStruct.lockState,
    Mdr2DirLocalStruct.setLock]
  cases hs : (s.entry a i).stage with
  | mdr2Init => exact absurd hs h
  | mdr2Updating => rfl
  | mdr2Updated => simp [← hs]
  | mdr2Loaded => simp [← hs]

theorem smbiosUnlock_of_init {a : AgentIndex} {i : DirIndex}
    (h : (s.entry a i).stage = .mdr2Init) : s.smbiosUnlock a i = (false, s) := by
  simp only [smbiosUnlock, h]

theorem lockTable_smbiosUnlock_of_stopped {a : AgentIndex} {i : DirIndex} (ht : s.timer = false) :
    (s.smbiosUnlock a i).2.lockTable = s.lockTable.release (a, i) := by
  by_cases hs : (s.entry a i).stage = .mdr2Init
  · have hr : (s.lockTable.entry (a, i)).release = s.lockTable.entry (a, i) := by
      simp only [EntryLock.release, lockTable, Mdr2DirLocalStruct.lockState, hs]
    rw [smbiosUnlock_of_init _ hs]
    refine LockTable.ext ?_ ht rfl rfl rfl
    simp only [LockTable.release, hr, Function.update_eq_self]
  · rw [smbiosUnlock_of_ne_init _ hs]
    exact s.lockTable_released a i

theorem smbiosUnlock_entry_of_ne {a b : AgentIndex} {i j : DirIndex} (h : (b, j) ≠ (a, i)) :
    (s.smbiosUnlock a i).2.entry b j = s.entry b j := by
  by_cases hs : (s.entry a i).stage = .mdr2Init
  · rw [smbiosUnlock_of_init _ hs]
  · rw [smbiosUnlock_of_ne_init _ hs]
    exact s.entry_setEntry_of_ne _ h

/-- An expiry unlocks the entry that the current agent and `lockIndex` point at. -/
theorem timeoutHandler_of_current {a : AgentIndex} (hc : s.currentAgentIndex = some a) :
    ∃ s', s.timeoutHandler = some s' ∧ s'.lockTable = s.lockTable.expire a ∧
      ∀ b j, (b, j) ≠ (a, s.lockIndex) → s'.entry b j = s.entry b j := by
  unfold timeoutHandler
  split
  · next hnone => cases hnone.symm.trans hc
  · next b hb =>
    obtain rfl : b = a := Option.some.inj (hb.symm.trans hc)
    have ht := lockTable_smbiosUnlock_of_stopped ({ s with timer := false }.note .expired)
      (a := b) (i := s.lockIndex) rfl
    exact ⟨_, rfl, ht, fun b' j hne =>
      smbiosUnlock_entry_of_ne ({ s with timer := false }.note .expired) hne⟩

end MDRV2

end MetaCommon.Mdrv2
