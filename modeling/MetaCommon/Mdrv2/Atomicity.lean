import MetaCommon.Mdrv2.DataStart

/-!
# A rejected `DataStart`

`DataStart` removes the table file of an agent without a service before it knows that the request is
good, gives the lock back when the mapping fails, and keeps it when the service does not answer.
`dataStart_atomic_iff` says for which requests an error leaves locks and files as they were.
-/

namespace MetaCommon.Mdrv2

open MDRV2

variable (P : Platform) (s : MDRV2) (r : DataStartReq)

/-- If the request fails, the locks of all entries and the files are those of before. -/
def StartAtomic : Prop :=
  ∀ f, (s.dataStart P r).1 = .error f →
    (∀ a i, ((s.dataStart P r).2.entry a i).lockState = (s.entry a i).lockState) ∧
      (s.dataStart P r).2.files = s.files

/-- A request for agent `a` whose removal takes a file away succeeds behind it. -/
def KeepsFile (a : AgentIndex) : Prop :=
  (s.mdrv2Dir a).noService = true → s.files (s.mdrv2Dir a).fileName ≠ none →
    ∃ i, (s.mdrv2Dir a).dataIdIndex r.dataInfo r.idReply = .ok i ∧
      (s.entry a i).lockState.CanLock true ∧ r.maps = true

/-- A request for agent `a` that gets the lock finds the entry as a release leaves it, if the
mapping fails, and an answering service, if one is needed. -/
def KeepsLock (a : AgentIndex) : Prop :=
  ∀ i, (s.mdrv2Dir a).dataIdIndex r.dataInfo r.idReply = .ok i →
    (s.entry a i).lockState.CanLock true →
      (r.maps = false → (s.entry a i).lockState = ⟨.mdr2Updated, .mdr2DirUnlock, 0⟩) ∧
      (r.maps = true → (s.mdrv2Dir a).noService = false → r.syncReply.isSome)

def StartRestores : Prop := ∀ a, Reaches P s r a → KeepsFile s r a ∧ KeepsLock s r a

theorem EntryLock.grant_stage (e : EntryLock) (session : UInt16) :
    (e.grant true session).stage = .mdr2Updating := by
  unfold EntryLock.grant
  split <;> rfl

theorem EntryLock.release_grant (e : EntryLock) (session : UInt16) :
    (e.grant true session).release = ⟨.mdr2Updated, .mdr2DirUnlock, 0⟩ := by
  simp only [EntryLock.release, e.grant_stage session]

/-- A grant for an update changes the stage or, during an update, the flag. -/
theorem EntryLock.grant_ne_self {e : EntryLock} (hc : e.CanLock true) (session : UInt16) :
    e.grant true session ≠ e := by
  intro he
  have hs : e.stage = .mdr2Updating := by
    rw [← he]
    exact e.grant_stage session
  have hl : e.lock = .mdr2DirLock := by
    rw [← he]
    simp only [EntryLock.grant, hs]
  simp only [EntryLock.CanLock, hs] at hc
  exact hc hl

theorem started_files_eq_iff (a : AgentIndex) :
    (s.started a).files = s.files ↔
      ((s.mdrv2Dir a).noService = true → s.files (s.mdrv2Dir a).fileName = none) := by
  by_cases hn : (s.mdrv2Dir a).noService = true
  · simp only [started, hn, if_true, forall_const]
    rw [Function.update_eq_self_iff]
    exact eq_comm
  · simp [started, hn, focus]

theorem released_granted_lockTable_entry (a : AgentIndex) (i : DirIndex) (session : UInt16) :
    (((((s.started a).granted a i ((s.entry a i).lockState.grant true session)).released a i).note
      (.released (a, i))).lockTable).entry =
        Function.update s.lockTable.entry (a, i) ⟨.mdr2Updated, .mdr2DirUnlock, 0⟩ := by
  rw [lockTable_note, lockTable_released, lockTable_granted]
  simp only [LockTable.note_entry, LockTable.release_entry, LockTable.grant_entry,
    Function.update_self, Function.update_idem, EntryLock.release_grant]
  rfl

variable {P s r}

theorem startRestores_iff {a : AgentIndex} (hr : Reaches P s r a) :
    StartRestores P s r ↔ KeepsFile s r a ∧ KeepsLock s r a := by
  constructor
  · intro h
    exact h a hr
  · intro h b hb
    obtain rfl : a = b := Option.some.inj (hr.agent.symm.trans hb.agent)
    exact h

/-- A request that does not get the lock keeps the file only if there is none. -/
theorem keeps_iff_of_rejected {a : AgentIndex}
    (hno : ∀ i, (s.mdrv2Dir a).dataIdIndex r.dataInfo r.idReply = .ok i →
      ¬ (s.entry a i).lockState.CanLock true) :
    KeepsFile s r a ∧ KeepsLock s r a ↔ (s.started a).files = s.files := by
  rw [started_files_eq_iff]
  constructor
  · rintro ⟨hfile, _⟩ hn
    by_contra hex
    obtain ⟨i, hi, hc, _⟩ := hfile hn hex
    exact hno i hi hc
  · intro hnone
    exact ⟨fun hn hex => absurd (hnone hn) hex, fun i hi hc => absurd hc (hno i hi)⟩

theorem keeps_iff_of_noSharedMemory {a : AgentIndex} {i : DirIndex} (hr : Requests P s r a i)
    (hc : (s.entry a i).lockState.CanLock true) (hm : r.maps = false) :
    KeepsFile s r a ∧ KeepsLock s r a ↔
      (s.entry a i).lockState = ⟨.mdr2Updated, .mdr2DirUnlock, 0⟩ ∧
        (s.started a).files = s.files := by
  rw [started_files_eq_iff]
  constructor
  · rintro ⟨hfile, hlock⟩
    refine ⟨(hlock i hr.index hc).1 hm, fun hn => ?_⟩
    by_contra hex
    obtain ⟨_, _, _, hm'⟩ := hfile hn hex
    exact absurd (hm.symm.trans hm') nofun
  · rintro ⟨hlock, hnone⟩
    refine ⟨fun hn hex => absurd (hnone hn) hex, fun j hj _ => ⟨fun _ => ?_, fun hm' => ?_⟩⟩
    · obtain rfl : i = j := Except.ok.inj (hr.index.symm.trans hj)
      exact hlock
    · exact absurd (hm.symm.trans hm') nofun

/-- The ways through `DataStart` that keep what they should are those of `StartRestores`. -/
theorem MDRV2.DataStarts.atomic_iff {resp : Response} {s' : MDRV2}
    (h : DataStarts P s r resp s') :
    (∀ f, resp = .error f → s'.lockTable.entry = s.lockTable.entry ∧ s'.files = s.files) ↔
      StartRestores P s r := by
  cases h with
  | outOfRange f hr =>
    exact ⟨fun _ a ha => absurd ha.inRange hr, fun _ _ _ => ⟨rfl, rfl⟩⟩
  | unknownAgent hr ha =>
    exact ⟨fun _ a hb => absurd (ha.symm.trans hb.agent) nofun, fun _ _ _ => ⟨rfl, rfl⟩⟩
  | removalFails a hr ha hf =>
    refine ⟨fun _ b hb => ?_, fun _ _ _ => ⟨rfl, rfl⟩⟩
    obtain rfl : a = b := Option.some.inj (ha.symm.trans hb.agent)
    exact absurd hf hb.removal
  | noEntry a f hr hi =>
    rw [startRestores_iff hr, keeps_iff_of_rejected fun i hi' => absurd (hi.symm.trans hi') nofun]
    exact ⟨fun h => (h f rfl).2, fun h _ _ => ⟨rfl, h⟩⟩
  | cannotLock a i hr hc =>
    rw [startRestores_iff hr.toReaches, keeps_iff_of_rejected fun j hj => by
      obtain rfl : i = j := Except.ok.inj (hr.index.symm.trans hj)
      exact hc]
    exact ⟨fun h => (h _ rfl).2, fun h _ _ => ⟨rfl, h⟩⟩
  | noSharedMemory a i session hr hc hm =>
    rw [startRestores_iff hr.toReaches, keeps_iff_of_noSharedMemory hr hc hm,
      released_granted_lockTable_entry, Function.update_eq_self_iff, lockTable_entry]
    exact ⟨fun h => ⟨(h _ rfl).1.symm, (h _ rfl).2⟩, fun h _ _ => ⟨h.1.symm, h.2⟩⟩
  | syncFailed a i session hr hc hm hn hy =>
    rw [startRestores_iff hr.toReaches]
    constructor
    · intro h
      have he := congrFun (h _ rfl).1 (a, i)
      rw [lockTable_announced, LockTable.grant_entry, Function.update_self] at he
      exact absurd he (EntryLock.grant_ne_self hc session)
    · rintro ⟨_, hlock⟩
      have hsome := (hlock i hr.index hc).2 hm hn
      rw [hy] at hsome
      cases hsome
  | acceptedLocal a i session hr hc hm hn =>
    rw [startRestores_iff hr.toReaches]
    refine ⟨fun _ => ⟨fun _ _ => ⟨i, hr.index, hc, hm⟩, fun j hj _ => ⟨fun hm' => ?_, ?_⟩⟩, nofun⟩
    · exact absurd (hm.symm.trans hm') nofun
    · intro _ hn'
      exact absurd (hn.symm.trans hn') nofun
  | acceptedSynced a i session hr hc hm hn hy =>
    rw [startRestores_iff hr.toReaches]
    refine ⟨fun _ => ⟨fun _ _ => ⟨i, hr.index, hc, hm⟩, fun j hj _ => ⟨fun hm' => ?_, ?_⟩⟩, nofun⟩
    · exact absurd (hm.symm.trans hm') nofun
    · exact fun _ _ => hy

variable (P s r)

/-- An error of `DataStart` leaves locks and files alone exactly for the requests that
`StartRestores` describes. -/
theorem dataStart_atomic_iff : StartAtomic P s r ↔ StartRestores P s r := by
  have h := (s.dataStart_dataStarts P r).atomic_iff
  rw [← h]
  refine forall_congr' fun f => imp_congr_right fun _ => and_congr_left' ?_
  exact ⟨fun hl => funext fun k => hl k.1 k.2, fun hl a i => congrFun hl (a, i)⟩

/-- A stored ACPI table is lost to a start with an unknown data id. -/
theorem not_startAtomic : ¬ ∀ s r, StartAtomic .plain s r := by
  intro h
  let stored : String → Option TableFile := fun name =>
    if name = acpiType2File then some ⟨⟨mdrTypeII, acpiTableVersion, 0, 1⟩, [7]⟩ else none
  have hfiles := (h (MDRV2.init .plain stored)
    { DataStartReq.plain acpiAgentId 4 with dataInfo := Vector.replicate 16 0 } .invalidDataId
    (by decide +kernel)).2
  exact absurd (congrFun hfiles acpiType2File) (by decide +kernel)

end MetaCommon.Mdrv2
