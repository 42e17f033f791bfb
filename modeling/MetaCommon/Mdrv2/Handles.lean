import MetaCommon.Lib.Runs
import MetaCommon.Mdrv2.LockStep

/-!
# Lock handles

A command finds its entry by the handle in the request. An unlocked entry carries the handle 0, so a
request with 0 finds it as if it had been granted. Apart from that a handle is good for as long as
it is granted, if the expiries hit the entry whose grant started the timer.
-/

namespace MetaCommon.Mdrv2

variable (P : Platform)

/-- Every request that succeeds carries a handle that its agent has been given for the entry it
finds, and that has not been taken back. -/
def HandlesSound (s₀ : MDRV2) (es : List Event) : Prop :=
  ∀ pre e post s r s', es = pre ++ e :: post → Runs.exec (MDRV2.step P) s₀ pre = some s →
    s.respond P e = some (.ok r, s') → ∀ agentId lockHandle,
      e.handle = some (agentId, lockHandle) → ∃ a i, agentOf agentId = some a ∧
        s.found agentId lockHandle = some (a, i) ∧ Leases.Valid s.history (a, i) lockHandle

/-- No request finds its entry by the handle 0 or by a session number that no response has handed
out, and expiries hit the owner of the timer. -/
def Presented (s : MDRV2) (e : Event) : Prop :=
  (∀ q ∈ e.handle, ∀ k ∈ s.found q.1 q.2,
    q.2 ≠ 0 ∧ (Leases.table s.history).answered k = true) ∧ s.ExpiresOwner e

instance : DecidableRel Presented := fun _ _ => inferInstanceAs (Decidable (_ ∧ _))

/-- A handle in the lock table is that of the session that holds the entry. -/
structure HandleInv (t : LockTable) : Prop where
  fresh : t.Fresh
  holder : ∀ k, (t.entry k).lockHandle ≠ 0 →
    (Leases.table t.history).holder k = some (t.entry k).lockHandle
  owner : t.timer = true → ∃ k, (Leases.table t.history).owner = some k ∧ t.lockIndex = k.2

namespace HandleInv

variable {t : LockTable}

theorem focus (h : HandleInv t) (c : Option AgentIndex) : HandleInv (t.focus c) :=
  ⟨h.fresh, h.holder, h.owner⟩

theorem grant (h : HandleInv t) {k : EntryIndex} {l : EntryLock} (hs : l.stage ≠ .mdr2Init) :
    HandleInv (t.grant k l) := by
  refine ⟨h.fresh.grant hs, fun k' hk' => ?_, fun _ => ⟨k, ?_, rfl⟩⟩
  · rw [LockTable.grant_history, Leases.table_concat, Leases.Table.record_granted_holder]
    by_cases he : k' = k
    · subst he
      rw [Function.update_self, LockTable.grant_entry, Function.update_self]
    · rw [LockTable.grant_entry, Function.update_of_ne he] at hk' ⊢
      rw [Function.update_of_ne he]
      exact h.holder k' hk'
  · rw [LockTable.grant_history, Leases.table_concat, Leases.Table.record_granted_owner]

theorem note_answered (h : HandleInv t) (k : EntryIndex) : HandleInv (t.note (.answered k)) := by
  refine ⟨h.fresh, fun k' hk' => ?_, fun ht => ?_⟩
  · rw [LockTable.note_history, Leases.table_concat, Leases.Table.record_answered_holder]
    exact h.holder k' hk'
  · rw [LockTable.note_history, Leases.table_concat, Leases.Table.record_answered_owner]
    exact h.owner ht

theorem release_lockHandle (h : t.Fresh) (k : EntryIndex) :
    (t.entry k).release.lockHandle = 0 := by
  by_cases hs : (t.entry k).stage = .mdr2Init
  · rw [h k hs]
    rfl
  · exact ((t.entry k).release_of_ne_init hs).2.2

theorem release (h : HandleInv t) (k : EntryIndex) :
    HandleInv ((t.release k).note (.released k)) := by
  refine ⟨h.fresh.release k, fun k' hk' => ?_, nofun⟩
  rw [LockTable.note_history, Leases.table_concat, Leases.Table.record_released_holder,
    LockTable.release_history]
  rw [LockTable.note_entry, LockTable.release_entry] at hk' ⊢
  by_cases he : k' = k
  · subst he
    rw [Function.update_self] at hk'
    exact absurd (release_lockHandle h.fresh k') hk'
  · rw [Function.update_of_ne he] at hk' ⊢
    rw [Function.update_of_ne he]
    exact h.holder k' hk'

theorem expire (h : HandleInv t) {a : AgentIndex} (ht : t.timer = true)
    (ho : ∀ k ∈ (Leases.table t.history).owner,
      (Leases.table t.history).holder k ≠ none → some a = some k.1) :
    HandleInv (t.expire a) := by
  refine ⟨LockTable.Fresh.release (t := t.note _) h.fresh _, fun k hk => ?_, nofun⟩
  rw [LockTable.expire_entry] at hk ⊢
  by_cases he : k = (a, t.lockIndex)
  · subst he
    rw [Function.update_self] at hk
    exact absurd (release_lockHandle h.fresh _) hk
  · rw [Function.update_of_ne he] at hk ⊢
    have hh := h.holder k hk
    rw [LockTable.expire_history, Leases.table_concat]
    refine Leases.Table.record_expired_holder _ ?_ hh
    intro howner
    obtain ⟨k', hk', hidx⟩ := h.owner ht
    obtain rfl : k' = k := Option.some.inj (hk'.symm.trans howner)
    have ha := ho k' howner (by rw [hh]; exact nofun)
    exact he (Prod.ext (Option.some.inj ha).symm hidx.symm)

end HandleInv

/-- A presented event keeps the handles with their sessions. -/
theorem MDRV2.LockStep.handleInv {s : MDRV2} {e : Event} {t : LockTable}
    (h : s.LockStep P e t) (hi : HandleInv s.lockTable) (hp : Presented s e) : HandleInv t := by
  cases h with
  | stays => exact hi.focus _
  | grants k flag session hq hc =>
    exact ((hi.focus _).grant (EntryLock.grant_stage_ne_init _ _ _)).note_answered k
  | keeps k flag session hq hc => exact (hi.focus _).grant (EntryLock.grant_stage_ne_init _ _ _)
  | returns k flag session hq hc =>
    exact ((hi.focus _).grant (EntryLock.grant_stage_ne_init _ _ _)).release k
  | releases k agentId lockHandle _ _ _ _ => exact (hi.focus _).release k
  | expires a he ht hc =>
    subst he
    exact hi.expire ht fun k hk hh => hc.symm.trans (hp.2 ht k hk hh)

/-- A request whose handle is not found fails. -/
theorem MDRV2.found_of_respond_ok {s s' : MDRV2} {e : Event} {r : Reply}
    {agentId lockHandle : UInt16} (h : s.respond P e = some (.ok r, s'))
    (hh : e.handle = some (agentId, lockHandle)) : ∃ k, s.found agentId lockHandle = some k := by
  by_contra hne
  have hf : s.found agentId lockHandle = none :=
    Option.eq_none_iff_forall_ne_some.mpr fun k hk => hne ⟨k, hk⟩
  have hfail (a : AgentIndex) (ha : agentOf agentId = some a) :
      s.findLockHandle a lockHandle = none := by
    simpa [found, ha] using hf
  have hlook := s.agentLookup_eq agentId
  cases ha : agentOf agentId with
  | none =>
    rw [ha] at hlook
    cases e with
    | unlockData r | dataDone r | getDataBlock r | sendDataBlock r =>
      obtain ⟨rfl, rfl⟩ := Prod.mk.inj (Option.some.inj hh)
      simp [respond, unlockData, dataDone, getDataBlock, sendDataBlock, hlook] at h
    | agentLookup _ | lockData _ | dataStart _ | timeout => cases hh
  | some a =>
    rw [ha] at hlook
    have hnone := hfail a ha
    cases e with
    | unlockData r | dataDone r | getDataBlock r | sendDataBlock r =>
      obtain ⟨rfl, rfl⟩ := Prod.mk.inj (Option.some.inj hh)
      simp [respond, unlockData, dataDone, getDataBlock, sendDataBlock, hlook, hnone] at h
    | agentLookup _ | lockData _ | dataStart _ | timeout => cases hh

theorem MDRV2.handleInv_init (m : Memory) (files : String → Option TableFile) :
    HandleInv (MDRV2.init m files).lockTable := by
  refine ⟨fresh_init m files, fun k hk => ?_, nofun⟩
  rw [init_lockTable_entry] at hk
  exact absurd rfl hk

/-- In every presented run the requests that succeed carry handles in force. -/
theorem run_handlesSound (m : Memory) (files : String → Option TableFile) (es : List Event)
    (hg : Runs.ExecGuarded (MDRV2.step P) Presented (MDRV2.init m files) es) :
    HandlesSound P (MDRV2.init m files) es := by
  rintro pre e post s r s' rfl hs hr agentId lockHandle hh
  obtain ⟨hpre, he, _⟩ := hg.split hs
  have hi : HandleInv s.lockTable :=
    hpre.invariant (I := fun s => HandleInv s.lockTable)
      (fun s e s' hi hp he => (s.step_lockStep P he).handleInv P hi hp)
      (MDRV2.handleInv_init m files) hs
  obtain ⟨k, hk⟩ := MDRV2.found_of_respond_ok P hr hh
  obtain ⟨ha, hhandle⟩ := MDRV2.found_lockHandle hk
  obtain ⟨hne, hans⟩ := he.1 (agentId, lockHandle) hh k hk
  have hholder := hi.holder k (by rw [hhandle]; exact hne)
  rw [hhandle] at hholder
  exact ⟨k.1, k.2, ha, hk, hholder, hans⟩

/-- The ACPI agent updates its table, sends one block, stores it, and tries its old handle. -/
theorem run_handlesSound_update :
    HandlesSound .plain (MDRV2.init .plain fun _ => none)
      [.dataStart (.plain acpiAgentId 4), .sendDataBlock ⟨acpiAgentId, 1, 0, 4, 28, fun _ => 7⟩,
        .dataDone ⟨acpiAgentId, 1, true, none⟩, .unlockData ⟨acpiAgentId, 1⟩] :=
  run_handlesSound .plain .plain _ _ (by decide +kernel)

/-- The ACPI agent has released its entry. -/
def releasedEntry : MDRV2 :=
  (Runs.exec (MDRV2.step .plain) (MDRV2.init .plain fun _ => none)
    [.dataStart (.plain acpiAgentId 4), .unlockData ⟨acpiAgentId, 1⟩]).get (by decide +kernel)

/-- `UnlockData` with the handle 0 succeeds on the released entry. -/
theorem not_handlesSound :
    ¬ ∀ es, HandlesSound .plain (MDRV2.init .plain fun _ => none) es := by
  intro h
  have hrun : Runs.exec (MDRV2.step .plain) (MDRV2.init .plain fun _ => none)
      [.dataStart (.plain acpiAgentId 4), .unlockData ⟨acpiAgentId, 1⟩] = some releasedEntry :=
    (Option.some_get _).symm
  have hok : (releasedEntry.unlockData ⟨acpiAgentId, 0⟩).1 = .ok .done := by decide +kernel
  obtain ⟨a, i, _, _, hvalid⟩ := h
    [.dataStart (.plain acpiAgentId 4), .unlockData ⟨acpiAgentId, 1⟩, .unlockData ⟨acpiAgentId, 0⟩]
    _ (.unlockData ⟨acpiAgentId, 0⟩) [] _ .done _ rfl hrun
    (congrArg some (Prod.ext hok rfl)) acpiAgentId 0 rfl
  have hfree : ∀ a i, (Leases.table releasedEntry.history).holder (a, i) = none := by
    decide +kernel
  exact absurd ((hfree a i).symm.trans hvalid.1) nofun

end MetaCommon.Mdrv2
