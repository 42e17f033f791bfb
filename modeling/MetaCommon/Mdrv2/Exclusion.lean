import MetaCommon.Lib.Runs
import MetaCommon.Mdrv2.LockStep

/-!
# Mutual exclusion

`smbiosTryLock` should not grant an entry twice. The grant of an update leaves the lock flag open,
so a second request gets the entry while the update goes on. Exclusion holds as long as no request
meets such an entry and every expiry takes back the entry whose grant started the timer.
-/

namespace MetaCommon.Mdrv2

variable (P : Platform)

/-- No grant was given for an entry still held, and the handles of the held entries are in place. -/
structure MDRV2.ExclusiveLocks (s : MDRV2) : Prop where
  exclusive : Leases.Exclusive s.history
  handles : ∀ a i session, (Leases.table s.history).holder (a, i) = some session →
    (s.entry a i).lockHandle = session

/-- The entry is held for an update: its stage is updating, its lock flag is open. -/
def MDRV2.HeldForUpdate (s : MDRV2) (k : EntryIndex) : Prop :=
  (Leases.table s.history).holder k ≠ none ∧ (s.entry k.1 k.2).stage = .mdr2Updating ∧
    (s.entry k.1 k.2).lock = .mdr2DirUnlock

/-- No request to lock meets an entry held for an update, and expiries hit the owner of the
timer. -/
def Unchallenged (s : MDRV2) (e : Event) : Prop :=
  (∀ q ∈ s.lockRequest P e, ¬ s.HeldForUpdate q.1) ∧ s.ExpiresOwner e

instance (s : MDRV2) (k : EntryIndex) : Decidable (s.HeldForUpdate k) :=
  inferInstanceAs (Decidable (_ ∧ _))

instance : DecidableRel (Unchallenged P) := fun _ _ => inferInstanceAs (Decidable (_ ∧ _))

/-- What the lock table says of the held entries. The timer runs for one of them, since a release
stops it. -/
structure ExclusionInv (t : LockTable) : Prop where
  fresh : t.Fresh
  exclusive : Leases.Exclusive t.history
  held : ∀ k session, (Leases.table t.history).holder k = some session →
    (t.entry k).Locked ∧ (t.entry k).lockHandle = session
  owner : t.timer = true → ∃ k, (Leases.table t.history).owner = some k ∧ t.lockIndex = k.2 ∧
    (Leases.table t.history).holder k ≠ none

namespace ExclusionInv

variable {t : LockTable}

/-- A locked entry can be locked again only during an update that has left the flag open. -/
theorem holder_eq_none (h : ExclusionInv t) {k : EntryIndex} {flag : Bool}
    (hc : (t.entry k).CanLock flag)
    (hu : (t.entry k).stage = .mdr2Updating → (t.entry k).lock = .mdr2DirUnlock →
      (Leases.table t.history).holder k = none) : (Leases.table t.history).holder k = none := by
  by_contra hne
  obtain ⟨session, hs⟩ := Option.ne_none_iff_exists'.mp hne
  have hl := (h.held k session hs).1
  have hi := h.fresh.stage_ne_init hl
  have hopen : (t.entry k).lock ≠ .mdr2DirLock := by
    unfold EntryLock.CanLock at hc
    split at hc
    · contradiction
    · exact hc
  have hstage : (t.entry k).stage = .mdr2Updating := hl.resolve_right hopen
  have hlock : (t.entry k).lock = .mdr2DirUnlock := by
    cases hk : (t.entry k).lock with
    | mdr2DirUnlock => rfl
    | mdr2DirLock => exact absurd hk hopen
  exact hne (hu hstage hlock)

theorem focus (h : ExclusionInv t) (c : Option AgentIndex) : ExclusionInv (t.focus c) :=
  ⟨h.fresh, h.exclusive, h.held, h.owner⟩

theorem grant (h : ExclusionInv t) {k : EntryIndex} {l : EntryLock} (hs : l.stage ≠ .mdr2Init)
    (hl : l.Locked) (hk : (Leases.table t.history).holder k = none) :
    ExclusionInv (t.grant k l) := by
  refine ⟨h.fresh.grant hs, h.exclusive.concat ?_, ?_, fun _ => ⟨k, ?_, rfl, ?_⟩⟩
  · intro k' x he
    obtain ⟨rfl, _⟩ := Leases.Event.granted.inj he
    exact hk
  · intro k' session hh
    rw [LockTable.grant_history, Leases.table_concat, Leases.Table.record_granted_holder] at hh
    by_cases he : k' = k
    · subst he
      rw [Function.update_self] at hh
      rw [LockTable.grant_entry, Function.update_self]
      exact ⟨hl, Option.some.inj hh⟩
    · rw [Function.update_of_ne he] at hh
      rw [LockTable.grant_entry, Function.update_of_ne he]
      exact h.held k' session hh
  · rw [LockTable.grant_history, Leases.table_concat, Leases.Table.record_granted_owner]
  · rw [LockTable.grant_history, Leases.table_concat, Leases.Table.record_granted_holder,
      Function.update_self]
    exact nofun

theorem note_answered (h : ExclusionInv t) (k : EntryIndex) :
    ExclusionInv (t.note (.answered k)) := by
  refine ⟨h.fresh, h.exclusive.concat nofun, fun k' session hh => ?_, fun ht => ?_⟩
  · rw [LockTable.note_history, Leases.table_concat, Leases.Table.record_answered_holder] at hh
    exact h.held k' session hh
  · rw [LockTable.note_history, Leases.table_concat, Leases.Table.record_answered_owner,
      Leases.Table.record_answered_holder]
    exact h.owner ht

theorem release (h : ExclusionInv t) (k : EntryIndex) :
    ExclusionInv ((t.release k).note (.released k)) := by
  refine ⟨h.fresh.release k, h.exclusive.concat nofun, fun k' session hh => ?_, nofun⟩
  rw [LockTable.note_history, Leases.table_concat, Leases.Table.record_released_holder,
    LockTable.release_history] at hh
  by_cases he : k' = k
  · subst he
    rw [Function.update_self] at hh
    cases hh
  · rw [Function.update_of_ne he] at hh
    rw [LockTable.note_entry, LockTable.release_entry, Function.update_of_ne he]
    exact h.held k' session hh

theorem expire (h : ExclusionInv t) {a : AgentIndex} (ht : t.timer = true)
    (ho : ∀ k ∈ (Leases.table t.history).owner,
      (Leases.table t.history).holder k ≠ none → some a = some k.1) :
    ExclusionInv (t.expire a) := by
  refine ⟨LockTable.Fresh.release (t := t.note _) h.fresh _, h.exclusive.concat nofun,
    fun k session hh => ?_, nofun⟩
  rw [LockTable.expire_history, Leases.table_concat] at hh
  obtain ⟨hne, hh⟩ := Leases.Table.holder_of_record_expired _ hh
  obtain ⟨k', howner, hidx, hheld⟩ := h.owner ht
  have ha : a = k'.1 := Option.some.inj (ho k' howner hheld)
  have he : k ≠ (a, t.lockIndex) := by
    rintro rfl
    apply hne
    rw [howner, ha, hidx]
  rw [LockTable.expire_entry, Function.update_of_ne he]
  exact h.held k session hh

end ExclusionInv

/-- An unchallenged event keeps the held entries apart. -/
theorem MDRV2.LockStep.exclusionInv {s : MDRV2} {e : Event} {t : LockTable}
    (h : s.LockStep P e t) (hi : ExclusionInv s.lockTable) (hu : Unchallenged P s e) :
    ExclusionInv t := by
  have free {k : EntryIndex} {flag : Bool} (hq : s.lockRequest P e = some (k, flag))
      (hc : (s.lockTable.entry k).CanLock flag) :
      (Leases.table s.history).holder k = none := by
    apply hi.holder_eq_none hc
    intro hs hl
    by_contra hne
    exact hu.1 (k, flag) hq ⟨hne, hs, hl⟩
  have hgrant {k : EntryIndex} {flag : Bool} (session : UInt16)
      (hq : s.lockRequest P e = some (k, flag)) (hc : (s.lockTable.entry k).CanLock flag) :
      ExclusionInv ((s.lockTable.focus (some k.1)).grant k
        ((s.lockTable.entry k).grant flag session)) :=
    (hi.focus _).grant (EntryLock.grant_stage_ne_init _ _ _) (EntryLock.locked_grant _ _ _)
      (free hq hc)
  cases h with
  | stays => exact hi.focus _
  | grants k flag session hq hc => exact (hgrant session hq hc).note_answered k
  | keeps k flag session hq hc => exact hgrant session hq hc
  | returns k flag session hq hc => exact (hgrant session hq hc).release k
  | releases k agentId lockHandle _ _ _ _ =>
    exact (hi.focus _).release k
  | expires a he ht hc =>
    subst he
    exact hi.expire ht fun k hk hh => hc.symm.trans (hu.2 ht k hk hh)

/-- Every unchallenged run keeps the locks exclusive. -/
theorem run_exclusiveLocks (m : Memory) (files : String → Option TableFile) (es : List Event)
    (hg : Runs.ExecGuarded (MDRV2.step P) (Unchallenged P) (MDRV2.init m files) es) {s : MDRV2}
    (hs : Runs.exec (MDRV2.step P) (MDRV2.init m files) es = some s) : s.ExclusiveLocks := by
  have hinit : ExclusionInv (MDRV2.init m files).lockTable :=
    ⟨MDRV2.fresh_init m files, Leases.exclusive_nil, nofun, nofun⟩
  have hi : ExclusionInv s.lockTable :=
    hg.invariant (I := fun s => ExclusionInv s.lockTable)
      (fun s e s' hi hu he => (s.step_lockStep P he).exclusionInv P hi hu) hinit hs
  exact ⟨hi.exclusive, fun a i session hh => (hi.held (a, i) session hh).2⟩

/-- The ACPI agent updates its table and locks it for reading, then a second reader is refused. -/
theorem run_exclusiveLocks_refused :
    ∃ s, Runs.exec (MDRV2.step .plain) (MDRV2.init .plain fun _ => none)
      [.dataStart (.plain acpiAgentId 4), .dataDone ⟨acpiAgentId, 1, true, none⟩,
        .lockData ⟨acpiAgentId, firstDataInfo, none⟩,
        .lockData ⟨acpiAgentId, firstDataInfo, none⟩] = some s ∧ s.ExclusiveLocks := by
  obtain ⟨s, hs⟩ := Option.isSome_iff_exists.mp (show (Runs.exec (MDRV2.step .plain)
    (MDRV2.init .plain fun _ => none) [.dataStart (.plain acpiAgentId 4),
      .dataDone ⟨acpiAgentId, 1, true, none⟩, .lockData ⟨acpiAgentId, firstDataInfo, none⟩,
      .lockData ⟨acpiAgentId, firstDataInfo, none⟩]).isSome by decide +kernel)
  exact ⟨s, hs, run_exclusiveLocks .plain .plain _ _ (by decide +kernel) hs⟩

/-- The ACPI agent updates its entry, and a reader locks it meanwhile. -/
def lockedWhileUpdating : MDRV2 :=
  (Runs.exec (MDRV2.step .plain) (MDRV2.init .plain fun _ => none)
    [.dataStart (.plain acpiAgentId 4), .lockData ⟨acpiAgentId, firstDataInfo, none⟩]).get
      (by decide +kernel)

/-- The second session has taken the entry of the first. -/
theorem not_exclusiveLocks :
    ¬ ∀ es s, Runs.exec (MDRV2.step .plain) (MDRV2.init .plain fun _ => none) es = some s →
      s.ExclusiveLocks := by
  intro h
  have hrun : Runs.exec (MDRV2.step .plain) (MDRV2.init .plain fun _ => none)
      [.dataStart (.plain acpiAgentId 4), .lockData ⟨acpiAgentId, firstDataInfo, none⟩] =
        some lockedWhileUpdating := (Option.some_get _).symm
  have hx := (h _ _ hrun).exclusive [.granted (0, 0) 1, .answered (0, 0)] (0, 0) 2
    [.answered (0, 0)] (by decide +kernel)
  exact absurd hx (by decide)

end MetaCommon.Mdrv2
