import MetaCommon.Lib.Runs
import MetaCommon.Mdrv2.LockStep

/-!
# The lock timer

One timer and one current agent serve the locks of both directories. The timer covers a lock as
long as no command in between looks another agent up, locks another entry or releases one.
-/

namespace MetaCommon.Mdrv2

variable (P : Platform)

/-- A locked entry has a running timer that unlocks it and nothing else, and an expiry touches only
the entry whose grant started the timer. -/
structure MDRV2.LocksTimed (s : MDRV2) : Prop where
  covered : ∀ a i, (s.entry a i).lockState.Locked → s.timer = true ∧
    ∃ s', s.timeoutHandler = some s' ∧ ¬ (s'.entry a i).lockState.Locked ∧
      ∀ b j, (b, j) ≠ (a, i) → s'.entry b j = s.entry b j
  expiry : s.timer = true → ∃ a i s', (Leases.table s.history).owner = some (a, i) ∧
    s.timeoutHandler = some s' ∧ ∀ b j, (b, j) ≠ (a, i) → s'.entry b j = s.entry b j

/-- The entry that `UnlockData` or `DataDone` finds. -/
def MDRV2.unlockRequest (s : MDRV2) (e : Event) : Option EntryIndex :=
  if e.unlocks then e.handle.bind fun h => s.found h.1 h.2 else none

/-- While an entry is locked, the event keeps the current agent at the agent of the entry, locks no
other entry and releases no other entry. -/
def Undisturbed (s : MDRV2) (e : Event) : Prop :=
  ∀ k, (s.lockTable.entry k).Locked →
    (∀ agentId ∈ e.lookup P, currentAfter agentId s.currentAgentIndex = some k.1) ∧
    (∀ q ∈ s.lockRequest P e, (s.lockTable.entry q.1).CanLock q.2 → q.1 = k) ∧
    ∀ k' ∈ s.unlockRequest e, (s.lockTable.entry k').stage ≠ .mdr2Init → k' = k

instance : DecidableRel (Undisturbed P) := fun s _ =>
  inferInstanceAs (Decidable (∀ k, (s.lockTable.entry k).Locked → _))

/-- Nothing is locked and the timer stands, or one entry is locked and the timer is set to it. -/
structure TimerInv (t : LockTable) : Prop where
  fresh : t.Fresh
  timed : (t.timer = false ∧ ∀ k, ¬ (t.entry k).Locked) ∨
    ∃ k, t.timer = true ∧ (Leases.table t.history).owner = some k ∧ t.current = some k.1 ∧
      t.lockIndex = k.2 ∧ (t.entry k).Locked ∧ ∀ k', (t.entry k').Locked → k' = k

namespace TimerInv

variable {t : LockTable}

theorem focus (h : TimerInv t) {c : Option AgentIndex}
    (hc : ∀ k, (t.entry k).Locked → t.current = some k.1 → c = some k.1) :
    TimerInv (t.focus c) := by
  refine ⟨h.fresh, ?_⟩
  rcases h.timed with hidle | ⟨k, ht, ho, hcur, hi, hk, hall⟩
  · exact .inl hidle
  · exact .inr ⟨k, ht, ho, hc k hk hcur, hi, hk, hall⟩

/-- A grant, if no other entry is locked. -/
theorem grant (h : TimerInv t) {k : EntryIndex} {l : EntryLock} (hs : l.stage ≠ .mdr2Init)
    (hl : l.Locked) (hk : ∀ k', (t.entry k').Locked → k' = k) :
    TimerInv ((t.focus (some k.1)).grant k l) := by
  refine ⟨LockTable.Fresh.grant (t := t.focus _) h.fresh hs, .inr ⟨k, rfl, ?_, rfl, rfl, ?_, ?_⟩⟩
  · simp [Leases.Table.record]
  · simpa using hl
  · intro k' hk'
    by_contra he
    rw [LockTable.grant_entry, Function.update_of_ne he] at hk'
    exact he (hk k' hk')

theorem note_answered (h : TimerInv t) (k : EntryIndex) : TimerInv (t.note (.answered k)) := by
  refine ⟨h.fresh, ?_⟩
  rcases h.timed with hidle | ⟨k', ht, ho, hrest⟩
  · exact .inl hidle
  · refine .inr ⟨k', ht, ?_, hrest⟩
    simpa [Leases.Table.record] using ho

/-- A release, if no other entry is locked. -/
theorem release (h : TimerInv t) {k : EntryIndex} (hs : (t.entry k).stage ≠ .mdr2Init)
    (hk : ∀ k', (t.entry k').Locked → k' = k) (current : Option AgentIndex)
    (history : List LockEvent) :
    TimerInv { t.release k with current := current, history := history } := by
  refine ⟨h.fresh.release k, .inl ⟨rfl, fun k' hk' => ?_⟩⟩
  by_cases he : k' = k
  · subst he
    simp only [LockTable.release_entry, Function.update_self] at hk'
    exact (t.entry k').not_locked_release hs hk'
  · simp only [LockTable.release_entry, Function.update_of_ne he] at hk'
    exact he (hk k' hk')

end TimerInv

theorem MDRV2.timerInv_init (m : Memory) (files : String → Option TableFile) :
    TimerInv (MDRV2.init m files).lockTable := by
  refine ⟨fresh_init m files, .inl ⟨rfl, fun k hk => ?_⟩⟩
  rw [init_lockTable_entry] at hk
  rcases hk with hk | hk <;> cases hk

/-- An undisturbed event keeps the timer on the locked entry. -/
theorem MDRV2.LockStep.timerInv {s : MDRV2} {e : Event} {t : LockTable} (h : s.LockStep P e t)
    (hi : TimerInv s.lockTable) (hu : Undisturbed P s e) : TimerInv t := by
  have only {k : EntryIndex} {flag : Bool} (hq : s.lockRequest P e = some (k, flag))
      (hc : (s.lockTable.entry k).CanLock flag) (k' : EntryIndex)
      (hk' : (s.lockTable.entry k').Locked) : k' = k :=
    ((hu k' hk').2.1 (k, flag) hq hc).symm
  cases h with
  | stays =>
    apply hi.focus
    intro k hk hcur
    unfold Event.current
    split
    · next agentId hl => exact (hu k hk).1 agentId hl
    · exact hcur
  | grants k flag session hq hc =>
    exact (hi.grant (EntryLock.grant_stage_ne_init _ _ _) (EntryLock.locked_grant _ _ _)
      (only hq hc)).note_answered k
  | keeps k flag session hq hc =>
    exact hi.grant (EntryLock.grant_stage_ne_init _ _ _) (EntryLock.locked_grant _ _ _)
      (only hq hc)
  | returns k flag session hq hc =>
    have hg := hi.grant (l := (s.lockTable.entry k).grant flag session)
      (EntryLock.grant_stage_ne_init _ _ _) (EntryLock.locked_grant _ _ _) (only hq hc)
    refine hg.release ?_ ?_ _ _
    · rw [LockTable.grant_entry, Function.update_self]
      exact EntryLock.grant_stage_ne_init _ _ _
    · intro k' hk'
      by_contra he
      rw [LockTable.grant_entry, Function.update_of_ne he] at hk'
      exact he (only hq hc k' hk')
  | releases k agentId lockHandle hh hun hf hs =>
    have hreq : s.unlockRequest e = some k := by simp [unlockRequest, hh, hun, hf]
    exact hi.release hs (fun k' hk' => ((hu k' hk').2.2 k hreq hs).symm) _ _
  | expires a he ht hc =>
    rcases hi.timed with ⟨hoff, _⟩ | ⟨k, _, _, hcur, hidx, hk, hall⟩
    · exact absurd (hoff.symm.trans ht) nofun
    · have ha : a = k.1 := Option.some.inj (hc.symm.trans hcur)
      have hk' : (a, s.lockTable.lockIndex) = k := Prod.ext ha hidx
      rw [LockTable.expire, hk']
      exact hi.release (hi.fresh.stage_ne_init hk) hall _ _

theorem TimerInv.locksTimed {s : MDRV2} (h : TimerInv s.lockTable) : s.LocksTimed := by
  rcases h.timed with ⟨hoff, hidle⟩ | ⟨⟨a, i⟩, ht, howner, hcur, hidx, hk, hall⟩
  · exact ⟨fun a i hk => absurd hk (hidle (a, i)), fun ht => absurd (hoff.symm.trans ht) nofun⟩
  · obtain ⟨s', hs', htab, hframe⟩ := s.timeoutHandler_of_current hcur
    have hidx' : s.lockIndex = i := hidx
    rw [hidx'] at hframe
    have hfree : ¬ (s'.lockTable.entry (a, i)).Locked := by
      have hkey : (a, s.lockTable.lockIndex) = (a, i) := congrArg (Prod.mk a) hidx
      rw [htab, LockTable.expire_entry, hkey, Function.update_self]
      exact EntryLock.not_locked_release _ (h.fresh.stage_ne_init hk)
    constructor
    · intro b j hb
      obtain ⟨rfl, rfl⟩ := Prod.mk.inj (hall (b, j) hb)
      exact ⟨ht, s', hs', hfree, hframe⟩
    · intro _
      exact ⟨a, i, s', howner, hs', hframe⟩

/-- After every undisturbed run the locks are timed. -/
theorem run_locksTimed (m : Memory) (files : String → Option TableFile) (es : List Event)
    (hg : Runs.ExecGuarded (MDRV2.step P) (Undisturbed P) (MDRV2.init m files) es) {s : MDRV2}
    (hs : Runs.exec (MDRV2.step P) (MDRV2.init m files) es = some s) : s.LocksTimed := by
  have hi : TimerInv s.lockTable :=
    hg.invariant (I := fun s => TimerInv s.lockTable)
      (fun s e s' hi hu he => (s.step_lockStep P he).timerInv P hi hu)
      (MDRV2.timerInv_init m files) hs
  exact hi.locksTimed

/-- The ACPI agent starts an update and releases it, then the SMBIOS agent's update expires. -/
theorem run_locksTimed_handover :
    ∃ s, Runs.exec (MDRV2.step .plain) (MDRV2.init .plain fun _ => none)
      [.dataStart (.plain acpiAgentId 4), .unlockData ⟨acpiAgentId, 1⟩,
        .dataStart (.plain smbiosAgentId 4), .timeout] = some s ∧ s.LocksTimed := by
  obtain ⟨s, hs⟩ := Option.isSome_iff_exists.mp (show (Runs.exec (MDRV2.step .plain)
    (MDRV2.init .plain fun _ => none) [.dataStart (.plain acpiAgentId 4),
      .unlockData ⟨acpiAgentId, 1⟩, .dataStart (.plain smbiosAgentId 4), .timeout]).isSome by
        decide +kernel)
  exact ⟨s, hs, run_locksTimed .plain .plain _ _ (by decide +kernel) hs⟩

/-- The ACPI agent updates its entry and the SMBIOS agent is looked up. -/
def lookedUpWhileLocked : MDRV2 :=
  (Runs.exec (MDRV2.step .plain) (MDRV2.init .plain fun _ => none)
    [.dataStart (.plain acpiAgentId 4), .agentLookup smbiosAgentId]).get (by decide +kernel)

/-- The lookup of the other agent has left the locked entry without a timer. -/
theorem not_locksTimed :
    ¬ ∀ es s, Runs.exec (MDRV2.step .plain) (MDRV2.init .plain fun _ => none) es = some s →
      s.LocksTimed := by
  intro h
  have hrun : Runs.exec (MDRV2.step .plain) (MDRV2.init .plain fun _ => none)
      [.dataStart (.plain acpiAgentId 4), .agentLookup smbiosAgentId] =
        some lookedUpWhileLocked := (Option.some_get _).symm
  obtain ⟨_, s', hs', hfree, _⟩ := (h _ _ hrun).covered 0 0 (by decide +kernel)
  have hlocked : lookedUpWhileLocked.timeoutHandler.all
      (fun s' => (s'.entry 0 0).lockState.Locked) = true := by decide +kernel
  rw [hs'] at hlocked
  exact hfree (by simpa using hlocked)

end MetaCommon.Mdrv2
