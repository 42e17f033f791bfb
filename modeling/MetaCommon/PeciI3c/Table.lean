import Mathlib.Data.Finset.Card
import MetaCommon.PeciI3c.Slots

/-!
# The handle table

Each lock of the I3C device owns a slot and the descriptors in its array, which nothing else has
opened; unlocking the handle closes these and frees the slot, and a lock that fails leaves no
descriptor open. This needs that every CPU number is below `MAX_CPUS` and that `peci_Unlock` is
given a handle that is live, or a number that stands for nothing.
-/

namespace MetaCommon.PeciI3c

variable {c : Config}

def Event.Fits (c : Config) : Event → Prop
  | .lock l => ∀ t ∈ l.attempts, t.2.Fits c
  | .unlock _ => True

instance (c : Config) : DecidablePred (Event.Fits c)
  | .lock l => inferInstanceAs (Decidable (∀ t ∈ l.attempts, t.2.Fits c))
  | .unlock _ => inferInstanceAs (Decidable True)

namespace Client

/-- The live handles are told apart, at most 64 of them have slots, and each owns descriptors that
are open and are the ones in its own array. -/
structure Sound (s : Client) : Prop where
  distinct : (s.live.map Prod.fst).Nodup
  atMost : (s.live.filter fun h => handleMin ≤ h.1).length ≤ handleCnt
  own : ∀ h ∈ s.live, handleMin ≤ h.1 → ∃ arr ∈ s.lib.fds (handleMax - h.1),
    (fdsOf arr).Nodup ∧ (fdsOf arr).toFinset = h.2
  usable : ∀ h ∈ s.live, h.2 ⊆ s.lib.opened
  disjoint : s.live.Pairwise fun h h' => Disjoint h.2 h'.2

/-- A lock that fails changes nothing; one that succeeds makes one handle live, which owns the
descriptors opened by the call. With all slots taken, a lock of the I3C device fails. -/
def LockSound (c : Config) (s : Client) (l : LockCall) (s' : Client) : Prop :=
  (s'.reply = some (.locked none) ∧ s'.lib = s.lib ∧ s'.live = s.live ∨
    ∃ h, s'.reply = some (.locked (some h)) ∧ s.lib.opened ⊆ s'.lib.opened ∧
      s'.live = (h, s'.lib.opened \ s.lib.opened) :: s.live) ∧
  ((s.live.filter fun h => handleMin ≤ h.1).length = handleCnt →
    (∀ t ∈ l.attempts, PeciState.isI3c c t.1) → s'.reply = some (.locked none))

/-- An unlock of a live handle closes each of its descriptors once and no other; any other unlock
fails and changes nothing. -/
def UnlockSound (s : Client) (peciFd : ℤ) (s' : Client) : Prop :=
  (∀ h ∈ s.live, (h.1 : ℤ) = peciFd →
    s'.reply = some (.unlocked (List.replicate h.2.card true)) ∧
    s'.lib.opened = s.lib.opened \ h.2 ∧ s'.live = s.live.filter fun h' => h'.1 ≠ h.1) ∧
  ((∀ h ∈ s.live, (h.1 : ℤ) ≠ peciFd) →
    s'.reply = some (.unlocked [false]) ∧ s'.lib = s.lib ∧ s'.live = s.live)

/-- The call returns, and does what it should. -/
def CallSound (c : Config) (s : Client) (e : Event) : Prop :=
  ∃ s', s.step c e = some s' ∧ s'.Sound ∧
    match e with
    | .lock l => LockSound c s l s'
    | .unlock peciFd => UnlockSound s peciFd s'

/-- `peci_Unlock` is given a live handle, or a number outside the range of the handles that is not
an open descriptor. -/
def UnlockFits (s : Client) : Event → Prop
  | .lock _ => True
  | .unlock peciFd => (∃ h ∈ s.live, (h.1 : ℤ) = peciFd) ∨
      ¬ ((handleMin : ℤ) ≤ peciFd ∧ peciFd ≤ handleMax) ∧
      ¬ (0 ≤ peciFd ∧ peciFd.toNat ∈ s.lib.opened)

instance : DecidableRel UnlockFits
  | _, .lock _ => inferInstanceAs (Decidable True)
  | s, .unlock peciFd => inferInstanceAs (Decidable ((∃ h ∈ s.live, (h.1 : ℤ) = peciFd) ∨ _ ∧ _))

structure TableInv (s : Client) : Prop where
  distinct : (s.live.map Prod.fst).Nodup
  slot : ∀ h ∈ s.live, handleMin ≤ h.1 → h.1 ≤ handleMax ∧ ∃ arr ∈ s.lib.fds (handleMax - h.1),
    (fdsOf arr).Nodup ∧ (fdsOf arr).toFinset = h.2
  plain : ∀ h ∈ s.live, h.1 < handleMin → h.2 = {h.1}
  owner : ∀ i, (s.lib.fds i).isSome → i < handleCnt ∧ ∃ f, (handleMax - i, f) ∈ s.live
  opened : ∀ h ∈ s.live, h.2 ⊆ s.lib.opened
  disjoint : s.live.Pairwise fun h h' => Disjoint h.2 h'.2

variable {s s' : Client}

theorem tableInv_init (o : Finset ℕ) : TableInv (init o) :=
  ⟨List.nodup_nil, nofun, nofun, nofun, nofun, .nil⟩

/-- The slots of the live handles that have one. -/
def slots (s : Client) : List ℕ :=
  (s.live.filter fun h => handleMin ≤ h.1).map fun h => handleMax - h.1

theorem mem_slots {i : ℕ} : i ∈ s.slots ↔ ∃ h ∈ s.live, handleMin ≤ h.1 ∧ handleMax - h.1 = i := by
  simp [slots, and_assoc]

theorem TableInv.slots_nodup (h : s.TableInv) : s.slots.Nodup := by
  have hnodup : (s.live.filter fun h => handleMin ≤ h.1).Nodup := h.distinct.of_map.filter _
  refine hnodup.map_on fun x hx y hy hxy => ?_
  obtain ⟨hx, hxmin⟩ := List.mem_filter.mp hx
  obtain ⟨hy, hymin⟩ := List.mem_filter.mp hy
  have hxmax := (h.slot x hx (of_decide_eq_true hxmin)).1
  have hymax := (h.slot y hy (of_decide_eq_true hymin)).1
  exact List.inj_on_of_nodup_map h.distinct hx hy (by omega)

theorem slots_subset : s.slots ⊆ List.range handleCnt := by
  intro i hi
  obtain ⟨x, hx, hmin, rfl⟩ := mem_slots.mp hi
  rw [List.mem_range]
  unfold handleMin at hmin
  unfold handleMax handleCnt at *
  omega

theorem TableInv.sound (h : s.TableInv) : s.Sound := by
  refine ⟨h.distinct, ?_, fun x hx hmin => (h.slot x hx hmin).2, h.opened, h.disjoint⟩
  have hle := (h.slots_nodup.subperm slots_subset).length_le
  rwa [slots, List.length_map, List.length_range] at hle

/-- With 64 live handles that have slots, there is no free slot. -/
theorem TableInv.freeSlot_eq_none (h : s.TableInv)
    (hfull : (s.live.filter fun h => handleMin ≤ h.1).length = handleCnt) :
    s.lib.freeSlot = none := by
  have hperm : s.slots.Perm (List.range handleCnt) :=
    (h.slots_nodup.subperm slots_subset).perm_of_length_le
      (by rw [slots, List.length_map, hfull, List.length_range])
  refine List.find?_eq_none.mpr fun i hi => ?_
  obtain ⟨x, hx, hmin, rfl⟩ := mem_slots.mp (hperm.mem_iff.mpr hi)
  obtain ⟨-, arr, harr, -⟩ := h.slot x hx hmin
  simp [Option.mem_def.mp harr]

theorem TableInv.lock_slot (h : s.TableInv) {idx : ℕ} {arr : List (Option ℕ)} {lib : PeciState}
    {r : Option Reply} (hlt : idx < handleCnt) (hnone : s.lib.fds idx = none)
    (hf : PeciState.Filled c s.lib idx arr lib) :
    TableInv ⟨lib, (handleMax - idx, lib.opened \ s.lib.opened) :: s.live, r⟩ := by
  have hidx : handleMax - (handleMax - idx) = idx := by
    unfold handleMax handleCnt at *
    omega
  have hnew : lib.opened \ s.lib.opened = (fdsOf arr).toFinset := by
    rw [hf.opened, Finset.union_sdiff_left]
    exact Finset.sdiff_eq_self_of_disjoint (Finset.disjoint_left.mpr fun fd hfd =>
      hf.fresh fd (List.mem_toFinset.mp hfd))
  have hold : ∀ x ∈ s.live, handleMin ≤ x.1 → handleMax - x.1 ≠ idx := by
    rintro x hx hmin rfl
    obtain ⟨-, arr', harr, -⟩ := h.slot x hx hmin
    cases hnone.symm.trans harr
  have hmin : handleMin ≤ handleMax - idx := by
    unfold handleMin handleMax handleCnt at *
    omega
  refine ⟨?_, ?_, ?_, ?_, ?_, ?_⟩
  · refine List.nodup_cons.mpr ⟨fun hmem => ?_, h.distinct⟩
    obtain ⟨x, hx, hxi⟩ := List.mem_map.mp hmem
    refine hold x hx (hxi ▸ hmin) ?_
    rw [hxi, hidx]
  · refine List.forall_mem_cons.mpr ⟨fun _ => ⟨Nat.sub_le _ _, arr, ?_, hf.nodup, hnew.symm⟩, ?_⟩
    · rw [hidx, hf.fds, Function.update_self]
      rfl
    · intro x hx hxmin
      rw [hf.fds, Function.update_of_ne (hold x hx hxmin)]
      exact h.slot x hx hxmin
  · exact List.forall_mem_cons.mpr ⟨fun hlow => absurd hmin (Nat.not_le.mpr hlow), h.plain⟩
  · intro i hi
    by_cases he : i = idx
    · subst he
      exact ⟨hlt, _, List.mem_cons_self⟩
    · rw [hf.fds, Function.update_of_ne he] at hi
      obtain ⟨hi, f, hmem⟩ := h.owner i hi
      exact ⟨hi, f, List.mem_cons_of_mem _ hmem⟩
  · refine List.forall_mem_cons.mpr ⟨Finset.sdiff_subset, fun x hx => ?_⟩
    rw [hf.opened]
    exact (h.opened x hx).trans Finset.subset_union_left
  · refine List.pairwise_cons.mpr ⟨fun x hx => ?_, h.disjoint⟩
    exact Finset.disjoint_of_subset_right (h.opened x hx) Finset.sdiff_disjoint

theorem TableInv.lock_plain (h : s.TableInv) {fd : ℕ} {r : Option Reply} (hlt : fd < handleMin)
    (hfresh : fd ∉ s.lib.opened) :
    TableInv ⟨{ s.lib with opened := insert fd s.lib.opened },
      (fd, insert fd s.lib.opened \ s.lib.opened) :: s.live, r⟩ := by
  have hnew : insert fd s.lib.opened \ s.lib.opened = {fd} := by
    ext x
    simp only [Finset.mem_sdiff, Finset.mem_insert, Finset.mem_singleton]
    constructor
    · rintro ⟨rfl | hx, hno⟩
      · rfl
      · exact absurd hx hno
    · rintro rfl
      exact ⟨.inl rfl, hfresh⟩
  refine ⟨?_, ?_, ?_, ?_, ?_, ?_⟩
  · refine List.nodup_cons.mpr ⟨fun hmem => ?_, h.distinct⟩
    obtain ⟨x, hx, rfl⟩ := List.mem_map.mp hmem
    have hown := h.opened x hx
    rw [h.plain x hx hlt, Finset.singleton_subset_iff] at hown
    exact hfresh hown
  · exact List.forall_mem_cons.mpr ⟨fun hmin => absurd hmin (Nat.not_le.mpr hlt), h.slot⟩
  · exact List.forall_mem_cons.mpr ⟨fun _ => hnew, h.plain⟩
  · intro i hi
    obtain ⟨hi, f, hmem⟩ := h.owner i hi
    exact ⟨hi, f, List.mem_cons_of_mem _ hmem⟩
  · refine List.forall_mem_cons.mpr ⟨Finset.sdiff_subset, fun x hx => ?_⟩
    exact (h.opened x hx).trans (Finset.subset_insert _ _)
  · refine List.pairwise_cons.mpr ⟨fun x hx => ?_, h.disjoint⟩
    exact Finset.disjoint_of_subset_right (h.opened x hx) Finset.sdiff_disjoint

theorem TableInv.step_lock (h : s.TableInv) {l : LockCall} (hfit : (Event.lock l).Fits c) :
    ∃ s', s.step c (.lock l) = some s' ∧ s'.TableInv ∧ LockSound c s l s' := by
  obtain ⟨r, lib, he, ho, hfull⟩ := PeciState.tryOpen_opens (s := s.lib) hfit
  have hlast : (s.live.filter fun h => handleMin ≤ h.1).length = handleCnt →
      (∀ t ∈ l.attempts, PeciState.isI3c c t.1) → some (Reply.locked r) = some (.locked none) :=
    fun hcount hi => by rw [hfull hi (h.freeSlot_eq_none hcount)]
  cases ho with
  | fails =>
    refine ⟨⟨s.lib, s.live, some (.locked none)⟩, ?_, ?_, .inl ⟨rfl, rfl, rfl⟩, hlast⟩
    · simp [step, PeciState.peciLock, he]
    · exact ⟨h.distinct, h.slot, h.plain, h.owner, h.opened, h.disjoint⟩
  | slot idx arr _ hlt hnone hfill =>
    refine ⟨⟨lib, _ :: s.live, some (.locked (some (handleMax - idx)))⟩, ?_,
      h.lock_slot hlt hnone hfill, .inr ⟨_, rfl, ?_, rfl⟩, hlast⟩
    · simp [step, PeciState.peciLock, he]
    · rw [hfill.opened]
      exact Finset.subset_union_left
  | plain fd hlt hfresh =>
    refine ⟨⟨_, _ :: s.live, some (.locked (some fd))⟩, ?_, h.lock_plain hlt hfresh,
      .inr ⟨_, rfl, Finset.subset_insert _ _, rfl⟩, hlast⟩
    simp [step, PeciState.peciLock, he]

/-- What is left of the table after a live handle has been taken out. -/
theorem TableInv.without (h : s.TableInv) {x : ℕ × Finset ℕ} (hx : x ∈ s.live)
    {fds : ℕ → Option (List (Option ℕ))} {r : Option Reply}
    (hfds : ∀ i, i ≠ handleMax - x.1 ∨ x.1 < handleMin → fds i = s.lib.fds i)
    (hnone : handleMin ≤ x.1 → fds (handleMax - x.1) = none) :
    TableInv ⟨⟨fds, s.lib.opened \ x.2⟩, s.live.filter fun y => y.1 ≠ x.1, r⟩ := by
  have hother : ∀ y ∈ s.live.filter (fun y => y.1 ≠ x.1), y ∈ s.live ∧ y.1 ≠ x.1 := by
    intro y hy
    simpa using List.mem_filter.mp hy
  have hindex : ∀ y ∈ s.live, y.1 ≠ x.1 → handleMin ≤ y.1 →
      handleMax - y.1 ≠ handleMax - x.1 ∨ x.1 < handleMin := by
    intro y hy hne hmin
    by_cases hxmin : handleMin ≤ x.1
    · have hymax := (h.slot y hy hmin).1
      have hxmax := (h.slot x hx hxmin).1
      omega
    · exact .inr (Nat.not_le.mp hxmin)
  have hdisj : ∀ y ∈ s.live, y.1 ≠ x.1 → Disjoint y.2 x.2 := by
    intro y hy hne
    let R (a b : ℕ × Finset ℕ) : Prop := a.1 ≠ b.1 → Disjoint a.2 b.2
    have hR : s.live.Pairwise R := List.Pairwise.imp (S := R) (fun hd _ => hd) h.disjoint
    have hflip : s.live.Pairwise (flip R) :=
      List.Pairwise.imp (S := flip R) (fun hd _ => hd.symm) h.disjoint
    exact hR.forall_of_forall_of_flip (fun a _ hne => absurd rfl hne) hflip hy hx hne
  refine ⟨?_, ?_, ?_, ?_, ?_, ?_⟩
  · exact h.distinct.sublist (List.filter_sublist.map _)
  · intro y hy hmin
    obtain ⟨hy, hne⟩ := hother y hy
    have hslot := h.slot y hy hmin
    rwa [← hfds _ (hindex y hy hne hmin)] at hslot
  · intro y hy
    exact h.plain y (hother y hy).1
  · intro i hi
    replace hi : (fds i).isSome := hi
    have hi' : i ≠ handleMax - x.1 ∨ x.1 < handleMin := by
      by_contra hno
      push Not at hno
      rw [hno.1, hnone hno.2] at hi
      cases hi
    rw [hfds i hi'] at hi
    obtain ⟨hlt, f, hmem⟩ := h.owner i hi
    refine ⟨hlt, f, List.mem_filter.mpr ⟨hmem, ?_⟩⟩
    simp only [decide_eq_true_eq]
    unfold handleMin handleMax handleCnt at *
    omega
  · intro y hy
    obtain ⟨hy, hne⟩ := hother y hy
    exact Finset.subset_sdiff.mpr ⟨h.opened y hy, hdisj y hy hne⟩
  · exact h.disjoint.filter _

theorem filter_live_cast (n : ℕ) : (s.live.filter fun y => (y.1 : ℤ) ≠ (n : ℤ)) =
    s.live.filter fun y => y.1 ≠ n := by
  refine List.filter_congr fun y _ => decide_eq_decide.mpr ?_
  rw [ne_eq, Int.natCast_inj]

theorem TableInv.step_unlock_live (h : s.TableInv) {x : ℕ × Finset ℕ} (hx : x ∈ s.live) :
    ∃ s', s.step c (.unlock x.1) = some s' ∧ s'.TableInv ∧
      s'.reply = some (.unlocked (List.replicate x.2.card true)) ∧
      s'.lib.opened = s.lib.opened \ x.2 ∧ s'.live = s.live.filter fun y => y.1 ≠ x.1 := by
  by_cases hmin : handleMin ≤ x.1
  · obtain ⟨hmax, arr, harr, hnodup, harr'⟩ := h.slot x hx hmin
    have hopen : ∀ fd ∈ fdsOf arr, fd ∈ s.lib.opened := fun fd hfd =>
      h.opened x hx (harr' ▸ List.mem_toFinset.mpr hfd)
    have hclose := PeciState.closeAll_eq hnodup hopen
    rw [harr', ← List.toFinset_card_of_nodup hnodup, harr'] at hclose
    have hrange : (handleMin : ℤ) ≤ x.1 ∧ (x.1 : ℤ) ≤ handleMax := by omega
    have hunlock : s.lib.peciUnlock x.1 = some (List.replicate x.2.card true,
        ⟨Function.update s.lib.fds (handleMax - x.1) none, s.lib.opened \ x.2⟩) := by
      simp only [PeciState.peciUnlock, if_pos hrange, Int.toNat_natCast, Option.mem_def.mp harr,
        hclose]
    refine ⟨⟨⟨Function.update s.lib.fds (handleMax - x.1) none, s.lib.opened \ x.2⟩,
      s.live.filter fun y => y.1 ≠ x.1, _⟩, ?_, h.without hx ?_ ?_, rfl, rfl, rfl⟩
    · simp only [step, hunlock, Option.map_some, filter_live_cast]
    · rintro i (hi | hi)
      · exact Function.update_of_ne hi _ _
      · exact absurd hmin (Nat.not_le.mpr hi)
    · exact fun _ => Function.update_self _ _ _
  · have hlow := Nat.not_le.mp hmin
    have hown := h.plain x hx hlow
    have hopen := h.opened x hx
    rw [hown, Finset.singleton_subset_iff] at hopen
    have hrange : ¬ ((handleMin : ℤ) ≤ x.1 ∧ (x.1 : ℤ) ≤ handleMax) := by omega
    have hunlock : s.lib.peciUnlock x.1 = some (List.replicate x.2.card true,
        ⟨s.lib.fds, s.lib.opened \ x.2⟩) := by
      simp only [PeciState.peciUnlock, if_neg hrange, PeciState.closeFd, Int.toNat_natCast, hopen,
        Int.natCast_nonneg, and_self, if_true, hown, Finset.card_singleton, List.replicate_one,
        Finset.sdiff_singleton_eq_erase]
    refine ⟨⟨⟨s.lib.fds, s.lib.opened \ x.2⟩, s.live.filter fun y => y.1 ≠ x.1,
      some (.unlocked (List.replicate x.2.card true))⟩, ?_,
      h.without hx (fun _ _ => rfl) (fun hm => absurd hm hmin), rfl, rfl, rfl⟩
    simp only [step, hunlock, Option.map_some, filter_live_cast]

theorem TableInv.step_unlock_dead (h : s.TableInv) {peciFd : ℤ}
    (hdead : ∀ x ∈ s.live, (x.1 : ℤ) ≠ peciFd)
    (hrange : ¬ ((handleMin : ℤ) ≤ peciFd ∧ peciFd ≤ handleMax))
    (hclosed : ¬ (0 ≤ peciFd ∧ peciFd.toNat ∈ s.lib.opened)) :
    ∃ s', s.step c (.unlock peciFd) = some s' ∧ s'.TableInv ∧
      s'.reply = some (.unlocked [false]) ∧ s'.lib = s.lib ∧ s'.live = s.live := by
  have hfilter : (s.live.filter fun x => (x.1 : ℤ) ≠ peciFd) = s.live :=
    List.filter_eq_self.mpr fun x hx => decide_eq_true (hdead x hx)
  refine ⟨⟨s.lib, s.live, some (.unlocked [false])⟩, ?_,
    ⟨h.distinct, h.slot, h.plain, h.owner, h.opened, h.disjoint⟩, rfl, rfl, rfl⟩
  simp only [step, PeciState.peciUnlock, if_neg hrange, PeciState.closeFd, if_neg hclosed,
    Option.map_some, hfilter]

/-- A call does what it should exactly where its argument fits. -/
theorem TableInv.callSound_iff (h : s.TableInv) {e : Event} (hfit : e.Fits c) :
    CallSound c s e ↔ UnlockFits s e := by
  cases e with
  | lock l =>
    obtain ⟨s', hs, h', hsound⟩ := h.step_lock hfit
    exact iff_of_true ⟨s', hs, h'.sound, hsound⟩ trivial
  | unlock peciFd =>
    by_cases hlive : ∃ x ∈ s.live, (x.1 : ℤ) = peciFd
    · refine iff_of_true ?_ (.inl hlive)
      obtain ⟨x, hx, rfl⟩ := hlive
      obtain ⟨s', hs, h', hclosed⟩ := h.step_unlock_live (c := c) hx
      refine ⟨s', hs, h'.sound, fun y hy hxy => ?_, fun hno => absurd rfl (hno x hx)⟩
      obtain rfl : y = x :=
        List.inj_on_of_nodup_map h.distinct hy hx (Int.natCast_inj.mp hxy)
      exact hclosed
    · have hdead : ∀ x ∈ s.live, (x.1 : ℤ) ≠ peciFd := fun x hx he => hlive ⟨x, hx, he⟩
      constructor
      · rintro ⟨s', hs, -, -, hno⟩
        obtain ⟨hreply, -⟩ := hno hdead
        have hrange : ¬ ((handleMin : ℤ) ≤ peciFd ∧ peciFd ≤ handleMax) := by
          intro hrange
          cases hslot : s.lib.fds (handleMax - peciFd.toNat) with
          | none => simp [step, PeciState.peciUnlock, if_pos hrange, hslot] at hs
          | some arr =>
            obtain ⟨-, f, hmem⟩ := h.owner _ (Option.isSome_of_eq_some hslot)
            refine hdead _ hmem ?_
            simp only
            omega
        refine .inr ⟨hrange, fun hopen => ?_⟩
        simp only [step, PeciState.peciUnlock, if_neg hrange, PeciState.closeFd, if_pos hopen,
          Option.map_some, Option.some.injEq] at hs
        subst hs
        cases hreply
      · rintro (hx | ⟨hrange, hclosed⟩)
        · exact absurd hx hlive
        · obtain ⟨s', hs, h', hsame⟩ := h.step_unlock_dead (c := c) hdead hrange hclosed
          exact ⟨s', hs, h'.sound, fun x hx he => absurd he (hdead x hx), fun _ => hsame⟩

theorem TableInv.step (h : s.TableInv) {e : Event} (hfit : e.Fits c) (hu : UnlockFits s e)
    (hs : s.step c e = some s') : s'.TableInv := by
  cases e with
  | lock l =>
    obtain ⟨t, ht, h', -⟩ := h.step_lock hfit
    obtain rfl := Option.some.inj (hs.symm.trans ht)
    exact h'
  | unlock peciFd =>
    by_cases hlive : ∃ x ∈ s.live, (x.1 : ℤ) = peciFd
    · obtain ⟨x, hx, rfl⟩ := hlive
      obtain ⟨t, ht, h', -⟩ := h.step_unlock_live (c := c) hx
      obtain rfl := Option.some.inj (hs.symm.trans ht)
      exact h'
    · obtain ⟨hrange, hclosed⟩ := hu.resolve_left hlive
      obtain ⟨t, ht, h', -⟩ := h.step_unlock_dead (c := c) (fun x hx he => hlive ⟨x, hx, he⟩)
        hrange hclosed
      obtain rfl := Option.some.inj (hs.symm.trans ht)
      exact h'

/-- Where no device node has a CPU number from `MAX_CPUS` on, every call of a run does what it
should if and only if every unlock in it is given a live handle, or a number outside the range of
the handles that is not an open descriptor. -/
theorem run_callSound_iff (c : Config) (o : Finset ℕ) (es : List Event)
    (hfit : ∀ e ∈ es, e.Fits c) :
    Runs.ExecGuarded (step c) (CallSound c) (init o) es ↔
      Runs.ExecGuarded (step c) UnlockFits (init o) es :=
  Runs.execGuarded_congr (fun _ e he _ h hu hs => h.step (hfit e he) hu hs)
    (fun _ e he h => h.callSound_iff (hfit e he)) (tableInv_init o)

/-! A kernel that gives the lowest unused number below 1024, as for eight CPUs. -/

def lowestUnused : Kernel where
  allocate o := (List.range 1024).find? fun fd => fd ∉ o
  allocate_fresh _ _ h := by
    have hfresh := List.find?_some (Option.mem_def.mp h)
    exact of_decide_eq_true hfresh
  allocate_lt _ _ h := by
    have hlt := List.mem_range.mp (List.mem_of_find?_eq_some (Option.mem_def.mp h))
    unfold handleMin handleMax handleCnt
    omega

def eightCpus : Config := ⟨lowestUnused, 8, 64⟩

/-- A lock of the I3C device with one node, of the CPU number in bits 12 to 15 of `pid`. -/
def lockNode (pid : UInt64) : Event :=
  .lock ⟨"/dev/peci-i3c".toList, none, ⟨false, false, true, some [⟨true, some pid, true⟩]⟩,
    ⟨false, false, false, none⟩, []⟩

def lockRun : List Event :=
  [lockNode 0x1000, lockNode 0x1000, .unlock handleMax, .unlock (-1), lockNode 0]

theorem run_callSound_iff_lock :
    Runs.ExecGuarded (step eightCpus) (CallSound eightCpus) (init {0, 1, 2}) lockRun :=
  (run_callSound_iff eightCpus {0, 1, 2} lockRun (by decide +kernel)).mpr (by decide +kernel)

/-- Unlocking a handle that was never given out, a node whose CPU number is 8, and unlocking the
number of a descriptor that belongs to a live handle. -/
theorem not_run_callSound :
    (¬ Runs.ExecGuarded (step eightCpus) (CallSound eightCpus) (init ∅) [.unlock handleMax] ∧
    ¬ Runs.ExecGuarded (step eightCpus) (CallSound eightCpus) (init ∅) [lockNode 0x8000]) ∧
    ¬ Runs.ExecGuarded (step eightCpus) (CallSound eightCpus) (init ∅)
      [lockNode 0x1000, .unlock 1] := by
  refine ⟨⟨?_, ?_⟩, ?_⟩
  · rintro ⟨⟨s', hs, -⟩, -⟩
    cases hs
  · rintro ⟨⟨s', hs, -⟩, -⟩
    have hnone : (init ∅).step eightCpus (lockNode 0x8000) = none :=
      Option.isNone_iff_eq_none.mp (by decide +kernel)
    cases hnone.symm.trans hs
  · intro hg
    have hlock := Option.some_get (x := (init ∅).step eightCpus (lockNode 0x1000))
      (by decide +kernel)
    obtain ⟨s', hs, -, -, hdead⟩ := (hg.tail hlock.symm).1
    obtain ⟨-, hlib, -⟩ := hdead (by decide +kernel)
    have hopened := congrArg PeciState.opened hlib
    obtain rfl := Option.some.inj hs
    revert hopened
    decide +kernel

end Client

end MetaCommon.PeciI3c
