import Mathlib.Data.Finset.Lattice.Lemmas
import MetaCommon.PeciI3c.Handles

/-!
# Slots and their descriptors

What the calls of the library can do: a lock fills the lowest free slot with descriptors that were
not open before, opens one descriptor, or changes nothing; an unlock closes what is in a slot.
-/

namespace MetaCommon.PeciI3c

variable {c : Config}

/-! ### What a lock opens -/

@[simp] theorem fdsOf_replicate (n : ℕ) : fdsOf (List.replicate n none) = [] := by
  induction n with
  | zero => rfl
  | succ n ih => exact ih

theorem fdsOf_set_perm {arr : List (Option ℕ)} {cpu fd : ℕ} (h : arr[cpu]? = some none) :
    (fdsOf (arr.set cpu (some fd))).Perm (fd :: fdsOf arr) := by
  induction arr generalizing cpu with
  | nil => cases h
  | cons a arr ih =>
    cases cpu with
    | zero =>
      obtain rfl : a = none := Option.some.inj h
      exact .refl _
    | succ cpu =>
      have hp : (fdsOf (arr.set cpu (some fd))).Perm (fd :: fdsOf arr) := ih h
      cases a with
      | none => exact hp
      | some fd' => exact (hp.cons fd').trans (.swap fd fd' _)

theorem Kernel.openFd_fresh {k : Kernel} {ok : Bool} {o : Finset ℕ} {fd : ℕ}
    (h : k.openFd ok o = some fd) : fd ∉ o := by
  unfold Kernel.openFd at h
  split_ifs at h
  exact k.allocate_fresh o fd h

theorem Kernel.openFd_lt {k : Kernel} {ok : Bool} {o : Finset ℕ} {fd : ℕ}
    (h : k.openFd ok o = some fd) : fd < handleMin := by
  unfold Kernel.openFd at h
  split_ifs at h
  exact k.allocate_lt o fd h

/-- The CPU number of the node is an index of the arrays. -/
def DevEntry.Fits (c : Config) (entry : DevEntry) : Prop := ∀ cpu ∈ entry.cpu, cpu < c.maxCpus

instance (c : Config) : DecidablePred (DevEntry.Fits c) := fun entry =>
  inferInstanceAs (Decidable (∀ cpu ∈ entry.cpu, cpu < c.maxCpus))

/-- With the descriptors `o` open, the CPU number of the node is read. -/
def DevEntry.Resolves (c : Config) (o : Finset ℕ) (entry : DevEntry) : Prop :=
  (c.kernel.openFd entry.devOpens o).isSome ∧ entry.cpu.isSome

instance (c : Config) (o : Finset ℕ) : DecidablePred (DevEntry.Resolves c o) := fun _ =>
  inferInstanceAs (Decidable (_ ∧ _))

/-- With the descriptors `o` open, the node is opened. -/
def DevEntry.Opens (c : Config) (o : Finset ℕ) (entry : DevEntry) : Prop :=
  entry.cpu.isSome ∧ ∃ dirfd ∈ c.kernel.openFd entry.devOpens o,
    (c.kernel.openFd entry.opens (insert dirfd o)).isSome

instance (c : Config) (o : Finset ℕ) : DecidablePred (DevEntry.Opens c o) := fun entry =>
  inferInstanceAs (Decidable (_ ∧ ∃ dirfd ∈ c.kernel.openFd entry.devOpens o, _))

theorem DevEntry.Opens.resolves {o : Finset ℕ} {entry : DevEntry} (h : entry.Opens c o) :
    entry.Resolves c o := by
  obtain ⟨hcpu, dirfd, hd, -⟩ := h
  exact ⟨Option.isSome_of_mem hd, hcpu⟩

namespace PeciState

/-- What `peci_i3c_open` can do with a node and the array `arr`: it is not counted; it is counted
and leaves the array, because its CPU has a descriptor or because it does not open; or its
descriptor is stored for its CPU. -/
inductive Visit (c : Config) (idx : ℕ) (arr : List (Option ℕ)) (s : PeciState) (entry : DevEntry) :
    Bool → List (Option ℕ) → PeciState → Prop
  | fails (h : ¬ entry.Resolves c s.opened) : Visit c idx arr s entry false arr s
  | taken (cpu fd : ℕ) (h : entry.Resolves c s.opened) (harr : arr[cpu]? = some (some fd)) :
    Visit c idx arr s entry true arr s
  | counted (h : entry.Resolves c s.opened) (hno : ¬ entry.Opens c s.opened) :
    Visit c idx arr s entry true arr s
  | opens (cpu fd : ℕ) (h : entry.Opens c s.opened) (hcpu : entry.cpu = some cpu)
    (harr : arr[cpu]? = some none) (hfresh : fd ∉ s.opened) :
    Visit c idx arr s entry true (arr.set cpu (some fd))
      { fds := Function.update s.fds idx (some (arr.set cpu (some fd)))
        opened := insert fd s.opened }

theorem peciI3cOpen_visit {s : PeciState} {idx : ℕ} {arr : List (Option ℕ)} {entry : DevEntry}
    (hslot : s.fds idx = some arr) (hlen : arr.length = c.maxCpus) (hfit : entry.Fits c) :
    ∃ ok arr' s', s.peciI3cOpen c idx entry = some (ok, s') ∧
      Visit c idx arr s entry ok arr' s' := by
  unfold PeciState.peciI3cOpen
  cases hd : c.kernel.openFd entry.devOpens s.opened with
  | none => exact ⟨false, arr, s, rfl, .fails fun h => by simp [DevEntry.Resolves, hd] at h⟩
  | some dirfd =>
    cases hcpu : entry.cpu with
    | none => exact ⟨false, arr, s, rfl, .fails fun h => by simp [DevEntry.Resolves, hcpu] at h⟩
    | some cpu =>
      have hlt : cpu < arr.length := hlen ▸ hfit cpu hcpu
      have hres : entry.Resolves c s.opened := by simp [DevEntry.Resolves, hd, hcpu]
      simp only [hslot, Option.bind_some, List.getElem?_eq_getElem hlt]
      cases harr : arr[cpu] with
      | some fd =>
        exact ⟨true, arr, s, rfl, .taken cpu fd hres (by rw [List.getElem?_eq_getElem hlt, harr])⟩
      | none =>
        cases ho : c.kernel.openFd entry.opens (insert dirfd s.opened) with
        | none =>
          refine ⟨true, arr, s, rfl, .counted hres ?_⟩
          rintro ⟨-, dirfd', hd', hopen⟩
          obtain rfl := Option.some.inj (hd.symm.trans hd')
          rw [ho] at hopen
          cases hopen
        | some fd =>
          have hfd : fd ∉ s.opened := fun hm =>
            Kernel.openFd_fresh ho (Finset.mem_insert_of_mem hm)
          have hopens : entry.Opens c s.opened :=
            ⟨by rw [hcpu]; rfl, dirfd, hd, by rw [ho]; rfl⟩
          exact ⟨true, _, _, rfl, .opens cpu fd hopens hcpu
            (by rw [List.getElem?_eq_getElem hlt, harr]) hfd⟩

/-- Between `s₀` and `s` the slot `idx` has been given the array `arr`, all of whose descriptors
have been opened since. -/
structure Filled (c : Config) (s₀ : PeciState) (idx : ℕ) (arr : List (Option ℕ)) (s : PeciState) :
    Prop where
  fds : s.fds = Function.update s₀.fds idx (some arr)
  length : arr.length = c.maxCpus
  nodup : (fdsOf arr).Nodup
  opened : s.opened = s₀.opened ∪ (fdsOf arr).toFinset
  fresh : ∀ fd ∈ fdsOf arr, fd ∉ s₀.opened

variable {s₀ s s' : PeciState} {idx : ℕ} {arr : List (Option ℕ)}

theorem filled_alloc (s₀ : PeciState) (idx : ℕ) : Filled c s₀ idx (List.replicate c.maxCpus none)
    (s₀.setSlot idx (some (List.replicate c.maxCpus none))) := by
  refine ⟨rfl, by simp, by simp, ?_, by simp⟩
  simp [setSlot]

theorem Filled.visit (h : Filled c s₀ idx arr s) {entry : DevEntry} {ok : Bool}
    {arr' : List (Option ℕ)} (hv : Visit c idx arr s entry ok arr' s') :
    Filled c s₀ idx arr' s' := by
  cases hv with
  | fails | taken | counted => exact h
  | opens cpu fd _ _ harr hfd =>
    have hperm : (fdsOf (arr.set cpu (some fd))).Perm (fd :: fdsOf arr) := fdsOf_set_perm harr
    rw [h.opened, Finset.mem_union, not_or, List.mem_toFinset] at hfd
    refine ⟨?_, ?_, ?_, ?_, ?_⟩
    · simp [h.fds]
    · rw [List.length_set, h.length]
    · rw [hperm.nodup_iff]
      exact List.nodup_cons.mpr ⟨hfd.2, h.nodup⟩
    · rw [List.toFinset_eq_of_perm _ _ hperm, List.toFinset_cons, h.opened, Finset.union_insert]
    · intro fd' hfd'
      rcases List.mem_cons.mp (hperm.mem_iff.mp hfd') with rfl | hfd'
      · exact hfd.1
      · exact h.fresh fd' hfd'

theorem Filled.slot (h : Filled c s₀ idx arr s) : s.fds idx = some arr := by
  rw [h.fds, Function.update_self]

/-- One node: it opens at most one descriptor more, and none if it is not counted. -/
theorem Filled.peciI3cOpen (h : Filled c s₀ idx arr s) {entry : DevEntry} (hfit : entry.Fits c) :
    ∃ ok s' arr', s.peciI3cOpen c idx entry = some (ok, s') ∧ Filled c s₀ idx arr' s' ∧
      (ok = false → arr' = arr) := by
  obtain ⟨ok, arr', s', he, hv⟩ := peciI3cOpen_visit h.slot h.length hfit
  refine ⟨ok, s', arr', he, h.visit hv, ?_⟩
  rintro rfl
  cases hv
  rfl

/-- All the nodes: if none is counted, nothing has been opened. -/
theorem Filled.openAll {entries : List DevEntry} (hfit : ∀ entry ∈ entries, entry.Fits c)
    (h : Filled c s₀ idx arr s) (ifAny : Bool)
    (hnone : ifAny = false → arr = List.replicate c.maxCpus none) :
    ∃ ok s' arr', PeciState.openAll c idx s ifAny entries = some (ok, s') ∧
      Filled c s₀ idx arr' s' ∧ (ok = false → arr' = List.replicate c.maxCpus none) := by
  induction entries generalizing s arr ifAny with
  | nil => exact ⟨ifAny, s, arr, rfl, h, hnone⟩
  | cons entry entries ih =>
    obtain ⟨hentry, hrest⟩ := List.forall_mem_cons.mp hfit
    obtain ⟨ok, s₁, arr₁, he, h₁, hsame⟩ := h.peciI3cOpen hentry
    have hnone₁ : (ifAny || ok) = false → arr₁ = List.replicate c.maxCpus none := by
      intro hf
      obtain ⟨hif, hok⟩ := Bool.or_eq_false_iff.mp hf
      rw [hsame hok, hnone hif]
    obtain ⟨ok', s', arr', he', h', hnone'⟩ := ih hrest h₁ _ hnone₁
    exact ⟨ok', s', arr', by simp [PeciState.openAll, he, he'], h', hnone'⟩

/-- What an attempt to open a device can do: nothing; or it takes the lowest free slot; or it opens
a single descriptor. -/
inductive Opens (c : Config) (s : PeciState) : Option ℕ → PeciState → Prop
  | fails : Opens c s none s
  | slot (idx : ℕ) (arr : List (Option ℕ)) (s' : PeciState) : idx < handleCnt →
      s.fds idx = none → Filled c s idx arr s' → Opens c s (some (handleMax - idx)) s'
  | plain (fd : ℕ) : fd < handleMin → fd ∉ s.opened →
      Opens c s (some fd) { s with opened := insert fd s.opened }

theorem freeSlot_eq_some (h : s.freeSlot = some idx) : idx < handleCnt ∧ s.fds idx = none := by
  have hmem := List.mem_of_find?_eq_some h
  have hnone := List.find?_some h
  exact ⟨List.mem_range.mp hmem, Option.isNone_iff_eq_none.mp hnone⟩

theorem setSlot_setSlot_of_none (h : s.fds idx = none) : (s.setSlot idx arr).setSlot idx none = s := by
  simp [setSlot, ← h]

theorem Filled.setSlot_none (h : Filled c s idx (List.replicate c.maxCpus none) s')
    (hs : s.fds idx = none) : s'.setSlot idx none = s := by
  obtain ⟨fds, opened⟩ := s'
  have hfds : fds = _ := h.fds
  have hopened : opened = _ := h.opened
  rw [fdsOf_replicate, List.toFinset_nil, Finset.union_empty] at hopened
  subst hfds hopened
  simp [setSlot, ← hs]

theorem peciDeviceI3cOpen_opens {a : OpenAnswer}
    (hfit : ∀ namelist ∈ a.scandir, ∀ entry ∈ namelist, entry.Fits c) :
    ∃ r s', s.peciDeviceI3cOpen c a = some (r, s') ∧ Opens c s r s' ∧
      (s.freeSlot = none → r = none) := by
  unfold peciDeviceI3cOpen
  cases hf : s.freeSlot with
  | none => exact ⟨none, s, rfl, .fails, fun _ => rfl⟩
  | some idx =>
    obtain ⟨hlt, hnone⟩ := freeSlot_eq_some hf
    cases hm : a.mallocs with
    | false => exact ⟨none, s, rfl, .fails, nofun⟩
    | true =>
      cases hd : a.scandir with
      | none =>
        refine ⟨none, s, ?_, .fails, nofun⟩
        simp [setSlot_setSlot_of_none hnone]
      | some namelist =>
        have hfit' : ∀ entry ∈ namelist.reverse, entry.Fits c := fun entry he =>
          hfit namelist hd entry (List.mem_reverse.mp he)
        obtain ⟨ok, s', arr, he, hfill, hclean⟩ :=
          (filled_alloc s idx).openAll hfit' false (fun _ => rfl)
        simp only [he, Option.map_some, if_true]
        cases ok with
        | true => exact ⟨_, _, rfl, .slot idx arr s' hlt hnone hfill, nofun⟩
        | false =>
          have hback := (hclean rfl ▸ hfill).setSlot_none hnone
          exact ⟨none, s, by simp [hback], .fails, nofun⟩

end PeciState

def OpenAnswer.Fits (c : Config) (a : OpenAnswer) : Prop :=
  ∀ namelist ∈ a.scandir, ∀ entry ∈ namelist, entry.Fits c

instance (c : Config) : DecidablePred (OpenAnswer.Fits c) := fun a =>
  inferInstanceAs (Decidable (∀ namelist ∈ a.scandir, ∀ entry ∈ namelist, entry.Fits c))

namespace PeciState

variable {s : PeciState}

theorem peciDeviceOpen_opens (name : List Char) {a : OpenAnswer} (hfit : a.Fits c) :
    ∃ r s', s.peciDeviceOpen c name a = some (r, s') ∧ Opens c s r s' ∧
      (isI3c c name → s.freeSlot = none → r = none) := by
  unfold peciDeviceOpen
  cases hn : isI3c c name with
  | true =>
    obtain ⟨r, s', he, ho, hfull⟩ := peciDeviceI3cOpen_opens (s := s) hfit
    exact ⟨r, s', he, ho, fun _ => hfull⟩
  | false =>
    cases hk : c.kernel.openFd a.opens s.opened with
    | none => exact ⟨none, s, rfl, .fails, nofun⟩
    | some fd =>
      exact ⟨some fd, _, rfl, .plain fd (Kernel.openFd_lt hk) (Kernel.openFd_fresh hk), nofun⟩

/-- A failing attempt changes nothing, so the attempts of a call do what one of them does. -/
theorem tryOpen_opens {attempts : List (List Char × OpenAnswer)}
    (hfit : ∀ t ∈ attempts, t.2.Fits c) :
    ∃ r s', s.tryOpen c attempts = some (r, s') ∧ Opens c s r s' ∧
      ((∀ t ∈ attempts, isI3c c t.1) → s.freeSlot = none → r = none) := by
  induction attempts with
  | nil => exact ⟨none, s, rfl, .fails, fun _ _ => rfl⟩
  | cons t attempts ih =>
    obtain ⟨ht, hrest⟩ := List.forall_mem_cons.mp hfit
    obtain ⟨r, s₁, he, ho, hfull⟩ := peciDeviceOpen_opens (s := s) t.1 ht
    cases ho with
    | fails =>
      obtain ⟨r', s', he', ho', hfull'⟩ := ih hrest
      refine ⟨r', s', ?_, ho', fun hi => hfull' (List.forall_mem_cons.mp hi).2⟩
      simp [tryOpen, he, he']
    | slot idx arr _ hlt hnone hfill =>
      refine ⟨_, _, ?_, .slot idx arr s₁ hlt hnone hfill,
        fun hi => hfull (List.forall_mem_cons.mp hi).1⟩
      simp [tryOpen, he]
    | plain fd hlt hfresh =>
      refine ⟨_, _, ?_, .plain fd hlt hfresh, fun hi => hfull (List.forall_mem_cons.mp hi).1⟩
      simp [tryOpen, he]

/-! ### What an unlock closes -/

theorem closeAll_eq {fds : List ℕ} {o : Finset ℕ} (hnodup : fds.Nodup) (ho : ∀ fd ∈ fds, fd ∈ o) :
    closeAll o fds = (List.replicate fds.length true, o \ fds.toFinset) := by
  induction fds generalizing o with
  | nil => simp [closeAll]
  | cons fd fds ih =>
    obtain ⟨hfd, hrest⟩ := List.forall_mem_cons.mp ho
    obtain ⟨hnot, hnodup⟩ := List.nodup_cons.mp hnodup
    have hclose : closeFd o fd = (true, o.erase fd) := by
      rw [closeFd, if_pos ⟨Int.natCast_nonneg fd, by simpa using hfd⟩, Int.toNat_natCast]
    have hsub : ∀ fd' ∈ fds, fd' ∈ o.erase fd := fun fd' hmem =>
      Finset.mem_erase.mpr ⟨fun he => hnot (he ▸ hmem), hrest fd' hmem⟩
    simp only [closeAll, hclose, ih hnodup hsub]
    refine Prod.ext rfl ?_
    ext fd'
    simp only [Finset.mem_sdiff, Finset.mem_erase, List.mem_toFinset, List.mem_cons]
    tauto

end PeciState

end MetaCommon.PeciI3c
