import MetaCommon.PeciI3c.IssueCmd
import MetaCommon.PeciI3c.Table

/-!
# Descriptors and the CPUs they were opened for

The loop over the nodes puts into the array, at the number of a CPU, a descriptor of a node with
this number, and it opens none only if no node it counts can be opened. `Owned` carries this along
the opens, unlocks and commands of a process.
-/

namespace MetaCommon.PeciI3c

variable {c : Config}

theorem mem_fdsOf {arr : List (Option ℕ)} {fd : ℕ} : fd ∈ fdsOf arr ↔ some fd ∈ arr := by
  simp [fdsOf]

theorem mem_fdsOf_of_getElem? {arr : List (Option ℕ)} {cpu fd : ℕ} (h : arr[cpu]? = some (some fd)) :
    fd ∈ fdsOf arr := mem_fdsOf.mpr (List.mem_of_getElem? h)

theorem eq_replicate_of_fdsOf {arr : List (Option ℕ)} (h : fdsOf arr = []) :
    arr = List.replicate arr.length none := by
  refine List.eq_replicate_iff.mpr ⟨rfl, fun x hx => ?_⟩
  cases x with
  | none => rfl
  | some fd =>
    have hmem := mem_fdsOf.mpr hx
    rw [h] at hmem
    cases hmem

namespace PeciState

variable {s₀ s s' : PeciState} {idx : ℕ} {arr : List (Option ℕ)}

theorem Filled.opened_of_empty (h : Filled c s₀ idx arr s) (harr : fdsOf arr = []) :
    s.opened = s₀.opened := by
  rw [h.opened, harr, List.toFinset_nil, Finset.union_empty]

theorem Visit.opened_subset {entry : DevEntry} {ok : Bool} {arr' : List (Option ℕ)}
    (hv : Visit c idx arr s entry ok arr' s') : s.opened ⊆ s'.opened := by
  cases hv with
  | fails | taken | counted => exact Finset.Subset.refl _
  | opens => exact Finset.subset_insert _ _

/-- What the loop has opened was not open before it. -/
theorem openedFor_fresh {entries : List DevEntry} {fd : ℕ} {entry : DevEntry}
    (hfit : ∀ entry ∈ entries, entry.Fits c) (h : Filled c s₀ idx arr s)
    (ho : openedFor c idx s entries fd = some entry) : fd ∉ s.opened := by
  induction entries generalizing s arr with
  | nil => cases ho
  | cons e entries ih =>
    obtain ⟨he, hrest⟩ := List.forall_mem_cons.mp hfit
    obtain ⟨ok, arr₁, s₁, hs, hv⟩ := peciI3cOpen_visit h.slot h.length he
    simp only [openedFor, hs] at ho
    split_ifs at ho with hnew
    · exact (Finset.mem_sdiff.mp hnew).2
    · exact fun hmem => ih hrest (h.visit hv) ho (hv.opened_subset hmem)

/-- The loop from a state in which it has opened `arr`: whether it counts a node, whether it opens
one, and which node each descriptor was opened for. -/
structure Loop (c : Config) (s₀ s : PeciState) (idx : ℕ) (arr : List (Option ℕ)) (ifAny : Bool)
    (entries : List DevEntry) (ok : Bool) (arr' : List (Option ℕ)) (s' : PeciState) : Prop where
  filled : Filled c s₀ idx arr' s'
  counts : ok = true ↔ ifAny = true ∨ ∃ entry ∈ entries, entry.Resolves c s₀.opened
  opens : fdsOf arr' ≠ [] ↔ fdsOf arr ≠ [] ∨ ∃ entry ∈ entries, entry.Opens c s₀.opened
  nodes : ∀ cpu fd, arr'[cpu]? = some (some fd) → arr[cpu]? = some (some fd) ∨
    ∃ entry ∈ openedFor c idx s entries fd, entry.cpu = some cpu

theorem Visit.counts {entry : DevEntry} {ok : Bool} {arr' : List (Option ℕ)}
    (hv : Visit c idx arr s entry ok arr' s') : ok = true ↔ entry.Resolves c s.opened := by
  cases hv with
  | fails h => simp [h]
  | taken _ _ h | counted h => simp [h]
  | opens _ _ h => simp [h.resolves]

theorem Visit.opens_iff {entry : DevEntry} {ok : Bool} {arr' : List (Option ℕ)}
    (hv : Visit c idx arr s entry ok arr' s') (harr : fdsOf arr = []) :
    fdsOf arr' ≠ [] ↔ entry.Opens c s.opened := by
  cases hv with
  | fails h => exact iff_of_false (fun hne => hne harr) (fun ho => h ho.resolves)
  | taken cpu fd _ hfd =>
    have hmem := mem_fdsOf_of_getElem? hfd
    rw [harr] at hmem
    cases hmem
  | counted _ hno => exact iff_of_false (fun hne => hne harr) hno
  | opens cpu fd ho _ hnone _ =>
    refine iff_of_true (fun hnil => ?_) ho
    have hperm : (fdsOf (arr.set cpu (some fd))).Perm (fd :: fdsOf arr) := fdsOf_set_perm hnone
    rw [hnil] at hperm
    exact absurd hperm.symm (List.cons_ne_nil _ _ ·.eq_nil)

theorem Visit.grows {entry : DevEntry} {ok : Bool} {arr' : List (Option ℕ)}
    (hv : Visit c idx arr s entry ok arr' s') (harr : fdsOf arr ≠ []) : fdsOf arr' ≠ [] := by
  cases hv with
  | fails | taken | counted => exact harr
  | opens cpu fd _ _ hnone _ =>
    intro hnil
    have hperm : (fdsOf (arr.set cpu (some fd))).Perm (fd :: fdsOf arr) := fdsOf_set_perm hnone
    rw [hnil] at hperm
    exact absurd hperm.symm (List.cons_ne_nil _ _ ·.eq_nil)

/-- A descriptor that a visit has put into the array was opened for the node. -/
theorem Visit.node {entry : DevEntry} {ok : Bool} {arr' : List (Option ℕ)}
    (hv : Visit c idx arr s entry ok arr' s') {cpu fd : ℕ} (hfd : arr'[cpu]? = some (some fd)) :
    arr[cpu]? = some (some fd) ∨ fd ∈ s'.opened \ s.opened ∧ entry.cpu = some cpu := by
  cases hv with
  | fails | taken | counted => exact .inl hfd
  | opens cpu' fd' _ hcpu hnone hfresh =>
    by_cases hc : cpu' = cpu
    · subst hc
      have hlt : cpu' < arr.length := (List.getElem?_eq_some_iff.mp hnone).1
      rw [List.getElem?_set_self hlt] at hfd
      obtain rfl := Option.some.inj (Option.some.inj hfd)
      exact .inr ⟨Finset.mem_sdiff.mpr ⟨Finset.mem_insert_self _ _, hfresh⟩, hcpu⟩
    · rw [List.getElem?_set_ne hc] at hfd
      exact .inl hfd

theorem openAll_loop {entries : List DevEntry} (hfit : ∀ entry ∈ entries, entry.Fits c)
    (h : Filled c s₀ idx arr s) (ifAny : Bool) (hany : fdsOf arr ≠ [] → ifAny = true) :
    ∃ ok s' arr', openAll c idx s ifAny entries = some (ok, s') ∧
      Loop c s₀ s idx arr ifAny entries ok arr' s' := by
  induction entries generalizing s arr ifAny with
  | nil =>
    exact ⟨ifAny, s, arr, rfl, h, by simp, by simp, fun _ _ hfd => .inl hfd⟩
  | cons entry entries ih =>
    obtain ⟨hentry, hrest⟩ := List.forall_mem_cons.mp hfit
    obtain ⟨ok₁, arr₁, s₁, he, hv⟩ := peciI3cOpen_visit h.slot h.length hentry
    have hany₁ : fdsOf arr₁ ≠ [] → (ifAny || ok₁) = true := by
      intro hne
      rw [Bool.or_eq_true]
      by_cases harr : fdsOf arr = []
      · exact .inr (hv.counts.mpr ((hv.opens_iff harr).mp hne).resolves)
      · exact .inl (hany harr)
    obtain ⟨ok, s', arr', hs, hl⟩ := ih hrest (h.visit hv) _ hany₁
    refine ⟨ok, s', arr', by simp [openAll, he, hs], hl.filled, ?_, ?_, ?_⟩
    · rw [hl.counts, Bool.or_eq_true, or_assoc, List.exists_mem_cons_iff, hv.counts]
      by_cases harr : fdsOf arr = []
      · rw [h.opened_of_empty harr]
      · simp [hany harr]
    · rw [hl.opens, List.exists_mem_cons_iff]
      by_cases harr : fdsOf arr = []
      · rw [hv.opens_iff harr, h.opened_of_empty harr]
        simp [harr]
      · simp [harr, hv.grows harr]
    · intro cpu fd hfd
      simp only [openedFor, he]
      rcases hl.nodes cpu fd hfd with hold | ⟨e, hopened, hcpu⟩
      · rcases hv.node hold with harr | ⟨hnew, hcpu⟩
        · exact .inl harr
        · exact .inr ⟨entry, by rw [if_pos hnew]; rfl, hcpu⟩
      · have hfresh := openedFor_fresh hrest (h.visit hv) hopened
        refine .inr ⟨e, ?_, hcpu⟩
        rw [if_neg fun hnew => hfresh (Finset.mem_sdiff.mp hnew).1]
        exact hopened

/-! ### An attempt to open the I3C device -/

theorem visited_eq_some {a : OpenAnswer} {entries : List DevEntry}
    (hv : s.visited a = some (idx, entries)) :
    s.freeSlot = some idx ∧ a.mallocs = true ∧ a.scandir = some entries.reverse := by
  obtain ⟨i, hi, h⟩ := Option.bind_eq_some_iff.mp hv
  split_ifs at h with hm
  obtain ⟨namelist, hn, he⟩ := Option.map_eq_some_iff.mp h
  obtain ⟨rfl, rfl⟩ := Prod.mk.inj he
  exact ⟨hi, hm, by rw [List.reverse_reverse, hn]⟩

theorem peciDeviceI3cOpen_of_not_visited {a : OpenAnswer} (hv : s.visited a = none) :
    s.peciDeviceI3cOpen c a = some (none, s) := by
  unfold peciDeviceI3cOpen
  unfold visited at hv
  cases hf : s.freeSlot with
  | none => rfl
  | some idx =>
    have hnone := (freeSlot_eq_some hf).2
    rw [hf, Option.bind_some] at hv
    cases hm : a.mallocs with
    | false => rfl
    | true =>
      rw [hm, if_pos rfl, Option.map_eq_none_iff] at hv
      simp [hv, setSlot_setSlot_of_none hnone]

/-- A call that gets to the loop answers a handle if a node is counted, and then the array of the
handle has descriptors exactly if a node can be opened. -/
theorem peciDeviceI3cOpen_of_visited {a : OpenAnswer} {entries : List DevEntry}
    (hv : s.visited a = some (idx, entries)) (hfit : ∀ entry ∈ entries, entry.Fits c) :
    (¬ (∃ entry ∈ entries, entry.Resolves c s.opened) ∧
      s.peciDeviceI3cOpen c a = some (none, s)) ∨
    (∃ entry ∈ entries, entry.Resolves c s.opened) ∧ ∃ arr s',
      s.peciDeviceI3cOpen c a = some (some (handleMax - idx), s') ∧ Filled c s idx arr s' ∧
      (fdsOf arr ≠ [] ↔ ∃ entry ∈ entries, entry.Opens c s.opened) ∧
      ∀ cpu fd, arr[cpu]? = some (some fd) →
        ∃ entry ∈ openedFor c idx (s.allocated c idx) entries fd, entry.cpu = some cpu := by
  obtain ⟨hf, hm, hd⟩ := visited_eq_some hv
  obtain ⟨-, hnone⟩ := freeSlot_eq_some hf
  have hempty : fdsOf (List.replicate c.maxCpus none) = [] := fdsOf_replicate _
  obtain ⟨ok, s', arr, he, hl⟩ := openAll_loop hfit (filled_alloc (c := c) s idx) false
    (fun hne => absurd hempty hne)
  have hcall : s.peciDeviceI3cOpen c a =
      some (if ok then (some (handleMax - idx), s') else (none, s'.setSlot idx none)) := by
    simp only [peciDeviceI3cOpen, hf, hm, hd, List.reverse_reverse, if_true, he, Option.map_some]
  have hcounts := hl.counts
  have hopens := hl.opens
  simp only [Bool.false_eq_true, false_or] at hcounts
  rw [hempty] at hopens
  simp only [ne_eq, not_true_eq_false, false_or] at hopens
  cases ok with
  | false =>
    have hno : ¬ ∃ entry ∈ entries, entry.Resolves c s.opened := fun h => by
      simpa using hcounts.mpr h
    have harr : fdsOf arr = [] := by
      by_contra hne
      obtain ⟨entry, hmem, ho⟩ := hopens.mp hne
      exact hno ⟨entry, hmem, ho.resolves⟩
    have hrepl : arr = List.replicate c.maxCpus none := by
      rw [← hl.filled.length]
      exact eq_replicate_of_fdsOf harr
    have hback := (hrepl ▸ hl.filled).setSlot_none hnone
    exact .inl ⟨hno, by rw [hcall, hback]; rfl⟩
  | true =>
    refine .inr ⟨hcounts.mp rfl, arr, s', hcall, hl.filled, hopens, fun cpu fd hfd => ?_⟩
    refine (hl.nodes cpu fd hfd).resolve_left fun h => ?_
    have hmem := mem_fdsOf_of_getElem? h
    rw [hempty] at hmem
    cases hmem

end PeciState

namespace Devices

variable {s s' : Devices}

/-- The array of each slot in use has `MAX_CPUS` entries; the descriptors in the arrays are open, no
two of them are the same, and each was opened for a node of the CPU it is stored for. -/
structure Owned (c : Config) (s : Devices) : Prop where
  slot : ∀ i, ∀ arr ∈ s.lib.fds i, i < handleCnt ∧ arr.length = c.maxCpus ∧ (fdsOf arr).Nodup
  node : ∀ i, ∀ arr ∈ s.lib.fds i, ∀ cpu fd, arr[cpu]? = some (some fd) →
    fd ∈ s.lib.opened ∧ ∃ entry ∈ s.node fd, entry.cpu = some cpu
  disjoint : ∀ i j, i ≠ j → ∀ arr ∈ s.lib.fds i, ∀ arr' ∈ s.lib.fds j,
    ∀ fd ∈ fdsOf arr, fd ∉ fdsOf arr'

theorem owned_init (o : Finset ℕ) : (init o).Owned c := ⟨nofun, nofun, nofun⟩

theorem Owned.opened (h : s.Owned c) {i : ℕ} {arr : List (Option ℕ)} (harr : arr ∈ s.lib.fds i)
    {fd : ℕ} (hfd : fd ∈ fdsOf arr) : fd ∈ s.lib.opened := by
  obtain ⟨cpu, hcpu⟩ := List.mem_iff_getElem?.mp (mem_fdsOf.mp hfd)
  exact (h.node i arr harr cpu fd hcpu).1

/-- Descriptors may be opened and closed as long as those in the arrays stay. -/
theorem Owned.congr (h : s.Owned c) {fds : ℕ → Option (List (Option ℕ))} {o : Finset ℕ}
    {node : ℕ → Option DevEntry} (hsub : ∀ i, ∀ arr ∈ fds i, arr ∈ s.lib.fds i)
    (hkept : ∀ i, ∀ arr ∈ fds i, ∀ fd ∈ fdsOf arr, fd ∈ o ∧ node fd = s.node fd) :
    Owned c ⟨⟨fds, o⟩, node⟩ := by
  refine ⟨fun i arr harr => h.slot i arr (hsub i arr harr), fun i arr harr cpu fd hfd => ?_,
    fun i j hij arr harr arr' harr' => h.disjoint i j hij arr (hsub i arr harr) arr'
      (hsub j arr' harr')⟩
  obtain ⟨hopen, hnode⟩ := hkept i arr harr fd (mem_fdsOf_of_getElem? hfd)
  have hentry := (h.node i arr (hsub i arr harr) cpu fd hfd).2
  rw [← hnode] at hentry
  exact ⟨hopen, hentry⟩

/-- A slot is filled with descriptors that are new. -/
theorem Owned.filled (h : s.Owned c) {idx : ℕ} {arr : List (Option ℕ)} {lib : PeciState}
    {node : ℕ → Option DevEntry} (hlt : idx < handleCnt)
    (hf : PeciState.Filled c s.lib idx arr lib)
    (hold : ∀ fd ∈ s.lib.opened, node fd = s.node fd)
    (hnew : ∀ cpu fd, arr[cpu]? = some (some fd) → ∃ entry ∈ node fd, entry.cpu = some cpu) :
    Owned c ⟨lib, node⟩ := by
  have hcases : ∀ i, ∀ arr' ∈ lib.fds i, i = idx ∧ arr' = arr ∨ i ≠ idx ∧ arr' ∈ s.lib.fds i := by
    intro i arr' harr'
    rw [hf.fds] at harr'
    by_cases hi : i = idx
    · subst hi
      rw [Function.update_self] at harr'
      exact .inl ⟨rfl, (Option.some.inj harr').symm⟩
    · rw [Function.update_of_ne hi] at harr'
      exact .inr ⟨hi, harr'⟩
  have hsub : s.lib.opened ⊆ lib.opened := by
    rw [hf.opened]
    exact Finset.subset_union_left
  refine ⟨fun i arr' harr' => ?_, fun i arr' harr' cpu fd hfd => ?_, ?_⟩
  · rcases hcases i arr' harr' with ⟨rfl, rfl⟩ | ⟨-, harr'⟩
    · exact ⟨hlt, hf.length, hf.nodup⟩
    · exact h.slot i arr' harr'
  · rcases hcases i arr' harr' with ⟨rfl, rfl⟩ | ⟨-, harr'⟩
    · refine ⟨?_, hnew cpu fd hfd⟩
      rw [hf.opened]
      exact Finset.mem_union_right _ (List.mem_toFinset.mpr (mem_fdsOf_of_getElem? hfd))
    · obtain ⟨hopen, hnode⟩ := h.node i arr' harr' cpu fd hfd
      rw [← hold fd hopen] at hnode
      exact ⟨hsub hopen, hnode⟩
  · intro i j hij arr₁ h₁ arr₂ h₂ fd hfd₁ hfd₂
    rcases hcases i arr₁ h₁ with ⟨rfl, rfl⟩ | ⟨hi, h₁⟩
    · rcases hcases j arr₂ h₂ with ⟨rfl, rfl⟩ | ⟨-, h₂⟩
      · exact hij rfl
      · exact hf.fresh fd hfd₁ (h.opened h₂ hfd₂)
    · rcases hcases j arr₂ h₂ with ⟨rfl, rfl⟩ | ⟨-, h₂⟩
      · exact hf.fresh fd hfd₂ (h.opened h₁ hfd₁)
      · exact h.disjoint i j hij arr₁ h₁ arr₂ h₂ fd hfd₁ hfd₂

theorem nodes_of_opened {name : List Char} {a : OpenAnswer} {lib : PeciState} {fd : ℕ}
    (h : fd ∈ s.lib.opened) : s.nodes c name a lib fd = s.node fd :=
  if_neg fun hnew => (Finset.mem_sdiff.mp hnew).2 h

/-- An attempt that fails or opens a device of another name leaves the arrays as they are. -/
theorem Owned.unfilled (h : s.Owned c) (name : List Char) (a : OpenAnswer) {o : Finset ℕ}
    (ho : s.lib.opened ⊆ o) : Owned c ⟨⟨s.lib.fds, o⟩, s.nodes c name a ⟨s.lib.fds, o⟩⟩ :=
  h.congr (fun _ _ harr => harr) fun _ _ harr _ hfd =>
    ⟨ho (h.opened harr hfd), nodes_of_opened (h.opened harr hfd)⟩

/-- An attempt that answers no handle of the I3C device has only to keep the arrays. -/
theorem Owned.deviceOpen_unfilled (h : s.Owned c) {name : List Char} {a : OpenAnswer}
    {r : Option ℕ} {o : Finset ℕ} (ho : s.lib.opened ⊆ o)
    (he : s.lib.peciDeviceOpen c name a = some (r, ⟨s.lib.fds, o⟩))
    (hr : PeciState.isI3c c name = true → r = none) :
    s.DeviceSound c (.deviceOpen name a) ∧
      ∀ s', s.step c (.deviceOpen name a) = some s' → s'.Owned c := by
  refine ⟨⟨r, _, he, fun hn x hx => ?_⟩, fun s' hs => ?_⟩
  · rw [hr hn] at hx
    cases hx
  · rw [step, he, Option.map_some] at hs
    rw [← Option.some.inj hs]
    exact h.unfilled name a ho

/-- An attempt that fills the free slot answers the handle of an array with a device. -/
theorem Owned.deviceOpen_filled (h : s.Owned c) {name : List Char} {a : OpenAnswer} {idx fd : ℕ}
    {entries : List DevEntry} {arr : List (Option ℕ)} {lib : PeciState}
    (hn : PeciState.isI3c c name = true) (hv : s.lib.visited a = some (idx, entries))
    (hlt : idx < handleCnt)
    (he : s.lib.peciDeviceOpen c name a = some (some (handleMax - idx), lib))
    (hfill : PeciState.Filled c s.lib idx arr lib) (hfd : fd ∈ fdsOf arr)
    (hnodes : ∀ cpu fd, arr[cpu]? = some (some fd) →
      ∃ entry ∈ PeciState.openedFor c idx (s.lib.allocated c idx) entries fd,
        entry.cpu = some cpu) :
    s.DeviceSound c (.deviceOpen name a) ∧
      ∀ s', s.step c (.deviceOpen name a) = some s' → s'.Owned c := by
  have hidx : handleMax - (handleMax - idx) = idx := by
    unfold handleMax handleCnt at *
    omega
  have hopened : ∀ fd ∈ fdsOf arr, fd ∈ lib.opened := fun fd hfd => by
    rw [hfill.opened]
    exact Finset.mem_union_right _ (List.mem_toFinset.mpr hfd)
  refine ⟨⟨_, lib, he, fun _ x hx => ?_⟩, fun s' hs => ?_⟩
  · obtain rfl := Option.some.inj hx
    exact ⟨arr, by rw [hidx]; exact hfill.slot, fd, hfd, hopened fd hfd⟩
  · rw [step, he, Option.map_some] at hs
    rw [← Option.some.inj hs]
    refine h.filled hlt hfill (fun fd hfd => nodes_of_opened hfd) fun cpu fd hfd => ?_
    have hmem := mem_fdsOf_of_getElem? hfd
    have hnew : fd ∈ lib.opened \ s.lib.opened :=
      Finset.mem_sdiff.mpr ⟨hopened fd hmem, hfill.fresh fd hmem⟩
    rw [nodes, if_pos hnew, if_pos hn, hv]
    exact hnodes cpu fd hfd

theorem Owned.deviceOpen (h : s.Owned c) {name : List Char} {a : OpenAnswer}
    (hg : s.Fitting c (.deviceOpen name a)) :
    s.DeviceSound c (.deviceOpen name a) ∧
      ∀ s', s.step c (.deviceOpen name a) = some s' → s'.Owned c := by
  cases hn : PeciState.isI3c c name with
  | false =>
    have hother : ∀ r : Option ℕ, PeciState.isI3c c name = true → r = none := fun _ hi =>
      absurd hi (by simp [hn])
    cases hk : c.kernel.openFd a.opens s.lib.opened with
    | none =>
      exact h.deviceOpen_unfilled (Finset.Subset.refl _)
        (by simp [PeciState.peciDeviceOpen, hn, hk]) (hother none)
    | some fd =>
      exact h.deviceOpen_unfilled (Finset.subset_insert fd _)
        (by simp [PeciState.peciDeviceOpen, hn, hk]) (hother (some fd))
  | true =>
    have hcall : s.lib.peciDeviceOpen c name a = s.lib.peciDeviceI3cOpen c a := by
      simp [PeciState.peciDeviceOpen, hn]
    cases hv : s.lib.visited a with
    | none =>
      exact h.deviceOpen_unfilled (Finset.Subset.refl _)
        (by rw [hcall, PeciState.peciDeviceI3cOpen_of_not_visited hv]) fun _ => rfl
    | some v =>
      obtain ⟨idx, entries⟩ := v
      obtain ⟨hfit, husable⟩ := hg hn _ hv
      obtain ⟨hlt, -⟩ := PeciState.freeSlot_eq_some (PeciState.visited_eq_some hv).1
      rcases PeciState.peciDeviceI3cOpen_of_visited hv hfit with
        ⟨-, he⟩ | ⟨hres, arr, lib, he, hfill, hopens, hnodes⟩
      · exact h.deviceOpen_unfilled (Finset.Subset.refl _) (by rw [hcall, he]) fun _ => rfl
      · obtain ⟨fd, hfd⟩ := List.exists_mem_of_ne_nil _ (hopens.mpr (husable hres))
        exact h.deviceOpen_filled hn hv hlt (hcall.trans he) hfill hfd hnodes

theorem Owned.unlock (h : s.Owned c) {peciFd : ℤ} (hg : s.Fitting c (.unlock peciFd))
    (hs : s.step c (.unlock peciFd) = some s') : s'.Owned c := by
  obtain ⟨⟨closes, lib⟩, he, rfl⟩ := Option.map_eq_some_iff.mp hs
  unfold PeciState.peciUnlock at he
  by_cases hr : (handleMin : ℤ) ≤ peciFd ∧ peciFd ≤ handleMax
  · obtain ⟨arr, harr⟩ := Option.isSome_iff_exists.mp (hg.1 hr)
    rw [if_pos hr, harr] at he
    obtain ⟨-, -, hnodup⟩ := h.slot _ arr harr
    have hclose := PeciState.closeAll_eq hnodup fun fd hfd => h.opened harr hfd
    simp only [hclose, Option.some.injEq, Prod.mk.injEq] at he
    obtain ⟨-, rfl⟩ := he
    have hne : ∀ i, ∀ arr' ∈ Function.update s.lib.fds (handleMax - peciFd.toNat) none i,
        i ≠ handleMax - peciFd.toNat ∧ arr' ∈ s.lib.fds i := by
      intro i arr' harr'
      by_cases hi : i = handleMax - peciFd.toNat
      · rw [hi, Function.update_self] at harr'
        cases harr'
      · rw [Function.update_of_ne hi] at harr'
        exact ⟨hi, harr'⟩
    refine h.congr (fun i arr' harr' => (hne i arr' harr').2) fun i arr' harr' fd hfd => ⟨?_, rfl⟩
    obtain ⟨hi, harr'⟩ := hne i arr' harr'
    refine Finset.mem_sdiff.mpr ⟨h.opened harr' hfd, fun hmem => ?_⟩
    exact h.disjoint i _ hi arr' harr' arr harr fd hfd (List.mem_toFinset.mp hmem)
  · rw [if_neg hr] at he
    obtain ⟨-, rfl⟩ := Prod.mk.inj (Option.some.inj he)
    refine h.congr (fun _ _ harr => harr) fun i arr harr fd hfd => ⟨?_, rfl⟩
    have hne := hg.2 hr i (h.slot i arr harr).1 arr harr fd hfd
    unfold PeciState.closeFd
    split_ifs with hclosed
    · refine Finset.mem_erase.mpr ⟨?_, h.opened harr hfd⟩
      rintro rfl
      exact hne (Int.toNat_of_nonneg hclosed.1)
    · exact h.opened harr hfd

theorem Owned.issueCmd (h : s.Owned c) {peciFd : ℤ} {cmdPtr : Option UInt8}
    (hg : s.Fitting c (.issueCmd peciFd cmdPtr)) : s.DeviceSound c (.issueCmd peciFd cmdPtr) := by
  unfold DeviceSound PeciState.hwPeciIssueCmd
  cases cmdPtr with
  | none => exact ⟨_, rfl, nofun⟩
  | some addr =>
    by_cases hr : InHandleRange peciFd
    · obtain ⟨hslot, hlow, hhigh⟩ := hg hr addr rfl
      obtain ⟨arr, harr⟩ := Option.isSome_iff_exists.mp hslot
      have hpos : 0 ≤ (addr.toNat : ℤ) - minClientAddr := by omega
      have hlen := (h.slot _ arr harr).2.1
      have hlt : ((addr.toNat : ℤ) - minClientAddr).toNat < arr.length := by omega
      simp only [if_pos hr, harr, Option.bind_some, PeciState.index, if_pos hpos,
        List.getElem?_eq_getElem hlt, Option.map_some]
      refine ⟨_, rfl, fun fd _ hfd => ?_⟩
      have hcell : arr[((addr.toNat : ℤ) - minClientAddr).toNat]? = some (some fd) := by
        rw [List.getElem?_eq_getElem hlt, Issued.ioctl.inj hfd]
      obtain ⟨-, entry, hentry, hcpu⟩ := h.node _ arr harr _ fd hcell
      refine ⟨entry, hentry, _, hcpu, fun addr' haddr => ?_⟩
      obtain rfl := Option.some.inj haddr
      exact Int.toNat_of_nonneg hpos
    · exact ⟨_, if_neg hr, fun _ hin => absurd hin hr⟩

theorem Owned.step (h : s.Owned c) {e : DeviceEvent} (hg : s.Fitting c e)
    (hs : s.step c e = some s') : s'.Owned c := by
  cases e with
  | deviceOpen name a => exact (h.deviceOpen hg).2 s' hs
  | unlock peciFd => exact h.unlock hg hs
  | issueCmd peciFd cmdPtr =>
    obtain ⟨-, -, rfl⟩ := Option.map_eq_some_iff.mp hs
    exact h

theorem Owned.sound (h : s.Owned c) {e : DeviceEvent} (hg : s.Fitting c e) : s.DeviceSound c e := by
  cases e with
  | deviceOpen name a => exact (h.deviceOpen hg).1
  | unlock _ => trivial
  | issueCmd peciFd cmdPtr => exact h.issueCmd hg

/-- Where the device nodes have CPU numbers below `MAX_CPUS` and can be opened, and the callers keep
to live handles and target addresses of these CPUs, all opens and commands of a run are sound. -/
theorem run_deviceSound (c : Config) (o : Finset ℕ) (es : List DeviceEvent)
    (hg : Runs.ExecGuarded (step c) (Fitting c) (init o) es) :
    Runs.ExecGuarded (step c) (DeviceSound c) (init o) es :=
  hg.mono (fun _ _ _ h hf hs => h.step hf hs) (fun _ _ h hf => h.sound hf) (owned_init o)

/-- An attempt on the I3C device with one node, of the given PID. -/
def openNode (pid : UInt64) (opens : Bool) : DeviceEvent :=
  .deviceOpen "/dev/peci-i3c".toList ⟨false, false, true, some [⟨true, some pid, opens⟩]⟩

def commandRun : List DeviceEvent :=
  [openNode 0x1000 true, .issueCmd handleMax (some 0x31), .issueCmd handleMax (some 0x30),
    openNode 0x2000 true, .unlock handleMax]

theorem run_deviceSound_command :
    Runs.ExecGuarded (step Client.eightCpus) (DeviceSound Client.eightCpus) (init {0, 1, 2})
      commandRun :=
  run_deviceSound Client.eightCpus {0, 1, 2} commandRun (by decide +kernel)

/-- A PID with the instance id 8, a node that cannot be opened, and a command for the address 0x38
are each enough. -/
theorem not_run_deviceSound :
    ¬ ∃ es ∈ [[openNode 0x8000 true], [openNode 0x1000 false],
      [openNode 0x1000 true, .issueCmd handleMax (some 0x38)]],
    Runs.ExecGuarded (step Client.eightCpus) (DeviceSound Client.eightCpus) (init {0, 1, 2}) es := by
  simp only [List.exists_mem_cons_iff, List.not_mem_nil, false_and, exists_const, or_false, not_or]
  refine ⟨?_, ?_, ?_⟩
  · rintro ⟨⟨r, lib, he, -⟩, -⟩
    have hno : ((init {0, 1, 2}).lib.peciDeviceOpen Client.eightCpus "/dev/peci-i3c".toList
        ⟨false, false, true, some [⟨true, some 0x8000, true⟩]⟩).isSome = false := by decide +kernel
    rw [he] at hno
    cases hno
  · rintro ⟨⟨r, lib, he, hvalid⟩, -⟩
    have hempty : ((init {0, 1, 2}).lib.peciDeviceOpen Client.eightCpus "/dev/peci-i3c".toList
        ⟨false, false, true, some [⟨true, some 0x1000, false⟩]⟩).map
          (fun r => (r.1, (r.2.fds 0).map fdsOf)) = some (some handleMax, some []) := by
      decide +kernel
    rw [he] at hempty
    obtain ⟨rfl, harr⟩ := Prod.mk.inj (Option.some.inj hempty)
    obtain ⟨arr, hmem, fd, hfd, -⟩ := hvalid (by decide +kernel) handleMax rfl
    have hslot : lib.fds 0 = some arr := hmem
    rw [hslot] at harr
    rw [Option.some.inj harr] at hfd
    cases hfd
  · intro h
    have hno : ((step Client.eightCpus (init {0, 1, 2}) (openNode 0x1000 true)).bind fun s =>
        s.lib.hwPeciIssueCmd handleMax (some 0x38)) = none := by decide +kernel
    obtain ⟨s, hs⟩ : ∃ s, step Client.eightCpus (init {0, 1, 2}) (openNode 0x1000 true) = some s :=
      Option.isSome_iff_exists.mp (by decide +kernel)
    obtain ⟨res, hres, -⟩ := (h.tail hs).1
    rw [hs, Option.bind_some, hres] at hno
    cases hno

end Devices

end MetaCommon.PeciI3c
