import MetaCommon.Tpmi.Records

/-!
# Property writes and their completions

The handler of a property write finds the record the write was sent for exactly if that record has
not been erased in the meantime. The records themselves are never locked in a state that the BMC
cannot use.
-/

namespace MetaCommon.Tpmi

/-- The feature is not locked while it is disabled or accessed through the PCS path. -/
def Feature.Usable (feature : Feature) : Prop :=
  ¬ (feature.locked = true ∧ (feature.enabled = false ∨ feature.usePCS = true))

instance (feature : Feature) : Decidable feature.Usable := inferInstanceAs (Decidable (¬ _))

/-- The write enables the feature or takes it off the PCS path. -/
def PropertyWrite.SetsUp (w : PropertyWrite) : Prop :=
  w.property = .enabled ∧ w.value = true ∨ w.property = .usePCS ∧ w.value = false

theorem Feature.Usable.set {feature : Feature} (h : feature.Usable) {w : PropertyWrite}
    (hw : w.SetsUp) : (feature.set w.value w.property).Usable := by
  rintro ⟨hl, hb⟩
  rcases hw with ⟨hp, hv⟩ | ⟨hp, hv⟩
  · rw [hp, hv] at hl hb
    exact h ⟨hl, .inr (hb.resolve_left nofun)⟩
  · rw [hp, hv] at hl hb
    exact h ⟨hl, .inl (hb.resolve_right nofun)⟩

namespace TPMIDBusCache

structure WritesInv (c : TPMIDBusCache) : Prop where
  usable : ∀ i, ∀ n ∈ c.features.entry i, n.value.Usable
  setsUp : ∀ w ∈ c.writes, w.SetsUp
  bounded : ∀ w ∈ c.writes, w.node < c.features.fresh
  /-- A write not marked as erased has its record in the cache, and only such a write has. -/
  live : ∀ w ∈ c.writes, w.erased = false ↔ c.features.Holds w.index w.node

theorem writesInv_init : WritesInv init := ⟨nofun, nofun, nofun, nofun⟩

variable {c c' : TPMIDBusCache} {index : ℤ}

theorem WritesInv.removeFeature (h : c.WritesInv) : (c.removeFeature index).WritesInv := by
  have old {w : PropertyWrite} (hw : w ∈ (c.removeFeature index).writes) :
      ∃ v ∈ c.writes, w = if v.index = index then { v with erased := true } else v := by
    obtain ⟨v, hv, rfl⟩ := List.mem_map.mp hw
    exact ⟨v, hv, rfl⟩
  refine ⟨?_, ?_, ?_, ?_⟩
  · intro i n hn
    by_cases hi : i = index
    · subst hi
      simp [TPMIDBusCache.removeFeature, NodeMap.erase_entry] at hn
    · rw [TPMIDBusCache.removeFeature, NodeMap.erase_entry, Function.update_of_ne hi] at hn
      exact h.usable i n hn
  · intro w hw
    obtain ⟨v, hv, rfl⟩ := old hw
    split_ifs
    · exact h.setsUp v hv
    · exact h.setsUp v hv
  · intro w hw
    obtain ⟨v, hv, rfl⟩ := old hw
    split_ifs
    · exact h.bounded v hv
    · exact h.bounded v hv
  · intro w hw
    obtain ⟨v, hv, rfl⟩ := old hw
    rw [TPMIDBusCache.removeFeature, NodeMap.holds_erase_iff]
    split_ifs with hi
    · simp [hi]
    · simp [hi, h.live v hv]

theorem WritesInv.addSSTFeature (h : c.WritesInv) (properties : Properties) :
    (c.addSSTFeature index properties).WritesInv := by
  by_cases hr : properties.Rejected .feature
  · rw [addSSTFeature_of_rejected c index properties hr]
    exact h.removeFeature
  · obtain ⟨feature, ws, hf, hws, he⟩ := addSSTFeature_of_not_rejected c index properties hr
    rw [he]
    refine ⟨?_, ?_, ?_, ?_⟩
    · intro i n hn
      by_cases hi : i = index
      · subst hi
        rw [NodeMap.assign_entry, Function.update_self] at hn
        obtain rfl := Option.some.inj hn
        exact hf
      · rw [NodeMap.assign_entry, Function.update_of_ne hi] at hn
        exact h.usable i n hn
    · intro w hw
      rcases List.mem_append.mp hw with hw | hw
      · exact h.setsUp w hw
      · exact (hws w hw).2.2.2
    · intro w hw
      rcases List.mem_append.mp hw with hw | hw
      · exact Nat.lt_succ_of_lt (h.bounded w hw)
      · obtain ⟨hi, hn, -⟩ := hws w hw
        rw [hn]
        exact (c.features.holds_assign_self index).lt
    · intro w hw
      rcases List.mem_append.mp hw with hw | hw
      · rw [h.live w hw, NodeMap.holds_assign_iff _ _ (h.bounded w hw)]
      · obtain ⟨hi, hn, hs, -⟩ := hws w hw
        rw [hi, hn, hs]
        simp [c.features.holds_assign_self index]

/-- Handlers that touch neither features nor writes. -/
theorem WritesInv.of_eq (h : c.WritesInv) (hf : c'.features = c.features)
    (hw : ∀ w ∈ c'.writes, w ∈ c.writes) : c'.WritesInv := by
  refine ⟨?_, fun w hw' => h.setsUp w (hw w hw'), ?_, ?_⟩
  · rw [hf]
    exact h.usable
  · rw [hf]
    exact fun w hw' => h.bounded w (hw w hw')
  · rw [hf]
    exact fun w hw' => h.live w (hw w hw')

theorem WritesInv.addCPU (h : c.WritesInv) (properties : Properties) :
    (c.addCPU index properties).WritesInv := by
  unfold TPMIDBusCache.addCPU
  split
  · exact h.of_eq rfl fun _ => id
  · exact h.of_eq rfl fun _ => id

theorem kept_writesInv : Kept (fun _ => True) WritesInv where
  addCPU _ _ properties h _ := h.addCPU properties
  addSSTFeature _ _ properties h _ := h.addSSTFeature properties
  removeCPU _ _ h := h.of_eq rfl fun _ => id
  removeFeature _ _ h := h.removeFeature

theorem WritesInv.propertyWritten (h : c.WritesInv) {w : PropertyWrite} (hw : w.SetsUp) {ok : Bool}
    (hs : c.propertyWritten w ok = some c') : c'.WritesInv := by
  unfold TPMIDBusCache.propertyWritten at hs
  split_ifs at hs
  · obtain rfl := Option.some.inj hs
    exact h
  · obtain rfl := Option.some.inj hs
    refine ⟨?_, h.setsUp, h.bounded, ?_⟩
    · intro i n hn
      by_cases hi : i = w.index
      · subst hi
        rw [NodeMap.modify_entry, Function.update_self, Option.mem_def,
          Option.map_eq_some_iff] at hn
        obtain ⟨n', hn', rfl⟩ := hn
        exact (h.usable _ n' hn').set hw
      · rw [NodeMap.modify_entry, Function.update_of_ne hi] at hn
        exact h.usable i n hn
    · intro v hv
      rw [h.live v hv, NodeMap.holds_modify_iff]

end TPMIDBusCache

namespace Daemon

open TPMIDBusCache

variable {s s' : Daemon} {e : Event}

theorem step_writesInv (h : s.cache.WritesInv) (hs : s.step e = some s') : s'.cache.WritesInv := by
  cases step_handled hs with
  | signal path msg c hc => exact kept_writesInv.handleTPMISignal (fun _ _ => trivial) h hc
  | subTree paths c hc =>
    obtain ⟨reads, rfl⟩ := s.cache.handleGetTPMISubTree_eq hc
    exact h.of_eq rfl fun _ => id
  | properties n reply read =>
    have h' : TPMIDBusCache.WritesInv { s.cache with reads := s.cache.reads.eraseIdx n } :=
      h.of_eq rfl fun _ => id
    exact kept_writesInv.handleProperties h' trivial reply
  | propertyWritten n ok w hw c hc =>
    have h' : TPMIDBusCache.WritesInv { s.cache with writes := s.cache.writes.eraseIdx n } :=
      h.of_eq rfl fun _ hv => List.mem_of_mem_eraseIdx hv
    exact h'.propertyWritten (h.setsUp w (List.mem_of_getElem? hw)) hc
  | noSubTree | noRead | noWrite | create | noObject | ready => exact h

/-- The write whose success the event reports. -/
def completed (s : Daemon) : Event → Option PropertyWrite
  | .propertyWritten n true => s.cache.writes[n]?
  | _ => none

/-- The handler finds the record that the write was sent for: it reads no absent entry, and stamps
the value onto no other record. -/
def CompletionSound (s : Daemon) (e : Event) : Prop :=
  ∀ w ∈ s.completed e, s.cache.features.Holds w.index w.node

/-- The feature record of the index has not been erased since the write was sent. -/
def CompletionPrompt (s : Daemon) (e : Event) : Prop :=
  ∀ w ∈ s.completed e, w.erased = false

instance : DecidableRel CompletionSound := fun s e =>
  inferInstanceAs (Decidable (∀ w ∈ s.completed e, _))

theorem completionSound_iff (h : s.cache.WritesInv) (e : Event) :
    s.CompletionSound e ↔ s.CompletionPrompt e := by
  have hw : ∀ w ∈ s.completed e, w ∈ s.cache.writes := by
    intro w hw
    unfold completed at hw
    split at hw
    · exact List.mem_of_getElem? hw
    · cases hw
  exact forall₂_congr fun w hw' => (h.live w (hw w hw')).symm

/-- In every run the completions are handled soundly if and only if none of them reports the success
of a write whose record has been erased since it was sent; and no record is ever locked while it is
disabled or accessed through the PCS path. -/
theorem run_completionSound (es : List Event) :
    (Runs.ExecGuarded step CompletionSound init es ↔
      Runs.ExecGuarded step CompletionPrompt init es) ∧
    ∀ s, Runs.exec step init es = some s →
      ∀ i, ∀ n ∈ s.cache.features.entry i, n.value.Usable := by
  constructor
  · exact Runs.execGuarded_congr (I := fun s : Daemon => s.cache.WritesInv)
      (fun _ _ _ _ h _ => step_writesInv h) (fun _ e _ h => completionSound_iff h e) writesInv_init
  · intro s hs
    have h : s.cache.WritesInv := Runs.exec_invariant (I := fun s : Daemon => s.cache.WritesInv)
      (fun _ _ _ => step_writesInv) writesInv_init hs
    exact h.usable

def enabledRun : List Event := [cpuAdded, featureAdded false, .propertyWritten 0 true]

theorem run_completionSound_enabled :
    Runs.ExecGuarded step CompletionPrompt init enabledRun ∧
    ∃ s, Runs.exec step init enabledRun = some s ∧ s.cache.writes = [] ∧
      ∃ n ∈ s.cache.features.entry 0, n.value.enabled = true ∧ n.value.Usable := by
  have hg : Runs.ExecGuarded step CompletionSound init enabledRun := by decide +kernel
  have hs := Option.some_get (x := Runs.exec step init enabledRun) (by decide +kernel)
  have hn : ∃ n ∈ ((Runs.exec step init enabledRun).get (by decide +kernel)).cache.features.entry 0,
      n.value.enabled = true := by decide +kernel
  obtain ⟨n, hn, he⟩ := hn
  refine ⟨(run_completionSound enabledRun).1.mp hg, _, hs.symm, by decide +kernel, n, hn, he, ?_⟩
  exact (run_completionSound enabledRun).2 _ hs.symm 0 n hn

/-- The handler throws if the record is absent, and marks a record as enabled that has been
announced as disabled since. -/
theorem not_completionSound :
    (¬ Runs.ExecGuarded step CompletionSound init
      [featureAdded false, featureRemoved, .propertyWritten 0 true] ∧
    Runs.exec step init [featureAdded false, featureRemoved, .propertyWritten 0 true] = none) ∧
    ¬ Runs.ExecGuarded step CompletionSound init
      [featureAdded false, featureRemoved, featureAdded false, .propertyWritten 0 true] := by
  refine ⟨⟨?_, ?_⟩, ?_⟩
  · decide +kernel
  · exact Option.isNone_iff_eq_none.mp (by decide +kernel)
  · decide +kernel

end Daemon

end MetaCommon.Tpmi
