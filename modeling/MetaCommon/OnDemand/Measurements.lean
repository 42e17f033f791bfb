import Mathlib.Data.List.Range
import MetaCommon.OnDemand.MeterState

/-!
# Measurements are delivered once

What the shared list promises, whatever the order of requests, replies, signals and timers: every
entry has a descriptor of its own, which is open, and knows what has come for it; and a measurement
that was read is read once, after a signal for it has come.
-/

namespace MetaCommon.OnDemand

/-- The signals that have come for an entry are those its flags tell of. -/
def OndemandData.Told (o : OndemandData) (codes : List ℤ) : Prop :=
  (o.methodSuccess = true ↔ codes ≠ []) ∧
    (o.signalResponseSuccess = true ↔ OnDemandResponseCode.ondemandSuccess.toInt ∈ codes)

/-- A measurement is read after a signal, and "Enabled" if there are data and a signal reported
success. -/
def Delivery.Right (d : Delivery) : Prop :=
  d.codes ≠ [] ∧ (d.feature.enabled = true ↔
    d.feature.featureData ≠ [] ∧ OnDemandResponseCode.ondemandSuccess.toInt ∈ d.codes)

namespace Store

def holds (s : Store) (id : String) : Option ℕ := (s.ondemandList id).map (·.fd)

def identifiers (s : Store) : List String := s.tasks.map (·.ondemandListIdentifier)

variable {s s' : Store}

/-! ### What a step does to the list -/

/-- Entries keep their descriptor and their task, and hear the signals that come. -/
structure Relabelled (s s' : Store) : Prop where
  entry : ∀ id, ∃ g : OndemandData → OndemandData,
    s'.ondemandList id = (s.ondemandList id).map g ∧
      (∀ o, (g o).fd = o.fd ∧ (g o).task = o.task) ∧
      ∀ o, o.Told (s.heard id) → (g o).Told (s'.heard id)
  identifiers : s'.identifiers = s.identifiers
  opened : s'.opened = s.opened
  lost : s'.lost = s.lost
  deliveries : s'.deliveries = s.deliveries

theorem Relabelled.refl (s : Store) : s.Relabelled s where
  entry _ := ⟨fun o => o, Option.map_id'.symm, fun _ => ⟨rfl, rfl⟩, fun _ h => h⟩
  identifiers := rfl
  opened := rfl
  lost := rfl
  deliveries := rfl

theorem identifiers_disarm (s : Store) (task : ℕ) :
    (s.disarm task).identifiers = s.identifiers := by
  apply List.ext_getElem?
  intro i
  simp only [identifiers, disarm, List.getElem?_map, List.getElem?_modify]
  cases s.tasks[i]? with
  | none => rfl
  | some t => by_cases h : task = i <;> simp [h]

theorem relabelled_disarm (s : Store) (task : ℕ) : s.Relabelled (s.disarm task) :=
  { Relabelled.refl s with identifiers := identifiers_disarm s task }

theorem told_expire {o : OndemandData} {codes : List ℤ} (h : o.Told codes) :
    o.expire.Told codes := h

theorem relabelled_timeout (s : Store) (task : ℕ) : s.Relabelled (s.timeout task) := by
  unfold timeout
  cases ht : s.tasks[task]? with
  | none => exact Relabelled.refl s
  | some t =>
    by_cases harmed : t.armed
    · simp only [if_pos harmed]
      refine ⟨fun id => ?_, identifiers_disarm _ _, rfl, rfl, rfl⟩
      by_cases hid : id = t.ondemandListIdentifier
      · subst hid
        exact ⟨OndemandData.expire, Function.update_self .., fun _ => ⟨rfl, rfl⟩,
          fun _ => told_expire⟩
      · refine ⟨fun o => o, ?_, fun _ => ⟨rfl, rfl⟩, fun _ h => h⟩
        rw [Option.map_id']
        exact Function.update_of_ne hid ..
    · simp only [if_neg harmed]
      exact Relabelled.refl s

theorem told_complete {o : OndemandData} {codes : List ℤ} (h : o.Told codes) (code : ℤ) :
    (o.complete code).Told (codes ++ [code]) := by
  refine ⟨by simp [OndemandData.complete], ?_⟩
  rw [List.mem_append, List.mem_singleton, ← h.2]
  simp only [OndemandData.complete, Bool.or_eq_true, decide_eq_true_eq]
  exact or_congr_right eq_comm

theorem relabelled_signal (s : Store) (m : String) (code : ℤ) : s.Relabelled (s.signal m code) := by
  refine ⟨fun id => ?_, ?_, rfl, rfl, rfl⟩
  · by_cases hhears : s.hears m id
    · refine ⟨OndemandData.complete code, if_pos hhears, fun _ => ⟨rfl, rfl⟩, fun o h => ?_⟩
      have hheard : (s.signal m code).heard id = s.heard id ++ [code] := if_pos hhears
      rw [hheard]
      exact told_complete h code
    · refine ⟨fun o => o, ?_, fun _ => ⟨rfl, rfl⟩, fun o h => ?_⟩
      · rw [Option.map_id']
        exact if_neg hhears
      · have hheard : (s.signal m code).heard id = s.heard id := if_neg hhears
        rwa [hheard]
  · unfold identifiers signal
    rw [List.map_map]
    apply List.map_congr_left
    intro t _
    rw [Function.comp_apply]
    split_ifs <;> rfl

inductive Evolves (s : Store) : Store → Prop
  | relabel {t} (h : s.Relabelled t) : Evolves s t
  | create {fd} (processorId reqFeature : String) (hfresh : fd ∉ s.opened) :
      Evolves s (s.createTask fd processorId reqFeature)
  | drop {id o} (h : s.ondemandList id = some o) :
      Evolves s { s.erase id with opened := s.opened.erase o.fd }
  | deliver {id o d} (h : s.ondemandList id = some o) (hsuccess : o.methodSuccess = true)
      (htask : d.task = o.task) (hcodes : d.codes = s.heard id)
      (henabled : d.feature.enabled = true ↔
        d.feature.featureData ≠ [] ∧ o.signalResponseSuccess = true) :
      Evolves s { s.erase id with
        opened := s.opened.erase o.fd
        deliveries := s.deliveries ++ [d] }

/-! ### What the list promises -/

structure Sound (s : Store) : Prop where
  accounted : Handles.Accounted s.holds s.lost s.opened
  task : ∀ {id o}, s.ondemandList id = some o → s.identifiers[o.task]? = some id
  told : ∀ {id o}, s.ondemandList id = some o → o.Told (s.heard id)
  once : (s.deliveries.map (·.task)).Nodup
  past : ∀ d ∈ s.deliveries, d.task < s.identifiers.length ∧
    ∀ {id o}, s.ondemandList id = some o → o.task ≠ d.task
  right : ∀ d ∈ s.deliveries, d.Right

theorem sound_init : init.Sound where
  accounted := Handles.accounted_empty
  task h := nomatch h
  told h := nomatch h
  once := List.nodup_nil
  past _ hd := nomatch hd
  right _ hd := nomatch hd

theorem holds_of_some {id : String} {o : OndemandData} (h : s.ondemandList id = some o) :
    s.holds id = some o.fd := by rw [holds, h]; rfl

theorem Sound.mem_opened (hs : s.Sound) {id : String} {o : OndemandData}
    (h : s.ondemandList id = some o) : o.fd ∈ s.opened := hs.accounted.mem_opened (holds_of_some h)

theorem Relabelled.holds (h : s.Relabelled s') : s'.holds = s.holds := by
  funext id
  obtain ⟨g, hg, hkeep, -⟩ := h.entry id
  rw [Store.holds, Store.holds, hg, Option.map_map]
  cases s.ondemandList id with
  | none => rfl
  | some o => exact congrArg some (hkeep o).1

theorem Relabelled.sound (h : s.Relabelled s') (hs : s.Sound) : s'.Sound := by
  have hentry : ∀ {id o'}, s'.ondemandList id = some o' → ∃ o, s.ondemandList id = some o ∧
      o'.task = o.task ∧ o'.Told (s'.heard id) := by
    intro id o' ho'
    obtain ⟨g, hg, hkeep, htold⟩ := h.entry id
    rw [hg] at ho'
    obtain ⟨o, ho, rfl⟩ := Option.map_eq_some_iff.mp ho'
    exact ⟨o, ho, (hkeep o).2, htold o (hs.told ho)⟩
  constructor
  · rw [h.holds, h.lost, h.opened]
    exact hs.accounted
  · intro id o' ho'
    obtain ⟨o, ho, htask, -⟩ := hentry ho'
    rw [htask, h.identifiers]
    exact hs.task ho
  · intro id o' ho'
    obtain ⟨o, -, -, htold⟩ := hentry ho'
    exact htold
  · rw [h.deliveries]
    exact hs.once
  · intro d hd
    rw [h.deliveries] at hd
    rw [h.identifiers]
    refine ⟨(hs.past d hd).1, fun {id o'} ho' => ?_⟩
    obtain ⟨o, ho, htask, -⟩ := hentry ho'
    rw [htask]
    exact (hs.past d hd).2 ho
  · rw [h.deliveries]
    exact hs.right

theorem identifiers_createTask (s : Store) (fd : ℕ) (processorId reqFeature : String) :
    (s.createTask fd processorId reqFeature).identifiers =
      s.identifiers ++ [processorId ++ reqFeature] := by
  simp [identifiers, createTask]

theorem holds_createTask (s : Store) (fd : ℕ) (processorId reqFeature : String) :
    (s.createTask fd processorId reqFeature).holds =
      Function.update s.holds (processorId ++ reqFeature) (some fd) := by
  funext id
  by_cases hid : id = processorId ++ reqFeature
  · subst hid
    simp [holds, createTask]
  · simp [holds, createTask, Function.update_of_ne hid]

theorem sound_createTask (hs : s.Sound) {fd : ℕ} (hfresh : fd ∉ s.opened)
    (processorId reqFeature : String) : (s.createTask fd processorId reqFeature).Sound := by
  have hlength : s.identifiers.length = s.tasks.length := List.length_map ..
  have hentry : ∀ {id o}, (s.createTask fd processorId reqFeature).ondemandList id = some o →
      (id = processorId ++ reqFeature ∧ o = ⟨fd, false, false, false, s.tasks.length⟩) ∨
        (id ≠ processorId ++ reqFeature ∧ s.ondemandList id = some o) := by
    intro id o ho
    by_cases hid : id = processorId ++ reqFeature
    · subst hid
      have hnew : (s.createTask fd processorId reqFeature).ondemandList
          (processorId ++ reqFeature) = some ⟨fd, false, false, false, s.tasks.length⟩ :=
        Function.update_self ..
      exact .inl ⟨rfl, (Option.some.inj (hnew.symm.trans ho)).symm⟩
    · exact .inr ⟨hid, (Function.update_of_ne hid ..).symm.trans ho⟩
  constructor
  · rw [holds_createTask]
    exact hs.accounted.take hfresh (processorId ++ reqFeature)
  · intro id o ho
    rw [identifiers_createTask]
    rcases hentry ho with ⟨rfl, rfl⟩ | ⟨-, ho⟩
    · rw [← hlength, List.getElem?_append_right (Nat.le_refl _), Nat.sub_self]
      rfl
    · have htask := hs.task ho
      rwa [List.getElem?_append_left (List.getElem?_eq_some_iff.mp htask).1]
  · intro id o ho
    rcases hentry ho with ⟨rfl, rfl⟩ | ⟨hid, ho⟩
    · have hheard : (s.createTask fd processorId reqFeature).heard (processorId ++ reqFeature) =
          [] := Function.update_self ..
      rw [hheard]
      simp [OndemandData.Told]
    · have hheard : (s.createTask fd processorId reqFeature).heard id = s.heard id :=
        Function.update_of_ne hid ..
      rw [hheard]
      exact hs.told ho
  · exact hs.once
  · intro d hd
    rw [identifiers_createTask, List.length_append]
    obtain ⟨hlt, hpast⟩ := hs.past d hd
    refine ⟨by omega, fun {id o} ho => ?_⟩
    rcases hentry ho with ⟨-, rfl⟩ | ⟨-, ho⟩
    · change s.tasks.length ≠ d.task
      omega
    · exact hpast ho
  · exact hs.right

theorem holds_erase (s : Store) (id : String) :
    (s.erase id).holds = Function.update s.holds id none := by
  funext id'
  by_cases hid : id' = id
  · subst hid
    simp [holds, erase]
  · simp [holds, erase, Function.update_of_ne hid]

theorem some_of_erase {id id' : String} {o : OndemandData}
    (h : (s.erase id).ondemandList id' = some o) : id' ≠ id ∧ s.ondemandList id' = some o := by
  by_cases hid : id' = id
  · subst hid
    exact nomatch (Function.update_self ..).symm.trans h
  · exact ⟨hid, (Function.update_of_ne hid ..).symm.trans h⟩

theorem sound_erase (hs : s.Sound) {id : String} {o : OndemandData}
    (h : s.ondemandList id = some o) :
    Sound { s.erase id with opened := s.opened.erase o.fd } where
  accounted := by
    have ha := (hs.accounted.giveBack (holds_of_some h)).2
    rw [← holds_erase] at ha
    exact ha
  task ho := hs.task (some_of_erase ho).2
  told ho := hs.told (some_of_erase ho).2
  once := hs.once
  past d hd := ⟨(hs.past d hd).1, fun ho => (hs.past d hd).2 (some_of_erase ho).2⟩
  right := hs.right

theorem Evolves.sound (h : s.Evolves s') (hs : s.Sound) : s'.Sound := by
  cases h with
  | relabel h => exact h.sound hs
  | create processorId reqFeature hfresh => exact sound_createTask hs hfresh processorId reqFeature
  | drop h => exact sound_erase hs h
  | @deliver id o d h hsuccess htask hcodes henabled =>
    have herase := sound_erase hs h
    have htold := hs.told h
    refine ⟨herase.accounted, herase.task, herase.told, ?_, ?_, ?_⟩
    · rw [List.map_append, List.map_singleton]
      apply List.nodup_append.mpr
      refine ⟨hs.once, List.nodup_singleton _, fun t ht t' ht' => ?_⟩
      obtain ⟨d', hd', rfl⟩ := List.mem_map.mp ht
      rw [List.mem_singleton.mp ht', htask]
      exact ((hs.past d' hd').2 h).symm
    · intro d' hd'
      rcases List.mem_append.mp hd' with hd' | hd'
      · exact herase.past d' hd'
      · rw [List.mem_singleton.mp hd', htask]
        refine ⟨(List.getElem?_eq_some_iff.mp (hs.task h)).1, fun {id' o'} ho' heq => ?_⟩
        obtain ⟨hne, ho'⟩ := some_of_erase ho'
        have hid := hs.task ho'
        rw [heq, hs.task h] at hid
        exact hne (Option.some.inj hid).symm
    · intro d' hd'
      rcases List.mem_append.mp hd' with hd' | hd'
      · exact hs.right d' hd'
      · rw [List.mem_singleton.mp hd']
        refine ⟨hcodes ▸ htold.1.mp hsuccess, ?_⟩
        rw [henabled, hcodes, htold.2]

end Store

end MetaCommon.OnDemand
