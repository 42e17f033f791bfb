import MetaCommon.Tpmi.Interface

/-!
# What the events do to the records of the cache

Every handler erases some records, puts some in and leaves the others where they are. An event
erases a record if it removes the interface or announces a record that cannot be used.
-/

namespace MetaCommon.Tpmi

inductive RecordKind
  | cpu
  | feature
deriving DecidableEq

def RecordKind.interface : RecordKind → String
  | .cpu => "com.intel.TPMI"
  | .feature => "com.intel.TPMI.Feature"

/-- A record that is removed when it is announced: a property is missing or has another type, or
the feature is locked and disabled, or locked and accessed through the PCS path. -/
def Properties.Rejected (properties : Properties) : RecordKind → Prop
  | .cpu => properties.unpackCPU = none
  | .feature => ∀ feature ∈ properties.unpackFeature,
      feature.locked = true ∧ (feature.enabled = false ∨ feature.usePCS = true)

instance (properties : Properties) : ∀ kind, Decidable (properties.Rejected kind)
  | .cpu => inferInstanceAs (Decidable (properties.unpackCPU = none))
  | .feature =>
    match h : properties.unpackFeature with
    | none => isTrue (by simp [Properties.Rejected, h])
    | some feature => decidable_of_iff
        (feature.locked = true ∧ (feature.enabled = false ∨ feature.usePCS = true))
        (by simp [Properties.Rejected, h])

def Signal.Erases (kind : RecordKind) : Signal → Prop
  | .interfacesAdded is => ∃ i ∈ is, i.1 = kind.interface ∧ i.2.Rejected kind
  | .interfacesRemoved is => ∃ i ∈ is, i = kind.interface
  | .other => False

instance (kind : RecordKind) : ∀ signal : Signal, Decidable (signal.Erases kind)
  | .interfacesAdded is =>
    inferInstanceAs (Decidable (∃ i ∈ is, i.1 = kind.interface ∧ i.2.Rejected kind))
  | .interfacesRemoved is => inferInstanceAs (Decidable (∃ i ∈ is, i = kind.interface))
  | .other => inferInstanceAs (Decidable False)

/-- The object a signal is about, unless the signal is ignored. -/
def signalObject (path : ObjectPath) : Option PathComponents :=
  match decodePath path with
  | .ok (some object) => if object.Relevant then some object else none
  | _ => none

/-- The event erases the record of `index`. -/
def Event.Erases (s : Daemon) (kind : RecordKind) (index : ℤ) : Event → Prop
  | .signal path msg => ∃ object ∈ signalObject path, object.cpuIndex = index ∧ msg.Erases kind
  | .properties n reply => ∃ read ∈ s.cache.reads[n]?,
      read.isCPUInterface = decide (kind = .cpu) ∧ read.cpuIndex = index ∧
      ∃ p ∈ reply, Properties.Rejected p kind
  | _ => False

instance (s : Daemon) (kind : RecordKind) (index : ℤ) :
    ∀ e : Event, Decidable (e.Erases s kind index)
  | .signal path msg => inferInstanceAs
      (Decidable (∃ object ∈ signalObject path, object.cpuIndex = index ∧ msg.Erases kind))
  | .properties n reply => inferInstanceAs (Decidable (∃ read ∈ s.cache.reads[n]?,
      read.isCPUInterface = decide (kind = .cpu) ∧ read.cpuIndex = index ∧
      ∃ p ∈ reply, Properties.Rejected p kind))
  | .subTree _ => inferInstanceAs (Decidable False)
  | .propertyWritten .. => inferInstanceAs (Decidable False)
  | .create _ => inferInstanceAs (Decidable False)
  | .ready _ => inferInstanceAs (Decidable False)

/-! ### What a step does to the records -/

namespace TPMIDBusCache

/-- The records of `E` are erased on the way from `c` to `c'`, and no others. -/
structure Evolves (c : TPMIDBusCache) (E : RecordKind → ℤ → Prop) (c' : TPMIDBusCache) : Prop where
  cpus : NodeMap.Evolves (E .cpu) c.cpus c'.cpus
  features : NodeMap.Evolves (E .feature) c.features c'.features

variable {c c' : TPMIDBusCache} {E F G : RecordKind → ℤ → Prop}

theorem Evolves.of_eq (hc : c'.cpus = c.cpus) (hf : c'.features = c.features)
    (hE : ∀ kind i, ¬ E kind i) : c.Evolves E c' :=
  ⟨hc ▸ .refl _ (hE .cpu), hf ▸ .refl _ (hE .feature)⟩

theorem Evolves.trans {c₁ : TPMIDBusCache} (h₁ : c.Evolves E c₁) (h₂ : c₁.Evolves F c')
    (hG : ∀ kind i, G kind i ↔ E kind i ∨ F kind i) : c.Evolves G c' :=
  ⟨h₁.cpus.trans h₂.cpus (hG .cpu), h₁.features.trans h₂.features (hG .feature)⟩

/-- Only the records matter. -/
theorem Evolves.of_records {c₁ : TPMIDBusCache} (h : c₁.Evolves E c') (hc : c₁.cpus = c.cpus)
    (hf : c₁.features = c.features) : c.Evolves E c' :=
  ⟨hc ▸ h.cpus, hf ▸ h.features⟩

theorem Evolves.congr (h : c.Evolves E c') (hE : ∀ kind i, F kind i ↔ E kind i) :
    c.Evolves F c' := by
  have he : F = E := funext fun kind => funext fun i => propext (hE kind i)
  rwa [he]

variable (c) (index : ℤ) (properties : Properties)

theorem removeCPU_evolves (hE : ∀ kind i, E kind i ↔ kind = .cpu ∧ i = index) :
    c.Evolves E (c.removeCPU index) := by
  constructor
  · exact c.cpus.evolves_erase index fun i => by simp [hE]
  · exact .refl _ fun i => by simp [hE]

theorem removeFeature_evolves (hE : ∀ kind i, E kind i ↔ kind = .feature ∧ i = index) :
    c.Evolves E (c.removeFeature index) := by
  constructor
  · exact .refl _ fun i => by simp [hE]
  · exact c.features.evolves_erase index fun i => by simp [hE]

theorem addCPU_evolves
    (hE : ∀ kind i, E kind i ↔ kind = .cpu ∧ i = index ∧ properties.Rejected kind) :
    c.Evolves E (c.addCPU index properties) := by
  unfold addCPU
  split
  · next h =>
    apply removeCPU_evolves
    intro kind i
    rw [hE]
    constructor
    · exact fun h => ⟨h.1, h.2.1⟩
    · rintro ⟨rfl, rfl⟩
      exact ⟨rfl, rfl, h⟩
  · next cpu h =>
    have hE' : ∀ kind i, ¬ E kind i := by
      intro kind i hi
      obtain ⟨rfl, -, hr⟩ := (hE kind i).mp hi
      rw [Properties.Rejected, h] at hr
      cases hr
    exact ⟨c.cpus.evolves_assign index (hE' .cpu) cpu, .refl _ (hE' .feature)⟩

theorem addSSTFeature_of_rejected (h : properties.Rejected .feature) :
    c.addSSTFeature index properties = c.removeFeature index := by
  unfold addSSTFeature
  cases hu : properties.unpackFeature with
  | none => rfl
  | some feature =>
    obtain ⟨hl, he⟩ := h feature hu
    rcases he with he | he <;> cases hen : feature.enabled <;> simp_all

/-- A feature that is not rejected replaces the record of its index, and the writes that set it up
are sent for the new record. -/
theorem addSSTFeature_of_not_rejected (h : ¬ properties.Rejected .feature) :
    ∃ feature ws, ¬ (feature.locked = true ∧ (feature.enabled = false ∨ feature.usePCS = true)) ∧
      (∀ w ∈ ws, w.index = index ∧ w.node = c.features.idFor index ∧ w.erased = false ∧
        (w.property = .enabled ∧ w.value = true ∨ w.property = .usePCS ∧ w.value = false)) ∧
      c.addSSTFeature index properties = { c with
        features := c.features.assign index feature, writes := c.writes ++ ws } := by
  unfold Properties.Rejected at h
  push Not at h
  obtain ⟨feature, hu, hf⟩ := h
  refine ⟨feature,
    (if !feature.enabled then [⟨index, .enabled, true, c.features.idFor index, false⟩] else []) ++
    (if feature.usePCS then [⟨index, .usePCS, false, c.features.idFor index, false⟩] else []),
    ?_, ?_, ?_⟩
  · rintro ⟨hl, he⟩
    rcases he with he | he
    · exact (hf hl).1 he
    · exact (hf hl).2 he
  · intro w hw
    cases he : feature.enabled <;> cases hp : feature.usePCS <;> simp_all
    aesop
  · simp only [addSSTFeature, Option.mem_def.mp hu]
    cases hl : feature.locked <;> cases he : feature.enabled <;> cases hp : feature.usePCS <;>
      simp_all [setProperty]

theorem addSSTFeature_evolves
    (hE : ∀ kind i, E kind i ↔ kind = .feature ∧ i = index ∧ properties.Rejected kind) :
    c.Evolves E (c.addSSTFeature index properties) := by
  by_cases hr : properties.Rejected .feature
  · rw [addSSTFeature_of_rejected c index properties hr]
    apply removeFeature_evolves
    intro kind i
    rw [hE]
    constructor
    · exact fun h => ⟨h.1, h.2.1⟩
    · rintro ⟨rfl, rfl⟩
      exact ⟨rfl, rfl, hr⟩
  · have hE' : ∀ kind i, ¬ E kind i := by
      intro kind i hi
      obtain ⟨rfl, -, h⟩ := (hE kind i).mp hi
      exact hr h
    obtain ⟨feature, ws, -, -, he⟩ := addSSTFeature_of_not_rejected c index properties hr
    rw [he]
    exact ⟨.refl _ (hE' .cpu), c.features.evolves_assign index (hE' .feature) feature⟩

/-- What an interface does, if it is that of a CPU or that of a feature. -/
theorem evolves_by_interface {name : String} {R : RecordKind → Prop} {a b : TPMIDBusCache}
    (hE : ∀ kind j, E kind j ↔ index = j ∧ name = kind.interface ∧ R kind)
    (ha : (∀ kind j, E kind j ↔ kind = .cpu ∧ j = index ∧ R kind) → c.Evolves E a)
    (hb : (∀ kind j, E kind j ↔ kind = .feature ∧ j = index ∧ R kind) → c.Evolves E b) :
    c.Evolves E (if name = "com.intel.TPMI" then a
      else if name = "com.intel.TPMI.Feature" then b else c) := by
  split_ifs with h₁ h₂
  · apply ha
    intro kind j
    rw [hE, h₁]
    cases kind <;> simp [RecordKind.interface, eq_comm]
  · apply hb
    intro kind j
    rw [hE, h₂]
    cases kind <;> simp [RecordKind.interface, eq_comm]
  · apply Evolves.of_eq rfl rfl
    intro kind j hi
    rw [hE] at hi
    cases kind
    · exact h₁ hi.2.1
    · exact h₂ hi.2.1

theorem interfaceAdded_evolves (i : String × Properties)
    (hE : ∀ kind j, E kind j ↔ index = j ∧ i.1 = kind.interface ∧ i.2.Rejected kind) :
    c.Evolves E (interfaceAdded index c i) :=
  c.evolves_by_interface index hE (c.addCPU_evolves index i.2) (c.addSSTFeature_evolves index i.2)

theorem interfaceRemoved_evolves (i : String)
    (hE : ∀ kind j, E kind j ↔ index = j ∧ i = kind.interface) :
    c.Evolves E (interfaceRemoved index c i) := by
  apply c.evolves_by_interface index (R := fun _ => True)
  · simpa only [and_true] using hE
  · intro hcpu
    exact c.removeCPU_evolves index (by simpa only [and_true] using hcpu)
  · intro hfeature
    exact c.removeFeature_evolves index (by simpa only [and_true] using hfeature)

/-- The interfaces of a message are handled one after the other. -/
theorem foldl_evolves {β : Type} {f : TPMIDBusCache → β → TPMIDBusCache}
    {P : β → RecordKind → ℤ → Prop} (hf : ∀ (c : TPMIDBusCache) b, c.Evolves (P b) (f c b)) (bs : List β)
    (c : TPMIDBusCache) : c.Evolves (fun kind i => ∃ b ∈ bs, P b kind i) (bs.foldl f c) := by
  induction bs generalizing c with
  | nil => exact .of_eq rfl rfl (by simp)
  | cons b bs ih =>
    exact (hf c b).trans (ih (f c b)) (by simp)

theorem applySignal_evolves (signal : Signal) :
    c.Evolves (fun kind i => index = i ∧ signal.Erases kind) (c.applySignal index signal) := by
  cases signal with
  | interfacesAdded is =>
    have h := foldl_evolves
      (fun c i => interfaceAdded_evolves c index i (fun _ _ => Iff.rfl)) is c
    apply h.congr
    intro kind j
    simp only [Signal.Erases]
    tauto
  | interfacesRemoved is =>
    have h := foldl_evolves
      (fun c i => interfaceRemoved_evolves c index i (fun _ _ => Iff.rfl)) is c
    apply h.congr
    intro kind j
    simp only [Signal.Erases]
    tauto
  | other => exact .of_eq rfl rfl (by simp [Signal.Erases])

theorem handleGetTPMISubTree_eq {paths : List (ObjectPath × List String)}
    (h : c.handleGetTPMISubTree paths = some c') :
    ∃ reads, c' = { c with reads := c.reads ++ reads } := by
  induction paths generalizing c with
  | nil =>
    obtain rfl : c = c' := Option.some.inj h
    exact ⟨[], by simp⟩
  | cons p paths ih =>
    unfold handleGetTPMISubTree at h
    split at h
    · cases h
    · exact ih c h
    · next object ho =>
      split_ifs at h with hr
      · obtain ⟨reads, rfl⟩ := ih _ h
        exact ⟨subTreeReads object p.2 ++ reads, by simp⟩
      · exact ih c h

theorem handleTPMISignal_evolves {path : ObjectPath} {signal : Signal}
    (h : c.handleTPMISignal path signal = some c') : c.Evolves (fun kind i =>
      ∃ object ∈ signalObject path, object.cpuIndex = i ∧ signal.Erases kind) c' := by
  unfold handleTPMISignal at h
  unfold signalObject
  split at h
  · cases h
  · next hd =>
    obtain rfl := Option.some.inj h
    exact .of_eq rfl rfl (by simp [hd])
  · next object hd =>
    split_ifs at h with hr
    · obtain rfl := Option.some.inj h
      exact (applySignal_evolves c object.cpuIndex signal).congr (by simp [hd, hr])
    · obtain rfl := Option.some.inj h
      exact .of_eq rfl rfl (by simp [hd, hr])

theorem handleProperties_evolves (read : PropertyRead) (reply : Option Properties) :
    c.Evolves (fun kind i => read.isCPUInterface = decide (kind = .cpu) ∧ read.cpuIndex = i ∧
      ∃ p ∈ reply, Properties.Rejected p kind) (c.handleProperties read reply) := by
  unfold handleProperties
  cases reply with
  | none => exact .of_eq rfl rfl (by simp)
  | some properties =>
    cases hr : read.isCPUInterface with
    | true =>
      apply addCPU_evolves
      intro kind i
      cases kind <;> simp [eq_comm]
    | false =>
      apply addSSTFeature_evolves
      intro kind i
      cases kind <;> simp [eq_comm]

theorem propertyWritten_evolves {w : PropertyWrite} {ok : Bool}
    (h : c.propertyWritten w ok = some c') : c.Evolves (fun _ _ => False) c' := by
  unfold propertyWritten at h
  split_ifs at h with hok hc
  · obtain rfl := Option.some.inj h
    exact .of_eq rfl rfl fun _ _ => id
  · obtain rfl := Option.some.inj h
    constructor
    · exact .refl _ fun _ => id
    · exact c.features.evolves_modify w.index (fun _ => id) fun f => f.set w.value w.property

end TPMIDBusCache

namespace Daemon

open TPMIDBusCache

variable {s s' : Daemon} {e : Event}

/-- The steps by the handler that they run. An answer to no pending call and an object that cannot
be made are passed over. -/
inductive Handled (s : Daemon) : Event → Daemon → Prop
  | signal (path : ObjectPath) (msg : Signal) (c : TPMIDBusCache)
    (hc : s.cache.handleTPMISignal path msg = some c) :
    Handled s (.signal path msg) { s with cache := c }
  | subTree (paths : List (ObjectPath × List String)) (c : TPMIDBusCache)
    (hc : s.cache.handleGetTPMISubTree paths = some c) :
    Handled s (.subTree (some paths)) { s with cache := c, subTreePending := false }
  | noSubTree (reply : Option (List (ObjectPath × List String))) :
    Handled s (.subTree reply) { s with subTreePending := false }
  | properties (n : ℕ) (reply : Option Properties) (read : PropertyRead)
    (hread : s.cache.reads[n]? = some read) :
    Handled s (.properties n reply) { s with
      cache := { s.cache with reads := s.cache.reads.eraseIdx n }.handleProperties read reply }
  | noRead (n : ℕ) (reply : Option Properties) (hread : s.cache.reads[n]? = none) :
    Handled s (.properties n reply) s
  | propertyWritten (n : ℕ) (ok : Bool) (w : PropertyWrite) (hw : s.cache.writes[n]? = some w)
    (c : TPMIDBusCache)
    (hc : { s.cache with writes := s.cache.writes.eraseIdx n }.propertyWritten w ok = some c) :
    Handled s (.propertyWritten n ok) { s with cache := c }
  | noWrite (n : ℕ) (ok : Bool) : Handled s (.propertyWritten n ok) s
  | create (address : ℤ) (o : SSTTPMI) (ho : SSTTPMI.make s.cache address = some o) :
    Handled s (.create address) { s with objects := s.objects ++ [o] }
  | noObject (address : ℤ) : Handled s (.create address) s
  | ready (k : ℕ) : Handled s (.ready k)
    { s with objects := s.objects.modify k fun o => (o.ready s.cache).2 }

theorem step_handled (h : s.step e = some s') : s.Handled e s' := by
  cases e with
  | signal path msg =>
    obtain ⟨c, hc, rfl⟩ := Option.map_eq_some_iff.mp h
    exact .signal path msg c hc
  | subTree reply =>
    simp only [step] at h
    split at h
    · next paths _ =>
      obtain ⟨c, hc, rfl⟩ := Option.map_eq_some_iff.mp h
      exact .subTree paths c hc
    · obtain rfl := Option.some.inj h
      exact .noSubTree _
  | properties n reply =>
    simp only [step] at h
    split at h
    · next hread =>
      obtain rfl := Option.some.inj h
      exact .noRead n reply hread
    · next read hread =>
      obtain rfl := Option.some.inj h
      exact .properties n reply read hread
  | propertyWritten n ok =>
    simp only [step] at h
    split at h
    · obtain rfl := Option.some.inj h
      exact .noWrite n ok
    · next w hw =>
      obtain ⟨c, hc, rfl⟩ := Option.map_eq_some_iff.mp h
      exact .propertyWritten n ok w hw c hc
  | create address =>
    simp only [step] at h
    split at h
    · obtain rfl := Option.some.inj h
      exact .noObject address
    · next o ho =>
      obtain rfl := Option.some.inj h
      exact .create address o ho
  | ready k =>
    obtain rfl := Option.some.inj h
    exact .ready k

/-- An event that leaves the objects alone, one that creates an object, and a call of `ready`. -/
theorem step_cases (h : s.step e = some s') :
    (s'.objects = s.objects ∧ s.cache.Evolves (fun kind i => e.Erases s kind i) s'.cache) ∨
    (∃ address o, e = .create address ∧ SSTTPMI.make s.cache address = some o ∧
      s' = { s with objects := s.objects ++ [o] }) ∨
    (∃ k, e = .ready k ∧
      s' = { s with objects := s.objects.modify k fun o => (o.ready s.cache).2 }) := by
  cases step_handled h with
  | signal path msg c hc => exact .inl ⟨rfl, handleTPMISignal_evolves _ hc⟩
  | subTree paths c hc =>
    obtain ⟨reads, rfl⟩ := s.cache.handleGetTPMISubTree_eq hc
    exact .inl ⟨rfl, .of_eq rfl rfl fun _ _ => id⟩
  | properties n reply read hread =>
    have hp := handleProperties_evolves { s.cache with reads := s.cache.reads.eraseIdx n } read
      reply
    have hc := hp.of_records (c := s.cache) rfl rfl
    exact .inl ⟨rfl, hc.congr fun kind i => by simp [Event.Erases, hread]⟩
  | noRead n reply hread =>
    exact .inl ⟨rfl, .of_eq rfl rfl fun _ _ => by simp [Event.Erases, hread]⟩
  | propertyWritten n ok w hw c hc =>
    exact .inl ⟨rfl, (propertyWritten_evolves _ hc).of_records rfl rfl⟩
  | noSubTree | noWrite | noObject => exact .inl ⟨rfl, .of_eq rfl rfl fun _ _ => id⟩
  | create address o ho => exact .inr (.inl ⟨address, o, rfl, ho, rfl⟩)
  | ready k => exact .inr (.inr ⟨k, rfl, rfl⟩)

end Daemon

/-! ### The indices of the records -/

theorem decodePath_nonneg {path : ObjectPath} {object : PathComponents}
    (h : decodePath path = .ok (some object)) : 0 ≤ object.cpuIndex := by
  have name {featureID : ℤ} {name : List Char}
      (h : decodeCPUName featureID name = .ok (some object)) : 0 ≤ object.cpuIndex := by
    unfold decodeCPUName at h
    split_ifs at h
    · split at h
      · cases h
      · cases h
      · split_ifs at h with hi
        · cases h
        · rw [not_or] at hi
          cases h
          exact Int.not_lt.mp hi.1
    · cases h
  unfold decodePath at h
  split_ifs at h
  · exact name h
  · split at h
    · cases h
    · cases h
    · split_ifs at h
      · cases h
      · exact name h

namespace TPMIDBusCache

/-- No record has a negative index, and none is being read for one. -/
structure Indexed (c : TPMIDBusCache) : Prop where
  cpus : ∀ i, c.cpus.Contains i → 0 ≤ i
  features : ∀ i, c.features.Contains i → 0 ≤ i
  reads : ∀ r ∈ c.reads, 0 ≤ r.cpuIndex

theorem indexed_init : Indexed init := ⟨nofun, nofun, nofun⟩

variable {c c' : TPMIDBusCache} {index : ℤ}

theorem Indexed.removeCPU (h : c.Indexed) : (c.removeCPU index).Indexed :=
  { h with cpus := fun i hi => h.cpus i ((c.cpus.contains_erase_iff index).mp hi).2 }

theorem Indexed.removeFeature (h : c.Indexed) : (c.removeFeature index).Indexed :=
  { h with features := fun i hi => h.features i ((c.features.contains_erase_iff index).mp hi).2 }

theorem Indexed.addCPU (h : c.Indexed) (hi : 0 ≤ index) (properties : Properties) :
    (c.addCPU index properties).Indexed := by
  unfold TPMIDBusCache.addCPU
  split
  · exact h.removeCPU
  · refine { h with cpus := fun i hc => ?_ }
    rcases (c.cpus.contains_assign_iff index).mp hc with rfl | hc
    · exact hi
    · exact h.cpus i hc

theorem Indexed.addSSTFeature (h : c.Indexed) (hi : 0 ≤ index) (properties : Properties) :
    (c.addSSTFeature index properties).Indexed := by
  by_cases hr : properties.Rejected .feature
  · rw [addSSTFeature_of_rejected c index properties hr]
    exact h.removeFeature
  · obtain ⟨feature, ws, -, -, he⟩ := addSSTFeature_of_not_rejected c index properties hr
    rw [he]
    refine { h with features := fun i hc => ?_ }
    rcases (c.features.contains_assign_iff index).mp hc with rfl | hc
    · exact hi
    · exact h.features i hc

/-- A property of the cache that survives every change to the records of an index that meets `P`. -/
structure Kept (P : ℤ → Prop) (I : TPMIDBusCache → Prop) : Prop where
  addCPU : ∀ c index properties, I c → P index → I (c.addCPU index properties)
  addSSTFeature : ∀ c index properties, I c → P index → I (c.addSSTFeature index properties)
  removeCPU : ∀ c index, I c → I (c.removeCPU index)
  removeFeature : ∀ c index, I c → I (c.removeFeature index)

section Kept

variable {P : ℤ → Prop} {I : TPMIDBusCache → Prop}

theorem Kept.applySignal (hI : Kept P I) (h : I c) (hi : P index) (signal : Signal) :
    I (c.applySignal index signal) := by
  cases signal with
  | interfacesAdded is =>
    refine List.foldlRecOn is _ h fun c hc i _ => ?_
    unfold interfaceAdded
    split_ifs
    · exact hI.addCPU _ _ _ hc hi
    · exact hI.addSSTFeature _ _ _ hc hi
    · exact hc
  | interfacesRemoved is =>
    refine List.foldlRecOn is _ h fun c hc i _ => ?_
    unfold interfaceRemoved
    split_ifs
    · exact hI.removeCPU _ _ hc
    · exact hI.removeFeature _ _ hc
    · exact hc
  | other => exact h

/-- The path of a signal has no negative index. -/
theorem Kept.handleTPMISignal (hI : Kept P I) (hP : ∀ index, 0 ≤ index → P index) (h : I c)
    {path : ObjectPath} {signal : Signal} (hs : c.handleTPMISignal path signal = some c') :
    I c' := by
  unfold TPMIDBusCache.handleTPMISignal at hs
  split at hs
  · cases hs
  · obtain rfl := Option.some.inj hs
    exact h
  · next object hd =>
    split_ifs at hs
    · obtain rfl := Option.some.inj hs
      exact hI.applySignal h (hP _ (decodePath_nonneg hd)) signal
    · obtain rfl := Option.some.inj hs
      exact h

theorem Kept.handleProperties (hI : Kept P I) (h : I c) {read : PropertyRead}
    (hi : P read.cpuIndex) (reply : Option Properties) : I (c.handleProperties read reply) := by
  unfold TPMIDBusCache.handleProperties
  split
  · exact h
  · split_ifs
    · exact hI.addCPU _ _ _ h hi
    · exact hI.addSSTFeature _ _ _ h hi

end Kept

theorem kept_indexed : Kept (0 ≤ ·) Indexed where
  addCPU _ _ properties h hi := h.addCPU hi properties
  addSSTFeature _ _ properties h hi := h.addSSTFeature hi properties
  removeCPU _ _ h := h.removeCPU
  removeFeature _ _ h := h.removeFeature

theorem mem_subTreeReads {object : PathComponents} {interfaces : List String} {r : PropertyRead}
    (h : r ∈ subTreeReads object interfaces) : r.cpuIndex = object.cpuIndex := by
  obtain ⟨interface, -, hr⟩ := List.mem_filterMap.mp h
  split_ifs at hr <;> cases hr <;> rfl

theorem Indexed.handleGetTPMISubTree (h : c.Indexed) {paths : List (ObjectPath × List String)}
    (hs : c.handleGetTPMISubTree paths = some c') : c'.Indexed := by
  induction paths generalizing c with
  | nil =>
    obtain rfl : c = c' := Option.some.inj hs
    exact h
  | cons p paths ih =>
    unfold TPMIDBusCache.handleGetTPMISubTree at hs
    split at hs
    · cases hs
    · exact ih h hs
    · next object hd =>
      split_ifs at hs
      · have hr : ∀ r ∈ c.reads ++ subTreeReads object p.2, 0 ≤ r.cpuIndex := by
          intro r hr
          rcases List.mem_append.mp hr with hr | hr
          · exact h.reads r hr
          · rw [mem_subTreeReads hr]
            exact decodePath_nonneg hd
        have h' : Indexed { c with reads := c.reads ++ subTreeReads object p.2 } :=
          ⟨h.cpus, h.features, hr⟩
        exact ih h' hs
      · exact ih h hs

theorem Indexed.propertyWritten (h : c.Indexed) {w : PropertyWrite} {ok : Bool}
    (hs : c.propertyWritten w ok = some c') : c'.Indexed := by
  unfold TPMIDBusCache.propertyWritten at hs
  split_ifs at hs
  · obtain rfl := Option.some.inj hs
    exact h
  · obtain rfl := Option.some.inj hs
    refine ⟨h.cpus, fun i hi => ?_, h.reads⟩
    exact h.features i ((c.features.contains_modify_iff (f := fun f => f.set w.value w.property)
      w.index).mp hi)

end TPMIDBusCache

namespace Daemon

theorem step_indexed {s s' : Daemon} {e : Event} (h : s.cache.Indexed) (hs : s.step e = some s') :
    s'.cache.Indexed := by
  cases step_handled hs with
  | signal path msg c hc => exact TPMIDBusCache.kept_indexed.handleTPMISignal (fun _ => id) h hc
  | subTree paths c hc => exact h.handleGetTPMISubTree hc
  | properties n reply read hread =>
    have hi := h.reads read (List.mem_of_getElem? hread)
    have h' : TPMIDBusCache.Indexed { s.cache with reads := s.cache.reads.eraseIdx n } :=
      { h with reads := fun r hr => h.reads r (List.mem_of_mem_eraseIdx hr) }
    exact TPMIDBusCache.kept_indexed.handleProperties h' hi reply
  | propertyWritten n ok w hw c hc =>
    have h' : TPMIDBusCache.Indexed { s.cache with writes := s.cache.writes.eraseIdx n } :=
      ⟨h.cpus, h.features, h.reads⟩
    exact h'.propertyWritten hc
  | noSubTree | noRead | noWrite | create | noObject | ready => exact h

/-! Signals about the CPU of index 0 and its SST feature. -/

def cpuAdded : Event :=
  .signal ⟨"cpu0".toList, "tpmi".toList⟩ (.interfacesAdded [("com.intel.TPMI",
    [("Address", .uint8 0x30), ("Segment", .uint8 0), ("Bus", .uint8 1), ("Device", .uint8 3),
     ("Function", .uint8 1), ("BARIndex", .uint8 0)])])

def featureAdded (enabled : Bool) : Event :=
  .signal ⟨"5".toList, "cpu0".toList⟩ (.interfacesAdded [("com.intel.TPMI.Feature",
    [("Offset", .uint32 0x1000), ("Instances", .uint32 2), ("Size", .uint32 0x100),
     ("Enabled", .bool enabled), ("InBandReadAllowed", .bool false),
     ("InBandWriteAllowed", .bool false), ("UsePCS", .bool false), ("Locked", .bool false)])])

def featureRemoved : Event :=
  .signal ⟨"5".toList, "cpu0".toList⟩ (.interfacesRemoved ["com.intel.TPMI.Feature"])

end Daemon

end MetaCommon.Tpmi
