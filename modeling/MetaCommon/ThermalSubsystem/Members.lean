import MetaCommon.Lib.Control
import MetaCommon.ThermalSubsystem.Fans

/-!
# Which fan a GET reports

A GET finds every sensor with the name. What it reports is that of one fan sensor, in whatever order
the answers arrive, if the only sensors with the name are under `fan_pwm`, and one service hosts
them, or none of them has a status.
-/

namespace MetaCommon.ThermalSubsystem

namespace Platform

variable (P : Platform) (chassisId validChassisPath : String) (s : Sensors)

/-- A service's object under `fan_pwm` with the name. -/
def FanSensor (fanId : String) (m : Match) : Prop :=
  ∃ o ∈ s.below fanPwmPath, o.path = m.path ∧ (m.service, m.interfaces) ∈ o.services ∧
    P.filename o.path = fanId

/-- The value and the status of a service's object. -/
def report (b : Readings) (fanId : String) (m : Match) : Fan :=
  { newFan chassisId fanId with
    reading := some (b.value m.service m.path)
    state :=
      if availabilityIntf ∈ m.interfaces then
        if b.available m.service m.path then "Enabled" else "Absent"
      else "Enabled"
    health :=
      if operationalStatusIntf ∈ m.interfaces then
        if b.functional m.service m.path then "OK" else "Critical"
      else "OK" }

/-- A GET succeeds for the names of the collection, and reports the value and the status of one fan
sensor with the name. -/
structure GetRight (fanId : String) : Prop where
  listed : (∃ fan reads, P.doFanGet chassisId (some validChassisPath) fanId
      (.ok (s.getSubTree sensorsPath)) = .ok (fan, reads)) ↔
    ∃ c, P.doFanCollection chassisId (some validChassisPath)
      (.ok (s.getSubTreePaths fanPwmPath)) = .ok c ∧ fanUrl chassisId fanId ∈ c.members
  reports : ∀ fan reads, P.doFanGet chassisId (some validChassisPath) fanId
      (.ok (s.getSubTree sensorsPath)) = .ok (fan, reads) →
    ∀ b arrived, arrived.Perm reads →
      ∃ m, P.FanSensor s fanId m ∧ answered b fan arrived = report chassisId b fanId m

/-- The sensors, of any kind, that have the name. -/
def named (fanId : String) : List SensorObject :=
  (s.below sensorsPath).filter fun o => P.checkFanId o.path fanId

/-- A state or a health of its own. -/
def HasStatus (interfaces : List String) : Prop :=
  availabilityIntf ∈ interfaces ∨ operationalStatusIntf ∈ interfaces

/-- The sensors with the name are all under `fan_pwm`; there is one, of one service, or they have no
status. -/
structure GetClear (fanId : String) : Prop where
  fans : ∀ o ∈ P.named s fanId, Below fanPwmPath o.path
  alone : (∀ o ∈ P.named s fanId, ∀ e ∈ o.services, ∀ o' ∈ P.named s fanId, ∀ e' ∈ o'.services,
      o = o' ∧ e = e') ∨
    ∀ o ∈ P.named s fanId, ∀ e ∈ o.services, ¬ HasStatus e.2

/-- What a GET calls back for. -/
def found (fanId : String) : List Match := P.getValidfanId fanId (s.getSubTree sensorsPath)

variable {P chassisId validChassisPath s} {fanId : String}

/-! ### What is found -/

theorem below_sensors_of_below_fanPwm {path : ObjectPath} (h : Below fanPwmPath path) :
    Below sensorsPath path := by
  obtain ⟨⟨rest, rfl⟩, -⟩ := h
  exact ⟨⟨"fan_pwm" :: rest, by simp [fanPwmPath]⟩, by simp [fanPwmPath]⟩

theorem mem_below {root : ObjectPath} {o : SensorObject} :
    o ∈ s.below root ↔ o ∈ s.objects ∧ Below root o.path := by
  rw [Sensors.below, List.mem_filter, decide_eq_true_iff]

theorem checkFanId_iff {path : ObjectPath} :
    P.checkFanId path fanId = true ↔ P.filename path = fanId ∧ fanId ≠ "" := by
  simp only [checkFanId, Bool.not_eq_true', Bool.or_eq_false_iff, decide_eq_false_iff_not, not_not]
  constructor
  · rintro ⟨hne, rfl⟩
    exact ⟨rfl, hne⟩
  · rintro ⟨rfl, hne⟩
    exact ⟨hne, rfl⟩

theorem mem_named {o : SensorObject} : o ∈ P.named s fanId ↔
    o ∈ s.below sensorsPath ∧ P.filename o.path = fanId ∧ fanId ≠ "" := by
  rw [named, List.mem_filter, checkFanId_iff]

theorem mem_found {m : Match} : m ∈ P.found s fanId ↔
    ∃ o ∈ P.named s fanId, o.path = m.path ∧ (m.service, m.interfaces) ∈ o.services := by
  simp only [found, getValidfanId, Sensors.getSubTree, named, List.mem_flatMap, List.mem_map,
    List.mem_filter]
  constructor
  · rintro ⟨_, ⟨o, ho, rfl⟩, ⟨service, interfaces⟩, ⟨hservice, hname⟩, rfl⟩
    exact ⟨o, ⟨ho, hname⟩, rfl, hservice⟩
  · rintro ⟨o, ⟨ho, hname⟩, hpath, hservice⟩
    obtain ⟨service, path, interfaces⟩ := m
    subst hpath
    exact ⟨_, ⟨o, ho, rfl⟩, _, ⟨hservice, hname⟩, rfl⟩

theorem found_of_named {o : SensorObject} (ho : o ∈ P.named s fanId) {e : String × List String}
    (he : e ∈ o.services) : (⟨e.1, o.path, e.2⟩ : Match) ∈ P.found s fanId :=
  mem_found.mpr ⟨o, ho, rfl, he⟩

theorem fanSensor_iff {m : Match} (hne : fanId ≠ "") :
    P.FanSensor s fanId m ↔ m ∈ P.found s fanId ∧ Below fanPwmPath m.path := by
  rw [mem_found]
  constructor
  · rintro ⟨o, ho, hpath, hservice, hname⟩
    obtain ⟨hmem, hbelow⟩ := mem_below.mp ho
    have hsensor := mem_below.mpr ⟨hmem, below_sensors_of_below_fanPwm hbelow⟩
    exact ⟨⟨o, mem_named.mpr ⟨hsensor, hname, hne⟩, hpath, hservice⟩, hpath ▸ hbelow⟩
  · rintro ⟨⟨o, ho, hpath, hservice⟩, hbelow⟩
    obtain ⟨hsensor, hname, -⟩ := mem_named.mp ho
    exact ⟨o, mem_below.mpr ⟨(mem_below.mp hsensor).1, hpath ▸ hbelow⟩, hpath, hservice, hname⟩

theorem fanId_ne_of_found {m : Match} (h : m ∈ P.found s fanId) : fanId ≠ "" := by
  obtain ⟨_, ho, _⟩ := mem_found.mp h
  exact (mem_named.mp ho).2.2

theorem valueIntf_mem {m : Match} (h : m ∈ P.found s fanId) : valueIntf ∈ m.interfaces := by
  obtain ⟨o, ho, -, hservice⟩ := mem_found.mp h
  exact s.hasValue o (mem_below.mp (mem_named.mp ho).1).1 _ hservice

theorem objects_nodup : s.objects.Nodup := s.paths.of_map _

theorem object_eq {o o' : SensorObject} (ho : o ∈ s.objects) (ho' : o' ∈ s.objects)
    (hpath : o.path = o'.path) : o = o' := List.inj_on_of_nodup_map s.paths ho ho' hpath

/-- No service's object is found twice. -/
theorem nodup_found : ((P.found s fanId).map fun m => (m.service, m.path)).Nodup := by
  have hkeys : (P.found s fanId).map (fun m => (m.service, m.path)) =
      (s.below sensorsPath).flatMap fun o =>
        (o.services.filter fun _ => P.checkFanId o.path fanId).map fun e => (e.1, o.path) := by
    simp only [found, getValidfanId, Sensors.getSubTree, List.map_flatMap, List.flatMap_map,
      List.map_map]
    rfl
  rw [hkeys, List.nodup_flatMap]
  constructor
  · intro o ho
    have hnodup := (s.services o (mem_below.mp ho).1).sublist
      ((List.filter_sublist (p := fun _ => P.checkFanId o.path fanId)).map Prod.fst)
    have hinjective : Function.Injective fun service : String => (service, o.path) :=
      fun _ _ h => (Prod.mk.inj h).1
    have hpairs := hnodup.map hinjective
    rw [List.map_map] at hpairs
    exact hpairs
  · refine (objects_nodup.filter _).imp_of_mem fun {o o'} ho ho' hne => ?_
    rintro ⟨service, path⟩ h h'
    obtain ⟨e, -, heq⟩ := List.mem_map.mp h
    obtain ⟨e', -, heq'⟩ := List.mem_map.mp h'
    exact hne (object_eq (mem_below.mp ho).1 (mem_below.mp ho').1
      ((Prod.mk.inj heq).2.trans (Prod.mk.inj heq').2.symm))

/-- The service's objects that are found are told apart by service and path. -/
theorem found_eq {m m' : Match} (h : m ∈ P.found s fanId) (h' : m' ∈ P.found s fanId)
    (hservice : m.service = m'.service) (hpath : m.path = m'.path) : m = m' :=
  List.inj_on_of_nodup_map nodup_found h h' (by rw [hservice, hpath])

/-! ### What is reported -/

theorem mem_reads {m : Match} {r : Read} : r ∈ m.reads ↔
    r.service = m.service ∧ r.path = m.path ∧ r.intf ∈ m.interfaces ∧
      (r.intf = valueIntf ∨ r.intf = availabilityIntf ∨ r.intf = operationalStatusIntf) := by
  simp only [Match.reads, List.mem_map, List.mem_filter, decide_eq_true_iff]
  constructor
  · rintro ⟨intf, ⟨hmem, hintf⟩, rfl⟩
    exact ⟨rfl, rfl, hmem, hintf⟩
  · obtain ⟨service, path, intf⟩ := r
    rintro ⟨rfl, rfl, hmem, hintf⟩
    exact ⟨intf, ⟨hmem, hintf⟩, rfl⟩

theorem interfaces_ne : valueIntf ≠ availabilityIntf ∧ valueIntf ≠ operationalStatusIntf ∧
    availabilityIntf ≠ operationalStatusIntf := by decide

variable (b : Readings)

theorem readProperties_of_ne (fan : Fan) {properties : List (String × Variant)}
    (h : ∀ p ∈ properties, p.1 ≠ "Value") : readProperties fan properties = fan := by
  induction properties with
  | nil => rfl
  | cons p properties ih =>
    obtain ⟨hp, hrest⟩ := List.forall_mem_cons.mp h
    obtain ⟨name, value⟩ := p
    unfold readProperties
    rw [if_neg hp, ih hrest]

/-- One answer sets one of the three properties. -/
theorem answer_eq (fan : Fan) (r : Read) : answer b fan r =
    if r.intf = valueIntf then { fan with reading := some (b.value r.service r.path) }
    else if r.intf = availabilityIntf then
      { fan with state := if b.available r.service r.path then "Enabled" else "Absent" }
    else { fan with health := if b.functional r.service r.path then "OK" else "Critical" } := by
  unfold answer
  by_cases hvalue : r.intf = valueIntf
  · rw [if_pos hvalue, if_pos hvalue, getFanValue, readProperties, if_pos rfl]
    exact readProperties_of_ne _ (b.otherProperties_ne r.service r.path)
  · rw [if_neg hvalue, if_neg hvalue]
    by_cases havailable : r.intf = availabilityIntf
    · rw [if_pos havailable, if_pos havailable, getFanState]
    · rw [if_neg havailable, if_neg havailable, getFanHealth]

theorem reading_answer (fan : Fan) (r : Read) : (answer b fan r).reading =
    if r.intf = valueIntf then some (b.value r.service r.path) else fan.reading := by
  rw [answer_eq]
  split_ifs <;> rfl

theorem state_answer (fan : Fan) (r : Read) : (answer b fan r).state =
    if r.intf = availabilityIntf then
      if b.available r.service r.path then "Enabled" else "Absent"
    else fan.state := by
  rw [answer_eq]
  by_cases hvalue : r.intf = valueIntf
  · rw [if_pos hvalue, if_neg fun h => interfaces_ne.1 (hvalue.symm.trans h)]
  · rw [if_neg hvalue]
    split_ifs <;> rfl

/-- Of the three kinds of read the last remains for the health. -/
theorem health_answer (fan : Fan) (r : Read) : (answer b fan r).health =
    if r.intf ≠ valueIntf ∧ r.intf ≠ availabilityIntf then
      if b.functional r.service r.path then "OK" else "Critical"
    else fan.health := by
  rw [answer_eq]
  by_cases hvalue : r.intf = valueIntf
  · simp [hvalue]
  · rw [if_neg hvalue]
    by_cases havailable : r.intf = availabilityIntf <;> simp [hvalue, havailable]

/-- The other properties of a fan are set before the reads. -/
theorem answered_frame (fan : Fan) (arrived : List Read) :
    answered b fan arrived = { fan with
      reading := (answered b fan arrived).reading
      state := (answered b fan arrived).state
      health := (answered b fan arrived).health } := by
  induction arrived generalizing fan with
  | nil => rfl
  | cons r arrived ih =>
    have hanswer := answer_eq b fan r
    rw [show answered b fan (r :: arrived) = answered b (answer b fan r) arrived from rfl, ih]
    rw [hanswer]
    split_ifs <;> rfl

/-- If the answers of each kind agree with those of one object, that object is reported. -/
theorem answered_eq_report {m : Match} {arrived : List Read}
    (hvalue : ∃ r ∈ arrived, r.intf = valueIntf)
    (havailable : (∃ r ∈ arrived, r.intf = availabilityIntf) ↔ availabilityIntf ∈ m.interfaces)
    (hfunctional : (∃ r ∈ arrived, r.intf ≠ valueIntf ∧ r.intf ≠ availabilityIntf) ↔
      operationalStatusIntf ∈ m.interfaces)
    (hagree : ∀ r ∈ arrived, r.service = m.service ∧ r.path = m.path) :
    answered b (newFan chassisId fanId) arrived = report chassisId b fanId m := by
  have hreading : (answered b (newFan chassisId fanId) arrived).reading =
      some (b.value m.service m.path) := by
    refine (Control.foldl_overwrite (reading_answer b) (fun r hr _ => ?_) _).trans (if_pos hvalue)
    rw [(hagree r hr).1, (hagree r hr).2]
  have hstate : (answered b (newFan chassisId fanId) arrived).state =
      if availabilityIntf ∈ m.interfaces then
        if b.available m.service m.path then "Enabled" else "Absent"
      else "Enabled" := by
    refine (Control.foldl_overwrite (state_answer b) (fun r hr _ => ?_) _).trans
      (if_congr havailable rfl rfl)
    rw [(hagree r hr).1, (hagree r hr).2]
  have hhealth : (answered b (newFan chassisId fanId) arrived).health =
      if operationalStatusIntf ∈ m.interfaces then
        if b.functional m.service m.path then "OK" else "Critical"
      else "OK" := by
    refine (Control.foldl_overwrite (health_answer b) (fun r hr _ => ?_) _).trans
      (if_congr hfunctional rfl rfl)
    rw [(hagree r hr).1, (hagree r hr).2]
  rw [answered_frame, hreading, hstate, hhealth]
  rfl

/-- Without a status the last value that arrives decides. -/
theorem answered_values (chassisId fanId : String) (b : Readings) {arrived : List Read}
    (hvalues : ∀ r ∈ arrived, r.intf = valueIntf) (hne : arrived ≠ []) :
    ∃ r ∈ arrived, answered b (newFan chassisId fanId) arrived =
      { newFan chassisId fanId with reading := some (b.value r.service r.path) } := by
  obtain ⟨before, r, rfl⟩ := (List.eq_nil_or_concat arrived).resolve_left hne
  have hr : r.intf = valueIntf := hvalues r (by simp)
  have hno : ∀ r' ∈ before.concat r, ¬ r'.intf = availabilityIntf := fun r' hr' h =>
    interfaces_ne.1 ((hvalues r' hr').symm.trans h)
  have hno' : ∀ r' ∈ before.concat r, ¬ (r'.intf ≠ valueIntf ∧ r'.intf ≠ availabilityIntf) :=
    fun r' hr' h => h.1 (hvalues r' hr')
  refine ⟨r, by simp, ?_⟩
  have hreading : (answered b (newFan chassisId fanId) (before.concat r)).reading =
      some (b.value r.service r.path) := by
    rw [List.concat_eq_append]
    exact Control.foldl_overwrite_last (reading_answer b) hr (by simp) _
  have hstate : (answered b (newFan chassisId fanId) (before.concat r)).state = "Enabled" :=
    (Control.foldl_overwrite (v := "") (state_answer b) (fun r' hr' h => absurd h (hno r' hr'))
      _).trans (if_neg fun ⟨r', hr', h⟩ => hno r' hr' h)
  have hhealth : (answered b (newFan chassisId fanId) (before.concat r)).health = "OK" :=
    (Control.foldl_overwrite (v := "") (health_answer b) (fun r' hr' h => absurd h (hno' r' hr'))
      _).trans (if_neg fun ⟨r', hr', h⟩ => hno' r' hr' h)
  rw [answered_frame, hreading, hstate, hhealth]
  rfl

end Platform

end MetaCommon.ThermalSubsystem
