import MetaCommon.ThermalSubsystem.Members

/-!
# The collection, its members and the redundancy

A sensor of another kind with the name of a fan is found too, and so is one that no fan has the name
of. The links of the redundancy are those of the tachometers, whose names the collection lists only
if a fan has the same.
-/

namespace MetaCommon.ThermalSubsystem

namespace Platform

variable {P : Platform} {chassisId validChassisPath : String} {s : Sensors} {fanId : String}

/-! ### The collection -/

theorem fanUrl_injective : Function.Injective (fanUrl chassisId) := fun _ _ h => by
  simpa [fanUrl] using h

theorem mem_pathNames {objects : List SensorObject} {name : String} :
    name ∈ P.pathNames (objects.map SensorObject.path) ↔
      ∃ o ∈ objects, P.filename o.path = name ∧ name ≠ "" := by
  simp only [pathNames, List.mem_filter, List.mem_map, decide_eq_true_iff]
  constructor
  · rintro ⟨⟨_, ⟨o, ho, rfl⟩, hname⟩, hne⟩
    exact ⟨o, ho, hname, hne⟩
  · rintro ⟨o, ho, hname, hne⟩
    exact ⟨⟨_, ⟨o, ho, rfl⟩, hname⟩, hne⟩

theorem mem_links {names : List String} {name : String} :
    fanUrl chassisId name ∈ (P.sort names).map (fanUrl chassisId) ↔ name ∈ names := by
  rw [List.mem_map_of_injective fanUrl_injective, (P.sort_perm names).mem_iff]

/-- A fan is listed if an object under `fan_pwm` has the name. -/
theorem listed_iff : (∃ c, P.doFanCollection chassisId (some validChassisPath)
      (.ok (s.getSubTreePaths fanPwmPath)) = .ok c ∧ fanUrl chassisId fanId ∈ c.members) ↔
    ∃ o ∈ s.below fanPwmPath, P.filename o.path = fanId ∧ fanId ≠ "" := by
  rw [← mem_pathNames]
  constructor
  · rintro ⟨_, ⟨rfl⟩, hmem⟩
    exact mem_links.mp hmem
  · exact fun hmem => ⟨_, rfl, mem_links.mpr hmem⟩

/-! ### One fan -/

theorem doFanGet_eq : P.doFanGet chassisId (some validChassisPath) fanId
      (.ok (s.getSubTree sensorsPath)) =
    if (P.found s fanId).isEmpty then .error (.resourceNotFound "fan" fanId)
    else .ok (newFan chassisId fanId, (P.found s fanId).flatMap Match.reads) := rfl

theorem doFanGet_of_found {m : Match} (h : m ∈ P.found s fanId) :
    P.doFanGet chassisId (some validChassisPath) fanId (.ok (s.getSubTree sensorsPath)) =
      .ok (newFan chassisId fanId, (P.found s fanId).flatMap Match.reads) := by
  rw [doFanGet_eq, if_neg]
  exact fun hempty => List.ne_nil_of_mem h (List.isEmpty_iff.mp hempty)

theorem answers_iff : (∃ fan reads, P.doFanGet chassisId (some validChassisPath) fanId
      (.ok (s.getSubTree sensorsPath)) = .ok (fan, reads)) ↔ ∃ m, m ∈ P.found s fanId := by
  constructor
  · rintro ⟨fan, reads, h⟩
    rw [doFanGet_eq] at h
    split_ifs at h with hempty
    exact List.exists_mem_of_ne_nil _ fun hnil => hempty (List.isEmpty_iff.mpr hnil)
  · rintro ⟨m, hm⟩
    exact ⟨_, _, doFanGet_of_found hm⟩

theorem valueRead_mem {m : Match} (h : m ∈ P.found s fanId) :
    (⟨m.service, m.path, valueIntf⟩ : Read) ∈ (P.found s fanId).flatMap Match.reads :=
  List.mem_flatMap.mpr ⟨m, h, mem_reads.mpr ⟨rfl, rfl, valueIntf_mem h, .inl rfl⟩⟩

/-- The answers can arrive so that a given one is the last, and another the one before it. -/
theorem arrival_last {reads : List Read} {r r' : Read} (hr : r ∈ reads) (hr' : r' ∈ reads)
    (hne : r ≠ r') : ∃ before, (before ++ [r, r']).Perm reads := by
  refine ⟨(reads.erase r').erase r, ?_⟩
  have hmem : r ∈ reads.erase r' := (List.mem_erase_of_ne hne).mpr hr
  calc ((reads.erase r').erase r ++ [r, r']).Perm ([r', r] ++ (reads.erase r').erase r) := by
        refine List.perm_append_comm.trans (List.Perm.append_right _ (List.Perm.swap _ _ _))
    _ |>.Perm (r' :: reads.erase r') := (List.perm_cons_erase hmem).symm.cons r'
    _ |>.Perm reads := (List.perm_cons_erase hr').symm

/-- One of the sensors has the value 1, and one is neither available nor functional. -/
def telling (valued failed : Match) : Readings where
  value service path := if service = valued.service ∧ path = valued.path then 1 else 0
  otherProperties _ _ := []
  otherProperties_ne _ _ := by simp
  available service path := !decide (service = failed.service ∧ path = failed.path)
  functional service path := !decide (service = failed.service ∧ path = failed.path)

theorem telling_value {valued failed m : Match}
    (h : some ((telling valued failed).value m.service m.path) = some 1) :
    m.service = valued.service ∧ m.path = valued.path := by
  by_contra hne
  simp [telling, hne] at h

theorem report_status (chassisId fanId : String) (valued : Match) {failed m : Match}
    (h : ¬(m.service = failed.service ∧ m.path = failed.path)) :
    (report chassisId (telling valued failed) fanId m).state = "Enabled" ∧
      (report chassisId (telling valued failed) fanId m).health = "OK" := by
  simp [report, telling, h]

/-- The value that arrives last is shown, so each sensor that is found may be the one. -/
theorem below_of_getRight (h : GetRight P chassisId validChassisPath s fanId) {m : Match}
    (hm : m ∈ P.found s fanId) : Below fanPwmPath m.path := by
  obtain ⟨before, hbefore⟩ : ∃ before,
      (before ++ [(⟨m.service, m.path, valueIntf⟩ : Read)]).Perm
        ((P.found s fanId).flatMap Match.reads) :=
    ⟨_, List.perm_append_comm.trans (List.perm_cons_erase (valueRead_mem hm)).symm⟩
  obtain ⟨m', hsensor, hreport⟩ := h.reports _ _ (doFanGet_of_found hm) (telling m m) _ hbefore
  have hreading := congrArg Fan.reading hreport
  rw [answered, Control.foldl_overwrite_last (reading_answer _) rfl (by simp)] at hreading
  have hkey := telling_value (hreading.symm.trans (by simp [telling]))
  rw [← hkey.2]
  exact ((fanSensor_iff (fanId_ne_of_found hm)).mp hsensor).2

/-- The status of one sensor is shown with the value of another if it arrives last. -/
theorem not_hasStatus_of_getRight (h : GetRight P chassisId validChassisPath s fanId)
    {m m' : Match} (hm : m ∈ P.found s fanId) (hm' : m' ∈ P.found s fanId) (hne : m ≠ m') :
    ¬ HasStatus m.interfaces := by
  intro hstatus
  obtain ⟨intf, hintf, hmem⟩ : ∃ intf, (intf = availabilityIntf ∨ intf = operationalStatusIntf) ∧
      intf ∈ m.interfaces := by
    obtain hmem | hmem := hstatus
    · exact ⟨_, .inl rfl, hmem⟩
    · exact ⟨_, .inr rfl, hmem⟩
  have hread : (⟨m.service, m.path, intf⟩ : Read) ∈ (P.found s fanId).flatMap Match.reads :=
    List.mem_flatMap.mpr ⟨m, hm, mem_reads.mpr ⟨rfl, rfl, hmem, .inr hintf⟩⟩
  have hkind : intf ≠ valueIntf := by
    obtain rfl | rfl := hintf
    · exact interfaces_ne.1.symm
    · exact interfaces_ne.2.1.symm
  obtain ⟨before, hbefore⟩ := arrival_last hread (valueRead_mem hm')
    fun heq => hkind (Read.mk.inj heq).2.2
  obtain ⟨shown, hsensor, hreport⟩ := h.reports _ _ (doFanGet_of_found hm) (telling m' m) _ hbefore
  have hshown : shown = m' := by
    have hreading := congrArg Fan.reading hreport
    rw [answered, List.append_cons, Control.foldl_overwrite_last (reading_answer _) rfl
      (by simp)] at hreading
    have hkey := telling_value (hreading.symm.trans (by simp [telling]))
    exact found_eq ((fanSensor_iff (fanId_ne_of_found hm)).mp hsensor).1 hm' hkey.1 hkey.2
  subst hshown
  obtain ⟨hstate, hhealth⟩ := report_status chassisId fanId shown
    fun hkey => hne (found_eq hm' hm hkey.1 hkey.2).symm
  obtain rfl | rfl := hintf
  · rw [← hreport, answered, Control.foldl_overwrite_last (state_answer _) rfl
      (by simp [interfaces_ne.1])] at hstate
    simp [telling] at hstate
  · rw [← hreport, answered, Control.foldl_overwrite_last (health_answer _)
      ⟨interfaces_ne.2.1.symm, interfaces_ne.2.2.symm⟩ (by simp)] at hhealth
    simp [telling] at hhealth

theorem getClear_of_getRight (h : GetRight P chassisId validChassisPath s fanId) :
    GetClear P s fanId where
  fans o ho := by
    obtain ⟨hsensor, -, hne⟩ := mem_named.mp ho
    obtain ⟨e, he⟩ := List.exists_mem_of_ne_nil _ (s.hosted o (mem_below.mp hsensor).1)
    exact below_of_getRight h (found_of_named ho he)
  alone := by
    by_contra hno
    push Not at hno
    obtain ⟨⟨o₁, ho₁, e₁, he₁, o₂, ho₂, e₂, he₂, hne⟩, o, ho, e, he, hstatus⟩ := hno
    -- all that are found are the one with the status
    have hall : ∀ m ∈ P.found s fanId, m = ⟨e.1, o.path, e.2⟩ := fun m hm => by
      by_contra hother
      exact not_hasStatus_of_getRight h (found_of_named ho he) hm (Ne.symm hother) hstatus
    obtain ⟨hservice, hpath, hintfs⟩ := Match.mk.inj
      ((hall _ (found_of_named ho₁ he₁)).trans (hall _ (found_of_named ho₂ he₂)).symm)
    exact hne (object_eq (mem_below.mp (mem_named.mp ho₁).1).1
      (mem_below.mp (mem_named.mp ho₂).1).1 hpath) (Prod.ext hservice hintfs)

/-! ### The reports of clear names -/

theorem GetClear.below (h : GetClear P s fanId) {m : Match} (hm : m ∈ P.found s fanId) :
    Below fanPwmPath m.path := by
  obtain ⟨o, ho, hpath, -⟩ := mem_found.mp hm
  exact hpath ▸ h.fans o ho

theorem GetClear.one_or_no_status (h : GetClear P s fanId) :
    (P.found s fanId).length ≤ 1 ∨ ∀ m ∈ P.found s fanId, ¬ HasStatus m.interfaces := by
  refine h.alone.imp (fun hsame => ?_) fun hno m hm => ?_
  · cases hfound : P.found s fanId with
    | nil => exact Nat.zero_le 1
    | cons m rest =>
      have hm : m ∈ P.found s fanId := hfound ▸ List.mem_cons_self
      obtain ⟨o, ho, hpath, hservice⟩ := mem_found.mp hm
      have hall : ∀ m' ∈ P.found s fanId, m' = m := by
        intro m' hm'
        obtain ⟨o', ho', hpath', hservice'⟩ := mem_found.mp hm'
        obtain ⟨rfl, heq⟩ := hsame o' ho' _ hservice' o ho _ hservice
        exact found_eq hm' hm (Prod.mk.inj heq).1 (hpath'.symm.trans hpath)
      -- none is found twice
      have hnodup : (P.found s fanId).Nodup := nodup_found.of_map _
      rw [List.eq_replicate_of_mem hall, List.nodup_replicate] at hnodup
      rwa [hfound] at hnodup
  · obtain ⟨o, ho, -, hservice⟩ := mem_found.mp hm
    exact hno o ho _ hservice

theorem listed_of_getClear (h : GetClear P s fanId) :
    (∃ fan reads, P.doFanGet chassisId (some validChassisPath) fanId
      (.ok (s.getSubTree sensorsPath)) = .ok (fan, reads)) ↔
    ∃ c, P.doFanCollection chassisId (some validChassisPath)
      (.ok (s.getSubTreePaths fanPwmPath)) = .ok c ∧ fanUrl chassisId fanId ∈ c.members := by
  rw [answers_iff, listed_iff]
  constructor
  · rintro ⟨m, hm⟩
    obtain ⟨o, ho, -⟩ := mem_found.mp hm
    obtain ⟨hsensor, hname⟩ := mem_named.mp ho
    exact ⟨o, mem_below.mpr ⟨(mem_below.mp hsensor).1, h.fans o ho⟩, hname⟩
  · rintro ⟨o, ho, hname⟩
    obtain ⟨hmem, hbelow⟩ := mem_below.mp ho
    obtain ⟨e, he⟩ := List.exists_mem_of_ne_nil _ (s.hosted o hmem)
    have hsensor := mem_below.mpr ⟨hmem, below_sensors_of_below_fanPwm hbelow⟩
    exact ⟨_, found_of_named (mem_named.mpr ⟨hsensor, hname⟩) he⟩

theorem answered_of_one {m : Match} (h : P.found s fanId = [m]) (b : Readings)
    {arrived : List Read} (harrived : arrived.Perm ((P.found s fanId).flatMap Match.reads)) :
    answered b (newFan chassisId fanId) arrived = report chassisId b fanId m := by
  have hmem : ∀ r, r ∈ arrived ↔ r ∈ m.reads := fun r => by
    rw [harrived.mem_iff, h, List.flatMap_singleton]
  have hm : m ∈ P.found s fanId := by simp [h]
  refine answered_eq_report b ?_ ?_ ?_ ?_
  · exact ⟨⟨m.service, m.path, valueIntf⟩,
      (hmem _).mpr (mem_reads.mpr ⟨rfl, rfl, valueIntf_mem hm, .inl rfl⟩), rfl⟩
  · constructor
    · rintro ⟨r, hr, hintf⟩
      exact hintf ▸ (mem_reads.mp ((hmem r).mp hr)).2.2.1
    · exact fun hintf => ⟨⟨m.service, m.path, availabilityIntf⟩,
        (hmem _).mpr (mem_reads.mpr ⟨rfl, rfl, hintf, .inr (.inl rfl)⟩), rfl⟩
  · constructor
    · rintro ⟨r, hr, hvalue, havailable⟩
      obtain ⟨-, -, hintf, hkind⟩ := mem_reads.mp ((hmem r).mp hr)
      exact (hkind.resolve_left hvalue).resolve_left havailable ▸ hintf
    · exact fun hintf => ⟨⟨m.service, m.path, operationalStatusIntf⟩,
        (hmem _).mpr (mem_reads.mpr ⟨rfl, rfl, hintf, .inr (.inr rfl)⟩),
        interfaces_ne.2.1.symm, interfaces_ne.2.2.symm⟩
  · intro r hr
    obtain ⟨hservice, hpath, -⟩ := mem_reads.mp ((hmem r).mp hr)
    exact ⟨hservice, hpath⟩

/-- Without a status a fan is its value. -/
theorem answered_of_no_status (h : ∀ m ∈ P.found s fanId, ¬ HasStatus m.interfaces)
    (hne : ∃ m, m ∈ P.found s fanId) (b : Readings) {arrived : List Read}
    (harrived : arrived.Perm ((P.found s fanId).flatMap Match.reads)) :
    ∃ m ∈ P.found s fanId,
      answered b (newFan chassisId fanId) arrived = report chassisId b fanId m := by
  have hvalues : ∀ r ∈ arrived, r.intf = valueIntf := fun r hr => by
    obtain ⟨m, hm, hr⟩ := List.mem_flatMap.mp (harrived.mem_iff.mp hr)
    obtain ⟨-, -, hintf, hkind⟩ := mem_reads.mp hr
    obtain hkind | hkind | hkind := hkind
    · exact hkind
    · exact absurd (.inl (hkind ▸ hintf)) (h m hm)
    · exact absurd (.inr (hkind ▸ hintf)) (h m hm)
  obtain ⟨m₀, hm₀⟩ := hne
  have harrived_ne : arrived ≠ [] :=
    List.ne_nil_of_mem (harrived.mem_iff.mpr (valueRead_mem hm₀))
  obtain ⟨r, hr, hanswered⟩ := answered_values chassisId fanId b hvalues harrived_ne
  obtain ⟨m, hm, hr⟩ := List.mem_flatMap.mp (harrived.mem_iff.mp hr)
  obtain ⟨hservice, hpath, -⟩ := mem_reads.mp hr
  refine ⟨m, hm, hanswered.trans ?_⟩
  rw [report, if_neg fun hmem => h m hm (.inl hmem), if_neg fun hmem => h m hm (.inr hmem),
    hservice, hpath]
  rfl

/-- A GET is right for a name exactly when the name is clear. -/
theorem getRight_iff : GetRight P chassisId validChassisPath s fanId ↔ GetClear P s fanId := by
  refine ⟨getClear_of_getRight, fun h => ⟨listed_of_getClear h, ?_⟩⟩
  intro fan reads hget b arrived harrived
  obtain ⟨m₀, hm₀⟩ := answers_iff.mp ⟨fan, reads, hget⟩
  rw [doFanGet_of_found hm₀] at hget
  obtain ⟨rfl, rfl⟩ := Prod.mk.inj (Except.ok.inj hget)
  obtain ⟨m, hm, hanswered⟩ : ∃ m ∈ P.found s fanId,
      answered b (newFan chassisId fanId) arrived = report chassisId b fanId m := by
    obtain hlength | hstatus := h.one_or_no_status
    · obtain ⟨m, hfound⟩ := List.length_eq_one_iff.mp
        (Nat.le_antisymm hlength (List.length_pos_of_mem hm₀))
      exact ⟨m, by simp [hfound], answered_of_one hfound b harrived⟩
    · exact answered_of_no_status hstatus ⟨m₀, hm₀⟩ b harrived
  exact ⟨m, (fanSensor_iff (fanId_ne_of_found hm)).mpr ⟨hm, h.below hm⟩, hanswered⟩

end Platform

end MetaCommon.ThermalSubsystem
