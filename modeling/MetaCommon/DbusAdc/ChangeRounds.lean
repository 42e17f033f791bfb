import MetaCommon.DbusAdc.StartOrder

/-!
# The rounds of `createSensors`

The loop over the configurations of the sensors makes a sensor again if it finds a path on the list
of changes that ends with the name of the sensor, and takes that path off. Once the list is empty it
makes every sensor that it comes to. Each sensor has one round, which sees the entry that was there
before the loop and decides what is there after it.
-/

namespace MetaCommon.DbusAdc

open Runs

namespace Daemon

variable (escapeName : String → String)

/-! ### One round of the loop -/

/-- The change that `entityChanged` finds for the sensor `name`. -/
def changeFound (s : Daemon) (name : String) : Option String :=
  match s.sensors.lookup name with
  | some (some sensor) => s.sensorsChanged.keys.find? fun path => endsWith path sensor.name
  | _ => none

/-- The object that is made of a configuration which has the property to read. -/
def sensorOf (name : String) (controller : DBusADCSensorController) (cfg : SensorConfig) :
    Option DBusADCSensor :=
  cfg.dbusProperty.map fun dbusPropName =>
    ⟨escapeName name, controller.dbusService, controller.dbusObjectPath, controller.dbusIface,
      dbusPropName, controller.vref, controller.resolutionBits⟩

/-- A round for the sensor `name` does not leave its entry alone. -/
def Touches (s : Daemon) (name : String) (cfg : SensorConfig) : Prop :=
  (s.changeFound name).isSome ∨ s.sensorsChanged.isEmpty ∧ s.Ready cfg

instance (s : Daemon) (name : String) : DecidablePred (s.Touches name) := fun cfg =>
  inferInstanceAs (Decidable ((s.changeFound name).isSome ∨ s.sensorsChanged.isEmpty ∧ s.Ready cfg))

theorem changeFound_of_isEmpty {s : Daemon} (h : s.sensorsChanged.isEmpty) (name : String) :
    s.changeFound name = none := by
  have hnil : s.sensorsChanged.keys = [] := by
    unfold FlatMap.keys
    rw [List.isEmpty_iff.mp h]
    rfl
  unfold changeFound
  split
  · rw [hnil]
    rfl
  · rfl

/-- A sensor that a change is found for is there. -/
theorem mem_sensorNames_of_changeFound {s : Daemon} {name path : String}
    (h : s.changeFound name = some path) : name ∈ s.sensorNames := by
  unfold changeFound at h
  split at h
  · next sensor hlookup => exact ⟨sensor, FlatMap.lookup_eq_some.mp hlookup⟩
  · cases h

theorem mem_sensorNames_iff {s : Daemon} {name : String} :
    name ∈ s.sensorNames ↔ ∃ sensor, s.sensors.lookup name = some (some sensor) := by
  simp only [sensorNames, Set.mem_ofPred_eq, FlatMap.lookup_eq_some]

theorem entityChanged_sensor (s : Daemon) (name : String) :
    entityChanged DBusADCSensor.name name s.sensors s.sensorsChanged =
      match s.changeFound name with
      | some path => (true, s.sensors.assign name none, s.sensorsChanged.erase path)
      | none => (false, s.sensors, s.sensorsChanged) := by
  unfold entityChanged changeFound
  cases s.sensors.lookup name with
  | none => rfl
  | some o =>
    cases o with
    | none => rfl
    | some sensor => rfl

theorem remakeSensor_lookup (s : Daemon) (name : String) (controller : DBusADCSensorController)
    (cfg : SensorConfig) (k : String) :
    (s.remakeSensor escapeName name controller cfg).sensors.lookup k =
      if k = name ∧ s.Ready cfg then some (sensorOf escapeName name controller cfg)
      else s.sensors.lookup k := by
  by_cases hready : s.Ready cfg
  · obtain ⟨dbusPropName, hprop⟩ := Option.isSome_iff_exists.mp hready.2
    unfold remakeSensor sensorOf
    rw [if_pos hready.1, hprop]
    simp only [FlatMap.lookup_assign, hready, and_true, Option.map_some]
    by_cases hk : name = k
    · rw [if_pos hk, if_pos hk.symm]
    · rw [if_neg hk, if_neg hk, if_neg (Ne.symm hk)]
  · rw [remakeSensor_of_not_ready escapeName name controller hready, if_neg fun h => hready h.2]

/-- What a round does to the entries and to the list of changes. -/
theorem processSensor_lookup {s s' : Daemon} {cfg : SensorConfig} {name : String}
    {controller : DBusADCSensorController} (ht : s.target cfg = some (name, controller))
    (h : s.processSensor escapeName cfg = some s') (k : String) :
    s'.sensors.lookup k =
      if k = name ∧ s.Touches name cfg then
        some (if s.Ready cfg then sensorOf escapeName name controller cfg else none)
      else s.sensors.lookup k := by
  rw [processSensor_of_target escapeName ht, Option.some_inj] at h
  subst h
  by_cases hempty : s.sensorsChanged.isEmpty
  · have hnone := changeFound_of_isEmpty hempty name
    rw [if_pos hempty, remakeSensor_lookup]
    simp only [Touches, hnone, hempty, Option.isSome_none, Bool.false_eq_true, false_or, true_and]
    by_cases hready : s.Ready cfg <;> simp [hready]
  · rw [if_neg hempty, entityChanged_sensor]
    cases hfound : s.changeFound name with
    | none => simp [Touches, hfound, hempty]
    | some path =>
      have hready : Ready { s with
          sensors := s.sensors.assign name none
          sensorsChanged := s.sensorsChanged.erase path } cfg ↔ s.Ready cfg := Iff.rfl
      simp only [if_true, remakeSensor_lookup, FlatMap.lookup_assign, Touches, hfound,
        Option.isSome_some, true_or, and_true, hready]
      by_cases hk : k = name
      · subst hk
        by_cases hcfg : s.Ready cfg <;> simp [hcfg]
      · simp [hk, Ne.symm hk]

theorem processSensor_changes {s s' : Daemon} {cfg : SensorConfig} {name : String}
    {controller : DBusADCSensorController} (ht : s.target cfg = some (name, controller))
    (h : s.processSensor escapeName cfg = some s') (path : String) :
    path ∈ s'.sensorsChanged.keys ↔
      path ∈ s.sensorsChanged.keys ∧ s.changeFound name ≠ some path := by
  rw [processSensor_of_target escapeName ht, Option.some_inj] at h
  subst h
  by_cases hempty : s.sensorsChanged.isEmpty
  · obtain ⟨sensors, he⟩ := remakeSensor_frame escapeName s name controller cfg
    rw [if_pos hempty, he, changeFound_of_isEmpty hempty]
    simp
  · rw [if_neg hempty, entityChanged_sensor]
    cases hfound : s.changeFound name with
    | none => simp
    | some found =>
      obtain ⟨sensors, he⟩ := remakeSensor_frame escapeName { s with
        sensors := s.sensors.assign name none
        sensorsChanged := s.sensorsChanged.erase found } name controller cfg
      simp only [if_true, he, FlatMap.mem_keys_erase, ne_eq, Option.some_inj, eq_comm, and_comm]

theorem eq_of_target_none {s s' : Daemon} {cfg : SensorConfig} (ht : s.target cfg = none)
    (h : s.processSensor escapeName cfg = some s') : s' = s := by
  have hends := (processSensor_isSome_iff escapeName).mp (by rw [h]; rfl)
  rw [processSensor_of_target_none escapeName hends ht] at h
  exact (Option.some.inj h).symm

/-- A round of the loop leaves everything else alone. -/
theorem processSensor_frame {s s' : Daemon} {cfg : SensorConfig}
    (h : s.processSensor escapeName cfg = some s') :
    ∃ sensors sensorsChanged,
      s' = { s with sensors := sensors, sensorsChanged := sensorsChanged } := by
  cases ht : s.target cfg with
  | none => exact ⟨s.sensors, s.sensorsChanged, eq_of_target_none escapeName ht h⟩
  | some t =>
    rw [processSensor_of_target escapeName ht, Option.some_inj] at h
    subst h
    dsimp only
    split_ifs
    · obtain ⟨sensors, he⟩ := remakeSensor_frame escapeName s t.1 t.2 cfg
      exact ⟨sensors, s.sensorsChanged, he⟩
    · obtain ⟨sensors, he⟩ := remakeSensor_frame escapeName _ t.1 t.2 cfg
      exact ⟨sensors, _, he⟩
    · exact ⟨_, _, rfl⟩

/-! ### The loop over a reply -/

/-- The sensors that a round makes an object for. -/
def remade (s : Daemon) (cfg : SensorConfig) : List String :=
  match s.target cfg with
  | some t => if s.Touches t.1 cfg ∧ s.Ready cfg then [t.1] else []
  | none => []

/-- A round, with the sensors made so far. -/
def traceSensor (r : Daemon × List String) (cfg : SensorConfig) : Option (Daemon × List String) :=
  (r.1.processSensor escapeName cfg).map fun s' => (s', r.2 ++ r.1.remade cfg)

theorem traceSensor_eq_some {r r' : Daemon × List String} {cfg : SensorConfig} :
    traceSensor escapeName r cfg = some r' ↔
      r.1.processSensor escapeName cfg = some r'.1 ∧ r'.2 = r.2 ++ r.1.remade cfg := by
  unfold traceSensor
  rw [Option.map_eq_some_iff]
  constructor
  · rintro ⟨s', hs', rfl⟩
    exact ⟨hs', rfl⟩
  · rintro ⟨hs', hnames⟩
    exact ⟨r'.1, hs', by rw [← hnames]⟩

theorem exec_traceSensor_fst (r : Daemon × List String) (cfgs : List SensorConfig) :
    (exec (traceSensor escapeName) r cfgs).map Prod.fst =
      exec (processSensor escapeName) r.1 cfgs := by
  apply exec_map
  intro r cfg
  unfold traceSensor
  rw [Option.map_map]
  exact Option.map_id'

variable {escapeName}

theorem exec_processSensor_frame {s s' : Daemon} {cfgs : List SensorConfig}
    (h : exec (processSensor escapeName) s cfgs = some s') :
    ∃ sensors sensorsChanged,
      s' = { s with sensors := sensors, sensorsChanged := sensorsChanged } :=
  exec_invariant (I := fun t : Daemon => ∃ sensors sensorsChanged,
      t = { s with sensors := sensors, sensorsChanged := sensorsChanged })
    (fun _ _ _ ht hround => by
      obtain ⟨_, _, rfl⟩ := ht
      obtain ⟨sensors, sensorsChanged, rfl⟩ := processSensor_frame escapeName hround
      exact ⟨sensors, sensorsChanged, rfl⟩)
    ⟨s.sensors, s.sensorsChanged, rfl⟩ h

theorem target_processSensor {s s' : Daemon} {cfg : SensorConfig}
    (h : s.processSensor escapeName cfg = some s') (cfg' : SensorConfig) :
    s'.target cfg' = s.target cfg' := by
  obtain ⟨_, _, rfl⟩ := processSensor_frame escapeName h
  rfl

theorem target_exec {s s' : Daemon} {cfgs : List SensorConfig}
    (h : exec (processSensor escapeName) s cfgs = some s') (cfg : SensorConfig) :
    s'.target cfg = s.target cfg := by
  obtain ⟨_, _, rfl⟩ := exec_processSensor_frame h
  rfl

theorem ready_exec {s s' : Daemon} {cfgs : List SensorConfig}
    (h : exec (processSensor escapeName) s cfgs = some s') (cfg : SensorConfig) :
    s'.Ready cfg ↔ s.Ready cfg := by
  obtain ⟨_, _, rfl⟩ := exec_processSensor_frame h
  rfl

/-- The loop is defined if no search comes to a null controller. -/
theorem exec_processSensor_isSome_iff {s : Daemon} {cfgs : List SensorConfig} :
    (exec (processSensor escapeName) s cfgs).isSome ↔ ∀ cfg ∈ cfgs, s.SearchEnds cfg := by
  induction cfgs generalizing s with
  | nil => simp
  | cons cfg cfgs ih =>
    rw [exec_cons, List.forall_mem_cons, ← processSensor_isSome_iff escapeName]
    cases h : s.processSensor escapeName cfg with
    | none => simp
    | some t =>
      have hends : ∀ cfg, t.SearchEnds cfg ↔ s.SearchEnds cfg := by
        intro cfg
        obtain ⟨_, _, rfl⟩ := processSensor_frame escapeName h
        rfl
      simp only [Option.bind_some, ih, hends, Option.isSome_some, true_and]

/-- Rounds for other sensors leave the entry of `name` alone. -/
theorem exec_traceSensor_frame {r r' : Daemon × List String} {cfgs : List SensorConfig}
    (name : String) (h : exec (traceSensor escapeName) r cfgs = some r')
    (hother : ∀ cfg ∈ cfgs, ∀ t ∈ r.1.target cfg, t.1 ≠ name) :
    r'.1.sensors.lookup name = r.1.sensors.lookup name ∧ (name ∈ r'.2 ↔ name ∈ r.2) := by
  induction cfgs generalizing r with
  | nil =>
    obtain rfl := Option.some.inj h
    exact ⟨rfl, Iff.rfl⟩
  | cons cfg cfgs ih =>
    obtain ⟨r₁, hr₁, h⟩ := Option.bind_eq_some_iff.mp h
    obtain ⟨hround, hnames⟩ := (traceSensor_eq_some escapeName).mp hr₁
    obtain ⟨hcfg, hother⟩ := List.forall_mem_cons.mp hother
    obtain ⟨hlookup, hmem⟩ := ih h fun cfg' hcfg' t ht =>
      hother cfg' hcfg' t (by rw [← target_processSensor hround]; exact ht)
    rw [hlookup, hmem, hnames]
    unfold remade
    cases ht : r.1.target cfg with
    | none =>
      rw [eq_of_target_none escapeName ht hround]
      simp
    | some t =>
      have hne : name ≠ t.1 := (hcfg t ht).symm
      rw [processSensor_lookup escapeName ht hround name, if_neg fun hk => hne hk.1]
      refine ⟨rfl, ?_⟩
      dsimp only
      split_ifs <;> simp [hne]

theorem exec_processSensor_lookup {s s' : Daemon} {cfgs : List SensorConfig} (name : String)
    (h : exec (processSensor escapeName) s cfgs = some s')
    (hother : ∀ cfg ∈ cfgs, ∀ t ∈ s.target cfg, t.1 ≠ name) :
    s'.sensors.lookup name = s.sensors.lookup name := by
  rw [← exec_traceSensor_fst escapeName (s, [])] at h
  obtain ⟨r, hr, rfl⟩ := Option.map_eq_some_iff.mp h
  exact (exec_traceSensor_frame name hr hother).1

variable (escapeName) in
/-- What becomes of the sensor `name`, if `cfg` is its configuration and `s₁` the state that its
round finds: the entry is that from before the loop, and what the round does is final. -/
structure RoundOf (s s' : Daemon) (names : List String) (name : String)
    (controller : DBusADCSensorController) (cfg : SensorConfig) (s₁ : Daemon) : Prop where
  before : s₁.sensors.lookup name = s.sensors.lookup name
  ready : s₁.Ready cfg ↔ s.Ready cfg
  after : s'.sensors.lookup name =
    if s₁.Touches name cfg then
      some (if s.Ready cfg then sensorOf escapeName name controller cfg else none)
    else s.sensors.lookup name
  remade : name ∈ names ↔ s₁.Touches name cfg ∧ s.Ready cfg

theorem roundOf_exec {s s' : Daemon} {names : List String} {cfgs₁ cfgs₂ : List SensorConfig}
    {cfg : SensorConfig} {name : String} {controller : DBusADCSensorController}
    (h : exec (traceSensor escapeName) (s, []) (cfgs₁ ++ cfg :: cfgs₂) = some (s', names))
    (ht : s.target cfg = some (name, controller))
    (hother : ∀ cfg' ∈ cfgs₁ ++ cfgs₂, ∀ t ∈ s.target cfg', t.1 ≠ name) :
    ∃ s₁, exec (processSensor escapeName) s cfgs₁ = some s₁ ∧
      RoundOf escapeName s s' names name controller cfg s₁ := by
  rw [exec_append] at h
  obtain ⟨⟨s₁, names₁⟩, h₁, h⟩ := Option.bind_eq_some_iff.mp h
  obtain ⟨⟨s₂, names₂⟩, hround, h₂⟩ := Option.bind_eq_some_iff.mp h
  obtain ⟨hround, hnames₂⟩ := (traceSensor_eq_some escapeName).mp hround
  have hexec : exec (processSensor escapeName) s cfgs₁ = some s₁ := by
    rw [← exec_traceSensor_fst escapeName (s, []), h₁]
    rfl
  obtain ⟨hlookup₁, hmem₁⟩ := exec_traceSensor_frame name h₁ fun cfg' hcfg' =>
    hother cfg' (List.mem_append_left _ hcfg')
  obtain ⟨hlookup₂, hmem₂⟩ := exec_traceSensor_frame name h₂ fun cfg' hcfg' t ht' =>
    hother cfg' (List.mem_append_right _ hcfg') t (by
      rw [← target_exec hexec, ← target_processSensor hround]
      exact ht')
  have ht₁ : s₁.target cfg = some (name, controller) := by rw [target_exec hexec, ht]
  have hready := ready_exec hexec cfg
  refine ⟨s₁, hexec, hlookup₁, hready, ?_, ?_⟩
  · rw [hlookup₂, processSensor_lookup escapeName ht₁ hround name, hlookup₁]
    simp only [true_and, hready]
  · rw [hmem₂, hnames₂, List.mem_append, hmem₁]
    simp [Daemon.remade, ht₁, hready]

section RoundOf

variable {s s' s₁ : Daemon} {names : List String} {name : String}
  {controller : DBusADCSensorController} {cfg : SensorConfig}

theorem RoundOf.mem_after_iff (h : RoundOf escapeName s s' names name controller cfg s₁) :
    name ∈ s'.sensorNames ↔
      if s₁.Touches name cfg then s.Ready cfg else name ∈ s.sensorNames := by
  rw [mem_sensorNames_iff, mem_sensorNames_iff, h.after]
  split_ifs with htouches hready
  · obtain ⟨dbusPropName, hprop⟩ := Option.isSome_iff_exists.mp hready.2
    simp [sensorOf, hprop, hready]
  · simp [hready]
  · rfl

/-- A sensor that is there is made again, or removed if it is not ready, if its round touches it. -/
theorem RoundOf.remade_iff (h : RoundOf escapeName s s' names name controller cfg s₁)
    (hmem : name ∈ s.sensorNames) :
    (s.Ready cfg → name ∈ names ∧
        s'.sensors.lookup name = some (sensorOf escapeName name controller cfg)) ∧
      (¬ s.Ready cfg → name ∉ s'.sensorNames) ↔ s₁.Touches name cfg := by
  rw [h.remade, h.after, h.mem_after_iff]
  by_cases htouches : s₁.Touches name cfg
  · by_cases hready : s.Ready cfg <;> simp [htouches, hready]
  · by_cases hready : s.Ready cfg <;> simp [htouches, hready, hmem]

theorem RoundOf.kept_iff (h : RoundOf escapeName s s' names name controller cfg s₁)
    (hmem : name ∈ s.sensorNames) :
    (name ∉ names ∧ s'.sensors.lookup name = s.sensors.lookup name) ↔
      ¬ s₁.Touches name cfg := by
  obtain ⟨sensor, hsensor⟩ := mem_sensorNames_iff.mp hmem
  rw [h.remade, h.after, hsensor]
  by_cases htouches : s₁.Touches name cfg
  · by_cases hready : s.Ready cfg <;> simp [htouches, hready]
  · simp [htouches]

end RoundOf

end Daemon

/-! ### The paths of the configurations -/

section Paths

variable (pathOf : String → String)

/-- The path of a sensor's configuration. -/
def SensorConfig.path (cfg : SensorConfig) : Option String :=
  if cfg.typed then cfg.name.map pathOf else none

/-- A reply maps the paths of the objects to their configurations. -/
def DistinctPaths (cfgs : List SensorConfig) : Prop :=
  cfgs.Pairwise fun cfg cfg' => ∀ path ∈ cfg.path pathOf, cfg'.path pathOf ≠ some path

instance : DecidablePred (DistinctPaths pathOf) := fun cfgs =>
  inferInstanceAs (Decidable (cfgs.Pairwise fun cfg cfg' =>
    ∀ path ∈ cfg.path pathOf, cfg'.path pathOf ≠ some path))

theorem Daemon.path_of_target {s : Daemon} {cfg : SensorConfig}
    {t : String × DBusADCSensorController} (ht : s.target cfg = some t) :
    cfg.path pathOf = some (pathOf t.1) := by
  unfold target at ht
  unfold SensorConfig.path
  cases htyped : cfg.typed with
  | false => simp [htyped] at ht
  | true =>
    cases hname : cfg.name with
    | none => simp [htyped, hname] at ht
    | some name =>
      cases hcontroller : cfg.controllerName with
      | none => simp [hcontroller] at ht
      | some controllerName =>
        simp only [htyped, hname, hcontroller] at ht
        split at ht
        · split_ifs at ht
          obtain rfl := Option.some.inj ht
          rfl
        · cases ht

variable {pathOf}

theorem DistinctPaths.target_ne {s : Daemon} {cfgs₁ cfgs₂ : List SensorConfig} {cfg : SensorConfig}
    {t : String × DBusADCSensorController} (h : DistinctPaths pathOf (cfgs₁ ++ cfg :: cfgs₂))
    (ht : s.target cfg = some t) : ∀ cfg' ∈ cfgs₁ ++ cfgs₂, ∀ t' ∈ s.target cfg', t'.1 ≠ t.1 := by
  obtain ⟨-, hlater, hearlier⟩ := List.pairwise_append.mp h
  have hpath := Daemon.path_of_target pathOf ht
  intro cfg' hcfg' t' ht' heq
  have hpath' := Daemon.path_of_target pathOf ht'
  rw [heq] at hpath'
  rcases List.mem_append.mp hcfg' with hcfg' | hcfg'
  · exact hearlier cfg' hcfg' cfg List.mem_cons_self _ hpath' hpath
  · exact (List.pairwise_cons.mp hlater).1 cfg' hcfg' _ hpath hpath'

theorem DistinctPaths.eq_of_target {s : Daemon} {cfgs : List SensorConfig}
    {cfg cfg' : SensorConfig} {name : String} {controller controller' : DBusADCSensorController}
    (h : DistinctPaths pathOf cfgs) (hcfg : cfg ∈ cfgs) (hcfg' : cfg' ∈ cfgs)
    (ht : s.target cfg = some (name, controller))
    (ht' : s.target cfg' = some (name, controller')) : cfg' = cfg := by
  have hpath := Daemon.path_of_target pathOf ht
  have hpath' := Daemon.path_of_target pathOf ht'
  by_contra hne
  have : Std.Symm fun cfg cfg' : SensorConfig =>
      ∀ path ∈ cfg.path pathOf, cfg'.path pathOf ≠ some path :=
    ⟨fun _ _ hdistinct path hp' hp => hdistinct path hp hp'⟩
  exact List.Pairwise.forall h hcfg' hcfg hne _ hpath' hpath

end Paths

end MetaCommon.DbusAdc
