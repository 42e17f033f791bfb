import MetaCommon.DbusAdc.Daemon

/-!
# Null entries

An entry is set to null when its entity is found to have changed, and before a new controller is put
into it. What comes after that may give up: a property is missing, the CPU that a sensor requires is
absent, the controller cannot be enabled. If it never does, there is no null entry whenever a
handler runs.
-/

namespace MetaCommon.DbusAdc

open Runs

/-- No entry is null. -/
def Filled {α : Type} (m : Entities α) : Prop := ∀ e ∈ m.entries, e.2.isSome

instance {α : Type} (m : Entities α) : Decidable (Filled m) :=
  inferInstanceAs (Decidable (∀ e ∈ m.entries, e.2.isSome))

/-! ### The maps -/

section Maps

variable {α : Type} {m : Entities α} {k : String}

theorem filled_empty : Filled (.empty : Entities α) := fun _ he => absurd he List.not_mem_nil

theorem not_filled_assign_none (m : Entities α) (k : String) : ¬ Filled (m.assign k none) :=
  fun h => Bool.noConfusion (h _ (m.mem_assign_self k none))

/-- All entries but the one of `k` are filled. -/
def FilledBut (m : Entities α) (k : String) : Prop := ∀ e ∈ m.entries, e.1 ≠ k → e.2.isSome

theorem Filled.filledBut (h : Filled m) (k : String) : FilledBut m k := fun e he _ => h e he

theorem FilledBut.assign_none (h : FilledBut m k) : FilledBut (m.assign k none) k := by
  intro e he hne
  rcases (FlatMap.mem_assign e).mp he with rfl | ⟨he, -⟩
  · exact absurd rfl hne
  · exact h e he hne

theorem FilledBut.assign_some (h : FilledBut m k) (a : α) : Filled (m.assign k (some a)) := by
  intro e he
  rcases (FlatMap.mem_assign e).mp he with rfl | ⟨he, hne⟩
  · rfl
  · exact h e he hne

theorem findIf_isSome {p : α → Bool} {es : List (String × Option α)}
    (h : ∀ e ∈ es, e.2.isSome) : (findIf p es).isSome := by
  induction es with
  | nil => rfl
  | cons e es ih =>
    obtain ⟨he, hes⟩ := List.forall_mem_cons.mp h
    obtain ⟨entity, hentity⟩ := Option.isSome_iff_exists.mp he
    obtain ⟨k, o⟩ := e
    subst hentity
    unfold findIf
    split_ifs
    · rfl
    · exact ih hes

end Maps

/-- The entity `name` is there, and a change of it has been signalled. -/
def Changed {α : Type} (nameOf : α → String) (name : String) (entities : Entities α)
    (entitiesChanged : EntitiesChanged) : Prop :=
  ∃ o ∈ entities.lookup name, ∃ entity ∈ o,
    ∃ path ∈ entitiesChanged.keys, endsWith path (nameOf entity)

instance {α : Type} (nameOf : α → String) (name : String) (entities : Entities α)
    (entitiesChanged : EntitiesChanged) :
    Decidable (Changed nameOf name entities entitiesChanged) :=
  inferInstanceAs (Decidable (∃ o ∈ entities.lookup name, ∃ entity ∈ o, _))

/-- A changed entity is set to null; of one that has not changed nothing is touched. -/
theorem entityChanged_cases {α : Type} (nameOf : α → String) (name : String)
    (entities : Entities α) (entitiesChanged : EntitiesChanged) :
    (Changed nameOf name entities entitiesChanged ∧
      ∃ path, entityChanged nameOf name entities entitiesChanged =
        (true, entities.assign name none, entitiesChanged.erase path)) ∨
    (¬ Changed nameOf name entities entitiesChanged ∧
      entityChanged nameOf name entities entitiesChanged = (false, entities, entitiesChanged)) := by
  unfold entityChanged
  cases hl : entities.lookup name with
  | none =>
    refine .inr ⟨?_, rfl⟩
    rintro ⟨_, h, -⟩
    cases hl.symm.trans h
  | some o =>
    cases o with
    | none =>
      refine .inr ⟨?_, rfl⟩
      rintro ⟨_, h, _, hentity, -⟩
      obtain rfl := Option.some.inj (hl.symm.trans h)
      cases hentity
    | some entity =>
      dsimp only
      cases hf : entitiesChanged.keys.find? fun path => endsWith path (nameOf entity) with
      | none =>
        refine .inr ⟨?_, rfl⟩
        rintro ⟨_, h, _, hentity, path, hpath, hends⟩
        obtain rfl := Option.some.inj (hl.symm.trans h)
        obtain rfl := Option.some.inj hentity
        exact absurd hends (List.find?_eq_none.mp hf path hpath)
      | some path =>
        refine .inl ⟨⟨some entity, hl, entity, rfl, path, List.mem_of_find?_eq_some hf, ?_⟩,
          path, rfl⟩
        exact List.find?_some (p := fun path => endsWith path (nameOf entity)) hf

/-! ### One controller -/

/-- The configuration has all the mandatory properties after the name. -/
def ControllerConfig.Complete (cfg : ControllerConfig) : Prop :=
  cfg.dbusService.isSome ∧ cfg.dbusPath.isSome ∧ cfg.dbusIface.isSome ∧ cfg.vref.isSome ∧
    cfg.resolutionBits.isSome

instance : DecidablePred ControllerConfig.Complete := fun cfg =>
  inferInstanceAs (Decidable (cfg.dbusService.isSome ∧ cfg.dbusPath.isSome ∧
    cfg.dbusIface.isSome ∧ cfg.vref.isSome ∧ cfg.resolutionBits.isSome))

namespace Daemon

theorem remakeController_of_not_complete (s : Daemon) (name : String) {cfg : ControllerConfig}
    (h : ¬ cfg.Complete) : s.remakeController name cfg = s := by
  unfold remakeController
  split
  · next h1 h2 h3 h4 h5 => exact absurd (by simp [ControllerConfig.Complete, *]) h
  · rfl

theorem remakeController_of_complete (s : Daemon) (name : String) {cfg : ControllerConfig}
    (h : cfg.Complete) : ∃ c : DBusADCSensorController, c.name = name ∧ c.enabled = true ∧
      s.remakeController name cfg = { s with
        controllers := if cfg.enables then (s.controllers.assign name none).assign name (some c)
          else s.controllers.assign name none } := by
  obtain ⟨h1, h2, h3, h4, h5⟩ := h
  obtain ⟨dbusService, h1⟩ := Option.isSome_iff_exists.mp h1
  obtain ⟨dbusPath, h2⟩ := Option.isSome_iff_exists.mp h2
  obtain ⟨dbusIface, h3⟩ := Option.isSome_iff_exists.mp h3
  obtain ⟨vref, h4⟩ := Option.isSome_iff_exists.mp h4
  obtain ⟨resolutionBits, h5⟩ := Option.isSome_iff_exists.mp h5
  refine ⟨⟨name, dbusService, dbusPath, dbusIface, vref, resolutionBits, true⟩, rfl, rfl, ?_⟩
  simp [remakeController, h1, h2, h3, h4, h5]

/-- A controller that is made again is there afterwards exactly if it can be enabled, and one that
lacks a property is as it was. -/
theorem remakeController_filled_iff (s : Daemon) {name : String} (cfg : ControllerConfig)
    (h : FilledBut s.controllers name) :
    Filled (s.remakeController name cfg).controllers ↔
      (cfg.Complete → cfg.enables) ∧ (¬ cfg.Complete → Filled s.controllers) := by
  by_cases hc : cfg.Complete
  · obtain ⟨c, -, -, he⟩ := s.remakeController_of_complete name hc
    rw [he]
    dsimp only
    split_ifs with henables
    · simp [hc, henables, h.assign_none.assign_some c]
    · simp [hc, henables, not_filled_assign_none]
  · rw [s.remakeController_of_not_complete name hc]
    simp [hc]

/-- The condition on a configuration that the loop of `createControllers` comes to: a controller
that is made again can be enabled, and one that has changed has its properties besides. -/
def ControllerCondition (r : Daemon × Bool) (cfg : ControllerConfig) : Prop :=
  cfg.typed → ∀ name ∈ cfg.name,
    if r.1.controllersChanged.isEmpty then cfg.Complete → cfg.enables
    else Changed DBusADCSensorController.name name r.1.controllers r.1.controllersChanged →
      cfg.Complete ∧ cfg.enables

instance : DecidableRel ControllerCondition := fun r cfg =>
  inferInstanceAs (Decidable (cfg.typed → ∀ name ∈ cfg.name,
    if r.1.controllersChanged.isEmpty then cfg.Complete → cfg.enables
    else Changed DBusADCSensorController.name name r.1.controllers r.1.controllersChanged →
      cfg.Complete ∧ cfg.enables))

theorem processController_filled_iff {r : Daemon × Bool} (cfg : ControllerConfig)
    (h : Filled r.1.controllers) :
    Filled (processController r cfg).1.controllers ↔ ControllerCondition r cfg := by
  unfold processController ControllerCondition
  cases cfg.typed with
  | false => simp [h]
  | true =>
    cases cfg.name with
    | none => simp [h]
    | some name =>
      simp only [forall_true_left, Option.mem_def, Option.some.injEq, forall_eq']
      have hbut := h.filledBut name
      cases hempty : r.1.controllersChanged.isEmpty with
      | true => simp [remakeController_filled_iff r.1 cfg hbut, h]
      | false =>
        obtain ⟨hchanged, path, he⟩ | ⟨hchanged, he⟩ := entityChanged_cases
          DBusADCSensorController.name name r.1.controllers r.1.controllersChanged
        · have hnull := not_filled_assign_none r.1.controllers name
          have hremake := remakeController_filled_iff { r.1 with
            controllers := r.1.controllers.assign name none
            controllersChanged := r.1.controllersChanged.erase path } cfg hbut.assign_none
          simp only [he, Bool.false_eq_true, if_false, if_true, hremake]
          constructor
          · rintro ⟨henables, hfilled⟩ -
            have hc : cfg.Complete := by_contra fun hc => hnull (hfilled hc)
            exact ⟨hc, henables hc⟩
          · intro hcond
            obtain ⟨hc, henables⟩ := hcond hchanged
            exact ⟨fun _ => henables, fun hnot => absurd hc hnot⟩
        · simp [he, hchanged, h]

theorem remakeController_frame (s : Daemon) (name : String) (cfg : ControllerConfig) :
    ∃ controllers, s.remakeController name cfg = { s with controllers := controllers } := by
  by_cases hc : cfg.Complete
  · obtain ⟨c, -, -, he⟩ := s.remakeController_of_complete name hc
    exact ⟨_, he⟩
  · exact ⟨s.controllers, s.remakeController_of_not_complete name hc⟩

/-- A round of the loop of `createControllers` leaves everything else alone. -/
theorem processController_frame (r : Daemon × Bool) (cfg : ControllerConfig) :
    ∃ controllers controllersChanged, (processController r cfg).1 =
      { r.1 with controllers := controllers, controllersChanged := controllersChanged } := by
  unfold processController
  dsimp only
  split
  · next name _ _ =>
    split_ifs
    · obtain ⟨controllers, he⟩ := remakeController_frame r.1 name cfg
      exact ⟨controllers, r.1.controllersChanged, he⟩
    · obtain ⟨controllers, he⟩ := remakeController_frame _ name cfg
      exact ⟨controllers, _, he⟩
    · exact ⟨_, _, rfl⟩
  · exact ⟨_, _, rfl⟩

/-! ### One sensor -/

variable (escapeName : String → String)

/-- The CPU that the sensor requires is present, and the configuration has the property to read. -/
def Ready (s : Daemon) (cfg : SensorConfig) : Prop :=
  (∀ cpuIdx ∈ cfg.cpuRequired, s.cpuPresence cpuIdx = some true) ∧ cfg.dbusProperty.isSome

instance (s : Daemon) : DecidablePred s.Ready := fun cfg =>
  inferInstanceAs (Decidable ((∀ cpuIdx ∈ cfg.cpuRequired, s.cpuPresence cpuIdx = some true) ∧
    cfg.dbusProperty.isSome))

theorem remakeSensor_of_not_ready {s : Daemon} (name : String)
    (controller : DBusADCSensorController) {cfg : SensorConfig} (h : ¬ s.Ready cfg) :
    s.remakeSensor escapeName name controller cfg = s := by
  unfold remakeSensor
  split_ifs with hcpu
  · split
    · next dbusPropName hp => exact absurd ⟨hcpu, by rw [hp]; rfl⟩ h
    · rfl
  · rfl

theorem remakeSensor_of_ready {s : Daemon} (name : String) (controller : DBusADCSensorController)
    {cfg : SensorConfig} (h : s.Ready cfg) :
    ∃ sensor, s.remakeSensor escapeName name controller cfg =
      { s with sensors := (s.sensors.assign name none).assign name (some sensor) } := by
  obtain ⟨hcpu, hp⟩ := h
  obtain ⟨dbusPropName, hp⟩ := Option.isSome_iff_exists.mp hp
  unfold remakeSensor
  rw [if_pos hcpu, hp]
  exact ⟨_, rfl⟩

theorem remakeSensor_frame (s : Daemon) (name : String) (controller : DBusADCSensorController)
    (cfg : SensorConfig) : ∃ sensors,
      s.remakeSensor escapeName name controller cfg = { s with sensors := sensors } := by
  by_cases hready : s.Ready cfg
  · obtain ⟨sensor, he⟩ := remakeSensor_of_ready escapeName name controller hready
    exact ⟨_, he⟩
  · exact ⟨s.sensors, remakeSensor_of_not_ready escapeName name controller hready⟩

@[simp] theorem remakeSensor_controllers (s : Daemon) (name : String)
    (controller : DBusADCSensorController) (cfg : SensorConfig) :
    (s.remakeSensor escapeName name controller cfg).controllers = s.controllers := by
  obtain ⟨sensors, he⟩ := remakeSensor_frame escapeName s name controller cfg
  rw [he]

/-- A sensor that is made again is there afterwards, and one that is not ready is as it was. -/
theorem remakeSensor_filled_iff (s : Daemon) {name : String} (controller : DBusADCSensorController)
    (cfg : SensorConfig) (h : FilledBut s.sensors name) :
    Filled (s.remakeSensor escapeName name controller cfg).sensors ↔
      (¬ s.Ready cfg → Filled s.sensors) := by
  by_cases hready : s.Ready cfg
  · obtain ⟨sensor, he⟩ := remakeSensor_of_ready escapeName name controller hready
    rw [he]
    simp [hready, h.assign_none.assign_some sensor]
  · rw [remakeSensor_of_not_ready escapeName name controller hready]
    simp [hready]

/-- The name of a sensor and its controller, if the loop of `createSensors` gets past the search for
the controller. -/
def target (s : Daemon) (cfg : SensorConfig) : Option (String × DBusADCSensorController) :=
  match cfg.typed, cfg.name, cfg.controllerName with
  | true, some name, some controllerName =>
    match findIf (fun c => controllerName == c.name) s.controllers.entries with
    | some (some controller) => if controller.enabled then some (name, controller) else none
    | _ => none
  | _, _, _ => none

/-- The condition on a configuration that the loop of `createSensors` comes to: a sensor that has
changed is ready, if its controller is there. -/
def SensorCondition (s : Daemon) (cfg : SensorConfig) : Prop :=
  ∀ t ∈ s.target cfg, ¬ s.sensorsChanged.isEmpty →
    Changed DBusADCSensor.name t.1 s.sensors s.sensorsChanged → s.Ready cfg

instance : DecidableRel SensorCondition := fun s cfg =>
  inferInstanceAs (Decidable (∀ t ∈ s.target cfg, ¬ s.sensorsChanged.isEmpty →
    Changed DBusADCSensor.name t.1 s.sensors s.sensorsChanged → s.Ready cfg))

/-- The search for the controller of the configuration, if it is reached, comes to no null entry. -/
def SearchEnds (s : Daemon) (cfg : SensorConfig) : Prop :=
  cfg.typed = true → cfg.name.isSome → ∀ controllerName ∈ cfg.controllerName,
    (findIf (fun c => controllerName == c.name) s.controllers.entries).isSome

theorem searchEnds_of_filled {s : Daemon} (hc : Filled s.controllers) (cfg : SensorConfig) :
    s.SearchEnds cfg := fun _ _ _ _ => findIf_isSome hc

theorem processSensor_isSome_iff {s : Daemon} {cfg : SensorConfig} :
    (s.processSensor escapeName cfg).isSome ↔ s.SearchEnds cfg := by
  unfold processSensor SearchEnds
  cases htyped : cfg.typed with
  | false => simp
  | true =>
    cases hname : cfg.name with
    | none => simp
    | some name =>
      cases hcontroller : cfg.controllerName with
      | none => simp
      | some controllerName => simp

theorem processSensor_of_target_none {s : Daemon} {cfg : SensorConfig} (hc : s.SearchEnds cfg)
    (ht : s.target cfg = none) : s.processSensor escapeName cfg = some s := by
  unfold processSensor
  unfold target at ht
  cases htyped : cfg.typed with
  | false => rfl
  | true =>
    cases hname : cfg.name with
    | none => rfl
    | some name =>
      cases hcontroller : cfg.controllerName with
      | none => rfl
      | some controllerName =>
        obtain ⟨found, hfound⟩ := Option.isSome_iff_exists.mp
          (hc htyped (by rw [hname]; rfl) controllerName hcontroller)
        simp only [htyped, hname, hcontroller, hfound] at ht
        simp only [hfound, Option.map_some]
        cases found with
        | none => rfl
        | some controller =>
          cases henabled : controller.enabled with
          | false => simp [henabled]
          | true => simp [henabled] at ht

theorem processSensor_of_target {s : Daemon} {cfg : SensorConfig}
    {t : String × DBusADCSensorController} (ht : s.target cfg = some t) :
    s.processSensor escapeName cfg = some (
      if s.sensorsChanged.isEmpty then s.remakeSensor escapeName t.1 t.2 cfg
      else
        let c := entityChanged DBusADCSensor.name t.1 s.sensors s.sensorsChanged
        if c.1 then
          ({ s with sensors := c.2.1, sensorsChanged := c.2.2 }).remakeSensor escapeName t.1 t.2 cfg
        else s) := by
  unfold processSensor
  unfold target at ht
  cases htyped : cfg.typed with
  | false => simp [htyped] at ht
  | true =>
    cases hname : cfg.name with
    | none => simp [htyped, hname] at ht
    | some name =>
      cases hcontroller : cfg.controllerName with
      | none => simp [htyped, hname, hcontroller] at ht
      | some controllerName =>
        simp only [htyped, hname, hcontroller] at ht
        dsimp only
        cases hfound : findIf (fun c => controllerName == c.name) s.controllers.entries with
        | none => simp [hfound] at ht
        | some found =>
          cases found with
          | none => simp [hfound] at ht
          | some controller =>
            cases henabled : controller.enabled with
            | false => simp [hfound, henabled] at ht
            | true =>
              simp only [hfound, henabled, if_true, Option.some.injEq] at ht
              subst ht
              simp only [Option.map_some, henabled, Bool.not_true, Bool.false_eq_true, if_false]

/-- One round keeps the sensors filled exactly if its configuration meets the condition; the
controllers stay as they are. -/
theorem processSensor_spec {s : Daemon} (cfg : SensorConfig) (hc : Filled s.controllers)
    (hs : Filled s.sensors) : ∃ s', s.processSensor escapeName cfg = some s' ∧
      s'.controllers = s.controllers ∧ (Filled s'.sensors ↔ s.SensorCondition cfg) := by
  unfold SensorCondition
  cases ht : s.target cfg with
  | none =>
    exact ⟨s, processSensor_of_target_none escapeName (searchEnds_of_filled hc cfg) ht, rfl,
      by simp [hs]⟩
  | some t =>
    refine ⟨_, processSensor_of_target escapeName ht, ?_⟩
    simp only [Option.mem_def, Option.some.injEq, forall_eq']
    have hbut := hs.filledBut t.1
    cases hempty : s.sensorsChanged.isEmpty with
    | true => simp [remakeSensor_filled_iff escapeName s t.2 cfg hbut, hs]
    | false =>
      obtain ⟨hchanged, path, he⟩ | ⟨hchanged, he⟩ := entityChanged_cases
        DBusADCSensor.name t.1 s.sensors s.sensorsChanged
      · have hnull := not_filled_assign_none s.sensors t.1
        have hremake := remakeSensor_filled_iff escapeName { s with
          sensors := s.sensors.assign t.1 none
          sensorsChanged := s.sensorsChanged.erase path } t.2 cfg hbut.assign_none
        simp only [he, Bool.false_eq_true, if_false, if_true, hremake, remakeSensor_controllers,
          true_and]
        constructor
        · intro hfilled _ _
          exact by_contra fun hnot => hnull (hfilled hnot)
        · intro hready hnot
          exact absurd (hready not_false hchanged) hnot
      · simp [he, hchanged, hs]

/-! ### The replies -/

/-- Neither map has a null entry. -/
structure EntriesFilled (s : Daemon) : Prop where
  controllers : Filled s.controllers
  sensors : Filled s.sensors

theorem controllersReply_filled {s : Daemon} {cfgs : List ControllerConfig} (h : s.EntriesFilled)
    (hcond : Guarded processController ControllerCondition (s, false) cfgs) :
    (s.controllersReply cfgs).EntriesFilled := by
  have hrun : (run processController (s, false) cfgs).1.EntriesFilled :=
    hcond.invariant (I := fun r => r.1.EntriesFilled) (fun r cfg hr hcfg => by
      refine ⟨(processController_filled_iff cfg hr.controllers).mpr hcfg, ?_⟩
      obtain ⟨_, _, he⟩ := processController_frame r cfg
      rw [he]
      exact hr.sensors) h
  unfold controllersReply
  dsimp only
  split_ifs
  · exact ⟨hrun.controllers, filled_empty⟩
  · exact hrun

theorem sensorsReply_filled {s : Daemon} {cfgs : List SensorConfig} (h : s.EntriesFilled)
    (hcond : ExecGuarded (processSensor escapeName) SensorCondition s cfgs) :
    ∃ s', exec (processSensor escapeName) s cfgs = some s' ∧ s'.EntriesFilled :=
  hcond.exec_some (fun s cfg hs hcfg => by
    obtain ⟨s', he, hc, hsensors⟩ := processSensor_spec escapeName cfg hs.controllers hs.sensors
    exact ⟨s', he, by rw [hc]; exact hs.controllers, hsensors.mpr hcfg⟩) h

/-! ### Runs -/

/-- The condition on an event: what the configurations of a reply must be like for no entry to stay
null. -/
def EventCondition (s : Daemon) : Event → Prop
  | .controllersReply cfgs => Guarded processController ControllerCondition
      ({ s with controllerReplies := s.controllerReplies - 1 }, false) cfgs
  | .sensorsReply cfgs => ExecGuarded (processSensor escapeName) SensorCondition
      { s with sensorReplies := s.sensorReplies - 1 } cfgs
  | _ => True

/-- The search for the controller is reached. -/
def SearchesController (cfg : SensorConfig) : Prop :=
  cfg.typed ∧ cfg.name.isSome ∧ cfg.controllerName.isSome

/-- Whenever a handler goes through the entries of a map, none of them is null. -/
def DereferencesFilled (s : Daemon) : Event → Prop
  | .sensorsReply cfgs => (∃ cfg ∈ cfgs, SearchesController cfg) → Filled s.controllers
  | .sensorEvent isMethodError _ => isMethodError = false → Filled s.sensors
  | .controllerEvent isMethodError _ => isMethodError = false → Filled s.controllers
  | .signal => Filled s.controllers
  | _ => True

instance : DecidableRel (EventCondition escapeName) := fun s e =>
  match e with
  | .controllersReply cfgs => inferInstanceAs (Decidable (Guarded processController
      ControllerCondition ({ s with controllerReplies := s.controllerReplies - 1 }, false) cfgs))
  | .sensorsReply cfgs => inferInstanceAs (Decidable (ExecGuarded (processSensor escapeName)
      SensorCondition { s with sensorReplies := s.sensorReplies - 1 } cfgs))
  | .posted => isTrue trivial
  | .sensorEvent _ _ => isTrue trivial
  | .controllerEvent _ _ => isTrue trivial
  | .cpuPresence _ _ => isTrue trivial
  | .sensorTimer _ => isTrue trivial
  | .controllerTimer _ => isTrue trivial
  | .cpuTimer _ => isTrue trivial
  | .signal => isTrue trivial

theorem handle_filled {s : Daemon} {e : Event} (h : s.EntriesFilled)
    (hcond : s.EventCondition escapeName e) :
    ∃ s', s.handle escapeName e = some s' ∧ s'.EntriesFilled := by
  cases e with
  | posted => exact ⟨_, rfl, h.controllers, h.sensors⟩
  | controllersReply cfgs =>
    exact ⟨_, rfl, controllersReply_filled ⟨h.controllers, h.sensors⟩ hcond⟩
  | sensorsReply cfgs => exact sensorsReply_filled escapeName ⟨h.controllers, h.sensors⟩ hcond
  | sensorEvent isMethodError path =>
    cases isMethodError with
    | true => exact ⟨s, rfl, h⟩
    | false =>
      obtain ⟨found, hfound⟩ := Option.isSome_iff_exists.mp
        (findIf_isSome (p := fun sensor => endsWith path sensor.name) h.sensors)
      exact ⟨_, congrArg (Option.map _) hfound, h.controllers, h.sensors⟩
  | controllerEvent isMethodError path =>
    cases isMethodError with
    | true => exact ⟨s, rfl, h⟩
    | false =>
      obtain ⟨found, hfound⟩ := Option.isSome_iff_exists.mp
        (findIf_isSome (p := fun controller => endsWith path controller.name) h.controllers)
      exact ⟨_, congrArg (Option.map _) hfound, h.controllers, h.sensors⟩
  | cpuPresence index present =>
    refine ⟨_, rfl, ?_⟩
    unfold cpuPresenceHandler
    split
    · exact ⟨h.controllers, h.sensors⟩
    · exact h
  | sensorTimer expired =>
    cases expired with
    | true => exact ⟨_, rfl, h.controllers, h.sensors⟩
    | false => exact ⟨_, rfl, h.controllers, h.sensors⟩
  | controllerTimer expired =>
    cases expired with
    | true => exact ⟨_, rfl, h.controllers, h.sensors⟩
    | false => exact ⟨_, rfl, h.controllers, h.sensors⟩
  | cpuTimer expired =>
    cases expired with
    | true => exact ⟨_, rfl, h.controllers, h.sensors⟩
    | false => exact ⟨_, rfl, h.controllers, h.sensors⟩
  | signal => exact ⟨_, if_pos h.controllers, h.controllers, h.sensors⟩

theorem dereferencesFilled_of_filled {s : Daemon} (h : s.EntriesFilled) (e : Event) :
    s.DereferencesFilled e := by
  cases e with
  | sensorsReply cfgs => exact fun _ => h.controllers
  | sensorEvent isMethodError path => exact fun _ => h.sensors
  | controllerEvent isMethodError path => exact fun _ => h.controllers
  | signal => exact h.controllers
  | _ => trivial

theorem step_filled {s s' : Daemon} {e : Event} (h : s.EntriesFilled)
    (hcond : s.EventCondition escapeName e) (he : s.step escapeName e = some s') :
    s'.EntriesFilled := by
  unfold step at he
  split_ifs at he
  obtain ⟨t, ht, hfilled⟩ := handle_filled escapeName h hcond
  obtain rfl := Option.some.inj (ht.symm.trans he)
  exact hfilled

/-- In every run whose replies meet the condition, no handler that goes through the entries of a map
finds a null one. -/
theorem run_dereferencesFilled (cpuPresence : ℕ → Option Bool) (es : List Event)
    (h : ExecGuarded (step escapeName) (EventCondition escapeName) (init cpuPresence) es) :
    ExecGuarded (step escapeName) DereferencesFilled (init cpuPresence) es :=
  h.mono (fun _ _ _ hs hcond he => step_filled escapeName hs hcond he)
    (fun _ e hs _ => dereferencesFilled_of_filled hs e) ⟨filled_empty, filled_empty⟩

def escapeSpaces (name : String) : String :=
  String.ofList (name.toList.map fun c => if c = ' ' then '_' else c)

/-- A complete configuration of the controller "ADC", which can be enabled or not. -/
def adcConfig (enables : Bool) : ControllerConfig :=
  ⟨true, some "ADC", some "scm", some "/scm/adc", some "xyz.ADC", some "2.5", some "10", enables⟩

def railConfig : SensorConfig := ⟨true, some "P12V rail", some "ADC", some 1, some "Channel0"⟩

/-- Both maps are filled, a change of the sensor is signalled, the sensor is made again and the
daemon is stopped. -/
theorem run_dereferencesFilled_rail : ExecGuarded (step escapeSpaces) DereferencesFilled
    (init fun _ => some true)
    [.posted, .controllersReply [adcConfig true], .sensorsReply [railConfig],
      .sensorEvent false "/inventory/P12V_rail", .sensorTimer true, .sensorsReply [railConfig],
      .signal] :=
  run_dereferencesFilled escapeSpaces (fun _ => some true) _ (by decide +kernel)

/-- The controller cannot be enabled, and the daemon is told to stop. -/
theorem not_run_dereferencesFilled :
    ¬ ExecGuarded (step escapeSpaces) DereferencesFilled (init fun _ => some true)
      [.posted, .controllersReply [adcConfig false], .signal] := by
  rintro ⟨-, -, hfilled, -⟩
  exact absurd (hfilled ("ADC", none) (by decide +kernel)) Bool.false_ne_true

end Daemon

end MetaCommon.DbusAdc
