import Mathlib.Data.List.Induction
import Mathlib.Data.Set.Insert
import MetaCommon.DbusAdc.NullEntries

/-!
# The order of the first two replies

At the start both configuration requests are posted, and `createSensors` needs the controllers that
`createControllers` makes. The sensors that ought to exist in the end are those of the eligible
configurations. If the reply for the sensors comes first there is no controller yet, and nothing
asks for the sensors again.
-/

namespace MetaCommon.DbusAdc

open Runs

/-! ### What the configurations ask for -/

/-- A complete configuration of the controller `name`. -/
def ControllerConfig.Makes (name : String) (cfg : ControllerConfig) : Prop :=
  cfg.typed = true ∧ cfg.name = some name ∧ cfg.Complete

instance (name : String) : DecidablePred (ControllerConfig.Makes name) := fun cfg =>
  inferInstanceAs (Decidable (cfg.typed = true ∧ cfg.name = some name ∧ cfg.Complete))

/-- The configuration that the controller `name` is made of: the last one that is complete. -/
def controllerConfig (ccfgs : List ControllerConfig) (name : String) : Option ControllerConfig :=
  ccfgs.reverse.find? fun cfg => decide (cfg.Makes name)

def ControllerEnabled (ccfgs : List ControllerConfig) (name : String) : Prop :=
  ∃ cfg ∈ controllerConfig ccfgs name, cfg.enables = true

/-- The controller `name` has a configuration and fails to enable itself. -/
def ControllerFails (ccfgs : List ControllerConfig) (name : String) : Prop :=
  ∃ cfg ∈ controllerConfig ccfgs name, cfg.enables = false

/-- A sensor configuration with all mandatory properties, an enabled controller of the given name
and a present required CPU. -/
def SensorConfig.Eligible (cpuPresence : ℕ → Option Bool) (ccfgs : List ControllerConfig)
    (cfg : SensorConfig) : Prop :=
  cfg.typed = true ∧ cfg.name.isSome ∧ (∃ name ∈ cfg.controllerName, ControllerEnabled ccfgs name) ∧
    (∀ cpuIdx ∈ cfg.cpuRequired, cpuPresence cpuIdx = some true) ∧ cfg.dbusProperty.isSome

def eligibleNames (cpuPresence : ℕ → Option Bool) (ccfgs : List ControllerConfig)
    (scfgs : List SensorConfig) : Set String :=
  {name | ∃ cfg ∈ scfgs, cfg.name = some name ∧ cfg.Eligible cpuPresence ccfgs}

/-! ### Searching the controllers -/

section Search

/-- Every object has the name under which it is entered. -/
def Named {α : Type} (nameOf : α → String) (es : List (String × Option α)) : Prop :=
  ∀ k, ∀ entity, (k, some entity) ∈ es → nameOf entity = k

variable {α : Type} {nameOf : α → String} {es : List (String × Option α)} {name : String}

theorem Named.tail {e : String × Option α} (h : Named nameOf (e :: es)) : Named nameOf es :=
  fun k entity hmem => h k entity (List.mem_cons_of_mem e hmem)

/-- The search is defined if every null entry comes after the one that is searched for. -/
theorem findIf_isSome_iff (hsorted : es.Pairwise fun a b => a.1 < b.1) (hnamed : Named nameOf es) :
    (findIf (fun entity => name == nameOf entity) es).isSome ↔
      ∀ k, (k, none) ∈ es → (∃ entity, (name, some entity) ∈ es) ∧ name < k := by
  induction es with
  | nil => simp [findIf]
  | cons e es ih =>
    obtain ⟨hfirst, hrest⟩ := List.pairwise_cons.mp hsorted
    obtain ⟨k, o⟩ := e
    cases o with
    | none =>
      simp only [findIf, Option.isSome_none, Bool.false_eq_true, false_iff]
      intro h
      obtain ⟨⟨entity, hmem⟩, hlt⟩ := h k List.mem_cons_self
      rcases List.mem_cons.mp hmem with heq | hmem
      · cases heq
      · exact absurd hlt (lt_asymm (hfirst _ hmem))
    | some entity =>
      have hk : nameOf entity = k := hnamed k entity List.mem_cons_self
      by_cases hname : name = k
      · have hfound : (name == nameOf entity) = true := by rw [hk, hname, beq_self_eq_true]
        simp only [findIf, hfound, if_true, Option.isSome_some, true_iff]
        intro k' hmem
        refine ⟨⟨entity, by rw [hname]; exact List.mem_cons_self⟩, ?_⟩
        rcases List.mem_cons.mp hmem with heq | hmem
        · cases heq
        · rw [hname]
          exact hfirst _ hmem
      · have hnot : (name == nameOf entity) = false := by
          rw [hk]
          exact beq_false_of_ne hname
        have hne : ∀ o, (name, o) ≠ (k, some entity) := fun o heq => hname (congrArg Prod.fst heq)
        simp only [findIf, hnot, Bool.false_eq_true, if_false]
        rw [ih hrest hnamed.tail]
        simp [hne]

theorem findIf_eq (hsorted : es.Pairwise fun a b => a.1 < b.1) (hnamed : Named nameOf es)
    {found : Option α} (h : findIf (fun entity => name == nameOf entity) es = some found) :
    ∀ entity, found = some entity ↔ (name, some entity) ∈ es := by
  induction es with
  | nil =>
    obtain rfl := Option.some.inj h
    simp
  | cons e es ih =>
    obtain ⟨hfirst, hrest⟩ := List.pairwise_cons.mp hsorted
    obtain ⟨k, o⟩ := e
    cases o with
    | none => cases h
    | some first =>
      have hk : nameOf first = k := hnamed k first List.mem_cons_self
      by_cases hname : name = k
      · have hfound : (name == nameOf first) = true := by rw [hk, hname, beq_self_eq_true]
        simp only [findIf, hfound, if_true, Option.some.injEq] at h
        subst h
        intro entity
        constructor
        · rintro ⟨⟩
          rw [hname]
          exact List.mem_cons_self
        · intro hmem
          rcases List.mem_cons.mp hmem with heq | hmem
          · exact (congrArg Prod.snd heq).symm
          · exact absurd (hfirst _ hmem) (by rw [hname]; exact lt_irrefl k)
      · have hnot : (name == nameOf first) = false := by
          rw [hk]
          exact beq_false_of_ne hname
        simp only [findIf, hnot, Bool.false_eq_true, if_false] at h
        intro entity
        have hne : (name, some entity) ≠ (k, some first) := fun heq => hname (congrArg Prod.fst heq)
        rw [ih hrest hnamed.tail h entity]
        simp [hne]

end Search

namespace Daemon

/-! ### The reply for the controllers -/

/-- The entries of the controllers are those of their configurations, null where a controller fails
to enable itself. -/
def MadeOf (ccfgs : List ControllerConfig) (m : Entities DBusADCSensorController) : Prop :=
  ∀ name, (∀ controller, (name, some controller) ∈ m.entries →
      controller.name = name ∧ controller.enabled = true) ∧
    ((∃ controller, (name, some controller) ∈ m.entries) ↔ ControllerEnabled ccfgs name) ∧
    ((name, none) ∈ m.entries ↔ ControllerFails ccfgs name)

theorem madeOf_empty : MadeOf [] .empty := by
  intro name
  refine ⟨nofun, ?_, ?_⟩
  · simp [FlatMap.empty, ControllerEnabled, controllerConfig]
  · simp [FlatMap.empty, ControllerFails, controllerConfig]

theorem controllerConfig_concat (ccfgs : List ControllerConfig) (cfg : ControllerConfig)
    (name : String) : controllerConfig (ccfgs ++ [cfg]) name =
      if cfg.Makes name then some cfg else controllerConfig ccfgs name := by
  unfold controllerConfig
  rw [List.reverse_append, List.reverse_singleton, List.singleton_append, List.find?_cons]
  by_cases h : cfg.Makes name <;> simp [h]

/-- A round of the loop with no change signalled makes the controller of the configuration, if that
is complete. -/
theorem processController_of_makes {s : Daemon} {b : Bool} {cfg : ControllerConfig} {name : String}
    (hempty : s.controllersChanged.isEmpty = true) (h : cfg.Makes name) :
    ∃ controller : DBusADCSensorController, controller.name = name ∧ controller.enabled = true ∧
      processController (s, b) cfg = ({ s with
        controllers := if cfg.enables then
            (s.controllers.assign name none).assign name (some controller)
          else s.controllers.assign name none }, b) := by
  obtain ⟨htyped, hname, hcomplete⟩ := h
  obtain ⟨controller, hcontroller, henabled, hremake⟩ :=
    s.remakeController_of_complete name hcomplete
  refine ⟨controller, hcontroller, henabled, ?_⟩
  simp [processController, htyped, hname, hempty, hremake]

theorem processController_of_not_makes {s : Daemon} {b : Bool} {cfg : ControllerConfig}
    (hempty : s.controllersChanged.isEmpty = true) (h : ∀ name, ¬ cfg.Makes name) :
    processController (s, b) cfg = (s, b) := by
  unfold processController
  dsimp only
  split
  · next name htyped hname =>
    have hc : ¬ cfg.Complete := fun hc => h name ⟨htyped, hname, hc⟩
    simp only [hempty, if_true, remakeController_of_not_complete s name hc]
  · rfl

theorem MadeOf.concat_of_makes {ccfgs : List ControllerConfig} {cfg : ControllerConfig}
    {m m' : Entities DBusADCSensorController} {name : String}
    {controller : DBusADCSensorController} (h : MadeOf ccfgs m) (hmakes : cfg.Makes name)
    (hname : controller.name = name) (henabled : controller.enabled = true)
    (hm : m' = if cfg.enables then (m.assign name none).assign name (some controller)
      else m.assign name none) : MadeOf (ccfgs ++ [cfg]) m' := by
  intro k
  obtain ⟨hobject, hfilled, hnull⟩ := h k
  have hmem : ∀ o, (k, o) ∈ m'.entries ↔
      k = name ∧ o = (if cfg.enables then some controller else none) ∨
        k ≠ name ∧ (k, o) ∈ m.entries := by
    intro o
    subst hm
    split_ifs
    · simp only [FlatMap.mem_assign, Prod.mk.injEq]
      tauto
    · simp only [FlatMap.mem_assign, Prod.mk.injEq]
      tauto
  unfold ControllerEnabled ControllerFails
  rw [controllerConfig_concat]
  by_cases hk : k = name
  · subst hk
    rw [if_pos hmakes]
    cases henables : cfg.enables with
    | true =>
      simp only [henables, if_true] at hmem
      simp [hmem, hname, henabled, henables]
    | false =>
      simp only [henables, Bool.false_eq_true, if_false] at hmem
      simp [hmem, henables]
  · have hnot : ¬ cfg.Makes k := fun hmakes' =>
      hk (Option.some.inj (hmakes'.2.1.symm.trans hmakes.2.1))
    rw [if_neg hnot]
    simp only [hmem, hk, false_and, ne_eq, not_false_eq_true, true_and, false_or]
    exact ⟨hobject, hfilled, hnull⟩

theorem MadeOf.concat_of_not_makes {ccfgs : List ControllerConfig} {cfg : ControllerConfig}
    {m : Entities DBusADCSensorController} (h : MadeOf ccfgs m) (hnot : ∀ name, ¬ cfg.Makes name) :
    MadeOf (ccfgs ++ [cfg]) m := by
  intro name
  unfold ControllerEnabled ControllerFails
  rw [controllerConfig_concat, if_neg (hnot name)]
  exact h name

/-- The first reply for the controllers makes those of the configurations and leaves everything else
alone. -/
theorem controllersReply_first {s : Daemon} (ccfgs : List ControllerConfig)
    (hempty : s.controllersChanged.isEmpty = true) (hnone : s.controllers = .empty) :
    ∃ m, MadeOf ccfgs m ∧ s.controllersReply ccfgs = { s with controllers := m } := by
  suffices H : ∃ m, MadeOf ccfgs m ∧
      run processController (s, false) ccfgs = ({ s with controllers := m }, false) by
    obtain ⟨m, hm, he⟩ := H
    refine ⟨m, hm, ?_⟩
    unfold controllersReply
    rw [he]
    rfl
  induction ccfgs using List.reverseRecOn with
  | nil => exact ⟨.empty, madeOf_empty, by rw [← hnone]; rfl⟩
  | append_singleton ccfgs cfg ih =>
    obtain ⟨m, hm, he⟩ := ih
    rw [run_concat, he]
    by_cases hmakes : ∃ name, cfg.Makes name
    · obtain ⟨name, hmakes⟩ := hmakes
      obtain ⟨controller, hname, henabled, hround⟩ :=
        processController_of_makes (s := { s with controllers := m }) (b := false) hempty hmakes
      exact ⟨_, hm.concat_of_makes hmakes hname henabled rfl, hround⟩
    · have hnot := not_exists.mp hmakes
      exact ⟨m, hm.concat_of_not_makes hnot, processController_of_not_makes hempty hnot⟩

/-! ### The reply for the sensors -/

/-- The search for the controller `name` comes to no null entry. -/
def SearchDefined (ccfgs : List ControllerConfig) (name : String) : Prop :=
  ∀ k, ControllerFails ccfgs k → ControllerEnabled ccfgs name ∧ name < k

theorem MadeOf.findIf_isSome_iff {ccfgs : List ControllerConfig}
    {m : Entities DBusADCSensorController} (h : MadeOf ccfgs m) (name : String) :
    (findIf (fun c => name == c.name) m.entries).isSome ↔ SearchDefined ccfgs name := by
  rw [DbusAdc.findIf_isSome_iff m.sorted fun k c hmem => ((h k).1 c hmem).1]
  unfold SearchDefined
  simp only [(h _).2.1, (h _).2.2]

variable (escapeName : String → String)

/-- The names of the sensors that exist. -/
def sensorNames (s : Daemon) : Set String :=
  {name | ∃ sensor, (name, some sensor) ∈ s.sensors.entries}

theorem sensorNames_remakeSensor (s : Daemon) (name : String)
    (controller : DBusADCSensorController) (cfg : SensorConfig) :
    (s.remakeSensor escapeName name controller cfg).sensorNames =
      if s.Ready cfg then insert name s.sensorNames else s.sensorNames := by
  split_ifs with hready
  · obtain ⟨sensor, he⟩ := remakeSensor_of_ready escapeName name controller hready
    rw [he]
    ext k
    simp only [sensorNames, Set.mem_ofPred_eq, Set.mem_insert_iff, FlatMap.mem_assign, Prod.mk.injEq]
    by_cases hk : k = name <;> simp [hk]
  · rw [remakeSensor_of_not_ready escapeName name controller hready]

/-- The state in which the loop of `createSensors` runs after the first reply for the
controllers. -/
structure SensorLoop (ccfgs : List ControllerConfig) (cpuPresence : ℕ → Option Bool)
    (s : Daemon) : Prop where
  controllers : MadeOf ccfgs s.controllers
  sensorsChanged : s.sensorsChanged.isEmpty = true
  cpuPresence_eq : s.cpuPresence = cpuPresence

variable {ccfgs : List ControllerConfig} {cpuPresence : ℕ → Option Bool} {s : Daemon}

theorem SensorLoop.remakeSensor (h : SensorLoop ccfgs cpuPresence s) (name : String)
    (controller : DBusADCSensorController) (cfg : SensorConfig) :
    SensorLoop ccfgs cpuPresence (s.remakeSensor escapeName name controller cfg) := by
  obtain ⟨sensors, he⟩ := remakeSensor_frame escapeName s name controller cfg
  rw [he]
  exact ⟨h.controllers, h.sensorsChanged, h.cpuPresence_eq⟩

theorem searches_of_eligible {cfg : SensorConfig} (h : cfg.Eligible cpuPresence ccfgs) :
    SearchesController cfg := by
  obtain ⟨htyped, hname, ⟨name, hcontroller, -⟩, -⟩ := h
  exact ⟨htyped, hname, by rw [Option.mem_def.mp hcontroller]; rfl⟩

theorem processSensor_of_not_searches {cfg : SensorConfig} (hsearch : ¬ SearchesController cfg) :
    s.processSensor escapeName cfg = some s := by
  unfold Daemon.processSensor
  split
  · next name controllerName htyped hname hcontroller =>
    exact absurd ⟨htyped, by simp [hname], by simp [hcontroller]⟩ hsearch
  · rfl

/-- With its controller enabled, a sensor is eligible if it is ready. -/
theorem SensorLoop.eligible_iff_ready (h : SensorLoop ccfgs cpuPresence s) {cfg : SensorConfig}
    {name controllerName : String} {controller : DBusADCSensorController}
    (htyped : cfg.typed = true) (hname : cfg.name = some name)
    (hcontroller : cfg.controllerName = some controllerName)
    (hmem : (controllerName, some controller) ∈ s.controllers.entries) :
    cfg.Eligible cpuPresence ccfgs ↔ s.Ready cfg := by
  have henabled := (h.controllers controllerName).2.1.mp ⟨controller, hmem⟩
  unfold SensorConfig.Eligible Ready
  rw [h.cpuPresence_eq]
  simp [htyped, hname, hcontroller, henabled]

/-! A configuration whose controller is looked for: the search runs off the end, or comes to a null
entry, or to a controller. -/

section Searching

variable {cfg : SensorConfig} {name controllerName : String}

theorem SensorLoop.processSensor_of_none (h : SensorLoop ccfgs cpuPresence s)
    (htyped : cfg.typed = true) (hname : cfg.name = some name)
    (hcontroller : cfg.controllerName = some controllerName)
    (hfound : findIf (fun c => controllerName == c.name) s.controllers.entries = none) :
    s.processSensor escapeName cfg = none ∧ ¬ SearchDefined ccfgs controllerName := by
  refine ⟨by simp [Daemon.processSensor, htyped, hname, hcontroller, hfound], ?_⟩
  rw [← h.controllers.findIf_isSome_iff controllerName, hfound]
  exact Bool.false_ne_true

/-- The entry is null if the controller is not enabled. -/
theorem SensorLoop.processSensor_of_null (h : SensorLoop ccfgs cpuPresence s)
    (htyped : cfg.typed = true) (hname : cfg.name = some name)
    (hcontroller : cfg.controllerName = some controllerName)
    (hfound : findIf (fun c => controllerName == c.name) s.controllers.entries = some none) :
    s.processSensor escapeName cfg = some s ∧ ¬ cfg.Eligible cpuPresence ccfgs := by
  refine ⟨by simp [Daemon.processSensor, htyped, hname, hcontroller, hfound], ?_⟩
  have hentry := findIf_eq s.controllers.sorted
    (fun k c hmem => ((h.controllers k).1 c hmem).1) hfound
  rintro ⟨-, -, ⟨k, hk, henabled⟩, -⟩
  obtain rfl := Option.some.inj (hcontroller.symm.trans hk)
  obtain ⟨c, hc⟩ := (h.controllers controllerName).2.1.mpr henabled
  cases (hentry c).mpr hc

theorem SensorLoop.processSensor_of_controller (h : SensorLoop ccfgs cpuPresence s)
    (htyped : cfg.typed = true) (hname : cfg.name = some name)
    (hcontroller : cfg.controllerName = some controllerName) {controller : DBusADCSensorController}
    (hfound : findIf (fun c => controllerName == c.name) s.controllers.entries =
      some (some controller)) :
    s.processSensor escapeName cfg = some (s.remakeSensor escapeName name controller cfg) ∧
      (cfg.Eligible cpuPresence ccfgs ↔ s.Ready cfg) := by
  have hmem := (findIf_eq s.controllers.sorted
    (fun k c hmem => ((h.controllers k).1 c hmem).1) hfound controller).mp rfl
  have hon := ((h.controllers controllerName).1 controller hmem).2
  refine ⟨?_, h.eligible_iff_ready htyped hname hcontroller hmem⟩
  simp [Daemon.processSensor, htyped, hname, hcontroller, hfound, hon, h.sensorsChanged]

end Searching

/-- A round is undefined if the search comes to a null entry; otherwise it adds the sensor of the
configuration, if that is eligible. -/
theorem SensorLoop.processSensor (h : SensorLoop ccfgs cpuPresence s) (cfg : SensorConfig) :
    match s.processSensor escapeName cfg with
    | none => SearchesController cfg ∧ ∃ name ∈ cfg.controllerName, ¬ SearchDefined ccfgs name
    | some s' => (SearchesController cfg → ∀ name ∈ cfg.controllerName, SearchDefined ccfgs name) ∧
      SensorLoop ccfgs cpuPresence s' ∧ ∀ k, k ∈ s'.sensorNames ↔
        k ∈ s.sensorNames ∨ cfg.name = some k ∧ cfg.Eligible cpuPresence ccfgs := by
  by_cases hsearch : SearchesController cfg
  swap
  · rw [processSensor_of_not_searches escapeName hsearch]
    refine ⟨fun hs => absurd hs hsearch, h, fun k => ?_⟩
    have hnot : ¬ cfg.Eligible cpuPresence ccfgs := fun hel => hsearch (searches_of_eligible hel)
    simp [hnot]
  obtain ⟨htyped, hname, hcontroller⟩ := hsearch
  obtain ⟨name, hname⟩ := Option.isSome_iff_exists.mp hname
  obtain ⟨controllerName, hcontroller⟩ := Option.isSome_iff_exists.mp hcontroller
  cases hfound : findIf (fun c => controllerName == c.name) s.controllers.entries with
  | none =>
    obtain ⟨hundefined, hnot⟩ := h.processSensor_of_none escapeName htyped hname hcontroller hfound
    rw [hundefined]
    exact ⟨⟨htyped, by simp [hname], by simp [hcontroller]⟩, controllerName, hcontroller, hnot⟩
  | some found =>
    have hall : SearchesController cfg → ∀ k ∈ cfg.controllerName, SearchDefined ccfgs k := by
      intro _ k hk
      obtain rfl := Option.some.inj (hcontroller.symm.trans hk)
      rw [← h.controllers.findIf_isSome_iff controllerName, hfound]
      rfl
    cases found with
    | none =>
      obtain ⟨hround, hnot⟩ := h.processSensor_of_null escapeName htyped hname hcontroller hfound
      rw [hround]
      refine ⟨hall, h, fun k => ?_⟩
      simp [hnot]
    | some controller =>
      obtain ⟨hround, hiff⟩ :=
        h.processSensor_of_controller escapeName htyped hname hcontroller hfound
      rw [hround]
      refine ⟨hall, h.remakeSensor escapeName name controller cfg, fun k => ?_⟩
      rw [sensorNames_remakeSensor, hiff, hname, Option.some.injEq]
      by_cases hready : s.Ready cfg
      · rw [if_pos hready, Set.mem_insert_iff]
        simp only [hready, and_true, eq_comm, or_comm]
      · rw [if_neg hready]
        simp [hready]

theorem SensorLoop.exec (h : SensorLoop ccfgs cpuPresence s) (scfgs : List SensorConfig) :
    match exec (Daemon.processSensor escapeName) s scfgs with
    | none => ∃ cfg ∈ scfgs, SearchesController cfg ∧
        ∃ name ∈ cfg.controllerName, ¬ SearchDefined ccfgs name
    | some s' => (∀ cfg ∈ scfgs, SearchesController cfg →
        ∀ name ∈ cfg.controllerName, SearchDefined ccfgs name) ∧
      ∀ k, k ∈ s'.sensorNames ↔ k ∈ s.sensorNames ∨ k ∈ eligibleNames cpuPresence ccfgs scfgs := by
  induction scfgs generalizing s with
  | nil => simp [eligibleNames]
  | cons cfg scfgs ih =>
    have hround := h.processSensor escapeName cfg
    rw [exec_cons]
    cases hs : s.processSensor escapeName cfg with
    | none =>
      rw [hs] at hround
      exact ⟨cfg, List.mem_cons_self, hround⟩
    | some t =>
      rw [hs] at hround
      obtain ⟨hdefined, ht, hnames⟩ := hround
      have hrest := ih ht
      rw [Option.bind_some]
      cases he : Runs.exec (Daemon.processSensor escapeName) t scfgs with
      | none =>
        rw [he] at hrest
        obtain ⟨cfg', hmem, hcfg'⟩ := hrest
        exact ⟨cfg', List.mem_cons_of_mem cfg hmem, hcfg'⟩
      | some s' =>
        rw [he] at hrest
        refine ⟨List.forall_mem_cons.mpr ⟨hdefined, hrest.1⟩, fun k => ?_⟩
        rw [hrest.2 k, hnames k]
        simp only [eligibleNames, Set.mem_ofPred_eq, List.mem_cons, or_and_right, exists_or,
          exists_eq_left, or_assoc]

/-! ### Both orders -/

/-- Whichever reply is handled first, once both are handled the sensors are those of the eligible
configurations. -/
def StartsAlike (cpuPresence : ℕ → Option Bool) (ccfgs : List ControllerConfig)
    (scfgs : List SensorConfig) : Prop :=
  ∀ replies ∈ [[Event.controllersReply ccfgs, .sensorsReply scfgs],
      [.sensorsReply scfgs, .controllersReply ccfgs]],
    ∃ s, Runs.exec (step escapeName) (init cpuPresence) (.posted :: replies) = some s ∧
      s.sensorNames = eligibleNames cpuPresence ccfgs scfgs

/-- No sensor configuration is eligible, and whatever controller is searched for, the search ends
before the entry of a controller that fails to enable itself. -/
def StartCondition (cpuPresence : ℕ → Option Bool) (ccfgs : List ControllerConfig)
    (scfgs : List SensorConfig) : Prop :=
  (∀ cfg ∈ scfgs, ¬ cfg.Eligible cpuPresence ccfgs) ∧
    ∀ cfg ∈ scfgs, SearchesController cfg → ∀ name ∈ cfg.controllerName, SearchDefined ccfgs name

theorem eligibleNames_eq_empty_iff (scfgs : List SensorConfig) :
    eligibleNames cpuPresence ccfgs scfgs = ∅ ↔
      ∀ cfg ∈ scfgs, ¬ cfg.Eligible cpuPresence ccfgs := by
  rw [Set.eq_empty_iff_forall_notMem]
  constructor
  · intro h cfg hmem heligible
    obtain ⟨name, hname⟩ := Option.isSome_iff_exists.mp heligible.2.1
    exact h name ⟨cfg, hmem, hname, heligible⟩
  · rintro h name ⟨cfg, hmem, -, heligible⟩
    exact h cfg hmem heligible

theorem sensorNames_eq_empty (hs : s.sensors = .empty) : s.sensorNames = ∅ := by
  rw [Set.eq_empty_iff_forall_notMem]
  rintro name ⟨sensor, hmem⟩
  rw [hs] at hmem
  exact List.not_mem_nil hmem

/-- The order that the two requests are posted in. -/
theorem exec_controllers_first (cpuPresence : ℕ → Option Bool) (ccfgs : List ControllerConfig)
    (scfgs : List SensorConfig) :
    (∃ s, Runs.exec (step escapeName) (init cpuPresence)
        [.posted, .controllersReply ccfgs, .sensorsReply scfgs] = some s ∧
      s.sensorNames = eligibleNames cpuPresence ccfgs scfgs) ↔
    ∀ cfg ∈ scfgs, SearchesController cfg →
      ∀ name ∈ cfg.controllerName, SearchDefined ccfgs name := by
  let s₀ : Daemon := { (init cpuPresence).createControllers.createSensors with
    posted := true, controllerReplies := 0 }
  obtain ⟨m, hm, hreply⟩ := controllersReply_first (s := s₀) ccfgs rfl rfl
  let s₁ : Daemon := { s₀ with controllers := m, sensorReplies := 0 }
  have hloop : SensorLoop ccfgs cpuPresence s₁ := ⟨hm, rfl, rfl⟩
  have hexec : Runs.exec (step escapeName) (init cpuPresence)
      [.posted, .controllersReply ccfgs, .sensorsReply scfgs] =
      Runs.exec (Daemon.processSensor escapeName) s₁ scfgs := by
    have hfirst : Runs.exec (step escapeName) (init cpuPresence)
        [.posted, .controllersReply ccfgs, .sensorsReply scfgs] =
        Runs.exec (step escapeName) (s₀.controllersReply ccfgs) [.sensorsReply scfgs] := rfl
    rw [hfirst, hreply]
    exact Option.bind_fun_some _
  have hspec := hloop.exec escapeName scfgs
  have hnone : s₁.sensorNames = ∅ := sensorNames_eq_empty rfl
  rw [hexec]
  cases he : Runs.exec (Daemon.processSensor escapeName) s₁ scfgs with
  | none =>
    rw [he] at hspec
    obtain ⟨cfg, hmem, hsearch, name, hname, hnot⟩ := hspec
    simp only [reduceCtorEq, false_and, exists_false, false_iff]
    exact fun h => hnot (h cfg hmem hsearch name hname)
  | some s' =>
    rw [he] at hspec
    refine ⟨fun _ => hspec.1, fun _ => ⟨s', rfl, ?_⟩⟩
    ext k
    rw [hspec.2 k, hnone]
    simp

/-- The other order: every search is in an empty map. -/
theorem exec_sensors_first (cpuPresence : ℕ → Option Bool) (ccfgs : List ControllerConfig)
    (scfgs : List SensorConfig) : ∃ s, Runs.exec (step escapeName) (init cpuPresence)
      [.posted, .sensorsReply scfgs, .controllersReply ccfgs] = some s ∧ s.sensorNames = ∅ := by
  let s₀ : Daemon := { (init cpuPresence).createControllers.createSensors with
    posted := true, sensorReplies := 0 }
  have hskip : Runs.exec (Daemon.processSensor escapeName) s₀ scfgs = some s₀ := by
    induction scfgs with
    | nil => rfl
    | cons cfg scfgs ih =>
      have hround : s₀.processSensor escapeName cfg = some s₀ := by
        unfold Daemon.processSensor
        split
        · rfl
        · rfl
      rw [exec_cons, hround]
      exact ih
  obtain ⟨m, -, hreply⟩ :=
    controllersReply_first (s := { s₀ with controllerReplies := 0 }) ccfgs rfl rfl
  refine ⟨_, ?_,
    sensorNames_eq_empty (s := { s₀ with controllerReplies := 0, controllers := m }) rfl⟩
  have hfirst : Runs.exec (step escapeName) (init cpuPresence)
      [.posted, .sensorsReply scfgs, .controllersReply ccfgs] =
      (Runs.exec (Daemon.processSensor escapeName) s₀ scfgs).bind fun s =>
        Runs.exec (step escapeName) s [.controllersReply ccfgs] := rfl
  rw [hfirst, hskip, ← hreply]
  rfl

/-- The replies commute, and leave the sensors of the eligible configurations, if and only if there
is no such configuration and no search comes to a null entry. -/
theorem startsAlike_iff (cpuPresence : ℕ → Option Bool) (ccfgs : List ControllerConfig)
    (scfgs : List SensorConfig) : StartsAlike escapeName cpuPresence ccfgs scfgs ↔
      StartCondition cpuPresence ccfgs scfgs := by
  have hfirst := exec_controllers_first escapeName cpuPresence ccfgs scfgs
  obtain ⟨s, hs, hempty⟩ := exec_sensors_first escapeName cpuPresence ccfgs scfgs
  unfold StartsAlike StartCondition
  rw [List.forall_mem_cons, List.forall_mem_singleton, hfirst, ← eligibleNames_eq_empty_iff,
    and_comm]
  apply and_congr_left
  intro _
  constructor
  · rintro ⟨s', hs', hnames⟩
    obtain rfl := Option.some.inj (hs.symm.trans hs')
    rw [← hnames, hempty]
  · intro hnames
    exact ⟨s, hs, hempty.trans hnames.symm⟩

/-- One controller that can be enabled and one sensor of it: the reply for the sensors is handled
first. -/
theorem not_startsAlike :
    ¬ StartsAlike escapeSpaces (fun _ => some true) [adcConfig true] [railConfig] := by
  intro h
  obtain ⟨s, hs, hnames⟩ := h _ (List.mem_cons_of_mem _ List.mem_cons_self)
  have heligible : railConfig.Eligible (fun _ => some true) [adcConfig true] :=
    ⟨rfl, rfl, ⟨"ADC", rfl, adcConfig true, by decide +kernel, rfl⟩, by decide, rfl⟩
  have hmem : "P12V rail" ∈ s.sensorNames := by
    rw [hnames]
    exact ⟨railConfig, List.mem_cons_self, rfl, heligible⟩
  have hnone : s.sensorNames = ∅ := by
    apply sensorNames_eq_empty
    obtain rfl := Option.some.inj hs
    rfl
  rw [hnone] at hmem
  exact hmem

end Daemon

end MetaCommon.DbusAdc
