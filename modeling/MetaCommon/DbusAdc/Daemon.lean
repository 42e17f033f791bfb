import Mathlib.Data.String.Basic
import MetaCommon.Lib.FlatMap
import MetaCommon.Lib.Runs

/-!
# The D-Bus ADC daemon

The daemon keeps its controllers and sensors in two maps of shared pointers. `createControllers` and
`createSensors` ask for the configurations and work on the maps when the reply comes; signals and
timers come in between in any order. An entry is null while there is no object for it. A handler
that goes through a null entry has no defined behaviour.
-/

namespace MetaCommon.DbusAdc

structure DBusADCSensorController where
  name : String
  dbusService : String
  dbusObjectPath : String
  dbusIface : String
  vref : String
  resolutionBits : String
  enabled : Bool
deriving DecidableEq

structure DBusADCSensor where
  name : String
  dbusAdcService : String
  dbusAdcObjPath : String
  dbusAdcIface : String
  dbusAdcProperty : String
  vref : String
  resolutionBits : String
deriving DecidableEq

/-- An object among the configurations of the controllers: whether it has an interface of one of the
types, its properties, as texts, and whether the controller that is made of it can be enabled. -/
structure ControllerConfig where
  typed : Bool
  name : Option String
  dbusService : Option String
  dbusPath : Option String
  dbusIface : Option String
  vref : Option String
  resolutionBits : Option String
  enables : Bool
deriving DecidableEq

structure SensorConfig where
  typed : Bool
  name : Option String
  controllerName : Option String
  cpuRequired : Option ℕ
  dbusProperty : Option String
deriving DecidableEq

/-- A map of shared pointers, with `none` for the null pointer. -/
abbrev Entities (α : Type) := FlatMap String (Option α)

/-- The paths for which a change has been signalled. -/
abbrev EntitiesChanged := FlatMap String Unit

/-- The two maps, the changes signalled and `cpuPresence`; the replies that `createControllers` and
`createSensors` wait for and the waits of the three timers; whether the function posted at the start
has run and whether the daemon has been stopped. -/
structure Daemon where
  controllers : Entities DBusADCSensorController
  sensors : Entities DBusADCSensor
  controllersChanged : EntitiesChanged
  sensorsChanged : EntitiesChanged
  cpuPresence : ℕ → Option Bool
  controllerReplies : ℕ
  sensorReplies : ℕ
  controllerWaits : ℕ
  sensorWaits : ℕ
  cpuWaits : ℕ
  posted : Bool
  stopped : Bool

def endsWith (path name : String) : Bool := name.toList.isSuffixOf path.toList

/-- `entityChanged`: whether the entity is among the changed ones; if so its pointer is set to null
and the change is taken off the list. -/
def entityChanged {α : Type} (nameOf : α → String) (name : String) (entities : Entities α)
    (entitiesChanged : EntitiesChanged) : Bool × Entities α × EntitiesChanged :=
  match entities.lookup name with
  | some (some entity) =>
    match entitiesChanged.keys.find? fun path => endsWith path (nameOf entity) with
    | some path => (true, entities.assign name none, entitiesChanged.erase path)
    | none => (false, entities, entitiesChanged)
  | _ => (false, entities, entitiesChanged)

/-- `std::find_if` over the entities with a property of the object behind the pointer. Undefined
where it comes to a null pointer. -/
def findIf {α : Type} (p : α → Bool) : List (String × Option α) → Option (Option α)
  | [] => some none
  | (_, none) :: _ => none
  | (_, some entity) :: es => if p entity then some (some entity) else findIf p es

namespace Daemon

def init (cpuPresence : ℕ → Option Bool) : Daemon where
  controllers := .empty
  sensors := .empty
  controllersChanged := .empty
  sensorsChanged := .empty
  cpuPresence := cpuPresence
  controllerReplies := 0
  sensorReplies := 0
  controllerWaits := 0
  sensorWaits := 0
  cpuWaits := 0
  posted := false
  stopped := false

def createControllers (s : Daemon) : Daemon :=
  { s with controllerReplies := s.controllerReplies + 1 }

def createSensors (s : Daemon) : Daemon := { s with sensorReplies := s.sensorReplies + 1 }

/-- What `createControllers` does for a controller once it is to be made again. -/
def remakeController (s : Daemon) (name : String) (cfg : ControllerConfig) : Daemon :=
  match cfg.dbusService, cfg.dbusPath, cfg.dbusIface, cfg.vref, cfg.resolutionBits with
  | some dbusService, some dbusPath, some dbusIface, some vref, some resolutionBits =>
    let controllers := s.controllers.assign name none
    { s with
      controllers :=
        if cfg.enables then
          controllers.assign name
            (some ⟨name, dbusService, dbusPath, dbusIface, vref, resolutionBits, true⟩)
        else controllers }
  | _, _, _, _, _ => s

/-- One round of the loop of `createControllers`, with `anyControllerChanged`. -/
def processController (r : Daemon × Bool) (cfg : ControllerConfig) : Daemon × Bool :=
  let s := r.1
  match cfg.typed, cfg.name with
  | true, some name =>
    if s.controllersChanged.isEmpty then (s.remakeController name cfg, r.2)
    else
      let c := entityChanged DBusADCSensorController.name name s.controllers s.controllersChanged
      if c.1 then
        (({ s with controllers := c.2.1, controllersChanged := c.2.2 }).remakeController name cfg,
          true)
      else r
  | _, _ => r

def controllersReply (s : Daemon) (cfgs : List ControllerConfig) : Daemon :=
  let r := Runs.run processController (s, false) cfgs
  if r.2 then { r.1 with sensorsChanged := .empty, sensors := .empty }.createSensors else r.1

variable (escapeName : String → String)

/-- What `createSensors` does for a sensor once it is to be made again; the name of the object is
the escaped one. -/
def remakeSensor (s : Daemon) (name : String) (controller : DBusADCSensorController)
    (cfg : SensorConfig) : Daemon :=
  if ∀ cpuIdx ∈ cfg.cpuRequired, s.cpuPresence cpuIdx = some true then
    match cfg.dbusProperty with
    | some dbusPropName =>
      { s with
        sensors := (s.sensors.assign name none).assign name
          (some ⟨escapeName name, controller.dbusService, controller.dbusObjectPath,
            controller.dbusIface, dbusPropName, controller.vref, controller.resolutionBits⟩) }
    | none => s
  else s

/-- One round of the loop of `createSensors`. -/
def processSensor (s : Daemon) (cfg : SensorConfig) : Option Daemon :=
  match cfg.typed, cfg.name, cfg.controllerName with
  | true, some name, some controllerName =>
    (findIf (fun c => controllerName == c.name) s.controllers.entries).map fun found =>
      match found with
      | none => s
      | some controller =>
        if !controller.enabled then s
        else if s.sensorsChanged.isEmpty then s.remakeSensor escapeName name controller cfg
        else
          let c := entityChanged DBusADCSensor.name name s.sensors s.sensorsChanged
          if c.1 then
            ({ s with sensors := c.2.1, sensorsChanged := c.2.2 }).remakeSensor escapeName name
              controller cfg
          else s
  | _, _, _ => some s

/-- `sensorEventHandler`. -/
def sensorEventHandler (s : Daemon) (path : String) : Option Daemon :=
  (findIf (fun sensor => endsWith path sensor.name) s.sensors.entries).map fun found => { s with
    sensorsChanged := if found.isSome then s.sensorsChanged.assign path () else s.sensorsChanged
    sensorWaits := s.sensorWaits + 1 }

/-- `controllerEventHandler`. -/
def controllerEventHandler (s : Daemon) (path : String) : Option Daemon :=
  (findIf (fun controller => endsWith path controller.name) s.controllers.entries).map fun found =>
    { s with
      controllersChanged :=
        if found.isSome then s.controllersChanged.assign path () else s.controllersChanged
      controllerWaits := s.controllerWaits + 1 }

/-- `cpuPresenceHandler`, with the index that the path has and the value of `Present`, if the
message has them. -/
def cpuPresenceHandler (s : Daemon) (index : Option ℕ) (present : Option Bool) : Daemon :=
  match index, present with
  | some index, some present => { s with
      cpuPresence := Function.update s.cpuPresence index (some present)
      cpuWaits := s.cpuWaits + 1 }
  | _, _ => s

/-- The handler of the termination signals disables every controller. -/
def signalHandler (s : Daemon) : Option Daemon :=
  if ∀ e ∈ s.controllers.entries, e.2.isSome then some { s with stopped := true } else none

end Daemon

/-- A timer event says whether the wait was not aborted, a message whether it is an error. -/
inductive Event
  | posted
  | controllersReply (cfgs : List ControllerConfig)
  | sensorsReply (cfgs : List SensorConfig)
  | sensorEvent (isMethodError : Bool) (path : String)
  | controllerEvent (isMethodError : Bool) (path : String)
  | cpuPresence (index : Option ℕ) (present : Option Bool)
  | sensorTimer (expired : Bool)
  | controllerTimer (expired : Bool)
  | cpuTimer (expired : Bool)
  | signal
deriving DecidableEq

namespace Daemon

variable (escapeName : String → String)

/-- The handler that an event calls; `none` where it goes through a null pointer. -/
def handle (s : Daemon) : Event → Option Daemon
  | .posted => some { s with posted := true }.createControllers.createSensors
  | .controllersReply cfgs =>
    some ({ s with controllerReplies := s.controllerReplies - 1 }.controllersReply cfgs)
  | .sensorsReply cfgs =>
    Runs.exec (processSensor escapeName) { s with sensorReplies := s.sensorReplies - 1 } cfgs
  | .sensorEvent isMethodError path => if isMethodError then some s else s.sensorEventHandler path
  | .controllerEvent isMethodError path =>
    if isMethodError then some s else s.controllerEventHandler path
  | .cpuPresence index present => some (s.cpuPresenceHandler index present)
  | .sensorTimer expired =>
    let s := { s with sensorWaits := s.sensorWaits - 1 }
    some (if expired then s.createSensors else s)
  | .controllerTimer expired =>
    let s := { s with controllerWaits := s.controllerWaits - 1 }
    some (if expired then s.createControllers else s)
  | .cpuTimer expired =>
    let s := { s with cpuWaits := s.cpuWaits - 1 }
    some (if expired then s.createSensors else s)
  | .signal => s.signalHandler

/-- What the event comes from is pending. -/
def Possible (s : Daemon) (e : Event) : Prop :=
  s.stopped = false ∧
    match e with
    | .posted => s.posted = false
    | .controllersReply _ => 0 < s.controllerReplies
    | .sensorsReply _ => 0 < s.sensorReplies
    | .sensorTimer _ => 0 < s.sensorWaits
    | .controllerTimer _ => 0 < s.controllerWaits
    | .cpuTimer _ => 0 < s.cpuWaits
    | _ => True

instance (s : Daemon) : DecidablePred s.Possible := fun e =>
  match e with
  | .posted => inferInstanceAs (Decidable (_ ∧ s.posted = false))
  | .controllersReply _ => inferInstanceAs (Decidable (_ ∧ 0 < s.controllerReplies))
  | .sensorsReply _ => inferInstanceAs (Decidable (_ ∧ 0 < s.sensorReplies))
  | .sensorTimer _ => inferInstanceAs (Decidable (_ ∧ 0 < s.sensorWaits))
  | .controllerTimer _ => inferInstanceAs (Decidable (_ ∧ 0 < s.controllerWaits))
  | .cpuTimer _ => inferInstanceAs (Decidable (_ ∧ 0 < s.cpuWaits))
  | .sensorEvent _ _ => inferInstanceAs (Decidable (_ ∧ True))
  | .controllerEvent _ _ => inferInstanceAs (Decidable (_ ∧ True))
  | .cpuPresence _ _ => inferInstanceAs (Decidable (_ ∧ True))
  | .signal => inferInstanceAs (Decidable (_ ∧ True))

def step (s : Daemon) (e : Event) : Option Daemon :=
  if s.Possible e then s.handle escapeName e else none

end Daemon

end MetaCommon.DbusAdc
