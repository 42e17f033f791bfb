import Mathlib.Data.List.Nodup
import Mathlib.Data.List.Perm.Basic
import Mathlib.Tactic.Common

/-!
# Fans of the thermal subsystem

The collection lists the sensors under `fan_pwm` by the last elements of their paths, and the
redundancy those under `fan_tach`. A single fan is looked for by the last element among the sensors
of every kind, and each of them that has it is read, once for every service.
-/

namespace MetaCommon.ThermalSubsystem

/-- The elements of a path. -/
abbrev ObjectPath := List String

/-- The segments of a URL. -/
abbrev Url := List String

inductive Message
  | internalError
  | resourceNotFound (type name : String)
  deriving DecidableEq

inductive ErrorCode
  | io_error
  | other
  deriving DecidableEq

def sensorsPath : ObjectPath := ["xyz", "openbmc_project", "sensors"]

def fanPwmPath : ObjectPath := sensorsPath ++ ["fan_pwm"]

def fanTachPath : ObjectPath := sensorsPath ++ ["fan_tach"]

def valueIntf : String := "xyz.openbmc_project.Sensor.Value"

def availabilityIntf : String := "xyz.openbmc_project.State.Decorator.Availability"

def operationalStatusIntf : String := "xyz.openbmc_project.State.Decorator.OperationalStatus"

/-- The functions that are called: the file name of an object path, and the order in which
`AlphanumLess` sorts. -/
structure Platform where
  filename : ObjectPath → String
  sort : List String → List String
  sort_perm : ∀ names, (sort names).Perm names

/-- Each service with the interfaces that it has at an object. -/
abbrev ServiceMap := List (String × List String)

namespace Platform

variable (P : Platform) (chassisId : String)

def fansUrl : Url := ["redfish", "v1", "Chassis", chassisId, "ThermalSubsystem", "Fans"]

def fanUrl (leaf : String) : Url := fansUrl chassisId ++ [leaf]

/-! ### The collection -/

structure Collection where
  members : List Url
  count : ℕ

/-- The file names of the objects, but for those that have none. -/
def pathNames (objects : List ObjectPath) : List String :=
  (objects.map P.filename).filter (· ≠ "")

def doFanCollection (validChassisPath : Option String)
    (objects : Except ErrorCode (List ObjectPath)) : Except Message Collection :=
  match validChassisPath with
  | none => .error (.resourceNotFound "Chassis" chassisId)
  | some _ =>
    match objects with
    | .error ec => if ec = .io_error then .ok ⟨[], 0⟩ else .error .internalError
    | .ok objects =>
      let members := (P.sort (P.pathNames objects)).map (fanUrl chassisId)
      .ok ⟨members, members.length⟩

/-! ### One fan -/

def checkFanId (fanPath : ObjectPath) (fanId : String) : Bool :=
  let fanName := P.filename fanPath
  !(fanName = "" || fanName ≠ fanId)

/-- What `getValidfanId` calls back for. -/
structure Match where
  service : String
  path : ObjectPath
  interfaces : List String

def getValidfanId (fanId : String) (subtree : List (ObjectPath × ServiceMap)) : List Match :=
  subtree.flatMap fun (fanPath, serviceMap) =>
    (serviceMap.filter fun _ => P.checkFanId fanPath fanId).map fun (service, interfaces) =>
      ⟨service, fanPath, interfaces⟩

/-- A property of a service's object is read. -/
structure Read where
  service : String
  path : ObjectPath
  intf : String
  deriving DecidableEq

structure Fan where
  id : String
  odataId : Url
  dataSourceUri : Url
  reading : Option UInt64
  state : String
  health : String
  messages : List Message
  deriving DecidableEq

def newFan (fanId : String) : Fan where
  id := fanId
  odataId := fanUrl chassisId fanId
  dataSourceUri := ["redfish", "v1", "Chassis", chassisId, "Sensors", "fanpwm_" ++ fanId]
  reading := none
  state := "Enabled"
  health := "OK"
  messages := []

/-- The loop of the callback over the interfaces. -/
def Match.reads (m : Match) : List Read :=
  (m.interfaces.filter fun intf =>
    intf = valueIntf ∨ intf = availabilityIntf ∨ intf = operationalStatusIntf).map
      fun intf => ⟨m.service, m.path, intf⟩

/-- The fan before its properties have been read, and the reads. -/
def doFanGet (validChassisPath : Option String) (fanId : String)
    (subtree : Except ErrorCode (List (ObjectPath × ServiceMap))) :
    Except Message (Fan × List Read) :=
  match validChassisPath with
  | none => .error (.resourceNotFound "Chassis" chassisId)
  | some _ =>
    match subtree with
    | .error _ => .error .internalError
    | .ok subtree =>
      let found := P.getValidfanId fanId subtree
      if found.isEmpty then .error (.resourceNotFound "fan" fanId)
      else .ok (newFan chassisId fanId, found.flatMap Match.reads)

/-- A double, by its bits, or another value. -/
inductive Variant
  | double (bits : UInt64)
  | other

def Fan.fail (fan : Fan) : Fan := { fan with messages := .internalError :: fan.messages }

/-- The loop over the properties; one that is no double ends it. -/
def readProperties (fan : Fan) : List (String × Variant) → Fan
  | [] => fan
  | (name, value) :: rest =>
    if name = "Value" then
      match value with
      | .double bits => readProperties { fan with reading := some bits } rest
      | .other => fan.fail
    else readProperties fan rest

def getFanValue (fan : Fan) : Option (List (String × Variant)) → Fan
  | none => fan.fail
  | some propertiesList => readProperties fan propertiesList

def getFanState (fan : Fan) : Option Bool → Fan
  | none => fan.fail
  | some value => { fan with state := if value then "Enabled" else "Absent" }

def getFanHealth (fan : Fan) : Option Bool → Fan
  | none => fan.fail
  | some value => { fan with health := if value then "OK" else "Critical" }

/-! ### The redundancy -/

/-- The members of the only group, if there is one. -/
def getFanRedundancy (subtree : Except ErrorCode (List (ObjectPath × ServiceMap))) :
    Except Message (Option (List Url)) :=
  match subtree with
  | .error _ => .error .internalError
  | .ok subtree =>
    let names := subtree.flatMap fun (fanPath, serviceMap) =>
      (serviceMap.filter fun (service, interfacesList) =>
        service = "xyz.openbmc_project.FanSensor" ∧ interfacesList ≠ [] ∧
          P.filename fanPath ≠ "").map fun _ => P.filename fanPath
    if names.isEmpty then .ok none
    else .ok (some ((P.sort names).map (fanUrl chassisId)))

end Platform

/-! ### What is on the bus -/

structure SensorObject where
  path : ObjectPath
  services : ServiceMap
  deriving DecidableEq

/-- The objects for which the mapper has the interface of a sensor. -/
structure Sensors where
  objects : List SensorObject
  paths : (objects.map SensorObject.path).Nodup
  services : ∀ o ∈ objects, (o.services.map Prod.fst).Nodup
  hosted : ∀ o ∈ objects, o.services ≠ []
  hasValue : ∀ o ∈ objects, ∀ s ∈ o.services, valueIntf ∈ s.2

/-- What the services answer for the properties that are read, where nothing fails. -/
structure Readings where
  value : String → ObjectPath → UInt64
  otherProperties : String → ObjectPath → List (String × Platform.Variant)
  otherProperties_ne : ∀ service path, ∀ p ∈ otherProperties service path, p.1 ≠ "Value"
  available : String → ObjectPath → Bool
  functional : String → ObjectPath → Bool

def Below (root path : ObjectPath) : Prop := root <+: path ∧ path ≠ root

instance (root path : ObjectPath) : Decidable (Below root path) :=
  inferInstanceAs (Decidable (root <+: path ∧ path ≠ root))

namespace Sensors

variable (s : Sensors)

def below (root : ObjectPath) : List SensorObject := s.objects.filter fun o => Below root o.path

def getSubTree (root : ObjectPath) : List (ObjectPath × ServiceMap) :=
  (s.below root).map fun o => (o.path, o.services)

def getSubTreePaths (root : ObjectPath) : List ObjectPath :=
  (s.below root).map SensorObject.path

end Sensors

namespace Platform

/-- The answer to one of the reads. -/
def answer (b : Readings) (fan : Fan) (r : Read) : Fan :=
  if r.intf = valueIntf then
    getFanValue fan (some (("Value", .double (b.value r.service r.path)) ::
      b.otherProperties r.service r.path))
  else if r.intf = availabilityIntf then getFanState fan (some (b.available r.service r.path))
  else getFanHealth fan (some (b.functional r.service r.path))

/-- The response when the answers have arrived in some order. -/
def answered (b : Readings) (fan : Fan) (arrived : List Read) : Fan :=
  arrived.foldl (answer b) fan

end Platform

end MetaCommon.ThermalSubsystem
