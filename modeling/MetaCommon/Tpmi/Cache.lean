import Mathlib.Data.Int.Notation
import Mathlib.Data.List.Basic
import MetaCommon.Lib.NodeMap

/-!
# The TPMI D-Bus cache

`TPMIDBusCache` keeps the CPU and SST feature records that the TPMI service publishes. Signals and
the answers to its own property reads add and remove records; a feature that is not set up for the
BMC is written to, and the answer to the write updates the record. Beside what the source keeps,
a property write in flight remembers which record it was sent for and whether that record has been
erased since.
-/

namespace MetaCommon.Tpmi

/-- `TPMIDBusCache::CPU`, the cache of the `com.intel.TPMI` interface. -/
structure CPU where
  address : UInt8
  segment : UInt8
  bus : UInt8
  device : UInt8
  function : UInt8
  bar : UInt8
deriving DecidableEq, Repr

/-- `TPMIDBusCache::Feature`, the cache of the `com.intel.TPMI.Feature` interface. -/
structure Feature where
  offset : UInt32
  instances : UInt32
  size : UInt32
  enabled : Bool
  inBandWrite : Bool
  inBandRead : Bool
  usePCS : Bool
  locked : Bool
deriving DecidableEq, Repr

inductive PropertyValue
  | monostate
  | uint8 (v : UInt8)
  | uint32 (v : UInt32)
  | bool (v : Bool)
deriving DecidableEq, Repr

abbrev Properties := List (String × PropertyValue)

namespace Properties

variable (properties : Properties) (name : String)

def uint8 : Option UInt8 :=
  match properties.lookup name with
  | some (.uint8 v) => some v
  | _ => none

def uint32 : Option UInt32 :=
  match properties.lookup name with
  | some (.uint32 v) => some v
  | _ => none

def bool : Option Bool :=
  match properties.lookup name with
  | some (.bool v) => some v
  | _ => none

/-- `unpackProperties` in `addCPU`: it throws if a property is missing or of another type. -/
def unpackCPU : Option CPU := do
  return {
    address := ← properties.uint8 "Address"
    segment := ← properties.uint8 "Segment"
    bus := ← properties.uint8 "Bus"
    device := ← properties.uint8 "Device"
    function := ← properties.uint8 "Function"
    bar := ← properties.uint8 "BARIndex" }

def unpackFeature : Option Feature := do
  return {
    offset := ← properties.uint32 "Offset"
    instances := ← properties.uint32 "Instances"
    size := ← properties.uint32 "Size"
    enabled := ← properties.bool "Enabled"
    inBandRead := ← properties.bool "InBandReadAllowed"
    inBandWrite := ← properties.bool "InBandWriteAllowed"
    usePCS := ← properties.bool "UsePCS"
    locked := ← properties.bool "Locked" }

end Properties

/-! ### Object paths -/

/-- What `decodePath` reads of an object path: `path.filename()` and
`path.parent_path().filename()`. -/
structure ObjectPath where
  filename : List Char
  parentFilename : List Char
deriving DecidableEq

inductive StoiException
  | invalidArgument
  | outOfRange

def isSpace (c : Char) : Bool := c ∈ [' ', '\t', '\n', '\x0b', '\x0c', '\r']

/-- `std::stoi(s, &pos)`: the number and how many characters were read. -/
def stoi (s : List Char) : Except StoiException (ℤ × ℕ) :=
  let body := s.dropWhile isSpace
  let unsigned := match body with
    | '-' :: rest => rest
    | '+' :: rest => rest
    | _ => body
  let digits := unsigned.takeWhile Char.isDigit
  let magnitude : ℤ := digits.foldl (fun n c => 10 * n + (c.toNat - '0'.toNat : ℕ)) 0
  let value := if body.head? = some '-' then -magnitude else magnitude
  if digits = [] then .error .invalidArgument
  else if value < -2147483648 ∨ 2147483647 < value then .error .outOfRange
  else .ok (value, s.length - (unsigned.length - digits.length))

structure PathComponents where
  cpuIndex : ℤ
  featureID : ℤ
deriving DecidableEq

def invalidPathComponent : ℤ := -1

def sstTPMIID : ℤ := 5

/-- The last part of `decodePath`, for a `name` that should be "cpuX". -/
def decodeCPUName (featureID : ℤ) (name : List Char) :
    Except StoiException (Option PathComponents) :=
  if "cpu".toList.isPrefixOf name then
    match stoi (name.drop 3) with
    | .error .invalidArgument => .ok none
    | .error .outOfRange => .error .outOfRange
    | .ok (cpuIndex, pos) =>
      if cpuIndex < 0 ∨ pos ≠ (name.drop 3).length then .ok none
      else .ok (some ⟨cpuIndex, featureID⟩)
  else .ok none

/-- `decodePath` catches `invalid_argument` only: a number outside `int` leaves it as an
exception. -/
def decodePath (path : ObjectPath) : Except StoiException (Option PathComponents) :=
  if "cpu".toList.isPrefixOf path.filename then
    decodeCPUName invalidPathComponent path.filename
  else
    match stoi path.filename with
    | .error .invalidArgument => .ok none
    | .error .outOfRange => .error .outOfRange
    | .ok (featureID, pos) =>
      if featureID < 0 ∨ 255 < featureID ∨ pos ≠ path.filename.length then .ok none
      else decodeCPUName featureID path.parentFilename

/-- The path is of a CPU or of the SST feature of one. -/
def PathComponents.Relevant (object : PathComponents) : Prop :=
  object.featureID = invalidPathComponent ∨ object.featureID = sstTPMIID

instance (object : PathComponents) : Decidable object.Relevant :=
  inferInstanceAs (Decidable (_ ∨ _))

/-! ### The cache -/

inductive MutableFeatureProperty
  | enabled
  | inBandWrite
  | inBandRead
  | usePCS
  | locked
deriving DecidableEq, Repr

/-- A property write whose completion handler has not run yet. -/
structure PropertyWrite where
  index : ℤ
  property : MutableFeatureProperty
  value : Bool
  /-- The record the write was sent for. -/
  node : ℕ
  /-- The record of `index` has been erased since the write was sent. -/
  erased : Bool
deriving DecidableEq

/-- A call of `getAllProperties` whose handler has not run yet. -/
structure PropertyRead where
  isCPUInterface : Bool
  cpuIndex : ℤ
deriving DecidableEq

structure TPMIDBusCache where
  cpus : NodeMap ℤ CPU
  features : NodeMap ℤ Feature
  reads : List PropertyRead
  writes : List PropertyWrite

namespace TPMIDBusCache

def init : TPMIDBusCache where
  cpus := .empty
  features := .empty
  reads := []
  writes := []

variable (c : TPMIDBusCache)

def Contains (index : ℤ) : Prop := c.cpus.Contains index ∧ c.features.Contains index

instance (index : ℤ) : Decidable (c.Contains index) := inferInstanceAs (Decidable (_ ∧ _))

def setProperty (index : ℤ) (property : MutableFeatureProperty) (value : Bool) :
    TPMIDBusCache :=
  { c with writes := c.writes ++ [⟨index, property, value, c.features.idFor index, false⟩] }

def removeCPU (index : ℤ) : TPMIDBusCache :=
  { c with cpus := c.cpus.erase index }

def removeFeature (index : ℤ) : TPMIDBusCache :=
  { c with
    features := c.features.erase index
    writes := c.writes.map fun w => if w.index = index then { w with erased := true } else w }

def addCPU (index : ℤ) (properties : Properties) : TPMIDBusCache :=
  match properties.unpackCPU with
  | none => c.removeCPU index
  | some cpu => { c with cpus := c.cpus.assign index cpu }

def addSSTFeature (index : ℤ) (properties : Properties) : TPMIDBusCache :=
  match properties.unpackFeature with
  | none => c.removeFeature index
  | some feature =>
    -- "SST locked and disabled - can't use it"
    if !feature.enabled && feature.locked then c.removeFeature index
    else
      let c := if !feature.enabled then c.setProperty index .enabled true else c
      -- "SST locked and usePCS - can't use it"
      if feature.usePCS && feature.locked then c.removeFeature index
      else
        let c := if feature.usePCS then c.setProperty index .usePCS false else c
        { c with features := c.features.assign index feature }

end TPMIDBusCache

def Feature.set (feature : Feature) (value : Bool) : MutableFeatureProperty → Feature
  | .enabled => { feature with enabled := value }
  | .inBandWrite => { feature with inBandWrite := value }
  | .inBandRead => { feature with inBandRead := value }
  | .usePCS => { feature with usePCS := value }
  | .locked => { feature with locked := value }

/-- The members of `ObjectManager` that `handleTPMISignal` tells apart, with what it reads of the
message. -/
inductive Signal
  | interfacesAdded (interfacesAndProperties : List (String × Properties))
  | interfacesRemoved (interfaces : List String)
  | other

namespace TPMIDBusCache

def interfaceAdded (cpuIndex : ℤ) (c : TPMIDBusCache) (i : String × Properties) : TPMIDBusCache :=
  if i.1 = "com.intel.TPMI" then c.addCPU cpuIndex i.2
  else if i.1 = "com.intel.TPMI.Feature" then c.addSSTFeature cpuIndex i.2
  else c

def interfaceRemoved (cpuIndex : ℤ) (c : TPMIDBusCache) (i : String) : TPMIDBusCache :=
  if i = "com.intel.TPMI" then c.removeCPU cpuIndex
  else if i = "com.intel.TPMI.Feature" then c.removeFeature cpuIndex
  else c

def applySignal (c : TPMIDBusCache) (cpuIndex : ℤ) : Signal → TPMIDBusCache
  | .interfacesAdded is => is.foldl (interfaceAdded cpuIndex) c
  | .interfacesRemoved is => is.foldl (interfaceRemoved cpuIndex) c
  | .other => c

variable (c : TPMIDBusCache)

/-- Undefined where an exception leaves the handler. -/
def handleTPMISignal (path : ObjectPath) (signal : Signal) : Option TPMIDBusCache :=
  match decodePath path with
  | .error _ => none
  | .ok none => some c
  | .ok (some object) =>
    if object.Relevant then some (c.applySignal object.cpuIndex signal) else some c

/-- The reads that `handleGetTPMISubTree` sends for the interfaces of one path. -/
def subTreeReads (object : PathComponents) (interfaces : List String) : List PropertyRead :=
  interfaces.filterMap fun interface =>
    if interface = "com.intel.TPMI" then some ⟨true, object.cpuIndex⟩
    else if interface = "com.intel.TPMI.Feature" then some ⟨false, object.cpuIndex⟩
    else none

/-- `handleGetTPMISubTree` on the paths of the answer, each with the interfaces of its services. -/
def handleGetTPMISubTree (c : TPMIDBusCache) :
    List (ObjectPath × List String) → Option TPMIDBusCache
  | [] => some c
  | (path, interfaces) :: rest =>
    match decodePath path with
    | .error _ => none
    | .ok none => c.handleGetTPMISubTree rest
    | .ok (some object) =>
      if object.Relevant then
        { c with reads := c.reads ++ subTreeReads object interfaces }.handleGetTPMISubTree rest
      else c.handleGetTPMISubTree rest

/-- The handler of `getAllProperties`; `none` is an error. -/
def handleProperties (read : PropertyRead) (reply : Option Properties) : TPMIDBusCache :=
  match reply with
  | none => c
  | some properties =>
    if read.isCPUInterface then c.addCPU read.cpuIndex properties
    else c.addSSTFeature read.cpuIndex properties

/-- The completion handler of `setProperty`; `features.at` throws for an absent entry. -/
def propertyWritten (w : PropertyWrite) (ok : Bool) : Option TPMIDBusCache :=
  if !ok then some c
  else if c.features.Contains w.index then
    some { c with features := c.features.modify w.index fun f => f.set w.value w.property }
  else none

end TPMIDBusCache

end MetaCommon.Tpmi
