import MetaCommon.NodeManager.ByMember

/-!
# PATCH of power controls

A PATCH changes the limits of one power control, or of those at the first places of the array. The
members of the body are read and written one after the other. `json_util::readJson` is upstream; a
reader of it answers `none` if it has put an error into the response. Each write to the node manager
is answered later, and one that set a limit is followed by enabling the policy.
-/

namespace MetaCommon.NodeManager

inductive Json
  | null
  | scalar (text : String)
  | array (values : List Json)
  | object (members : List (String × Json))

namespace Json

def member? (json : Json) (key : String) : Option Json :=
  match json with
  | object members => (members.find? fun m => m.1 = key).map Prod.snd
  | _ => none

/-- `json.contains(key) && json[key].is_null()`. -/
def hasNull (json : Json) (key : String) : Bool :=
  match json.member? key with
  | some null => true
  | _ => false

def erase (json : Json) (key : String) : Json :=
  match json with
  | object members => object (members.filter fun m => m.1 ≠ key)
  | json => json

def empty : Json → Bool
  | null => true
  | scalar _ => false
  | array values => values.isEmpty
  | object members => members.isEmpty

end Json

structure PowerLimit where
  limitInWatts : Option (BitVec 16)
  limitException : Option String
  correctionInMs : Option (BitVec 32)

/-- The calls of `json_util`, by what they read. `leftOpenBmc` is what the reading of "OpenBmc",
which may move the value out, leaves of its object. -/
structure JsonUtil where
  readPowerLimit : Json → Option PowerLimit
  readPowerLimitStorage : Json → Option (Option String)
  readOpenBmc : Json → Option (Option Json)
  leftOpenBmc : Json → Json
  readMember : Json → Option (Option Json × Option Json)
  readMemberAction : String → Option (Option Json × Option Json)
  readCollectionAction : String → Option (Option (List Json))

inductive Message
  | invalidJson
  | propertyValueIncorrect (name value : String)
  | resourceNotFound (type name : String)
  | internalError
deriving DecidableEq

/-- A call that changes something of the node manager. `enable` comes after a property that was set,
and reports its failure under the name and value of that. -/
inductive Write
  | update (domain policy : String) (deviceIndex : DeviceIndex)
  | disable (domain policy : String)
  | setLimit (domain policy : String) (limit : BitVec 16)
  | setLimitException (domain policy : String) (limitException : ℤ)
  | setCorrectionInMs (domain policy : String) (correctionInMs : BitVec 32)
  | setPolicyStorage (domain policy : String) (powerLimitStorage : ℤ)
  | enable (domain policy name value : String)
deriving DecidableEq

/-- The messages in the response and the writes, in order. -/
structure Exchange where
  messages : List Message
  writes : List Write

namespace Exchange

def start : Exchange := ⟨[], []⟩

def message (s : Exchange) (m : Message) : Exchange := { s with messages := s.messages ++ [m] }

def write (s : Exchange) (w : Write) : Exchange := { s with writes := s.writes ++ [w] }

/-- A write is answered. -/
structure Reply where
  write : ℕ
  ok : Bool

/-- What follows a property that was set: the policy is enabled, or the failure is reported. -/
def afterSet (s : Exchange) (domain policy name value : String) (ok : Bool) : Exchange :=
  if ok then s.write (.enable domain policy name value)
  else s.message (.propertyValueIncorrect name value)

def reply (s : Exchange) (a : Reply) : Exchange :=
  match s.writes[a.write]? with
  | some (.setLimit domain policy limit) =>
    s.afterSet domain policy "LimitInWatts" (Nat.repr limit.toNat) a.ok
  | some (.setLimitException domain policy limitException) =>
    s.afterSet domain policy "LimitException" (Int.repr limitException) a.ok
  | some (.setCorrectionInMs domain policy correctionInMs) =>
    s.afterSet domain policy "CorrectionInMs" (Nat.repr correctionInMs.toNat) a.ok
  | some (.setPolicyStorage _ _ powerLimitStorage) =>
    if a.ok then s
    else s.message (.propertyValueIncorrect "PowerLimitStorage" (Int.repr powerLimitStorage))
  | some (.enable _ _ name value) =>
    if a.ok then s else s.message (.propertyValueIncorrect name value)
  | _ => s

end Exchange

/-! ### The members of a power control -/

def limitExceptionMapping : List (String × ℤ) :=
  [("NoAction", 0), ("HardPowerOff", 1), ("LogEventOnly", 2), ("Oem", 3)]

def powerLimitStorageMapping : List (String × ℤ) := [("Persistent", 0), ("Volatile", 1)]

def limitExceptionToInt (value : String) : Option ℤ := limitExceptionMapping.lookup value

def powerLimitStorageToInt (value : String) : Option ℤ := powerLimitStorageMapping.lookup value

def updatePolicyToDefaults (domain policy : String) (deviceIndex : DeviceIndex) (s : Exchange) :
    Exchange :=
  (s.write (.update domain policy deviceIndex)).write (.disable domain policy)

/-- The members of `keys` that are null are erased one after the other, each after `reset`; `none`
if nothing is left. -/
def resetNulls (reset : Exchange → Exchange) : List String → Exchange → Json →
    Exchange × Option Json
  | [], s, json => (s, some json)
  | key :: keys, s, json =>
    if json.hasNull key then
      let json := json.erase key
      if json.empty then (reset s, none) else resetNulls reset keys (reset s) json
    else resetNulls reset keys s json

def patchLimitException (domain policy limitException : String) (s : Exchange) : Exchange :=
  match limitExceptionToInt limitException with
  | none => s.message (.propertyValueIncorrect "LimitException" limitException)
  | some value => s.write (.setLimitException domain policy value)

def patchPowerLimitStorage (domain policy powerLimitStorage : String) (s : Exchange) : Exchange :=
  match powerLimitStorageToInt powerLimitStorage with
  | none => s.message (.propertyValueIncorrect "PowerLimitStorage" powerLimitStorage)
  | some value => s.write (.setPolicyStorage domain policy value)

/-- `if (value) patch(*value);` -/
def ifSome {α : Type} (value : Option α) (patch : α → Exchange → Exchange) (s : Exchange) :
    Exchange :=
  match value with
  | none => s
  | some v => patch v s

def powerLimitKeys : List String := ["LimitInWatts", "LimitException", "CorrectionInMs"]

def patchPowerPowerControlPowerLimit (u : JsonUtil) (domain policy : String)
    (deviceIndex : DeviceIndex) (json : Json) (s : Exchange) : Exchange :=
  match resetNulls (updatePolicyToDefaults domain policy deviceIndex) powerLimitKeys s json with
  | (s, none) => s
  | (s, some json) =>
    match u.readPowerLimit json with
    | none => s.message .invalidJson
    | some l =>
      let s := ifSome l.limitInWatts (fun limit s => s.write (.setLimit domain policy limit)) s
      let s := ifSome l.limitException (patchLimitException domain policy) s
      ifSome l.correctionInMs (fun ms s => s.write (.setCorrectionInMs domain policy ms)) s

def patchPowerPowerControlOemOpenBmc (u : JsonUtil) (domain policy : String) (json : Json)
    (s : Exchange) : Exchange :=
  match resetNulls id ["PowerLimitStorage"] s json with
  | (s, none) => s
  | (s, some json) =>
    match u.readPowerLimitStorage json with
    | none => s.message .invalidJson
    | some powerLimitStorage => ifSome powerLimitStorage (patchPowerLimitStorage domain policy) s

def patchPowerPowerControlOem (u : JsonUtil) (domain policy : String) (json : Json) (s : Exchange) :
    Exchange :=
  match resetNulls id ["OpenBmc"] s json with
  | (s, none) => s
  | (s, some json) =>
    match u.readOpenBmc json with
    | none => s.message .invalidJson
    | some openBmc => ifSome openBmc (patchPowerPowerControlOemOpenBmc u domain policy) s

/-- What `patchPowerPowerControlOem` leaves of the JSON that it is given. -/
def oemLeft (u : JsonUtil) (json : Json) : Json :=
  match resetNulls id ["OpenBmc"] .start json with
  | (_, none) => json.erase "OpenBmc"
  | (_, some json) => u.leftOpenBmc json

/-! ### The requests -/

/-- One member of the array. "Oem" is patched a second time, with what the first time left of it. -/
def patchMember (u : JsonUtil) (entry : DomainPolicy) (oem powerLimit : Option Json) (s : Exchange) :
    Exchange :=
  let s := ifSome oem (patchPowerPowerControlOem u entry.domain entry.policy) s
  let s := ifSome powerLimit
    (patchPowerPowerControlPowerLimit u entry.domain entry.policy entry.index) s
  ifSome (oem.map (oemLeft u)) (patchPowerPowerControlOem u entry.domain entry.policy) s

/-- The loop over the array. `list.at(i)` throws where the array is longer than the list: `none`. -/
def patchMembers (u : JsonUtil) : List DomainPolicy → List Json → Exchange → Option Exchange
  | _, [], s => some s
  | [], _ :: _, _ => none
  | entry :: list, collection :: collections, s =>
    match u.readMember collection with
    | none => some (s.message .invalidJson)
    | some (oem, powerLimit) => patchMembers u list collections (patchMember u entry oem powerLimit s)

/-- The chassis of the request, and what the other services answer: the mapper, whether the chassis
path is valid, and the components of the processors, memories and accelerators. -/
structure Answers where
  chassisId : String
  mapper : Bool
  chassisPath : Bool
  components : Option (List DeviceIndex × List DeviceIndex × List DeviceIndex)

def Answers.list (a : Answers) : Option (List DomainPolicy) :=
  a.components.map fun c => buildDomainPolicyMap c.1 c.2.1 c.2.2

/-- The PATCH of the power resource and `setPowerCapOverride`. -/
def setPowerCapOverride (u : JsonUtil) (a : Answers) (body : String) : Option Exchange :=
  if ¬ a.mapper then some (Exchange.start.message .internalError)
  else match u.readCollectionAction body with
    | none => some (Exchange.start.message .invalidJson)
    | some none => some .start
    | some (some collections) =>
      if ¬ a.chassisPath then some (Exchange.start.message (.resourceNotFound "Chassis" a.chassisId))
      else if collections.isEmpty then some .start
      else match a.list with
        | none => some .start
        | some list => patchMembers u list collections .start

def patchNmDmtfComponentByMemberId (u : JsonUtil) (a : Answers) (name body : String) : Exchange :=
  match a.list with
  | none => .start
  | some list =>
    match u.readMemberAction body with
    | none => Exchange.start.message .invalidJson
    | some (oem, powerLimit) =>
      match findMember list name with
      | none => Exchange.start.message (.resourceNotFound "PowerControl" name)
      | some entry =>
        let s := ifSome powerLimit
          (patchPowerPowerControlPowerLimit u entry.domain entry.policy entry.index) .start
        ifSome oem (patchPowerPowerControlOem u entry.domain entry.policy) s

inductive Patch
  | collection (body : String)
  | member (name body : String)

/-- How the request stands when the body has been handled, before any write is answered; `none` if
the handler throws. -/
def Patch.handle (u : JsonUtil) (a : Answers) : Patch → Option Exchange
  | .collection body => setPowerCapOverride u a body
  | .member name body => some (patchNmDmtfComponentByMemberId u a name body)

end MetaCommon.NodeManager
