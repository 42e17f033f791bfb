import MetaCommon.Lib.JsonTree

/-!
# PATCH of a node manager policy

The attributes of a policy become the parameters of an update, the members of the body replace some
of them, and the update is sent unless an error has been reported. Suspend periods and thresholds
are not taken from the attributes but left empty. `json_util` and `time_utils` are upstream; the
latter gives milliseconds.
-/

namespace MetaCommon.NodeManager

open JsonTree

abbrev SuspendPeriodsType := List (List (String × (List String ⊕ String)))

abbrev ThresholdsType := List (String × List (BitVec 16))

/-- The values of the attributes, as they are on the bus. -/
inductive Attribute
  | byte (n : BitVec 8)
  | uint16 (n : BitVec 16)
  | uint32 (n : BitVec 32)
  | int32 (n : ℤ)
  | string (s : String)
  | suspendPeriods (periods : SuspendPeriodsType)
  | thresholds (values : ThresholdsType)

namespace Attribute

def byte? : Attribute → Option (BitVec 8)
  | byte n => some n
  | _ => none

def uint16? : Attribute → Option (BitVec 16)
  | uint16 n => some n
  | _ => none

def uint32? : Attribute → Option (BitVec 32)
  | uint32 n => some n
  | _ => none

def int32? : Attribute → Option ℤ
  | int32 n => some n
  | _ => none

def string? : Attribute → Option String
  | string s => some s
  | _ => none

def suspendPeriods? : Attribute → Option SuspendPeriodsType
  | suspendPeriods periods => some periods
  | _ => none

def thresholds? : Attribute → Option ThresholdsType
  | thresholds values => some values
  | _ => none

end Attribute

abbrev Properties := List (String × Attribute)

/-- The first property of the name, if it has the type that `get` takes. -/
def getPropertyValue {α : Type} (get : Attribute → Option α) (properties : Properties)
    (name : String) : Option α :=
  (properties.lookup name).bind get

def kPolicyOwnerBmc : ℤ := 0

def isPolicyReadOnly (properties : Properties) : Bool :=
  match getPropertyValue Attribute.int32? properties "Owner" with
  | some owner => owner ≠ kPolicyOwnerBmc
  | none => false

def kPolicyStorageMap : List (ℤ × String) := [(0, "Persistent"), (1, "Volatile")]

def kPowerCorrectionTypeMap : List (ℤ × String) :=
  [(0, "Auto"), (1, "NonAggressive"), (2, "Aggressive")]

def kLimitExceptionMap : List (ℤ × String) :=
  [(0, "NoAction"), (1, "HardPowerOff"), (2, "LogEventOnly"), (3, "Oem")]

/-- `std::find_if` for the text of an option. -/
def findOption (map : List (ℤ × String)) (text : String) : Option ℤ :=
  (map.find? fun option => text = option.2).map Prod.fst

structure PolicyParams where
  correctionInMs : BitVec 32
  limit : BitVec 16
  statReportingPeriod : BitVec 16
  policyStorage : ℤ
  powerCorrectionType : ℤ
  limitException : ℤ
  suspendPeriods : SuspendPeriodsType
  thresholds : ThresholdsType
  componentId : BitVec 8
  triggerLimit : BitVec 16
  triggerType : String

def convertAttributesToPolicyParams (properties : Properties) : Option PolicyParams := do
  let correctionInMs ← getPropertyValue Attribute.uint32? properties "CorrectionInMs"
  let limit ← getPropertyValue Attribute.uint16? properties "Limit"
  let statisticsReportingPeriod ←
    getPropertyValue Attribute.uint16? properties "StatisticsReportingPeriod"
  let policyStorage ← getPropertyValue Attribute.int32? properties "PolicyStorage"
  let powerCorrectionType ← getPropertyValue Attribute.int32? properties "PowerCorrectionType"
  let limitException ← getPropertyValue Attribute.int32? properties "LimitException"
  let componentId ← getPropertyValue Attribute.byte? properties "ComponentId"
  let triggerLimit ← getPropertyValue Attribute.uint16? properties "TriggerLimit"
  let triggerType ← getPropertyValue Attribute.string? properties "TriggerType"
  return ⟨correctionInMs, limit, statisticsReportingPeriod, policyStorage, powerCorrectionType,
    limitException, [], [], componentId, triggerLimit, triggerType⟩

/-! ### The body -/

structure PolicyBody where
  correctionInMs : Option (BitVec 32)
  limit : Option (BitVec 16)
  statisticsReportingPeriod : Option String
  policyStorage : Option String
  powerCorrectionType : Option String
  limitException : Option String
  componentId : Option (BitVec 8)
  trigger : Option JsonTree

/-- `json_util::readJsonAction` with the names of the members. -/
def readPolicyBody [Reader] (json : JsonTree) : Option PolicyBody := do
  let members ← onlyMembers ["CorrectionInMs", "Limit", "StatisticsReportingPeriod",
    "PolicyStorage", "PowerCorrectionType", "LimitException", "ComponentId", "Trigger"] json
  let correctionInMs ← readOptional members "CorrectionInMs" (asUint 32)
  let limit ← readOptional members "Limit" (asUint 16)
  let statisticsReportingPeriod ← readOptional members "StatisticsReportingPeriod" asString
  let policyStorage ← readOptional members "PolicyStorage" asString
  let powerCorrectionType ← readOptional members "PowerCorrectionType" asString
  let limitException ← readOptional members "LimitException" asString
  let componentId ← readOptional members "ComponentId" (asUint 8)
  let trigger ← readOptional members "Trigger" asJson
  return ⟨correctionInMs, limit, statisticsReportingPeriod, policyStorage, powerCorrectionType,
    limitException, componentId, trigger⟩

structure Trigger where
  triggerLimit : Option (BitVec 16)
  triggerType : Option String

/-- `json_util::readJson` with the members of "Trigger". -/
def readTrigger [Reader] (json : JsonTree) : Option Trigger := do
  let members ← onlyMembers ["TriggerLimit", "TriggerType"] json
  let triggerLimit ← readOptional members "TriggerLimit" (asUint 16)
  let triggerType ← readOptional members "TriggerType" asString
  return ⟨triggerLimit, triggerType⟩

inductive PolicyMessage
  | internalError
  | operationNotAllowed
  | readJson
  | malformedJSON
  | propertyValueIncorrect (name value : String)

/-- The parameters and the messages in the response, whose result is no longer "ok" with one. -/
structure PolicyPatching where
  params : PolicyParams
  messages : List PolicyMessage

namespace PolicyPatching

def set (s : PolicyPatching) (f : PolicyParams → PolicyParams) : PolicyPatching :=
  { s with params := f s.params }

def message (s : PolicyPatching) (m : PolicyMessage) : PolicyPatching :=
  { s with messages := s.messages ++ [m] }

/-- The text of an option is converted, or rejected. -/
def setOption (s : PolicyPatching) (map : List (ℤ × String)) (name text : String)
    (f : ℤ → PolicyParams → PolicyParams) : PolicyPatching :=
  match findOption map text with
  | some value => s.set (f value)
  | none => s.message (.propertyValueIncorrect name text)

end PolicyPatching

section Patching

variable (fromDurationString : String → Option ℤ)

/-- `convertTimeString<uint16_t>`, with what it reports. The seconds are compared with the greatest
value only. -/
def convertTimeString (string name : String) : BitVec 16 × List PolicyMessage :=
  match fromDurationString string with
  | some value =>
    let sec := value.tdiv 1000
    if sec ≤ 65535 then (BitVec.ofInt 16 sec, [])
    else (0, [.propertyValueIncorrect name string])
  | none => (0, [.propertyValueIncorrect name string])

def setPeriod (string : String) (s : PolicyPatching) : PolicyPatching :=
  let (period, messages) := convertTimeString fromDurationString string "StatisticsReportingPeriod"
  ⟨{ s.params with statReportingPeriod := period }, s.messages ++ messages⟩

def setTrigger [Reader] (json : JsonTree) (s : PolicyPatching) : PolicyPatching :=
  match readTrigger json with
  | none => (s.message .readJson).message .malformedJSON
  | some trigger =>
    let s := trigger.triggerLimit.elim s fun limit => s.set ({ · with triggerLimit := limit })
    trigger.triggerType.elim s fun type => s.set ({ · with triggerType := type })

def setMembers [Reader] (v : PolicyBody) (s : PolicyPatching) : PolicyPatching :=
  let s := v.correctionInMs.elim s fun ms => s.set ({ · with correctionInMs := ms })
  let s := v.limit.elim s fun limit => s.set ({ · with limit := limit })
  let s := v.statisticsReportingPeriod.elim s (setPeriod fromDurationString · s)
  let s := v.policyStorage.elim s fun text =>
    s.setOption kPolicyStorageMap "PolicyStorage" text fun n => ({ · with policyStorage := n })
  let s := v.powerCorrectionType.elim s fun text =>
    s.setOption kPowerCorrectionTypeMap "PowerCorrectionType" text fun n =>
      ({ · with powerCorrectionType := n })
  let s := v.limitException.elim s fun text =>
    s.setOption kLimitExceptionMap "LimitException" text fun n => ({ · with limitException := n })
  let s := v.componentId.elim s fun id => s.set ({ · with componentId := id })
  v.trigger.elim s (setTrigger · s)

def updatePolicyParamsWithJsonValues [Reader] (body : JsonTree) (s : PolicyPatching) :
    PolicyPatching :=
  match readPolicyBody body with
  | none => (s.message .readJson).message .malformedJSON
  | some v => setMembers fromDurationString v s

/-- The messages in the response, and the updates that are sent. -/
structure PolicyResponse where
  messages : List PolicyMessage
  updates : List PolicyParams

/-- The handler, when the path of the policy has been found; `properties` is `none` if they cannot
be read. -/
def patchPolicy [Reader] (properties : Option Properties) (body : JsonTree) : PolicyResponse :=
  match properties with
  | none => ⟨[.internalError], []⟩
  | some properties =>
    if isPolicyReadOnly properties then ⟨[.operationNotAllowed], []⟩
    else match convertAttributesToPolicyParams properties with
      | none => ⟨[.internalError], []⟩
      | some params =>
        let s := updatePolicyParamsWithJsonValues fromDurationString body ⟨params, []⟩
        if s.messages = [] then ⟨[], [s.params]⟩ else ⟨s.messages, []⟩

end Patching

end MetaCommon.NodeManager
