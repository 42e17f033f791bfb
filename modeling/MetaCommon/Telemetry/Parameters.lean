import Mathlib.Algebra.Group.Int.Defs
import Mathlib.Data.List.Basic
import Mathlib.Tactic.Common

/-!
# The parameters of a metric report definition

`getUserParameters` reads them from the body of a request, and `ErrorVerificator` finds the
parameter that an error of the telemetry service is about.
-/

namespace MetaCommon.Telemetry

inductive Message
  | internalError
  | propertyValueIncorrect (name value : String)
  | propertyValueNotInList (value name : String)
  | createFailedMissingReqProperties (name : String)
  | resourceNotFound (type name : String)
  | resourceAlreadyExists (type property value : String)
  | createLimitReachedForResource
  | ofHelper
  deriving DecidableEq

variable {J μ ρ : Type}

/-- The properties of a body, as they are read from it. `durationStr` is taken from the schedule. -/
structure ReportUserArgs (J : Type) where
  id : Option String
  name : Option String
  reportingTypeStr : Option String
  reportUpdatesStr : Option String
  appendLimit : Option UInt64
  metricReportDefinitionEnabled : Option Bool
  metrics : Option (List J)
  reportActionsStr : Option (List String)
  schedule : Option J
  durationStr : Option String

structure AddReportArgs (μ : Type) where
  id : String
  name : String
  reportingType : String
  reportUpdates : String
  appendLimit : UInt64
  reportActions : List String
  interval : ℕ
  metrics : List μ
  metricReportDefinitionEnabled : Bool

/-- From the URI of a metric property to the path of its sensor; the first entry counts. -/
abbrev UriToDbus := List (String × String)

/-- The functions of bmcweb that are called. Where one gives `none`, it has set an error message.
The interval of a schedule may be absent. -/
structure Helpers (J μ ρ : Type) where
  defaults : AddReportArgs μ
  toDbusReportingType : String → String
  toDbusReportUpdates : String → String
  toDbusReportActions : List String → Option (List String)
  readRecurrenceInterval : J → Option (Option String)
  fromDurationString : String → Option ℤ
  getUserMetrics : List J → Option (List μ)
  getChassisSensorNode : List μ → Option (List (String × String))
  readingParams : List μ → UriToDbus → Option ρ
  dumpActions : List String → String
  dumpMetrics : List J → String

/-- The result of a function that returns `false` after it has set a message, or without one. -/
inductive Refusal
  | message (m : Message)
  | silent
  deriving DecidableEq

def allowedCharactersInId : List Char :=
  "abcdefghijklmnopqrstuvwxyzABCDEFGHIJKLMNOPQRSTUVWXYZ0123456789_".toList

namespace Helpers

variable (hp : Helpers J μ ρ)

def orMessage {α : Type} : Option α → Except Refusal α
  | some a => .ok a
  | none => .error (.message .ofHelper)

/-- A property that a function reads. -/
def readOptional {α β : Type} (read : α → Option β) (default : β) : Option α → Except Refusal β
  | none => .ok default
  | some a => orMessage (read a)

def readId : Option String → Except Refusal String
  | none => .ok hp.defaults.id
  | some id =>
    if id = "" ∨ id.toList.any (· ∉ allowedCharactersInId) then
      .error (.message (.propertyValueIncorrect "Id" id))
    else .ok id

/-- A property that is translated with one of the tables of names. -/
def readName (toDbus : String → String) (property default : String) :
    Option String → Except Refusal String
  | none => .ok default
  | some value =>
    if toDbus value = "" then .error (.message (.propertyValueNotInList value property))
    else .ok (toDbus value)

/-- The interval of a periodic report, with the text it is given as. -/
def readSchedule (user : ReportUserArgs J) : Except Refusal (ℕ × Option String) :=
  if user.reportingTypeStr = some "Periodic" then
    match user.schedule with
    | none => .error (.message (.createFailedMissingReqProperties "Schedule"))
    | some schedule =>
      match hp.readRecurrenceInterval schedule with
      | none => .error (.message .ofHelper)
      | some none => .error .silent
      | some (some durationStr) =>
        match hp.fromDurationString durationStr with
        | none =>
          .error (.message (.propertyValueIncorrect "RecurrenceInterval" durationStr))
        | some durationNum =>
          if durationNum < 0 then
            .error (.message (.propertyValueIncorrect "RecurrenceInterval" durationStr))
          else .ok (durationNum.toNat, some durationStr)
  else .ok (hp.defaults.interval, none)

/-- The body is `none` where `readJsonPatch` refuses it. -/
def getUserParameters (body : Option (ReportUserArgs J)) :
    Except Refusal (AddReportArgs μ × ReportUserArgs J) := do
  let user ← orMessage body
  let id ← hp.readId user.id
  let reportingType ← readName hp.toDbusReportingType "MetricReportDefinitionType"
    hp.defaults.reportingType user.reportingTypeStr
  let reportUpdates ← readName hp.toDbusReportUpdates "ReportUpdates"
    hp.defaults.reportUpdates user.reportUpdatesStr
  let reportActions ← readOptional hp.toDbusReportActions hp.defaults.reportActions
    user.reportActionsStr
  let (interval, durationStr) ← hp.readSchedule user
  let metrics ← readOptional hp.getUserMetrics hp.defaults.metrics user.metrics
  return (⟨id, user.name.getD hp.defaults.name, reportingType, reportUpdates,
    user.appendLimit.getD hp.defaults.appendLimit, reportActions, interval, metrics,
    user.metricReportDefinitionEnabled.getD hp.defaults.metricReportDefinitionEnabled⟩,
    { user with durationStr := durationStr })

end Helpers

/-! ### Errors of the telemetry service -/

inductive ErrorCode
  | invalid_argument
  | EBADR
  | host_unreachable
  | file_exists
  | too_many_files_open
  | other (value : ℤ)
  deriving DecidableEq

/-- An error with the message that came with it. -/
structure BackendError where
  ec : ErrorCode
  error : String

namespace ErrorVerificator

variable (hp : Helpers J μ ρ) (e : BackendError)

/-- `verifyId` and the functions after it: an invalid argument with the name of a property that the
request has. -/
def verifyProperty (value : Option String) (isError : String → Bool) (property : String) :
    Option Message :=
  match value with
  | none => none
  | some value =>
    if e.ec = .invalid_argument ∧ isError e.error then
      some (.propertyValueIncorrect value property)
    else none

def verifyNamed (value : Option String) (error property : String) : Option Message :=
  verifyProperty e value (· = error) property

def verifyReadingParameters (metrics : Option (List J)) : Option Message :=
  verifyProperty e (metrics.map hp.dumpMetrics) (·.startsWith "ReadingParameters")
    "MetricProperties"

def verify (id : Option String) : Message :=
  match e.ec with
  | .EBADR | .host_unreachable => .resourceNotFound "MetricReportDefinition" (id.getD "")
  | .file_exists =>
    .resourceAlreadyExists "MetricReportDefinition" "Id" (id.getD "")
  | .too_many_files_open => .createLimitReachedForResource
  | _ => .internalError

/-- The message for an error of `AddReport`. -/
def addReport (user : ReportUserArgs J) : Message :=
  ((verifyNamed e user.id "Id" "Id").or
    ((verifyNamed e user.name "Name" "Name").or
    ((verifyNamed e user.reportingTypeStr "ReportingType" "MetricReportDefinitionType").or
    ((verifyNamed e (user.appendLimit.map toString) "AppendLimit"
      "AppendLimit").or
    ((verifyNamed e (user.reportActionsStr.map hp.dumpActions) "ReportActions"
      "ReportActions").or
    ((verifyNamed e user.durationStr "Interval" "RecurrenceInterval").or
    ((verifyNamed e user.reportUpdatesStr "ReportUpdates" "ReportUpdates").or
    (verifyReadingParameters hp e user.metrics)))))))).getD (verify e user.id)

end ErrorVerificator

end MetaCommon.Telemetry
