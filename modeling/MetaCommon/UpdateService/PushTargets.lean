import Mathlib.Data.Finset.Basic
import MetaCommon.Lib.Runs

/-!
# The targets of a firmware push

The PATCH handler of the Redfish update service. A client reserves the service by setting
`HttpPushUriTargets` together with `HttpPushUriTargetsBusy`; the handler checks the busy flag, asks
the object mapper whether the target exists and sets both in the callback. `ClearConfig` and the
apply time are D-Bus properties of the software manager. Requests of several clients are in flight
at the same time, and the replies come in any order.
-/

namespace MetaCommon.UpdateService

/-- A member that `readJson` takes out of an object. -/
inductive Member (α : Type)
  | absent
  | invalid
  | present (a : α)
deriving DecidableEq

/-- The body of a PATCH: whether `readJsonPatch` accepts it, `Oem/ApplyOptions/ClearConfig`,
`HttpPushUriOptions/HttpPushUriApplyTime/ApplyTime`, and the two members of the reservation. -/
structure PatchRequest where
  client : ℕ
  readable : Bool
  oemProps : Option (Member (Member Bool))
  pushUriOptions : Option (Member (Member String))
  imgTargets : Option (List String)
  imgTargetBusy : Option Bool
deriving DecidableEq

inductive Message
  | malformedJson
  | internalError
  | propertyValueNotInList (value : String)
  | resourceInUse
  | invalidObject (uri : String)
deriving DecidableEq

/-- An assignment that the service makes or has the software manager make. -/
inductive Assignment
  | clearConfig (value : Bool)
  | applyTime (value : String)
  | targetBusy (busy : Bool)
  | reservation (busy : Bool) (targets : List String)
deriving DecidableEq

/-- An asynchronous D-Bus call: a property is set, or the software objects are asked for. -/
inductive CallKind
  | setClearConfig (value : Bool)
  | setApplyTime (value : String)
  | getSubTreePaths (target : String) (targetBusy : Bool)
deriving DecidableEq

structure AsyncCall where
  request : ℕ
  client : ℕ
  kind : CallKind
deriving DecidableEq

inductive Answer
  | failed
  | done (paths : List String)
deriving DecidableEq

/-- The four properties. -/
structure Properties where
  httpPushUriTargets : List String
  httpPushUriTargetBusy : Bool
  clearConfig : Bool
  applyTime : String
deriving DecidableEq

/-- The properties and the calls in flight. The other fields are histories: the number of the next
request, the messages that requests were answered with, the requests that have changed a property,
and the client whose reservation has been granted and not been given up since. -/
structure Service where
  props : Properties
  calls : List AsyncCall
  next : ℕ
  errors : List (ℕ × Message)
  changed : Finset ℕ
  holder : Option ℕ

/-- The id behind the last slash of an object path, if there is one. -/
def swId (path : String) : Option String :=
  let name := (path.toList.reverse.takeWhile (· ≠ '/')).reverse
  if '/' ∈ path.toList ∧ name ≠ [] then some (String.ofList name) else none

/-- The loop over the software objects. -/
def findTarget (target : String) : List String → Except Message Unit
  | [] => .error (.invalidObject "HttpPushUriTargets")
  | path :: paths =>
    match swId path with
    | none => .error .internalError
    | some id => if id = target then .ok () else findTarget target paths

/-- What the callback of a call does: nothing, a message, or an assignment. -/
def CallKind.callback : CallKind → Answer → Option (Except Message Assignment)
  | .setClearConfig _, .failed => some (.error .internalError)
  | .setClearConfig value, .done _ => some (.ok (.clearConfig value))
  | .setApplyTime _, .failed => some (.error .internalError)
  | .setApplyTime value, .done _ => some (.ok (.applyTime value))
  | .getSubTreePaths _ _, .failed => none
  | .getSubTreePaths target targetBusy, .done paths =>
    some ((findTarget target paths).map fun _ => .reservation targetBusy [target])

def Properties.assign (p : Properties) : Assignment → Properties
  | .clearConfig value => { p with clearConfig := value }
  | .applyTime value => { p with applyTime := value }
  | .targetBusy busy => { p with httpPushUriTargetBusy := busy }
  | .reservation busy targets =>
    { p with httpPushUriTargetBusy := busy, httpPushUriTargets := targets }

/-- Who holds the reservation after an assignment for `client`. -/
def Assignment.holder (client : ℕ) (holder : Option ℕ) : Assignment → Option ℕ
  | .clearConfig _ => holder
  | .applyTime _ => holder
  | .targetBusy busy => if busy then holder else none
  | .reservation busy _ => if busy then some client else none

namespace Service

def init (p : Properties) : Service :=
  { props := { p with httpPushUriTargets := [], httpPushUriTargetBusy := false }
    calls := []
    next := 0
    errors := []
    changed := ∅
    holder := none }

variable (s : Service)

def fail (request : ℕ) (m : Message) : Service := { s with errors := (request, m) :: s.errors }

def assign (request client : ℕ) (a : Assignment) : Service :=
  { s with
    props := s.props.assign a
    changed := if s.props.assign a = s.props then s.changed else insert request s.changed
    holder := a.holder client s.holder }

def async (request client : ℕ) (kind : CallKind) : Service :=
  { s with calls := s.calls ++ [⟨request, client, kind⟩] }

/-- A part of the handler: it goes on, or has returned. -/
abbrev Part := Except Service Service

/-- `if (oemProps)`. -/
def patchOem (id : ℕ) (r : PatchRequest) : Part :=
  match r.oemProps with
  | none => .ok s
  | some .invalid => .error (s.fail id .malformedJson)
  | some .absent => .ok s
  | some (.present .invalid) => .error (s.fail id .malformedJson)
  | some (.present .absent) => .ok s
  | some (.present (.present clearConfig)) =>
    .ok (s.async id r.client (.setClearConfig clearConfig))

/-- `if (pushUriOptions)`, with the table of apply times that `setApplyTime` knows. -/
def patchOptions (applyTimes : String → Option String) (id : ℕ) (r : PatchRequest) : Part :=
  match r.pushUriOptions with
  | none => .ok s
  | some .invalid => .error (s.fail id .malformedJson)
  | some .absent => .ok s
  | some (.present .invalid) => .error (s.fail id .malformedJson)
  | some (.present .absent) => .ok s
  | some (.present (.present applyTime)) =>
    match applyTimes applyTime with
    | none => .ok (s.fail id (.propertyValueNotInList applyTime))
    | some value => .ok (s.async id r.client (.setApplyTime value))

/-- `if (imgTargetBusy)`. -/
def patchTargets (id : ℕ) (r : PatchRequest) : Service :=
  match r.imgTargetBusy with
  | none => s
  | some busy =>
    if s.props.httpPushUriTargetBusy ∧ busy then s.fail id .resourceInUse
    else
      match r.imgTargets with
      | none => s.assign id r.client (.targetBusy busy)
      | some targets =>
        if busy then
          match targets with
          | [] => s.assign id r.client (.reservation busy [])
          | [target] => s.async id r.client (.getSubTreePaths target busy)
          | _ => s.fail id (.invalidObject "HttpPushUriTargets")
        else s.fail id (.invalidObject "HttpPushUriTargetsBusy")

/-- The handler of a PATCH, up to the point where it waits for replies. -/
def doPatch (applyTimes : String → Option String) (r : PatchRequest) : Service :=
  let id := s.next
  let s := { s with next := s.next + 1 }
  if r.readable then
    match s.patchOem id r with
    | .error s => s
    | .ok s =>
      match s.patchOptions applyTimes id r with
      | .error s => s
      | .ok s => s.patchTargets id r
  else s.fail id .malformedJson

/-- What is left of a callback. -/
def answer (c : AsyncCall) : Option (Except Message Assignment) → Service
  | none => s
  | some (.error m) => s.fail c.request m
  | some (.ok w) => s.assign c.request c.client w

/-- The callback of the call in place `k`. -/
def reply (k : ℕ) (a : Answer) : Service :=
  match s.calls[k]? with
  | none => s
  | some c => { s with calls := s.calls.eraseIdx k }.answer c (c.kind.callback a)

end Service

inductive Event
  | patch (r : PatchRequest)
  | reply (k : ℕ) (a : Answer)
deriving DecidableEq

variable (applyTimes : String → Option String)

namespace Service

def step (s : Service) : Event → Service
  | .patch r => s.doPatch applyTimes r
  | .reply k a => s.reply k a

/-- The client whose request an event is about. -/
def client (s : Service) : Event → Option ℕ
  | .patch r => some r.client
  | .reply k _ => s.calls[k]?.map AsyncCall.client

/-- No request has both been answered with an error and changed a property. -/
def Atomic (s : Service) : Prop := ∀ e ∈ s.errors, e.1 ∉ s.changed

instance : DecidablePred Atomic := fun s =>
  inferInstanceAs (Decidable (∀ e ∈ s.errors, e.1 ∉ s.changed))

/-- While a client holds the reservation, a request of another one neither changes the targets nor
gets the reservation; and no request that is answered with an error has changed a property. -/
def PatchSound (s : Service) (e : Event) : Prop :=
  (∀ b ∈ s.client e, ∀ h ∈ s.holder, h ≠ b →
    (s.step applyTimes e).props.httpPushUriTargets = s.props.httpPushUriTargets ∧
      (s.step applyTimes e).holder ≠ some b) ∧
  (s.step applyTimes e).Atomic

instance : DecidableRel (PatchSound applyTimes) := fun s e =>
  inferInstanceAs (Decidable ((∀ b ∈ s.client e, ∀ h ∈ s.holder, _) ∧ _))

end Service

/-- The Oem part of the handler returns. -/
def PatchRequest.oemReturns (r : PatchRequest) : Bool :=
  r.oemProps = some .invalid ∨ r.oemProps = some (.present .invalid)

/-- The request has an apply time that is not in the table. -/
def PatchRequest.unknownApplyTime (r : PatchRequest) : Bool :=
  match r.pushUriOptions with
  | some (.present (.present applyTime)) => (applyTimes applyTime).isNone
  | _ => false

/-- The handler gets to an apply time that is not in the table. -/
def PatchRequest.refusesApplyTime (r : PatchRequest) : Bool :=
  r.readable && !r.oemReturns && r.unknownApplyTime applyTimes

/-- The assignment that the handler itself makes, with the busy flag as it finds it. -/
def PatchRequest.assignment (r : PatchRequest) (current : Bool) : Option Assignment :=
  match r.imgTargetBusy with
  | none => none
  | some busy =>
    match r.imgTargets with
    | none => if current && busy then none else some (.targetBusy busy)
    | some [] => if !current && busy then some (.reservation busy []) else none
    | some (_ :: _) => none

namespace Service

/-- A callback that grants a reservation finds none of another client; one with an error belongs to
a request that has changed nothing, and one that changes a property to a request without errors. -/
def CallbackFits (s : Service) (c : AsyncCall) : Option (Except Message Assignment) → Prop
  | none => True
  | some (.error _) => c.request ∉ s.changed
  | some (.ok w) => (∀ h ∈ s.holder, h ≠ c.client → w.holder c.client s.holder ≠ some c.client) ∧
      (s.props.assign w ≠ s.props → ∀ e ∈ s.errors, e.1 ≠ c.request)

instance (s : Service) (c : AsyncCall) : DecidablePred (s.CallbackFits c)
  | none => inferInstanceAs (Decidable True)
  | some (.error _) => inferInstanceAs (Decidable (_ ∉ _))
  | some (.ok _) => inferInstanceAs (Decidable ((∀ h ∈ s.holder, _) ∧ (_ → ∀ e ∈ s.errors, _)))

/-- A request whose apply time is refused assigns nothing that changes a property, and the callbacks
fit. -/
def Fits (s : Service) : Event → Prop
  | .patch r => r.refusesApplyTime applyTimes = true →
    ∀ w ∈ r.assignment s.props.httpPushUriTargetBusy, s.props.assign w = s.props
  | .reply k a => ∀ c ∈ s.calls[k]?, s.CallbackFits c (c.kind.callback a)

instance : DecidableRel (Fits applyTimes)
  | s, .patch r =>
    inferInstanceAs (Decidable (_ → ∀ w ∈ r.assignment _, s.props.assign w = s.props))
  | s, .reply k _ => inferInstanceAs (Decidable (∀ c ∈ s.calls[k]?, s.CallbackFits c _))

end Service

end MetaCommon.UpdateService
