import MetaCommon.Lib.Handles
import MetaCommon.Lib.Runs

/-!
# Metering and state data of a processor

`GET .../Processors/<str>/Oem/Intel/<str>`: the first request for the metering or state data of a
processor makes the on-demand service measure them and is answered with a task; a later one reads
them from the descriptor that came with the service's reply. In between `ondemandList`, which all
requests share, keeps the descriptor and what the task has heard. Requests, replies, signals and
timers come in any order.

Three fields of `Store` are histories that the code does not have: `lost` are the descriptors whose
entry was overwritten, `heard` the codes of the signals that came for an entry, and `deliveries` the
measurements that were read.
-/

namespace MetaCommon.OnDemand

/-- `enum class OnDemandResponseCode`. -/
inductive OnDemandResponseCode
  | ondemandFailure | ondemandSuccess | ondemandMethodInProgress | ondemandUnableToOpenFd
  deriving DecidableEq

def OnDemandResponseCode.toInt : OnDemandResponseCode → ℤ
  | .ondemandFailure => 0
  | .ondemandSuccess => 1
  | .ondemandMethodInProgress => 2
  | .ondemandUnableToOpenFd => 3

def ondemandPath : String := "/xyz/openbmc_project/ondemand/"
def stateDataInterface : String := "xyz.openbmc_project.CPU.StateData"
def meterDataInterface : String := "xyz.openbmc_project.CPU.MeteredData"

def processorsPath : String := "/redfish/v1/Systems/system/Processors/"

/-- `task` is the index of the task, which stands for the measurement too. -/
structure OndemandData where
  fd : ℕ
  fdStatus : Bool
  methodSuccess : Bool
  signalResponseSuccess : Bool
  task : ℕ
  deriving DecidableEq

/-- A task as far as this service uses it: the identifier its callback has captured, the signal it
matches, and whether its match and its timer are still set. -/
structure TaskData where
  ondemandListIdentifier : String
  signalMatchStr : String
  armed : Bool
  deriving DecidableEq

def OndemandData.complete (code : ℤ) (o : OndemandData) : OndemandData :=
  { o with
    fdStatus := true
    methodSuccess := true
    signalResponseSuccess :=
      o.signalResponseSuccess || code = OnDemandResponseCode.ondemandSuccess.toInt }

def OndemandData.expire (o : OndemandData) : OndemandData := { o with fdStatus := true }

def TaskData.matchesSignal (m : String) (t : TaskData) : Bool := t.armed && t.signalMatchStr = m

/-- What `getCPUMeterState` fills in. -/
structure MeterStateFeature where
  odataId : String
  featureAuthDevice : String
  name : String
  id : String
  enabled : Bool
  featureData : List UInt8
  deriving DecidableEq

/-- What `getCPUProvisionDynamic` fills in. -/
structure ProvisionDynamicFeature where
  odataId : String
  featureAuthDevice : String
  name : String
  id : String
  enabled : Bool
  featureAuthLicense : Option String
  deriving DecidableEq

inductive Response
  | internalError
  | resourceNotFound (type name : String)
  | serviceTemporarilyUnavailable (retryAfter : String)
  | task (index : ℕ)
  | meterState (feature : MeterStateFeature)
  | provisionDynamic (feature : ProvisionDynamicFeature)
  deriving DecidableEq

/-- A method call that has not been answered. -/
inductive MethodCall
  | meterState (processorId reqFeature : String)
  | provisionDynamic (processorId reqFeature objectPath : String)
  deriving DecidableEq

structure Pending where
  request : ℕ
  call : MethodCall
  deriving DecidableEq

/-- A measurement that was read: by which request, what had been heard, and what was shown. -/
structure Delivery where
  task : ℕ
  request : ℕ
  codes : List ℤ
  feature : MeterStateFeature
  deriving DecidableEq

/-- What the reply to a method call carries, and whether `dup` succeeds. -/
structure Answer where
  code : Option ℤ
  dups : Bool
  featureEnabled : Option Bool
  deriving DecidableEq

/-- What `lseek` and `read` answer in `readMeterStateData`: whether the former succeeds, the chunks
that are read, and the last result of `read`. -/
structure FileAnswer where
  lseek : Bool
  chunks : List (List UInt8)
  rc : ℤ
  deriving DecidableEq

/-- The data, unless `lseek` or a `read` fails. -/
def FileAnswer.data (file : FileAnswer) : List UInt8 :=
  if file.lseek ∧ file.rc = 0 then file.chunks.flatten else []

/-- What the requests share. -/
structure Store where
  ondemandList : String → Option OndemandData
  opened : Finset ℕ
  tasks : List TaskData
  lost : Finset ℕ
  heard : String → List ℤ
  deliveries : List Delivery

structure Server extends Store where
  pending : List Pending
  requests : ℕ
  responses : List (ℕ × Response)

/-- The match rule of `createMeterStateData`. -/
def signalMatchStr (processorId reqFeature : String) : String :=
  if reqFeature = "MeteringFeature" then
    "type='signal',interface='" ++ meterDataInterface ++ "',member='" ++ "GetMeteredDataComplete" ++
      "', path='" ++ (ondemandPath ++ processorId ++ "/metered_data") ++ "'"
  else
    "type='signal',interface='" ++ stateDataInterface ++ "',member='" ++ "GetStateDataComplete" ++
      "', path='" ++ (ondemandPath ++ processorId ++ "/state_data") ++ "'"

namespace Store

def init : Store := ⟨fun _ => none, ∅, [], ∅, fun _ => [], []⟩

variable (s : Store)

def getCPUMeterState (processorId reqFeature : String) (featureData : List UInt8) :
    MeterStateFeature where
  odataId := processorsPath ++ processorId ++ "/Oem/Intel/" ++ reqFeature
  featureAuthDevice := processorsPath ++ processorId
  name := reqFeature
  id := processorId ++ reqFeature
  enabled := !featureData.isEmpty &&
    ((s.ondemandList (processorId ++ reqFeature)).map (·.signalResponseSuccess)).getD false
  featureData := featureData

def erase (id : String) : Store :=
  { s with ondemandList := Function.update s.ondemandList id none }

def closeFd (fd : ℕ) : Option Store :=
  (Handles.close s.opened fd).map fun opened => { s with opened := opened }

/-- A new task, and the entry that it will complete. -/
def createTask (fd : ℕ) (processorId reqFeature : String) : Store :=
  let id := processorId ++ reqFeature
  { s with
    tasks := s.tasks ++ [⟨id, signalMatchStr processorId reqFeature, true⟩]
    ondemandList :=
      Function.update s.ondemandList id (some ⟨fd, false, false, false, s.tasks.length⟩)
    opened := insert fd s.opened
    lost := s.lost ∪ ((s.ondemandList id).map (·.fd)).toFinset
    heard := Function.update s.heard id [] }

/-- Some armed task for `id` matches the signal. -/
def hears (m id : String) : Bool :=
  s.tasks.any fun t => t.matchesSignal m && t.ondemandListIdentifier = id

/-- A signal runs the callback of every armed task that matches it, which is then done. -/
def signal (m : String) (code : ℤ) : Store :=
  { s with
    ondemandList := fun id =>
      if s.hears m id then (s.ondemandList id).map (OndemandData.complete code)
      else s.ondemandList id
    heard := fun id => if s.hears m id then s.heard id ++ [code] else s.heard id
    tasks := s.tasks.map fun t => if t.matchesSignal m then { t with armed := false } else t }

def disarm (task : ℕ) : Store :=
  { s with tasks := s.tasks.modify task fun t => { t with armed := false } }

def expire (id : String) : Store :=
  { s with ondemandList :=
      Function.update s.ondemandList id ((s.ondemandList id).map OndemandData.expire) }

/-- The callback of a task whose timer has expired. -/
def timeout (task : ℕ) : Store :=
  match s.tasks[task]? with
  | none => s
  | some t => if t.armed then (s.expire t.ondemandListIdentifier).disarm task else s

end Store

namespace Server

def init : Server := ⟨.init, [], 0, []⟩

variable (s : Server)

def respond (request : ℕ) (r : Response) : Server :=
  { s with responses := s.responses ++ [(request, r)] }

def callMethod (request : ℕ) (call : MethodCall) : Server :=
  { s with pending := s.pending ++ [⟨request, call⟩] }

/-! ### Answering a request -/

/-- With the closing of the descriptor at its end. -/
def readMeterStateData (request : ℕ) (o : OndemandData) (processorId reqFeature : String)
    (file : FileAnswer) : Option Server :=
  let feature := s.getCPUMeterState processorId reqFeature file.data
  let delivery : Delivery := ⟨o.task, request, s.heard (processorId ++ reqFeature), feature⟩
  (Store.closeFd { s.toStore with deliveries := s.deliveries ++ [delivery] } o.fd).map fun st =>
    { s.respond request (.meterState feature) with toStore := st }

def getMeterStateFeatureData (request : ℕ) (processorId reqFeature : String) (file : FileAnswer) :
    Option Server :=
  let id := processorId ++ reqFeature
  match s.ondemandList id with
  | none => some (s.callMethod request (.meterState processorId reqFeature))
  | some o =>
    if !o.fdStatus then some (s.respond request (.task o.task))
    else if !o.methodSuccess then
      (Store.closeFd (s.erase id) o.fd).map fun st =>
        { s.respond request (.meterState (s.getCPUMeterState processorId reqFeature [])) with
          toStore := st }
    else (s.readMeterStateData request o processorId reqFeature file).map fun s =>
      { s with toStore := s.erase id }

/-- The handler of the mapper's reply. `subtree` has the paths, each with whether a service has it;
the loop looks at the first that fits. -/
def get (processorId reqFeature : String) (subtree : Option (List (String × Bool)))
    (file : FileAnswer) : Option Server :=
  let request := s.requests
  let s := { s with requests := request + 1 }
  if reqFeature = "" then some (s.respond request .internalError)
  else
    match subtree with
    | none => some (s.respond request .internalError)
    | some subtree =>
      match subtree.find? fun e => e.1.endsWith processorId && e.2 with
      | none => some (s.respond request (.resourceNotFound "OnDemandFeature" reqFeature))
      | some e =>
        if reqFeature = "MeteringFeature" ∨ reqFeature = "StateFeature" then
          s.getMeterStateFeatureData request processorId reqFeature file
        else if reqFeature = "ProvisionFeature" ∨ reqFeature = "DynamicFeature" then
          some (s.callMethod request (.provisionDynamic processorId reqFeature e.1))
        else some (s.respond request (.resourceNotFound "OnDemandFeature" reqFeature))

/-! ### Replies to method calls -/

/-- `createFeaureTaskCallback`: `dup` gives an unused number, or fails. -/
def meterStateReply (k : Handles.Source) (request : ℕ) (processorId reqFeature : String)
    (answer : Option ℤ) (dups : Bool) : Server :=
  match answer with
  | none => s.respond request .internalError
  | some ondemandResponse =>
    if ondemandResponse = OnDemandResponseCode.ondemandSuccess.toInt then
      match if dups then k.allocate s.opened else none with
      | none => s.respond request (.meterState (s.getCPUMeterState processorId reqFeature []))
      | some fd =>
        { s.respond request (.task s.tasks.length) with
          toStore := s.createTask fd processorId reqFeature }
    else if ondemandResponse = OnDemandResponseCode.ondemandMethodInProgress.toInt then
      s.respond request (.serviceTemporarilyUnavailable "60")
    else s.respond request .internalError

def licenseOf (reqFeature : String) : String :=
  if reqFeature = "ProvisionFeature" then "ProvisionLicense" else "DynamicLicense"

def getCPUProvisionDynamic (processorId reqFeature : String) (featureEnabled : Bool) :
    ProvisionDynamicFeature where
  odataId := processorsPath ++ processorId ++ "/Oem/Intel/" ++ reqFeature
  featureAuthDevice := processorsPath ++ processorId
  name := reqFeature
  id := processorId ++ reqFeature
  enabled := featureEnabled
  featureAuthLicense :=
    if featureEnabled then
      some ("/redfish/v1/LicenseService/Licenses/" ++ licenseOf reqFeature ++ processorId)
    else none

def provisionDynamicReply (request : ℕ) (processorId reqFeature : String) :
    Option Bool → Server
  | none => s.respond request .internalError
  | some featureEnabled => s.respond request
      (.provisionDynamic (getCPUProvisionDynamic processorId reqFeature featureEnabled))

/-- The reply to the call that a request has made; only the part for that method is looked at. -/
def reply (k : Handles.Source) (request : ℕ) (a : Answer) : Server :=
  match s.pending.find? fun p => p.request = request with
  | none => s
  | some p =>
    let s := { s with pending := s.pending.filter fun p => p.request ≠ request }
    match p.call with
    | .meterState processorId reqFeature =>
      s.meterStateReply k request processorId reqFeature a.code a.dups
    | .provisionDynamic processorId reqFeature _ =>
      s.provisionDynamicReply request processorId reqFeature a.featureEnabled

end Server

/-- `evict`: a task is dropped without its callback, because there are too many. -/
inductive Event
  | get (processorId reqFeature : String) (subtree : Option (List (String × Bool)))
      (file : FileAnswer)
  | reply (request : ℕ) (a : Answer)
  | signal (m : String) (code : ℤ)
  | timeout (task : ℕ)
  | evict (task : ℕ)
  deriving DecidableEq

/-- Undefined where a descriptor is closed that is not open. -/
def Server.step (k : Handles.Source) (s : Server) : Event → Option Server
  | .get processorId reqFeature subtree file => s.get processorId reqFeature subtree file
  | .reply request a => some (s.reply k request a)
  | .signal m code => some { s with toStore := s.signal m code }
  | .timeout task => some { s with toStore := s.timeout task }
  | .evict task => some { s with toStore := s.disarm task }

end MetaCommon.OnDemand
