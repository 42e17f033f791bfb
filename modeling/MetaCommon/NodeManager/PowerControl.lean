import Mathlib.Data.Int.Notation
import Mathlib.Data.List.Basic
import Mathlib.Tactic.Common
import MetaCommon.Lib.Runs

/-!
# The power control resources of the node manager

The power resource of a chassis has an array "PowerControl" with one element for the system, for
each component, and for each group of components. `collectNmDmtfData` fills it and asks the node
manager for the values, which come in later in any order. The functions for one element are also
used when a single element is asked for by its member id.
-/

namespace MetaCommon.NodeManager

abbrev DeviceIndex := BitVec 8

def allDevices : DeviceIndex := 255

def dmtfPowerPolicyId : String := "DmtfPower"
def powerRootNode : ℕ := 0
def tempNode : ℕ := 1
def cpuDomainId : String := "CPUSubsystem"
def memoryDomainId : String := "MemorySubsystem"
def pcieDomainId : String := "PCIe"
def dcTotalPowerDomainId : String := "DCTotalPlatformPower"

def toDecimal (deviceIndex : DeviceIndex) : String := Nat.repr deviceIndex.toNat

/-- `nmPolicyName` of a component. -/
def nmPolicyName (type : String) (deviceIndex : DeviceIndex) : String :=
  dmtfPowerPolicyId ++ "_" ++ type ++ toDecimal deviceIndex

/-- `nmPolicyName` of an aggregate. -/
def nmAggregatePolicyName (type : String) : String :=
  if type ≠ "0" then dmtfPowerPolicyId ++ "_" ++ type else dmtfPowerPolicyId

/-- `/redfish/v1/Chassis/<chassisId>/Power/PowerControl/<memberId>`. -/
def odataId (chassisId memberId : String) : String :=
  "/redfish/v1/Chassis/" ++ chassisId ++ "/Power/PowerControl/" ++ memberId

def powerControlType : String := "#Power.v1_1_0.PowerControl"

/-! ### The response -/

inductive Value
  | null
  | nan
  | number (n : ℤ)
  | text (s : String)
deriving DecidableEq

/-- What identifies an element and relates it to others. The items of "RelatedItem" are the
"@odata.id" of other elements. -/
structure Header where
  memberId : Option String
  name : Option String
  odataId : Option String
  odataType : Option String
  relatedItemCount : Option ℕ
  relatedItem : Option (List (Option String))
deriving DecidableEq

/-- An element of "PowerControl": its header, and the values under other keys. -/
structure Entry where
  header : Header
  values : List (List String × Value)
deriving DecidableEq

def Entry.null : Entry := ⟨⟨none, none, none, none, none, none⟩, []⟩

def Entry.setValue (e : Entry) (key : List String) (v : Value) : Entry :=
  { e with values := e.values.filter (fun entry => entry.1 ≠ key) ++ [(key, v)] }

/-- What is asked of the node manager for an element. -/
inductive Query
  | limit (domainId policyId : String)
  | allLimitsCapabilities (domainId : String) (componentId : DeviceIndex)
  | capabilities (domainId : String)
  | policyStatistics (domainId policyId : String)
  | domainStatistics (domainId : String)
  | powerLimit (domainId policyId : String)
  | oem (domainId policyId : String)
  | powerMetrics (domainId policyId : String)
  | status (domainId policyId : String)
deriving DecidableEq

/-- The keys under which the answer is put. -/
def Query.keys : Query → List (List String)
  | .limit _ _ => [["PowerRequestedWatts"], ["PowerAllocatedWatts"]]
  | .allLimitsCapabilities _ _ => [["PowerCapacityWatts"]]
  | .capabilities _ => [["PowerCapacityWatts"]]
  | .policyStatistics _ _ => [["PowerConsumedWatts"]]
  | .domainStatistics _ => [["PowerConsumedWatts"]]
  | .powerLimit _ _ => [["PowerLimit", "LimitInWatts"], ["PowerLimit", "CorrectionInMs"],
      ["PowerLimit", "LimitException"]]
  | .oem _ _ => [["Oem", "OpenBmc", "@odata.type"], ["Oem", "OpenBmc", "PowerLimitStorage"]]
  | .powerMetrics _ _ => [["PowerMetrics", "MaxConsumedWatts"], ["PowerMetrics", "MinConsumedWatts"],
      ["PowerMetrics", "AverageConsumedWatts"], ["PowerMetrics", "IntervalInMin"]]
  | .status _ _ => [["Status", "State"], ["Status", "Health"]]

/-- A call under way, for the element at `idx`. -/
structure Call where
  idx : ℕ
  query : Query
deriving DecidableEq

/-- The array, the calls that were made, and the places whose "MemberId" was written, in order. -/
structure Response where
  powerControl : List Entry
  calls : List Call
  memberIdWrites : List ℕ

namespace Response

/-- `json["PowerControl"]` is an empty array at first. -/
def start : Response := ⟨[], [], []⟩

/-- A change of `json["PowerControl"][idx]`: the array is filled up with nulls to that place. -/
def modify (r : Response) (idx : ℕ) (f : Entry → Entry) : Response :=
  { r with powerControl := (r.powerControl.rightpad (idx + 1) .null).modify idx f }

def setHeader (r : Response) (idx : ℕ) (f : Header → Header) : Response :=
  r.modify idx fun e => { e with header := f e.header }

def header (r : Response) (idx : ℕ) : Header := (r.powerControl.getD idx .null).header

def setMemberId (r : Response) (idx : ℕ) (memberId : String) : Response :=
  { r.setHeader idx fun h => { h with memberId := some memberId } with
    memberIdWrites := r.memberIdWrites ++ [idx] }

/-- `json["PowerControl"][idx]["RelatedItem"].push_back({{"@odata.id", …}})`. -/
def pushRelatedItem (r : Response) (idx : ℕ) (odataId : Option String) : Response :=
  r.setHeader idx fun h => { h with relatedItem := some (h.relatedItem.getD [] ++ [odataId]) }

/-- The first values of some keys, and the calls for what they will be. -/
def ask (r : Response) (idx : ℕ) (values : List (List String × Value)) (queries : List Query) :
    Response :=
  { r.modify idx fun e => values.foldl (fun e v => e.setValue v.1 v.2) e with
    calls := r.calls ++ queries.map (⟨idx, ·⟩) }

def getAllocatedAndRequestedWatts (r : Response) (domainId policyId : String) (idx : ℕ) : Response :=
  r.ask idx [(["PowerRequestedWatts"], .null), (["PowerAllocatedWatts"], .null)]
    [.limit domainId policyId]

def getComponentCapacityConsumedWattsInputRange (r : Response) (domainId policyId : String)
    (componentId : DeviceIndex) (idx : ℕ) : Response :=
  r.ask idx [(["PowerCapacityWatts"], .null), (["PowerConsumedWatts"], .null)]
    [.allLimitsCapabilities domainId componentId, .policyStatistics domainId policyId]

def getCapacityConsumedWattsInputRange (r : Response) (domainId : String) (idx : ℕ) : Response :=
  r.ask idx [(["PowerCapacityWatts"], .null), (["PowerConsumedWatts"], .null)]
    [.capabilities domainId, .domainStatistics domainId]

/-- `numeric_limits` of a reference has no NaN, so the NaN itself is stored. -/
def getPowerLimit (r : Response) (domainId policyId : String) (idx : ℕ) : Response :=
  r.ask idx [(["PowerLimit", "LimitException"], .nan), (["PowerLimit", "LimitInWatts"], .nan),
    (["PowerLimit", "CorrectionInMs"], .nan)] [.powerLimit domainId policyId]

def getOem (r : Response) (domainId policyId : String) (idx : ℕ) : Response :=
  r.ask idx [(["Oem", "OpenBmc", "@odata.type"], .text "#OemPower.PowerControl"),
    (["Oem", "OpenBmc", "PowerLimitStorage"], .null)] [.oem domainId policyId]

/-- The NaN of an integer type is 0. -/
def getPowerMetrics (r : Response) (domainId policyId : String) (idx : ℕ) : Response :=
  r.ask idx [(["PowerMetrics", "AverageConsumedWatts"], .number 0),
    (["PowerMetrics", "IntervalInMin"], .null), (["PowerMetrics", "MaxConsumedWatts"], .null),
    (["PowerMetrics", "MinConsumedWatts"], .null)] [.powerMetrics domainId policyId]

def getStatus (r : Response) (domainId policyId : String) (idx : ℕ) : Response :=
  r.ask idx [] [.status domainId policyId]

/-! ### The elements -/

def getPowerControlComponentNode (chassisId : String) (r : Response) (domainId : String)
    (deviceIndex : DeviceIndex) (powerControlIdx : ℕ) (name : String) (aggregatorIdx : ℕ) :
    Response :=
  let nameId := name ++ toDecimal deviceIndex
  let r := r.setHeader powerControlIdx fun h => { h with relatedItemCount := some 0 }
  let r := r.setMemberId powerControlIdx nameId
  let r := r.setHeader powerControlIdx fun h =>
    { h with name := some (nameId ++ " Power Control"), odataId := some (odataId chassisId nameId) }
  let r := r.pushRelatedItem powerRootNode (r.header powerControlIdx).odataId
  let r := r.pushRelatedItem aggregatorIdx (r.header powerControlIdx).odataId
  let r := r.setHeader powerControlIdx fun h =>
    { h with relatedItem := some [], odataType := some powerControlType }
  let policyId := nmPolicyName name deviceIndex
  let r := r.getAllocatedAndRequestedWatts domainId policyId powerControlIdx
  let r := r.getComponentCapacityConsumedWattsInputRange domainId policyId deviceIndex powerControlIdx
  let r := r.getPowerLimit domainId policyId powerControlIdx
  let r := r.getOem domainId policyId powerControlIdx
  let r := r.getPowerMetrics domainId policyId powerControlIdx
  r.getStatus domainId policyId powerControlIdx

def aggregateName (aggregatorName : String) : String :=
  if aggregatorName = "0" then "System Power Control" else aggregatorName ++ " Power Control"

def getPowerControlAggregateNode (chassisId : String) (r : Response) (aggregatorName : String)
    (powerControlIdx : ℕ) (domainId : String) : Response :=
  let r := r.setMemberId powerControlIdx aggregatorName
  let r := r.setHeader powerControlIdx fun h =>
    { h with
      name := some (aggregateName aggregatorName)
      odataId := some (odataId chassisId aggregatorName)
      odataType := some powerControlType }
  let r := r.pushRelatedItem powerRootNode (r.header powerControlIdx).odataId
  let policyId := nmAggregatePolicyName aggregatorName
  let r := r.getAllocatedAndRequestedWatts domainId policyId powerControlIdx
  let r := r.getCapacityConsumedWattsInputRange domainId powerControlIdx
  let r := r.getPowerLimit domainId policyId powerControlIdx
  let r := r.getOem domainId policyId powerControlIdx
  let r := r.getPowerMetrics domainId policyId powerControlIdx
  r.getStatus domainId policyId powerControlIdx

/-- The loop of `getNmDmtfGroup` over the components, from the place `idx` on. -/
def getComponentNodes (chassisId : String) (r : Response) (idx : ℕ) (components : List DeviceIndex)
    (aggregatorIdx : ℕ) (nodePrefixName domainId : String) : Response :=
  match components with
  | [] => r
  | deviceIndex :: components =>
    getComponentNodes chassisId
      (getPowerControlComponentNode chassisId r domainId deviceIndex idx nodePrefixName aggregatorIdx)
      (idx + 1) components aggregatorIdx nodePrefixName domainId

def getNmDmtfGroup (chassisId : String) (r : Response) (powerControlOffsetIdx : ℕ)
    (components : List DeviceIndex) (aggregatorName nodePrefixName domainId : String) : Response :=
  let aggregatorIdx := powerControlOffsetIdx + components.length
  let r := r.setHeader aggregatorIdx fun h =>
    { h with relatedItemCount := some components.length, relatedItem := some [] }
  let r := getPowerControlAggregateNode chassisId r aggregatorName aggregatorIdx domainId
  getComponentNodes chassisId r powerControlOffsetIdx components aggregatorIdx nodePrefixName domainId

def collectNmDmtfData (chassisId : String) (processors memories accelerators : List DeviceIndex) :
    Response :=
  let r := start.setHeader powerRootNode fun h =>
    { h with
      relatedItemCount := some (processors.length + memories.length + accelerators.length + 3) }
  let r := r.setMemberId powerRootNode "0"
  let r := r.setHeader powerRootNode fun h =>
    { h with
      name := some "System Power Control"
      odataId := some ("/redfish/v1/Chassis/" ++ chassisId ++ "/Power/PowerControl/0")
      odataType := some powerControlType }
  let r := r.getAllocatedAndRequestedWatts dcTotalPowerDomainId dmtfPowerPolicyId powerRootNode
  let r := r.getCapacityConsumedWattsInputRange dcTotalPowerDomainId powerRootNode
  let r := r.getPowerLimit dcTotalPowerDomainId dmtfPowerPolicyId powerRootNode
  let r := r.getOem dcTotalPowerDomainId dmtfPowerPolicyId powerRootNode
  let r := r.getPowerMetrics dcTotalPowerDomainId dmtfPowerPolicyId powerRootNode
  let r := r.getStatus dcTotalPowerDomainId dmtfPowerPolicyId powerRootNode
  let r := getNmDmtfGroup chassisId r 1 accelerators "Accelerators" "Accelerator" pcieDomainId
  let r := getNmDmtfGroup chassisId r (2 + accelerators.length) processors "Processors" "Processor"
    cpuDomainId
  getNmDmtfGroup chassisId r (3 + accelerators.length + processors.length) memories "Memories"
    "Memory" memoryDomainId

/-! ### Replies -/

/-- The answer to a call, and what it puts under the keys. A failed one puts nothing there. -/
structure Reply where
  call : ℕ
  values : List (List String × Value)

def reply (r : Response) (a : Reply) : Response :=
  match r.calls[a.call]? with
  | none => r
  | some call =>
    (a.values.filter fun v => v.1 ∈ call.query.keys).foldl
      (fun r v => r.modify call.idx fun e => e.setValue v.1 v.2) r

end Response

end MetaCommon.NodeManager
