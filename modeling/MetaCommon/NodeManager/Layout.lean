import Mathlib.Data.List.GetD
import Mathlib.Data.List.Induction
import Mathlib.Data.List.Range
import MetaCommon.NodeManager.PowerControl

/-!
# The layout of the power controls

The elements of "PowerControl" stand in a fixed order: the system, then for each subsystem its
components and their aggregate. `collectNmDmtfData` computes the places of a subsystem from the
numbers of components of those before it. Every place up to the last is written once, and the
replies change no header.
-/

namespace MetaCommon.NodeManager

open Runs

inductive Subsystem
  | pcie
  | cpu
  | memory
deriving DecidableEq

namespace Subsystem

def domainId : Subsystem → String
  | pcie => pcieDomainId
  | cpu => cpuDomainId
  | memory => memoryDomainId

def componentName : Subsystem → String
  | pcie => "Accelerator"
  | cpu => "Processor"
  | memory => "Memory"

def aggregatorName : Subsystem → String
  | pcie => "Accelerators"
  | cpu => "Processors"
  | memory => "Memories"

end Subsystem

inductive Kind
  | aggregate
  | component (deviceIndex : DeviceIndex)
deriving DecidableEq

/-- What an element shows: the values of a policy of a domain, as those of a component or of an
aggregate. -/
structure View where
  domainId : String
  policyId : String
  kind : Kind
deriving DecidableEq

/-- How the consumption is asked for is what tells a component from an aggregate. -/
def View.capacityQueries (v : View) : List Query :=
  match v.kind with
  | .component deviceIndex =>
    [.allLimitsCapabilities v.domainId deviceIndex, .policyStatistics v.domainId v.policyId]
  | .aggregate => [.capabilities v.domainId, .domainStatistics v.domainId]

def View.queries (v : View) : List Query :=
  [.limit v.domainId v.policyId] ++ v.capacityQueries ++
    [.powerLimit v.domainId v.policyId, .oem v.domainId v.policyId,
      .powerMetrics v.domainId v.policyId, .status v.domainId v.policyId]

/-- What an element of "PowerControl" is about. -/
inductive Node
  | system
  | component (s : Subsystem) (deviceIndex : DeviceIndex)
  | aggregate (s : Subsystem)
deriving DecidableEq

namespace Node

def memberId : Node → String
  | system => "0"
  | component s deviceIndex => s.componentName ++ toDecimal deviceIndex
  | aggregate s => s.aggregatorName

def name : Node → String
  | system => "System Power Control"
  | node => node.memberId ++ " Power Control"

def domainId : Node → String
  | system => dcTotalPowerDomainId
  | component s _ => s.domainId
  | aggregate s => s.domainId

def policyId : Node → String
  | system => dmtfPowerPolicyId
  | component s deviceIndex => nmPolicyName s.componentName deviceIndex
  | aggregate s => nmAggregatePolicyName s.aggregatorName

def kind : Node → Kind
  | component _ deviceIndex => .component deviceIndex
  | _ => .aggregate

def view (node : Node) : View := ⟨node.domainId, node.policyId, node.kind⟩

def header (chassisId : String) (node : Node) (count : ℕ)
    (items : Option (List (Option String))) : Header :=
  ⟨some node.memberId, some node.name, some (odataId chassisId node.memberId), some powerControlType,
    some count, items⟩

end Node

/-- A subsystem's components and their aggregate. -/
def Subsystem.nodes (s : Subsystem) (components : List DeviceIndex) : List Node :=
  components.map (.component s) ++ [.aggregate s]

theorem Subsystem.nodes_cons (s : Subsystem) (deviceIndex : DeviceIndex)
    (components : List DeviceIndex) :
    s.nodes (deviceIndex :: components) = .component s deviceIndex :: s.nodes components := rfl

theorem Subsystem.length_nodes (s : Subsystem) (components : List DeviceIndex) :
    (s.nodes components).length = components.length + 1 := by
  simp [Subsystem.nodes]

def layout (processors memories accelerators : List DeviceIndex) : List Node :=
  .system :: (Subsystem.pcie.nodes accelerators ++ Subsystem.cpu.nodes processors ++
    Subsystem.memory.nodes memories)

namespace Response

/-! ### What the operations do to one element -/

/-- What is asked for the element at a place. -/
def queriesAt (r : Response) (j : ℕ) : List Query :=
  (r.calls.filter fun call => call.idx = j).map Call.query

/-- The items of an element that gets another one. -/
def push (h : Header) (item : Option String) : Header :=
  { h with relatedItem := some (h.relatedItem.getD [] ++ [item]) }

section Operations

variable (r : Response) (idx j : ℕ)

theorem getD_modify (f : Entry → Entry) :
    (r.modify idx f).powerControl.getD j .null =
      if j = idx then f (r.powerControl.getD idx .null) else r.powerControl.getD j .null := by
  have hpad : ∀ k, (r.powerControl.rightpad (idx + 1) .null).getD k .null =
      r.powerControl.getD k .null := by
    intro k
    unfold List.rightpad
    by_cases hk : k < r.powerControl.length
    · exact List.getD_append _ _ _ _ hk
    · have hk : r.powerControl.length ≤ k := Nat.le_of_not_lt hk
      rw [List.getD_append_right _ _ _ _ hk, List.getD_eq_default _ _ hk]
      by_cases hj : k - r.powerControl.length < idx + 1 - r.powerControl.length
      · exact List.getD_replicate _ hj
      · exact List.getD_eq_default _ _ (by rw [List.length_replicate]; omega)
  have hlen : idx < (r.powerControl.rightpad (idx + 1) .null).length := by
    unfold List.rightpad
    rw [List.length_append, List.length_replicate]
    omega
  rw [← hpad idx, ← hpad j]
  unfold modify
  simp only [List.getD_eq_getElem?_getD, List.getElem?_modify]
  by_cases hj : idx = j
  · subst hj
    rw [List.getElem?_eq_getElem hlen]
    simp
  · simp [hj, Ne.symm hj]

@[simp] theorem length_modify (f : Entry → Entry) :
    (r.modify idx f).powerControl.length = max r.powerControl.length (idx + 1) := by
  simp only [modify, List.length_modify, List.rightpad, List.length_append, List.length_replicate]
  omega

@[simp] theorem header_modify_values (f : Entry → Entry) (hf : ∀ e, (f e).header = e.header) :
    (r.modify idx f).header j = r.header j := by
  unfold header
  rw [getD_modify]
  split_ifs with h
  · rw [hf, h]
  · rfl

@[simp] theorem header_setHeader (f : Header → Header) :
    (r.setHeader idx f).header j = if j = idx then f (r.header idx) else r.header j := by
  unfold header setHeader
  rw [getD_modify]
  split_ifs <;> rfl

@[simp] theorem header_setMemberId (memberId : String) :
    (r.setMemberId idx memberId).header j =
      if j = idx then { r.header idx with memberId := some memberId } else r.header j :=
  header_setHeader r idx j fun h => { h with memberId := some memberId }

@[simp] theorem header_pushRelatedItem (item : Option String) :
    (r.pushRelatedItem idx item).header j =
      if j = idx then push (r.header idx) item else r.header j :=
  header_setHeader r idx j fun h => push h item

theorem header_foldl_setValue (values : List (List String × Value)) (e : Entry) :
    (values.foldl (fun e v => e.setValue v.1 v.2) e).header = e.header := by
  induction values generalizing e with
  | nil => rfl
  | cons v values ih => rw [List.foldl_cons, ih]; rfl

@[simp] theorem header_ask (values : List (List String × Value)) (queries : List Query) :
    (r.ask idx values queries).header j = r.header j :=
  header_modify_values r idx j _ (header_foldl_setValue values)

@[simp] theorem queriesAt_ask (values : List (List String × Value)) (queries : List Query) :
    (r.ask idx values queries).queriesAt j =
      if j = idx then r.queriesAt j ++ queries else r.queriesAt j := by
  unfold queriesAt ask
  rw [List.filter_append, List.map_append, List.filter_map, List.map_map]
  split_ifs with h
  · subst h
    simp [Function.comp_def]
  · simp [Function.comp_def, Ne.symm h]

@[simp] theorem queriesAt_setHeader (f : Header → Header) :
    (r.setHeader idx f).queriesAt j = r.queriesAt j := rfl

@[simp] theorem queriesAt_setMemberId (memberId : String) :
    (r.setMemberId idx memberId).queriesAt j = r.queriesAt j := rfl

@[simp] theorem queriesAt_pushRelatedItem (item : Option String) :
    (r.pushRelatedItem idx item).queriesAt j = r.queriesAt j := rfl

@[simp] theorem length_ask (values : List (List String × Value)) (queries : List Query) :
    (r.ask idx values queries).powerControl.length = max r.powerControl.length (idx + 1) :=
  length_modify r idx _

@[simp] theorem length_setHeader (f : Header → Header) :
    (r.setHeader idx f).powerControl.length = max r.powerControl.length (idx + 1) :=
  length_modify r idx _

@[simp] theorem length_setMemberId (memberId : String) :
    (r.setMemberId idx memberId).powerControl.length = max r.powerControl.length (idx + 1) :=
  length_modify r idx _

@[simp] theorem length_pushRelatedItem (item : Option String) :
    (r.pushRelatedItem idx item).powerControl.length = max r.powerControl.length (idx + 1) :=
  length_modify r idx _

@[simp] theorem memberIdWrites_setHeader (f : Header → Header) :
    (r.setHeader idx f).memberIdWrites = r.memberIdWrites := rfl

end Operations

section Nodes

variable (chassisId : String) (r : Response) (s : Subsystem) (deviceIndex : DeviceIndex)
  (idx aggregatorIdx : ℕ)

theorem component_header (hidx : idx ≠ 0) (hne : idx ≠ aggregatorIdx) (hagg : aggregatorIdx ≠ 0)
    (j : ℕ) :
    (getPowerControlComponentNode chassisId r s.domainId deviceIndex idx s.componentName
      aggregatorIdx).header j =
      if j = idx then (Node.component s deviceIndex).header chassisId 0 (some [])
      else if j = 0 ∨ j = aggregatorIdx then
        push (r.header j) (some (odataId chassisId (Node.component s deviceIndex).memberId))
      else r.header j := by
  simp only [getPowerControlComponentNode, getStatus, getPowerMetrics, getOem, getPowerLimit,
    getComponentCapacityConsumedWattsInputRange, getAllocatedAndRequestedWatts, powerRootNode,
    header_ask, header_setHeader, header_pushRelatedItem, header_setMemberId, if_pos, if_neg hidx,
    if_neg hne, if_neg hidx.symm, if_neg hne.symm, if_neg hagg]
  by_cases hj : j = idx
  · rw [if_pos hj, if_pos hj]
    rfl
  · simp only [if_neg hj]
    by_cases hja : j = aggregatorIdx
    · rw [if_pos hja, if_pos (Or.inr hja), hja]
      rfl
    · rw [if_neg hja]
      by_cases hj0 : j = 0
      · rw [if_pos hj0, if_pos (Or.inl hj0), hj0]
        rfl
      · simp only [hj0, hja, if_false, or_self]

theorem component_queriesAt (domainId name : String) (j : ℕ) :
    (getPowerControlComponentNode chassisId r domainId deviceIndex idx name
      aggregatorIdx).queriesAt j =
      if j = idx then
        r.queriesAt j ++
          View.queries ⟨domainId, nmPolicyName name deviceIndex, .component deviceIndex⟩
      else r.queriesAt j := by
  simp only [getPowerControlComponentNode, getStatus, getPowerMetrics, getOem, getPowerLimit,
    getComponentCapacityConsumedWattsInputRange, getAllocatedAndRequestedWatts, queriesAt_ask,
    queriesAt_setHeader, queriesAt_pushRelatedItem, queriesAt_setMemberId]
  split_ifs
  · simp only [List.append_assoc]
    rfl
  · rfl

theorem component_length :
    (getPowerControlComponentNode chassisId r s.domainId deviceIndex idx s.componentName
      aggregatorIdx).powerControl.length =
      max r.powerControl.length (max (idx + 1) (aggregatorIdx + 1)) := by
  simp only [getPowerControlComponentNode, getStatus, getPowerMetrics, getOem, getPowerLimit,
    getComponentCapacityConsumedWattsInputRange, getAllocatedAndRequestedWatts, powerRootNode,
    length_ask, length_setHeader, length_pushRelatedItem, length_setMemberId]
  ac_nf
  omega

theorem component_memberIdWrites :
    (getPowerControlComponentNode chassisId r s.domainId deviceIndex idx s.componentName
      aggregatorIdx).memberIdWrites = r.memberIdWrites ++ [idx] := rfl

/-- The names and queries of an aggregate, with the related items that its element has already. -/
theorem aggregate_header (hidx : idx ≠ 0) (j : ℕ) :
    (getPowerControlAggregateNode chassisId r s.aggregatorName idx s.domainId).header j =
      if j = idx then
        { (Node.aggregate s).header chassisId 0 none with
          relatedItemCount := (r.header idx).relatedItemCount
          relatedItem := (r.header idx).relatedItem }
      else if j = 0 then
        push (r.header j) (some (odataId chassisId (Node.aggregate s).memberId))
      else r.header j := by
  have hname : aggregateName s.aggregatorName = (Node.aggregate s).name := by cases s <;> rfl
  simp only [getPowerControlAggregateNode, getStatus, getPowerMetrics, getOem, getPowerLimit,
    getCapacityConsumedWattsInputRange, getAllocatedAndRequestedWatts, powerRootNode, header_ask,
    header_setHeader, header_pushRelatedItem, header_setMemberId, if_pos, if_neg hidx.symm]
  by_cases hj0 : j = 0
  · rw [if_pos hj0, if_neg (hj0 ▸ hidx.symm), if_pos hj0, hj0]
    rfl
  · rw [if_neg hj0]
    split_ifs
    · rw [hname]
      rfl
    · rfl

theorem aggregate_queriesAt (domainId name : String) (j : ℕ) :
    (getPowerControlAggregateNode chassisId r name idx domainId).queriesAt j =
      if j = idx then
        r.queriesAt j ++ View.queries ⟨domainId, nmAggregatePolicyName name, .aggregate⟩
      else r.queriesAt j := by
  simp only [getPowerControlAggregateNode, getStatus, getPowerMetrics, getOem, getPowerLimit,
    getCapacityConsumedWattsInputRange, getAllocatedAndRequestedWatts, queriesAt_ask,
    queriesAt_setHeader, queriesAt_pushRelatedItem, queriesAt_setMemberId]
  split_ifs
  · simp only [List.append_assoc]
    rfl
  · rfl

theorem aggregate_length :
    (getPowerControlAggregateNode chassisId r s.aggregatorName idx s.domainId).powerControl.length =
      max r.powerControl.length (idx + 1) := by
  simp only [getPowerControlAggregateNode, getStatus, getPowerMetrics, getOem, getPowerLimit,
    getCapacityConsumedWattsInputRange, getAllocatedAndRequestedWatts, powerRootNode, length_ask,
    length_setHeader, length_pushRelatedItem, length_setMemberId]
  ac_rfl

theorem aggregate_memberIdWrites :
    (getPowerControlAggregateNode chassisId r s.aggregatorName idx s.domainId).memberIdWrites =
      r.memberIdWrites ++ [idx] := rfl

end Nodes

/-! ### What has been laid out -/

/-- The element at a place is that of the node: all its names, as many related items as it counts,
and its queries. -/
def ShowsAt (chassisId : String) (r : Response) (i : ℕ) (node : Node) : Prop :=
  (∃ items, r.header i = node.header chassisId items.length (some items)) ∧
    r.queriesAt i = node.view.queries

/-- The element of the system while the others are made: its count is that of the end, its items are
those of the nodes so far. -/
def RootAt (chassisId : String) (r : Response) (count made : ℕ) : Prop :=
  (∃ items, r.header 0 = Node.system.header chassisId count items ∧
    (items.getD []).length = made) ∧ r.queriesAt 0 = Node.system.view.queries

def BlankAt (r : Response) (i : ℕ) : Prop := r.header i = Entry.null.header ∧ r.queriesAt i = []

/-- The nodes are laid out, and nothing else. -/
structure Laid (chassisId : String) (count : ℕ) (nodes : List Node) (r : Response) : Prop where
  length : r.powerControl.length = nodes.length + 1
  written : r.memberIdWrites.Perm (List.range (nodes.length + 1))
  shows : ∀ i node, nodes[i]? = some node → r.ShowsAt chassisId (i + 1) node
  root : r.RootAt chassisId count nodes.length
  blank : ∀ i, nodes.length < i → r.BlankAt i

/-- The nodes are laid out and, behind places for `rest` components, the aggregate of the subsystem,
which counts the components that are to come. -/
structure InGroup (chassisId : String) (count : ℕ) (s : Subsystem) (nodes : List Node) (rest : ℕ)
    (r : Response) : Prop where
  length : r.powerControl.length = nodes.length + rest + 2
  written : r.memberIdWrites.Perm ((nodes.length + rest + 1) :: List.range (nodes.length + 1))
  shows : ∀ i node, nodes[i]? = some node → r.ShowsAt chassisId (i + 1) node
  aggregate : ∃ items : List (Option String),
    r.header (nodes.length + rest + 1) =
      (Node.aggregate s).header chassisId (items.length + rest) (some items) ∧
    r.queriesAt (nodes.length + rest + 1) = (Node.aggregate s).view.queries
  root : r.RootAt chassisId count (nodes.length + 1)
  blank : ∀ i, nodes.length < i → i ≠ nodes.length + rest + 1 → r.BlankAt i

section Groups

variable {chassisId : String} {r : Response} {s : Subsystem} {nodes : List Node} {count rest : ℕ}

theorem ShowsAt.congr {r' : Response} {i : ℕ} {node : Node} (h : r.ShowsAt chassisId i node)
    (hheader : r'.header i = r.header i) (hqueries : r'.queriesAt i = r.queriesAt i) :
    r'.ShowsAt chassisId i node := by
  unfold ShowsAt
  rw [hheader, hqueries]
  exact h

theorem BlankAt.congr {r' : Response} {i : ℕ} (h : r.BlankAt i)
    (hheader : r'.header i = r.header i) (hqueries : r'.queriesAt i = r.queriesAt i) :
    r'.BlankAt i := ⟨hheader.trans h.1, hqueries.trans h.2⟩

theorem RootAt.push {r' : Response} {made : ℕ} {item : Option String}
    (h : r.RootAt chassisId count made) (hheader : r'.header 0 = Response.push (r.header 0) item)
    (hqueries : r'.queriesAt 0 = r.queriesAt 0) : r'.RootAt chassisId count (made + 1) := by
  obtain ⟨⟨items, hitems, hlen⟩, hq⟩ := h
  refine ⟨⟨some (items.getD [] ++ [item]), ?_, ?_⟩, hqueries.trans hq⟩
  · rw [hheader, hitems]
    rfl
  · simp [hlen]

/-- What holds of the nodes and of one more behind them. -/
theorem forall_getElem?_concat {p : ℕ → Node → Prop} {last : Node}
    (h : ∀ i node, nodes[i]? = some node → p i node) (hlast : p nodes.length last) :
    ∀ i node, (nodes ++ [last])[i]? = some node → p i node := by
  intro i node hi
  rcases Nat.lt_or_ge i nodes.length with hlt | hge
  · rw [List.getElem?_append_left hlt] at hi
    exact h i node hi
  · have hbound := (List.getElem?_eq_some_iff.mp hi).1
    rw [List.length_append, List.length_singleton] at hbound
    obtain rfl : i = nodes.length := by omega
    rw [List.getElem?_concat_length] at hi
    exact Option.some.inj hi ▸ hlast

/-- The aggregate of a group is made, and counts all its components. -/
theorem Laid.aggregate (h : Laid chassisId count nodes r) (n : ℕ) :
    InGroup chassisId count s nodes n
      (getPowerControlAggregateNode chassisId
        (r.setHeader (nodes.length + 1 + n) fun h =>
          { h with relatedItemCount := some n, relatedItem := some [] })
        s.aggregatorName (nodes.length + 1 + n) s.domainId) := by
  have hidx : nodes.length + 1 + n ≠ 0 := by omega
  have hplace : nodes.length + n + 1 = nodes.length + 1 + n := by omega
  have hheader := aggregate_header chassisId
    (r.setHeader (nodes.length + 1 + n) fun h =>
      { h with relatedItemCount := some n, relatedItem := some [] }) s (nodes.length + 1 + n) hidx
  have hqueries := aggregate_queriesAt chassisId
    (r.setHeader (nodes.length + 1 + n) fun h =>
      { h with relatedItemCount := some n, relatedItem := some [] }) (nodes.length + 1 + n)
    s.domainId s.aggregatorName
  have hother : ∀ i, i ≠ 0 → i ≠ nodes.length + 1 + n → _ = r.header i := fun i h0 hi =>
    (hheader i).trans (by rw [if_neg hi, if_neg h0, header_setHeader, if_neg hi])
  have hotherq : ∀ i, i ≠ nodes.length + 1 + n → _ = r.queriesAt i := fun i hi =>
    (hqueries i).trans (by rw [if_neg hi, queriesAt_setHeader])
  refine ⟨?_, ?_, fun i node hi => ?_, ?_, ?_, fun i hi hne => ?_⟩
  · rw [aggregate_length, length_setHeader, h.length]
    omega
  · rw [aggregate_memberIdWrites, memberIdWrites_setHeader, hplace]
    exact (List.perm_append_comm.trans (h.written.cons _))
  · have hlt : i < nodes.length := (List.getElem?_eq_some_iff.mp hi).1
    exact (h.shows i node hi).congr (hother _ (by omega) (by omega)) (hotherq _ (by omega))
  · refine ⟨[], ?_, ?_⟩
    · rw [hplace, hheader, if_pos rfl, header_setHeader, if_pos rfl]
      rw [List.length_nil, Nat.zero_add]
      rfl
    · rw [hplace, hqueries, if_pos rfl, queriesAt_setHeader, (h.blank _ (by omega)).2]
      rfl
  · have hroot := hheader 0
    rw [if_neg (Ne.symm hidx), if_pos rfl, header_setHeader, if_neg (Ne.symm hidx)] at hroot
    exact h.root.push hroot (hotherq 0 (Ne.symm hidx))
  · exact (h.blank i hi).congr (hother _ (by omega) (by omega)) (hotherq _ (by omega))

/-- One component is made in the place behind the nodes. -/
theorem InGroup.component (h : InGroup chassisId count s nodes (rest + 1) r)
    (deviceIndex : DeviceIndex) :
    InGroup chassisId count s (nodes ++ [.component s deviceIndex]) rest
      (getPowerControlComponentNode chassisId r s.domainId deviceIndex (nodes.length + 1)
        s.componentName (nodes.length + 1 + (rest + 1))) := by
  have hidx : nodes.length + 1 ≠ 0 := by omega
  have hne : nodes.length + 1 ≠ nodes.length + 1 + (rest + 1) := by omega
  have hagg : nodes.length + 1 + (rest + 1) ≠ 0 := by omega
  have hplace : (nodes ++ [Node.component s deviceIndex]).length + rest + 1 =
      nodes.length + 1 + (rest + 1) := by
    rw [List.length_append, List.length_singleton]
    omega
  have hplace' : nodes.length + (rest + 1) + 1 = nodes.length + 1 + (rest + 1) := by omega
  have hheader := component_header chassisId r s deviceIndex (nodes.length + 1)
    (nodes.length + 1 + (rest + 1)) hidx hne hagg
  have hqueries := component_queriesAt chassisId r deviceIndex (nodes.length + 1)
    (nodes.length + 1 + (rest + 1)) s.domainId s.componentName
  have hother : ∀ i, i ≠ 0 → i ≠ nodes.length + 1 → i ≠ nodes.length + 1 + (rest + 1) →
      _ = r.header i := fun i h0 hi ha =>
    (hheader i).trans (by rw [if_neg hi, if_neg (by simp [h0, ha])])
  have hotherq : ∀ i, i ≠ nodes.length + 1 → _ = r.queriesAt i := fun i hi =>
    (hqueries i).trans (if_neg hi)
  refine ⟨?_, ?_, forall_getElem?_concat (fun i node hi => ?_) ?_, ?_, ?_, fun i hi hia => ?_⟩
  · rw [component_length, h.length, List.length_append, List.length_singleton]
    omega
  · rw [component_memberIdWrites, hplace, List.length_append, List.length_singleton,
      List.range_succ, ← List.cons_append, ← hplace']
    exact h.written.append_right _
  · have hlt := (List.getElem?_eq_some_iff.mp hi).1
    exact (h.shows i node hi).congr (hother _ (by omega) (by omega) (by omega))
      (hotherq _ (by omega))
  · refine ⟨⟨[], ?_⟩, ?_⟩
    · rw [hheader, if_pos rfl]
      rfl
    · rw [hqueries, if_pos rfl, (h.blank _ (by omega) (by omega)).2]
      rfl
  · obtain ⟨items, hitems, hq⟩ := h.aggregate
    rw [hplace'] at hitems hq
    refine ⟨items ++ [some (odataId chassisId (Node.component s deviceIndex).memberId)], ?_, ?_⟩
    · rw [hplace, hheader, if_neg hne.symm, if_pos (Or.inr rfl), hitems, List.length_append,
        List.length_singleton, Nat.add_right_comm]
      rfl
    · rw [hplace, hotherq _ hne.symm, hq]
  · rw [List.length_append, List.length_singleton]
    have hroot := hheader 0
    rw [if_neg hidx.symm, if_pos (Or.inl rfl)] at hroot
    exact h.root.push hroot (hotherq 0 hidx.symm)
  · rw [List.length_append, List.length_singleton] at hi
    rw [hplace] at hia
    exact (h.blank i (by omega) (by omega)).congr (hother _ (by omega) (by omega) hia)
      (hotherq _ (by omega))

/-- A group without a place left for a component is laid out. -/
theorem InGroup.laid (h : InGroup chassisId count s nodes 0 r) :
    Laid chassisId count (nodes ++ [.aggregate s]) r := by
  have hlen : (nodes ++ [Node.aggregate s]).length = nodes.length + 1 := by simp
  refine ⟨?_, ?_, forall_getElem?_concat h.shows ?_, ?_, fun i hi => ?_⟩
  · rw [h.length, hlen]
  · rw [hlen, List.range_succ]
    exact h.written.trans (List.perm_append_singleton _ _).symm
  · obtain ⟨items, hitems, hq⟩ := h.aggregate
    exact ⟨⟨items, hitems⟩, hq⟩
  · rw [hlen]
    exact h.root
  · rw [hlen] at hi
    exact h.blank i (by omega) (by omega)

/-- The components of a group are made in the places before its aggregate. -/
theorem InGroup.components {components : List DeviceIndex}
    (h : InGroup chassisId count s nodes components.length r) :
    Laid chassisId count (nodes ++ s.nodes components)
      (getComponentNodes chassisId r (nodes.length + 1) components
        (nodes.length + 1 + components.length) s.componentName s.domainId) := by
  induction components generalizing r nodes with
  | nil => exact h.laid
  | cons deviceIndex components ih =>
    have hstep := ih (h.component deviceIndex)
    rw [List.length_append, List.length_singleton, List.append_assoc] at hstep
    have hagg : nodes.length + 1 + 1 + components.length =
        nodes.length + 1 + (components.length + 1) := by omega
    rw [hagg] at hstep
    rw [getComponentNodes, Subsystem.nodes_cons, List.length_cons]
    exact hstep

theorem Laid.group (h : Laid chassisId count nodes r) (s : Subsystem)
    (components : List DeviceIndex) :
    Laid chassisId count (nodes ++ s.nodes components)
      (getNmDmtfGroup chassisId r (nodes.length + 1) components s.aggregatorName s.componentName
        s.domainId) :=
  (h.aggregate components.length).components

/-- What `collectNmDmtfData` does before the groups. -/
def systemNode (chassisId : String) (count : ℕ) : Response :=
  let r := start.setHeader powerRootNode fun h => { h with relatedItemCount := some count }
  let r := r.setMemberId powerRootNode "0"
  let r := r.setHeader powerRootNode fun h =>
    { h with
      name := some "System Power Control"
      odataId := some ("/redfish/v1/Chassis/" ++ chassisId ++ "/Power/PowerControl/0")
      odataType := some powerControlType }
  let r := r.getAllocatedAndRequestedWatts dcTotalPowerDomainId dmtfPowerPolicyId powerRootNode
  let r := r.getCapacityConsumedWattsInputRange dcTotalPowerDomainId powerRootNode
  let r := r.getPowerLimit dcTotalPowerDomainId dmtfPowerPolicyId powerRootNode
  let r := r.getOem dcTotalPowerDomainId dmtfPowerPolicyId powerRootNode
  let r := r.getPowerMetrics dcTotalPowerDomainId dmtfPowerPolicyId powerRootNode
  r.getStatus dcTotalPowerDomainId dmtfPowerPolicyId powerRootNode

theorem collectNmDmtfData_eq (chassisId : String)
    (processors memories accelerators : List DeviceIndex) :
    collectNmDmtfData chassisId processors memories accelerators =
      getNmDmtfGroup chassisId
        (getNmDmtfGroup chassisId
          (getNmDmtfGroup chassisId
            (systemNode chassisId
              (processors.length + memories.length + accelerators.length + 3))
            1 accelerators "Accelerators" "Accelerator" pcieDomainId)
          (2 + accelerators.length) processors "Processors" "Processor" cpuDomainId)
        (3 + accelerators.length + processors.length) memories "Memories" "Memory"
        memoryDomainId := rfl

theorem laid_systemNode (chassisId : String) (count : ℕ) :
    Laid chassisId count [] (systemNode chassisId count) := by
  have hheader : ∀ j, (systemNode chassisId count).header j =
      if j = 0 then Node.system.header chassisId count none else Entry.null.header := by
    intro j
    have hstart : ∀ k, start.header k = Entry.null.header := fun _ => rfl
    have hodata : "/redfish/v1/Chassis/" ++ chassisId ++ "/Power/PowerControl/0" =
        odataId chassisId "0" := by
      unfold odataId
      have hroot : "/Power/PowerControl/0" = "/Power/PowerControl/" ++ "0" := by decide
      rw [hroot, ← String.append_assoc]
    simp only [systemNode, getStatus, getPowerMetrics, getOem, getPowerLimit,
      getCapacityConsumedWattsInputRange, getAllocatedAndRequestedWatts, powerRootNode, header_ask,
      header_setHeader, header_setMemberId, if_pos, hstart, hodata]
    split_ifs <;> rfl
  have hqueries : ∀ j, (systemNode chassisId count).queriesAt j =
      if j = 0 then Node.system.view.queries else [] := by
    intro j
    have hstart : ∀ k, start.queriesAt k = [] := fun _ => rfl
    simp only [systemNode, getStatus, getPowerMetrics, getOem, getPowerLimit,
      getCapacityConsumedWattsInputRange, getAllocatedAndRequestedWatts, powerRootNode,
      queriesAt_ask, queriesAt_setHeader, queriesAt_setMemberId, hstart]
    split_ifs <;> rfl
  refine ⟨?_, .refl _, fun i node hi => by simp at hi, ⟨⟨none, ?_, rfl⟩, ?_⟩, fun i hi => ⟨?_, ?_⟩⟩
  · simp only [systemNode, getStatus, getPowerMetrics, getOem, getPowerLimit,
      getCapacityConsumedWattsInputRange, getAllocatedAndRequestedWatts, powerRootNode, length_ask,
      length_setHeader, length_setMemberId]
    rfl
  · rw [hheader, if_pos rfl]
  · rw [hqueries, if_pos rfl]
  · rw [hheader, if_neg (Nat.ne_zero_of_lt hi)]
  · rw [hqueries, if_neg (Nat.ne_zero_of_lt hi)]

theorem laid_collectNmDmtfData (chassisId : String)
    (processors memories accelerators : List DeviceIndex) :
    Laid chassisId (processors.length + memories.length + accelerators.length + 3)
      (Subsystem.pcie.nodes accelerators ++ Subsystem.cpu.nodes processors ++
        Subsystem.memory.nodes memories)
      (collectNmDmtfData chassisId processors memories accelerators) := by
  have hcpuIdx : (Subsystem.pcie.nodes accelerators).length + 1 = 2 + accelerators.length := by
    rw [Subsystem.length_nodes]
    omega
  have hmemoryIdx :
      (Subsystem.pcie.nodes accelerators ++ Subsystem.cpu.nodes processors).length + 1 =
        3 + accelerators.length + processors.length := by
    rw [List.length_append, Subsystem.length_nodes, Subsystem.length_nodes]
    omega
  have hpcie := (laid_systemNode chassisId
    (processors.length + memories.length + accelerators.length + 3)).group .pcie accelerators
  have hcpu := hpcie.group .cpu processors
  rw [List.nil_append, hcpuIdx] at hcpu
  have hmemory := hcpu.group .memory memories
  rw [hmemoryIdx] at hmemory
  rw [collectNmDmtfData_eq]
  exact hmemory

end Groups

/-! ### The whole response -/

/-- The array has one element for each node, every place was written once, each element is that of
its node with as many related items as it counts, and every call is for one of them. -/
structure LaidOut (chassisId : String) (nodes : List Node) (r : Response) : Prop where
  length : r.powerControl.length = nodes.length
  written : r.memberIdWrites.Perm (List.range nodes.length)
  shows : ∀ i node, nodes[i]? = some node → r.ShowsAt chassisId i node
  calls : ∀ call ∈ r.calls, call.idx < nodes.length

theorem laidOut_collectNmDmtfData (chassisId : String)
    (processors memories accelerators : List DeviceIndex) :
    LaidOut chassisId (layout processors memories accelerators)
      (collectNmDmtfData chassisId processors memories accelerators) := by
  have h := laid_collectNmDmtfData chassisId processors memories accelerators
  refine ⟨h.length, h.written, fun i node hi => ?_, fun call hcall => ?_⟩
  · cases i with
    | zero =>
      obtain rfl := Option.some.inj hi
      obtain ⟨⟨items, hitems, hlen⟩, hq⟩ := h.root
      have hcount : (Subsystem.pcie.nodes accelerators ++ Subsystem.cpu.nodes processors ++
          Subsystem.memory.nodes memories).length =
          processors.length + memories.length + accelerators.length + 3 := by
        simp only [List.length_append, Subsystem.length_nodes]
        omega
      rw [hcount] at hlen
      cases items with
      | none => exact absurd hlen.symm (Nat.succ_ne_zero _)
      | some items => exact ⟨⟨items, by rw [hitems, ← hlen]; rfl⟩, hq⟩
    | succ i => exact h.shows i node hi
  · by_contra hlt
    have hblank := (h.blank call.idx (Nat.lt_of_succ_le (Nat.le_of_not_lt hlt))).2
    have hmem : call.query ∈ queriesAt _ call.idx :=
      List.mem_map_of_mem (List.mem_filter.mpr ⟨hcall, by simp⟩)
    rw [hblank] at hmem
    exact absurd hmem List.not_mem_nil

/-- A reply puts values into the element that it is for, and leaves all else. -/
theorem LaidOut.reply {chassisId : String} {nodes : List Node} {r : Response}
    (h : LaidOut chassisId nodes r) (a : Reply) : LaidOut chassisId nodes (r.reply a) := by
  unfold Response.reply
  split
  · exact h
  · next call hcall =>
    have hidx := h.calls call (List.mem_of_getElem? hcall)
    refine List.foldlRecOn _ _ h fun r hr v _ => ?_
    have hheader : ∀ j, (r.modify call.idx fun e => e.setValue v.1 v.2).header j = r.header j :=
      fun j => header_modify_values r call.idx j _ fun _ => rfl
    refine ⟨?_, hr.written, fun i node hi => (hr.shows i node hi).congr (hheader i) rfl, hr.calls⟩
    rw [length_modify, hr.length]
    omega

end Response

open Response

/-- However many components of each kind there are and whatever replies come in whatever order,
every place of "PowerControl" is written once and shows its node. -/
theorem run_laidOut (chassisId : String) (processors memories accelerators : List DeviceIndex)
    (replies : List Reply) :
    LaidOut chassisId (layout processors memories accelerators)
      (run reply (collectNmDmtfData chassisId processors memories accelerators) replies) := by
  induction replies using List.reverseRecOn with
  | nil => exact laidOut_collectNmDmtfData chassisId processors memories accelerators
  | append_singleton replies a ih =>
    rw [run_concat]
    exact ih.reply a

/-- The members are called by their names: the element at place 1 of an empty system is
"Accelerators". -/
theorem not_memberId_eq_place :
    ¬ ∀ (chassisId : String) (processors memories accelerators : List DeviceIndex)
      (replies : List Reply) (i : ℕ), i < (layout processors memories accelerators).length →
      ((run reply (collectNmDmtfData chassisId processors memories accelerators) replies).header
        i).memberId = some (Nat.repr i) := by
  intro h
  have h₁ := h "chassis" [] [] [] [] 1 (by decide)
  obtain ⟨⟨items, hitems⟩, -⟩ :=
    (laidOut_collectNmDmtfData "chassis" [] [] []).shows 1 (.aggregate .pcie) rfl
  rw [run_nil, hitems] at h₁
  exact absurd (Option.some.inj h₁) (by decide)

end MetaCommon.NodeManager
