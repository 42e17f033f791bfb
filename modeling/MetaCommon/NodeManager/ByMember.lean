import MetaCommon.NodeManager.Layout

/-!
# Power controls by their member ids

`buildDomainPolicyMap` lists the domain, the policy and the device of every member id; a GET or a
PATCH of one power control looks its member id up there. The device index 255 stands for all
devices, in the list and for the node manager. The collection and the power controls by themselves
should show the same.
-/

namespace MetaCommon.NodeManager

open Response

structure DomainPolicy where
  domain : String
  policy : String
  index : DeviceIndex
  memberId : String
deriving DecidableEq

def buildDomainPolicyMap (processors memories accelerators : List DeviceIndex) : List DomainPolicy :=
  [⟨dcTotalPowerDomainId, dmtfPowerPolicyId, allDevices, "0"⟩] ++
    (accelerators.map fun deviceIndex =>
      ⟨pcieDomainId, dmtfPowerPolicyId ++ "_Accelerator" ++ toDecimal deviceIndex, deviceIndex,
        "Accelerator" ++ toDecimal deviceIndex⟩) ++
    [⟨pcieDomainId, dmtfPowerPolicyId ++ "_Accelerators", allDevices, "Accelerators"⟩] ++
    (processors.map fun deviceIndex =>
      ⟨cpuDomainId, dmtfPowerPolicyId ++ "_Processor" ++ toDecimal deviceIndex, deviceIndex,
        "Processor" ++ toDecimal deviceIndex⟩) ++
    [⟨cpuDomainId, dmtfPowerPolicyId ++ "_Processors", allDevices, "Processors"⟩] ++
    (memories.map fun deviceIndex =>
      ⟨memoryDomainId, dmtfPowerPolicyId ++ "_Memory" ++ toDecimal deviceIndex, deviceIndex,
        "Memory" ++ toDecimal deviceIndex⟩) ++
    [⟨memoryDomainId, dmtfPowerPolicyId ++ "_Memories", allDevices, "Memories"⟩]

def findMember (list : List DomainPolicy) (name : String) : Option DomainPolicy :=
  list.find? fun element => element.memberId = name

/-- The name without its device index. -/
def nameAlpha (name : String) : String := String.ofList (name.toList.filter Char.isAlpha)

/-- The response to a GET, whose element at `tempNode` becomes the whole of it; `none` if the
resource is not found. -/
def getNmDmtfComponentByMemberId (chassisId name : String)
    (processors memories accelerators : List DeviceIndex) : Option Response :=
  (findMember (buildDomainPolicyMap processors memories accelerators) name).map fun element =>
    if element.index = allDevices then
      getPowerControlAggregateNode chassisId start name tempNode element.domain
    else
      getPowerControlComponentNode chassisId start element.domain element.index tempNode
        (nameAlpha name) powerRootNode

/-- What a PATCH changes: the policy, for one device or for all. -/
def patchTarget (name : String) (processors memories accelerators : List DeviceIndex) :
    Option View :=
  (findMember (buildDomainPolicyMap processors memories accelerators) name).map fun element =>
    ⟨element.domain, element.policy,
      if element.index = allDevices then .aggregate else .component element.index⟩

/-- An element of a response shows the view under the member id. -/
def Response.Shows (r : Response) (i : ℕ) (memberId : String) (v : View) : Prop :=
  (r.header i).memberId = some memberId ∧ r.queriesAt i = v.queries

/-- Every member id that the collection shows is found and leads to the same view, for a GET and for
a PATCH, and any other is not found. -/
def Agrees (chassisId : String) (processors memories accelerators : List DeviceIndex) : Prop :=
  (∀ i memberId v,
    (collectNmDmtfData chassisId processors memories accelerators).Shows i memberId v →
    (∃ r ∈ getNmDmtfComponentByMemberId chassisId memberId processors memories accelerators,
      r.Shows tempNode memberId v) ∧
    patchTarget memberId processors memories accelerators = some v) ∧
  ∀ memberId,
    (∀ i v, ¬ (collectNmDmtfData chassisId processors memories accelerators).Shows i memberId v) →
    getNmDmtfComponentByMemberId chassisId memberId processors memories accelerators = none ∧
    patchTarget memberId processors memories accelerators = none

/-! ### Member ids -/

theorem toDecimal_injective {a b : DeviceIndex} (h : toDecimal a = toDecimal b) : a = b := by
  have hdigits : Nat.toDigits 10 a.toNat = Nat.toDigits 10 b.toNat := by
    rw [← Nat.toList_repr, ← Nat.toList_repr]
    exact congrArg String.toList h
  apply BitVec.eq_of_toNat_eq
  rw [← Nat.ofDigitChars_ten_toDigits (n := a.toNat), hdigits, Nat.ofDigitChars_ten_toDigits]

theorem not_isAlpha_of_isDigit {c : Char} (h : c.isDigit = true) : c.isAlpha = false := by
  have hdigit : ('0'.val : UInt32) ≤ c.val ∧ c.val ≤ '9'.val := by simpa [Char.isDigit] using h
  rw [UInt32.le_iff_toNat_le, UInt32.le_iff_toNat_le] at hdigit
  have h₁ : ('0'.val).toNat = 48 := rfl
  have h₂ : ('9'.val).toNat = 57 := rfl
  have h₃ : ('A'.val).toNat = 65 := rfl
  have h₄ : ('a'.val).toNat = 97 := rfl
  rw [Bool.eq_false_iff]
  intro halpha
  rcases Bool.or_eq_true_iff.mp halpha with hupper | hlower
  · have hle : 'A'.val ≤ c.val := (of_decide_eq_true hupper).1
    rw [UInt32.le_iff_toNat_le] at hle
    omega
  · have hle : 'a'.val ≤ c.val := of_decide_eq_true (Bool.and_eq_true_iff.mp hlower).1
    rw [UInt32.le_iff_toNat_le] at hle
    omega

theorem nameAlpha_component (s : Subsystem) (deviceIndex : DeviceIndex) :
    nameAlpha (s.componentName ++ toDecimal deviceIndex) = s.componentName := by
  have hdigits : (toDecimal deviceIndex).toList.filter Char.isAlpha = [] := by
    rw [List.filter_eq_nil_iff]
    intro c hc
    unfold toDecimal at hc
    rw [Nat.toList_repr] at hc
    have hdigit := Nat.isDigit_of_mem_toDigits (b := 10) (by decide) (by decide) hc
    simp [not_isAlpha_of_isDigit hdigit]
  unfold nameAlpha
  rw [String.toList_append, List.filter_append, hdigits, List.append_nil]
  cases s <;> decide

theorem nameAlpha_aggregate (s : Subsystem) : nameAlpha s.aggregatorName = s.aggregatorName := by
  cases s <;> decide

theorem Node.memberId_injective {a b : Node} (h : a.memberId = b.memberId) : a = b := by
  have halpha := congrArg nameAlpha h
  cases a with
  | system =>
    cases b with
    | system => rfl
    | component s _ =>
      simp only [memberId, nameAlpha_component] at halpha
      cases s <;> exact absurd halpha (by decide)
    | aggregate s =>
      simp only [memberId, nameAlpha_aggregate] at halpha
      cases s <;> exact absurd halpha (by decide)
  | component s c =>
    cases b with
    | system =>
      simp only [memberId, nameAlpha_component] at halpha
      cases s <;> exact absurd halpha (by decide)
    | component s' d =>
      simp only [memberId, nameAlpha_component] at halpha
      obtain rfl : s = s' := by cases s <;> cases s' <;> first | rfl | exact absurd halpha (by decide)
      rw [toDecimal_injective ((String.append_right_inj _).mp h)]
    | aggregate s' =>
      simp only [memberId, nameAlpha_component, nameAlpha_aggregate] at halpha
      cases s <;> cases s' <;> exact absurd halpha (by decide)
  | aggregate s =>
    cases b with
    | system =>
      simp only [memberId, nameAlpha_aggregate] at halpha
      cases s <;> exact absurd halpha (by decide)
    | component s' _ =>
      simp only [memberId, nameAlpha_component, nameAlpha_aggregate] at halpha
      cases s <;> cases s' <;> exact absurd halpha (by decide)
    | aggregate s' =>
      cases s <;> cases s' <;> first | rfl | exact absurd h (by decide)

/-! ### The list of the domains and policies -/

/-- The entry of a node in the list. -/
def Node.domainPolicy (node : Node) : DomainPolicy where
  domain := node.domainId
  policy := node.policyId
  index := match node with
    | .component _ deviceIndex => deviceIndex
    | _ => allDevices
  memberId := node.memberId

theorem buildDomainPolicyMap_eq (processors memories accelerators : List DeviceIndex) :
    buildDomainPolicyMap processors memories accelerators =
      (layout processors memories accelerators).map Node.domainPolicy := by
  simp only [buildDomainPolicyMap, layout, Subsystem.nodes, List.map_cons, List.map_append,
    List.map_map, List.map_nil, List.append_assoc, List.cons_append, List.nil_append]
  rfl

section Members

variable {processors memories accelerators : List DeviceIndex} {node : Node}

theorem findMember_eq (hnode : node ∈ layout processors memories accelerators) :
    findMember (buildDomainPolicyMap processors memories accelerators) node.memberId =
      some node.domainPolicy := by
  rw [buildDomainPolicyMap_eq]
  unfold findMember
  cases hfind : ((layout processors memories accelerators).map Node.domainPolicy).find?
      fun element => element.memberId = node.memberId with
  | none =>
    have hne := List.find?_eq_none.mp hfind _ (List.mem_map_of_mem hnode)
    exact (hne (decide_eq_true rfl)).elim
  | some element =>
    obtain ⟨other, -, rfl⟩ := List.mem_map.mp (List.mem_of_find?_eq_some hfind)
    have hfound := List.find?_some hfind
    have hid : other.memberId = node.memberId := of_decide_eq_true hfound
    rw [Node.memberId_injective hid]

theorem findMember_eq_none {name : String}
    (h : ∀ node ∈ layout processors memories accelerators, node.memberId ≠ name) :
    findMember (buildDomainPolicyMap processors memories accelerators) name = none := by
  rw [buildDomainPolicyMap_eq]
  refine List.find?_eq_none.mpr fun element helement => ?_
  obtain ⟨node, hnode, rfl⟩ := List.mem_map.mp helement
  exact fun hid => h node hnode (of_decide_eq_true hid)

/-! ### The collection and the members -/

theorem View.queries_injective {v w : View} (h : v.queries = w.queries) : v = w := by
  obtain ⟨domainId, policyId, kind⟩ := v
  obtain ⟨domainId', policyId', kind'⟩ := w
  cases kind <;> cases kind' <;>
    simp_all [View.queries, View.capacityQueries]

/-- The collection shows the nodes of the layout and nothing else. -/
theorem shows_collection_iff (chassisId : String) {i : ℕ} {memberId : String} {v : View} :
    (collectNmDmtfData chassisId processors memories accelerators).Shows i memberId v ↔
      ∃ node, (layout processors memories accelerators)[i]? = some node ∧
        memberId = node.memberId ∧ v = node.view := by
  have hlaid := laidOut_collectNmDmtfData chassisId processors memories accelerators
  constructor
  · rintro ⟨hid, hq⟩
    by_cases hi : i < (layout processors memories accelerators).length
    · have hnode := List.getElem?_eq_getElem hi
      obtain ⟨⟨items, hheader⟩, hqueries⟩ := hlaid.shows i _ hnode
      rw [hheader] at hid
      exact ⟨_, hnode, (Option.some.inj hid).symm, View.queries_injective (hq.symm.trans hqueries)⟩
    · have hnull : (collectNmDmtfData chassisId processors memories accelerators).header i =
          Entry.null.header := by
        unfold header
        rw [List.getD_eq_default _ _ (by rw [hlaid.length]; omega)]
      rw [hnull] at hid
      cases hid
  · rintro ⟨node, hnode, rfl, rfl⟩
    obtain ⟨⟨items, hheader⟩, hqueries⟩ := hlaid.shows i node hnode
    exact ⟨by rw [hheader]; rfl, hqueries⟩

theorem aggregate_shows (chassisId name domainId : String) :
    (getPowerControlAggregateNode chassisId start name tempNode domainId).Shows tempNode name
      ⟨domainId, nmAggregatePolicyName name, .aggregate⟩ := by
  constructor
  · simp [getPowerControlAggregateNode, getStatus, getPowerMetrics, getOem, getPowerLimit,
      getCapacityConsumedWattsInputRange, getAllocatedAndRequestedWatts, powerRootNode, tempNode]
  · rw [aggregate_queriesAt, if_pos rfl]
    rfl

theorem component_shows (chassisId name domainId : String) (deviceIndex : DeviceIndex) :
    (getPowerControlComponentNode chassisId start domainId deviceIndex tempNode name
      powerRootNode).Shows tempNode (name ++ toDecimal deviceIndex)
      ⟨domainId, nmPolicyName name deviceIndex, .component deviceIndex⟩ := by
  constructor
  · simp [getPowerControlComponentNode, getStatus, getPowerMetrics, getOem, getPowerLimit,
      getComponentCapacityConsumedWattsInputRange, getAllocatedAndRequestedWatts, powerRootNode,
      tempNode]
  · rw [component_queriesAt, if_pos rfl]
    rfl

/-- A component that is not taken for all devices, or another node, is found as it is shown. -/
theorem shows_member (chassisId : String) (hnode : node ∈ layout processors memories accelerators)
    (hindex : node.kind ≠ .component allDevices) :
    (∃ r ∈ getNmDmtfComponentByMemberId chassisId node.memberId processors memories accelerators,
      r.Shows tempNode node.memberId node.view) ∧
    patchTarget node.memberId processors memories accelerators = some node.view := by
  unfold getNmDmtfComponentByMemberId patchTarget
  rw [findMember_eq hnode]
  cases node with
  | system => exact ⟨⟨_, rfl, aggregate_shows chassisId _ _⟩, rfl⟩
  | aggregate s => exact ⟨⟨_, rfl, aggregate_shows chassisId _ _⟩, rfl⟩
  | component s deviceIndex =>
    have hne : deviceIndex ≠ allDevices := fun h => hindex (congrArg Kind.component h)
    simp only [Option.map_some, Node.domainPolicy, if_neg hne, Node.memberId, nameAlpha_component]
    exact ⟨⟨_, rfl, component_shows chassisId _ _ _⟩, rfl⟩

/-- A component that is taken for all devices is patched as an aggregate. -/
theorem patchTarget_ne {s : Subsystem}
    (hnode : .component s allDevices ∈ layout processors memories accelerators) :
    patchTarget (Node.component s allDevices).memberId processors memories accelerators ≠
      some (Node.component s allDevices).view := by
  unfold patchTarget
  rw [findMember_eq hnode]
  intro h
  have hkind := congrArg View.kind (Option.some.inj h)
  cases hkind

theorem component_mem_layout (s : Subsystem) (deviceIndex : DeviceIndex) :
    .component s deviceIndex ∈ layout processors memories accelerators ↔
      deviceIndex ∈ (match s with
        | .pcie => accelerators
        | .cpu => processors
        | .memory => memories) := by
  cases s <;> simp [layout, Subsystem.nodes]

end Members

/-- The two views agree exactly if no component has the index that stands for all devices. -/
theorem agrees_iff (chassisId : String) (processors memories accelerators : List DeviceIndex) :
    Agrees chassisId processors memories accelerators ↔
      allDevices ∉ processors ∧ allDevices ∉ memories ∧ allDevices ∉ accelerators := by
  constructor
  · rintro ⟨hshown, -⟩
    have hnot : ∀ s, .component s allDevices ∉ layout processors memories accelerators := by
      intro s hmem
      obtain ⟨i, hi, hnode⟩ := List.mem_iff_getElem.mp hmem
      have hget : (layout processors memories accelerators)[i]? = some (.component s allDevices) :=
        hnode ▸ List.getElem?_eq_getElem hi
      exact patchTarget_ne hmem
        (hshown i _ _ ((shows_collection_iff chassisId).mpr ⟨_, hget, rfl, rfl⟩)).2
    refine ⟨fun h => ?_, fun h => ?_, fun h => ?_⟩
    · exact hnot .cpu ((component_mem_layout .cpu allDevices).mpr h)
    · exact hnot .memory ((component_mem_layout .memory allDevices).mpr h)
    · exact hnot .pcie ((component_mem_layout .pcie allDevices).mpr h)
  · rintro ⟨hprocessors, hmemories, haccelerators⟩
    refine ⟨fun i memberId v hshows => ?_, fun memberId hnone => ?_⟩
    · obtain ⟨node, hget, rfl, rfl⟩ := (shows_collection_iff chassisId).mp hshows
      have hmem := List.mem_of_getElem? hget
      refine shows_member chassisId hmem fun hkind => ?_
      cases node with
      | system => cases hkind
      | aggregate s => cases hkind
      | component s deviceIndex =>
        obtain rfl : deviceIndex = allDevices := Kind.component.inj hkind
        have hin := (component_mem_layout s allDevices).mp hmem
        cases s
        · exact haccelerators hin
        · exact hprocessors hin
        · exact hmemories hin
    · have hne : ∀ node ∈ layout processors memories accelerators, node.memberId ≠ memberId := by
        rintro node hmem rfl
        obtain ⟨i, hi, rfl⟩ := List.mem_iff_getElem.mp hmem
        exact hnone i _ ((shows_collection_iff chassisId).mpr
          ⟨_, List.getElem?_eq_getElem hi, rfl, rfl⟩)
      unfold getNmDmtfComponentByMemberId patchTarget
      rw [findMember_eq_none hne]
      exact ⟨rfl, rfl⟩

/-- One accelerator has the index 255: the collection shows a component, the list has all
devices. -/
theorem not_agrees :
    ¬ ∀ (chassisId : String) (processors memories accelerators : List DeviceIndex),
      Agrees chassisId processors memories accelerators := by
  intro h
  have hmem : .component .pcie allDevices ∈ layout [] [] [allDevices] := by decide
  have hshown := (shows_collection_iff "chassis").mpr
    ⟨_, (rfl : (layout [] [] [allDevices])[1]? = some (.component .pcie allDevices)), rfl, rfl⟩
  exact patchTarget_ne hmem ((h "chassis" [] [] [allDevices]).1 1 _ _ hshown).2

end MetaCommon.NodeManager
