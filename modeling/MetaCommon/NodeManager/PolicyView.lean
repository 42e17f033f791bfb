import MetaCommon.NodeManager.PolicyUpdates

/-!
# GET of a node manager policy, and its members sent back

The attributes of a policy are shown as members of the answer, one after the other, and an attribute
that is missing, has another type or no name is an internal error, which does not end the handler. A
member that is shown and can be patched is read back to the attribute it came from. The trigger is
shown as a link and cannot be sent back.
-/

namespace MetaCommon.NodeManager

open JsonTree

def kHwProtectionDomainId : String := "HWProtection"
def kPowerPolicyType : String := "PowerPolicy"

def kPolicyOemStateMap : List (ℤ × String) :=
  [(0, "Pending"), (1, "Disabled"), (2, "Ready"), (3, "Triggered"), (4, "Selected"),
    (5, "Suspended")]

def kPolicyStatesEnabled : List ℤ := [0, 2, 3, 4, 5]

def isPolicyStateEnabled (state : ℤ) : Bool := kPolicyStatesEnabled.contains state

def isHwProtectionPolicy (properties : Properties) : Bool :=
  match getPropertyValue Attribute.string? properties "DomainId" with
  | some domainId => domainId == kHwProtectionDomainId
  | none => false

/-- The assignments to the JSON of the answer, the last one first, and the number of errors. -/
structure PolicyView where
  assigned : List (List String × JsonTree)
  errors : ℕ

namespace PolicyView

def put (view : PolicyView) (path : List String) (value : JsonTree) : PolicyView :=
  { view with assigned := (path, value) :: view.assigned }

def error (view : PolicyView) : PolicyView := { view with errors := view.errors + 1 }

def shown (view : PolicyView) (path : List String) : Option JsonTree := view.assigned.lookup path

end PolicyView

/-- A call of `parsePropertyToResponse`: the attribute, where it is shown and how. -/
structure Field where
  name : String
  path : List String
  toJson : Attribute → Option JsonTree

def Field.show (field : Field) (properties : Properties) (view : PolicyView) : PolicyView :=
  match (properties.lookup field.name).bind field.toJson with
  | some value => view.put field.path value
  | none => view.error

def showByte (a : Attribute) : Option JsonTree := a.byte?.map fun n => .unsigned n.toNat
def showUint16 (a : Attribute) : Option JsonTree := a.uint16?.map fun n => .unsigned n.toNat
def showUint32 (a : Attribute) : Option JsonTree := a.uint32?.map fun n => .unsigned n.toNat

/-- The name of a number, if it has one. -/
def showNamed (namesMap : List (ℤ × String)) (a : Attribute) : Option JsonTree :=
  (a.int32?.bind (namesMap.lookup ·)).map .string

def nodeManagerPath : String := "/redfish/v1/Managers/bmc/Oem/Intel/NodeManager/"

/-- A link to a resource of the node manager. -/
def showLink (collection : String) (a : Attribute) : Option JsonTree :=
  a.string?.map fun s => .string (nodeManagerPath ++ collection ++ s)

section Answer

variable (toDurationString : ℤ → String)

def showSeconds (a : Attribute) : Option JsonTree :=
  a.uint16?.map fun s => .string (toDurationString (s.toNat * 1000))

def showState (a : Attribute) : Option JsonTree :=
  a.int32?.map fun state =>
    .string (if isPolicyStateEnabled state then "Enabled" else "Disabled")

def powerFields : List Field :=
  [⟨"CorrectionInMs", ["CorrectionInMs"], showUint32⟩,
    ⟨"PowerCorrectionType", ["PowerCorrectionType"], showNamed kPowerCorrectionTypeMap⟩,
    ⟨"LimitException", ["LimitException"], showNamed kLimitExceptionMap⟩]

def fieldsBefore : List Field :=
  [⟨"ComponentId", ["ComponentId"], showByte⟩,
    ⟨"Limit", ["Limit"], showUint16⟩,
    ⟨"PolicyStorage", ["PolicyStorage"], showNamed kPolicyStorageMap⟩]

def fieldsAfter : List Field :=
  [⟨"StatisticsReportingPeriod", ["StatisticsReportingPeriod"], showSeconds toDurationString⟩,
    ⟨"DomainId", ["Domain", "@odata.id"], showLink "Domains/"⟩,
    ⟨"PolicyState", ["OemStatus"], showNamed kPolicyOemStateMap⟩,
    ⟨"PolicyState", ["Status", "State"], showState⟩,
    ⟨"TriggerType", ["Trigger", "TriggerType", "@odata.id"], showLink "Triggers/"⟩,
    ⟨"TriggerLimit", ["Trigger", "TriggerLimit"], showUint16⟩]

def showAll (fields : List Field) (properties : Properties) (view : PolicyView) : PolicyView :=
  fields.foldl (fun view field => field.show properties view) view

/-- The members that do not come from an attribute that is shown, up to "SuspendPeriods". -/
def viewHead (policyName : String) (properties : Properties) : PolicyView :=
  let path := nodeManagerPath ++ "Policies/" ++ policyName
  let view : PolicyView := ⟨[], 0⟩
  let view := view.put ["@odata.id"] (.string path)
  let view := view.put ["@odata.type"] (.string "#NmPolicy.v1_2_0.NmPolicy")
  let view := view.put ["Actions", "#NmPolicy.ResetStatistics", "target"]
    (.string (path ++ "/Actions/Policy.ResetStatistics"))
  let view :=
    if isHwProtectionPolicy properties ∨ isPolicyReadOnly properties = false then
      (view.put ["Actions", "#NmPolicy.ChangeState", "State@Redfish.AllowableValues"]
        (.array [.string "Enabled", .string "Disabled"])).put
        ["Actions", "#NmPolicy.ChangeState", "target"]
        (.string (path ++ "/Actions/Policy.ChangeState"))
    else view
  let view := view.put ["Thresholds", "ThresholdValue"] (.array [])
  view.put ["SuspendPeriods"] (.object [])

/-- `getAttributes`, when the reply has come; `properties` is `none` for an error. -/
def getAttributes (properties : Option Properties) : PolicyView :=
  match properties with
  | none => ⟨[], 1⟩
  | some properties =>
    match getPropertyValue Attribute.string? properties "Id" with
    | none => ⟨[], 1⟩
    | some policyName =>
      let view := showAll fieldsBefore properties (viewHead policyName properties)
      let view := view.put ["Id"] (.string policyName)
      let view := view.put ["Name"] (.string ("Policy" ++ policyName))
      let view :=
        match getPropertyValue Attribute.string? properties "PolicyType" with
        | some policyType =>
          let view := view.put ["PolicyType"] (.string policyType)
          if policyType = kPowerPolicyType then showAll powerFields properties view else view
        | none => view.error
      showAll (fieldsAfter toDurationString) properties view

end Answer

/-! ### Where a member comes from -/

section Shown

variable {properties : Properties} {view : PolicyView}

@[simp] theorem shown_put (path : List String) (value : JsonTree) (other : List String) :
    (view.put path value).shown other = if other = path then some value else view.shown other := by
  unfold PolicyView.put PolicyView.shown
  rw [List.lookup_cons]
  by_cases h : other = path
  · simp [h]
  · rw [if_neg h, beq_false_of_ne h]

@[simp] theorem shown_error (path : List String) : view.error.shown path = view.shown path := rfl

theorem shown_show (field : Field) (path : List String) :
    (field.show properties view).shown path =
      if path = field.path then
        ((properties.lookup field.name).bind field.toJson).or (view.shown path)
      else view.shown path := by
  unfold Field.show
  cases (properties.lookup field.name).bind field.toJson with
  | none => simp
  | some value => simp

end Shown

/-! ### What is shown of the members that can be patched -/

def patchable : List String :=
  ["CorrectionInMs", "Limit", "StatisticsReportingPeriod", "PolicyStorage", "PowerCorrectionType",
    "LimitException", "ComponentId"]

def IsPowerPolicy (properties : Properties) : Prop :=
  getPropertyValue Attribute.string? properties "PolicyType" = some kPowerPolicyType

instance (properties : Properties) : Decidable (IsPowerPolicy properties) :=
  inferInstanceAs (Decidable (_ = _))

section Patchable

variable {toDurationString : ℤ → String} {properties : Properties} {policyName : String}

theorem shown_viewHead (properties : Properties) (policyName : String) {name : String}
    (h : name ∈ patchable) :
    (viewHead policyName properties).shown [name] = none := by
  have hne : ∀ other, other ∉ patchable → name ≠ other := by
    rintro other hother rfl
    exact hother h
  have hid := hne "@odata.id" (by decide)
  have htype := hne "@odata.type" (by decide)
  have hperiods := hne "SuspendPeriods" (by decide)
  have hempty : (⟨[], 0⟩ : PolicyView).shown [name] = none := rfl
  unfold viewHead
  split_ifs
  · simp [hid, htype, hperiods, hempty]
  · simp [hid, htype, hperiods, hempty]

/-- The attribute that a member which can be patched comes from, and how it is shown. The members of
a power policy are not shown for another one. -/
def patchableJson (toDurationString : ℤ → String) (properties : Properties) (name : String) :
    Option JsonTree :=
  let shown := properties.lookup name
  match name with
  | "CorrectionInMs" => if IsPowerPolicy properties then shown.bind showUint32 else none
  | "Limit" => shown.bind showUint16
  | "StatisticsReportingPeriod" => shown.bind (showSeconds toDurationString)
  | "PolicyStorage" => shown.bind (showNamed kPolicyStorageMap)
  | "PowerCorrectionType" =>
    if IsPowerPolicy properties then shown.bind (showNamed kPowerCorrectionTypeMap) else none
  | "LimitException" =>
    if IsPowerPolicy properties then shown.bind (showNamed kLimitExceptionMap) else none
  | "ComponentId" => shown.bind showByte
  | _ => none

theorem shown_getAttributes (hid : getPropertyValue Attribute.string? properties "Id" =
    some policyName) {name : String} (h : name ∈ patchable) :
    (getAttributes toDurationString (some properties)).shown [name] =
      patchableJson toDurationString properties name := by
  have hhead := shown_viewHead properties policyName h
  simp only [getAttributes, hid]
  simp only [patchable, List.mem_cons, List.not_mem_nil, or_false] at h
  cases htype : getPropertyValue Attribute.string? properties "PolicyType" with
  | none =>
    have hpower : ¬ IsPowerPolicy properties := by simp [IsPowerPolicy, htype]
    rcases h with rfl | rfl | rfl | rfl | rfl | rfl | rfl <;>
      simp [showAll, fieldsBefore, fieldsAfter, shown_show, hhead, patchableJson, hpower]
  | some policyType =>
    by_cases heq : policyType = kPowerPolicyType
    · have hpower : IsPowerPolicy properties := by rw [IsPowerPolicy, htype, heq]
      rcases h with rfl | rfl | rfl | rfl | rfl | rfl | rfl <;>
        simp [showAll, fieldsBefore, fieldsAfter, powerFields, shown_show, hhead, patchableJson,
          hpower, heq]
    · have hpower : ¬ IsPowerPolicy properties := by simpa [IsPowerPolicy, htype] using heq
      rcases h with rfl | rfl | rfl | rfl | rfl | rfl | rfl <;>
        simp [showAll, fieldsBefore, fieldsAfter, shown_show, hhead, patchableJson, hpower, heq]

end Patchable

/-! ### What is sent back -/

/-- Some members of the answer, as the body of a PATCH. -/
def sentBack (names : List String) (view : PolicyView) : List (String × JsonTree) :=
  names.filterMap fun name => (view.shown [name]).map (name, ·)

/-- "Trigger" as it is shown. -/
def shownTrigger (view : PolicyView) : JsonTree :=
  .object ((view.shown ["Trigger", "TriggerType", "@odata.id"]).toList.map
      (fun link => ("TriggerType", .object [("@odata.id", link)])) ++
    (view.shown ["Trigger", "TriggerLimit"]).toList.map (("TriggerLimit", ·)))

/-- A value that is shown is read as `a`, which stands for `value`. -/
def ReadsBack {α β : Type} (shown : Option JsonTree) (unpack : JsonTree → Option α)
    (convert : α → Option β) (value : β) : Prop :=
  ∀ json ∈ shown, ∃ a, unpack json = some a ∧ convert a = some value

section ReadsBack

variable {α β : Type} {shown : Option JsonTree} {unpack : JsonTree → Option α}
  {convert : α → Option β} {value : β}

theorem ReadsBack.none : ReadsBack Option.none unpack convert value := fun _ h => nomatch h

theorem ReadsBack.ite {p : Prop} [Decidable p] (h : ReadsBack shown unpack convert value) :
    ReadsBack (if p then shown else Option.none) unpack convert value := by
  by_cases hp : p
  · rw [if_pos hp]
    exact h
  · rw [if_neg hp]
    exact ReadsBack.none

theorem ReadsBack.readOptional_eq {members : List (String × JsonTree)} {name : String}
    (h : ReadsBack shown unpack convert value) (hlookup : members.lookup name = shown) :
    readOptional members name unpack = some (shown.bind unpack) := by
  unfold readOptional
  rw [hlookup]
  cases shown with
  | none => rfl
  | some json =>
    obtain ⟨a, ha, -⟩ := h json rfl
    simp [ha]

theorem ReadsBack.convert_eq (h : ReadsBack shown unpack convert value) :
    ∀ a ∈ shown.bind unpack, convert a = some value := by
  intro a ha
  obtain ⟨json, hjson, hunpack⟩ := Option.bind_eq_some_iff.mp ha
  obtain ⟨a', ha', hvalue⟩ := h json hjson
  obtain rfl : a' = a := Option.some.inj (ha'.symm.trans hunpack)
  exact hvalue

theorem readsBack_unsigned [Reader] {w : ℕ} (n : BitVec w) :
    ReadsBack (some (.unsigned n.toNat)) (asUint w) some n := by
  rintro json ⟨⟩
  exact ⟨n, asUint_unsigned n, rfl⟩

end ReadsBack

/-- A name stands for its number, if no other number has it. -/
theorem findOption_of_lookup {map : List (ℤ × String)} {n : ℤ} {text : String}
    (hnodup : (map.map Prod.snd).Nodup) (h : map.lookup n = some text) :
    findOption map text = some n := by
  unfold findOption
  induction map with
  | nil => exact nomatch h
  | cons option map ih =>
    obtain ⟨hfirst, hrest⟩ := List.nodup_cons.mp hnodup
    rw [List.lookup_cons] at h
    by_cases heq : n = option.1
    · have htext : option.2 = text := by simpa [heq] using h
      simp [htext, heq]
    · rw [beq_false_of_ne heq] at h
      have hmem : text ∈ map.map Prod.snd := by
        obtain ⟨m, hm, rfl⟩ : ∃ m ∈ map, m.2 = text := by
          have := List.lookup_eq_some_iff.mp h
          obtain ⟨l₁, l₂, hmap, -⟩ := this
          exact ⟨(n, text), by simp [hmap], rfl⟩
        exact List.mem_map_of_mem hm
      have hne : text ≠ option.2 := fun heq' => hfirst (heq' ▸ hmem)
      rw [List.find?_cons_of_neg (by simpa using hne)]
      exact ih hrest h

theorem readsBack_named [Reader] {map : List (ℤ × String)} (hnodup : (map.map Prod.snd).Nodup)
    (n : ℤ) :
    ReadsBack (showNamed map (.int32 n)) asString (findOption map) n := by
  intro json hjson
  obtain ⟨text, htext, rfl⟩ := Option.map_eq_some_iff.mp hjson
  exact ⟨text, asString_eq_some_iff.mpr rfl, findOption_of_lookup hnodup htext⟩

theorem lookup_sentBack (names : List String) (view : PolicyView) (name : String) :
    (sentBack names view).lookup name = if name ∈ names then view.shown [name] else none := by
  unfold sentBack
  induction names with
  | nil => rfl
  | cons first names ih =>
    cases hfirst : view.shown [first] with
    | none =>
      rw [List.filterMap_cons_none (by simp [hfirst]), ih]
      by_cases heq : name = first
      · simp [heq, hfirst]
      · simp [heq]
    | some json =>
      rw [List.filterMap_cons, hfirst, Option.map_some, List.lookup_cons]
      by_cases heq : name = first
      · simp [heq, hfirst]
      · rw [beq_false_of_ne heq, ih]
        simp [heq]

section RoundTrip

variable {toDurationString : ℤ → String} {fromDurationString : String → Option ℤ}
  {properties : Properties} {policyName : String} {attributes : PolicyParams}

theorem lookup_of_getPropertyValue {α : Type} {get : Attribute → Option α} {put : α → Attribute}
    {name : String} {value : α} (hget : ∀ a, get a = some value → a = put value)
    (h : getPropertyValue get properties name = some value) :
    properties.lookup name = some (put value) := by
  obtain ⟨a, hlookup, ha⟩ := Option.bind_eq_some_iff.mp h
  rw [hlookup, hget a ha]

/-- The attributes that the parameters come from. -/
theorem lookup_of_currentAttributes (h : currentAttributes properties = some attributes) :
    properties.lookup "CorrectionInMs" = some (.uint32 attributes.correctionInMs) ∧
    properties.lookup "Limit" = some (.uint16 attributes.limit) ∧
    properties.lookup "StatisticsReportingPeriod" = some (.uint16 attributes.statReportingPeriod) ∧
    properties.lookup "PolicyStorage" = some (.int32 attributes.policyStorage) ∧
    properties.lookup "PowerCorrectionType" = some (.int32 attributes.powerCorrectionType) ∧
    properties.lookup "LimitException" = some (.int32 attributes.limitException) ∧
    properties.lookup "ComponentId" = some (.byte attributes.componentId) ∧
    properties.lookup "TriggerType" = some (.string attributes.triggerType) := by
  have hbyte : ∀ n a, Attribute.byte? a = some n → a = .byte n := by
    intro n a ha
    cases a <;> simp_all [Attribute.byte?]
  have huint16 : ∀ n a, Attribute.uint16? a = some n → a = .uint16 n := by
    intro n a ha
    cases a <;> simp_all [Attribute.uint16?]
  have huint32 : ∀ n a, Attribute.uint32? a = some n → a = .uint32 n := by
    intro n a ha
    cases a <;> simp_all [Attribute.uint32?]
  have hint32 : ∀ n a, Attribute.int32? a = some n → a = .int32 n := by
    intro n a ha
    cases a <;> simp_all [Attribute.int32?]
  have hstring : ∀ s a, Attribute.string? a = some s → a = .string s := by
    intro s a ha
    cases a <;> simp_all [Attribute.string?]
  unfold currentAttributes at h
  simp only [Option.bind_eq_bind, Option.bind_eq_some_iff, Option.pure_def, Option.some.injEq] at h
  obtain ⟨_, hcorrection, _, hlimit, _, hperiod, _, hstorage, _, htype, _, hexception, _,
    hcomponent, _, -, _, htrigger, rfl⟩ := h
  exact ⟨lookup_of_getPropertyValue (huint32 _) hcorrection,
    lookup_of_getPropertyValue (huint16 _) hlimit,
    lookup_of_getPropertyValue (huint16 _) hperiod,
    lookup_of_getPropertyValue (hint32 _) hstorage,
    lookup_of_getPropertyValue (hint32 _) htype,
    lookup_of_getPropertyValue (hint32 _) hexception,
    lookup_of_getPropertyValue (hbyte _) hcomponent,
    lookup_of_getPropertyValue (hstring _) htrigger⟩

def milliseconds (sec : BitVec 16) : ℤ := sec.toNat * 1000

theorem milliseconds_tdiv (sec : BitVec 16) : (milliseconds sec).tdiv 1000 = sec.toNat :=
  Int.mul_tdiv_cancel _ (by decide)

/-- The body that is read of members that were shown. -/
structure ReadBack (fromDurationString : String → Option ℤ) (attributes : PolicyParams)
    (v : PolicyBody) : Prop where
  correctionInMs : ∀ n ∈ v.correctionInMs, n = attributes.correctionInMs
  limit : ∀ n ∈ v.limit, n = attributes.limit
  statisticsReportingPeriod : ∀ text ∈ v.statisticsReportingPeriod,
    fromDurationString text = some (milliseconds attributes.statReportingPeriod)
  policyStorage : ∀ text ∈ v.policyStorage,
    findOption kPolicyStorageMap text = some attributes.policyStorage
  powerCorrectionType : ∀ text ∈ v.powerCorrectionType,
    findOption kPowerCorrectionTypeMap text = some attributes.powerCorrectionType
  limitException : ∀ text ∈ v.limitException,
    findOption kLimitExceptionMap text = some attributes.limitException
  componentId : ∀ n ∈ v.componentId, n = attributes.componentId

theorem readsBack_of_mem {name : String} {trigger : Option JsonTree} {names : List String}
    {members : List (String × JsonTree)} {view : PolicyView}
    (hmembers : members = trigger.toList.map (("Trigger", ·)) ++ sentBack names view)
    (hname : name ≠ "Trigger") {α β : Type} {unpack : JsonTree → Option α} {convert : α → Option β}
    {value : β} (h : ReadsBack (view.shown [name]) unpack convert value) :
    ∃ a, readOptional members name unpack = some a ∧ ∀ text ∈ a, convert text = some value := by
  have hlookup : members.lookup name = if name ∈ names then view.shown [name] else none := by
    rw [hmembers, ← lookup_sentBack]
    cases trigger with
    | none => rfl
    | some json =>
      rw [Option.toList_some, List.map_singleton, List.singleton_append, List.lookup_cons,
        beq_false_of_ne hname]
  exact ⟨_, h.ite.readOptional_eq hlookup, h.ite.convert_eq⟩

/-- The members that a GET shows can be read back, also with something as "Trigger". -/
theorem readPolicyBody_sentBack [Reader]
    (hduration : fromDurationString
      (toDurationString (milliseconds attributes.statReportingPeriod)) =
        some (milliseconds attributes.statReportingPeriod))
    (hid : getPropertyValue Attribute.string? properties "Id" = some policyName)
    (hcurrent : currentAttributes properties = some attributes) {names : List String}
    (hnames : ∀ name ∈ names, name ∈ patchable) (trigger : Option JsonTree)
    (htrigger : ∀ json ∈ trigger, asJson json = some json) :
    ∃ v, readPolicyBody (.object (trigger.toList.map (("Trigger", ·)) ++
        sentBack names (getAttributes toDurationString (some properties)))) = some v ∧
      ReadBack fromDurationString attributes v ∧ v.trigger = trigger := by
  obtain ⟨hcorrection, hlimit, hperiod, hstorage, htype, hexception, hcomponent, -⟩ :=
    lookup_of_currentAttributes hcurrent
  have hshown : ∀ {name}, name ∈ patchable →
      (getAttributes toDurationString (some properties)).shown [name] =
        patchableJson toDurationString properties name := shown_getAttributes hid
  generalize hview : getAttributes toDurationString (some properties) = view at hshown ⊢
  generalize hmembers : trigger.toList.map (("Trigger", ·)) ++ sentBack names view = members
  have honly : onlyMembers ["CorrectionInMs", "Limit", "StatisticsReportingPeriod",
      "PolicyStorage", "PowerCorrectionType", "LimitException", "ComponentId", "Trigger"]
      (.object members) = some members := by
    refine onlyMembers_eq_some_iff.mpr ⟨rfl, fun m hm => ?_⟩
    rw [← hmembers, List.mem_append] at hm
    rcases hm with hm | hm
    · obtain ⟨json, -, rfl⟩ := List.mem_map.mp hm
      simp
    · obtain ⟨name, hname, hm⟩ := List.mem_filterMap.mp hm
      obtain ⟨json, -, rfl⟩ := Option.map_eq_some_iff.mp hm
      have := hnames name hname
      simp only [patchable, List.mem_cons, List.not_mem_nil, or_false] at this ⊢
      tauto
  have hread : ∀ name ∈ patchable, ∀ {α β : Type} {unpack : JsonTree → Option α}
      {convert : α → Option β} {value : β},
      ReadsBack (patchableJson toDurationString properties name) unpack convert value →
      ∃ a, readOptional members name unpack = some a ∧ ∀ text ∈ a, convert text = some value := by
    intro name hname α β unpack convert value h
    have hne : name ≠ "Trigger" := by
      rintro rfl
      exact absurd hname (by decide)
    exact readsBack_of_mem hmembers.symm hne (by rw [hshown hname]; exact h)
  obtain ⟨a₁, h₁, hback₁⟩ := hread "CorrectionInMs" (by decide) (by
    rw [patchableJson, hcorrection]
    exact (readsBack_unsigned attributes.correctionInMs).ite)
  obtain ⟨a₂, h₂, hback₂⟩ := hread "Limit" (by decide) (by
    rw [patchableJson, hlimit]
    exact readsBack_unsigned attributes.limit)
  have hseconds : ReadsBack (patchableJson toDurationString properties "StatisticsReportingPeriod")
      asString fromDurationString (milliseconds attributes.statReportingPeriod) := by
    rw [patchableJson, hperiod]
    rintro json ⟨⟩
    exact ⟨_, asString_eq_some_iff.mpr rfl, hduration⟩
  obtain ⟨a₃, h₃, hback₃⟩ := hread "StatisticsReportingPeriod" (by decide) hseconds
  obtain ⟨a₄, h₄, hback₄⟩ := hread "PolicyStorage" (by decide) (by
    rw [patchableJson, hstorage]
    exact readsBack_named (by decide) attributes.policyStorage)
  obtain ⟨a₅, h₅, hback₅⟩ := hread "PowerCorrectionType" (by decide) (by
    rw [patchableJson, htype]
    exact (readsBack_named (by decide) attributes.powerCorrectionType).ite)
  obtain ⟨a₆, h₆, hback₆⟩ := hread "LimitException" (by decide) (by
    rw [patchableJson, hexception]
    exact (readsBack_named (by decide) attributes.limitException).ite)
  obtain ⟨a₇, h₇, hback₇⟩ := hread "ComponentId" (by decide) (by
    rw [patchableJson, hcomponent]
    exact readsBack_unsigned attributes.componentId)
  have h₈ : readOptional members "Trigger" asJson = some trigger := by
    unfold readOptional
    cases trigger with
    | none =>
      have hno : "Trigger" ∉ names := fun h => absurd (hnames _ h) (by decide)
      rw [← hmembers, Option.toList_none, List.map_nil, List.nil_append, lookup_sentBack,
        if_neg hno]
    | some json =>
      rw [← hmembers, Option.toList_some, List.map_singleton, List.singleton_append,
        List.lookup_cons_self]
      simp [htrigger json rfl]
  refine ⟨⟨a₁, a₂, a₃, a₄, a₅, a₆, a₇, trigger⟩, ?_, ?_, rfl⟩
  · unfold readPolicyBody
    rw [honly]
    simp only [Option.bind_eq_bind, Option.bind_some, h₁, h₂, h₃, h₄, h₅, h₆, h₇, h₈]
    rfl
  · exact ⟨fun n hn => Option.some.inj (hback₁ n hn), fun n hn => Option.some.inj (hback₂ n hn),
      hback₃, hback₄, hback₅, hback₆, fun n hn => Option.some.inj (hback₇ n hn)⟩

/-- What is read back can be converted, and changes nothing. -/
theorem ReadBack.convertible [Reader] {v : PolicyBody}
    (h : ReadBack fromDurationString attributes v) (htrigger : v.trigger = none) :
    Convertible fromDurationString (· ≤ 65535) v := by
  refine ⟨fun text htext => ⟨_, h.statisticsReportingPeriod text htext, ?_⟩, ?_, ?_, ?_, ?_⟩
  · have := attributes.statReportingPeriod.isLt
    rw [milliseconds_tdiv]
    omega
  · exact fun text htext => Option.isSome_of_eq_some (h.policyStorage text htext)
  · exact fun text htext => Option.isSome_of_eq_some (h.powerCorrectionType text htext)
  · exact fun text htext => Option.isSome_of_eq_some (h.limitException text htext)
  · rw [htrigger]
    exact fun json hjson => nomatch hjson

theorem getD_eq_of_forall {α : Type} {o : Option α} {a : α} (h : ∀ b ∈ o, b = a) :
    o.getD a = a := by
  cases o with
  | none => rfl
  | some b => exact h b rfl

theorem getD_bind_eq_of_forall {α β : Type} {o : Option α} {f : α → Option β} {b : β}
    (h : ∀ a ∈ o, f a = some b) : (o.bind f).getD b = b := by
  cases o with
  | none => rfl
  | some a => rw [Option.bind_some, h a rfl, Option.getD_some]

theorem ReadBack.merged_eq [Reader] {v : PolicyBody} (h : ReadBack fromDurationString attributes v)
    (htrigger : v.trigger = none) : merged fromDurationString v attributes = attributes := by
  have hperiod : ((v.statisticsReportingPeriod.bind fromDurationString).map fun value =>
      BitVec.ofInt 16 (value.tdiv 1000)).getD attributes.statReportingPeriod =
      attributes.statReportingPeriod := by
    cases htext : v.statisticsReportingPeriod with
    | none => rfl
    | some text =>
      rw [Option.bind_some, h.statisticsReportingPeriod text htext, Option.map_some,
        Option.getD_some, milliseconds_tdiv, BitVec.ofInt_natCast, BitVec.ofNat_toNat,
        BitVec.setWidth_eq]
  unfold merged
  rw [hperiod, htrigger, getD_eq_of_forall h.correctionInMs, getD_eq_of_forall h.limit,
    getD_bind_eq_of_forall h.policyStorage, getD_bind_eq_of_forall h.powerCorrectionType,
    getD_bind_eq_of_forall h.limitException, getD_eq_of_forall h.componentId]
  rfl

/-- "Trigger" cannot be read as it is shown: its type is a link. -/
theorem readTrigger_shownTrigger [Reader]
    (hid : getPropertyValue Attribute.string? properties "Id" = some policyName)
    (hcurrent : currentAttributes properties = some attributes) :
    readTrigger (shownTrigger (getAttributes toDurationString (some properties))) = none := by
  obtain ⟨-, -, -, -, -, -, -, htrigger⟩ := lookup_of_currentAttributes hcurrent
  have hlink : (getAttributes toDurationString (some properties)).shown
      ["Trigger", "TriggerType", "@odata.id"] =
        some (.string (nodeManagerPath ++ "Triggers/" ++ attributes.triggerType)) := by
    simp [getAttributes, hid, showAll, fieldsAfter, shown_show, htrigger, showLink,
      Attribute.string?]
  unfold shownTrigger
  generalize (getAttributes toDurationString (some properties)).shown ["Trigger", "TriggerLimit"] =
    limit
  rw [hlink, Option.toList_some, List.map_singleton, List.singleton_append]
  generalize hmembers :
    ("TriggerType", object _) :: limit.toList.map (("TriggerLimit", ·)) = members
  have htype : readOptional members "TriggerType" asString = none := by
    rw [readOptional, ← hmembers, List.lookup_cons_self]
    exact congrArg (Option.map some) (asString_object _)
  unfold readTrigger
  cases honly : onlyMembers ["TriggerLimit", "TriggerType"] (.object members) with
  | none => rfl
  | some members' =>
    obtain ⟨⟨⟩, -⟩ := onlyMembers_eq_some_iff.mp honly
    simp only [Option.bind_eq_bind, Option.bind_some, htype, Option.bind_none]
    cases readOptional members "TriggerLimit" (asUint 16) <;> rfl

/-- The members that a GET shows of a policy can be sent back, any of them, without changing it, but
for the suspend periods and the thresholds. With "Trigger" among them nothing is sent. -/
theorem patchPolicy_sentBack [Reader] (toDurationString : ℤ → String)
    (fromDurationString : String → Option ℤ) (properties : Properties) (attributes : PolicyParams)
    (hduration : fromDurationString
      (toDurationString (milliseconds attributes.statReportingPeriod)) =
        some (milliseconds attributes.statReportingPeriod))
    (hid : getPropertyValue Attribute.string? properties "Id" = some policyName)
    (hwritable : isPolicyReadOnly properties = false)
    (hcurrent : currentAttributes properties = some attributes) {names : List String}
    (hnames : ∀ name ∈ names, name ∈ patchable) :
    let view := getAttributes toDurationString (some properties)
    let members := sentBack names view
    patchPolicy fromDurationString (some properties) (.object members) =
      ⟨[], [{ attributes with suspendPeriods := [], thresholds := [] }]⟩ ∧
    (patchPolicy fromDurationString (some properties)
      (.object (("Trigger", shownTrigger view) :: members))).messages ≠ [] ∧
    (patchPolicy fromDurationString (some properties)
      (.object (("Trigger", shownTrigger view) :: members))).updates = [] := by
  intro view members
  refine ⟨?_, ?_⟩
  · obtain ⟨v, hbody, hback, htrigger⟩ := readPolicyBody_sentBack hduration hid hcurrent hnames
      none (fun _ h => nomatch h)
    have hsent := patchPolicy_convertible hwritable hcurrent hbody (hback.convertible htrigger)
    rw [hback.merged_eq htrigger] at hsent
    exact hsent
  · obtain ⟨v, hbody, -, htrigger⟩ := readPolicyBody_sentBack hduration hid hcurrent hnames
      (some (shownTrigger view)) (by
        rintro json ⟨⟩
        exact asJson_object _)
    refine patchPolicy_rejected fun current hmem _ attributes' _ v' hv' hconvertible => ?_
    obtain rfl : v = v' := Option.some.inj (hbody.symm.trans hv')
    have hreads := hconvertible.trigger _ htrigger
    rw [readTrigger_shownTrigger hid hcurrent] at hreads
    exact absurd hreads (by decide)

end RoundTrip

theorem patchPolicy_sentBack_tenSeconds :
    let properties : Properties := [("Id", .string "7"), ("Owner", .int32 0),
      ("PolicyType", .string "PowerPolicy"), ("CorrectionInMs", .uint32 6000),
      ("Limit", .uint16 300), ("StatisticsReportingPeriod", .uint16 10),
      ("PolicyStorage", .int32 0), ("PowerCorrectionType", .int32 1), ("LimitException", .int32 7),
      ("ComponentId", .byte 255), ("TriggerLimit", .uint16 0), ("TriggerType", .string "Always")]
    let fromDurationString := fun text => if text = "PT10.000S" then some (10000 : ℤ) else none
    let toDurationString := fun ms => if ms = 10000 then "PT10.000S" else ""
    patchPolicy fromDurationString (some properties)
      (.object (sentBack patchable (getAttributes toDurationString (some properties)))) =
        ⟨[], [⟨6000, 300, 10, 0, 1, 7, [], [], 255, 0, "Always"⟩]⟩ := by
  intro properties fromDurationString toDurationString
  have hduration : fromDurationString (toDurationString (milliseconds 10)) =
      some (milliseconds 10) := by decide
  have hid : getPropertyValue Attribute.string? properties "Id" = some "7" := rfl
  have hcurrent : currentAttributes properties =
      some ⟨6000, 300, 10, 0, 1, 7, [], [], 255, 0, "Always"⟩ := rfl
  exact (patchPolicy_sentBack toDurationString fromDurationString properties
    ⟨6000, 300, 10, 0, 1, 7, [], [], 255, 0, "Always"⟩ hduration hid rfl hcurrent
    fun _ h => h).1

end MetaCommon.NodeManager
