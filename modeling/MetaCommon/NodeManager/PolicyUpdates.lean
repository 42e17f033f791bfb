import MetaCommon.NodeManager.Policies

/-!
# What a PATCH of a policy keeps

An update should carry the current attributes, with the members that the body names replaced. The
members are converted one after the other, and an update is sent if every conversion went well; it
then carries what it should, but for the suspend periods and the thresholds, which are lost, and for
a period below zero, which is cut to 16 bits.
-/

namespace MetaCommon.NodeManager

open JsonTree

/-! ### What the PATCH should do -/

/-- The attributes as the parameters of an update. -/
def currentAttributes (properties : Properties) : Option PolicyParams := do
  let correctionInMs ← getPropertyValue Attribute.uint32? properties "CorrectionInMs"
  let limit ← getPropertyValue Attribute.uint16? properties "Limit"
  let statisticsReportingPeriod ←
    getPropertyValue Attribute.uint16? properties "StatisticsReportingPeriod"
  let policyStorage ← getPropertyValue Attribute.int32? properties "PolicyStorage"
  let powerCorrectionType ← getPropertyValue Attribute.int32? properties "PowerCorrectionType"
  let limitException ← getPropertyValue Attribute.int32? properties "LimitException"
  let componentId ← getPropertyValue Attribute.byte? properties "ComponentId"
  let triggerLimit ← getPropertyValue Attribute.uint16? properties "TriggerLimit"
  let triggerType ← getPropertyValue Attribute.string? properties "TriggerType"
  return ⟨correctionInMs, limit, statisticsReportingPeriod, policyStorage, powerCorrectionType,
    limitException,
    (getPropertyValue Attribute.suspendPeriods? properties "SuspendPeriods").getD [],
    (getPropertyValue Attribute.thresholds? properties "Thresholds").getD [],
    componentId, triggerLimit, triggerType⟩

def Named (map : List (ℤ × String)) (text : Option String) : Prop :=
  ∀ value ∈ text, (findOption map value).isSome

section Updates

variable (fromDurationString : String → Option ℤ)

/-- Every member of the body can be converted, with a period that `inRange` allows. -/
structure Convertible [Reader] (inRange : ℤ → Prop) (v : PolicyBody) : Prop where
  period : ∀ text ∈ v.statisticsReportingPeriod, ∃ value, fromDurationString text = some value ∧
    inRange (value.tdiv 1000)
  policyStorage : Named kPolicyStorageMap v.policyStorage
  powerCorrectionType : Named kPowerCorrectionTypeMap v.powerCorrectionType
  limitException : Named kLimitExceptionMap v.limitException
  trigger : ∀ json ∈ v.trigger, (readTrigger json).isSome

/-- The members that the body names are replaced by the converted values. -/
def merged [Reader] (v : PolicyBody) (params : PolicyParams) : PolicyParams where
  correctionInMs := v.correctionInMs.getD params.correctionInMs
  limit := v.limit.getD params.limit
  statReportingPeriod := ((v.statisticsReportingPeriod.bind fromDurationString).map fun value =>
    BitVec.ofInt 16 (value.tdiv 1000)).getD params.statReportingPeriod
  policyStorage := (v.policyStorage.bind (findOption kPolicyStorageMap)).getD params.policyStorage
  powerCorrectionType :=
    (v.powerCorrectionType.bind (findOption kPowerCorrectionTypeMap)).getD
      params.powerCorrectionType
  limitException :=
    (v.limitException.bind (findOption kLimitExceptionMap)).getD params.limitException
  suspendPeriods := params.suspendPeriods
  thresholds := params.thresholds
  componentId := v.componentId.getD params.componentId
  triggerLimit := ((v.trigger.bind readTrigger).bind Trigger.triggerLimit).getD params.triggerLimit
  triggerType := ((v.trigger.bind readTrigger).bind Trigger.triggerType).getD params.triggerType

/-- Seconds that a parameter of an update can hold. -/
def InSixteenBits (sec : ℤ) : Prop := 0 ≤ sec ∧ sec ≤ 65535

/-- Either an error and no update, or one update with what it should carry. -/
def UpdatesExactly [Reader] (properties : Option Properties) (body : JsonTree) : Prop :=
  let r := patchPolicy fromDurationString properties body
  (r.messages ≠ [] ∧ r.updates = []) ∨
    r.messages = [] ∧ ∃ attributes ∈ properties.bind currentAttributes,
      ∃ v ∈ readPolicyBody body, Convertible fromDurationString InSixteenBits v ∧
        r.updates = [merged fromDurationString v attributes]

/-- If the policy may be changed and the body can be converted, with a period that may be below
zero, then it is not below zero and there is nothing that would be lost. -/
def NothingLost [Reader] (properties : Option Properties) (body : JsonTree) : Prop :=
  ∀ current ∈ properties, isPolicyReadOnly current = false →
    ∀ attributes ∈ currentAttributes current, ∀ v ∈ readPolicyBody body,
      Convertible fromDurationString (· ≤ 65535) v →
      attributes.suspendPeriods = [] ∧ attributes.thresholds = [] ∧
        ∀ text ∈ v.statisticsReportingPeriod, ∀ value ∈ fromDurationString text,
          0 ≤ value.tdiv 1000

/-! ### What the conversions do -/

/-- A conversion reports nothing exactly if the member is valid, and then replaces it. -/
def Converts (convert : PolicyPatching → PolicyPatching) (valid : Prop)
    (f : PolicyParams → PolicyParams) : Prop :=
  ∀ s, ((convert s).messages = [] ↔ s.messages = [] ∧ valid) ∧
    (valid → (convert s).params = f s.params)

section Rules

variable {fromDurationString}
variable {convert convert' : PolicyPatching → PolicyPatching} {valid valid' : Prop}
  {f f' : PolicyParams → PolicyParams}

theorem Converts.comp (h : Converts convert valid f) (h' : Converts convert' valid' f') :
    Converts (fun s => convert' (convert s)) (valid ∧ valid') (f' ∘ f) := by
  intro s
  refine ⟨?_, fun hvalid => ?_⟩
  · rw [(h' (convert s)).1, (h s).1, and_assoc]
  · rw [(h' (convert s)).2 hvalid.2, (h s).2 hvalid.1]
    rfl

theorem Converts.congr (h : Converts convert valid f) (hvalid : valid ↔ valid')
    (hf : valid → ∀ params, f params = f' params) : Converts convert valid' f' := by
  intro s
  rw [← hvalid]
  exact ⟨(h s).1, fun hv => ((h s).2 hv).trans (hf hv _)⟩

/-- A member that is missing leaves everything as it is. -/
theorem Converts.elim {α : Type} {member : Option α} {convert : α → PolicyPatching → PolicyPatching}
    {valid : α → Prop} {f : α → PolicyParams → PolicyParams}
    (h : ∀ a, Converts (convert a) (valid a) (f a)) :
    Converts (fun s => member.elim s (convert · s)) (∀ a ∈ member, valid a)
      (fun params => member.elim params (f · params)) := by
  cases member with
  | none => exact fun s => by simp
  | some a => exact (h a).congr (by simp) (fun _ _ => rfl)

theorem converts_member {α : Type} (member : Option α) {get : PolicyParams → α}
    {put : α → PolicyParams → PolicyParams} (hput : ∀ params, put (get params) params = params) :
    Converts (fun s => member.elim s fun a => s.set (put a)) True
      fun params => put (member.getD (get params)) params := by
  have hset : ∀ a, Converts (fun s => s.set (put a)) True (put a) :=
    fun a s => ⟨by simp [PolicyPatching.set], fun _ => rfl⟩
  refine (Converts.elim hset).congr (by simp) fun _ params => ?_
  cases member with
  | none => exact (hput params).symm
  | some a => rfl

theorem converts_option (map : List (ℤ × String)) (name : String) (text : Option String)
    {get : PolicyParams → ℤ} {put : ℤ → PolicyParams → PolicyParams}
    (hput : ∀ params, put (get params) params = params) :
    Converts (fun s => text.elim s fun value => s.setOption map name value put) (Named map text)
      fun params => put ((text.bind (findOption map)).getD (get params)) params := by
  have hoption : ∀ value, Converts (fun s => s.setOption map name value put)
      (findOption map value).isSome
      fun params => put ((findOption map value).getD (get params)) params := by
    intro value s
    unfold PolicyPatching.setOption
    cases findOption map value with
    | none => simp [PolicyPatching.message]
    | some n => simp [PolicyPatching.set]
  refine (Converts.elim hoption).congr Iff.rfl fun _ params => ?_
  cases text with
  | none => exact (hput params).symm
  | some value => rfl

theorem converts_period (text : Option String) :
    Converts (fun s => text.elim s (setPeriod fromDurationString · s))
      (∀ value ∈ text, ∃ ms, fromDurationString value = some ms ∧ ms.tdiv 1000 ≤ 65535)
      fun params => { params with
        statReportingPeriod := ((text.bind fromDurationString).map fun value =>
          BitVec.ofInt 16 (value.tdiv 1000)).getD params.statReportingPeriod } := by
  have hperiod : ∀ value, Converts (setPeriod fromDurationString value)
      (∃ ms, fromDurationString value = some ms ∧ ms.tdiv 1000 ≤ 65535)
      fun params => { params with
        statReportingPeriod := ((fromDurationString value).map fun ms =>
          BitVec.ofInt 16 (ms.tdiv 1000)).getD params.statReportingPeriod } := by
    intro value s
    unfold setPeriod convertTimeString
    cases fromDurationString value with
    | none => simp
    | some ms =>
      by_cases hle : ms.tdiv 1000 ≤ 65535
      · simp [hle]
      · simp [hle]
  refine (Converts.elim hperiod).congr Iff.rfl fun _ params => ?_
  cases text <;> rfl

theorem converts_trigger [Reader] (trigger : Option JsonTree) :
    Converts (fun s => trigger.elim s (setTrigger · s))
      (∀ json ∈ trigger, (readTrigger json).isSome)
      fun params => { params with
        triggerLimit :=
          ((trigger.bind readTrigger).bind Trigger.triggerLimit).getD params.triggerLimit
        triggerType :=
          ((trigger.bind readTrigger).bind Trigger.triggerType).getD params.triggerType } := by
  have htrigger : ∀ json, Converts (setTrigger json) (readTrigger json).isSome
      fun params => { params with
        triggerLimit := ((readTrigger json).bind Trigger.triggerLimit).getD params.triggerLimit
        triggerType := ((readTrigger json).bind Trigger.triggerType).getD params.triggerType } := by
    intro json
    unfold setTrigger
    cases readTrigger json with
    | none => exact fun s => by simp [PolicyPatching.message]
    | some t =>
      exact ((converts_member t.triggerLimit fun _ => rfl).comp
        (converts_member t.triggerType fun _ => rfl)).congr (by simp) fun _ _ => rfl
  refine (Converts.elim htrigger).congr Iff.rfl fun _ params => ?_
  cases trigger <;> rfl

theorem converts_setMembers [Reader] (v : PolicyBody) : Converts (setMembers fromDurationString v)
    (Convertible fromDurationString (· ≤ 65535) v) (merged fromDurationString v) := by
  refine (((((((converts_member v.correctionInMs fun _ => rfl).comp
    (converts_member v.limit fun _ => rfl)).comp
    (converts_period v.statisticsReportingPeriod)).comp
    (converts_option kPolicyStorageMap "PolicyStorage" v.policyStorage fun _ => rfl)).comp
    (converts_option kPowerCorrectionTypeMap "PowerCorrectionType" v.powerCorrectionType
      fun _ => rfl)).comp
    (converts_option kLimitExceptionMap "LimitException" v.limitException fun _ => rfl)).comp
    (converts_member v.componentId fun _ => rfl)).comp (converts_trigger v.trigger) |>.congr ?_ ?_
  · constructor
    · rintro ⟨⟨⟨⟨⟨⟨-, hperiod⟩, hstorage⟩, htype⟩, hexception⟩, -⟩, htrigger⟩
      exact ⟨hperiod, hstorage, htype, hexception, htrigger⟩
    · rintro ⟨hperiod, hstorage, htype, hexception, htrigger⟩
      exact ⟨⟨⟨⟨⟨⟨⟨trivial, trivial⟩, hperiod⟩, hstorage⟩, htype⟩, hexception⟩, trivial⟩, htrigger⟩
  · exact fun _ _ => rfl

end Rules

/-! ### When an update is what it should be -/

/-- The attributes that are converted are the current ones without two of them. -/
theorem convertAttributesToPolicyParams_eq (properties : Properties) :
    convertAttributesToPolicyParams properties = (currentAttributes properties).map
      ({ · with suspendPeriods := [], thresholds := [] }) := by
  unfold convertAttributesToPolicyParams currentAttributes
  simp only [Option.bind_eq_bind, Option.map_bind, Function.comp_def]
  rfl

variable {fromDurationString}

/-- A convertible body is sent without the suspend periods and the thresholds. -/
theorem patchPolicy_convertible [Reader] {properties : Properties} {body : JsonTree}
    {v : PolicyBody} {attributes : PolicyParams} (hwritable : isPolicyReadOnly properties = false)
    (hcurrent : currentAttributes properties = some attributes)
    (hbody : readPolicyBody body = some v)
    (hconvertible : Convertible fromDurationString (· ≤ 65535) v) :
    patchPolicy fromDurationString (some properties) body = ⟨[], [{
      merged fromDurationString v attributes with suspendPeriods := [], thresholds := [] }]⟩ := by
  have hmembers : Converts (setMembers fromDurationString v) _ _ := converts_setMembers v
  obtain ⟨hmessages, hparams⟩ := hmembers
    ⟨{ attributes with suspendPeriods := [], thresholds := [] }, []⟩
  have hquiet := hmessages.mpr ⟨rfl, hconvertible⟩
  unfold patchPolicy updatePolicyParamsWithJsonValues
  simp only [hwritable, convertAttributesToPolicyParams_eq, hcurrent, Option.map_some, hbody,
    hquiet, hparams hconvertible]
  rfl

/-- Anything else is answered with an error. -/
theorem patchPolicy_rejected [Reader] {properties : Option Properties} {body : JsonTree}
    (h : ∀ current ∈ properties, isPolicyReadOnly current = false →
      ∀ attributes ∈ currentAttributes current, ∀ v ∈ readPolicyBody body,
        ¬ Convertible fromDurationString (· ≤ 65535) v) :
    (patchPolicy fromDurationString properties body).messages ≠ [] ∧
      (patchPolicy fromDurationString properties body).updates = [] := by
  unfold patchPolicy
  split
  · exact ⟨List.cons_ne_nil _ _, rfl⟩
  · next current =>
    split
    · exact ⟨List.cons_ne_nil _ _, rfl⟩
    · next hwritable =>
      split
      · exact ⟨List.cons_ne_nil _ _, rfl⟩
      · next params hparams =>
        rw [convertAttributesToPolicyParams_eq, Option.map_eq_some_iff] at hparams
        obtain ⟨attributes, hcurrent, -⟩ := hparams
        have hnoisy : (updatePolicyParamsWithJsonValues fromDurationString body
            ⟨params, []⟩).messages ≠ [] := by
          unfold updatePolicyParamsWithJsonValues
          split
          · simp [PolicyPatching.message]
          · next v hbody =>
            intro hquiet
            exact h current rfl (by simpa using hwritable) attributes hcurrent v hbody
              ((converts_setMembers v ⟨params, []⟩).1.mp hquiet).2
        simp only [if_neg hnoisy]
        exact ⟨hnoisy, trivial⟩

theorem convertible_iff [Reader] (v : PolicyBody) : Convertible fromDurationString InSixteenBits v ↔
    Convertible fromDurationString (· ≤ 65535) v ∧
      ∀ text ∈ v.statisticsReportingPeriod, ∀ value ∈ fromDurationString text,
        0 ≤ value.tdiv 1000 := by
  constructor
  · rintro ⟨hperiod, hstorage, htype, hexception, htrigger⟩
    refine ⟨⟨fun text htext => ?_, hstorage, htype, hexception, htrigger⟩,
      fun text htext value hvalue => ?_⟩
    · obtain ⟨value, hvalue, hrange⟩ := hperiod text htext
      exact ⟨value, hvalue, hrange.2⟩
    · obtain ⟨value', hvalue', hrange⟩ := hperiod text htext
      obtain rfl : value' = value := Option.some.inj (hvalue'.symm.trans hvalue)
      exact hrange.1
  · rintro ⟨⟨hperiod, hstorage, htype, hexception, htrigger⟩, hpositive⟩
    refine ⟨fun text htext => ?_, hstorage, htype, hexception, htrigger⟩
    obtain ⟨value, hvalue, hle⟩ := hperiod text htext
    exact ⟨value, hvalue, hpositive text htext value hvalue, hle⟩

/-- An update is what it should be exactly if it would lose nothing. -/
theorem updatesExactly_iff_nothingLost [Reader] (properties : Option Properties) (body : JsonTree) :
    UpdatesExactly fromDurationString properties body ↔
      NothingLost fromDurationString properties body := by
  constructor
  · rintro h current rfl hwritable attributes hcurrent v hbody hconvertible
    unfold UpdatesExactly at h
    rw [patchPolicy_convertible hwritable hcurrent hbody hconvertible] at h
    rcases h with ⟨hmessages, -⟩ | ⟨-, attributes', hcurrent', v', hbody', hexact, hupdates⟩
    · exact absurd rfl hmessages
    · obtain rfl : attributes = attributes' := Option.some.inj (hcurrent.symm.trans hcurrent')
      obtain rfl : v = v' := Option.some.inj (hbody.symm.trans hbody')
      have hparams := (List.cons.inj hupdates).1
      exact ⟨(congrArg PolicyParams.suspendPeriods hparams).symm,
        (congrArg PolicyParams.thresholds hparams).symm, ((convertible_iff v).mp hexact).2⟩
  · intro h
    by_cases hall : ∀ current ∈ properties, isPolicyReadOnly current = false →
        ∀ attributes ∈ currentAttributes current, ∀ v ∈ readPolicyBody body,
          ¬ Convertible fromDurationString (· ≤ 65535) v
    · exact .inl (patchPolicy_rejected hall)
    · push Not at hall
      obtain ⟨current, rfl, hwritable, attributes, hcurrent, v, hbody, hconvertible⟩ := hall
      obtain ⟨hperiods, hthresholds, hpositive⟩ :=
        h current rfl hwritable attributes hcurrent v hbody hconvertible
      refine .inr ?_
      rw [patchPolicy_convertible hwritable hcurrent hbody hconvertible]
      refine ⟨rfl, attributes, hcurrent, v, hbody,
        (convertible_iff v).mpr ⟨hconvertible, hpositive⟩, ?_⟩
      obtain ⟨_, _, _, _, _, _, periods, thresholds, _, _, _⟩ := attributes
      dsimp only at hperiods hthresholds
      subst hperiods hthresholds
      rfl

end Updates

/-- A policy with a threshold loses it in a PATCH of its limit. -/
theorem not_updatesExactly : ¬ UpdatesExactly (fun _ => none)
    (some [("Owner", .int32 0), ("CorrectionInMs", .uint32 6000), ("Limit", .uint16 300),
      ("StatisticsReportingPeriod", .uint16 10), ("PolicyStorage", .int32 0),
      ("PowerCorrectionType", .int32 0), ("LimitException", .int32 0),
      ("SuspendPeriods", .suspendPeriods []), ("Thresholds", .thresholds [("Threshold", [200])]),
      ("ComponentId", .byte 255), ("TriggerLimit", .uint16 0), ("TriggerType", .string "Always")])
    (.object [("Limit", .unsigned 400)]) := by
  rintro (⟨hmessages, -⟩ | ⟨-, attributes, hcurrent, v, hbody, -, hupdates⟩)
  · exact hmessages rfl
  · obtain rfl := Option.some.inj hcurrent
    obtain rfl := Option.some.inj hbody
    have hthresholds := congrArg PolicyParams.thresholds (List.cons.inj hupdates).1
    exact absurd hthresholds (by decide)

end MetaCommon.NodeManager
