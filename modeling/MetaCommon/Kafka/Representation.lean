import MetaCommon.Kafka.KafkaManager
import MetaCommon.Lib.JsonTree

/-!
# The representation of a subscription, and the PATCH of it

`getSubscription` shows the members of a subscription that are for Kafka in the object "Kafka" of
"Intel" of "Oem". `updateSubscription` reads them from "Intel", dereferences an "Oem" that is not
there, and appends to the additional destinations. So no part of a representation can be sent back.
-/

namespace MetaCommon.Kafka

open JsonTree

/-! ### The body of a PATCH -/

section Body

variable [Reader]

/-- `json_util::readJson` with the names of the members for Kafka. -/
def readKafkaPatch (json : JsonTree) : Option KafkaPatch := do
  let members ← onlyMembers
    ["AdditionalDestinations", "KafkaTopic", "AvroSchemaId", "StreamingRateMs", "CertificateUri"]
    json
  let addDest ← readOptional members "AdditionalDestinations" asStrings
  let topic ← readOptional members "KafkaTopic" asString
  let schemaId ← readOptional members "AvroSchemaId" (asUint 32)
  let streamRate ← readOptional members "StreamingRateMs" (asUint 32)
  let certUri ← readOptional members "CertificateUri" asString
  return ⟨addDest, topic, schemaId, streamRate, certUri⟩

/-- `json_util::readJson` with "Intel", and of its value the members for Kafka. -/
def readOem (oemObject : JsonTree) : Option (Option KafkaPatch) := do
  let members ← onlyMembers ["Intel"] oemObject
  let intel ← (members.lookup "Intel").bind asJson
  return readKafkaPatch intel

/-- `json_util::readJsonPatch`, which leaves out annotations and reports a body without anything
else. -/
def readPatchBody (json : JsonTree) : Option PatchBody := do
  let members ← onlyMembers ["Destination", "Context", "Oem"] (withoutAnnotations json)
  if members = [] then none
  else
    let dest ← readOptional members "Destination" asString
    let context ← readOptional members "Context" asString
    let oem ← readOptional members "Oem" asJson
    return ⟨dest, context, oem.map readOem⟩

end Body

/-! ### The representation -/

def refLink (subId : String) : String := "/redfish/v1/EventService/Subscriptions/" ++ subId

/-- The members that a PATCH can change. -/
inductive Member
  | destination
  | context
  | additionalDestinations
  | kafkaTopic
  | avroSchemaId
  | streamingRateMs
  | certificateUri
deriving DecidableEq

def Member.path : Member → List String
  | .destination => ["Destination"]
  | .context => ["Context"]
  | .additionalDestinations => ["Oem", "Intel", "Kafka", "AdditionalDestinations"]
  | .kafkaTopic => ["Oem", "Intel", "Kafka", "KafkaTopic"]
  | .avroSchemaId => ["Oem", "Intel", "Kafka", "AvroSchemaId"]
  | .streamingRateMs => ["Oem", "Intel", "Kafka", "StreamingRateMs"]
  | .certificateUri => ["Oem", "Intel", "Kafka", "CertificateUri"]

/-- The members in the order of the map that holds them. -/
def getSubscription (subId : String) (subData : KafkaConfig) : JsonTree :=
  .object
    [("@odata.id", .string (refLink subId)),
      ("@odata.type", .string "#EventDestination.v1_9_0.EventDestination"),
      ("Context", .string subData.context),
      ("Destination", .string subData.mainBroker),
      ("Id", .string subId),
      ("Name", .string ("Event Destination " ++ subId)),
      ("OEMProtocol", .string "Avro"),
      ("OEMSubscriptionType", .string "Kafka"),
      ("Oem", .object
        [("@odata.id", .string (refLink subId ++ "#/Oem")),
          ("@odata.type", .string "#OemEventDestination.Oem"),
          ("Intel", .object
            [("@odata.id", .string (refLink subId ++ "#/Oem/Intel")),
              ("@odata.type", .string "#OemEventDestination.Intel"),
              ("Kafka", .object
                [("@odata.id", .string (refLink subId ++ "#/Oem/Intel/Kafka")),
                  ("@odata.type", .string "#OemEventDestination.Kafka"),
                  ("AdditionalDestinations", .array (subData.additionalBrokers.map .string)),
                  ("AvroSchemaId", .unsigned subData.schemaId.toNat),
                  ("CertificateUri", .string subData.certUri),
                  ("KafkaTopic", .string subData.topic),
                  ("StreamingRateMs", .unsigned subData.sInterval.toNat)])])]),
      ("Protocol", .string "OEM"),
      ("SubscriptionType", .string "OEM")]

/-! ### Bodies in the form of the representation -/

/-- Some of the members, with their values. -/
structure Members where
  dest : Option String
  context : Option String
  kafka : KafkaPatch

def Members.value (p : Members) : Member → Option JsonTree
  | .destination => p.dest.map .string
  | .context => p.context.map .string
  | .additionalDestinations => p.kafka.addDest.map fun addDest => .array (addDest.map .string)
  | .kafkaTopic => p.kafka.topic.map .string
  | .avroSchemaId => p.kafka.schemaId.map fun schemaId => .unsigned schemaId.toNat
  | .streamingRateMs => p.kafka.streamRate.map fun streamRate => .unsigned streamRate.toNat
  | .certificateUri => p.kafka.certUri.map .string

def Member.name (m : Member) : String := m.path.getLastD ""

section Encoding

variable (value : Member → Option JsonTree)

/-- The member in front of the others, if it has a value. -/
def withMember (m : Member) (rest : List (String × JsonTree)) : List (String × JsonTree) :=
  match value m with
  | some json => (m.name, json) :: rest
  | none => rest

def kafkaPart : List (String × JsonTree) :=
  withMember value .additionalDestinations <| withMember value .avroSchemaId <|
    withMember value .certificateUri <| withMember value .kafkaTopic <|
    withMember value .streamingRateMs []

/-- The body that has these values where the representation has them. -/
def encode : JsonTree :=
  .object <| withMember value .context <| withMember value .destination <|
    if (kafkaPart value).isEmpty then []
    else [("Oem", .object [("Intel", .object [("Kafka", .object (kafkaPart value))])])]

end Encoding

/-- The chosen members of the representation, with the values that it shows. -/
def chosen (sel : Member → Bool) (subId : String) (subData : KafkaConfig) (m : Member) :
    Option JsonTree :=
  if sel m then (getSubscription subId subData).at? m.path else none

section Encodings

variable {value : Member → Option JsonTree}

theorem lookup_withMember (name : String) (m : Member) (rest : List (String × JsonTree)) :
    (withMember value m rest).lookup name =
      if name = m.name then (value m).or (rest.lookup name) else rest.lookup name := by
  unfold withMember
  cases value m with
  | none => simp
  | some json =>
    by_cases hname : name = m.name
    · simp [hname]
    · have hne : (name == m.name) = false := beq_eq_false_iff_ne.mpr hname
      simp [hname, List.lookup_cons, hne]

variable [Reader]

/-- "Kafka" is no member that the PATCH reads from "Intel". -/
theorem readOem_kafka (json : JsonTree) :
    readOem (.object [("Intel", .object [("Kafka", json)])]) = some none := by
  have hintel : onlyMembers ["Intel"] (.object [("Intel", .object [("Kafka", json)])]) =
      some [("Intel", .object [("Kafka", json)])] := onlyMembers_eq_some_iff.mpr ⟨rfl, by simp⟩
  have hkafka : readKafkaPatch (.object [("Kafka", json)]) = none := by
    rw [readKafkaPatch, Option.bind_eq_bind, Option.bind_eq_none_iff]
    intro members hmembers
    obtain ⟨hobject, hnames⟩ := onlyMembers_eq_some_iff.mp hmembers
    obtain rfl := JsonTree.object.inj hobject
    exact absurd (hnames _ List.mem_cons_self) (by simp)
  simp [readOem, hintel, asJson_object, hkafka]

theorem withoutAnnotations_encode : withoutAnnotations (encode value) = encode value := by
  refine withoutAnnotations_eq_self ?_
  unfold withMember
  split <;> split <;> split <;> simp [Member.name, Member.path]

/-- What a PATCH reads of "Oem". -/
theorem readPatchBody_oem {json : JsonTree} {r : PatchBody} {oem : Option (Option KafkaPatch)}
    (h : readPatchBody json = some r) (hoem : r.oem = some oem) :
    ∃ members value, withoutAnnotations json = .object members ∧
      members.lookup "Oem" = some value ∧ readOem value = oem := by
  unfold readPatchBody at h
  obtain ⟨members, hmembers, h⟩ := Option.bind_eq_some_iff.mp h
  split at h
  · exact absurd h (by simp)
  · obtain ⟨dest, hdest, h⟩ := Option.bind_eq_some_iff.mp h
    obtain ⟨context, hcontext, h⟩ := Option.bind_eq_some_iff.mp h
    obtain ⟨oemObject, hobject, h⟩ := Option.bind_eq_some_iff.mp h
    obtain rfl := Option.some.inj h
    obtain ⟨value, rfl, rfl⟩ := Option.map_eq_some_iff.mp hoem
    obtain ⟨value', hlookup, hvalue⟩ := readOptional_eq_some hobject
    obtain rfl := asJson_eq_some hvalue
    exact ⟨members, value', (onlyMembers_eq_some_iff.mp hmembers).1, hlookup, rfl⟩

/-- The PATCH finds no member that it knows in the "Oem" of such a body. -/
theorem readPatchBody_encode {r : PatchBody} (h : readPatchBody (encode value) = some r)
    (k : KafkaPatch) : r.oem ≠ some (some (some k)) := by
  intro hoem
  obtain ⟨members, json, hmembers, hlookup, hread⟩ := readPatchBody_oem h hoem
  rw [withoutAnnotations_encode] at hmembers
  obtain rfl := JsonTree.object.inj hmembers
  rw [lookup_withMember, if_neg (by decide), lookup_withMember, if_neg (by decide)] at hlookup
  split at hlookup
  · exact absurd hlookup (by simp)
  · obtain rfl : JsonTree.object _ = json := by simpa [List.lookup_cons] using hlookup
    rw [readOem_kafka] at hread
    exact absurd hread (by simp)

end Encodings

/-! ### What the PATCH should do -/

section Patches

variable (parseUri : String → Except UrlError UrlView) (depth : ℕ)

/-- What should become of a subscription: what is named is replaced. -/
def replaced (subData : KafkaConfig) (p : Members) : Except Failure KafkaConfig := do
  let mainBroker ← p.dest.elim (.ok subData.mainBroker)
    (parseAndValidateDestination parseUri "Destination" depth)
  let additionalBrokers ← p.kafka.addDest.elim (.ok subData.additionalBrokers)
    (·.mapM (parseAndValidateDestination parseUri "AdditionalDestinations" depth))
  ifSome p.kafka.topic validateTopic
  ifSome p.kafka.schemaId validateSchemaId
  ifSome p.kafka.streamRate validateInterval
  return ⟨mainBroker, additionalBrokers, p.kafka.topic.getD subData.topic,
    p.kafka.schemaId.getD subData.schemaId, p.kafka.streamRate.getD subData.sInterval,
    p.kafka.certUri.getD subData.certUri, p.context.getD subData.context⟩

/-- No destination uses up the stack. -/
def KeepsStack : Prop :=
  ∀ fieldName dest, parseAndValidateDestination parseUri fieldName depth dest ≠ .error .crashed

/-- The members that the PATCH reads of a body, if it reads it to the end. -/
def readMembers [Reader] (body : JsonTree) : Option Members :=
  match readPatchBody body with
  | some ⟨dest, context, some (some (some kafka))⟩ => some ⟨dest, context, kafka⟩
  | _ => none

structure Faithful [Reader] (subData : KafkaConfig) (body : JsonTree) : Prop where
  /-- Apart from a destination that uses up the stack, nothing takes the daemon down. -/
  defined : ∀ parseUri depth, KeepsStack parseUri depth →
    updateSubscription parseUri depth subData (readPatchBody body) ≠ .error .crashed
  /-- A part of the representation, sent back, changes nothing. -/
  keeps : ∀ (sel : Member → Bool) subId, body = encode (chosen sel subId subData) →
    updateSubscription parseUri depth subData (readPatchBody body) = .ok subData
  /-- A valid body changes what it names, in the form of the representation or in its own. -/
  sets : ∀ p subData', body = encode p.value ∨ readMembers body = some p →
    replaced parseUri depth subData p = .ok subData' →
    updateSubscription parseUri depth subData (readPatchBody body) = .ok subData'

/-- The bodies that are dealt with as they should be. -/
structure Patchable [Reader] (subData : KafkaConfig) (body : JsonTree) : Prop where
  /-- There is an "Oem", or nothing else either. -/
  oem : ∀ r, readPatchBody body = some r → r.oem = none → r.dest = none ∧ r.context = none
  notShown : ∀ (sel : Member → Bool) subId, body ≠ encode (chosen sel subId subData)
  notValid : ∀ p subData', replaced parseUri depth subData p = .ok subData' → body ≠ encode p.value
  /-- A list is only given where there is none. -/
  fresh : ∀ p subData', readMembers body = some p →
    replaced parseUri depth subData p = .ok subData' → p.kafka.addDest.isSome →
    subData.additionalBrokers = []

/-! ### What the PATCH does -/

theorem bind_ne_crashed {α β : Type} {x : Except Failure α} {k : α → Except Failure β}
    (hx : x ≠ .error .crashed) (hk : ∀ a, k a ≠ .error .crashed) : x >>= k ≠ .error .crashed := by
  cases x with
  | error e => exact fun h => hx (congrArg _ (Except.error.inj h))
  | ok a => exact hk a

theorem mapM_ne_crashed {α β : Type} {f : α → Except Failure β} (hf : ∀ a, f a ≠ .error .crashed)
    (as : List α) : as.mapM f ≠ .error .crashed := by
  induction as with
  | nil => exact fun h => nomatch h
  | cons a as ih =>
    rw [List.mapM_cons]
    exact bind_ne_crashed (hf a) fun b => bind_ne_crashed ih fun bs h => nomatch h

theorem elim_ne_crashed {α β : Type} {x : Except Failure β} {f : α → Except Failure β}
    (hx : x ≠ .error .crashed) (hf : ∀ a, f a ≠ .error .crashed) (value : Option α) :
    value.elim x f ≠ .error .crashed := by
  cases value with
  | none => exact hx
  | some a => exact hf a

theorem ifSome_ne_crashed {α : Type} {check : α → Except Failure Unit}
    (hcheck : ∀ v, check v ≠ .error .crashed) (value : Option α) :
    ifSome value check ≠ .error .crashed := by
  cases value with
  | none => exact fun h => nomatch h
  | some v => exact hcheck v

theorem validateTopic_ne_crashed (topic : String) : validateTopic topic ≠ .error .crashed := by
  unfold validateTopic
  split
  · simp
  · split <;> simp

theorem validateInterval_ne_crashed (intervalMs : BitVec 32) :
    validateInterval intervalMs ≠ .error .crashed := by
  unfold validateInterval
  split <;> simp

theorem validateSchemaId_ne_crashed (schemaId : BitVec 32) :
    validateSchemaId schemaId ≠ .error .crashed := by
  unfold validateSchemaId
  split <;> simp

section

variable {parseUri : String → Except UrlError UrlView} {depth : ℕ} (subData : KafkaConfig)

theorem updateSubscription_unread (dest context : Option String) :
    updateSubscription parseUri depth subData (some ⟨dest, context, some none⟩) =
      .error (.rejected .readJson) := by
  cases dest <;> rfl

/-- The destination is parsed before the members of "Intel" are read. -/
theorem updateSubscription_members_unread (dest : String) (context : Option String) :
    updateSubscription parseUri depth subData (some ⟨some dest, context, some (some none)⟩) =
      parseAndValidateDestination parseUri "Destination" depth dest >>= fun _ =>
        .error (.rejected .readJson) := rfl

theorem updateSubscription_crashed {dest context : Option String}
    (hbody : ¬ (dest = none ∧ context = none)) :
    updateSubscription parseUri depth subData (some ⟨dest, context, none⟩) = .error .crashed := by
  cases dest with
  | some dest => rfl
  | none =>
    cases context with
    | some context => rfl
    | none => exact absurd ⟨rfl, rfl⟩ hbody

/-- Everything of the body is read. A list is appended. -/
theorem updateSubscription_read (p : Members) :
    updateSubscription parseUri depth subData
        (some ⟨p.dest, p.context, some (some (some p.kafka))⟩) =
      (fun subData' : KafkaConfig =>
        if p.kafka.addDest.isSome then
          { subData' with
            additionalBrokers := subData.additionalBrokers ++ subData'.additionalBrokers }
        else subData') <$> replaced parseUri depth subData p := by
  obtain ⟨dest, context, addDest, topic, schemaId, streamRate, certUri⟩ := p
  have hok : ∀ {α β : Type} (a : α) (k : α → Except Failure β), Except.ok a >>= k = k a :=
    fun _ _ => rfl
  unfold updateSubscription replaced appendBrokers
  cases dest <;> cases addDest <;> simp [map_bind, hok]

theorem replaced_ne_crashed (hkeeps : KeepsStack parseUri depth) (p : Members) :
    replaced parseUri depth subData p ≠ .error .crashed := by
  have hok : ∀ {α : Type} (a : α), Except.ok a ≠ .error Failure.crashed := fun a h => nomatch h
  unfold replaced
  exact bind_ne_crashed (elim_ne_crashed (hok _) (hkeeps _) _) fun _ =>
    bind_ne_crashed (elim_ne_crashed (hok _) (mapM_ne_crashed (hkeeps _)) _) fun _ =>
      bind_ne_crashed (ifSome_ne_crashed validateTopic_ne_crashed _) fun _ =>
        bind_ne_crashed (ifSome_ne_crashed validateSchemaId_ne_crashed _) fun _ =>
          bind_ne_crashed (ifSome_ne_crashed validateInterval_ne_crashed _) fun _ => hok _

/-- With an "Oem" nothing is dereferenced that is not there. -/
theorem updateSubscription_ne_crashed (hkeeps : KeepsStack parseUri depth)
    {body : Option PatchBody}
    (hbody : ∀ r, body = some r → r.oem = none → r.dest = none ∧ r.context = none) :
    updateSubscription parseUri depth subData body ≠ .error .crashed := by
  rcases body with _ | ⟨dest, context, _ | _ | _ | kafka⟩
  · exact fun h => nomatch h
  · obtain ⟨hdest, hcontext⟩ := hbody _ rfl rfl
    dsimp only at hdest hcontext
    subst hdest hcontext
    exact fun h => nomatch h
  · rw [updateSubscription_unread]
    exact fun h => nomatch h
  · cases dest with
    | none => exact fun h => nomatch h
    | some dest =>
      rw [updateSubscription_members_unread]
      exact bind_ne_crashed (hkeeps _ dest) fun _ h => nomatch h
  · rw [updateSubscription_read subData ⟨dest, context, kafka⟩, map_eq_pure_bind]
    exact bind_ne_crashed (replaced_ne_crashed subData hkeeps _) fun _ h => nomatch h

theorem updateSubscription_encode [Reader] {value : Member → Option JsonTree}
    (subData' : KafkaConfig) : updateSubscription parseUri depth subData
      (readPatchBody (encode value)) ≠ .ok subData' := by
  cases hread : readPatchBody (encode value) with
  | none => exact fun h => nomatch h
  | some r =>
    have hoem := readPatchBody_encode hread
    rcases r with ⟨dest, context, _ | _ | _ | kafka⟩
    · cases dest <;> cases context <;> exact fun h => nomatch h
    · rw [updateSubscription_unread]
      exact fun h => nomatch h
    · cases dest with
      | none => exact fun h => nomatch h
      | some dest =>
        rw [updateSubscription_members_unread]
        cases parseAndValidateDestination parseUri "Destination" depth dest <;>
          exact fun h => nomatch h
    · exact absurd rfl (hoem kafka)

end

variable [Reader]

theorem readPatchBody_of_readMembers {body : JsonTree} {p : Members}
    (h : readMembers body = some p) :
    readPatchBody body = some ⟨p.dest, p.context, some (some (some p.kafka))⟩ := by
  unfold readMembers at h
  split at h
  · next dest context kafka hbody =>
    obtain rfl := Option.some.inj h
    exact hbody
  · exact absurd h (by simp)

variable {parseUri depth}

theorem Patchable.faithful {subData : KafkaConfig} {body : JsonTree}
    (h : Patchable parseUri depth subData body) : Faithful parseUri depth subData body where
  defined _ _ hkeeps := updateSubscription_ne_crashed subData hkeeps h.oem
  keeps sel subId hbody := absurd hbody (h.notShown sel subId)
  sets p subData' hbody hvalid := by
    rcases hbody with hbody | hread
    · exact absurd hbody (h.notValid p subData' hvalid)
    · rw [readPatchBody_of_readMembers hread, updateSubscription_read, hvalid]
      by_cases hlist : p.kafka.addDest.isSome = true
      · simp [hlist, h.fresh p subData' hread hvalid hlist]
      · simp [hlist]

/-- Without an "Oem", no destination has to be parsed for the daemon to go down. -/
theorem Faithful.oem {subData : KafkaConfig} {body : JsonTree}
    (h : Faithful parseUri depth subData body) {r : PatchBody} (hr : readPatchBody body = some r)
    (hoem : r.oem = none) : r.dest = none ∧ r.context = none := by
  by_contra hnot
  have hkeeps : KeepsStack (fun _ => .error .other) 1 := fun _ _ h => nomatch h
  obtain ⟨dest, context, oem⟩ := r
  subst hoem
  exact h.defined _ 1 hkeeps (by rw [hr, updateSubscription_crashed subData hnot])

theorem Faithful.fresh {subData subData' : KafkaConfig} {body : JsonTree} {p : Members}
    (h : Faithful parseUri depth subData body) (hread : readMembers body = some p)
    (hvalid : replaced parseUri depth subData p = .ok subData')
    (hlist : p.kafka.addDest.isSome = true) : subData.additionalBrokers = [] := by
  have hsets := h.sets p subData' (.inr hread) hvalid
  rw [readPatchBody_of_readMembers hread, updateSubscription_read, hvalid] at hsets
  simp only [hlist, if_true] at hsets
  have hbrokers := congrArg KafkaConfig.additionalBrokers (Except.ok.inj hsets)
  exact List.append_left_eq_self.mp hbrokers

/-- No part of a representation can be sent back, and a list grows. -/
theorem faithful_iff_patchable (subData : KafkaConfig) (body : JsonTree) :
    Faithful parseUri depth subData body ↔ Patchable parseUri depth subData body := by
  constructor
  · intro h
    exact {
      oem := fun _ => h.oem
      notShown := fun sel subId hbody =>
        updateSubscription_encode subData _ (hbody ▸ h.keeps sel subId hbody)
      notValid := fun p subData' hvalid hbody =>
        updateSubscription_encode subData _ (hbody ▸ h.sets p subData' (.inl hbody) hvalid)
      fresh := fun _ _ => h.fresh }
  · exact Patchable.faithful

end Patches

/-- A PATCH of the destination alone takes the daemon down. -/
theorem not_faithful_destination : ¬ Faithful (fun _ => .error .other) 1
    ⟨"broker:9093", [], "topic", 1, 1000, "", ""⟩
    (.object [("Destination", .string "ssl://broker:9094")]) := fun h =>
  h.defined (fun _ => .error .other) 1 (fun _ _ h => nomatch h) (by decide)

end MetaCommon.Kafka
