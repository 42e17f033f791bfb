import Mathlib.Data.String.Basic
import MetaCommon.Lib.FlatMap

/-!
# Kafka subscriptions

The manager keeps the subscriptions in a map and writes them to a file. A create, an update and the
restore of a subscription read a certificate and then call the backend; a delete calls the backend
at once. The replies come later and in any order, and the daemon may be restarted between any two.
`json_util::readJson` and `boost::urls::parse_uri` are upstream.
-/

namespace MetaCommon.Kafka

structure KafkaConfig where
  mainBroker : String
  additionalBrokers : List String
  topic : String
  schemaId : BitVec 32
  sInterval : BitVec 32
  certUri : String
  context : String
deriving DecidableEq

/-! ### Validation -/

inductive Message
  | propertyValueFormatError (value field : String)
  | readJson
  | notFound
deriving DecidableEq

/-- A request is answered with a message, or the daemon goes down. -/
inductive Failure
  | rejected (m : Message)
  | crashed
deriving DecidableEq

inductive UrlError
  | needMore
  | mismatch
  | other

structure UrlView where
  hasAuthority : Bool
  scheme : String
  hostNone : Bool
  encodedAuthority : String

section Requests

variable (parseUri : String → Except UrlError UrlView) (depth : ℕ)

/-- `depth` is how many calls the stack has room for. -/
def parseAndValidateDestination (fieldName : String) : ℕ → String → Except Failure String
  | 0, _ => .error .crashed
  | depth + 1, dest => match parseUri dest with
    | .error .needMore => parseAndValidateDestination fieldName depth ("ssl://" ++ dest)
    | .error .mismatch => parseAndValidateDestination fieldName depth ("ssl://" ++ dest)
    | .error .other => .error (.rejected (.propertyValueFormatError dest fieldName))
    | .ok url =>
      if ¬ url.hasAuthority then parseAndValidateDestination fieldName depth ("ssl://" ++ dest)
      else if url.scheme ≠ "ssl" then .error (.rejected (.propertyValueFormatError dest fieldName))
      else if url.hostNone then .error (.rejected (.propertyValueFormatError dest fieldName))
      else .ok url.encodedAuthority

def validateTopic (topic : String) : Except Failure Unit :=
  if 249 < topic.length then .error (.rejected (.propertyValueFormatError topic "KafkaTopic"))
  else if ¬ topic.toList.all (fun c => c.isAlphanum || c == '-' || c == '_' || c == '.') then
    .error (.rejected (.propertyValueFormatError topic "KafkaTopic"))
  else .ok ()

def validateInterval (intervalMs : BitVec 32) : Except Failure Unit :=
  if intervalMs.toNat < 1000 then
    .error (.rejected (.propertyValueFormatError (Nat.repr intervalMs.toNat) "StreamingRateMs"))
  else .ok ()

def validateSchemaId (schemaId : BitVec 32) : Except Failure Unit :=
  if 2147483647 < schemaId.toNat then
    .error (.rejected (.propertyValueFormatError (Nat.repr schemaId.toNat) "AvroSchemaId"))
  else .ok ()

def ifSome {α : Type} (value : Option α) (check : α → Except Failure Unit) : Except Failure Unit :=
  match value with
  | none => .ok ()
  | some v => check v

/-- The loop over "AdditionalDestinations". -/
def appendBrokers (brokers : List String) (addDest : Option (List String)) :
    Except Failure (List String) := do
  let subBrokers ←
    (addDest.getD []).mapM (parseAndValidateDestination parseUri "AdditionalDestinations" depth)
  return brokers ++ subBrokers

/-- The members of "Kafka" in a create request. -/
structure KafkaObj where
  addDest : Option (List String)
  topic : String
  schemaId : BitVec 32
  sInterval : BitVec 32
  certUri : String

/-- A create request with the protocol "Oem". "Oem" itself may be missing, and "Intel", "Kafka" or
the members of that unreadable. -/
structure CreateRequest where
  dest : String
  context : Option String
  oem : Option (Option KafkaObj)

/-- The request handler dereferences "Oem" for the call, also where it is missing. -/
def createSubscription (r : CreateRequest) : Except Failure KafkaConfig := do
  let oemObject ← r.oem.elim (.error .crashed) .ok
  let mainBroker ← parseAndValidateDestination parseUri "Destination" depth r.dest
  let kafkaObj ← oemObject.elim (.error (.rejected .readJson)) .ok
  validateTopic kafkaObj.topic
  validateInterval kafkaObj.sInterval
  validateSchemaId kafkaObj.schemaId
  let additionalBrokers ← appendBrokers parseUri depth [] kafkaObj.addDest
  return ⟨mainBroker, additionalBrokers, kafkaObj.topic, kafkaObj.schemaId, kafkaObj.sInterval,
    kafkaObj.certUri, r.context.getD ""⟩

/-- The members of "Intel" in an update request. -/
structure KafkaPatch where
  addDest : Option (List String)
  topic : Option String
  schemaId : Option (BitVec 32)
  streamRate : Option (BitVec 32)
  certUri : Option String

/-- The body of an update request. "Oem" may be missing, "Intel" in it unreadable, and so may be the
members of that. -/
structure PatchBody where
  dest : Option String
  context : Option String
  oem : Option (Option (Option KafkaPatch))

/-- What becomes of the stored configuration. An "Oem" that is missing is dereferenced all the
same. -/
def updateSubscription (subData : KafkaConfig) (body : Option PatchBody) :
    Except Failure KafkaConfig := do
  let r ← body.elim (.error (.rejected .readJson)) .ok
  if r.dest.isNone ∧ r.oem.isNone ∧ r.context.isNone then
    throw (.rejected .notFound)
  let intel ← r.oem.elim (.error .crashed) .ok
  let kafkaObj? ← intel.elim (.error (.rejected .readJson)) .ok
  let mainBroker ← match r.dest with
    | none => .ok subData.mainBroker
    | some dest => parseAndValidateDestination parseUri "Destination" depth dest
  let kafkaObj ← kafkaObj?.elim (.error (.rejected .readJson)) .ok
  let additionalBrokers ← appendBrokers parseUri depth subData.additionalBrokers kafkaObj.addDest
  ifSome kafkaObj.topic validateTopic
  ifSome kafkaObj.schemaId validateSchemaId
  ifSome kafkaObj.streamRate validateInterval
  return ⟨mainBroker, additionalBrokers, kafkaObj.topic.getD subData.topic,
    kafkaObj.schemaId.getD subData.schemaId, kafkaObj.streamRate.getD subData.sInterval,
    kafkaObj.certUri.getD subData.certUri, r.context.getD subData.context⟩

end Requests

/-! ### The file -/

inductive JsonValue
  | string (s : String)
  | unsigned (n : ℕ)
  | array (values : List String)

/-- An element of "Subscriptions". -/
abbrev Element := List (String × JsonValue)

def writeElement (subId : String) (subData : KafkaConfig) : Element :=
  [("Id", .string subId), ("Destination", .string subData.mainBroker),
    ("Context", .string subData.context), ("KafkaTopic", .string subData.topic),
    ("AdditionalDestinations", .array subData.additionalBrokers),
    ("AvroSchemaId", .unsigned subData.schemaId.toNat),
    ("StreamingRateMs", .unsigned subData.sInterval.toNat),
    ("CertificateUri", .string subData.certUri)]

/-- A value of another type, and a number that does not fit, is skipped. -/
def readMember (r : String × KafkaConfig) (element : String × JsonValue) : String × KafkaConfig :=
  match element with
  | ("Id", .string value) => (value, r.2)
  | ("Destination", .string value) => (r.1, { r.2 with mainBroker := value })
  | ("Context", .string value) => (r.1, { r.2 with context := value })
  | ("KafkaTopic", .string value) => (r.1, { r.2 with topic := value })
  | ("AdditionalDestinations", .array values) =>
    (r.1, { r.2 with additionalBrokers := r.2.additionalBrokers ++ values })
  | ("AvroSchemaId", .unsigned value) =>
    if value < 2 ^ 32 then (r.1, { r.2 with schemaId := BitVec.ofNat 32 value }) else r
  | ("StreamingRateMs", .unsigned value) =>
    if value < 2 ^ 32 then (r.1, { r.2 with sInterval := BitVec.ofNat 32 value }) else r
  | ("CertificateUri", .string value) => (r.1, { r.2 with certUri := value })
  | _ => r

def readElement (j : Element) : String × KafkaConfig :=
  j.foldl readMember ("", ⟨"", [], "", 0, 0, "", ""⟩)

/-! ### The manager -/

inductive Operation
  | create
  | update
  | restore
deriving DecidableEq

/-- A call whose reply is awaited: for the certificate, for the backend's "AddStreamingDestination"
or "UpdateStreamingDestination", or for its "RemoveStreamingDestination". -/
inductive Call
  | certificate (op : Operation) (subId : String) (subData : KafkaConfig)
  | backend (op : Operation) (subId : String) (subData : KafkaConfig)
  | remove (subId : String)
deriving DecidableEq

/-- `alive` is not a part of the program: the subscriptions whose create succeeded and whose delete
has not. -/
structure KafkaManager where
  subscriptionsMap : FlatMap String KafkaConfig
  file : List Element
  calls : List Call
  alive : List String

namespace KafkaManager

def start : KafkaManager := ⟨.empty, [], [], []⟩

def call (m : KafkaManager) (c : Call) : KafkaManager := { m with calls := m.calls ++ [c] }

def uriBase : String := "/redfish/v1/Managers/bmc/Truststore/Certificates/"

/-- A URI of another place fails at once. -/
def getCertificate (m : KafkaManager) (op : Operation) (subId : String) (subData : KafkaConfig) :
    KafkaManager :=
  if uriBase.toList.isPrefixOf subData.certUri.toList then m.call (.certificate op subId subData)
  else m

/-- `opens` tells whether the file can be opened. -/
def writeToFile (m : KafkaManager) (opens : Bool) : KafkaManager :=
  if opens then { m with file := m.subscriptionsMap.entries.map fun e => writeElement e.1 e.2 }
  else m

def insert (m : KafkaManager) (subId : String) (subData : KafkaConfig) : KafkaManager :=
  { m with subscriptionsMap := m.subscriptionsMap.insert subId subData }

def erase (m : KafkaManager) (subId : String) : KafkaManager :=
  { m with subscriptionsMap := m.subscriptionsMap.erase subId }

def readJsonAndAddToMap (m : KafkaManager) (j : Element) : KafkaManager :=
  let (subId, subData) := readElement j
  if subId = "" then m else m.getCertificate .restore subId subData

/-- A new process, and `initConfig`. -/
def restart (m : KafkaManager) (opens : Bool) : KafkaManager :=
  let m := { m with subscriptionsMap := .empty, calls := [] }
  if opens then m.file.foldl readJsonAndAddToMap m else m

/-- `std::erase_if(brokers, …)`. -/
def brokers (subData : KafkaConfig) : List String :=
  (subData.mainBroker :: subData.additionalBrokers).filter (· ≠ "")

def afterCertGet (m : KafkaManager) (op : Operation) (subId : String) (subData : KafkaConfig) :
    KafkaManager :=
  match op with
  | .restore => m.call (.backend .restore subId subData)
  | .create => if brokers subData = [] then m else m.call (.backend .create subId subData)
  | .update =>
    if brokers subData = [] then m else (m.erase subId).call (.backend .update subId subData)

/-- The backend has added or updated the destination. -/
def afterBackend (m : KafkaManager) (op : Operation) (subId : String) (subData : KafkaConfig)
    (opens : Bool) : KafkaManager :=
  match op with
  | .restore => m.insert subId subData
  | .create => { (m.insert subId subData).writeToFile opens with alive := subId :: m.alive }
  | .update => (m.insert subId subData).writeToFile opens

def afterRemove (m : KafkaManager) (subId : String) (opens : Bool) : KafkaManager :=
  { (m.erase subId).writeToFile opens with alive := m.alive.filter (· ≠ subId) }

end KafkaManager

/-- A reply names the call by its place. `ok` of a create or an update is that there is no error and
the result is true. -/
inductive Event
  | create (r : CreateRequest) (genSubscriptionId : String)
  | update (subId : String) (body : Option PatchBody)
  | delete (subId : String)
  | certificate (place : ℕ) (ok : Bool)
  | backend (place : ℕ) (ok opens : Bool)
  | restart (opens : Bool)

open KafkaManager in
/-- A crash is followed by a restart. -/
def step (parseUri : String → Except UrlError UrlView) (depth : ℕ) (m : KafkaManager) :
    Event → KafkaManager
  | .create r subId => match createSubscription parseUri depth r with
    | .error (.rejected _) => m
    | .error .crashed => m.restart true
    | .ok subData => if subId = "" then m else m.getCertificate .create subId subData
  | .update subId body => match m.subscriptionsMap.lookup subId with
    | none => m
    | some subData => match updateSubscription parseUri depth subData body with
      | .error (.rejected _) => m
      | .error .crashed => m.restart true
      | .ok subData => m.getCertificate .update subId subData
  | .delete subId => match m.subscriptionsMap.lookup subId with
    | none => m
    | some _ => m.call (.remove subId)
  | .certificate place ok => match m.calls[place]? with
    | some (.certificate op subId subData) =>
      let m := { m with calls := m.calls.eraseIdx place }
      if ok then m.afterCertGet op subId subData else m
    | _ => m
  | .backend place ok opens => match m.calls[place]? with
    | some (.backend op subId subData) =>
      let m := { m with calls := m.calls.eraseIdx place }
      if ok then m.afterBackend op subId subData opens else m
    | some (.remove subId) =>
      let m := { m with calls := m.calls.eraseIdx place }
      if ok then m.afterRemove subId opens else m
    | _ => m
  | .restart opens => m.restart opens

end MetaCommon.Kafka
