import MetaCommon.NodeManager.Patch
import MetaCommon.OnDemand.MeterState
import Mathlib.Data.List.DropRight

/-!
# The license service

`/redfish/v1/LicenseService/Licenses/`: the collection asks every processor for its two features and
lists a license for each that is enabled; a single license is shown by asking again; and a new one
is handed to the on-demand service. The processor that a name stands for is the first object of the
mapper's whose path ends with it.
-/

namespace MetaCommon.LicenseService

open NodeManager (Json)
open OnDemand (OnDemandResponseCode processorsPath)

def featureEnableInterfaceName : String := "xyz.openbmc_project.CPU.FeatureEnable"
def ondemandObjectPath : String := "/xyz/openbmc_project/ondemand/"
def licensesPath : String := "/redfish/v1/LicenseService/Licenses/"

/-! ### Paths -/

/-- The characters of a URL that may stand in a segment as they are. -/
def IsPchar (c : Char) : Prop :=
  c.isAlphanum = true ∨ c ∈ ['-', '.', '_', '~', '!', '$', '&', '\'', '(', ')', '*', '+', ',', ';',
    '=', ':', '@']

instance : DecidablePred IsPchar := fun c =>
  inferInstanceAs (Decidable (c.isAlphanum = true ∨ c ∈ _))

def isHex (c : Char) : Bool := c.isDigit || "abcdefABCDEF".toList.contains c

/-- What `boost::urls::parse_path` accepts. -/
def isPath : List Char → Bool
  | [] => true
  | '%' :: a :: b :: cs => isHex a && isHex b && isPath cs
  | c :: cs => (decide (IsPchar c) || c == '/') && isPath cs

/-- `boost::urls::parse_path(s).value().back()`: `value` throws where `s` is no path, and there is
no `back` where the path has no segments. -/
def backOfPath (s : String) : Option String :=
  if isPath s.toList ∧ s ≠ "" ∧ s ≠ "/" then
    some (String.ofList (s.toList.rtakeWhile (· ≠ '/')))
  else none

def hexDigit (n : ℕ) : Char := "0123456789ABCDEF".toList.getD n '0'

def pctEncodeChar (c : Char) : List Char :=
  if IsPchar c then [c]
  else (String.singleton c).toByteArray.toList.flatMap fun b =>
    ['%', hexDigit (b.toNat / 16), hexDigit (b.toNat % 16)]

/-- `boost::urls::format` with one replacement field, at the end of the path. -/
def format (path arg : String) : String := path ++ String.ofList (arg.toList.flatMap pctEncodeChar)

/-! ### The bus -/

inductive Method
  | GetProvisionState | GetFeatureState
  deriving DecidableEq

abbrev ServiceMap := List (String × List String)

/-- What the mapper and the processors answer. Of `GetObject`, the first service is what is used. -/
structure Bus where
  getObject : Option String
  getSubTree : Option (List (String × ServiceMap))
  featureEnable : (service objectPath : String) → Method → Option Bool

inductive Message
  | internalError
  | readJson
  | resourceNotFound (type name : String)
  | serviceTemporarilyUnavailable (retryAfter : String)
  | propertyMissing (property : String)
  | propertyValueNotInList (value property : String)
  | propertyValueFormatError (value property : String)
  | propertyValueTypeError (value property : String)
  deriving DecidableEq

/-! ### The collection -/

/-- The members as their links; `none` before the mapper has answered. -/
structure Collection where
  members : Option (List String)
  odataCount : Option ℕ
  messages : List Message
  deriving DecidableEq

/-- A call of `fillCPULicenseCollection`. -/
structure CollectionCall where
  objectPath : String
  method : Method
  cpuInstance : String
  service : String
  deriving DecidableEq

def getLicenseTypeFromMethod : Method → String
  | .GetProvisionState => "ProvisionLicense"
  | .GetFeatureState => "DynamicLicense"

def CollectionCall.link (call : CollectionCall) : String :=
  format licensesPath (getLicenseTypeFromMethod call.method ++ call.cpuInstance)

/-- The handler of the reply in `fillCPULicenseCollection`. -/
def Collection.fill (c : Collection) (reply : CollectionCall × Option Bool) : Collection :=
  match reply.2 with
  | none => { c with messages := c.messages ++ [.internalError] }
  | some false => c
  | some true =>
    let members := c.members.getD [] ++ [reply.1.link]
    { c with members := some members, odataCount := some members.length }

/-- The calls for one object. -/
def fillCPULicenses (service : String) (object : String × ServiceMap) :
    Option (List CollectionCall) :=
  (backOfPath object.1).map fun cpuinstance =>
    [⟨object.1, .GetProvisionState, cpuinstance, service⟩,
      ⟨object.1, .GetFeatureState, cpuinstance, service⟩]

/-- The collection before the replies, and the calls that are made; `none` where the handler
throws. -/
def addProcessorFeatureLicenses (bus : Bus) : Option (Collection × List CollectionCall) :=
  match bus.getObject, bus.getSubTree with
  | some service, some subtree =>
    ((subtree.filter fun o => o.1 ≠ "" ∧ o.2 ≠ []).mapM (fillCPULicenses service)).map fun calls =>
      (⟨some [], none, []⟩, calls.flatten)
  | _, _ => some (⟨none, none, [.internalError]⟩, [])

/-! ### A license -/

/-- `c_str()` -/
def cText (s : String) : List Char := s.toList.takeWhile (· ≠ '\x00')

/-- `std::regex_match` of the text with the prefix and `([^/]+)`: what the group matches. -/
def matchLicense (expr : List Char) (text : List Char) : Option (List Char) :=
  (text.dropPrefix? expr).bind fun rest =>
    if rest ≠ [] ∧ '/' ∉ rest then some rest else none

/-- The method, the type and the processor. -/
def getLicenseTypeAndProcessorId (reqFeature : String) : Option (Method × String × String) :=
  match matchLicense "ProvisionLicensecpu".toList (cText reqFeature) with
  | some rest => some (.GetProvisionState, "ProvisionLicense", "cpu" ++ String.ofList rest)
  | none =>
    (matchLicense "DynamicLicensecpu".toList (cText reqFeature)).map fun rest =>
      (.GetFeatureState, "DynamicLicense", "cpu" ++ String.ofList rest)

/-- The search of `handleLicenseGet` and `addCPULicense`: the first object whose path ends with the
name and that has the interface. -/
def findProcessor (processorId : String) (subtree : List (String × ServiceMap)) : Option String :=
  (subtree.find? fun o =>
    o.1.endsWith processorId && !o.2.isEmpty &&
      o.2.any fun service => service.2.contains featureEnableInterfaceName).map Prod.fst

structure License where
  odataId : String
  id : String
  name : String
  authorizedDevice : String
  authorizedFeature : String
  deriving DecidableEq

inductive LicenseReply
  | message (m : Message)
  | license (l : License)
  deriving DecidableEq

def fillCPULicenseInstance (processorId licenseType : String) : Option Bool → LicenseReply
  | none => .message .internalError
  | some false => .message (.resourceNotFound "Licenses" (licenseType ++ processorId))
  | some true => .license {
      odataId := licensesPath ++ licenseType ++ processorId
      id := licenseType ++ processorId
      name := licenseType ++ " for " ++ processorId
      authorizedDevice := processorsPath ++ processorId
      authorizedFeature :=
        if licenseType = "ProvisionLicense" then
          processorsPath ++ processorId ++ "/Oem/Intel/ProvisionFeature"
        else processorsPath ++ processorId ++ "/Oem/Intel/DynamicFeature" }

def handleLicenseGet (bus : Bus) (param : String) : LicenseReply :=
  match getLicenseTypeAndProcessorId param with
  | none => .message (.resourceNotFound "Licenses" param)
  | some (getMethod, licenseType, processorId) =>
    match bus.getObject, bus.getSubTree with
    | some service, some subtree =>
      match findProcessor processorId subtree with
      | none => .message (.resourceNotFound "Licenses" param)
      | some objectPath =>
        fillCPULicenseInstance processorId licenseType
          (bus.featureEnable service objectPath getMethod)
    | _, _ => .message .internalError

/-! ### A new license -/

/-- `json_util::readJson` of one member, as a value or as a string. A reader answers `none` if it
has put an error into the response. -/
structure JsonUtil where
  readJson : (key : String) → Json → Option Json
  readString : (key : String) → Json → Option String

/-- What `readJsonPatch` reads of the body. -/
structure LicenseBody where
  licenseString : String
  authScope : String
  linksAuthDevArray : List Json
  oemObject : Option Json

/-- The method call that installs a license, and the match for the task that waits for it. -/
structure Install where
  service : String
  objectPath : String
  method : String
  licenseString : String
  signalMatchStr : String
  deriving DecidableEq

inductive PostReply
  | refused (messages : List Message)
  | install (call : Install)
  deriving DecidableEq

def createCPULicense (objectPath processorId reqFeature licenseString service : String) :
    Install :=
  if reqFeature = "ProvisionFeature" then
    ⟨service, objectPath, "Provision", licenseString,
      "type='signal',interface='" ++ featureEnableInterfaceName ++ "',member='" ++
        "ProvisionValid" ++ "', path='" ++ ondemandObjectPath ++ processorId ++ "'"⟩
  else
    ⟨service, objectPath, "EnableFeatures", licenseString,
      "type='signal',interface='" ++ featureEnableInterfaceName ++ "',member='" ++
        "FeaturesValid" ++ "', path='" ++ ondemandObjectPath ++ processorId ++ "'"⟩

/-- `createCPULicenseTaskCallback`: the message, or the match of the task. -/
def createCPULicenseTaskCallback (call : Install) : Option ℤ → Message ⊕ String
  | none => .inl .internalError
  | some ondemandresponsecode =>
    if ondemandresponsecode = OnDemandResponseCode.ondemandSuccess.toInt then
      .inr call.signalMatchStr
    else if ondemandresponsecode = OnDemandResponseCode.ondemandMethodInProgress.toInt then
      .inl (.serviceTemporarilyUnavailable "60")
    else .inl .internalError

/-- Of the devices the first decides. -/
def getLicenseTypeFromAuthDevices : List String → Option (Except (List Message) String)
  | [] => some (.error [])
  | authdev :: rest =>
    (backOfPath authdev).map fun authDevice =>
      if format processorsPath authDevice = authdev then
        if rest ≠ [] then
          .error [.propertyValueFormatError
            ("array of " ++ Nat.repr (rest.length + 1) ++ " objects") "#Links/AuthorizedDevices"]
        else .ok "cpuLicense"
      else .error [.propertyValueNotInList authdev "Links/AuthororizedDevices/0"]

namespace JsonUtil

variable (P : JsonUtil)

/-- One level of `readAuthFeature`. -/
def readMember (key : String) (object : Json) : Except (List Message) Json :=
  if object.empty then .error []
  else match P.readJson key object with
    | none => .error [.readJson]
    | some value => .ok value

def readAuthFeature (oemObject : Json) : Except (List Message) String := do
  let oemIntelObject ← P.readMember "Intel" oemObject
  let linkObject ← P.readMember "Links" oemIntelObject
  let authFeatureObject ← P.readMember "AuthorizedFeature" linkObject
  match P.readString "@odata.id" authFeatureObject with
  | none => .error [.readJson]
  | some authFeature => .ok authFeature

end JsonUtil

def addCPULicense (bus : Bus) (authFeature authDevice licenseString : String) :
    Option PostReply := do
  let processorId ← backOfPath authDevice
  let oemAuthFeatureType ← backOfPath authFeature
  if ¬ (oemAuthFeatureType = "ProvisionFeature" ∨ oemAuthFeatureType = "DynamicFeature") then
    return .refused [.propertyValueNotInList authFeature "AuthorizedFeature"]
  if authDevice ++ "/Oem/Intel/" ++ oemAuthFeatureType ≠ authFeature then
    return .refused [.propertyValueNotInList authFeature "Oem/Intel/Links/AuthorizedFeature"]
  match bus.getObject, bus.getSubTree with
  | some service, some subtree =>
    match findProcessor processorId subtree with
    | none => return .refused [.propertyValueNotInList authDevice "Links/0/AuthorizedDevices"]
    | some objectPath =>
      return .install
        (createCPULicense objectPath processorId oemAuthFeatureType licenseString service)
  | _, _ => return .refused [.internalError]

/-- The body is `none` where `readJsonPatch` refuses it. -/
def handleLicenseCollectionPost (P : JsonUtil) (bus : Bus) :
    Option LicenseBody → Option PostReply
  | none => some (.refused [.readJson])
  | some body =>
    if body.authScope ≠ "Device" ∧ body.authScope ≠ "Capacity" ∧ body.authScope ≠ "Service" then
      some (.refused [.propertyValueNotInList body.authScope "AuthorizationScope"])
    else if body.linksAuthDevArray = [] then
      some (.refused [.propertyValueTypeError "[]" "/Links/AuthorizedDevices/"])
    else
      match body.linksAuthDevArray.mapM (P.readString "@odata.id") with
      | none => some (.refused [.readJson])
      | some authDevices =>
        (getLicenseTypeFromAuthDevices authDevices).bind fun
          | .error messages => some (.refused messages)
          | .ok _ =>
            if body.authScope ≠ "Device" then
              some (.refused [.propertyValueNotInList body.authScope "AuthorizationScope"])
            else
              match body.oemObject.map P.readAuthFeature with
              | none => some (.refused [.propertyMissing "Oem/Intel/Links/AuthorizedFeature"])
              | some (.error messages) => some (.refused
                  (messages ++ [.propertyMissing "Oem/Intel/Links/AuthorizedFeature"]))
              | some (.ok authFeature) =>
                addCPULicense bus authFeature (authDevices.headD "") body.licenseString

end MetaCommon.LicenseService
