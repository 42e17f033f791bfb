import Mathlib.Data.String.Basic
import MetaCommon.Lib.FlatMap
import MetaCommon.Lib.Runs

/-!
# Channel privileges of the network interfaces

The maximum privilege of a channel is a property of the interface on the bus and an entry of a JSON
file that all interfaces share. `getChannelPrivilege` brings the property from the file when an
interface is updated, and `maxPrivilege` writes both. The file may fail to open for each access.
-/

namespace MetaCommon.Network

/-! ### JSON values -/

/-- The members of an object are in the order of their names. A text that is not JSON parses to
`discarded`. -/
inductive Json
  | null
  | boolean (b : Bool)
  | number (literal : String)
  | string (s : String)
  | array (elements : List Json)
  | object (members : List (String × Json))
  | discarded

inductive Exn
  | typeError
  | internalFailure
  | invalidArgument
  | sdBusError
deriving DecidableEq

namespace Json

def isNull : Json → Bool
  | null => true
  | _ => false

/-- The entry of a name, without making one. -/
def member (key : String) : Json → Option Json
  | object ms => (ms.find? fun m => m.1 = key).map Prod.snd
  | _ => none

/-- `operator[]`: the members of the object that the value is afterwards, one of them under
`key`. Only null and objects can be indexed. -/
def index (key : String) : Json → Except Exn (List (String × Json))
  | null => .ok [(key, null)]
  | object ms =>
    .ok (if (ms.find? fun m => m.1 = key).isSome then ms else FlatMap.insertEntry key null ms)
  | _ => .error .typeError

/-- `jsonData[key].get<std::string>()`, and `jsonData` afterwards. -/
def getString (key : String) (jsonData : Json) : Except Exn String × Json :=
  match jsonData.index key with
  | .error e => (.error e, jsonData)
  | .ok ms =>
    match (object ms).member key with
    | some (string s) => (.ok s, object ms)
    | _ => (.error .typeError, object ms)

/-- `jsonData[key] = s` -/
def setString (key s : String) (jsonData : Json) : Except Exn Json :=
  (jsonData.index key).map fun ms => object (FlatMap.insertEntry key (string s) ms)

end Json

/-! ### The interfaces and their file -/

def defaultChannelPriv : String := "priv-admin"

/-- The file by what it parses to, none if it does not exist; the property of each interface; and
the privileges of the user manager, as far as they are known. -/
structure Channels where
  file : Option Json
  maxPrivilege : String → String
  supportedPrivList : List String

/-- Whether the file opens, if it is opened for reading and for writing. -/
structure Opens where
  read : Bool
  write : Bool
deriving DecidableEq

/-- The privileges asked of the user manager: there is no service or it answers with an error, the
call throws, or they come. -/
inductive AllPrivileges
  | unavailable
  | throws
  | reply (privileges : List String)
deriving DecidableEq

namespace Channels

variable (c : Channels)

/-- The parse does not throw: what is not JSON comes back as `discarded`. -/
def readJsonFile (opens : Opens) : Json :=
  if opens.read then c.file.getD .null else .null

def writeJsonFile (opens : Opens) (jsonData : Json) : ℤ × Channels :=
  if opens.write then (0, { c with file := some jsonData }) else (-1, c)

/-- The setter of the property in the generated base class. -/
def setMaxPrivilege (intf priv : String) : Channels :=
  { c with maxPrivilege := Function.update c.maxPrivilege intf priv }

/-- The end of both functions: the entry, the file and the property. -/
def storePrivilege (opens : Opens) (intf priv : String) (jsonData : Json) :
    Except Exn String × Channels :=
  match jsonData.setString intf priv with
  | .error e => (.error e, c)
  | .ok jsonData =>
    let (failed, c) := c.writeJsonFile opens jsonData
    if failed ≠ 0 then (.error .internalFailure, c) else (.ok priv, c.setMaxPrivilege intf priv)

def getChannelPrivilege (opens : Opens) (interfaceName : String) : Except Exn String × Channels :=
  let jsonData := c.readJsonFile opens
  if !jsonData.isNull then
    match jsonData.getString interfaceName with
    | (.ok priv, _) => (.ok priv, c.setMaxPrivilege interfaceName priv)
    -- The handler assigns to what the failed read has left.
    | (.error _, jsonData) => c.storePrivilege opens interfaceName defaultChannelPriv jsonData
  else c.storePrivilege opens interfaceName defaultChannelPriv jsonData

def initSupportedPrivilges : AllPrivileges → Except Exn Channels
  | .unavailable => .ok c
  | .throws => .error .sdBusError
  | .reply privileges => .ok { c with supportedPrivList := privileges }

/-- The list is only asked for if it is empty. -/
def populate (answer : AllPrivileges) : Except Exn Channels :=
  if c.supportedPrivList.isEmpty then c.initSupportedPrivilges answer else .ok c

/-- `maxPrivilege(priv)` of the interface `intfName`. -/
def writeMaxPrivilege (answer : AllPrivileges) (opens : Opens) (intfName priv : String) :
    Except Exn String × Channels :=
  match c.populate answer with
  | .error e => (.error e, c)
  | .ok c =>
    if priv ≠ "" ∧ priv ∉ c.supportedPrivList then (.error .invalidArgument, c)
    else if c.maxPrivilege intfName = priv then (.ok priv, c)
    else c.storePrivilege opens intfName priv (c.readJsonFile opens)

end Channels

/-! ### Operations -/

inductive Operation
  | updateInfo (opens : Opens) (name : String)
  | maxPrivilege (answer : AllPrivileges) (opens : Opens) (name priv : String)
deriving DecidableEq

namespace Operation

def name : Operation → String
  | updateInfo _ name => name
  | maxPrivilege _ _ name _ => name

end Operation

namespace Channels

def call (c : Channels) : Operation → Except Exn String × Channels
  | .updateInfo opens name => c.getChannelPrivilege opens name
  | .maxPrivilege answer opens name priv => c.writeMaxPrivilege answer opens name priv

def step (c : Channels) (o : Operation) : Channels := (c.call o).2

/-- The entry of an interface in the file. -/
def entry (c : Channels) (name : String) : Option Json := c.file.bind (Json.member name)

end Channels

end MetaCommon.Network
