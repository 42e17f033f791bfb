import Mathlib.Data.Int.DivMod
import Mathlib.Data.String.Basic
import MetaCommon.Lib.FlatMap
import MetaCommon.Lib.JsonTree

/-!
# The pending BIOS attributes

A PATCH of Bios/Settings converts the members of "data" to the types that the base table has for
them and sets the property "PendingAttributes" of the manager; a GET shows that property. The
conversions of `nlohmann::json` throw for a value of another type, but convert every number. What a
fraction becomes that does not fit into the integer is not defined.
-/

namespace MetaCommon.BiosConfig

open JsonTree

inductive BiosValue
  | int64 (n : ℤ)
  | string (s : String)

abbrev PendingAttributesType := FlatMap String (String × BiosValue)

/-- The attributes with their types. -/
abbrev BiosBaseTableType := FlatMap String String

def mapAttrTypeToRedfish (typeDbus : String) : String :=
  if typeDbus = "xyz.openbmc_project.BIOSConfig.Manager.AttributeType.String" then "String"
  else if typeDbus = "xyz.openbmc_project.BIOSConfig.Manager.AttributeType.Integer" then "Integer"
  else if typeDbus = "xyz.openbmc_project.BIOSConfig.Manager.AttributeType.Enumeration" then
    "Enumeration"
  else "UNKNOWN"

inductive BiosMessage
  | readJson
  | invalidObject
  | internalError
  | propertyValueNotInList (value name : String)

/-- The messages in the response, and the values that "PendingAttributes" is set to. -/
structure BiosResponse where
  messages : List BiosMessage
  sets : List PendingAttributesType

/-- What the mapper and the manager answer: the services with the manager's object, and the base
table, where the property may have another type; `none` is an error. -/
structure BiosAnswers where
  services : Option (List String)
  baseBiosTable : Option (Option BiosBaseTableType)

/-- `json.empty()`. -/
def isEmpty : JsonTree → Bool
  | .null => true
  | .array values => values.isEmpty
  | .object members => members.isEmpty
  | _ => false

/-- `json.items()`. -/
def items : JsonTree → List (String × JsonTree)
  | .null => []
  | .array values => values.zipIdx.map fun v => (Nat.repr v.2, v.1)
  | .object members => members
  | value => [("", value)]

section Patch

variable (outOfRange : ℚ → ℤ)

def truncate (x : ℚ) : ℤ := x.num.tdiv x.den

/-- `static_cast<int64_t>(value)`; `none` if it throws. -/
def toInt64 : JsonTree → Option ℤ
  | .integer n => some (n.bmod (2 ^ 64))
  | .unsigned n => some ((n : ℤ).bmod (2 ^ 64))
  | .float x =>
    if -2 ^ 63 ≤ truncate x ∧ truncate x < 2 ^ 63 then some (truncate x) else some (outOfRange x)
  | _ => none

/-- The loop over the attributes; `none` if it throws. -/
def addAttributes (baseBiosTable : BiosBaseTableType) :
    List (String × JsonTree) → PendingAttributesType →
      Option (Except BiosMessage PendingAttributesType)
  | [], pendingAttributes => some (.ok pendingAttributes)
  | (key, value) :: attributes, pendingAttributes =>
    match baseBiosTable.lookup key with
    | none => some (.error (.propertyValueNotInList key "data"))
    | some itemType =>
      let attrType := mapAttrTypeToRedfish itemType
      if attrType = "String" ∨ attrType = "Enumeration" then
        match value.string? with
        | none => none
        | some val =>
          addAttributes baseBiosTable attributes
            (pendingAttributes.insert key (itemType, .string val))
      else if attrType = "Integer" then
        match toInt64 outOfRange value with
        | none => none
        | some n =>
          addAttributes baseBiosTable attributes
            (pendingAttributes.insert key (itemType, .int64 n))
      else some (.error .internalError)

variable [Reader]

/-- `json_util::readJsonPatch` with "data", which has to be there. -/
def readData (body : JsonTree) : Option JsonTree := do
  let members ← onlyMembers ["data"] (withoutAnnotations body)
  let data ← members.lookup "data"
  asJson data

/-- The handler; `none` if it throws. A map without attributes is reported and set all the same. -/
def patchSettings (a : BiosAnswers) (body : JsonTree) : Option BiosResponse :=
  match readData body with
  | none => some ⟨[.readJson], []⟩
  | some inpJson =>
    if isEmpty inpJson then some ⟨[.invalidObject], []⟩
    else match a.services with
      | none => some ⟨[.internalError], []⟩
      | some [] => some ⟨[.internalError], []⟩
      | some (_ :: _) =>
        match a.baseBiosTable with
        | none => some ⟨[.internalError], []⟩
        | some none => some ⟨[.internalError], []⟩
        | some (some baseBiosTable) =>
          match addAttributes outOfRange baseBiosTable (items inpJson) .empty with
          | none => none
          | some (.error m) => some ⟨[m], []⟩
          | some (.ok pendingAttributes) =>
            some ⟨if pendingAttributes.isEmpty then [.invalidObject] else [], [pendingAttributes]⟩

end Patch

/-- A value is shown as its type asks. -/
def showValue (itemType : String) (value : BiosValue) : Option JsonTree :=
  let attrType := mapAttrTypeToRedfish itemType
  if attrType = "String" ∨ attrType = "Enumeration" then
    match value with
    | .string currValue => some (.string currValue)
    | .int64 _ => none
  else if attrType = "Integer" then
    match value with
    | .int64 currValue => some (.integer currValue)
    | .string _ => none
  else none

/-- "Attributes" in the response to a GET; `none` if that is an error. -/
def getSettings (pendingAttributes : PendingAttributesType) : Option (List (String × JsonTree)) :=
  pendingAttributes.entries.mapM fun item =>
    (showValue item.2.1 item.2.2).map fun value => (item.1, value)

end MetaCommon.BiosConfig
