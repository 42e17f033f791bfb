import Mathlib.Algebra.Group.Nat.Defs
import Mathlib.Algebra.Ring.Int.Defs
import Mathlib.Data.Rat.Defs
import Mathlib.Tactic.Common

/-!
# JSON values and the reading of objects

A number keeps the kind that the parser has given it, and an object its members in the order of
their names. An object is read under a list of names: a member of another name makes the reading
fail, and so does a member whose value cannot be unpacked.
-/

inductive JsonTree
  | null
  | boolean (b : Bool)
  | integer (n : ℤ)
  | unsigned (n : ℕ)
  | float (x : ℚ)
  | string (s : String)
  | array (values : List JsonTree)
  | object (members : List (String × JsonTree))

namespace JsonTree

def string? : JsonTree → Option String
  | string s => some s
  | _ => none

def number? : JsonTree → Option ℚ
  | integer n => some n
  | unsigned n => some n
  | float x => some x
  | _ => none

theorem string?_eq_some {json : JsonTree} {s : String} (h : string? json = some s) :
    json = string s := by
  cases json <;> first | exact congrArg string (Option.some.inj h) | exact nomatch h

/-- The value at the end of a path of names. -/
def at? : List String → JsonTree → Option JsonTree
  | [], json => some json
  | name :: path, object members => (members.lookup name).bind (at? path)
  | _ :: _, _ => none

@[simp] theorem at?_nil : at? [] = some := by
  funext json
  cases json <;> rfl

@[simp] theorem at?_object (members : List (String × JsonTree)) (name : String)
    (path : List String) :
    at? (name :: path) (object members) = (members.lookup name).bind (at? path) := rfl

/-! ### Reading -/

/-- What reads an object member by member, each into a variable of its type. A reader that gives
`none` has reported an error. -/
class Reader where
  /-- The members of an object that has members of these names only. -/
  onlyMembers : List String → JsonTree → Option (List (String × JsonTree))
  onlyMembers_eq_some_iff : ∀ {names json members}, onlyMembers names json = some members ↔
    json = object members ∧ ∀ m ∈ members, m.1 ∈ names
  /-- An object is patched without its annotations. -/
  withoutAnnotations : JsonTree → JsonTree
  withoutAnnotations_object : ∀ members, withoutAnnotations (object members) =
    object (members.filter fun m => ¬ "@odata.".toList.isPrefixOf m.1.toList)
  asString : JsonTree → Option String
  asString_eq_some_iff : ∀ {json s}, asString json = some s ↔ json = string s
  asBool : JsonTree → Option Bool
  asBool_eq_some_iff : ∀ {json b}, asBool json = some b ↔ json = boolean b
  /-- A number into a variable of `w` bits without a sign. -/
  asUint : (w : ℕ) → JsonTree → Option (BitVec w)
  asUint_unsigned : ∀ {w} (n : BitVec w), asUint w (unsigned n.toNat) = some n
  asNumber : JsonTree → Option ℚ
  asStrings : JsonTree → Option (List String)
  /-- A value that is to be read further, as every object is. -/
  asJson : JsonTree → Option JsonTree
  asJson_eq_some : ∀ {json json'}, asJson json = some json' → json = json'
  asJson_object : ∀ members, asJson (object members) = some (object members)

export Reader (onlyMembers onlyMembers_eq_some_iff withoutAnnotations withoutAnnotations_object
  asString asString_eq_some_iff asBool asBool_eq_some_iff asUint asUint_unsigned asNumber
  asStrings asJson asJson_eq_some asJson_object)

variable {α : Type*}

theorem withoutAnnotations_eq_self [Reader] {members : List (String × JsonTree)}
    (h : ∀ m ∈ members, ¬ "@odata.".toList.isPrefixOf m.1.toList) :
    withoutAnnotations (object members) = object members :=
  (withoutAnnotations_object members).trans
    (congrArg object (List.filter_eq_self.mpr fun m hm => decide_eq_true (h m hm)))

theorem asString_object [Reader] (members : List (String × JsonTree)) :
    asString (object members) = none :=
  Option.eq_none_iff_forall_not_mem.mpr fun _ h => nomatch asString_eq_some_iff.mp h

/-- A member that may be left out. -/
def readOptional (members : List (String × JsonTree)) (name : String)
    (unpack : JsonTree → Option α) : Option (Option α) :=
  match members.lookup name with
  | none => some none
  | some value => (unpack value).map some

theorem readOptional_eq_some {members : List (String × JsonTree)} {name : String}
    {unpack : JsonTree → Option α} {a : α}
    (h : readOptional members name unpack = some (some a)) :
    ∃ value, members.lookup name = some value ∧ unpack value = some a := by
  unfold readOptional at h
  split at h
  · exact absurd h (by simp)
  · next value hlookup => exact ⟨value, hlookup, by simpa using h⟩

/-- A member that may be left out, of values that are read from one form. -/
theorem readOptional_eq_some_iff {members : List (String × JsonTree)} {name : String}
    {unpack : JsonTree → Option α} {form : α → JsonTree}
    (h : ∀ {json a}, unpack json = some a ↔ json = form a) {a : Option α} :
    readOptional members name unpack = some a ↔ members.lookup name = a.map form := by
  unfold readOptional
  cases members.lookup name with
  | none => cases a <;> simp
  | some json => cases a <;> simp [h]

/-- A reader that takes a number without a sign for one, whichever kind the parser has given it, and
does not read on in a string, a number or a truth value. -/
instance : Reader where
  onlyMembers
    | names, object members => if members.all (fun m => m.1 ∈ names) then some members else none
    | _, _ => none
  onlyMembers_eq_some_iff {names json members} := by
    cases json with
    | object members' =>
      simp only [Option.ite_none_right_eq_some, List.all_eq_true, decide_eq_true_eq,
        Option.some.injEq, object.injEq]
      constructor
      · rintro ⟨hall, rfl⟩
        exact ⟨rfl, hall⟩
      · rintro ⟨rfl, hall⟩
        exact ⟨hall, rfl⟩
    | _ => simp
  withoutAnnotations
    | object members => object (members.filter fun m => ¬ "@odata.".toList.isPrefixOf m.1.toList)
    | json => json
  withoutAnnotations_object _ := rfl
  asString := string?
  asString_eq_some_iff {json s} := by cases json <;> simp [string?]
  asBool
    | boolean b => some b
    | _ => none
  asBool_eq_some_iff {json b} := by cases json <;> simp
  asUint
    | w, unsigned n => if n < 2 ^ w then some (BitVec.ofNat w n) else none
    | w, integer n => if 0 ≤ n ∧ n < 2 ^ w then some (BitVec.ofInt w n) else none
    | _, _ => none
  asUint_unsigned n :=
    (if_pos n.isLt).trans (by rw [BitVec.ofNat_toNat, BitVec.setWidth_eq])
  asNumber := number?
  asStrings
    | array values => values.mapM string?
    | _ => none
  asJson
    | null => some null
    | array values => some (array values)
    | object members => some (object members)
    | _ => none
  asJson_eq_some {json json'} h := by
    cases json <;> first | exact Option.some.inj h | exact nomatch h
  asJson_object _ := rfl

end JsonTree
