import KnowledgeBase.Binary64.Rounding
import KnowledgeBase.SortedMap

/-!
Values of the interchange format. A number is an integer or a double, never both: the
reader decides by the way it is written. An object lists its members in ascending order of
their names, so two objects with the same members are the same value.
-/

namespace KnowledgeBase

inductive Json where
  | null
  | bool (value : Bool)
  | int (value : Int)
  | float (value : Binary64)
  | text (value : String)
  | array (elements : List Json)
  | object (members : List (String × Json))
deriving Inhabited

/-- The members of an object, by name. -/
abbrev Members := List (String × Json)

namespace Json

/-- The object with the given members; the last of those with one name counts. -/
def ofMembers (members : Members) : Json := .object (SortedMap.ofList members).toList

def ofMap (map : SortedMap String Json) : Json := .object map.toList

def ofOption (value : Option Json) : Json := value.getD .null

def texts (values : List String) : Json := .array (values.map .text)

/-- A finite double as a number; the format has no other doubles, so the rest is null. -/
def ofBinary64 (x : Binary64) : Json := if x.isFinite then .float x else .null

def isNull : Json → Bool
  | .null => true
  | _ => false

def asText? : Json → Option String
  | .text value => some value
  | _ => none

def asArray? : Json → Option (List Json)
  | .array elements => some elements
  | _ => none

def asObject? : Json → Option Members
  | .object members => some members
  | _ => none

/-- An integer that fits a signed 64-bit word. -/
def asSigned? : Json → Option Int
  | .int value =>
      if Int64.minValue.toInt ≤ value ∧ value ≤ Int64.maxValue.toInt then some value else none
  | _ => none

/-- An integer that fits an unsigned 64-bit word. -/
def asUnsigned? : Json → Option Nat
  | .int value => if 0 ≤ value ∧ value < UInt64.size then some value.toNat else none
  | _ => none

/-- Any number, an integer becoming the double nearest to it. -/
def asBinary64? : Json → Option Binary64
  | .int value => some (Binary64.ofInt value)
  | .float value => some value
  | _ => none

end Json

/-- The value of a member that is present and not null. -/
def Members.given? (members : Members) (name : String) : Option Json :=
  match members.lookup name with
  | some .null => none
  | found => found

end KnowledgeBase
