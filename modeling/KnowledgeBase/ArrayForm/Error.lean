import KnowledgeBase.ModelError
import KnowledgeBase.Snak

/-!
Why a value is not the array form of anything. A fault names the field in which it was
found; fields are looked at in a fixed order and the first fault is reported.
-/

namespace KnowledgeBase

/-- What is wrong with a field that is there. -/
inductive FieldFault where
  | notObject
  | notArray
  | notText
  | notInteger
  | notNumber
  | notPositive
  | outOfRange (value : Int)
  | surplusElements (kind : SnakKind) (count : Nat)
  | contradictsParts
  | foreignId (id : EntityId) (expected : EntityType)
  | statementForClaim
  | typeMismatch (expected : EntityType) (found : String)
  | linksOutsideItem
deriving DecidableEq

def FieldFault.message : FieldFault → String
  | .notObject => "expected an object"
  | .notArray => "expected an array"
  | .notText => "expected a string"
  | .notInteger => "expected an integer"
  | .notNumber => "expected a number"
  | .notPositive => "expected a positive integer"
  | .outOfRange value => s!"{value} is out of range"
  | .surplusElements kind count => kind.name ++ s!" snak has {count} elements"
  | .contradictsParts => "does not match entity-type and numeric-id"
  | .foreignId id expected => id.text ++ " is not a " ++ expected.name ++ " id"
  | .statementForClaim => "expected a claim, found a statement"
  | .typeMismatch expected found => "expected " ++ expected.name ++ ", found " ++ found
  | .linksOutsideItem => "only item diffs carry site links"

inductive ArrayError where
  | missingField (field : String)
  | invalidField (field : String) (fault : FieldFault)
  | unknownKind (field kind : String)
  | model (error : ModelError)
  | lengthExceedsLimit (field : String) (length limit : Nat)
deriving DecidableEq

namespace ArrayError

def code : ArrayError → String
  | .missingField _ => "E002"
  | .invalidField _ _ => "E003"
  | .unknownKind _ _ => "E003"
  | .model _ => "E003"
  | .lengthExceedsLimit _ _ _ => "E005"

def detail : ArrayError → String
  | .missingField field => "missing field " ++ field
  | .invalidField field fault => "invalid " ++ field ++ ": " ++ fault.message
  | .unknownKind field kind => "unknown " ++ field ++ " kind " ++ Text.quoted kind
  | .model error => error.message
  | .lengthExceedsLimit field length limit => s!"{field} length {length} exceeds maximum {limit}"

def message (error : ArrayError) : String := "[" ++ error.code ++ "] " ++ error.detail

end ArrayError

end KnowledgeBase
