import KnowledgeBase.ArrayForm.Error
import KnowledgeBase.Json.Basic

/-!
The array form: every part of the model as a value of the interchange format. Writing never
fails; reading names the first field that does not fit. The readers of single fields stand
here. A field that may be left out may also be null.
-/

namespace KnowledgeBase

class ArrayForm (α : Type) where
  toArray : α → Json
  ofArray : Json → Except ArrayError α

namespace Json

/-- The members of an object that stands in `field`. -/
def expectObject (field : String) : Json → Except ArrayError Members
  | .object members => .ok members
  | _ => .error (.invalidField field .notObject)

def expectArray (field : String) : Json → Except ArrayError (List Json)
  | .array elements => .ok elements
  | _ => .error (.invalidField field .notArray)

def expectText (field : String) : Json → Except ArrayError String
  | .text value => .ok value
  | _ => .error (.invalidField field .notText)

def expectInteger (field : String) (value : Json) : Except ArrayError Int :=
  match value.asSigned? with
  | some n => .ok n
  | none => .error (.invalidField field .notInteger)

def expectNumber (field : String) (value : Json) : Except ArrayError Binary64 :=
  match value.asBinary64? with
  | some x => .ok x
  | none => .error (.invalidField field .notNumber)

end Json

namespace Members

def field (members : Members) (name : String) : Except ArrayError Json :=
  match members.lookup name with
  | some value => .ok value
  | none => .error (.missingField name)

def text (members : Members) (name : String) : Except ArrayError String := do
  (← members.field name).expectText name

def number (members : Members) (name : String) : Except ArrayError Binary64 := do
  (← members.field name).expectNumber name

/-- An integer from `low` to `high`. -/
def integer (members : Members) (name : String) (low high : Int) : Except ArrayError Int := do
  let value ← (← members.field name).expectInteger name
  if low ≤ value ∧ value ≤ high then return value
  else throw (.invalidField name (.outOfRange value))

/-- The reading of a field, if it is given. -/
def optional {α : Type} (members : Members) (name : String) (read : Json → Except ArrayError α) :
    Except ArrayError (Option α) :=
  match members.given? name with
  | some value => some <$> read value
  | none => .ok none

/-- The reading of a field, or `absent` if it is not given. -/
def optionalD {α : Type} (members : Members) (name : String) (absent : α)
    (read : Json → Except ArrayError α) : Except ArrayError α := do
  return (← members.optional name read).getD absent

end Members

/-- A failure of the model while an array form is read. -/
instance : MonadLift (Except ModelError) (Except ArrayError) := ⟨Except.mapError .model⟩

end KnowledgeBase
