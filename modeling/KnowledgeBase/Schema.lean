import KnowledgeBase.DataValue.Validity
import KnowledgeBase.Entity

/-!
Checking entities against a schema: which properties there are and what kind of value each
of them takes. A strict schema refuses properties that it does not know. An entity is valid
when all its statements have proper identifiers and all their snaks are valid; the first
fault in the order of the statements is reported.
-/

namespace KnowledgeBase

inductive ValidationError where
  | typeMismatch (property : PropertyId) (expected found : ValueKind)
  | propertyNotFound (property : PropertyId)
  | invalidStatement (guid : String) (error : ModelError)
  | model (error : ModelError)
deriving DecidableEq

def ValidationError.message : ValidationError → String
  | .typeMismatch property expected found =>
      "value type mismatch for property " ++ property.text ++ ": expected " ++ expected.name ++
        ", found " ++ found.name
  | .propertyNotFound property => "property " ++ property.text ++ " not found in schema"
  | .invalidStatement guid e => s!"statement {guid}: " ++ e.message
  | .model e => e.message

structure Schema where
  strict : Bool
  kinds : List (PropertyId × ValueKind) := []

namespace Schema

/-- Registers a property; what was registered for it before no longer counts. -/
def register (schema : Schema) (property : PropertyId) (kind : ValueKind) : Schema :=
  { schema with kinds := (property, kind) :: schema.kinds }

def kind? (schema : Schema) (property : PropertyId) : Option ValueKind :=
  schema.kinds.lookup property

end Schema

def validateValue (value : DataValue) : Except ValidationError Unit :=
  value.check.mapError .model

def validateSnak (schema : Schema) (snak : Snak) : Except ValidationError Unit := do
  let expected? := schema.kind? snak.property
  if schema.strict && expected?.isNone then throw (.propertyNotFound snak.property)
  let some value := snak.dataValue? | return
  if let some expected := expected? then
    if expected ≠ value.kind then throw (.typeMismatch snak.property expected value.kind)
  validateValue value

/-- Checks the identifier of a statement, if it has one, against the id of its entity, if
that has one. -/
def validateGuid (id? : Option EntityId) (statement : Statement) : Except ValidationError Unit := do
  let some guid := statement.guid? | return
  let checked := match id? with
    | some id => Guid.validateFor id guid
    | none => Guid.validate guid
  match checked with
  | .ok _ => return
  | .error error => throw (.invalidStatement guid error)

def validateStatement (schema : Schema) (id? : Option EntityId) (statement : Statement) :
    Except ValidationError Unit := do
  validateGuid id? statement
  statement.allSnaks.forM (validateSnak schema)

def validateEntity (schema : Schema) (entity : Entity) : Except ValidationError Unit :=
  entity.statements.forM (validateStatement schema entity.id?)

end KnowledgeBase
