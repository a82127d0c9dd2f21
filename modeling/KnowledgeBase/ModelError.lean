import KnowledgeBase.DataValue.Kind
import KnowledgeBase.EntityId
import KnowledgeBase.Text.Quoted

/-!
What can be wrong with a value or an edit of the data model. An error holds its cause; the
wording of every cause is in one function.
-/

namespace KnowledgeBase

inductive ModelError where
  | invalidRank (value : Int)
  | malformedEntityId (id : String)
  | wrongEntityType (id : String) (expected : EntityType)
  | entityTypeMismatch (expected found : EntityType)
  | missingEntityId
  | missingEntity
  | idReassignment (current requested : EntityId)
  | duplicateSiteLink (site : String)
  | malformedGuid (guid : String)
  | guidMismatch (guid : String) (entity : EntityId)
  | invalidDataValue (kind : ValueKind) (fault : ValueFault)
  | lengthExceedsLimit (field : String) (length limit : Nat)
deriving DecidableEq

def ModelError.message : ModelError → String
  | .invalidRank value =>
      s!"invalid rank {value}: expected 0 (deprecated), 1 (normal) or 2 (preferred)"
  | .malformedEntityId id => "malformed entity id " ++ Text.quoted id
  | .wrongEntityType id expected => s!"entity id {id} is not of type " ++ expected.name
  | .entityTypeMismatch expected found =>
      "expected a " ++ expected.name ++ " entity, found a " ++ found.name
  | .missingEntityId => "entity has no id yet"
  | .missingEntity => "neither an old nor a new entity was given"
  | .idReassignment current requested =>
      "entity id is already set to " ++ current.text ++ ", refusing to change it to " ++
        requested.text
  | .duplicateSiteLink site => s!"a site link for {site} already exists"
  | .malformedGuid guid => "malformed statement GUID " ++ Text.quoted guid
  | .guidMismatch guid entity =>
      s!"statement GUID {guid} does not belong to entity " ++ entity.text
  | .invalidDataValue kind fault => "invalid " ++ kind.name ++ " value: " ++ fault.message
  | .lengthExceedsLimit field length limit =>
      s!"{field} length {length} exceeds maximum {limit}"

end KnowledgeBase
