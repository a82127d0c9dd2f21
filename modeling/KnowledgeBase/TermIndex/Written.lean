import KnowledgeBase.TermIndex

/-!
The written form of index entries: a record of the entity, the type of the term, its
language and its text.
-/

namespace KnowledgeBase.TermEntry

/-- The fields of an entry that have been read. -/
structure Parts where
  entity? : Option EntityId := none
  type? : Option TermType := none
  language? : Option String := none
  text? : Option String := none

def Parts.has (parts : Parts) (name : String) : Bool :=
  match name with
  | "entity_id" => parts.entity?.isSome
  | "term_type" => parts.type?.isSome
  | "language" => parts.language?.isSome
  | "text" => parts.text?.isSome
  | _ => false

def Parts.put (source : Source) (parts : Parts) (name : String) (value : Draft) :
    Option (Except ReadError Parts) :=
  match name with
  | "entity_id" => some do
      return { parts with entity? := some (← FieldReader.parsed EntityId.parse source value) }
  | "term_type" => some do
      return { parts with type? := some (← FieldReader.variant TermType.named source value) }
  | "language" => some do
      return { parts with language? := some (← FieldReader.text source value) }
  | "text" => some do
      return { parts with text? := some (← FieldReader.text source value) }
  | _ => none

def Parts.finish (parts : Parts) : Except ReadError TermEntry := do
  return {
    entity := ← requireField "entity_id" parts.entity?
    type := ← requireField "term_type" parts.type?
    language := ← requireField "language" parts.language?
    text := ← requireField "text" parts.text? }

def shape : RecordShape Parts TermEntry where
  title := "struct TermEntry"
  fields := ["entity_id", "term_type", "language", "text"]
  start := {}
  has := Parts.has
  put := Parts.put
  finish := Parts.finish

def ofText (text : String) : Except ReadError TermEntry := shape.ofText text

def ofJson (value : Json) : Except ReadError TermEntry := shape.ofJson value

def toJson (entry : TermEntry) : Json :=
  .object [("entity_id", .text entry.entity.text), ("term_type", .text entry.type.name),
    ("language", .text entry.language), ("text", .text entry.text)]

end KnowledgeBase.TermEntry
