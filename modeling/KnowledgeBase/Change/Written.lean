import KnowledgeBase.ArrayForm.Diff
import KnowledgeBase.Change
import KnowledgeBase.Record

/-!
The written form of changes: a record whose fields are always written in one order. It is
read as any record is, so the fields may come in another order.
-/

namespace KnowledgeBase.Change

/-- The fields of a change that have been read. -/
structure Parts where
  entity? : Option EntityId := none
  action? : Option ChangeAction := none
  revision? : Option UInt64 := none
  timestamp? : Option Int64 := none
  diff? : Option EntityDiff := none

def actions : List (String × ChangeAction) :=
  [ChangeAction.add, .update, .remove, .restore].map fun action => (action.name, action)

def Parts.has (parts : Parts) (name : String) : Bool :=
  match name with
  | "entity_id" => parts.entity?.isSome
  | "action" => parts.action?.isSome
  | "revision_id" => parts.revision?.isSome
  | "timestamp" => parts.timestamp?.isSome
  | "diff" => parts.diff?.isSome
  | _ => false

def Parts.put (source : Source) (parts : Parts) (name : String) (value : Draft) :
    Option (Except ReadError Parts) :=
  match name with
  | "entity_id" => some do
      return { parts with entity? := some (← FieldReader.parsed EntityId.parse source value) }
  | "action" => some do
      return { parts with action? := some (← FieldReader.variant actions source value) }
  | "revision_id" => some do
      return { parts with revision? := some (← FieldReader.unsigned64 source value) }
  | "timestamp" => some do
      return { parts with timestamp? := some (← FieldReader.signed64 source value) }
  | "diff" => some do
      return { parts with diff? := some (← FieldReader.array source value) }
  | _ => none

def Parts.finish (parts : Parts) : Except ReadError Change := do
  return {
    entity := ← requireField "entity_id" parts.entity?
    action := ← requireField "action" parts.action?
    revision := ← requireField "revision_id" parts.revision?
    timestamp := ← requireField "timestamp" parts.timestamp?
    diff := ← requireField "diff" parts.diff? }

def shape : RecordShape Parts Change where
  title := "struct Change"
  fields := ["entity_id", "action", "revision_id", "timestamp", "diff"]
  start := {}
  has := Parts.has
  put := Parts.put
  finish := Parts.finish

def ofText (text : String) : Except ReadError Change := shape.ofText text

def ofJson (value : Json) : Except ReadError Change := shape.ofJson value

def toJson (change : Change) : Json :=
  .object [("entity_id", .text change.entity.text), ("action", .text change.action.name),
    ("revision_id", .int change.revision.toNat), ("timestamp", .int change.timestamp.toInt),
    ("diff", ArrayForm.toArray change.diff)]

end KnowledgeBase.Change
