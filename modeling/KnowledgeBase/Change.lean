import KnowledgeBase.Diff.Entity

/-!
Changes: one edit of one entity, with the revision it made, when it was made and what it
changed.
-/

namespace KnowledgeBase

inductive ChangeAction where
  | add
  | update
  | remove
  | restore
deriving DecidableEq

def ChangeAction.name : ChangeAction → String
  | .add => "add"
  | .update => "update"
  | .remove => "remove"
  | .restore => "restore"

structure Change where
  entity : EntityId
  action : ChangeAction
  revision : UInt64
  /-- Microseconds since the start of 1970. -/
  timestamp : Int64
  diff : EntityDiff

namespace Change

instance : BEq Change := ⟨fun first second =>
  first.entity == second.entity && first.action == second.action &&
    first.revision == second.revision && first.timestamp == second.timestamp &&
    first.diff == second.diff⟩

/-- The change from one version of an entity to the next. A missing version stands for an
entity without content. -/
def between (old new : Option Entity) (revision : UInt64) (timestamp : Int64) :
    Except ModelError Change := do
  let (action, before, after) ← match old, new with
    | some old, some new => pure (ChangeAction.update, old, new)
    | none, some new => pure (ChangeAction.add, new.emptyLike, new)
    | some old, none => pure (ChangeAction.remove, old, old.emptyLike)
    | none, none => throw .missingEntity
  let diff ← EntityDiff.between before after
  let some entity := after.id?.or before.id? | throw .missingEntityId
  return { entity, action, revision, timestamp, diff }

/-- The type of a change in a feed of changes. -/
def typeName (change : Change) : String :=
  "wikibase-" ++ change.entity.type.name ++ "~" ++ change.action.name

end Change

end KnowledgeBase
