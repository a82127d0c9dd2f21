import KnowledgeBase.Change
import KnowledgeBase.Store.Error

/-!
A store of entities with all their revisions. Revisions are numbered through the whole store
from one on. An entity saved without id gets the number after the highest that its type has
had. Saving against an old revision merges the edit with what was saved since.
-/

namespace KnowledgeBase

structure Revision where
  number : Nat
  entity : EntityId
deriving DecidableEq

/-- The numbers that were given last are 64-bit words where a store runs. A request adds at most
one to them, or makes an id the last one, whose number is below `2 ^ 31`. So the `2 ^ 64` requests
that would exhaust them are out of reach. -/
structure EntityStore where
  /-- The revisions of every stored entity, oldest first, with their numbers. -/
  history : SortedMap EntityId (List (Nat × Entity)) := .empty
  lastRevision : Nat := 0
  lastItem : Nat := 0
  lastProperty : Nat := 0

/-- A computation on a store. What a failing one has changed stays changed. -/
abbrev StoreAction := EStateM StoreError EntityStore

namespace EntityStore

def revisions (store : EntityStore) (id : EntityId) : List (Nat × Entity) :=
  (store.history.get? id).getD []

def latestRevision? (store : EntityStore) (id : EntityId) : Option Nat :=
  (store.revisions id).getLast?.map (·.1)

def get? (store : EntityStore) (id : EntityId) : Option Entity :=
  (store.revisions id).getLast?.map (·.2)

def getRevision? (store : EntityStore) (id : EntityId) (revision : Nat) : Option Entity :=
  (store.revisions id).lookup revision

def size (store : EntityStore) : Nat := store.history.size

/-- Counts an id that was given from outside. -/
def noteId (store : EntityStore) : EntityId → EntityStore
  | .item id => { store with lastItem := max store.lastItem id.number }
  | .property id => { store with lastProperty := max store.lastProperty id.number }

/-- The next number of a type, which is used up even if no id has it. -/
def nextNumber (store : EntityStore) : EntityType → Nat × EntityStore
  | .item => (store.lastItem + 1, { store with lastItem := store.lastItem + 1 })
  | .property => (store.lastProperty + 1, { store with lastProperty := store.lastProperty + 1 })

/-- The entity with an id: its own, or a new one of its type. -/
def identify (entity : Entity) : StoreAction (EntityId × Entity) := do
  match entity.id? with
  | some id =>
      modify (·.noteId id)
      return (id, entity)
  | none =>
      let number ← modifyGet (·.nextNumber entity.type)
      let some id := EntityId.ofParts? entity.type number
        | throw (.model (.malformedEntityId (idText entity.type number)))
      match entity.setId id with
      | .ok entity => return (id, entity)
      | .error error => throw (.model error)

/-- Adds a revision to the history of an entity. -/
def append (store : EntityStore) (id : EntityId) (entity : Entity) : EntityStore :=
  let number := store.lastRevision + 1
  { store with
    lastRevision := number
    history := store.history.insert id (store.revisions id ++ [(number, entity)]) }

def save (entity : Entity) : StoreAction Revision := do
  let (id, entity) ← identify entity
  modify (·.append id entity)
  return { number := (← get).lastRevision, entity := id }

/-- Saves an edit of the revision `base`. If there are newer revisions, what they changed is
kept, and contradicting changes are refused. -/
def saveWithBase (entity : Entity) (base : Nat) : StoreAction Revision := do
  let some id := entity.id? | throw (.model .missingEntityId)
  let store ← get
  let some latest := store.latestRevision? id | throw (.notFound id)
  if latest = base then return ← save entity
  let some old := store.getRevision? id base | throw (.revisionMismatch base latest)
  let some current := store.getRevision? id latest | throw (.notFound id)
  match resolveEdits old current entity with
  | .ok resolved => save resolved
  | .error error => throw (.ofMergeError error)

end EntityStore

/-- A store with the changes that were sent from it, oldest first. -/
structure ChangeFeed where
  store : EntityStore := {}
  sent : List Change := []

namespace ChangeFeed

abbrev Action := EStateM StoreError ChangeFeed

/-- A computation on the store of a feed. -/
def onStore {α : Type} (action : StoreAction α) : Action α := fun feed =>
  match action.run feed.store with
  | .ok value store => .ok value { feed with store }
  | .error error store => .error error { feed with store }

/-- Saves an entity and sends the change from what was stored before. -/
def save (entity : Entity) (timestamp : Int64) : Action Revision := do
  let old := entity.id?.bind (← get).store.get?
  let revision ← onStore (EntityStore.save entity)
  let some new := (← get).store.get? revision.entity | throw (.notFound revision.entity)
  match Change.between old (some new) (UInt64.ofNat revision.number) timestamp with
  | .ok change =>
      modify fun feed => { feed with sent := feed.sent ++ [change] }
      return revision
  | .error error => throw (.model error)

end ChangeFeed

end KnowledgeBase
