import KnowledgeBase.Guid
import KnowledgeBase.SiteLink
import KnowledgeBase.StatementList
import KnowledgeBase.Term

/-!
Items and properties. Both have terms and statements; an item also has site links, and a
property has the type of data its statements hold. An id is given once and does not change
afterwards, and a statement added to an entity with an id must not name another entity.
-/

namespace KnowledgeBase

structure Item where
  id? : Option ItemId := none
  fingerprint : Fingerprint := .empty
  statements : StatementList := []
  siteLinks : SiteLinks := .empty

structure Property where
  id? : Option PropertyId := none
  fingerprint : Fingerprint := .empty
  dataType : String
  statements : StatementList := []

inductive Entity where
  | item (item : Item)
  | property (property : Property)

instance : BEq Item := ⟨fun first second =>
  first.id? == second.id? && first.fingerprint == second.fingerprint &&
    first.statements == second.statements && first.siteLinks == second.siteLinks⟩

instance : BEq Property := ⟨fun first second =>
  first.id? == second.id? && first.fingerprint == second.fingerprint &&
    first.dataType == second.dataType && first.statements == second.statements⟩

namespace Entity

instance : BEq Entity where
  beq
    | .item first, .item second => first == second
    | .property first, .property second => first == second
    | _, _ => false

def type : Entity → EntityType
  | .item _ => .item
  | .property _ => .property

def id? : Entity → Option EntityId
  | .item i => i.id?.map .item
  | .property p => p.id?.map .property

def fingerprint : Entity → Fingerprint
  | .item i => i.fingerprint
  | .property p => p.fingerprint

def statements : Entity → StatementList
  | .item i => i.statements
  | .property p => p.statements

/-- The site links of an item. -/
def siteLinks? : Entity → Option SiteLinks
  | .item i => some i.siteLinks
  | .property _ => none

def setFingerprint (entity : Entity) (fingerprint : Fingerprint) : Entity :=
  match entity with
  | .item i => .item { i with fingerprint }
  | .property p => .property { p with fingerprint }

def setStatements (entity : Entity) (statements : StatementList) : Entity :=
  match entity with
  | .item i => .item { i with statements }
  | .property p => .property { p with statements }

/-- Replaces the site links of an item; a property stays as it is. -/
def setSiteLinks (entity : Entity) (siteLinks : SiteLinks) : Entity :=
  match entity with
  | .item i => .item { i with siteLinks }
  | .property p => .property p

def isEmpty (entity : Entity) : Bool :=
  entity.fingerprint.isEmpty && entity.statements.isEmpty && entity.siteLinks?.all (·.isEmpty)

/-- The entity without terms, statements and links. -/
def clear (entity : Entity) : Entity :=
  ((entity.setFingerprint .empty).setStatements []).setSiteLinks .empty

/-- An entity of the same type, without id and content. -/
def emptyLike : Entity → Entity
  | .item _ => .item {}
  | .property p => .property { dataType := p.dataType }

/-- Gives an entity an id, or confirms the one it has. -/
def setId (entity : Entity) (id : EntityId) : Except ModelError Entity :=
  match entity, id with
  | .item i, .item id =>
      match i.id? with
      | some current =>
          if current = id then .ok (.item i)
          else .error (.idReassignment (.item current) (.item id))
      | none => .ok (.item { i with id? := some id })
  | .property p, .property id =>
      match p.id? with
      | some current =>
          if current = id then .ok (.property p)
          else .error (.idReassignment (.property current) (.property id))
      | none => .ok (.property { p with id? := some id })
  | entity, id => .error (.wrongEntityType id.text entity.type)

/-- Refuses a statement whose identifier reads as one of another entity. -/
def checkOwner (id? : Option EntityId) (statement : Statement) : Except ModelError Unit :=
  match id?, statement.guid? with
  | some id, some text =>
      match Guid.ofText? text with
      | some guid => if guid.entity = id then .ok () else .error (.guidMismatch text id)
      | none => .ok ()
  | _, _ => .ok ()

def addStatement (entity : Entity) (statement : Statement) : Except ModelError Entity := do
  checkOwner entity.id? statement
  return entity.setStatements (entity.statements ++ [statement])

end Entity

end KnowledgeBase
