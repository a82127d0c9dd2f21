import KnowledgeBase.ArrayForm.Entity
import KnowledgeBase.Diff.Entity

/-!
The array form of differences: an object with a tag for the entity's type and the sections
that are not empty, each of which has one operation for a key. Only the differences of items
may have site links.
-/

namespace KnowledgeBase

open ArrayForm

instance : ArrayForm String where
  toArray text := .text text
  ofArray value := value.expectText "term"

instance : ArrayForm (List String) where
  toArray aliases := .texts aliases
  ofArray := aliasesOfArray

namespace DiffOp

variable {α : Type} [ArrayForm α]

def members (op : DiffOp α) : Members :=
  ("op", .text op.name) :: (op.old?.map fun old => ("old", toArray old)).toList ++
    (op.new?.map fun new => ("new", toArray new)).toList

def ofMembers (members : Members) : Except ArrayError (DiffOp α) := do
  let name ← members.text "op"
  let value (key : String) : Except ArrayError α := do ofArray (← members.field key)
  if name = "add" then return .add (← value "new")
  else if name = "remove" then return .remove (← value "old")
  else if name = "change" then
    let old ← value "old"
    return .change old (← value "new")
  else throw (.unknownKind "op" name)

instance : ArrayForm (DiffOp α) where
  toArray op := .ofMembers op.members
  ofArray array := do DiffOp.ofMembers (← array.expectObject "diff op")

end DiffOp

instance {α : Type} [ArrayForm α] : ArrayForm (MapDiff α) where
  toArray diff := .ofMap (diff.mapValues toArray)
  ofArray array := do
    let ops ← (← array.expectObject "diff").mapM fun (key, op) => do
      return (key, ← ofArray op)
    return SortedMap.ofList ops

namespace EntityDiff

/-- A section with its name, unless it is empty. -/
def sectionMembers {α : Type} [ArrayForm α] (part : DiffSection) (ops : MapDiff α) : Members :=
  if ops.isEmpty then [] else [(part.name, toArray ops)]

def members (diff : EntityDiff) : Members :=
  ("type", .text ("diff/" ++ diff.type.name)) :: sectionMembers .labels diff.labels ++
    sectionMembers .descriptions diff.descriptions ++ sectionMembers .aliases diff.aliases ++
    sectionMembers .claims diff.claims ++ sectionMembers .siteLinks diff.siteLinks

/-- The entity type of a tag. -/
def typeOfTag? (tag : String) : Option EntityType :=
  if tag = "diff/item" then some .item
  else if tag = "diff/property" then some .property
  else none

def sectionOfMembers {α : Type} [ArrayForm α] (members : Members) (part : DiffSection) :
    Except ArrayError (MapDiff α) :=
  members.optionalD part.name .empty ofArray

def ofMembers (members : Members) : Except ArrayError EntityDiff := do
  let tag ← members.text "type"
  let some type := typeOfTag? tag | throw (.unknownKind "diff type" tag)
  let diff : EntityDiff := {
    type
    labels := ← sectionOfMembers members .labels
    descriptions := ← sectionOfMembers members .descriptions
    aliases := ← sectionOfMembers members .aliases
    claims := ← sectionOfMembers members .claims
    siteLinks := ← sectionOfMembers members .siteLinks }
  if diff.type ≠ .item ∧ !diff.siteLinks.isEmpty then
    throw (.invalidField "links" .linksOutsideItem)
  return diff

end EntityDiff

instance : ArrayForm EntityDiff where
  toArray diff := .ofMembers diff.members
  ofArray array := do EntityDiff.ofMembers (← array.expectObject "diff")

end KnowledgeBase
