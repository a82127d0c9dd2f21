import KnowledgeBase.ArrayForm.Statement
import KnowledgeBase.Entity
import KnowledgeBase.Json.Printer

/-!
The array form of terms, site links and entities. Sections of an entity that are not given
are empty. Statements are read as they are stored: which entity their identifiers name is
not looked at here.
-/

namespace KnowledgeBase

open ArrayForm

instance : ArrayForm TermList where
  toArray terms := .ofMap (terms.mapValues .text)
  ofArray array := do
    (← array.expectObject "terms").foldlM
      (fun terms (language, text) => do TermList.set terms language (← text.expectText "term"))
      SortedMap.empty

def aliasesOfArray (array : Json) : Except ArrayError (List String) := do
  (← array.expectArray "aliases").mapM (Json.expectText "alias")

instance : ArrayForm AliasGroups where
  toArray groups := .ofMap (groups.mapValues Json.texts)
  ofArray array := do
    (← array.expectObject "aliases").foldlM
      (fun groups (language, aliases) => do
        AliasGroups.set groups language (← aliasesOfArray aliases))
      SortedMap.empty

namespace Fingerprint

def members (fingerprint : Fingerprint) : Members :=
  [("labels", toArray fingerprint.labels), ("descriptions", toArray fingerprint.descriptions),
    ("aliases", toArray fingerprint.aliases)]

def ofMembers (members : Members) : Except ArrayError Fingerprint := do
  return {
    labels := ← members.optionalD "labels" .empty ofArray
    descriptions := ← members.optionalD "descriptions" .empty ofArray
    aliases := ← members.optionalD "aliases" .empty ofArray }

end Fingerprint

instance : ArrayForm Fingerprint where
  toArray fingerprint := .ofMembers fingerprint.members
  ofArray array := do Fingerprint.ofMembers (← array.expectObject "fingerprint")

namespace SiteLink

/-- The members of a link apart from its site. -/
def pageMembers (link : SiteLink) : Members :=
  [("title", .text link.page), ("badges", .texts (link.badges.map ItemId.text))]

def badgesOfArray (array : Json) : Except ArrayError (List ItemId) := do
  (← array.expectArray "badges").mapM fun badge => do
    ItemId.parse (← badge.expectText "badge")

def ofPageMembers (site : String) (members : Members) : Except ArrayError SiteLink := do
  let badges ← members.optionalD "badges" [] badgesOfArray
  SiteLink.create site (← members.text "title") badges

end SiteLink

instance : ArrayForm SiteLink where
  toArray link := .ofMembers (("site", .text link.site) :: link.pageMembers)
  ofArray array := do
    let members ← array.expectObject "sitelink"
    SiteLink.ofPageMembers (← members.text "site") members

instance : ArrayForm SiteLinks where
  toArray links :=
    .ofMembers (links.values.map fun link => (link.site, .ofMembers link.pageMembers))
  ofArray array := do
    (← array.expectObject "sitelinks").foldlM
      (fun links (site, entry) => do
        SiteLinks.add links (← SiteLink.ofPageMembers site (← entry.expectObject "sitelink")))
      SortedMap.empty

namespace Entity

def commonMembers (entity : Entity) : Members :=
  entity.fingerprint.members ++
    [("type", .text entity.type.name), ("id", .ofOption (entity.id?.map (.text ·.text))),
      ("claims", .array (entity.statements.map toArray))]

def statementsOfArray (array : Json) : Except ArrayError StatementList := do
  (← array.expectArray "claims").mapM ofArray

def statementsOfMembers (members : Members) : Except ArrayError StatementList :=
  members.optionalD "claims" [] statementsOfArray

def idOfArray (value : Json) : Except ArrayError EntityId := do
  EntityId.parse (← value.expectText "id")

end Entity

namespace Item

def idOfArray (value : Json) : Except ArrayError ItemId := do
  match ← Entity.idOfArray value with
  | .item id => return id
  | id => throw (.invalidField "id" (.foreignId id .item))

def ofMembers (members : Members) : Except ArrayError Item := do
  return {
    id? := ← members.optional "id" idOfArray
    fingerprint := ← Fingerprint.ofMembers members
    statements := ← Entity.statementsOfMembers members
    siteLinks := ← members.optionalD "sitelinks" .empty ofArray }

end Item

namespace Property

def idOfArray (value : Json) : Except ArrayError PropertyId := do
  match ← Entity.idOfArray value with
  | .property id => return id
  | id => throw (.invalidField "id" (.foreignId id .property))

def ofMembers (members : Members) : Except ArrayError Property := do
  let dataType ← members.text "datatype"
  return {
    id? := ← members.optional "id" idOfArray
    fingerprint := ← Fingerprint.ofMembers members
    dataType
    statements := ← Entity.statementsOfMembers members }

end Property

/-- Refuses the members of an entity of another type. -/
def Members.checkType (members : Members) (expected : EntityType) : Except ArrayError Unit := do
  let found ← members.text "type"
  if found ≠ expected.name then throw (.invalidField "type" (.typeMismatch expected found))

instance : ArrayForm Entity where
  toArray entity :=
    .ofMembers (entity.commonMembers ++
      match entity with
      | .item i => [("sitelinks", toArray i.siteLinks)]
      | .property p => [("datatype", .text p.dataType)])
  ofArray array := do
    let members ← array.expectObject "entity"
    let kind ← members.text "type"
    match EntityType.ofName? kind with
    | some .item => return .item (← Item.ofMembers members)
    | some .property => return .property (← Property.ofMembers members)
    | none => throw (.unknownKind "entity type" kind)

instance : ArrayForm Item where
  toArray item := toArray (Entity.item item)
  ofArray array := do
    let members ← array.expectObject "entity"
    members.checkType .item
    Item.ofMembers members

instance : ArrayForm Property where
  toArray property := toArray (Entity.property property)
  ofArray array := do
    let members ← array.expectObject "entity"
    members.checkType .property
    Property.ofMembers members

/-- The digest of an entity's array form in its compact written form. -/
def Entity.hash (entity : Entity) : String := contentHash (Bytes.utf8 (toArray entity).render)

end KnowledgeBase
