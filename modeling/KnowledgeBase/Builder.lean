import KnowledgeBase.Entity

/-!
Building statements, items and properties from their parts. A builder only collects; what
is wrong with the parts is found when the entity is built, in a fixed order and not in the
order in which the parts were given: labels, descriptions, aliases, statements, site links.
The id counts for all statements, given before or after it.
-/

namespace KnowledgeBase

structure StatementBuilder where
  statement : Statement

namespace StatementBuilder

def ofSnak (mainSnak : Snak) : StatementBuilder := ⟨{ claim := { mainSnak } }⟩

def qualifier (builder : StatementBuilder) (snak : Snak) : StatementBuilder :=
  ⟨builder.statement.setQualifiers (builder.statement.qualifiers.add snak)⟩

def reference (builder : StatementBuilder) (snaks : List Snak) : StatementBuilder :=
  ⟨{ builder.statement with
      references := builder.statement.references.add (Reference.ofSnaks snaks) }⟩

def rank (builder : StatementBuilder) (rank : Rank) : StatementBuilder :=
  ⟨{ builder.statement with rank }⟩

def guid (builder : StatementBuilder) (guid : String) : StatementBuilder :=
  ⟨builder.statement.setGuid (some guid)⟩

def build (builder : StatementBuilder) : Statement := builder.statement

end StatementBuilder

/-- What items and properties are built from alike. Terms are pairs of language and text. -/
structure EntityParts where
  labels : List (String × String) := []
  descriptions : List (String × String) := []
  aliases : List (String × String) := []
  statements : List Statement := []

namespace EntityParts

def addLabel (parts : EntityParts) (language text : String) : EntityParts :=
  { parts with labels := parts.labels ++ [(language, text)] }

def addDescription (parts : EntityParts) (language text : String) : EntityParts :=
  { parts with descriptions := parts.descriptions ++ [(language, text)] }

def addAlias (parts : EntityParts) (language text : String) : EntityParts :=
  { parts with aliases := parts.aliases ++ [(language, text)] }

def addStatement (parts : EntityParts) (statement : Statement) : EntityParts :=
  { parts with statements := parts.statements ++ [statement] }

def fingerprint (parts : EntityParts) : Except ModelError Fingerprint := do
  let labelled ← parts.labels.foldlM (fun f (language, text) => f.setLabel language text) .empty
  let described ← parts.descriptions.foldlM
    (fun f (language, text) => f.setDescription language text) labelled
  parts.aliases.foldlM (fun f (language, text) => f.addAliases language [text]) described

/-- The statements, if all of them may belong to an entity with this id. -/
def ownedStatements (parts : EntityParts) (id? : Option EntityId) :
    Except ModelError StatementList := do
  parts.statements.forM (Entity.checkOwner id?)
  return parts.statements

end EntityParts

structure ItemBuilder where
  id? : Option ItemId := none
  parts : EntityParts := {}
  /-- Site, page and badges of each link. -/
  siteLinks : List (String × String × List ItemId) := []

namespace ItemBuilder

def addSiteLink (builder : ItemBuilder) (site page : String) (badges : List ItemId) : ItemBuilder :=
  { builder with siteLinks := builder.siteLinks ++ [(site, page, badges)] }

def build (builder : ItemBuilder) : Except ModelError Item := do
  let fingerprint ← builder.parts.fingerprint
  let statements ← builder.parts.ownedStatements (builder.id?.map .item)
  let siteLinks ← builder.siteLinks.foldlM
    (fun links (site, page, badges) => do
      SiteLinks.add links (← SiteLink.create site page badges))
    .empty
  return { id? := builder.id?, fingerprint, statements, siteLinks }

end ItemBuilder

structure PropertyBuilder where
  id? : Option PropertyId := none
  dataType : String
  parts : EntityParts := {}

def PropertyBuilder.build (builder : PropertyBuilder) : Except ModelError Property := do
  let fingerprint ← builder.parts.fingerprint
  let statements ← builder.parts.ownedStatements (builder.id?.map .property)
  return { id? := builder.id?, fingerprint, dataType := builder.dataType, statements }

end KnowledgeBase
