import KnowledgeBase.Diff.Statement
import KnowledgeBase.Entity

/-!
Differences between entities of one type, section by section. Ids and data types are not
part of a difference. A site link is stored under its own site, whatever its key in the
difference says.
-/

namespace KnowledgeBase

inductive DiffSection where
  | labels
  | descriptions
  | aliases
  | claims
  | siteLinks
deriving DecidableEq

def DiffSection.name : DiffSection → String
  | .labels => "labels"
  | .descriptions => "descriptions"
  | .aliases => "aliases"
  | .claims => "claims"
  | .siteLinks => "links"

structure EntityDiff where
  type : EntityType
  labels : MapDiff String := .empty
  descriptions : MapDiff String := .empty
  aliases : MapDiff (List String) := .empty
  claims : MapDiff Statement := .empty
  siteLinks : MapDiff SiteLink := .empty

def TermList.target : PatchTarget TermList String where
  current := SortedMap.get?
  put := TermList.set
  take := SortedMap.erase

def AliasGroups.target : PatchTarget AliasGroups (List String) where
  current := SortedMap.get?
  put := AliasGroups.set
  take := SortedMap.erase

def SiteLinks.target : PatchTarget SiteLinks SiteLink where
  current := SortedMap.get?
  put links _ link := .ok (SiteLinks.set links link)
  take := SortedMap.erase

namespace EntityDiff

instance : BEq EntityDiff := ⟨fun first second =>
  first.type == second.type && first.labels == second.labels &&
    first.descriptions == second.descriptions && first.aliases == second.aliases &&
    first.claims == second.claims && first.siteLinks == second.siteLinks⟩

/-- The difference between two entities; their types must be the same. -/
def between (old new : Entity) : Except ModelError EntityDiff :=
  if old.type = new.type then
    .ok {
      type := old.type
      labels := .between old.fingerprint.labels.toList new.fingerprint.labels.toList
      descriptions :=
        .between old.fingerprint.descriptions.toList new.fingerprint.descriptions.toList
      aliases := .between old.fingerprint.aliases.toList new.fingerprint.aliases.toList
      claims := StatementList.diff old.statements new.statements
      siteLinks := .between (old.siteLinks?.getD .empty).toList (new.siteLinks?.getD .empty).toList }
  else
    .error (.entityTypeMismatch old.type new.type)

/-- The number of operations in each section. -/
def sizes (diff : EntityDiff) : List (DiffSection × Nat) :=
  [(.labels, diff.labels.size), (.descriptions, diff.descriptions.size),
    (.aliases, diff.aliases.size), (.claims, diff.claims.size), (.siteLinks, diff.siteLinks.size)]

def size (diff : EntityDiff) : Nat := diff.sizes.foldl (fun total (_, count) => total + count) 0

def isEmpty (diff : EntityDiff) : Bool := diff.size == 0

def touched (diff : EntityDiff) : List DiffSection :=
  (diff.sizes.filter (0 < ·.2)).map (·.1)

def reverse (diff : EntityDiff) : EntityDiff where
  type := diff.type
  labels := diff.labels.reverse
  descriptions := diff.descriptions.reverse
  aliases := diff.aliases.reverse
  claims := diff.claims.reverse
  siteLinks := diff.siteLinks.reverse

def applyTerms (diff : EntityDiff) : Edit Fingerprint Unit := do
  Edit.within Fingerprint.labels (fun f labels => { f with labels })
    (diff.labels.apply TermList.target)
  Edit.within Fingerprint.descriptions (fun f descriptions => { f with descriptions })
    (diff.descriptions.apply TermList.target)
  Edit.within Fingerprint.aliases (fun f aliases => { f with aliases })
    (diff.aliases.apply AliasGroups.target)

/-- Applies the sections in order. A refused term ends the edit, and what was applied before
it stays applied. -/
def apply (diff : EntityDiff) : Edit Entity Unit := do
  let entity ← get
  if diff.type ≠ entity.type then throw (.entityTypeMismatch diff.type entity.type)
  Edit.within Entity.fingerprint Entity.setFingerprint diff.applyTerms
  modify fun entity => entity.setStatements (entity.statements.applyDiff diff.claims)
  Edit.within (fun entity => entity.siteLinks?.getD .empty) Entity.setSiteLinks
    (diff.siteLinks.apply SiteLinks.target)

end EntityDiff

end KnowledgeBase
