import KnowledgeBase.Record
import KnowledgeBase.Store.Error
import KnowledgeBase.Text.Lowercase

/-!
An index of the terms of entities, for look-up by text. The entries of an entity are those
of the version that was indexed last: its labels, descriptions and aliases, each by
language. Answers list entities in the order of their ids.
-/

namespace KnowledgeBase

inductive TermType where
  | label
  | description
  | otherName
deriving DecidableEq

namespace TermType

def name : TermType → String
  | .label => "label"
  | .description => "description"
  | .otherName => "alias"

def named : List (String × TermType) :=
  [TermType.label, .description, .otherName].map fun type => (type.name, type)

def ofName? (name : String) : Option TermType := named.lookup name

end TermType

structure TermEntry where
  entity : EntityId
  type : TermType
  language : String
  text : String
deriving DecidableEq

/-- The entries of an entity, which must have an id. -/
def Entity.termEntries (entity : Entity) : Except ModelError (List TermEntry) := do
  let some id := entity.id? | throw .missingEntityId
  let terms (type : TermType) (list : TermList) : List TermEntry :=
    list.toList.map fun (language, text) => ⟨id, type, language, text⟩
  let aliases := entity.fingerprint.aliases.toList.flatMap fun (language, group) =>
    group.map fun text => TermEntry.mk id .otherName language text
  return terms .label entity.fingerprint.labels ++
    terms .description entity.fingerprint.descriptions ++ aliases

/-- A text to look for, in one language or in all. -/
structure TermQuery where
  text : String
  language? : Option String

structure MatchOptions where
  caseSensitive : Bool := true
  /-- Whether a text matches that goes on after the text looked for. -/
  openEnd : Bool := false
  limit? : Option Nat := none

namespace MatchOptions

/-- The options for completing what a user types. -/
def suggestions (limit : Nat) : MatchOptions :=
  { caseSensitive := false, openEnd := true, limit? := some limit }

def accepts (options : MatchOptions) (wanted text : String) : Bool :=
  let (wanted, text) :=
    if options.caseSensitive then (wanted, text) else (Text.lower wanted, Text.lower text)
  if options.openEnd then wanted.toList.isPrefixOf text.toList else text == wanted

end MatchOptions

abbrev TermIndex := SortedMap EntityId (List TermEntry)

namespace TermIndex

/-- Replaces the entries of an entity. -/
def save (index : TermIndex) (entity : Entity) : Except StoreError TermIndex := do
  let entries ← entity.termEntries
  let some id := entity.id? | throw (.model .missingEntityId)
  return if entries.isEmpty then index.erase id else index.insert id entries

def entries (index : TermIndex) : List TermEntry := index.toList.flatMap (·.2)

/-- How many entries are indexed. -/
def count (index : TermIndex) : Nat :=
  index.values.foldl (fun count entries => count + entries.length) 0

/-- The entries of the given entities, of certain types and languages if these are given. An
entity that is given several times is looked up once. -/
def ofEntities (index : TermIndex) (ids : List EntityId) (types? : Option (List TermType))
    (languages? : Option (List String)) : List TermEntry :=
  let ids := (ids.mergeSort fun first second => (compare first second).isLE).eraseReps
  let found := (ids.filterMap index.get?).flatten
  let ofTypes := found.filter fun entry => types?.all (·.contains entry.type)
  ofTypes.filter fun entry => languages?.all (·.contains entry.language)

/-- The entries that match one of the queries. -/
def search (index : TermIndex) (queries : List TermQuery) (type? : Option TermType)
    (entityType? : Option EntityType) (options : MatchOptions) : List TermEntry :=
  let found := (entries index).filter fun entry =>
    entityType?.all (· == entry.entity.type) && type?.all (· == entry.type) &&
      queries.any fun query =>
        query.language?.all (· == entry.language) && options.accepts query.text entry.text
  match options.limit? with
  | some limit => found.take limit
  | none => found

/-- The labels of entities of a type that are equal, in the same language, to one of the
given labels or aliases. -/
def labelConflicts (index : TermIndex) (type : EntityType) (labels : TermList)
    (aliases : AliasGroups) : List TermEntry :=
  let wanted := labels.toList ++ aliases.toList.flatMap fun (language, group) =>
    group.map fun text => (language, text)
  (entries index).filter fun entry =>
    entry.entity.type == type && entry.type == .label &&
      wanted.contains (entry.language, entry.text)

/-- Whether one of the entries, of whatever entity, is a certain term. -/
def hasTerm (entries : List TermEntry) (type : TermType) (language text : String) : Bool :=
  entries.any fun entry => entry.type == type && entry.language == language && entry.text == text

/-- The given labels that an entity with certain entries has, in one language, together with the
given description. -/
def sharedPairs (labels descriptions : TermList) (id : EntityId) (entries : List TermEntry) :
    List TermEntry :=
  let shared := labels.toList.filter fun (language, label) =>
    (descriptions.get? language).any fun description =>
      hasTerm entries .label language label && hasTerm entries .description language description
  shared.map fun (language, label) => ⟨id, .label, language, label⟩

/-- The labels of entities of a type that have, in one language, both the given label and
the given description. -/
def descriptionConflicts (index : TermIndex) (type : EntityType)
    (labels descriptions : TermList) : List TermEntry :=
  let ofType := index.toList.filter fun (id, _) => id.type == type
  ofType.flatMap fun (id, entries) => sharedPairs labels descriptions id entries

end TermIndex

end KnowledgeBase
