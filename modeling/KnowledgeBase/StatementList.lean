import KnowledgeBase.SortedMap
import KnowledgeBase.Statement

/-!
The statements of an entity, in order. Identifiers may be missing or repeated; a look-up by
identifier finds the first statement that has it.
-/

namespace KnowledgeBase

abbrev StatementList := List Statement

namespace StatementList

def indexOf? (list : StatementList) (guid : String) : Option Nat :=
  list.findIdx? (·.guid? == some guid)

def get? (list : StatementList) (guid : String) : Option Statement :=
  list.find? (·.guid? == some guid)

def remove (list : StatementList) (guid : String) : StatementList :=
  match list.indexOf? guid with
  | some index => list.eraseIdx index
  | none => list

/-- Puts a statement at `index`, at the end if the index is beyond it. -/
def insertAt (list : StatementList) (index : Nat) (statement : Statement) : StatementList :=
  list.insertIdx (min index list.length) statement

/-- Gives the first statement with `guid` another rank. -/
def setRank (list : StatementList) (guid : String) (rank : Rank) : StatementList :=
  match list.indexOf? guid with
  | some index => list.modify index ({ · with rank })
  | none => list

/-- The properties of the list in the order of their first statements. -/
def properties (list : StatementList) : List PropertyId := (list.map Statement.property).eraseDups

def withProperty (list : StatementList) (property : PropertyId) : StatementList :=
  list.filter (·.property == property)

def withRank (list : StatementList) (rank : Rank) : StatementList := list.filter (·.rank == rank)

/-- The highest rank of the statements of each property. -/
def highestRanks (list : StatementList) : SortedMap PropertyId Rank :=
  list.foldl (fun ranks statement =>
    let highest := (ranks.get? statement.property).getD .deprecated
    ranks.insert statement.property (max highest statement.rank)) .empty

/-- The statements of the highest rank of their property, none of which is deprecated. -/
def best (list : StatementList) : StatementList :=
  let ranks := list.highestRanks
  list.filter fun statement =>
    statement.rank != .deprecated && ranks.get? statement.property == some statement.rank

/-- Groups of statements about one property each, with the place of every property's group. -/
structure Grouping where
  groups : List (PropertyId × StatementList) := []
  places : SortedMap PropertyId Nat := .empty

namespace Grouping

/-- The place of the group of a property; a property without a group gets one at the end. -/
def place (grouping : Grouping) (property : PropertyId) : Nat × Grouping :=
  match grouping.places.get? property with
  | some place => (place, grouping)
  | none =>
      let place := grouping.groups.length
      (place, {
        groups := grouping.groups ++ [(property, [])]
        places := grouping.places.insert property place })

/-- Adds a statement to the end of the group of its property. -/
def add (grouping : Grouping) (statement : Statement) : Grouping :=
  let (place, grouping) := grouping.place statement.property
  { grouping with
    groups := grouping.groups.modify place fun (property, group) =>
      (property, group ++ [statement]) }

end Grouping

/-- The statements by property, in the order in which the properties are first met. -/
def grouped (list : StatementList) : List (PropertyId × StatementList) :=
  (list.foldl Grouping.add {}).groups

def allSnaks (list : StatementList) : List Snak := list.flatMap Statement.allSnaks

end StatementList

end KnowledgeBase
