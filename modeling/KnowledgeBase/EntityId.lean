import KnowledgeBase.Limits

/-!
Identifiers of items and properties: a letter for the type and a positive number, as in
`Q42` and `P7`. An id holds the bounds on its number, so every id has a written form that
reads back as the same id.
-/

namespace KnowledgeBase

inductive EntityType where
  | item
  | property
deriving DecidableEq, Inhabited

namespace EntityType

def letter : EntityType → Char
  | .item => 'Q'
  | .property => 'P'

def name : EntityType → String
  | .item => "item"
  | .property => "property"

def ofName? (name : String) : Option EntityType :=
  if name = "item" then some .item
  else if name = "property" then some .property
  else none

end EntityType

structure ItemId where
  number : Nat
  positive : 0 < number
  bounded : number ≤ maxEntityNumber
deriving DecidableEq

structure PropertyId where
  number : Nat
  positive : 0 < number
  bounded : number ≤ maxEntityNumber
deriving DecidableEq

inductive EntityId where
  | item (id : ItemId)
  | property (id : PropertyId)
deriving DecidableEq

/-- The written form of an id of a type with a number. -/
def idText (type : EntityType) (number : Nat) : String :=
  String.ofList (type.letter :: Nat.toDigits 10 number)

def ItemId.text (id : ItemId) : String := idText .item id.number

namespace PropertyId

def text (id : PropertyId) : String := idText .property id.number

instance : Ord PropertyId := ⟨compareOn number⟩

instance : Std.TransOrd PropertyId := inferInstanceAs (Std.TransCmp (compareOn number))

instance : Std.LawfulEqOrd PropertyId where
  eq_of_compare {first second} h := by
    have hnumber : first.number = second.number := Nat.compare_eq_eq.mp h
    cases first
    cases second
    cases hnumber
    rfl
  compare_self := Nat.compare_eq_eq.mpr rfl

end PropertyId

namespace EntityId

def type : EntityId → EntityType
  | .item _ => .item
  | .property _ => .property

def number : EntityId → Nat
  | .item id => id.number
  | .property id => id.number

def text (id : EntityId) : String := idText id.type id.number

/-- Items come before properties, and ids of one type are ordered by their numbers. -/
def rank (id : EntityId) : Nat :=
  match id with
  | .item id => id.number
  | .property id => maxEntityNumber + id.number

theorem rank_injective {first second : EntityId} (h : first.rank = second.rank) :
    first = second := by
  have bound (id : ItemId) : id.number ≤ maxEntityNumber := id.bounded
  have pos (id : PropertyId) : 0 < id.number := id.positive
  cases first with
  | item first =>
      cases second with
      | item second => cases first; cases second; simp_all [rank]
      | property second =>
          have := bound first
          have := pos second
          simp only [rank] at h
          omega
  | property first =>
      cases second with
      | item second =>
          have := bound second
          have := pos first
          simp only [rank] at h
          omega
      | property second => cases first; cases second; simp_all [rank]

instance : Ord EntityId := ⟨compareOn rank⟩

instance : Std.TransOrd EntityId := inferInstanceAs (Std.TransCmp (compareOn rank))

instance : Std.LawfulEqOrd EntityId where
  eq_of_compare h := rank_injective (Nat.compare_eq_eq.mp h)
  compare_self := Nat.compare_eq_eq.mpr rfl

end EntityId

end KnowledgeBase
