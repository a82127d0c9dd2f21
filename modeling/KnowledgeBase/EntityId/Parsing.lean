import KnowledgeBase.ModelError

/-!
Reading ids. The letter may be in either case; the number is written without sign, leading
zeros or anything that is not an ASCII digit.
-/

namespace KnowledgeBase

def EntityType.ofLetter? (c : Char) : Option EntityType :=
  match c with
  | 'Q' | 'q' => some .item
  | 'P' | 'p' => some .property
  | _ => none

/-- The number written by `digits`, if it is written as an id writes it. -/
def idNumber? (digits : List Char) : Option Nat :=
  match digits with
  | [] => none
  | '0' :: _ => none
  | digits =>
      if digits.all Char.isDigit then
        let number := Nat.ofDigitChars 10 digits 0
        if number ≤ maxEntityNumber then some number else none
      else
        none

def ItemId.ofNumber? (number : Nat) : Option ItemId :=
  if h : 0 < number ∧ number ≤ maxEntityNumber then some ⟨number, h.1, h.2⟩ else none

def PropertyId.ofNumber? (number : Nat) : Option PropertyId :=
  if h : 0 < number ∧ number ≤ maxEntityNumber then some ⟨number, h.1, h.2⟩ else none

def EntityId.ofParts? (type : EntityType) (number : Nat) : Option EntityId :=
  match type with
  | .item => (ItemId.ofNumber? number).map .item
  | .property => (PropertyId.ofNumber? number).map .property

def EntityId.ofChars? : List Char → Option EntityId
  | [] => none
  | letter :: digits => do
      EntityId.ofParts? (← EntityType.ofLetter? letter) (← idNumber? digits)

/-- The id with a number that may be out of bounds. -/
def ItemId.ofNumber (number : Nat) : Except ModelError ItemId :=
  match ItemId.ofNumber? number with
  | some id => .ok id
  | none => .error (.malformedEntityId (idText .item number))

def PropertyId.ofNumber (number : Nat) : Except ModelError PropertyId :=
  match PropertyId.ofNumber? number with
  | some id => .ok id
  | none => .error (.malformedEntityId (idText .property number))

def EntityId.parse (text : String) : Except ModelError EntityId :=
  match EntityId.ofChars? text.toList with
  | some id => .ok id
  | none => .error (.malformedEntityId text)

/-- The id as an item's, where `written` is what an error shows of it. -/
def EntityId.expectItem (written : String) : EntityId → Except ModelError ItemId
  | .item id => .ok id
  | .property _ => .error (.wrongEntityType written .item)

def EntityId.expectProperty (written : String) : EntityId → Except ModelError PropertyId
  | .property id => .ok id
  | .item _ => .error (.wrongEntityType written .property)

def ItemId.parse (text : String) : Except ModelError ItemId := do
  (← EntityId.parse text).expectItem text

def PropertyId.parse (text : String) : Except ModelError PropertyId := do
  (← EntityId.parse text).expectProperty text

end KnowledgeBase
