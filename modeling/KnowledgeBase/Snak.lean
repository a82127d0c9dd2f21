import KnowledgeBase.DataValue

/-!
Snaks: what is said about a property, which is that it has a given value, some value that
is not known, or none. A list of snaks holds no two equal ones and keeps the order in which
they were added; its canonical order and its hash forget how the snaks of different
properties are interleaved.
-/

namespace KnowledgeBase

inductive SnakKind where
  | noValue
  | someValue
  | value
deriving DecidableEq

namespace SnakKind

def name : SnakKind → String
  | .noValue => "novalue"
  | .someValue => "somevalue"
  | .value => "value"

def ofName? (name : String) : Option SnakKind :=
  [SnakKind.noValue, .someValue, .value].find? (·.name == name)

end SnakKind

inductive Snak where
  | noValue (property : PropertyId)
  | someValue (property : PropertyId)
  | value (property : PropertyId) (data : DataValue)
deriving DecidableEq

namespace Snak

def property : Snak → PropertyId
  | .noValue property => property
  | .someValue property => property
  | .value property _ => property

def kind : Snak → SnakKind
  | .noValue _ => .noValue
  | .someValue _ => .someValue
  | .value _ _ => .value

def dataValue? : Snak → Option DataValue
  | .value _ data => some data
  | _ => none

def equal (first second : Snak) : Bool :=
  first.kind == second.kind && first.property == second.property &&
    first.dataValue? == second.dataValue?

instance : BEq Snak := ⟨equal⟩

def canonicalBytes (snak : Snak) : Bytes :=
  Bytes.text snak.kind.name ++ Bytes.text snak.property.text ++
    match snak.dataValue? with
    | some data => data.canonicalBytes
    | none => []

def hash (snak : Snak) : String := contentHash snak.canonicalBytes

end Snak

structure SnakList where
  snaks : List Snak
deriving DecidableEq, Inhabited

namespace SnakList

def empty : SnakList := ⟨[]⟩

instance : BEq SnakList := ⟨fun first second => first.snaks == second.snaks⟩

def contains (list : SnakList) (snak : Snak) : Bool := list.snaks.any (· == snak)

/-- The list with `snak` at its end, or the same list if it has an equal snak. -/
def add (list : SnakList) (snak : Snak) : SnakList :=
  if list.contains snak then list else ⟨list.snaks ++ [snak]⟩

def remove (list : SnakList) (snak : Snak) : SnakList :=
  match list.snaks.findIdx? (· == snak) with
  | some index => ⟨list.snaks.eraseIdx index⟩
  | none => list

def ofList (snaks : List Snak) : SnakList := snaks.foldl add empty

def size (list : SnakList) : Nat := list.snaks.length

def isEmpty (list : SnakList) : Bool := list.snaks.isEmpty

/-- The properties of the list in the order of their first snaks. -/
def properties (list : SnakList) : List PropertyId := (list.snaks.map Snak.property).eraseDups

/-- The snaks by the text of their property. Those of one property keep their order. -/
def canonicalOrder (list : SnakList) : List Snak :=
  list.snaks.mergeSort fun first second => first.property.text ≤ second.property.text

def canonicalBytes (list : SnakList) : Bytes :=
  Bytes.text "snaks" ++ Bytes.varint list.size ++
    list.canonicalOrder.flatMap Snak.canonicalBytes

def hash (list : SnakList) : String := contentHash list.canonicalBytes

end SnakList

end KnowledgeBase
