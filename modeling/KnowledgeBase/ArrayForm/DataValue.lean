import KnowledgeBase.ArrayForm.Basic
import KnowledgeBase.DataValue
import KnowledgeBase.EntityId.Parsing

/-!
The array form of data values: an object with the name of the kind and the value proper.
The payload of an entity id gives the id twice, whole and in parts; either may be missing,
but if both are there they must agree.
-/

namespace KnowledgeBase

def Quantity.members (q : Quantity) : Members :=
  [("amount", .text q.amount), ("unit", .text q.unit)] ++
    (q.upperBound.map fun bound => ("upperBound", Json.text bound)).toList ++
    (q.lowerBound.map fun bound => ("lowerBound", Json.text bound)).toList

def Quantity.ofMembers (members : Members) : Except ArrayError Quantity := do
  return {
    amount := ← members.text "amount"
    unit := ← members.text "unit"
    upperBound := ← members.optional "upperBound" (Json.expectText "upperBound")
    lowerBound := ← members.optional "lowerBound" (Json.expectText "lowerBound") }

def TimePoint.members (t : TimePoint) : Members :=
  [("time", .text t.time), ("timezone", .int t.timezone.toInt), ("before", .int t.before.toNat),
    ("after", .int t.after.toNat), ("precision", .int t.precision.toNat),
    ("calendarmodel", .text t.calendar)]

def TimePoint.ofMembers (members : Members) : Except ArrayError TimePoint := do
  return {
    time := ← members.text "time"
    timezone := Int32.ofInt (← members.integer "timezone" Int32.minValue.toInt Int32.maxValue.toInt)
    before := UInt32.ofNat (← members.integer "before" 0 (UInt32.size - 1)).toNat
    after := UInt32.ofNat (← members.integer "after" 0 (UInt32.size - 1)).toNat
    precision := UInt8.ofNat (← members.integer "precision" 0 (UInt8.size - 1)).toNat
    calendar := ← members.text "calendarmodel" }

def Coordinate.members (c : Coordinate) : Members :=
  [("latitude", .ofBinary64 c.latitude), ("longitude", .ofBinary64 c.longitude),
    ("altitude", .ofOption (c.altitude.map .ofBinary64)),
    ("precision", .ofOption (c.precision.map .ofBinary64)), ("globe", .text c.globe)]

def Coordinate.ofMembers (members : Members) : Except ArrayError Coordinate := do
  return {
    latitude := ← members.number "latitude"
    longitude := ← members.number "longitude"
    altitude := ← members.optional "altitude" (Json.expectNumber "altitude")
    precision := ← members.optional "precision" (Json.expectNumber "precision")
    globe := ← members.text "globe" }

namespace EntityId

def members (id : EntityId) : Members :=
  [("entity-type", .text id.type.name), ("numeric-id", .int id.number), ("id", .text id.text)]

/-- The id given by its type and its number, which count only together. -/
def ofPartMembers (members : Members) : Except ArrayError (Option EntityId) :=
  match members.given? "entity-type", members.given? "numeric-id" with
  | some kind, some numeric => do
      let kind ← kind.expectText "entity-type"
      let some type := EntityType.ofName? kind | throw (.unknownKind "entity-type" kind)
      let some number := numeric.asUnsigned? | throw (.invalidField "numeric-id" .notPositive)
      match EntityId.ofParts? type number with
      | some id => return some id
      | none => throw (.model (.malformedEntityId (idText type number)))
  | _, _ => .ok none

def ofMembers (members : Members) : Except ArrayError EntityId := do
  let parts ← ofPartMembers members
  match members.given? "id", parts with
  | some text, parts =>
      let id ← EntityId.parse (← text.expectText "id")
      if parts.any (· != id) then throw (.invalidField "id" .contradictsParts)
      return id
  | none, some id => return id
  | none, none => throw (.missingField "id")

end EntityId

namespace DataValue

def payload : DataValue → Json
  | .string value => .text value
  | .monolingualText language text =>
      .ofMembers [("text", .text text), ("language", .text language)]
  | .quantity q => .ofMembers q.members
  | .time t => .ofMembers t.members
  | .coordinate c => .ofMembers c.members
  | .entityId id => .ofMembers id.members

def ofPayload (kind : ValueKind) (payload : Json) : Except ArrayError DataValue := do
  match kind with
  | .string => return .string (← payload.expectText "value")
  | .monolingualText =>
      let members ← payload.expectObject "value"
      let text ← members.text "text"
      return .monolingualText (← members.text "language") text
  | .quantity => return .quantity (← Quantity.ofMembers (← payload.expectObject "value"))
  | .time => return .time (← TimePoint.ofMembers (← payload.expectObject "value"))
  | .globeCoordinate =>
      return .coordinate (← Coordinate.ofMembers (← payload.expectObject "value"))
  | .entityId => return .entityId (← EntityId.ofMembers (← payload.expectObject "value"))

instance : ArrayForm DataValue where
  toArray value := .ofMembers [("type", .text value.kind.name), ("value", value.payload)]
  ofArray array := do
    let members ← array.expectObject "datavalue"
    let name ← members.text "type"
    let some kind := ValueKind.ofName? name | throw (.unknownKind "datavalue type" name)
    ofPayload kind (← members.field "value")

end DataValue

end KnowledgeBase
