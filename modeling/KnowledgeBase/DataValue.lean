import KnowledgeBase.Bytes.Writer
import KnowledgeBase.DataValue.Kind
import KnowledgeBase.Digest.Sha256
import KnowledgeBase.EntityId

/-!
The values that statements assert: texts, amounts, points in time, places and references to
entities. Values are compared part by part, and doubles as numbers, so the two zeros are
the same coordinate. Every value has a canonical byte form, which also does not tell the two
zeros apart.
-/

namespace KnowledgeBase

/-- A decimal amount with its unit and, if they are known, the bounds on it. -/
structure Quantity where
  amount : String
  unit : String
  upperBound : Option String
  lowerBound : Option String
deriving DecidableEq

structure TimePoint where
  time : String
  /-- Minutes from universal time. -/
  timezone : Int32
  before : UInt32
  after : UInt32
  /-- From 0, a billion years, to 14, a second. -/
  precision : UInt8
  calendar : String
deriving DecidableEq

structure Coordinate where
  latitude : Binary64
  longitude : Binary64
  altitude : Option Binary64
  precision : Option Binary64
  globe : String
deriving DecidableEq

inductive DataValue where
  | string (value : String)
  | monolingualText (language text : String)
  | quantity (quantity : Quantity)
  | time (point : TimePoint)
  | coordinate (place : Coordinate)
  | entityId (id : EntityId)
deriving DecidableEq

/-- The calendar of times that name no other. -/
def gregorianCalendar : String := "http://www.wikidata.org/entity/Q1985727"

/-- The globe of coordinates that name no other. -/
def earthGlobe : String := "http://www.wikidata.org/entity/Q2"

def Coordinate.equal (first second : Coordinate) : Bool :=
  first.latitude == second.latitude && first.longitude == second.longitude &&
    first.altitude == second.altitude && first.precision == second.precision &&
    first.globe == second.globe

instance : BEq Coordinate := ⟨Coordinate.equal⟩

namespace DataValue

/-- An amount that is a plain number. -/
def ofAmount (amount : String) : DataValue := .quantity ⟨amount, "1", none, none⟩

def ofTime (time : String) (precision : UInt8) : DataValue :=
  .time ⟨time, 0, 0, 0, precision, gregorianCalendar⟩

def ofPlace (latitude longitude : Binary64) (precision : Option Binary64) : DataValue :=
  .coordinate ⟨latitude, longitude, none, precision, earthGlobe⟩

def kind : DataValue → ValueKind
  | .string _ => .string
  | .monolingualText _ _ => .monolingualText
  | .quantity _ => .quantity
  | .time _ => .time
  | .coordinate _ => .globeCoordinate
  | .entityId _ => .entityId

/-- Equality of contents; only doubles are not compared as they are stored. -/
def equal : DataValue → DataValue → Bool
  | .coordinate first, .coordinate second => first == second
  | first, second => decide (first = second)

instance : BEq DataValue := ⟨equal⟩

def canonicalBytes (value : DataValue) : Bytes :=
  value.kind.tag ::
    match value with
    | .string value => Bytes.text value
    | .monolingualText language text => Bytes.text language ++ Bytes.text text
    | .quantity q =>
        Bytes.text q.amount ++ Bytes.text q.unit ++ Bytes.optional Bytes.text q.upperBound ++
          Bytes.optional Bytes.text q.lowerBound
    | .time t =>
        Bytes.text t.time ++ Bytes.signed t.timezone.toInt ++ Bytes.varint t.before.toNat ++
          Bytes.varint t.after.toNat ++ t.precision :: Bytes.text t.calendar
    | .coordinate c =>
        Bytes.double c.latitude ++ Bytes.double c.longitude ++
          Bytes.optional Bytes.double c.altitude ++ Bytes.optional Bytes.double c.precision ++
          Bytes.text c.globe
    | .entityId id => Bytes.text id.text

def hash (value : DataValue) : String := contentHash value.canonicalBytes

end DataValue

def EntityId.canonicalBytes (id : EntityId) : Bytes := Bytes.text id.text

def EntityId.hash (id : EntityId) : String := contentHash id.canonicalBytes

end KnowledgeBase
