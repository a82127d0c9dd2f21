/-!
The kinds of data values and the faults a value of each kind can have.
-/

namespace KnowledgeBase

inductive ValueKind where
  | string
  | monolingualText
  | quantity
  | time
  | globeCoordinate
  | entityId
deriving DecidableEq

namespace ValueKind

def name : ValueKind → String
  | .string => "string"
  | .monolingualText => "monolingualtext"
  | .quantity => "quantity"
  | .time => "time"
  | .globeCoordinate => "globecoordinate"
  | .entityId => "wikibase-entityid"

def all : List ValueKind :=
  [.string, .monolingualText, .quantity, .time, .globeCoordinate, .entityId]

def ofName? (name : String) : Option ValueKind := all.find? (·.name == name)

/-- The byte that opens the canonical form of a value of this kind. -/
def tag : ValueKind → UInt8
  | .string => 1
  | .monolingualText => 2
  | .quantity => 3
  | .time => 4
  | .globeCoordinate => 5
  | .entityId => 6

end ValueKind

inductive ValueFault where
  | emptyLanguage
  | amountNotDecimal
  | emptyUnit
  | unpairedBound
  | boundNotDecimal
  | timeShape
  | timePrecision
  | timezone
  | emptyCalendar
  | coordinateNotNumber
  | latitude
  | longitude
  | detailNotNumber
  | emptyGlobe
deriving DecidableEq

def ValueFault.message : ValueFault → String
  | .emptyLanguage => "language code cannot be empty"
  | .amountNotDecimal => "amount is not a signed decimal"
  | .emptyUnit => "unit cannot be empty"
  | .unpairedBound => "bounds must be given together"
  | .boundNotDecimal => "bound is not a signed decimal"
  | .timeShape => "time must look like +YYYY-MM-DDThh:mm:ssZ"
  | .timePrecision => "precision outside range [0, 14]"
  | .timezone => "timezone outside range [-1440, +1440]"
  | .emptyCalendar => "calendar model cannot be empty"
  | .coordinateNotNumber => "NaN is not allowed in coordinates"
  | .latitude => "latitude out of range [-90, +90]"
  | .longitude => "longitude out of range [-360, +360]"
  | .detailNotNumber => "NaN is not allowed in altitude or precision"
  | .emptyGlobe => "globe cannot be empty"

end KnowledgeBase
