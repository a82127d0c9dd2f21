import KnowledgeBase.Binary64.Rounding
import KnowledgeBase.DataValue
import KnowledgeBase.ModelError

/-!
Which data values are acceptable. The parts of a value are checked in a fixed order and the
first fault is the one that is reported.
-/

namespace KnowledgeBase

def isDigits (chars : List Char) : Bool := !chars.isEmpty && chars.all Char.isDigit

/-- Digits without a superfluous leading zero, then a point and further digits or nothing. -/
def isDecimal (chars : List Char) : Bool :=
  let (whole, rest) := chars.span (· != '.')
  isDigits whole && (whole.length ≤ 1 || whole.head? != some '0') &&
    match rest with
    | [] => true
    | _ :: fraction => isDigits fraction

/-- A decimal with the sign that amounts always have. -/
def isSignedDecimal (text : String) : Bool :=
  match text.toList with
  | '+' :: rest => isDecimal rest
  | '-' :: rest => isDecimal rest
  | _ => false

/-- A sign in front, a `T` before the time of day and a `Z` at the end. -/
def isTimeShaped (text : String) : Bool :=
  let chars := text.toList
  (chars.head? == some '+' || chars.head? == some '-') && chars.contains 'T' &&
    chars.getLast? == some 'Z'

def Quantity.fault? (q : Quantity) : Option ValueFault :=
  if !isSignedDecimal q.amount then some .amountNotDecimal
  else if q.unit.isEmpty then some .emptyUnit
  else if q.upperBound.isSome != q.lowerBound.isSome then some .unpairedBound
  else if !(q.upperBound.toList ++ q.lowerBound.toList).all isSignedDecimal then
    some .boundNotDecimal
  else none

def TimePoint.fault? (t : TimePoint) : Option ValueFault :=
  if !isTimeShaped t.time then some .timeShape
  else if 14 < t.precision then some .timePrecision
  else if t.timezone.toInt < -1440 ∨ 1440 < t.timezone.toInt then some .timezone
  else if t.calendar.isEmpty then some .emptyCalendar
  else none

def Coordinate.fault? (c : Coordinate) : Option ValueFault :=
  if c.latitude.isNaN || c.longitude.isNaN then some .coordinateNotNumber
  else if c.latitude.exceeds (Binary64.ofInt 90) then some .latitude
  else if c.longitude.exceeds (Binary64.ofInt 360) then some .longitude
  else if c.altitude.any Binary64.isNaN || c.precision.any Binary64.isNaN then
    some .detailNotNumber
  else if c.globe.isEmpty then some .emptyGlobe
  else none

namespace DataValue

def fault? : DataValue → Option ValueFault
  | .monolingualText language _ => if language.isEmpty then some .emptyLanguage else none
  | .quantity q => q.fault?
  | .time t => t.fault?
  | .coordinate c => c.fault?
  | .string _ | .entityId _ => none

def check (value : DataValue) : Except ModelError Unit :=
  match value.fault? with
  | some fault => .error (.invalidDataValue value.kind fault)
  | none => .ok ()

end DataValue

end KnowledgeBase
