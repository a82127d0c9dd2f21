import KnowledgeBase.Binary64.Basic

/-!
The decimal with the fewest digits among those that round to a given double. With
that many digits there may be two of them; the nearer one is taken, and where both are
equally near a rule decides.

The doubles around a finite positive `x` leave an interval of reals that round to `x`; its
ends round to `x` when the fraction of `x` is even. For each number of digits only the two
decimals next to `x` can lie in the interval. No digits at all are tried first, since the
next power of ten may be the nearest of them.
-/

namespace KnowledgeBase

/-- Which of two equally near decimals is taken. -/
inductive Tie where
  | toEven
  | up
deriving DecidableEq

/-- The number `digits * 10 ^ exponent`. -/
structure Decimal where
  digits : Nat
  exponent : Int
deriving DecidableEq

namespace Binary64

/-- The reals between two doubles' midpoints, all over the denominator `2 ^ 1076`. -/
structure Neighbourhood where
  low : Nat
  centre : Nat
  high : Nat
  closed : Bool

/-- Below a power of two the doubles are twice as dense, so the lower end is nearer there. -/
def neighbourhood (x : Binary64) : Neighbourhood :=
  let (fraction, scale) := x.decompose
  let below := if fraction = fractions ∧ 0 < scale then 1 else 2
  { low := (4 * fraction - below) <<< scale
    centre := (4 * fraction) <<< scale
    high := (4 * fraction + 2) <<< scale
    closed := fraction % 2 == 0 }

private def common : Nat := 1 <<< 1076

/-- The neighbourhood in units of `10 ^ exponent`, with its denominator. -/
def Neighbourhood.inUnits (around : Neighbourhood) (exponent : Int) : Neighbourhood × Nat :=
  if exponent < 0 then
    let factor := Nat.pow 10 exponent.natAbs
    ({ around with
        low := around.low * factor
        centre := around.centre * factor
        high := around.high * factor }, common)
  else
    (around, common * Nat.pow 10 exponent.toNat)

/-- The multiple of `10 ^ exponent` next to the centre that lies in the neighbourhood. -/
def Neighbourhood.gridPoint? (around : Neighbourhood) (tie : Tie) (exponent : Int) : Option Nat :=
  let (scaled, unit) := around.inUnits exponent
  let inside (n : Nat) : Bool :=
    if scaled.closed then scaled.low ≤ n * unit && n * unit ≤ scaled.high
    else scaled.low < n * unit && n * unit < scaled.high
  let floor := scaled.centre / unit
  match inside floor, inside (floor + 1) with
  | false, false => none
  | true, false => some floor
  | false, true => some (floor + 1)
  | true, true =>
      let twice := 2 * (scaled.centre % unit)
      if twice < unit then some floor
      else if unit < twice then some (floor + 1)
      else match tie with
        | .up => some (floor + 1)
        | .toEven => some (floor + floor % 2)

/-- The least `n` with the centre below `10 ^ n`, from its length in bits. -/
def Neighbourhood.leadingPlace (around : Neighbourhood) : Int :=
  let bits : Int := around.centre.log2 - 1076
  let guess := Int.fdiv (bits * 30103) 100000
  let below (n : Int) : Bool :=
    let (scaled, unit) := around.inUnits n
    scaled.centre < unit
  if below guess then guess else if below (guess + 1) then guess + 1 else guess + 2

/-- The shortest decimal that rounds to the magnitude of `x`, a finite number not zero. -/
def shortest (x : Binary64) (tie : Tie) : Decimal :=
  let around := x.neighbourhood
  let place := around.leadingPlace
  let found := (List.range 18).findSome? fun count =>
    let exponent := place - Int.ofNat count
    (around.gridPoint? tie exponent).map fun digits => Decimal.mk digits exponent
  found.getD ⟨0, 0⟩

end Binary64

end KnowledgeBase
