import KnowledgeBase.Binary64.Rounding

/-!
The double that a written decimal is read as. A decimal is a significand below `2 ^ 64` times
a power of ten. The significand and the power are rounded to doubles, and their product or
quotient is rounded again, so the result can differ from the double nearest to the decimal in
its last places. It is the nearest one if the first two roundings change nothing.
-/

namespace KnowledgeBase.Binary64

/-- The product of two finite magnitudes, if it is finite. -/
def product? (x y : Binary64) : Option Binary64 :=
  let (m, p) := x.decompose
  let (n, q) := y.decompose
  nearest? false ((m * n) <<< (p + q)) (1 <<< 2148)

/-- The quotient of two finite magnitudes; zero if it is too large. -/
def quotient (x y : Binary64) : Binary64 :=
  let (m, p) := x.decompose
  let (n, q) := y.decompose
  (nearest? false (m <<< p) (n <<< q)).getD zero

/-- The largest exponent of a power of ten that is finite. -/
def maxPower : Nat := 308

/-- The double nearest to `10 ^ n`, for `n` up to the largest exponent. -/
def powerOfTen (n : Nat) : Binary64 := (nearest? false (Nat.pow 10 n) 1).getD zero

/-- A magnitude divided by `10 ^ n`. Larger powers are divided by in steps, as long as the
quotient is not zero. -/
def overPower (x : Binary64) (n : Nat) : Binary64 :=
  if n ≤ maxPower then x.quotient (powerOfTen n)
  else if x.isZero then x
  else overPower (x.quotient (powerOfTen maxPower)) (n - maxPower)
termination_by n
decreasing_by simp only [maxPower] at *; omega

/-- The double that `significand * 10 ^ exponent` is read as; none beyond all finite ones. -/
def ofDecimal? (negative : Bool) (significand : Nat) (exponent : Int) : Option Binary64 :=
  let x := ofInt significand
  let result :=
    if exponent < 0 then some (x.overPower exponent.natAbs)
    else if x.isZero then some x
    else if maxPower < exponent then none
    else x.product? (powerOfTen exponent.toNat)
  result.map fun y => ofMagnitude negative y.magnitude

end KnowledgeBase.Binary64
