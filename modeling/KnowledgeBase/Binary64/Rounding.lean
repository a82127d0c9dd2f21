import KnowledgeBase.Binary64.Basic

/-!
The double nearest to a quotient of natural numbers. A value midway between two doubles
goes to the one with the even fraction; a value too large for any finite double has none.
-/

namespace KnowledgeBase.Binary64

/-- The quotient rounded to the nearest natural number, midway values to the even one. -/
def roundHalfEven (num den : Nat) : Nat :=
  let whole := num / den
  let twice := 2 * (num % den)
  if twice < den then whole
  else if den < twice then whole + 1
  else whole + whole % 2

/-- The least `q` for which `num / den` is less than `2 ^ 53` units of `2 ^ (q - 1074)`. -/
def scaleOf (num den : Nat) : Nat :=
  let near := num.log2 + 1074 - den.log2 - 53
  if num <<< 1074 < den <<< (near + 53) then near else near + 1

/-- The magnitude word nearest to `num / den`. Rounding up to `2 ^ 53` units carries into
the exponent field, which is what it should do. -/
def nearestMagnitude (num den : Nat) : Nat :=
  if num = 0 then 0 else
  let scale := scaleOf num den
  scale * fractions + roundHalfEven (num <<< 1074) (den <<< scale)

def nearest? (negative : Bool) (num den : Nat) : Option Binary64 :=
  let magnitude := nearestMagnitude num den
  if magnitude < infinite then some (ofMagnitude negative magnitude) else none

/-- The double nearest to an integer below `2 ^ 1024` in size; zero if it is larger. -/
def ofInt (n : Int) : Binary64 := (nearest? (n < 0) n.natAbs 1).getD zero

end KnowledgeBase.Binary64
