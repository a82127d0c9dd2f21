/-!
Double-precision numbers as their 64-bit words: a sign, an eleven-bit exponent field and a
52-bit fraction field. Everything about them is computed from the word in exact arithmetic,
so equality, order and the written forms have no hidden rounding.
-/

namespace KnowledgeBase

structure Binary64 where
  bits : UInt64
deriving DecidableEq, Inhabited

namespace Binary64

/-- The weight of the sign bit, `2 ^ 63`. -/
def signWeight : Nat := 1 <<< 63

/-- The number of values of the fraction field, `2 ^ 52`. -/
def fractions : Nat := 1 <<< 52

def isNegative (x : Binary64) : Bool := signWeight ≤ x.bits.toNat

/-- The word without its sign. Magnitudes of numbers are ordered like these words. -/
def magnitude (x : Binary64) : Nat := x.bits.toNat % signWeight

/-- The magnitude word of the infinities; larger ones are not numbers. -/
def infinite : Nat := 2047 * fractions

def isNaN (x : Binary64) : Bool := infinite < x.magnitude

def isFinite (x : Binary64) : Bool := x.magnitude < infinite

def isZero (x : Binary64) : Bool := x.magnitude == 0

def ofMagnitude (negative : Bool) (magnitude : Nat) : Binary64 :=
  ⟨UInt64.ofNat (if negative then signWeight + magnitude else magnitude)⟩

def zero : Binary64 := ⟨0⟩

/-- Numeric equality: the two zeros are equal, and what is not a number equals nothing. -/
def equal (x y : Binary64) : Bool :=
  !x.isNaN && !y.isNaN && (x.bits == y.bits || x.isZero && y.isZero)

instance : BEq Binary64 := ⟨equal⟩

/-- Whether the distance from zero is greater than `bound`; never so for what is not a number. -/
def exceeds (x : Binary64) (bound : Binary64) : Bool :=
  !x.isNaN && bound.magnitude < x.magnitude

/-- `m` and `q` such that the magnitude of a finite number is `m * 2 ^ (q - 1074)`. -/
def decompose (x : Binary64) : Nat × Nat :=
  let field := x.magnitude / fractions
  let fraction := x.magnitude % fractions
  if field = 0 then (fraction, 0) else (fractions + fraction, field - 1)

/-- The eight bytes of the word, the least significant first. -/
def bytes (x : Binary64) : List UInt8 :=
  (List.range 8).map fun i => UInt8.ofNat (x.bits.toNat >>> (8 * i))

/-- The number with a negative zero replaced by zero. -/
def withoutSignedZero (x : Binary64) : Binary64 := if x.isZero then zero else x

end Binary64

end KnowledgeBase
