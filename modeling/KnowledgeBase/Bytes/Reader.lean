import KnowledgeBase.Bytes.Writer

/-!
Reading fields off the front of a list of bytes. A reader that fails leaves the bytes it
has not looked at; only a number can fail after it has taken some.
-/

namespace KnowledgeBase

inductive ByteError where
  | unexpectedEnd (context : String)
  | varintTooLong
  | varintOverflow
  | lengthExceedsLimit (field : String) (length limit : Nat)
deriving DecidableEq

def ByteError.message : ByteError → String
  | .unexpectedEnd context => s!"[E005] unexpected end of input while reading {context}"
  | .varintTooLong => "[E005] varint exceeds maximum length (10 bytes)"
  | .varintOverflow => "[E005] varint overflow (value exceeds u64)"
  | .lengthExceedsLimit field length limit =>
      s!"[E005] {field} length {length} exceeds maximum {limit}"

/-- A computation that takes bytes from the front of what is left. -/
abbrev ByteReader := ExceptT ByteError (StateM Bytes)

namespace ByteReader

def byte (context : String) : ByteReader UInt8 := do
  match ← get with
  | [] => throw (.unexpectedEnd context)
  | first :: rest =>
      set rest
      return first

def bytes (count : Nat) (context : String) : ByteReader Bytes := do
  let left ← get
  if left.length < count then throw (.unexpectedEnd context)
  set (left.drop count)
  return left.take count

/-- Reads at most `groups` groups of a number, the first of them in units of `weight`. The
last group that is allowed holds a single bit. -/
def varintFrom (context : String) : Nat → Nat → Nat → ByteReader Nat
  | 0, _, _ => throw .varintTooLong
  | groups + 1, weight, sum => do
      let next ← byte context
      let value := next.toNat % 128
      if groups = 0 ∧ 1 < value then throw .varintOverflow
      let sum := sum + value * weight
      if next.toNat < 128 then return sum
      varintFrom context groups (weight * 128) sum

/-- A number below `2 ^ 64` in at most ten groups. -/
def varint (context : String) : ByteReader Nat := varintFrom context 10 1 0

/-- Reads a length, checks it against `limit`, then reads that many bytes. -/
def sized (limit : Nat) (field : String) : ByteReader Bytes := do
  let length ← varint field
  if limit < length then throw (.lengthExceedsLimit field length limit)
  bytes length field

end ByteReader

end KnowledgeBase
