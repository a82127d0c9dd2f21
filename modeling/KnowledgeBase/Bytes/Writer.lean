import KnowledgeBase.Binary64.Basic

/-!
Byte forms of single fields. A number is written in groups of seven bits, the least
significant first, with the high bit set on all groups but the last. A field of variable
length is preceded by its length.
-/

namespace KnowledgeBase

abbrev Bytes := List UInt8

namespace Bytes

/-- The groups of a number, with `more` groups after the first. -/
def groups : Nat → Nat → Bytes
  | 0, n => [UInt8.ofNat n]
  | more + 1, n => UInt8.ofNat (n % 128 + 128) :: groups more (n / 128)

def varint (n : Nat) : Bytes := groups (n.log2 / 7) n

/-- Interleaves the integers: 0, -1, 1, -2 become 0, 1, 2, 3. -/
def zigzag (n : Int) : Nat := if 0 ≤ n then 2 * n.natAbs else 2 * n.natAbs - 1

def signed (n : Int) : Bytes := varint (zigzag n)

def sized (bytes : Bytes) : Bytes := varint bytes.length ++ bytes

/-- The characters of a text, each in one to four bytes. -/
def utf8 (text : String) : Bytes := text.toByteArray.toList

def text (value : String) : Bytes := sized (utf8 value)

/-- A presence byte, then the value if there is one. -/
def optional {α : Type} (write : α → Bytes) : Option α → Bytes
  | none => [0]
  | some value => 1 :: write value

/-- A double without its distinction between the two zeros. -/
def double (x : Binary64) : Bytes := x.withoutSignedZero.bytes

end Bytes

end KnowledgeBase
