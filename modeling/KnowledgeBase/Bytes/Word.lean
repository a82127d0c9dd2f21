import KnowledgeBase.Bytes.Reader

/-!
Numbers as they are written and read in 64-bit words, where a group is cut off and put in its
place by masks and shifts. A sign is moved to the end of a word by a shift that spreads it.
-/

namespace KnowledgeBase

namespace Bytes

def ofWord (value : UInt64) : Bytes :=
  if value < 0x80 then [value.toUInt8]
  else (value.toUInt8 &&& 0x7F ||| 0x80) :: ofWord (value >>> 7)
termination_by value.toNat
decreasing_by
  have hshift : (value >>> 7).toNat = value.toNat / 128 := by simp [Nat.shiftRight_eq_div_pow]
  have hmore : ¬value.toNat < 128 := ‹¬value < 0x80›
  omega

/-- Interleaves the signed words: 0, -1, 1, -2 become 0, 1, 2, 3. -/
def zigzagWord (value : Int64) : UInt64 := ((value <<< 1) ^^^ (value >>> 63)).toUInt64

def ofSignedWord (value : Int64) : Bytes := ofWord (zigzagWord value)

end Bytes

namespace ByteReader

/-- Reads the group at `place`, of `left` that are allowed, and those that follow it into a
word that holds the groups before. -/
def wordFrom (context : String) : (left place : Nat) → UInt64 → ByteReader UInt64
  | 0, _, _ => throw .varintTooLong
  | left + 1, place, word => do
      let next ← byte context
      let value := (next &&& 0x7F).toUInt64
      let shift := 7 * place
      if shift = 63 ∧ 1 < value then throw .varintOverflow
      let word := word ||| value <<< UInt64.ofNat shift
      if next &&& 0x80 = 0 then return word
      wordFrom context left (place + 1) word

def word (context : String) : ByteReader UInt64 := wordFrom context 10 0 0

end ByteReader

end KnowledgeBase
