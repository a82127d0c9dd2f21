import KnowledgeBase.Bytes.Writer

/-!
Reading what is compressed. A decompressor is asked for content again and again, each time for
as much as there is room for, and gives nothing when all of it was handed out. Requests grow
until all of the content is there or there is more than was expected.
-/

namespace KnowledgeBase

structure Decompressor where
  /-- What a decompressor knows of the bytes that it reads. -/
  State : Type
  start : Bytes → State
  /-- Hands out content for which there is room; fails if the bytes are at fault. -/
  read : (room : Nat) → State → Option (Bytes × State)

namespace Decompressor

/-- How many bytes are asked for when `left` bytes are expected and a request has at most `most`
bytes. When few are left, one byte more than expected is asked for. -/
def requestSize (left most : Nat) : Nat := if left < 32 then left + 1 else min left most

/-- The bound on requests after one for `room` bytes. It doubles if that was the most that could
be asked for and all of it came. -/
def nextBound (most room count : Nat) : Nat :=
  if most ≤ room ∧ count = room then 2 * most else most

/-- Reads to the end or to one byte more than expected. -/
def readOn (d : Decompressor) (expected most done : Nat) : (fuel : Nat) → d.State → Option Bytes
  | 0, _ => none
  | fuel + 1, state => do
      if expected < done then return []
      let room := requestSize (expected - done) most
      let (output, state) ← d.read room state
      if output.isEmpty then return []
      let most := nextBound most room output.length
      let rest ← d.readOn expected most (done + output.length) fuel state
      return output ++ rest

/-- All content, or its first `expected + 1` bytes if it has more. Nothing if a fault is met on
the way. -/
def content? (d : Decompressor) (expected : Nat) (bytes : Bytes) : Option Bytes :=
  d.readOn expected 8192 0 (expected + 3) (d.start bytes)

end Decompressor

end KnowledgeBase
