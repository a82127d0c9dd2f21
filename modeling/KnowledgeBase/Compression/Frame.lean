import KnowledgeBase.Bytes.Writer

/-!
The parts of Zstandard frames whose blocks are stored as they are or repeat one byte. Blocks
with entropy coding, dictionaries and checksums are not read.

A frame starts with a mark and a header, which may give the size of the content. The header
also gives a window: how many bytes of content a decoder keeps, and so a bound on blocks.
Frames of a second kind hold data for other readers and are skipped.
-/

namespace KnowledgeBase.Frame

/-- A number from its bytes, the least significant first. -/
def littleEndian : Bytes → Nat
  | [] => 0
  | byte :: rest => byte.toNat + 256 * littleEndian rest

def toLittleEndian : Nat → Nat → Bytes
  | 0, _ => []
  | count + 1, n => UInt8.ofNat (n % 256) :: toLittleEndian count (n / 256)

/-- The number in the first `count` bytes, and the rest. -/
def takeNumber? (count : Nat) (bytes : Bytes) : Option (Nat × Bytes) :=
  let field := bytes.take count
  if field.length = count then some (littleEndian field, bytes.drop count) else none

def mark : Nat := 0xfd2fb528

/-- The sixteen marks of frames that are skipped differ in their last four bits. -/
def isSkippedMark (n : Nat) : Bool := n / 16 == 0x184d2a5

/-- The largest block of any frame. -/
def maxBlock : Nat := 128 * 1024

/-- The largest window for which a decoder keeps content. -/
def maxWindow : Nat := 128 * 1024 * 1024 + 1

/-- What the header of a frame says about its content. -/
structure Header where
  size? : Option Nat
  window : Nat
deriving Inhabited

namespace Header

def blockLimit (header : Header) : Nat := min header.window maxBlock

/-- How many bytes of content a decoder keeps: a window of at least a kilobyte with two blocks
and some slack after it, but no more than the whole content. -/
def bufferSize (header : Header) : Nat :=
  let bound := max header.window 1024 + 2 * header.blockLimit + 64
  (header.size?.map (min bound)).getD bound

/-- Whether content of `count` bytes is what the header promises. -/
def admits (header : Header) (count : Nat) : Bool := header.size?.all (· == count)

end Header

/-- A window of `2 ^ (10 + e)` bytes and `m` eighths of it, both from one byte. There is none
above `2 ^ 31` bytes and their eighths. -/
def window? (byte : Nat) : Option Nat :=
  let exponent := 10 + byte / 8
  let base := 1 <<< exponent
  if 31 < exponent then none else some (base + base / 8 * (byte % 8))

/-- The start of a frame, as far as it is there, and the bytes after it. -/
inductive Opening where
  | cut
  | skipped (size : Nat) (rest : Bytes)
  | content (header : Header) (rest : Bytes)

/-- Reads the header that a descriptor announces. -/
def header? (descriptor : Nat) (bytes : Bytes) : Option Opening := do
  let single := descriptor / 32 % 2 == 1
  let sizeFlag := descriptor / 64
  let sizeBytes := if sizeFlag = 0 ∧ !single then 0 else 1 <<< sizeFlag
  let some (window, rest) := takeNumber? (if single then 0 else 1) bytes | return .cut
  let some (dictionary, rest) := takeNumber? ((1 <<< (descriptor % 4)) / 2) rest | return .cut
  let some (size, rest) := takeNumber? sizeBytes rest | return .cut
  if descriptor / 8 % 2 = 1 ∨ descriptor / 4 % 2 = 1 ∨ dictionary ≠ 0 then none
  let size := if sizeFlag = 1 then size + 256 else size
  let window ← if single then some size else window? window
  let known := sizeBytes ≠ 0 ∧ size + 1 ≠ UInt64.size
  return .content ⟨if known then some size else none, window⟩ rest

/-- Reads the start of a frame; gives nothing if no frame starts so. -/
def opening? (bytes : Bytes) : Option Opening := do
  let some (found, rest) := takeNumber? 4 bytes | return .cut
  if found = mark then
    let some (descriptor, rest) := takeNumber? 1 rest | return .cut
    header? descriptor rest
  else if isSkippedMark found then
    let some (size, rest) := takeNumber? 4 rest | return .cut
    return .skipped size rest
  else
    none

inductive BlockKind where
  | stored
  | repeated
  | coded
  | reserved
deriving DecidableEq

structure BlockHeader where
  last : Bool
  kind : BlockKind
  size : Nat

/-- The header of a block from the number in its three bytes. -/
def BlockHeader.ofNat (n : Nat) : BlockHeader where
  last := n % 2 == 1
  kind := match n / 2 % 4 with
    | 0 => .stored
    | 1 => .repeated
    | 2 => .coded
    | _ => .reserved
  size := n / 8

inductive Block where
  | stored (content : Bytes)
  | repeated (count : Nat) (byte : UInt8)
  | coded
deriving DecidableEq

namespace Block

/-- The size of the content, if it can be read. -/
def size? : Block → Option Nat
  | .stored content => some content.length
  | .repeated count _ => some count
  | .coded => none

def content : Block → Bytes
  | .stored content => content
  | .repeated count byte => List.replicate count byte
  | .coded => []

end Block

/-- The blocks up to the last one of a frame and the bytes after it, if all are there. -/
def blocks? : (fuel : Nat) → Bytes → Option (List Block × Bytes)
  | 0, _ => none
  | fuel + 1, bytes => do
      let (number, rest) ← takeNumber? 3 bytes
      let header := BlockHeader.ofNat number
      let written := rest.take (if header.kind = .repeated then 1 else header.size)
      let rest := rest.drop written.length
      let block ← match header.kind, written with
        | .repeated, [byte] => some (.repeated header.size byte)
        | .stored, content => if content.length = header.size then some (.stored content) else none
        | .coded, content => if content.length = header.size then some .coded else none
        | _, _ => none
      if header.last then return ([block], rest)
      let (blocks, rest) ← blocks? fuel rest
      return (block :: blocks, rest)

/-- The content in blocks of the largest size. -/
def storedBlocks : (fuel : Nat) → Bytes → Bytes
  | 0, _ => []
  | fuel + 1, content =>
      let block := content.take maxBlock
      let rest := content.drop maxBlock
      let last := if rest.isEmpty then 1 else 0
      toLittleEndian 3 (8 * block.length + last) ++ block ++
        if rest.isEmpty then [] else storedBlocks fuel rest

/-- A frame that gives the size of its content in four bytes and stores it as it is. -/
def store (content : Bytes) : Bytes :=
  toLittleEndian 4 mark ++ 0xa0 :: toLittleEndian 4 content.length ++
    storedBlocks (content.length + 1) content

end KnowledgeBase.Frame
