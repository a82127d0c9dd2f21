import KnowledgeBase.Compression.Decompressor
import KnowledgeBase.Compression.Frame

/-!
Decoding of frames piece by piece. A decoder is given pieces of input and room for output. It
goes on until the room is full and more content waits, the input is used up, or a frame
ends. A frame that is there as a whole and whose content has room is decoded at once;
others go through a buffer, whose bounds then apply to windows and blocks. Faults that lie beyond
the last byte asked for are only met if the decoder gets there while it looks for the next
byte to hand out.
-/

namespace KnowledgeBase.Frame

/-- The largest piece of input: a block and its header. -/
def maxPiece : Nat := maxBlock + 3

/-- What a decoder has to read next. -/
inductive Stage where
  /-- The start of a frame, of which some bytes were read. -/
  | opening (read : Bytes)
  | skipping (left : Nat)
  /-- The header of a block, of which some bytes were read. -/
  | blockHeader (read : Bytes)
  | copying (left : Nat) (last : Bool)
  /-- The byte that a block repeats. -/
  | repeating (count : Nat) (last : Bool)
  | ending
deriving DecidableEq

structure Decoder where
  stage : Stage := .opening []
  header : Header := default
  /-- The number of bytes decoded from the frame. -/
  decoded : Nat := 0
  /-- Room for a block of input. -/
  intake : Nat := 0
  /-- Room for decoded bytes, which fill it from `position` on. -/
  capacity : Nat := 0
  position : Nat := 0
  /-- Decoded bytes that were not handed out. -/
  pending : Bytes := []
  /-- Whether a frame was read to its end. -/
  finished : Bool := false

namespace Decoder

/-- The decoder inside a frame. Its buffers are kept unless one is too small. -/
def enter (decoder : Decoder) (header : Header) (stage : Stage) : Decoder :=
  let intake := max header.blockLimit 4
  let entered := { decoder with stage, header, decoded := 0, position := 0 }
  if decoder.intake < intake ∨ decoder.capacity < header.bufferSize then
    { entered with intake, capacity := header.bufferSize }
  else
    entered

/-- Hands out pending bytes. When none are left, a buffer that does not hold the whole content
is filled from its start again as soon as no block fits behind. -/
def flush (decoder : Decoder) (room : Nat) : Bytes × Decoder :=
  let ready := decoder.pending.take room
  let pending := decoder.pending.drop room
  let position := decoder.position + ready.length
  let wraps := pending.isEmpty && decoder.header.size?.all (decoder.capacity < ·) &&
    decoder.capacity < position + decoder.header.blockLimit
  (ready, { decoder with pending, position := if wraps then 0 else position })

/-- Takes decoded bytes into the buffer, if they fit. -/
def accept (decoder : Decoder) (content : Bytes) : Option Decoder :=
  if decoder.position + content.length ≤ decoder.capacity then
    some { decoder with pending := content, decoded := decoder.decoded + content.length }
  else
    none

/-- An empty block has no content to look at, so the size of a frame is not checked after it. -/
def openBlock (decoder : Decoder) (block : BlockHeader) : Option Decoder :=
  let limit := decoder.header.blockLimit
  match block.kind, block.size with
  | .reserved, _ => none
  | .repeated, size =>
      if limit = 0 then none else some { decoder with stage := .repeating size block.last }
  | _, 0 => some { decoder with stage := if block.last then .ending else .blockHeader [] }
  | .coded, _ => none
  | .stored, size =>
      if limit < size then none else some { decoder with stage := .copying size block.last }

def closeBlock (decoder : Decoder) (last : Bool) : Option Decoder :=
  if !last then some { decoder with stage := .blockHeader [] }
  else if decoder.header.admits decoder.decoded then some { decoder with stage := .ending }
  else none

/-- What comes of reading on. -/
inductive Step where
  /-- All input was taken and more is needed. -/
  | starved (decoder : Decoder)
  | further (decoder : Decoder) (rest : Bytes)
  /-- A frame ended, after content that did not go through the buffer. -/
  | ended (content rest : Bytes)

/-- Starts a frame, of which `rest` follows after the header. `fresh` says whether its start
came in one piece with it. -/
def start (decoder : Decoder) (fresh : Bool) (room : Nat) (header : Header) (rest : Bytes) :
    Option Step :=
  let whole := if fresh && header.size?.any (· ≤ room) then blocks? maxPiece rest else none
  match whole with
  | some (blocks, rest) => do
      let size ← blocks.foldlM (fun total block => (total + ·) <$> block.size?) 0
      if header.admits size then some (.ended (blocks.flatMap Block.content) rest) else none
  | none =>
      if maxWindow < header.window then none
      else some (.further (decoder.enter header (.blockHeader [])) rest)

/-- Reads on when nothing is pending. -/
def step (decoder : Decoder) (room : Nat) (input : Bytes) : Option Step :=
  match decoder.stage with
  | .opening read => do
      match ← opening? (read ++ input) with
      | .cut => return .starved { decoder with stage := .opening (read ++ input) }
      | .skipped size rest =>
          return .further (decoder.enter ⟨some size, 0⟩ (.skipping size)) rest
      | .content header rest => decoder.start read.isEmpty room header rest
  | .skipping left =>
      let taken := (input.take left).length
      if taken = left then some (.ended [] (input.drop left))
      else some (.starved { decoder with stage := .skipping (left - taken) })
  | .blockHeader read =>
      match takeNumber? 3 (read ++ input) with
      | some (number, rest) => do
          return .further (← decoder.openBlock (.ofNat number)) rest
      | none => some (.starved { decoder with stage := .blockHeader (read ++ input) })
  | .copying left last => do
      if input.isEmpty then return .starved decoder
      let content := input.take left
      let decoder ← decoder.accept content
      if content.length = left then
        return .further (← decoder.closeBlock last) (input.drop left)
      else
        return .further { decoder with stage := .copying (left - content.length) last } []
  | .repeating count last =>
      match input with
      | [] => some (.starved decoder)
      | byte :: rest => do
          if decoder.header.blockLimit < count then none
          let decoder ← decoder.accept (List.replicate count byte)
          return .further (← decoder.closeBlock last) rest
  | .ending => some (.ended [] input)

/-- Runs on one piece of input; gives the output, the input that is left and the decoder. The
pieces of output come last first. Two steps take at least one byte. -/
def run (room : Nat) (pieces : List Bytes) :
    (fuel : Nat) → Decoder → Bytes → Option (Bytes × Bytes × Decoder)
  | 0, decoder, input => some (pieces.reverse.flatten, input, decoder)
  | fuel + 1, decoder, input =>
      let (ready, decoder) := decoder.flush room
      let pieces := ready :: pieces
      if decoder.pending.isEmpty then
        match decoder.step (room - ready.length) input with
        | none => none
        | some (.starved decoder) => some (pieces.reverse.flatten, [], decoder)
        | some (.ended content rest) =>
            some ((content :: pieces).reverse.flatten, rest,
              { decoder with stage := .opening [], finished := true })
        | some (.further decoder rest) => run (room - ready.length) pieces fuel decoder rest
      else
        some (pieces.reverse.flatten, input, decoder)

/-- Runs on a piece of input within the bound on pieces. -/
def feed (decoder : Decoder) (room : Nat) (input : Bytes) : Option (Bytes × Bytes × Decoder) :=
  run room [] (2 * maxPiece + 4) decoder input

/-- Whether the input may end here. -/
def isDone (decoder : Decoder) : Bool := decoder.finished && decoder.stage = .opening []

/-- Feeds pieces of input until there is output; none comes at the end of the last frame. -/
def feedAll (room : Nat) :
    (fuel : Nat) → Decoder → List Bytes → Option (Bytes × List Bytes × Decoder)
  | 0, _, _ => none
  | _ + 1, decoder, [] => if decoder.isDone then some ([], [], decoder) else none
  | fuel + 1, decoder, [] :: pieces => feedAll room fuel decoder pieces
  | fuel + 1, decoder, piece :: pieces => do
      let (output, rest, decoder) ← decoder.feed room piece
      if output.isEmpty then feedAll room fuel decoder (rest :: pieces)
      else return (output, rest :: pieces, decoder)

/-- The next output: what is pending, or else what further input gives. -/
def next? (fuel room : Nat) (decoder : Decoder) (pieces : List Bytes) :
    Option (Bytes × List Bytes × Decoder) := do
  let (output, _, decoder) ← decoder.feed room []
  if output.isEmpty then feedAll room fuel decoder pieces else return (output, pieces, decoder)

end Decoder

/-- The input in pieces of the largest size, as a decoder is fed with it. -/
def inputPieces : (fuel : Nat) → Bytes → List Bytes
  | 0, _ => []
  | fuel + 1, bytes =>
      if bytes.isEmpty then []
      else bytes.take maxPiece :: inputPieces fuel (bytes.drop maxPiece)

/-- A decoder and the pieces it was not fed with. -/
structure Feed where
  decoder : Decoder := {}
  pieces : List Bytes
  /-- More than twice as many as there are pieces. -/
  fuel : Nat

/-- The decompressor of frames. -/
def decompressor : Decompressor where
  State := Feed
  start bytes := {
    pieces := inputPieces (bytes.length + 1) bytes
    fuel := 2 * bytes.length + 2 }
  read room feed := do
    let (output, pieces, decoder) ← feed.decoder.next? feed.fuel room feed.pieces
    return (output, { feed with decoder, pieces })

end KnowledgeBase.Frame
