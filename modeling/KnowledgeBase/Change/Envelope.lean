import KnowledgeBase.Bytes.Reader
import KnowledgeBase.Change.Written
import KnowledgeBase.Compression.Decoder

/-!
Encoded changes. An envelope is a mark, a version and the length of the written change, then
the change. A compressed envelope has a mark of its own and the length of the plain envelope
that is compressed in it. Both have to be whole: nothing may be missing and nothing may
follow.
-/

namespace KnowledgeBase

inductive EnvelopeError where
  | invalidMagic (found : Bytes)
  | unsupportedVersion (version : UInt8)
  | bytes (error : ByteError)
  | changeTooLong (length limit : Nat)
  | trailingBytes (count : Nat)
  | invalidUtf8
  | payload (error : ReadError)
  | decompressionFailed
  | sizeMismatch (declared actual : Nat)
deriving DecidableEq

namespace EnvelopeError

def code : EnvelopeError → String
  | .invalidMagic _ | .unsupportedVersion _ => "E001"
  | .trailingBytes _ => "E003"
  | .invalidUtf8 => "E004"
  | _ => "E005"

def message : EnvelopeError → String
  | .invalidMagic found =>
      "[E001] invalid magic bytes: expected WBCH or WBCHZ, found [" ++
        ", ".intercalate (found.map fun byte => toString byte.toNat) ++ "]"
  | .unsupportedVersion version => s!"[E001] unsupported version: {version}"
  | .bytes e => e.message
  | .changeTooLong length limit => s!"[E005] change length {length} exceeds maximum {limit}"
  | .trailingBytes count => s!"[E003] invalid payload: {count} trailing bytes"
  | .invalidUtf8 => "[E004] invalid UTF-8 in payload"
  | .payload e => "[E005] malformed JSON payload: " ++ e.message
  | .decompressionFailed => "[E005] zstd decompression failed"
  | .sizeMismatch declared actual =>
      s!"[E005] decompressed size {actual} doesn't match declared {declared}"

end EnvelopeError

/-- The first bytes of a plain envelope, `WBCH`. -/
def plainMark : Bytes := [87, 66, 67, 72]

/-- The first bytes of a compressed envelope, `WBCHZ`. -/
def compressedMark : Bytes := plainMark ++ [90]

def envelopeVersion : UInt8 := 1

/-- The text of a list of bytes, if they are the encoding of one. -/
def textOfUtf8? (bytes : Bytes) : Option String := String.fromUTF8? ⟨bytes.toArray⟩

namespace Envelope

/-- A reader of fields inside an envelope: it reads bytes and fails as an envelope does. -/
def field {α : Type} (reader : ByteReader α) : StateT Bytes (Except EnvelopeError) α := fun bytes =>
  match reader.run.run bytes with
  | (.ok value, rest) => .ok (value, rest)
  | (.error error, _) => .error (.bytes error)

/-- The written change in a plain envelope. -/
def payload (envelope : Bytes) : Except EnvelopeError Bytes := do
  let (payload, rest) ← (do
    let mark ← field (ByteReader.bytes 4 "magic")
    if mark ≠ plainMark then throw (.invalidMagic mark)
    let version ← field (ByteReader.byte "version")
    if version ≠ envelopeVersion then throw (.unsupportedVersion version)
    field (ByteReader.sized maxChangeBytes "payload") :
      StateT Bytes (Except EnvelopeError) Bytes).run envelope
  if rest.isEmpty then return payload else throw (.trailingBytes rest.length)

def decodePlain (envelope : Bytes) : Except EnvelopeError Change := do
  let some text := textOfUtf8? (← payload envelope) | throw .invalidUtf8
  (Change.ofText text).mapError .payload

/-- The plain envelope in the bytes after the mark of a compressed one. No more is
decompressed than one byte beyond the declared size. -/
def decompressWith (d : Decompressor) (bytes : Bytes) : Except EnvelopeError Bytes := do
  let (declared, frames) ← (field (do
    let declared ← ByteReader.varint "uncompressed_size"
    if maxChangeBytes < declared then
      throw (.lengthExceedsLimit "uncompressed_size" declared maxChangeBytes)
    return declared)).run bytes
  let some content := d.content? declared frames | throw .decompressionFailed
  if content.length = declared then return content
  else throw (.sizeMismatch declared content.length)

/-- The change in an envelope, plain or compressed in a way that is read by `d`. -/
def decodeWith (d : Decompressor) (bytes : Bytes) : Except EnvelopeError Change := do
  if bytes.length < 4 then throw (.bytes (.unexpectedEnd "magic"))
  if bytes.take 5 = compressedMark then
    decodePlain (← decompressWith d (bytes.drop 5))
  else if bytes.take 4 = plainMark then
    if maxChangeBytes < bytes.length then throw (.changeTooLong bytes.length maxChangeBytes)
    decodePlain bytes
  else
    throw (.invalidMagic (bytes.take 4))

def decode : Bytes → Except EnvelopeError Change := decodeWith Frame.decompressor

/-- The plain envelope of a change, whatever its length. -/
def plain (change : Change) : Bytes :=
  plainMark ++ envelopeVersion :: Bytes.sized (Bytes.utf8 change.toJson.render)

/-- The plain envelope of a change, if it is not longer than a reader accepts. -/
def encode (change : Change) : Except EnvelopeError Bytes :=
  let bytes := plain change
  if maxChangeBytes < bytes.length then .error (.changeTooLong bytes.length maxChangeBytes)
  else .ok bytes

/-- A compressed envelope, in one frame that stores the plain one as it is. -/
def encodeCompressed (change : Change) : Except EnvelopeError Bytes := do
  let bytes ← encode change
  return compressedMark ++ Bytes.varint bytes.length ++ Frame.store bytes

end Envelope

end KnowledgeBase
