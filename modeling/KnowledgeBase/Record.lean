import KnowledgeBase.ArrayForm.Basic
import KnowledgeBase.EntityId.Parsing
import KnowledgeBase.Record.Error

/-!
Records: values with a fixed set of named fields. A record is written as an object, or as an
array of its fields in order; members with other names are skipped. The fields are read in
the order in which they stand, so the first fault that is met is the one reported, and only
a record without other faults lacks fields.

A record is read from a text, where it is met piece by piece, or from a value that is
already there. The two differ in the nesting they allow and in the errors for choices and
surplus elements.
-/

namespace KnowledgeBase

inductive Source where
  | text
  | value
deriving DecidableEq

/-- The nesting allowed inside a record. -/
def Source.nesting : Source → Draft.Nesting
  | .text => some (maxNesting - 1)
  | .value => none

/-- A field of a record, read from its draft. -/
abbrev FieldReader (α : Type) := Source → Draft → Except ReadError α

namespace FieldReader

def text : FieldReader String := fun _ draft =>
  match draft with
  | .leaf (some (.text value)) => .ok value
  | draft => .error (draft.unexpected "a string")

/-- An integer from `low` to `high`, which the error calls `type`. -/
def integer (type : String) (low high : Int) : FieldReader Int := fun _ draft =>
  match draft with
  | .leaf (some (.int value)) =>
      if low ≤ value ∧ value ≤ high then .ok value
      else .error (.invalidValue (Json.int value).description type)
  | draft => .error (draft.unexpected type)

def unsigned64 : FieldReader UInt64 := fun source draft => do
  return UInt64.ofNat (← integer "u64" 0 (UInt64.size - 1) source draft).toNat

def signed64 : FieldReader Int64 := fun source draft => do
  return Int64.ofInt (← integer "i64" Int64.minValue.toInt Int64.maxValue.toInt source draft)

/-- A text that `parse` turns into a value of the model. -/
def parsed {α : Type} (parse : String → Except ModelError α) : FieldReader α :=
  fun source draft => do
    (parse (← text source draft)).mapError .model

/-- A value in array form. -/
def array {α : Type} [ArrayForm α] : FieldReader α := fun source draft => do
  let some value := draft.toJson? source.nesting | throw .malformed
  (ArrayForm.ofArray value).mapError .array

def variantNamed {α : Type} (variants : List (String × α)) (name : String) : Except ReadError α :=
  match variants.lookup name with
  | some variant => .ok variant
  | none => .error (.unknownVariant name (variants.map (·.1)))

/-- One of several names, or an object whose only member has such a name and no value. -/
def variant {α : Type} (variants : List (String × α)) : FieldReader α := fun source draft =>
  match source, draft with
  | _, .leaf (some (.text name)) => variantNamed variants name
  | .value, .object [(some name, content)] _ => do
      let variant ← variantNamed variants name
      match content with
      | .leaf (some .null) => return variant
      | content => throw (content.unexpected "unit")
  | .value, .object _ _ => .error (.invalidValue "map" "map with a single key")
  | .value, draft => .error (draft.unexpected "string or map")
  | .text, .object ((some name, content) :: others) closed => do
      let variant ← variantNamed variants name
      match content with
      | .leaf (some .null) => if others.isEmpty && closed then return variant else throw .malformed
      | content => throw (content.unexpected "unit")
  | .text, _ => .error .malformed

end FieldReader

/-- How records of a type are put together: `put` takes the field of a name into what has
been read so far, and gives nothing for a name that is no field's. -/
structure RecordShape (σ α : Type) where
  title : String
  fields : List String
  start : σ
  has : σ → String → Bool
  put : Source → σ → String → Draft → Option (Except ReadError σ)
  finish : σ → Except ReadError α

namespace RecordShape

variable {σ α : Type}

def putMember (shape : RecordShape σ α) (source : Source) (read : σ)
    (name? : Option String) (value : Draft) : Except ReadError σ := do
  let some name := name? | throw .malformed
  if shape.has read name then throw (.duplicateField name)
  match shape.put source read name value with
  | some result => result
  | none => if value.sound then return read else throw .malformed

def putElement (shape : RecordShape σ α) (source : Source) (read : σ) (name : String)
    (value : Draft) : Except ReadError σ :=
  (shape.put source read name value).getD (.ok read)

def read (shape : RecordShape σ α) (source : Source) : Draft → Except ReadError α
  | .object members closed => do
      let read ← members.foldlM
        (fun read (name, value) => shape.putMember source read name value) shape.start
      if closed then shape.finish read else throw .malformed
  | .array elements closed => do
      let read ← (shape.fields.zip elements).foldlM
        (fun read (name, value) => shape.putElement source read name value) shape.start
      let expected := shape.fields.length
      if closed && elements.length < expected then
        throw (.invalidLength elements.length (shape.title ++ s!" with {expected} elements"))
      if closed && expected < elements.length && source = .value then
        throw (.invalidLength elements.length "fewer elements in array")
      if closed && elements.length = expected then shape.finish read else throw .malformed
  | draft => .error (draft.unexpected shape.title)

/-- A record as the whole of a text. -/
def ofText (shape : RecordShape σ α) (text : String) : Except ReadError α := do
  let (draft, complete) := Draft.ofText text
  let record ← shape.read .text draft
  if complete then return record else throw .malformed

def ofJson (shape : RecordShape σ α) (value : Json) : Except ReadError α :=
  shape.read .value (Draft.ofJson value)

end RecordShape

/-- A field that a record must have. -/
def requireField {α : Type} (name : String) : Option α → Except ReadError α
  | some value => .ok value
  | none => .error (.missingField name)

/-- A value in array form as the whole of a text. The text is read to the end of the value
before the value is looked at, and what follows the value only counts afterwards. -/
def ArrayForm.ofText {α : Type} [ArrayForm α] (text : String) : Except ReadError α := do
  let (draft, complete) := Draft.ofText text
  let some value := draft.toJson? (some maxNesting) | throw .malformed
  let read ← (ArrayForm.ofArray value).mapError .array
  if complete then return read else throw .malformed

end KnowledgeBase
