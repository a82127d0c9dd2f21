import KnowledgeBase.EntityId.Parsing
import KnowledgeBase.Text.Hex

/-!
Identifiers of statements: the id of the entity that has the statement, a dollar sign and a
token. Reading one splits it at its first dollar sign; the stricter check also asks for a
token in the usual grouping of thirty-two hexadecimal digits.
-/

namespace KnowledgeBase

structure Guid where
  entity : EntityId
  token : String
deriving DecidableEq

namespace Guid

def text (guid : Guid) : String := guid.entity.text ++ "$" ++ guid.token

def ofText? (text : String) : Option Guid :=
  if maxGuidBytes < text.utf8ByteSize then none
  else
    match text.toList.span (· != '$') with
    | (entity, _ :: token) =>
        if token.isEmpty then none
        else (EntityId.ofChars? entity).map (Guid.mk · (String.ofList token))
    | (_, []) => none

def parse (text : String) : Except ModelError Guid :=
  match ofText? text with
  | some guid => .ok guid
  | none => .error (.malformedGuid text)

/-- Where the hyphens of a token stand. -/
def hyphens : List Nat := [8, 13, 18, 23]

def fitsPlace (place : Nat) (c : Char) : Bool :=
  if hyphens.contains place then c == '-' else (Text.hexDigit? c).isSome

def isUuid (chars : List Char) : Bool :=
  chars.length == 36 && chars.zipIdx.all fun (c, place) => fitsPlace place c

def hasUuidToken (guid : Guid) : Bool := isUuid guid.token.toList

def validate (text : String) : Except ModelError Guid := do
  let guid ← parse text
  if guid.hasUuidToken then return guid else throw (.malformedGuid text)

def validateFor (entity : EntityId) (text : String) : Except ModelError Guid := do
  let guid ← validate text
  if guid.entity = entity then return guid else throw (.guidMismatch text entity)

/-- The thirty-two hexadecimal digits of a 128-bit number, in upper case. -/
def tokenDigits (number : Nat) : List Char :=
  (List.range 32).map fun i => (Nat.digitChar (number >>> (4 * (31 - i)) % 16)).toUpper

/-- The token of a 128-bit number. -/
def tokenOf (number : Nat) : String :=
  let groups := [(0, 8), (8, 4), (12, 4), (16, 4), (20, 12)]
  "-".intercalate (groups.map fun (start, count) =>
    String.ofList (((tokenDigits number).drop start).take count))

/-- Gives the entities identifiers with the numbers from `start` on. -/
def sequence (start : Nat) : List EntityId → List Guid
  | [] => []
  | entity :: rest => ⟨entity, tokenOf start⟩ :: sequence (start + 1) rest

/-- An identifier from 128 random bits, of which six make way for the marks of a random
token. -/
def ofRandom (entity : EntityId) (bits : Nat) : Guid :=
  let number :=
    bits &&& 0xffffffffffff0fff3fffffffffffffff ||| 0x00000000000040008000000000000000
  ⟨entity, tokenOf number⟩

end Guid

end KnowledgeBase
