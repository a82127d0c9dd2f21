import KnowledgeBase.ArrayForm.DataValue
import KnowledgeBase.Statement

/-!
The array form of snaks, references, claims and statements. A snak is an array of its kind,
its property and, for a value, the value. A claim is an object whose short names stand for
the main snak, the qualifiers and the identifier; a statement adds its rank and references.
Repeated snaks and references are dropped when a list is read.
-/

namespace KnowledgeBase

open ArrayForm

instance : ArrayForm Snak where
  toArray snak :=
    .array ([.text snak.kind.name, .text snak.property.text] ++
      (snak.dataValue?.map toArray).toList)
  ofArray array := do
    let parts ← array.expectArray "snak"
    let some name := parts[0]? | throw (.missingField "snak type")
    let name ← name.expectText "snak type"
    let some kind := SnakKind.ofName? name | throw (.unknownKind "snak type" name)
    let some property := parts[1]? | throw (.missingField "snak property")
    let property ← PropertyId.parse (← property.expectText "snak property")
    let expected := if kind = .value then 3 else 2
    if expected < parts.length then
      throw (.invalidField "snak" (.surplusElements kind parts.length))
    match kind with
    | .noValue => return .noValue property
    | .someValue => return .someValue property
    | .value =>
        let some value := parts[2]? | throw (.missingField "snak value")
        return .value property (← ofArray value)

instance : ArrayForm SnakList where
  toArray list := .array (list.snaks.map toArray)
  ofArray array := do
    return .ofList (← (← array.expectArray "snaks").mapM ofArray)

instance : ArrayForm Reference where
  toArray reference := toArray reference.snaks
  ofArray array := Reference.mk <$> ofArray array

instance : ArrayForm ReferenceList where
  toArray list := .array (list.references.map toArray)
  ofArray array := do
    return .ofList (← (← array.expectArray "refs").mapM ofArray)

namespace Claim

def members (claim : Claim) (kind : String) : Members :=
  [("type", .text kind), ("m", toArray claim.mainSnak), ("q", toArray claim.qualifiers),
    ("g", .ofOption (claim.guid?.map .text))]

def guidOfArray (value : Json) : Except ArrayError String := do
  let guid ← value.expectText "g"
  if maxGuidBytes < guid.utf8ByteSize then
    throw (.lengthExceedsLimit "g" guid.utf8ByteSize maxGuidBytes)
  return guid

def ofMembers (members : Members) : Except ArrayError Claim := do
  return {
    mainSnak := ← ofArray (← members.field "m")
    qualifiers := ← members.optionalD "q" .empty ofArray
    guid? := ← members.optional "g" guidOfArray }

end Claim

namespace Statement

def members (statement : Statement) : Members :=
  statement.claim.members "statement" ++
    [("rank", .int statement.rank.number), ("refs", toArray statement.references)]

def rankOfArray (value : Json) : Except ArrayError Rank := do
  Rank.ofNumber (← value.expectInteger "rank")

def ofMembers (members : Members) : Except ArrayError Statement := do
  return {
    claim := ← Claim.ofMembers members
    rank := ← members.optionalD "rank" .normal rankOfArray
    references := ← members.optionalD "refs" .empty ofArray }

end Statement

/-- A claim that may be a statement; the array form says which. -/
inductive AnyClaim where
  | claim (claim : Claim)
  | statement (statement : Statement)

namespace AnyClaim

def kind : AnyClaim → String
  | .claim _ => "claim"
  | .statement _ => "statement"

def content : AnyClaim → Claim
  | .claim c => c
  | .statement s => s.claim

def hash : AnyClaim → String
  | .claim c => c.hash
  | .statement s => s.hash

def expectClaim : AnyClaim → Except ArrayError Claim
  | .claim c => .ok c
  | .statement _ => .error (.invalidField "type" .statementForClaim)

/-- A claim as a statement of normal rank without references. -/
def toStatement : AnyClaim → Statement
  | .claim c => { claim := c }
  | .statement s => s

end AnyClaim

instance : ArrayForm AnyClaim where
  toArray
    | .claim c => .ofMembers (c.members "claim")
    | .statement s => .ofMembers s.members
  ofArray array := do
    let members ← array.expectObject "claim"
    let kind ← members.text "type"
    if kind = "claim" then return .claim (← Claim.ofMembers members)
    else if kind = "statement" then return .statement (← Statement.ofMembers members)
    else throw (.unknownKind "claim type" kind)

instance : ArrayForm Claim where
  toArray claim := toArray (AnyClaim.claim claim)
  ofArray array := do
    let claim : AnyClaim ← ofArray array
    claim.expectClaim

instance : ArrayForm Statement where
  toArray statement := toArray (AnyClaim.statement statement)
  ofArray array := AnyClaim.toStatement <$> ofArray array

end KnowledgeBase
