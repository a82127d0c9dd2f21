import KnowledgeBase.ModelError
import KnowledgeBase.Reference

/-!
Claims and statements. A claim is a main snak with qualifiers; a statement adds a rank and
references. Either may have an identifier, which is not part of its content: the hash of a
claim or statement does not depend on it.
-/

namespace KnowledgeBase

inductive Rank where
  | deprecated
  | normal
  | preferred
deriving DecidableEq, Inhabited

namespace Rank

def number : Rank → Nat
  | .deprecated => 0
  | .normal => 1
  | .preferred => 2

instance : LE Rank := ⟨fun first second => first.number ≤ second.number⟩

instance : DecidableLE Rank := fun first second =>
  inferInstanceAs (Decidable (first.number ≤ second.number))

instance : Max Rank := maxOfLe

def name : Rank → String
  | .deprecated => "deprecated"
  | .normal => "normal"
  | .preferred => "preferred"

def ofName? (name : String) : Option Rank :=
  [Rank.deprecated, .normal, .preferred].find? (·.name == name)

def ofNumber (value : Int) : Except ModelError Rank :=
  if value = 0 then .ok .deprecated
  else if value = 1 then .ok .normal
  else if value = 2 then .ok .preferred
  else .error (.invalidRank value)

end Rank

structure Claim where
  mainSnak : Snak
  qualifiers : SnakList := .empty
  guid? : Option String := none
deriving DecidableEq

namespace Claim

instance : BEq Claim := ⟨fun first second =>
  first.mainSnak == second.mainSnak && first.qualifiers == second.qualifiers &&
    first.guid? == second.guid?⟩

def property (claim : Claim) : PropertyId := claim.mainSnak.property

def allSnaks (claim : Claim) : List Snak := claim.mainSnak :: claim.qualifiers.snaks

def canonicalBytes (claim : Claim) : Bytes :=
  Bytes.text "claim" ++ claim.mainSnak.canonicalBytes ++ claim.qualifiers.canonicalBytes

def hash (claim : Claim) : String := contentHash claim.canonicalBytes

end Claim

structure Statement where
  claim : Claim
  rank : Rank := .normal
  references : ReferenceList := .empty
deriving DecidableEq

namespace Statement

instance : BEq Statement := ⟨fun first second =>
  first.claim == second.claim && first.rank == second.rank &&
    first.references == second.references⟩

def mainSnak (statement : Statement) : Snak := statement.claim.mainSnak

def qualifiers (statement : Statement) : SnakList := statement.claim.qualifiers

def guid? (statement : Statement) : Option String := statement.claim.guid?

def property (statement : Statement) : PropertyId := statement.claim.property

def setMainSnak (statement : Statement) (snak : Snak) : Statement :=
  { statement with claim := { statement.claim with mainSnak := snak } }

def setQualifiers (statement : Statement) (qualifiers : SnakList) : Statement :=
  { statement with claim := { statement.claim with qualifiers } }

def setGuid (statement : Statement) (guid? : Option String) : Statement :=
  { statement with claim := { statement.claim with guid? } }

/-- The snaks of the claim, then those of each reference. -/
def allSnaks (statement : Statement) : List Snak :=
  statement.claim.allSnaks ++ statement.references.references.flatMap (·.snaks.snaks)

def canonicalBytes (statement : Statement) : Bytes :=
  Bytes.text "statement" ++ statement.mainSnak.canonicalBytes ++
    statement.qualifiers.canonicalBytes ++ UInt8.ofNat statement.rank.number ::
    statement.references.canonicalBytes

def hash (statement : Statement) : String := contentHash statement.canonicalBytes

end Statement

end KnowledgeBase
