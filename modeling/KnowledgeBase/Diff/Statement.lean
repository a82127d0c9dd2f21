import KnowledgeBase.Diff.Map
import KnowledgeBase.StatementList

/-!
Differences between statement lists. A statement is known by its identifier, or by the hash
of its claim if it has none; repeats are numbered. With these keys a list is a keyed
collection, and a difference can be applied to it in place: statements that stay or change
keep their positions, and new ones follow in the order of their repeats.
-/

namespace KnowledgeBase

/-- What the key of a statement without identifier starts with. -/
def hashKeyMark : Char := '~'

namespace Statement

/-- The key of a statement as far as it does not depend on its list. -/
def baseKey (statement : Statement) : String :=
  match statement.guid? with
  | some guid => guid
  | none => hashKeyMark.toString ++ statement.claim.hash

end Statement

/-- The key of the `count`-th statement with one base key. -/
def repeatKey (base : String) (count : Nat) : String :=
  if count = 1 then base else base ++ "#" ++ toString count

/-- The number after a hash sign, as far as it fits a 64-bit word. -/
def repeatNumber? (chars : List Char) : Option Nat :=
  let digits := match chars with
    | '+' :: rest => rest
    | rest => rest
  if digits.isEmpty || !digits.all Char.isDigit then none
  else
    let count := Nat.ofDigitChars 10 digits 0
    if count < UInt64.size then some count else none

/-- The base and the number of a key made from a hash; other keys are a base of their own. -/
def splitRepeat (key : String) : String × Nat :=
  let chars := key.toList
  if chars.head? = some hashKeyMark ∧ '#' ∈ chars then
    let (digits, rest) := chars.reverse.span (· != '#')
    match repeatNumber? digits.reverse with
    | some count => (String.ofList (rest.drop 1).reverse, count)
    | none => (key, 1)
  else
    (key, 1)

namespace StatementList

/-- The keys of a list's statements, given the base keys of the statements before it. -/
def keysAfter (seen : List String) : StatementList → List String
  | [] => []
  | statement :: rest =>
      let base := statement.baseKey
      repeatKey base (seen.count base + 1) :: keysAfter (base :: seen) rest

def keys (list : StatementList) : List String := keysAfter [] list

/-- The statements with their keys. -/
def keyed (list : StatementList) : List (String × Statement) := (keys list).zip list

def diff (old new : StatementList) : MapDiff Statement := MapDiff.between (keyed old) (keyed new)

/-- What an operation makes of the statement that has its key. -/
def patchOne (op : DiffOp Statement) (current : Statement) : Option Statement :=
  match op with
  | .remove _ => none
  | .add new => some (if current == new then current else new)
  | .change _ new => some new

/-- Applies operations to the statements that have their keys. Where a key is repeated, the
last statement with it is meant. -/
def patchPresent (ops : MapDiff Statement) : List (String × Statement) → StatementList
  | [] => []
  | (key, statement) :: rest =>
      match ops.get? key with
      | some op =>
          if rest.any (·.1 == key) then statement :: patchPresent ops rest
          else (patchOne op statement).toList ++ patchPresent ops rest
      | none => statement :: patchPresent ops rest

/-- The new statements of operations whose keys are not among `keys`. -/
def absentNew (ops : MapDiff Statement) (keys : List String) : List (String × Statement) :=
  ops.toList.filterMap fun (key, op) =>
    if keys.contains key then none else op.new?.map fun new => (key, new)

/-- Orders keys by their bases and repeats of one base by their numbers. -/
def repeatOrder (first second : String × Nat) : Bool :=
  first.1 < second.1 || first.1 == second.1 && first.2 ≤ second.2

def applyDiff (ops : MapDiff Statement) (list : StatementList) : StatementList :=
  let appended := (absentNew ops (keys list)).mergeSort fun first second =>
    repeatOrder (splitRepeat first.1) (splitRepeat second.1)
  patchPresent ops (keyed list) ++ appended.map (·.2)

end StatementList

/-- How two versions of a statement differ, part by part. -/
structure StatementDifference where
  mainSnak? : Option (Snak × Snak)
  rank? : Option (Rank × Rank)
  addedQualifiers : List Snak
  removedQualifiers : List Snak
  addedReferences : List Reference
  removedReferences : List Reference

namespace StatementDifference

def between (old new : Statement) : StatementDifference where
  mainSnak? := if old.mainSnak == new.mainSnak then none else some (old.mainSnak, new.mainSnak)
  rank? := if old.rank = new.rank then none else some (old.rank, new.rank)
  addedQualifiers := new.qualifiers.snaks.filter (!old.qualifiers.contains ·)
  removedQualifiers := old.qualifiers.snaks.filter (!new.qualifiers.contains ·)
  addedReferences := new.references.references.filter (!old.references.contains ·.hash)
  removedReferences := old.references.references.filter (!new.references.contains ·.hash)

def isEmpty (difference : StatementDifference) : Bool :=
  difference.mainSnak?.isNone && difference.rank?.isNone &&
    difference.addedQualifiers.isEmpty && difference.removedQualifiers.isEmpty &&
    difference.addedReferences.isEmpty && difference.removedReferences.isEmpty

/-- The differences of the statements that changed, by their keys. -/
def describe (ops : MapDiff Statement) : List (String × StatementDifference) :=
  ops.changes.map fun (key, old, new) => (key, between old new)

end StatementDifference

end KnowledgeBase
