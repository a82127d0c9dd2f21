import KnowledgeBase.Diff.Entity

/-!
Merging two differences that start from the same entity. Operations on different keys are
joined, and the same operation on one key counts once; different operations on one key are
a conflict. An edit that was made against an old version is resolved by merging it with what
happened since.
-/

namespace KnowledgeBase

structure Conflict where
  part : DiffSection
  key : String
deriving DecidableEq

def Conflict.message (conflict : Conflict) : String :=
  "edit conflict in " ++ conflict.part.name ++ " at " ++ Text.quoted conflict.key

inductive MergeError where
  | conflict (conflict : Conflict)
  | model (error : ModelError)
deriving DecidableEq

def MergeError.message : MergeError → String
  | .conflict c => c.message
  | .model e => e.message

/-- Adds the operations of `theirs` to `ours`, up to the first that contradicts one. -/
def MapDiff.merge {α : Type} [BEq α] (part : DiffSection) (ours theirs : MapDiff α) :
    Except MergeError (MapDiff α) :=
  theirs.toList.foldlM
    (fun merged (key, op) =>
      match ours.get? key with
      | none => .ok (merged.insert key op)
      | some existing =>
          if existing == op then .ok merged else .error (.conflict ⟨part, key⟩))
    ours

namespace EntityDiff

def merge (ours theirs : EntityDiff) : Except MergeError EntityDiff := do
  if ours.type ≠ theirs.type then throw (.model (.entityTypeMismatch ours.type theirs.type))
  return {
    type := ours.type
    labels := ← ours.labels.merge .labels theirs.labels
    descriptions := ← ours.descriptions.merge .descriptions theirs.descriptions
    aliases := ← ours.aliases.merge .aliases theirs.aliases
    claims := ← ours.claims.merge .claims theirs.claims
    siteLinks := ← ours.siteLinks.merge .siteLinks theirs.siteLinks }

end EntityDiff

/-- A failure of the model while two edits are merged. -/
instance : MonadLift (Except ModelError) (Except MergeError) := ⟨Except.mapError .model⟩

/-- The entity `base` with what changed in `current` and what changed in `submitted`. -/
def resolveEdits (base current submitted : Entity) : Except MergeError Entity := do
  let theirs ← EntityDiff.between base current
  let ours ← EntityDiff.between base submitted
  let merged ← ours.merge theirs
  merged.apply.result base

end KnowledgeBase
