import KnowledgeBase.Diff.Merge

/-!
Why a store or an index of stored entities refuses a request.
-/

namespace KnowledgeBase

inductive StoreError where
  | accessLimitExceeded (limit : Nat)
  | notFound (id : EntityId)
  | revisionMismatch (expected actual : Nat)
  | model (error : ModelError)
  | conflict (conflict : Conflict)
deriving DecidableEq

namespace StoreError

def message : StoreError → String
  | .accessLimitExceeded limit => s!"entity access limit of {limit} exceeded"
  | .notFound id => "entity " ++ id.text ++ " not found"
  | .revisionMismatch expected actual => s!"base revision {expected} is stale, latest is {actual}"
  | .model e => e.message
  | .conflict c => c.message

def ofMergeError : MergeError → StoreError
  | .conflict c => .conflict c
  | .model e => .model e

end StoreError

/-- A failure of the model inside a store. -/
instance : MonadLift (Except ModelError) (Except StoreError) := ⟨Except.mapError .model⟩

end KnowledgeBase
