import KnowledgeBase.Edit
import KnowledgeBase.SortedMap

/-!
Differences between keyed collections: for every key at which they differ, whether the
value was added, removed or changed. Applying a difference is lenient: a value that is there
already is not added again, an absent one is not removed, and a change of an absent value
adds it.
-/

namespace KnowledgeBase

inductive DiffOp (α : Type) where
  | add (new : α)
  | remove (old : α)
  | change (old new : α)
deriving DecidableEq, BEq

namespace DiffOp

variable {α : Type}

def name : DiffOp α → String
  | .add _ => "add"
  | .remove _ => "remove"
  | .change _ _ => "change"

def old? : DiffOp α → Option α
  | .add _ => none
  | .remove old => some old
  | .change old _ => some old

def new? : DiffOp α → Option α
  | .add new => some new
  | .remove _ => none
  | .change _ new => some new

def reverse : DiffOp α → DiffOp α
  | .add new => .remove new
  | .remove old => .add old
  | .change old new => .change new old

/-- The operation that takes the value before, if any, to the value after. -/
def between? [BEq α] : Option α → Option α → Option (DiffOp α)
  | none, none => none
  | none, some new => some (.add new)
  | some old, none => some (.remove old)
  | some old, some new => if old == new then none else some (.change old new)

end DiffOp

abbrev MapDiff (α : Type) := SortedMap String (DiffOp α)

/-- A collection that differences can be applied to, one key at a time. -/
structure PatchTarget (σ α : Type) where
  current : σ → String → Option α
  put : σ → String → α → Except ModelError σ
  take : σ → String → σ

/-- Plain maps take every value. -/
def PatchTarget.map (α : Type) : PatchTarget (SortedMap String α) α where
  current := SortedMap.get?
  put map key value := .ok (map.insert key value)
  take := SortedMap.erase

/-- One operation on one key of a target. -/
def DiffOp.apply {σ α : Type} [BEq α] (target : PatchTarget σ α) (key : String)
    (op : DiffOp α) (state : σ) : Except ModelError σ :=
  match op, target.current state key with
  | .add new, some current => if current == new then .ok state else target.put state key new
  | .add new, none => target.put state key new
  | .remove _, some _ => .ok (target.take state key)
  | .remove _, none => .ok state
  | .change _ new, _ => target.put state key new

namespace MapDiff

variable {α : Type}

/-- The difference between two collections. Of several values for one key the last counts. -/
def between [BEq α] (old new : List (String × α)) : MapDiff α :=
  let before := SortedMap.ofList old
  let after := SortedMap.ofList new
  let keys := before.keys ++ after.keys.filter fun key => !before.contains key
  SortedMap.ofList <| keys.filterMap fun key =>
    (DiffOp.between? (before.get? key) (after.get? key)).map fun op => (key, op)

def reverse (diff : MapDiff α) : MapDiff α := diff.mapValues DiffOp.reverse

/-- Applies the operations in key order, up to the first that the target refuses. -/
def apply {σ : Type} [BEq α] (target : PatchTarget σ α) (diff : MapDiff α) : Edit σ Unit :=
  diff.toList.forM fun (key, op) => Edit.ofStep (op.apply target key)

/-- A plain map after the operations, none of which it refuses. -/
def patch [BEq α] (diff : MapDiff α) (map : SortedMap String α) : SortedMap String α :=
  (diff.apply (PatchTarget.map α)).stateAfter map

def additions (diff : MapDiff α) : List (String × α) :=
  diff.toList.filterMap fun
    | (key, .add new) => some (key, new)
    | _ => none

def removals (diff : MapDiff α) : List (String × α) :=
  diff.toList.filterMap fun
    | (key, .remove old) => some (key, old)
    | _ => none

def changes (diff : MapDiff α) : List (String × α × α) :=
  diff.toList.filterMap fun
    | (key, .change old new) => some (key, old, new)
    | _ => none

end MapDiff

end KnowledgeBase
