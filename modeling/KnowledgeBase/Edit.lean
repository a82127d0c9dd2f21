import KnowledgeBase.ModelError

/-!
Edits: computations that change a state and may fail on the way. The state at the moment of
a failure is part of the outcome, because an edit that fails halfway leaves what it has
already done.
-/

namespace KnowledgeBase

abbrev Edit (σ : Type) := EStateM ModelError σ

namespace Edit

variable {σ τ α : Type}

/-- The state after an edit, whether it succeeded or not. -/
def stateAfter (edit : Edit σ α) (state : σ) : σ :=
  match edit.run state with
  | .ok _ after => after
  | .error _ after => after

def error? (edit : Edit σ α) (state : σ) : Option ModelError :=
  match edit.run state with
  | .ok _ _ => none
  | .error error _ => some error

/-- The outcome without the state that a failure leaves. -/
def result (edit : Edit σ α) (state : σ) : Except ModelError σ :=
  match edit.run state with
  | .ok _ after => .ok after
  | .error error _ => .error error

/-- A step that fails as a whole or changes the state as a whole. -/
def ofStep (step : σ → Except ModelError σ) : Edit σ Unit := fun state =>
  match step state with
  | .ok after => .ok () after
  | .error error => .error error state

/-- An edit of a part of the state. -/
def within (part : σ → τ) (replace : σ → τ → σ) (edit : Edit τ α) : Edit σ α := fun state =>
  match edit.run (part state) with
  | .ok value after => .ok value (replace state after)
  | .error error after => .error error (replace state after)

end Edit

end KnowledgeBase
