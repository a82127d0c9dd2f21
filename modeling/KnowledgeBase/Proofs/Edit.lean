import KnowledgeBase.Edit

/-!
How edits run. An edit of a part runs as the edit itself does, with the part put back; a
sequence of edits ends in the state of the last or in that of the one that failed. A property
of the state is kept by a composed edit if the edits it is composed of keep it, and this
includes the states that failures leave.
-/

namespace KnowledgeBase.Edit

variable {σ τ α β ι : Type}

theorem run_get (state : σ) : (get : Edit σ σ).run state = .ok state state := rfl

theorem run_modify (change : σ → σ) (state : σ) :
    (modify change : Edit σ Unit).run state = .ok () (change state) := rfl

theorem run_within_ok {part : σ → τ} {replace : σ → τ → σ} {edit : Edit τ α} {state : σ}
    {value : α} {after : τ} (h : edit.run (part state) = .ok value after) :
    (within part replace edit).run state = .ok value (replace state after) := by
  simp only [within, EStateM.run] at h ⊢
  rw [h]

theorem run_within_error {part : σ → τ} {replace : σ → τ → σ} {edit : Edit τ α} {state : σ}
    {error : ModelError} {after : τ} (h : edit.run (part state) = .error error after) :
    (within part replace edit).run state = .error error (replace state after) := by
  simp only [within, EStateM.run] at h ⊢
  rw [h]

theorem run_bind_ok {first : Edit σ α} {next : α → Edit σ β} {state middle : σ} {value : α}
    (h : first.run state = .ok value middle) :
    (first >>= next).run state = (next value).run middle := by
  rw [EStateM.run_bind, h]

theorem run_bind_error {first : Edit σ α} {next : α → Edit σ β} {state middle : σ}
    {error : ModelError} (h : first.run state = .error error middle) :
    (first >>= next).run state = .error error middle := by
  rw [EStateM.run_bind, h]

/-- A sequence fails with its first edit or, after that has succeeded, later. -/
theorem run_bind_error_cases {first : Edit σ α} {next : α → Edit σ β} {state after : σ}
    {error : ModelError} (h : (first >>= next).run state = .error error after) :
    first.run state = .error error after ∨
      ∃ value middle, first.run state = .ok value middle ∧
        (next value).run middle = .error error after := by
  cases hfirst : first.run state with
  | ok value middle =>
      rw [run_bind_ok hfirst] at h
      exact Or.inr ⟨value, middle, rfl, h⟩
  | error found middle =>
      rw [run_bind_error hfirst] at h
      cases h
      exact Or.inl rfl

/-- A sequence succeeds if its first edit does and then the rest. -/
theorem run_bind_ok_cases {first : Edit σ α} {next : α → Edit σ β} {state after : σ} {outcome : β}
    (h : (first >>= next).run state = .ok outcome after) :
    ∃ value middle, first.run state = .ok value middle ∧
      (next value).run middle = .ok outcome after := by
  cases hfirst : first.run state with
  | ok value middle =>
      rw [run_bind_ok hfirst] at h
      exact ⟨value, middle, rfl, h⟩
  | error error middle =>
      rw [run_bind_error hfirst] at h
      cases h

/-- Of a series of edits that succeeds the last one does, after the others. -/
theorem run_forM_concat_ok_cases {items : List ι} {last : ι} {edit : ι → Edit σ Unit}
    {state after : σ} (h : (forM (items ++ [last]) edit : Edit σ Unit).run state = .ok () after) :
    ∃ middle, (forM items edit : Edit σ Unit).run state = .ok () middle ∧
      (edit last).run middle = .ok () after := by
  rw [List.forM_append] at h
  obtain ⟨_, middle, hbefore, hlast⟩ := run_bind_ok_cases h
  rw [List.forM_cons] at hlast
  obtain ⟨_, reached, hreached, hnil⟩ := run_bind_ok_cases hlast
  cases hnil
  exact ⟨middle, hbefore, hreached⟩

theorem run_within_ok_cases {part : σ → τ} {replace : σ → τ → σ} {edit : Edit τ α}
    {state after : σ} {value : α} (h : (within part replace edit).run state = .ok value after) :
    ∃ reached, edit.run (part state) = .ok value reached ∧ after = replace state reached := by
  cases hedit : edit.run (part state) with
  | ok found reached =>
      rw [run_within_ok hedit] at h
      cases h
      exact ⟨reached, rfl, rfl⟩
  | error error reached =>
      rw [run_within_error hedit] at h
      cases h

theorem run_within_error_cases {part : σ → τ} {replace : σ → τ → σ} {edit : Edit τ α}
    {state after : σ} {error : ModelError}
    (h : (within part replace edit).run state = .error error after) :
    ∃ reached, edit.run (part state) = .error error reached ∧
      after = replace state reached := by
  cases hedit : edit.run (part state) with
  | ok value reached =>
      rw [run_within_ok hedit] at h
      cases h
  | error found reached =>
      rw [run_within_error hedit] at h
      cases h
      exact ⟨reached, rfl, rfl⟩

/-! ## Kept properties -/

/-- Whether an edit keeps a property of the state, also where it fails. -/
def Keeps (property : σ → Prop) (edit : Edit σ α) : Prop :=
  ∀ state, property state → property (edit.stateAfter state)

theorem stateAfter_of_ok {edit : Edit σ α} {state after : σ} {value : α}
    (h : edit.run state = .ok value after) : edit.stateAfter state = after := by
  rw [stateAfter, h]

theorem stateAfter_of_error {edit : Edit σ α} {state after : σ} {error : ModelError}
    (h : edit.run state = .error error after) : edit.stateAfter state = after := by
  rw [stateAfter, h]

theorem result_of_ok {edit : Edit σ α} {state after : σ} {value : α}
    (h : edit.run state = .ok value after) : edit.result state = .ok after := by
  rw [result, h]

theorem stateAfter_of_result {edit : Edit σ α} {state after : σ}
    (h : edit.result state = .ok after) : edit.stateAfter state = after := by
  unfold result at h
  cases hrun : edit.run state with
  | ok value reached =>
      rw [hrun] at h
      cases h
      exact stateAfter_of_ok hrun
  | error error reached =>
      rw [hrun] at h
      cases h

variable {property : σ → Prop}

theorem Keeps.bind {first : Edit σ α} {next : α → Edit σ β} (hfirst : first.Keeps property)
    (hnext : ∀ value, (next value).Keeps property) : (first >>= next).Keeps property := by
  intro state hstate
  have hmiddle := hfirst state hstate
  cases hrun : first.run state with
  | ok value middle =>
      rw [stateAfter_of_ok hrun] at hmiddle
      have hlast := hnext value middle hmiddle
      rwa [stateAfter, run_bind_ok hrun]
  | error error middle =>
      rw [stateAfter_of_error hrun] at hmiddle
      rwa [stateAfter_of_error (run_bind_error hrun)]

theorem keeps_ofStep {step : σ → Except ModelError σ}
    (h : ∀ state after, property state → step state = .ok after → property after) :
    (ofStep step).Keeps property := by
  intro state hstate
  simp only [stateAfter, ofStep, EStateM.run]
  cases hstep : step state with
  | ok after => exact h state after hstate hstep
  | error error => exact hstate

theorem keeps_modify {change : σ → σ} (h : ∀ state, property state → property (change state)) :
    (modify change : Edit σ Unit).Keeps property := by
  intro state hstate
  rw [stateAfter_of_ok (run_modify change state)]
  exact h state hstate

theorem keeps_forM {items : List ι} {edit : ι → Edit σ Unit}
    (h : ∀ item ∈ items, (edit item).Keeps property) :
    (forM items edit : Edit σ Unit).Keeps property := by
  induction items with
  | nil => exact fun state hstate => hstate
  | cons item rest ih =>
      rw [List.forM_cons]
      apply Keeps.bind
      · exact h item (List.mem_cons_self ..)
      · intro _
        exact ih fun later member => h later (List.mem_cons_of_mem _ member)

theorem Keeps.within {partProperty : τ → Prop} {part : σ → τ} {replace : σ → τ → σ}
    {edit : Edit τ α} (h : edit.Keeps partProperty)
    (hpart : ∀ state, property state → partProperty (part state))
    (hreplace : ∀ state after, property state → partProperty after →
      property (replace state after)) :
    (Edit.within part replace edit).Keeps property := by
  intro state hstate
  have hafter := h (part state) (hpart state hstate)
  cases hrun : edit.run (part state) with
  | ok value after =>
      rw [stateAfter_of_ok hrun] at hafter
      rw [stateAfter_of_ok (run_within_ok hrun)]
      exact hreplace state after hstate hafter
  | error error after =>
      rw [stateAfter_of_error hrun] at hafter
      rw [stateAfter_of_error (run_within_error hrun)]
      exact hreplace state after hstate hafter

/-- What no replacement of a part touches is kept by every edit of the part. -/
theorem keeps_within {part : σ → τ} {replace : σ → τ → σ} (edit : Edit τ α)
    (h : ∀ state after, property state → property (replace state after)) :
    (within part replace edit).Keeps property := by
  have hedit : edit.Keeps fun _ => True := fun _ _ => trivial
  refine hedit.within ?_ ?_
  · intro _ _
    trivial
  · intro state after hstate _
    exact h state after hstate

end KnowledgeBase.Edit
