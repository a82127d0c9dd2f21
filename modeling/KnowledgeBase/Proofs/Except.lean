import Mathlib.Data.List.Basic

/-!
Computations that may fail. A success is a success of each step, and a walk over a list
succeeds if every item is accepted, or ends with the error of the first one that is not.
-/

namespace KnowledgeBase

variable {ε α β ι : Type}

theorem ok_bind (value : α) (next : α → Except ε β) : Except.ok value >>= next = next value := rfl

theorem error_bind (error : ε) (next : α → Except ε β) :
    Except.error error >>= next = .error error := rfl

theorem bind_eq_ok {first : Except ε α} {next : α → Except ε β} {value : β} :
    first >>= next = .ok value ↔ ∃ middle, first = .ok middle ∧ next middle = .ok value := by
  cases first with
  | ok middle =>
      constructor
      · intro h
        exact ⟨middle, rfl, h⟩
      · rintro ⟨_, heq, h⟩
        cases heq
        exact h
  | error error =>
      constructor
      · intro h
        cases h
      · rintro ⟨_, heq, -⟩
        cases heq

theorem eq_ok_of_mapError {ε' : Type} {convert : ε → ε'} {result : Except ε α} {value : α}
    (h : result.mapError convert = .ok value) : result = .ok value := by
  cases result with
  | ok found =>
      cases h
      rfl
  | error error => cases h

/-- A fold that succeeds keeps what each of its steps keeps. -/
theorem foldlM_keeps_of_mem {property : β → Prop} {step : β → ι → Except ε β} {items : List ι}
    (hstep : ∀ state, ∀ item ∈ items, ∀ after, property state → step state item = .ok after →
      property after)
    {initial final : β} (hinitial : property initial)
    (h : items.foldlM step initial = .ok final) : property final := by
  induction items generalizing initial with
  | nil =>
      cases h
      exact hinitial
  | cons item rest ih =>
      rw [List.foldlM_cons, bind_eq_ok] at h
      obtain ⟨middle, hitem, hrest⟩ := h
      refine ih (fun state later member => hstep state later (List.mem_cons_of_mem _ member)) ?_ hrest
      exact hstep initial item (List.mem_cons_self ..) middle hinitial hitem

theorem foldlM_keeps {property : β → Prop} {step : β → ι → Except ε β} {items : List ι}
    (hstep : ∀ state item after, property state → step state item = .ok after →
      property after)
    {initial final : β} (hinitial : property initial)
    (h : items.foldlM step initial = .ok final) : property final :=
  foldlM_keeps_of_mem (fun state item _ => hstep state item) hinitial h

/-- Steps that change one part of a state, one after the other, are steps of that part. -/
theorem foldlM_part {σ τ : Type} (part : σ → τ) (withPart : σ → τ → σ)
    (step : σ → ι → Except ε σ) (partStep : τ → ι → Except ε τ)
    (hself : ∀ state, withPart state (part state) = state)
    (hpart : ∀ state value, part (withPart state value) = value)
    (hwith : ∀ state first second, withPart (withPart state first) second = withPart state second)
    (hstep : ∀ state item, step state item = withPart state <$> partStep (part state) item)
    (items : List ι) (state : σ) :
    items.foldlM step state = withPart state <$> items.foldlM partStep (part state) := by
  induction items generalizing state with
  | nil => rw [List.foldlM_nil, List.foldlM_nil, map_pure, hself]
  | cons item rest ih =>
      rw [List.foldlM_cons, List.foldlM_cons, hstep, bind_map_left, map_bind]
      congr 1
      funext value
      rw [ih, hpart, funext (hwith state value)]

/-- A walk that only checks succeeds if every item is accepted. -/
theorem forM_eq_ok_iff {check : ι → Except ε Unit} {items : List ι} :
    items.forM check = .ok () ↔ ∀ item ∈ items, check item = .ok () := by
  induction items with
  | nil => simp [List.forM, pure, Except.pure]
  | cons first rest ih =>
      rw [List.forM, bind_eq_ok, List.forall_mem_cons, ← ih]
      constructor
      · rintro ⟨_, hfirst, hrest⟩
        exact ⟨hfirst, hrest⟩
      · rintro ⟨hfirst, hrest⟩
        exact ⟨(), hfirst, hrest⟩

/-- A walk that only checks ends with the error of the first item that is refused. -/
theorem forM_eq_error_iff {check : ι → Except ε Unit} {items : List ι} {error : ε} :
    items.forM check = .error error ↔ ∃ before item after, items = before ++ item :: after ∧
      (∀ earlier ∈ before, check earlier = .ok ()) ∧ check item = .error error := by
  induction items with
  | nil => simp [List.forM, pure, Except.pure]
  | cons first rest ih =>
      rw [List.forM]
      constructor
      · intro h
        cases hfirst : check first with
        | error found =>
            rw [hfirst, error_bind] at h
            cases h
            exact ⟨[], first, rest, rfl, List.forall_mem_nil _, hfirst⟩
        | ok _ =>
            rw [hfirst, ok_bind, ih] at h
            obtain ⟨before, item, after, rfl, hbefore, hitem⟩ := h
            exact ⟨first :: before, item, after, rfl,
              List.forall_mem_cons.mpr ⟨hfirst, hbefore⟩, hitem⟩
      · rintro ⟨before, item, after, hitems, hbefore, hitem⟩
        cases before with
        | nil =>
            cases hitems
            rw [hitem, error_bind]
        | cons _ before =>
            cases hitems
            obtain ⟨hfirst, hbefore⟩ := List.forall_mem_cons.mp hbefore
            rw [hfirst, ok_bind, ih]
            exact ⟨before, item, after, rfl, hbefore, hitem⟩

theorem forM_flatMap {check : α → Except ε Unit} {parts : ι → List α} {items : List ι} :
    (items.flatMap parts).forM check = items.forM fun item => (parts item).forM check := by
  simp only [List.forM_eq_forM]
  induction items with
  | nil => rfl
  | cons first rest ih => rw [List.flatMap_cons, List.forM_append, ih, List.forM_cons]

theorem map_eq_ok {convert : α → β} {result : Except ε α} {value : β} :
    convert <$> result = .ok value ↔ ∃ found, result = .ok found ∧ convert found = value := by
  cases result with
  | ok found =>
      constructor
      · intro h
        exact ⟨found, rfl, Except.ok.inj h⟩
      · rintro ⟨_, hfound, rfl⟩
        cases hfound
        rfl
  | error error =>
      constructor
      · intro h
        cases h
      · rintro ⟨_, hfound, -⟩
        cases hfound

/-- Items that are all accepted give the list of their values. -/
theorem mapM_eq_ok {read : ι → Except ε α} {write : α → ι} {values : List α}
    (h : ∀ value ∈ values, read (write value) = .ok value) :
    (values.map write).mapM read = .ok values := by
  induction values with
  | nil => rfl
  | cons first rest ih =>
      have hrest := ih fun value member => h value (List.mem_cons_of_mem _ member)
      rw [List.map_cons, List.mapM_cons, h first (List.mem_cons_self ..), hrest]
      rfl

/-- The first item that is refused decides the error. -/
theorem mapM_eq_error {read : ι → Except ε α} {write : α → ι} {before after : List α}
    {value : α} {error : ε} (hbefore : ∀ earlier ∈ before, read (write earlier) = .ok earlier)
    (hvalue : read (write value) = .error error) :
    ((before ++ value :: after).map write).mapM read = .error error := by
  induction before with
  | nil =>
      rw [List.nil_append, List.map_cons, List.mapM_cons, hvalue]
      rfl
  | cons first rest ih =>
      have hrest := ih fun earlier member => hbefore earlier (List.mem_cons_of_mem _ member)
      rw [List.cons_append, List.map_cons, List.mapM_cons, hbefore first (List.mem_cons_self ..),
        ok_bind, hrest]
      rfl

/-- What holds of the value of each item holds of all members of the list that is read. -/
theorem mapM_keeps {property : α → Prop} {read : ι → Except ε α} {items : List ι}
    {values : List α} (hread : ∀ item ∈ items, ∀ value, read item = .ok value → property value)
    (h : items.mapM read = .ok values) : ∀ value ∈ values, property value := by
  induction items generalizing values with
  | nil =>
      cases h
      simp
  | cons first rest ih =>
      rw [List.mapM_cons] at h
      obtain ⟨head, hhead, h⟩ := bind_eq_ok.mp h
      obtain ⟨tail, htail, h⟩ := bind_eq_ok.mp h
      cases h
      have hfirst := hread first (List.mem_cons_self ..) head hhead
      have hrest := ih (fun item member => hread item (List.mem_cons_of_mem _ member)) htail
      exact List.forall_mem_cons.mpr ⟨hfirst, hrest⟩

end KnowledgeBase
