import KnowledgeBase.Proofs.Except
import KnowledgeBase.Schema

/-!
What the validation of an entity covers. It looks at the identifier of every statement and at every
snak, also those of qualifiers and references, and it succeeds exactly if nothing is wrong with any
of them. Otherwise it reports what is wrong with the first one that fails, in the order of the
statements and, in a statement, from the identifier over the main snak and the qualifiers to the
references.
-/

namespace KnowledgeBase

/-- The validator of identifiers, which also asks for the owner when the entity has an id. -/
def Guid.validator (id? : Option EntityId) (text : String) : Except ModelError Guid :=
  match id? with
  | some id => validateFor id text
  | none => validate text

/-- Whether a snak is the main snak of a statement, one of its qualifiers or in a reference. -/
def Statement.Uses (statement : Statement) (snak : Snak) : Prop :=
  snak = statement.mainSnak ∨ snak ∈ statement.qualifiers.snaks ∨
    ∃ reference ∈ statement.references.references, snak ∈ reference.snaks.snaks

/-- Whether a schema has no objection to a snak. -/
structure Schema.Admits (schema : Schema) (snak : Snak) : Prop where
  known : schema.strict = true → ∃ kind, schema.kind? snak.property = some kind
  kind : ∀ value, snak.dataValue? = some value → ∀ kind,
    schema.kind? snak.property = some kind → value.kind = kind
  sound : ∀ value, snak.dataValue? = some value → value.fault? = none

structure Entity.Valid (schema : Schema) (entity : Entity) : Prop where
  guids : ∀ statement ∈ entity.statements, ∀ text, statement.guid? = some text →
    ∃ guid, Guid.validator entity.id? text = .ok guid
  snaks : ∀ statement ∈ entity.statements, ∀ snak, statement.Uses snak → schema.Admits snak

/-! ## Checks -/

/-- One thing to look at. -/
inductive Check where
  | identifier (text : String)
  | content (snak : Snak)

/-- What there is to look at in a statement, in order. -/
def Statement.checks (statement : Statement) : List Check :=
  statement.guid?.toList.map .identifier ++ .content statement.mainSnak ::
    statement.qualifiers.snaks.map .content ++
      statement.references.references.flatMap fun reference => reference.snaks.snaks.map .content

def Entity.checks (entity : Entity) : List Check := entity.statements.flatMap Statement.checks

/-- Whether the kind of a value is the registered one, or none is and need not be. -/
def Schema.Expects (schema : Schema) (property : PropertyId) (kind : ValueKind) : Prop :=
  schema.kind? property = some kind ∨ schema.kind? property = none ∧ schema.strict = false

theorem Schema.known_or_unknown (schema : Schema) (property : PropertyId) :
    (schema.strict = true → ∃ kind, schema.kind? property = some kind) ∨
      schema.strict = true ∧ schema.kind? property = none := by
  cases schema.strict <;> cases schema.kind? property <;> simp

theorem Schema.expects_or (schema : Schema) (property : PropertyId) (kind : ValueKind) :
    schema.Expects property kind ∨ schema.strict = true ∧ schema.kind? property = none ∨
      ∃ expected, schema.kind? property = some expected ∧ expected ≠ kind := by
  unfold Schema.Expects
  cases schema.kind? property with
  | none => cases schema.strict <;> simp
  | some expected => simp [Decidable.em]

/-- A snak with a value needs a value of an expected kind that is free of faults. -/
theorem Schema.admits_iff_of_value {schema : Schema} {snak : Snak} {value : DataValue}
    (hvalue : snak.dataValue? = some value) :
    schema.Admits snak ↔ schema.Expects snak.property value.kind ∧ value.fault? = none := by
  constructor
  · rintro ⟨hknown, hkinds, hsound⟩
    refine ⟨?_, hsound value hvalue⟩
    cases hfound : schema.kind? snak.property with
    | some kind => exact .inl (by rw [hfound, hkinds value hvalue kind hfound])
    | none =>
        refine .inr ⟨hfound, ?_⟩
        rw [← Bool.not_eq_true]
        intro hstrict
        obtain ⟨kind, hkind⟩ := hknown hstrict
        rw [hfound] at hkind
        cases hkind
  · rintro ⟨hexpects, hfault⟩
    rcases hexpects with hkind | ⟨hkind, hstrict⟩
    · constructor
      · exact fun _ => ⟨value.kind, hkind⟩
      · simp [hvalue, hkind]
      · simp [hvalue, hfault]
    · constructor
      · simp [hstrict]
      · simp [hkind]
      · simp [hvalue, hfault]

theorem validateSnak_of_none {schema : Schema} {snak : Snak} (hvalue : snak.dataValue? = none)
    (hknown : schema.strict = true → ∃ kind, schema.kind? snak.property = some kind) :
    validateSnak schema snak = .ok () := by
  cases hstrict : schema.strict with
  | true =>
      obtain ⟨kind, hkind⟩ := hknown hstrict
      simp [validateSnak, hkind, hvalue]
      rfl
  | false =>
      simp [validateSnak, hstrict, hvalue]
      rfl

/-- Of a value of an expected kind only the value itself is looked at. -/
theorem validateSnak_of_expects {schema : Schema} {snak : Snak} {value : DataValue}
    (hvalue : snak.dataValue? = some value) (hkind : schema.Expects snak.property value.kind) :
    validateSnak schema snak = validateValue value := by
  rcases hkind with hkind | ⟨hkind, hstrict⟩
  · simp [validateSnak, hkind, hvalue]
  · simp [validateSnak, hkind, hstrict, hvalue]

namespace Check

variable (schema : Schema) (id? : Option EntityId)

def Passes : Check → Prop
  | .identifier text => ∃ guid, Guid.validator id? text = .ok guid
  | .content snak => schema.Admits snak

/-- What is wrong with a check. A property that is not known comes before the kind of the value, and
the kind before faults of the value itself. -/
inductive Fails : Check → ValidationError → Prop
  | refused {text : String} {error : ModelError} (h : Guid.validator id? text = .error error) :
      Fails (.identifier text) (.invalidStatement text error)
  | unknown {snak : Snak} (hstrict : schema.strict = true)
      (hkind : schema.kind? snak.property = none) :
      Fails (.content snak) (.propertyNotFound snak.property)
  | mistyped {snak : Snak} {value : DataValue} {kind : ValueKind}
      (hvalue : snak.dataValue? = some value) (hkind : schema.kind? snak.property = some kind)
      (hother : kind ≠ value.kind) :
      Fails (.content snak) (.typeMismatch snak.property kind value.kind)
  | faulty {snak : Snak} {value : DataValue} {fault : ValueFault}
      (hvalue : snak.dataValue? = some value) (hkind : schema.Expects snak.property value.kind)
      (hfault : value.fault? = some fault) :
      Fails (.content snak) (.model (.invalidDataValue value.kind fault))

/-- The check as validation makes it. -/
def run : Check → Except ValidationError Unit
  | .identifier text =>
      match Guid.validator id? text with
      | .ok _ => .ok ()
      | .error error => .error (.invalidStatement text error)
  | .content snak => validateSnak schema snak

variable {schema id?} {check : Check} {error : ValidationError}

theorem run_of_fails (h : check.Fails schema id? error) :
    check.run schema id? = .error error := by
  cases h with
  | refused h => rw [run, h]
  | unknown hstrict hkind =>
      simp [run, validateSnak, hstrict, hkind]
      rfl
  | mistyped hvalue hkind hother =>
      simp [run, validateSnak, hvalue, hkind, hother]
      rfl
  | faulty hvalue hkind hfault =>
      rw [run, validateSnak_of_expects hvalue hkind, validateValue, DataValue.check, hfault]
      rfl

theorem run_of_passes (h : check.Passes schema id?) : check.run schema id? = .ok () := by
  cases check with
  | identifier text =>
      obtain ⟨guid, hguid⟩ := h
      rw [run, hguid]
  | content snak =>
      cases hvalue : snak.dataValue? with
      | none => exact validateSnak_of_none hvalue h.known
      | some value =>
          obtain ⟨hkind, hfault⟩ := (Schema.admits_iff_of_value hvalue).mp h
          rw [run, validateSnak_of_expects hvalue hkind, validateValue, DataValue.check,
            hfault]
          rfl

/-- Every check either passes or has something wrong with it. -/
theorem passes_or_fails (schema : Schema) (id? : Option EntityId) (check : Check) :
    check.Passes schema id? ∨ ∃ error, check.Fails schema id? error := by
  cases check with
  | identifier text =>
      cases hguid : Guid.validator id? text with
      | ok guid => exact .inl ⟨guid, hguid⟩
      | error error => exact .inr ⟨_, .refused hguid⟩
  | content snak =>
      cases hvalue : snak.dataValue? with
      | none =>
          rcases schema.known_or_unknown snak.property with hknown | ⟨hstrict, hkind⟩
          · exact .inl ⟨hknown, by simp [hvalue], by simp [hvalue]⟩
          · exact .inr ⟨_, .unknown hstrict hkind⟩
      | some value =>
          rcases schema.expects_or snak.property value.kind with
            hkind | ⟨hstrict, hkind⟩ | ⟨expected, hkind, hother⟩
          · cases hfault : value.fault? with
            | none => exact .inl ((Schema.admits_iff_of_value hvalue).mpr ⟨hkind, hfault⟩)
            | some fault => exact .inr ⟨_, .faulty hvalue hkind hfault⟩
          · exact .inr ⟨_, .unknown hstrict hkind⟩
          · exact .inr ⟨_, .mistyped hvalue hkind hother⟩

theorem run_eq_ok_iff : check.run schema id? = .ok () ↔ check.Passes schema id? := by
  constructor
  · intro h
    rcases passes_or_fails schema id? check with hpasses | ⟨error, hfails⟩
    · exact hpasses
    · rw [run_of_fails hfails] at h
      cases h
  · exact run_of_passes

theorem run_eq_error_iff : check.run schema id? = .error error ↔ check.Fails schema id? error := by
  constructor
  · intro h
    rcases passes_or_fails schema id? check with hpasses | ⟨found, hfails⟩
    · rw [run_of_passes hpasses] at h
      cases h
    · rw [run_of_fails hfails] at h
      cases h
      exact hfails
  · exact run_of_fails

end Check

/-! ## A whole entity -/

section Entity

variable {schema : Schema} {id? : Option EntityId} {entity : Entity}

theorem Statement.checks_eq (statement : Statement) :
    statement.checks =
      statement.guid?.toList.map .identifier ++ statement.allSnaks.map .content := by
  simp [Statement.checks, Statement.allSnaks, Claim.allSnaks, Statement.mainSnak,
    Statement.qualifiers, List.map_flatMap]

theorem validateGuid_eq (schema : Schema) (statement : Statement) :
    validateGuid id? statement =
      (statement.guid?.toList.map .identifier).forM (Check.run schema id?) := by
  unfold validateGuid
  cases statement.guid? with
  | none => rfl
  | some text =>
      -- Both validators are one, and the walk has a single check.
      change (match Guid.validator id? text with
        | .ok _ => pure ()
        | .error error => throw (.invalidStatement text error)) =
          Check.run schema id? (.identifier text) >>= fun _ => pure ()
      rw [Check.run]
      cases Guid.validator id? text <;> rfl

theorem validateStatement_eq (statement : Statement) :
    validateStatement schema id? statement = statement.checks.forM (Check.run schema id?) := by
  rw [validateStatement, validateGuid_eq schema, Statement.checks_eq]
  simp only [List.forM_eq_forM, List.forM_append, List.forM_map, Check.run]

theorem validateEntity_eq :
    validateEntity schema entity = entity.checks.forM (Check.run schema entity.id?) := by
  rw [validateEntity, Entity.checks, forM_flatMap]
  congr 1
  funext statement
  exact validateStatement_eq statement

theorem Statement.identifier_mem_checks {statement : Statement} {text : String} :
    .identifier text ∈ statement.checks ↔ statement.guid? = some text := by
  simp [Statement.checks]

theorem Statement.content_mem_checks {statement : Statement} {snak : Snak} :
    .content snak ∈ statement.checks ↔ statement.Uses snak := by
  simp [Statement.checks, Statement.Uses]

theorem Entity.valid_iff :
    entity.Valid schema ↔ ∀ check ∈ entity.checks, check.Passes schema entity.id? := by
  constructor
  · rintro ⟨hguids, hsnaks⟩ check member
    obtain ⟨statement, hstatement, hcheck⟩ := List.mem_flatMap.mp member
    cases check with
    | identifier text =>
        exact hguids statement hstatement text (Statement.identifier_mem_checks.mp hcheck)
    | content snak =>
        exact hsnaks statement hstatement snak (Statement.content_mem_checks.mp hcheck)
  · intro h
    constructor
    · intro statement hstatement text htext
      have hcheck := Statement.identifier_mem_checks.mpr htext
      exact h _ (List.mem_flatMap.mpr ⟨statement, hstatement, hcheck⟩)
    · intro statement hstatement snak hsnak
      have hcheck := Statement.content_mem_checks.mpr hsnak
      exact h _ (List.mem_flatMap.mpr ⟨statement, hstatement, hcheck⟩)

end Entity

/-- An entity is accepted exactly if all its identifiers and snaks are in order, and otherwise the
error tells what is wrong with the first that is not. -/
theorem validateEntity_covers (schema : Schema) (entity : Entity) :
    (validateEntity schema entity = .ok () ↔ entity.Valid schema) ∧
    ∀ error, validateEntity schema entity = .error error ↔
      ∃ before check after, entity.checks = before ++ check :: after ∧
        (∀ earlier ∈ before, earlier.Passes schema entity.id?) ∧
        check.Fails schema entity.id? error := by
  rw [Entity.valid_iff, validateEntity_eq, forM_eq_ok_iff]
  simp only [forM_eq_error_iff, Check.run_eq_ok_iff, Check.run_eq_error_iff, implies_true,
    and_self]

end KnowledgeBase
