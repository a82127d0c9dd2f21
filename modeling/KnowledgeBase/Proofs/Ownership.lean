import KnowledgeBase.Proofs.Store.DataType

/-!
Whose statements an entity holds. An identifier that reads as one of another entity is refused
from the time on when the entity has an id; what it holds at that time is not looked at again.
So along every sequence of operations the stray statements of an entity are those that it had
when it got its id, until it is cleared, and none is added later.
-/

namespace KnowledgeBase

/-- Whether the identifier of a statement reads as one of another entity. -/
def Statement.namesOther (statement : Statement) (id : EntityId) : Bool :=
  (statement.guid?.bind Guid.ofText?).any (·.entity != id)

namespace Entity

/-- The statements of an entity that name another one than `id`. -/
def strays (entity : Entity) (id : EntityId) : StatementList :=
  entity.statements.filter (·.namesOther id)

/-- Operations on an entity. It may be saved in any store, and then what the store has under
its id is what is worked on. -/
inductive Operation where
  | setId (id : EntityId)
  | addStatement (statement : Statement)
  | clear
  | save (store : EntityStore)

namespace Operation

/-- The entity after an operation; a refused one leaves it as it was. -/
def run (entity : Entity) : Operation → Entity
  | .setId id => (entity.setId id).toOption.getD entity
  | .addStatement statement => (entity.addStatement statement).toOption.getD entity
  | .clear => entity.clear
  | .save store =>
      match (EntityStore.save entity).run store with
      | .ok revision after => (after.get? revision.entity).getD entity
      | .error _ _ => entity

def clears : Operation → Bool
  | .clear => true
  | _ => false

end Operation

/-- The entity after operations, one after the other. -/
def afterOperations (entity : Entity) (operations : List Operation) : Entity :=
  operations.foldl Operation.run entity

theorem afterOperations_concat (entity : Entity) (operations : List Operation)
    (last : Operation) : entity.afterOperations (operations ++ [last]) =
      last.run (entity.afterOperations operations) := by
  simp [afterOperations]

/-! ## One operation -/

/-- The check of an owner refuses exactly the statements that name another entity. -/
theorem checkOwner_eq (id : EntityId) (statement : Statement) :
    checkOwner (some id) statement =
      if statement.namesOther id then .error (.guidMismatch (statement.guid?.getD "") id)
      else .ok () := by
  unfold checkOwner Statement.namesOther
  cases hguid : statement.guid? with
  | none => rfl
  | some text =>
      cases hread : Guid.ofText? text with
      | none => simp [hread]
      | some guid =>
          by_cases howner : guid.entity = id
          · simp [hread, howner]
          · simp [hread, howner]

theorem addStatement_eq {entity : Entity} {id : EntityId} (h : entity.id? = some id)
    (statement : Statement) : entity.addStatement statement =
      if statement.namesOther id then .error (.guidMismatch (statement.guid?.getD "") id)
      else .ok (entity.setStatements (entity.statements ++ [statement])) := by
  unfold addStatement
  rw [h, checkOwner_eq]
  split <;> rfl

namespace Operation

variable {entity : Entity} {id : EntityId}

theorem run_save_of_id (h : entity.id? = some id) (store : EntityStore) :
    run entity (.save store) = entity := by
  simp only [run, EntityStore.save_of_id store h, EntityStore.get?_append, Option.getD_some]

theorem run_save_statements (entity : Entity) (store : EntityStore) :
    (run entity (.save store)).statements = entity.statements := by
  rcases EntityStore.save_cases store entity with
    ⟨error, after, hrun, -⟩ | ⟨id, named, after, hrun, -, hrenames, -⟩
  · simp only [run, hrun]
  · simp only [run, hrun, EntityStore.get?_append, Option.getD_some]
    exact hrenames.statements

/-- An operation on an entity with an id keeps the id, and the strays unless it clears. -/
theorem run_of_id (h : entity.id? = some id) (operation : Operation) :
    (operation.run entity).id? = some id ∧
      (operation.run entity).strays id = if operation.clears then [] else entity.strays id := by
  cases operation with
  | setId other =>
      have hsame : run entity (.setId other) = entity := by
        cases hset : entity.setId other with
        | error error => simp only [run, hset, Except.toOption, Option.getD_none]
        | ok named =>
            rcases setId_cases hset with ⟨-, rfl⟩ | ⟨hnone, -⟩
            · simp only [run, hset, Except.toOption, Option.getD_some]
            · rw [h] at hnone
              cases hnone
      rw [hsame]
      exact ⟨h, rfl⟩
  | addStatement statement =>
      simp only [run, addStatement_eq h, clears]
      cases hother : statement.namesOther id with
      | true => exact ⟨h, rfl⟩
      | false => simp [Except.toOption, strays, h, hother]
  | clear => simp [run, clears, Entity.clear, strays, h]
  | save store =>
      rw [run_save_of_id h]
      exact ⟨h, rfl⟩

/-- The operation that gives an entity its id does not look at its statements. -/
theorem statements_of_given (hbefore : entity.id? = none) {operation : Operation}
    (hafter : (operation.run entity).id? = some id) :
    (operation.run entity).statements = entity.statements := by
  cases operation with
  | setId other =>
      cases hset : entity.setId other with
      | error error => simp only [run, hset, Except.toOption, Option.getD_none]
      | ok named =>
          simp only [run, hset, Except.toOption, Option.getD_some]
          exact (renames_of_setId hset).2.1.statements
  | addStatement statement =>
      have hnone : (run entity (.addStatement statement)).id? = none := by
        simp only [run]
        cases hadd : entity.addStatement statement with
        | error error => exact hbefore
        | ok after =>
            obtain ⟨_, -, hadd⟩ := bind_eq_ok.mp hadd
            cases hadd
            simpa [Except.toOption] using hbefore
      rw [hnone] at hafter
      cases hafter
  | clear =>
      have hnone : (run entity .clear).id? = none := by simpa [run, Entity.clear] using hbefore
      rw [hnone] at hafter
      cases hafter
  | save store => exact run_save_statements entity store

end Operation

/-! ## A run -/

theorem afterOperations_append (entity : Entity) (first later : List Operation) :
    entity.afterOperations (first ++ later) =
      (entity.afterOperations first).afterOperations later := by
  simp [afterOperations]

/-- No operations take an id away or replace it. -/
theorem id?_afterOperations {entity : Entity} {id : EntityId} (h : entity.id? = some id)
    (operations : List Operation) : (entity.afterOperations operations).id? = some id := by
  induction operations generalizing entity with
  | nil => exact h
  | cons first rest ih => exact ih (Operation.run_of_id h first).1

/-- How an entity came by its id: the operation `given` gave it, and no other one gave any. The
strays are those from before it, unless the entity was cleared since. -/
structure GivenOnce (start : Entity) (operations earlier : List Operation) (given : Operation)
    (later : List Operation) (id : EntityId) : Prop where
  split : operations = earlier ++ given :: later
  before : (start.afterOperations earlier).id? = none
  after : (start.afterOperations (earlier ++ [given])).id? = some id
  only : ∀ earlier' given' later' id', operations = earlier' ++ given' :: later' →
    (start.afterOperations earlier').id? = none →
    (start.afterOperations (earlier' ++ [given'])).id? = some id' →
      earlier' = earlier ∧ given' = given ∧ later' = later
  strays : (start.afterOperations operations).strays id =
    if later.any Operation.clears then [] else (start.afterOperations earlier).strays id

/-- No id was given where an entity has none yet. -/
private theorem length_le_of_given {start : Entity}
    {earlier later earlier' later' : List Operation} {given given' : Operation} {id : EntityId}
    (hsame : earlier ++ given :: later = earlier' ++ given' :: later')
    (hgiven : (start.afterOperations (earlier ++ [given])).id? = some id)
    (hnone : (start.afterOperations earlier').id? = none) : earlier'.length ≤ earlier.length := by
  by_contra hlonger
  have hgivenPrefix : earlier ++ [given] <+: earlier' ++ given' :: later' :=
    ⟨later, by simp [← hsame]⟩
  have hprefix : earlier ++ [given] <+: earlier' := by
    apply List.prefix_of_prefix_length_le hgivenPrefix (List.prefix_append _ _)
    rw [List.length_append, List.length_singleton]
    omega
  obtain ⟨between, rfl⟩ := hprefix
  rw [afterOperations_append, id?_afterOperations hgiven] at hnone
  cases hnone

private theorem exists_giving {start : Entity} (hstart : start.id? = none)
    {operations : List Operation} {id : EntityId}
    (hid : (start.afterOperations operations).id? = some id) :
    ∃ earlier given later, operations = earlier ++ given :: later ∧
      (start.afterOperations earlier).id? = none ∧
      (start.afterOperations (earlier ++ [given])).id? = some id ∧
      (start.afterOperations operations).strays id =
        if later.any Operation.clears then [] else (start.afterOperations earlier).strays id := by
  induction operations using List.reverseRecOn with
  | nil =>
      rw [show start.afterOperations [] = start from rfl, hstart] at hid
      cases hid
  | append_singleton operations last ih =>
      cases hown : (start.afterOperations operations).id? with
      | none =>
          refine ⟨operations, last, [], rfl, hown, hid, ?_⟩
          rw [afterOperations_concat] at hid ⊢
          simp [strays, Operation.statements_of_given hown hid]
      | some own =>
          obtain ⟨hkept, hstrays⟩ := Operation.run_of_id hown last
          rw [← afterOperations_concat] at hkept hstrays
          obtain rfl : id = own := Option.some.inj (hid.symm.trans hkept)
          obtain ⟨earlier, given, later, rfl, hnone, hgiven, hlater⟩ := ih hown
          refine ⟨earlier, given, later ++ [last], by simp, hnone, hgiven, ?_⟩
          rw [hstrays, hlater, List.any_append, List.any_cons, List.any_nil, Bool.or_false]
          cases last.clears <;> simp

/-- When an entity has an id, exactly one operation gave it. -/
theorem exists_given {start : Entity} (hstart : start.id? = none) {operations : List Operation}
    {id : EntityId} (hid : (start.afterOperations operations).id? = some id) :
    ∃ earlier given later, GivenOnce start operations earlier given later id := by
  obtain ⟨earlier, given, later, rfl, hnone, hgiven, hstrays⟩ := exists_giving hstart hid
  refine ⟨earlier, given, later, rfl, hnone, hgiven, ?_, hstrays⟩
  intro earlier' given' later' id' hsame hnone' hgiven'
  have hlength : earlier.length = earlier'.length := Nat.le_antisymm
    (length_le_of_given hsame.symm hgiven' hnone) (length_le_of_given hsame hgiven hnone')
  obtain ⟨rfl, hrest⟩ := List.append_inj hsame hlength
  obtain ⟨rfl, rfl⟩ := List.cons.inj hrest
  exact ⟨rfl, rfl, rfl⟩

/-- The strays of an entity with an id are those that it had when it got the id, until it is
cleared; every further one is refused. -/
theorem strays_precede_id {start : Entity} (hstart : start.id? = none)
    (operations : List Operation) {id : EntityId}
    (hid : (start.afterOperations operations).id? = some id) :
    (∃ earlier given later, GivenOnce start operations earlier given later id) ∧
    ∀ statement, statement.namesOther id = true →
      (start.afterOperations operations).addStatement statement =
        .error (.guidMismatch (statement.guid?.getD "") id) := by
  refine ⟨exists_given hstart hid, ?_⟩
  intro statement hother
  rw [addStatement_eq hid, if_pos hother]

/-- A statement of the second item that the first one has before it gets its id. -/
def strayStatement : Statement := bareStatement (some "Q2$a") .normal

/-- An item that is saved without id keeps the statement of another item; a second one is
refused, and the store gives the item back unchanged. -/
theorem strays_precede_id_of_saved_item :
    let operations : List Operation := [.addStatement strayStatement, .save {},
      .addStatement (bareStatement (some "Q2$b") .normal), .save {}]
    (item {}).id? = none ∧
      ((item {}).afterOperations operations).id? = some (.item .first) ∧
      ∃ earlier given later,
        GivenOnce (item {}) operations earlier given later (.item .first) := by
  intro operations
  have hnone : (item {}).id? = none := rfl
  have hid : ((item {}).afterOperations operations).id? = some (.item .first) := by rfl
  exact ⟨hnone, hid, (strays_precede_id hnone operations hid).1⟩

/-- Neither setting an id nor saving looks at the statements that are there already. -/
theorem stray_statement_of_identified_item :
    let identified := (item {}).afterOperations [.addStatement strayStatement, .setId (.item .first)]
    let saved := (item {}).afterOperations [.addStatement strayStatement, .save {}]
    (identified.id? = some (.item .first) ∧ identified.strays (.item .first) = [strayStatement]) ∧
      saved.id? = some (.item .first) ∧ saved.strays (.item .first) = [strayStatement] :=
  ⟨⟨rfl, rfl⟩, rfl, rfl⟩

end Entity

end KnowledgeBase
