import KnowledgeBase.Proofs.Diff.Identified
import KnowledgeBase.Store
import Mathlib.Data.List.Basic

/-!
The steps of a store. Saving an entity that has an id adds one revision to its history and
changes no other. Saving against a base is such a save, of the entity itself or of its
resolution with what was saved since, or it fails and leaves the store as it was.
-/

namespace KnowledgeBase

/-! ## Ids -/

/-- Whether an entity is another one, up to its id. -/
structure Entity.Renames (named entity : Entity) : Prop where
  fingerprint : named.fingerprint = entity.fingerprint
  statements : named.statements = entity.statements
  siteLinks? : named.siteLinks? = entity.siteLinks?

theorem Entity.WellKept.of_renames {entity named : Entity} (h : entity.WellKept)
    (hsame : named.Renames entity) : named.WellKept := by
  have hlinks : named.siteLinks = entity.siteLinks := by
    rw [Entity.siteLinks, hsame.siteLinks?, Entity.siteLinks]
  refine ⟨⟨?_, ?_, ?_, ?_⟩, ?_, ?_⟩
  · rw [hsame.fingerprint]
    exact h.sound.labels
  · rw [hsame.fingerprint]
    exact h.sound.descriptions
  · rw [hsame.fingerprint]
    exact h.sound.aliases
  · rw [hlinks]
    exact h.sound.siteLinks
  · rw [Entity.NaNFree, hsame.statements]
    exact h.nanFree
  · rw [hsame.statements]
    exact h.statements

theorem Entity.renames_of_setId {entity named : Entity} {id : EntityId}
    (h : entity.setId id = .ok named) :
    named.id? = some id ∧ named.Renames entity ∧ named.dataType? = entity.dataType? := by
  rcases setId_cases h with ⟨hid, rfl⟩ | ⟨-, hid, hterms, hstatements, hlinks, hdataType⟩
  · exact ⟨hid, ⟨rfl, rfl, rfl⟩, rfl⟩
  · exact ⟨hid, ⟨hterms, hstatements, hlinks⟩, hdataType⟩

namespace EntityStore

@[simp] theorem noteId_history (store : EntityStore) (id : EntityId) :
    (store.noteId id).history = store.history := by
  cases id <;> rfl

@[simp] theorem noteId_lastRevision (store : EntityStore) (id : EntityId) :
    (store.noteId id).lastRevision = store.lastRevision := by
  cases id <;> rfl

@[simp] theorem append_lastRevision (store : EntityStore) (id : EntityId) (entity : Entity) :
    (store.append id entity).lastRevision = store.lastRevision + 1 := rfl

/-- A new revision is added to the history of its entity only. -/
theorem append_revisions (store : EntityStore) (id other : EntityId) (entity : Entity) :
    (store.append id entity).revisions other =
      if other = id then store.revisions id ++ [(store.lastRevision + 1, entity)]
      else store.revisions other := by
  unfold revisions append
  simp only
  rw [SortedMap.get?_insert]
  split
  · rfl
  · rfl

/-! ## The latest revision -/

theorem exists_get?_of_latestRevision? {store : EntityStore} {id : EntityId} {number : Nat}
    (h : store.latestRevision? id = some number) : ∃ entity, store.get? id = some entity := by
  obtain ⟨⟨_, entity⟩, hlast, rfl⟩ := Option.map_eq_some_iff.mp h
  exact ⟨entity, by rw [get?, hlast, Option.map_some]⟩

/-- If the numbers of a history ascend, the latest revision is found under its number. -/
theorem getRevision?_latest {store : EntityStore} {id : EntityId} {number : Nat}
    (hascending : (store.revisions id).Pairwise fun first second => first.1 < second.1)
    (hlatest : store.latestRevision? id = some number) :
    store.getRevision? id number = store.get? id := by
  obtain ⟨⟨_, entity⟩, hlast, rfl⟩ := Option.map_eq_some_iff.mp hlatest
  rw [get?, hlast, Option.map_some, getRevision?, List.lookup_eq_some_iff]
  obtain ⟨earlier, hsplit⟩ := List.getLast?_eq_some_iff.mp hlast
  rw [hsplit, List.pairwise_append] at hascending
  refine ⟨earlier, [], hsplit, ?_⟩
  intro revision hrevision
  have hlt := hascending.2.2 revision hrevision _ (List.mem_singleton_self _)
  simpa using (Nat.ne_of_lt hlt).symm

/-! ## Saving -/

theorem save_of_id (store : EntityStore) {entity : Entity} {id : EntityId}
    (h : entity.id? = some id) :
    (save entity).run store =
      .ok ⟨store.lastRevision + 1, id⟩ ((store.noteId id).append id entity) := by
  have hidentify : (identify entity).run store = .ok (id, entity) (store.noteId id) := by
    unfold identify
    rw [h]
    rfl
  unfold save
  rw [EStateM.run_bind, hidentify]
  change EStateM.Result.ok _ _ = EStateM.Result.ok _ _
  simp

/-- Whether stores have the same revisions; what differs are the numbers used for ids. -/
structure SameRevisions (after store : EntityStore) : Prop where
  history : after.history = store.history
  lastRevision : after.lastRevision = store.lastRevision

theorem identify_cases (store : EntityStore) (entity : Entity) :
    (∃ error after, (identify entity).run store = .error error after ∧
      after.SameRevisions store) ∨
    ∃ id named after, (identify entity).run store = .ok (id, named) after ∧
      named.id? = some id ∧ named.Renames entity ∧ named.dataType? = entity.dataType? ∧
      after.SameRevisions store := by
  unfold identify
  cases hid : entity.id? with
  | some id =>
      exact Or.inr ⟨id, entity, store.noteId id, rfl, hid, ⟨rfl, rfl, rfl⟩, rfl,
        ⟨noteId_history store id, noteId_lastRevision store id⟩⟩
  | none =>
      have hnext : ((store.nextNumber entity.type).2).SameRevisions store := by
        cases entity.type <;> exact ⟨rfl, rfl⟩
      have hrun : (modifyGet fun store => store.nextNumber entity.type :
          StoreAction Nat).run store =
            .ok (store.nextNumber entity.type).1 (store.nextNumber entity.type).2 := rfl
      simp only []
      rw [EStateM.run_bind, hrun]
      simp only []
      cases hparts : EntityId.ofParts? entity.type (store.nextNumber entity.type).1 with
      | none => exact Or.inl ⟨_, _, rfl, hnext⟩
      | some id =>
          cases hset : entity.setId id with
          | error error =>
              refine Or.inl ⟨.model error, _, ?_, hnext⟩
              simp only [hset]
              rfl
          | ok named =>
              obtain ⟨hnamed, hrenames, hdataType⟩ := Entity.renames_of_setId hset
              refine Or.inr ⟨id, named, _, ?_, hnamed, hrenames, hdataType, hnext⟩
              simp only [hset]
              rfl

/-- Every way a save can go: it fails and leaves the revisions as they were, or it adds a
revision of the entity under its id. -/
theorem save_cases (store : EntityStore) (entity : Entity) :
    (∃ error after, (save entity).run store = .error error after ∧
      after.SameRevisions store) ∨
    ∃ (id : EntityId) (named : Entity) (after : EntityStore), (save entity).run store =
        .ok ⟨store.lastRevision + 1, id⟩ (after.append id named) ∧
      named.id? = some id ∧ named.Renames entity ∧ named.dataType? = entity.dataType? ∧
      after.SameRevisions store := by
  unfold save
  rw [EStateM.run_bind]
  rcases identify_cases store entity with
    ⟨error, after, hrun, hsame⟩ | ⟨id, named, after, hrun, hid, hrenames, hdataType, hsame⟩
  · rw [hrun]
    exact Or.inl ⟨error, after, rfl, hsame⟩
  · rw [hrun, ← hsame.lastRevision]
    exact Or.inr ⟨id, named, after, rfl, hid, hrenames, hdataType, hsame⟩

/-- Every way a save against a base can go: it fails and changes nothing, or it saves the
submitted entity if the base is the latest revision and else its resolution. -/
theorem saveWithBase_cases (store : EntityStore) (entity : Entity) (base : Nat) :
    (∃ error, (saveWithBase entity base).run store = .error error store) ∨
    ∃ id stored, entity.id? = some id ∧
      (saveWithBase entity base).run store = (save stored).run store ∧
      (store.latestRevision? id = some base ∧ stored = entity ∨
        ∃ old latest current, store.getRevision? id base = some old ∧
          store.latestRevision? id = some latest ∧
          store.getRevision? id latest = some current ∧
          resolveEdits old current entity = .ok stored) := by
  unfold saveWithBase
  cases hid : entity.id? with
  | none => exact Or.inl ⟨_, rfl⟩
  | some id =>
      rw [EStateM.run_bind, EStateM.run_get]
      simp only []
      cases hlatest : store.latestRevision? id with
      | none => exact Or.inl ⟨_, rfl⟩
      | some latest =>
          by_cases hfast : latest = base
          · refine Or.inr ⟨id, entity, rfl, ?_, Or.inl ⟨hlatest.trans (congrArg some hfast), rfl⟩⟩
            simp only [if_pos hfast]
          · simp only [if_neg hfast]
            cases hold : store.getRevision? id base with
            | none => exact Or.inl ⟨_, rfl⟩
            | some old =>
                cases hcurrent : store.getRevision? id latest with
                | none => exact Or.inl ⟨_, rfl⟩
                | some current =>
                    cases hresolve : resolveEdits old current entity with
                    | error error =>
                        refine Or.inl ⟨.ofMergeError error, ?_⟩
                        simp only [hresolve]
                        rfl
                    | ok stored =>
                        refine Or.inr ⟨id, stored, rfl, ?_,
                          Or.inr ⟨old, latest, current, hold, hlatest, hcurrent, hresolve⟩⟩
                        simp only [hresolve]

end EntityStore

end KnowledgeBase
