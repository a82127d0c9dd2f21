import KnowledgeBase.Proofs.Diff.Replay
import KnowledgeBase.Proofs.EntityId
import KnowledgeBase.Proofs.Store

/-!
The feed of changes is a faithful log of its store. A request that is answered with a revision
sends one change, and one that fails sends none. What the changes of an entity make of an
entity without content agrees with its latest revision: this holds of the empty feed, one
request keeps it, and so it holds after any sequence of requests. The step needs that an id
given by the store was never used before, hence the invariant of the counters.
-/

namespace KnowledgeBase

/-! ## Fresh ids -/

namespace EntityStore

/-- The highest number that an entity of a type has had. -/
def lastNumber (store : EntityStore) : EntityType → Nat
  | .item => store.lastItem
  | .property => store.lastProperty

@[simp] theorem append_lastNumber (store : EntityStore) (id : EntityId) (entity : Entity)
    (type : EntityType) : (store.append id entity).lastNumber type = store.lastNumber type := by
  cases type <;> rfl

theorem noteId_lastNumber (store : EntityStore) (id : EntityId) (type : EntityType) :
    (store.noteId id).lastNumber type =
      if type = id.type then max (store.lastNumber type) id.number
      else store.lastNumber type := by
  cases id <;> cases type <;> rfl

theorem nextNumber_lastNumber (store : EntityStore) (type other : EntityType) :
    (store.nextNumber type).2.lastNumber other =
      if other = type then store.lastNumber type + 1 else store.lastNumber other := by
  cases type <;> cases other <;> rfl

theorem lastNumber_le_nextNumber (store : EntityStore) (type other : EntityType) :
    store.lastNumber other ≤ (store.nextNumber type).2.lastNumber other := by
  rw [nextNumber_lastNumber]
  split
  next same =>
    rw [same]
    exact Nat.le_succ _
  next => exact Nat.le_refl _

/-- How an entity with the id `given?` gets the id `id`: counters never go back and cover the
id, and an id that was not given is above all earlier ones. -/
structure Counts (store after : EntityStore) (given? : Option EntityId) (id : EntityId) :
    Prop where
  forward : ∀ type, store.lastNumber type ≤ after.lastNumber type
  covers : id.number ≤ after.lastNumber id.type
  given : given? = some id ∨ given? = none ∧ store.lastNumber id.type < id.number

theorem counts_noteId (store : EntityStore) (id : EntityId) :
    Counts store (store.noteId id) (some id) id where
  forward type := by
    rw [noteId_lastNumber]
    split
    · exact Nat.le_max_left _ _
    · exact Nat.le_refl _
  covers := by
    rw [noteId_lastNumber, if_pos rfl]
    exact Nat.le_max_right _ _
  given := Or.inl rfl

theorem counts_nextNumber {store : EntityStore} {type : EntityType} {id : EntityId}
    (h : EntityId.ofParts? type (store.nextNumber type).1 = some id) :
    Counts store (store.nextNumber type).2 none id where
  forward := store.lastNumber_le_nextNumber type
  covers := by
    obtain ⟨rfl, hnumber⟩ := EntityId.ofParts?_eq_some h
    rw [nextNumber_lastNumber, if_pos rfl, hnumber]
    cases id.type <;> exact Nat.le_refl _
  given := by
    obtain ⟨rfl, hnumber⟩ := EntityId.ofParts?_eq_some h
    rw [hnumber]
    refine Or.inr ⟨rfl, ?_⟩
    cases id.type <;> exact Nat.lt_succ_self _

theorem identify_counts (store : EntityStore) (entity : Entity) :
    match (identify entity).run store with
    | .error _ after => ∀ type, store.lastNumber type ≤ after.lastNumber type
    | .ok (id, _) after => Counts store after entity.id? id := by
  unfold identify
  cases hid : entity.id? with
  | some id => exact counts_noteId store id
  | none =>
      have hrun : (modifyGet fun store => store.nextNumber entity.type :
          StoreAction Nat).run store =
            .ok (store.nextNumber entity.type).1 (store.nextNumber entity.type).2 := rfl
      simp only []
      rw [EStateM.run_bind, hrun]
      simp only []
      cases hparts : EntityId.ofParts? entity.type (store.nextNumber entity.type).1 with
      | none => exact store.lastNumber_le_nextNumber entity.type
      | some id =>
          cases hset : entity.setId id with
          | error error =>
              simp only [hset]
              exact store.lastNumber_le_nextNumber entity.type
          | ok named =>
              simp only [hset]
              exact counts_nextNumber hparts

theorem save_counts (store : EntityStore) (entity : Entity) :
    match (save entity).run store with
    | .error _ after => ∀ type, store.lastNumber type ≤ after.lastNumber type
    | .ok revision after => Counts store after entity.id? revision.entity := by
  have hidentify := identify_counts store entity
  unfold save
  rw [EStateM.run_bind]
  cases hrun : (identify entity).run store with
  | error error after =>
      rw [hrun] at hidentify
      exact hidentify
  | ok found after =>
      obtain ⟨id, named⟩ := found
      rw [hrun] at hidentify
      have happended : Counts store (after.append id named) entity.id? id :=
        ⟨fun type => by simpa using hidentify.forward type, by simpa using hidentify.covers,
          hidentify.given⟩
      exact happended

end EntityStore

/-! ## Entities without content -/

/-- Whether an entity has no terms, statements and links. -/
structure Entity.Blank (entity : Entity) : Prop where
  fingerprint : entity.fingerprint = .empty
  statements : entity.statements = []
  siteLinks : entity.siteLinks = .empty

theorem Entity.blank_emptyLike (entity : Entity) : entity.emptyLike.Blank := by
  cases entity <;> exact ⟨rfl, rfl, rfl⟩

@[simp] theorem Entity.type_emptyLike (entity : Entity) : entity.emptyLike.type = entity.type := by
  cases entity <;> rfl

namespace Entity.Blank

variable {first second : Entity}

theorem wellNumbered (h : first.Blank) : first.statements.WellNumbered := by
  rw [h.statements]
  refine ⟨⟨List.nodup_nil, ?_⟩, by decide⟩
  intro guid member
  cases member

/-- Blank entities of one type cannot be told apart by their content. -/
theorem sameContent (hfirst : first.Blank) (hsecond : second.Blank)
    (htype : first.type = second.type) : first.SameContent second where
  type := htype
  fingerprint := hfirst.fingerprint.trans hsecond.fingerprint.symm
  siteLinks? := by
    rw [← Entity.siteLinks?_eq_map htype, hsecond.siteLinks, ← hfirst.siteLinks]
    cases first <;> rfl
  statements := by
    rw [hfirst.statements, hsecond.statements]
    intro key
    rfl

end Entity.Blank

/-- Whether differences make of any blank entity of a type one with the content of the latest
version, or leave it blank if there is none. -/
def EntityDiff.Rebuild (diffs : List EntityDiff) (type : EntityType) (latest? : Option Entity) :
    Prop :=
  ∀ blank : Entity, blank.Blank → blank.type = type →
    ∃ outcome, (replay diffs).run blank = .ok () outcome ∧
      outcome.SameContent (latest?.getD blank) ∧ outcome.statements.WellNumbered

theorem EntityDiff.rebuild_nil (type : EntityType) : Rebuild [] type none :=
  fun blank hblank _ => ⟨blank, rfl, hblank.sameContent hblank rfl, hblank.wellNumbered⟩

/-- The difference to the next version goes at the end. The first one is computed against an
entity that is as blank as the one it is applied to. -/
theorem EntityDiff.Rebuild.concat {diffs : List EntityDiff} {type : EntityType}
    {latest? : Option Entity} (h : Rebuild diffs type latest?)
    (hlatest : ∀ latest, latest? = some latest → latest.type = type) {new : Entity}
    (hnew : new.Regular) (htype : new.type = type) :
    Rebuild (diffs ++ [computed (latest?.getD new.emptyLike) new]) type (some new) := by
  intro blank hblank hblankType
  obtain ⟨middle, hrun, hsame, hnumbered⟩ := h blank hblank hblankType
  have hbefore : middle.SameContent (latest?.getD new.emptyLike) ∧
      (latest?.getD new.emptyLike).type = new.type := by
    cases latest? with
    | none =>
        have hblankSame : blank.SameContent new.emptyLike :=
          hblank.sameContent new.blank_emptyLike
            (hblankType.trans (htype.symm.trans new.type_emptyLike.symm))
        exact ⟨hsame.trans hblankSame, new.type_emptyLike⟩
    | some latest => exact ⟨hsame, (hlatest latest rfl).trans htype.symm⟩
  have happly := (fit_computed (latest?.getD new.emptyLike) hnew.sound).run_apply
    hbefore.1.type.symm
  exact ⟨_, run_replay_concat hrun happly,
    sameContent_patched hnumbered hbefore.1 hnew hbefore.2,
    wellNumbered_patched hnumbered hbefore.1 hnew⟩

/-! ## One request -/

/-- The change to a stored entity. It can always be computed, since an id has entities of its
own type only. -/
theorem Change.between_of_id {old : Option Entity} {new : Entity} {id : EntityId}
    (hnew : new.id? = some id) (hold : ∀ entity, old = some entity → entity.id? = some id)
    (revision : UInt64) (timestamp : Int64) :
    Change.between old (some new) revision timestamp = .ok
      { entity := id
        action := if old.isSome then .update else .add
        revision
        timestamp
        diff := .computed (old.getD new.emptyLike) new } := by
  cases old with
  | none =>
      have hdiff := EntityDiff.between_of_type new.type_emptyLike
      unfold Change.between
      simp only [pure_bind, hdiff, hnew]
      rfl
  | some entity =>
      have htype : entity.type = new.type :=
        (Entity.type_of_id? (hold entity rfl)).trans (Entity.type_of_id? hnew).symm
      have hdiff := EntityDiff.between_of_type htype
      unfold Change.between
      simp only [pure_bind, hdiff, hnew]
      rfl

namespace ChangeFeed

/-- The changes of one entity, oldest first. -/
def changesOf (feed : ChangeFeed) (id : EntityId) : List Change :=
  feed.sent.filter fun change => change.entity == id

/-- Whether the changes that were sent tell what is in the store. -/
structure Kept (feed : ChangeFeed) : Prop where
  filed : ∀ id, ∀ revision ∈ feed.store.revisions id, revision.2.id? = some id
  counted : ∀ id, feed.store.revisions id ≠ [] → id.number ≤ feed.store.lastNumber id.type
  numbered : feed.sent.map (·.revision) =
    (List.range' 1 feed.store.lastRevision).map UInt64.ofNat
  revisions : ∀ id, (feed.changesOf id).map (·.revision) =
    (feed.store.revisions id).map fun revision => UInt64.ofNat revision.1
  rebuild : ∀ id, EntityDiff.Rebuild ((feed.changesOf id).map (·.diff)) id.type
    (feed.store.get? id)

theorem Kept.empty : Kept {} where
  filed id revision member := by cases member
  counted id hstored := absurd rfl hstored
  numbered := rfl
  revisions id := rfl
  rebuild id := EntityDiff.rebuild_nil id.type

/-! The two ways a request can end. -/

theorem run_save_of_error {feed : ChangeFeed} {entity : Entity} {error : StoreError}
    {after : EntityStore} (h : (EntityStore.save entity).run feed.store = .error error after)
    (timestamp : Int64) :
    (save entity timestamp).run feed = .error error { feed with store := after } := by
  have hstore : (onStore (EntityStore.save entity)).run feed =
      .error error { feed with store := after } := by
    rw [EStateM.run, onStore, h]
  unfold save
  rw [EStateM.run_bind, EStateM.run_get]
  simp only []
  rw [EStateM.run_bind, hstore]

theorem run_save_of_ok {feed : ChangeFeed} {entity new : Entity} {revision : Revision}
    {after : EntityStore} (h : (EntityStore.save entity).run feed.store = .ok revision after)
    (hnew : after.get? revision.entity = some new) {timestamp : Int64} {change : Change}
    (hchange : Change.between (entity.id?.bind feed.store.get?) (some new)
      (UInt64.ofNat revision.number) timestamp = .ok change) :
    (save entity timestamp).run feed = .ok revision ⟨after, feed.sent ++ [change]⟩ := by
  have hstore : (onStore (EntityStore.save entity)).run feed =
      .ok revision { feed with store := after } := by
    rw [EStateM.run, onStore, h]
  unfold save
  rw [EStateM.run_bind, EStateM.run_get]
  simp only []
  rw [EStateM.run_bind, hstore]
  simp only []
  rw [EStateM.run_bind, EStateM.run_get]
  simp only [hnew, hchange]
  rfl

theorem changesOf_append (feed : ChangeFeed) (change : Change) (store : EntityStore)
    (id : EntityId) :
    changesOf ⟨store, feed.sent ++ [change]⟩ id =
      feed.changesOf id ++ if change.entity = id then [change] else [] := by
  rw [changesOf, changesOf, List.filter_append]
  by_cases same : change.entity = id
  · simp [same]
  · simp [same]

namespace Kept

variable {feed : ChangeFeed} (h : feed.Kept)
include h

/-- A request that fails may use up numbers but sends nothing. -/
theorem of_sameRevisions {after : EntityStore} (hsame : after.SameRevisions feed.store)
    (hforward : ∀ type, feed.store.lastNumber type ≤ after.lastNumber type) :
    Kept { feed with store := after } := by
  have hrevisions : after.revisions = feed.store.revisions := by
    funext id
    rw [EntityStore.revisions, hsame.history, EntityStore.revisions]
  have hget : after.get? = feed.store.get? := by
    funext id
    rw [EntityStore.get?, hrevisions, EntityStore.get?]
  constructor
  · simpa only [hrevisions] using h.filed
  · intro id hstored
    rw [hrevisions] at hstored
    exact (h.counted id hstored).trans (hforward id.type)
  · simpa only [hsame.lastRevision] using h.numbered
  · intro id
    rw [hrevisions]
    exact h.revisions id
  · intro id
    rw [hget]
    exact h.rebuild id

/-- What was stored before under an id is known from the entity that is saved. -/
theorem previous {after : EntityStore} {given? : Option EntityId} {id : EntityId}
    (hcounts : feed.store.Counts after given? id) :
    given?.bind feed.store.get? = feed.store.get? id := by
  rcases hcounts.given with rfl | ⟨rfl, hfresh⟩
  · rfl
  · have hunused : feed.store.revisions id = [] := by
      by_contra hstored
      exact absurd (h.counted id hstored) (Nat.not_le_of_lt hfresh)
    rw [EntityStore.get?, hunused]
    rfl

theorem id?_of_get? {id : EntityId} {entity : Entity} (hget : feed.store.get? id = some entity) :
    entity.id? = some id := by
  obtain ⟨revision, hlast, rfl⟩ := Option.map_eq_some_iff.mp hget
  exact h.filed id revision (List.mem_of_getLast? hlast)

/-- The next change leads the replay of its entity to the new revision. -/
theorem append {id : EntityId} {named : Entity} {change : Change} (hid : named.id? = some id)
    (hnamed : named.Regular) (hcovers : id.number ≤ feed.store.lastNumber id.type)
    (hentity : change.entity = id)
    (hrevision : change.revision = UInt64.ofNat (feed.store.lastRevision + 1))
    (hdiff : change.diff = .computed ((feed.store.get? id).getD named.emptyLike) named) :
    Kept ⟨feed.store.append id named, feed.sent ++ [change]⟩ := by
  have htype : named.type = id.type := Entity.type_of_id? hid
  constructor
  · intro other revision member
    rw [EntityStore.append_revisions] at member
    split at member
    next same =>
      subst same
      rcases List.mem_append.mp member with old | new
      · exact h.filed _ _ old
      · rw [List.mem_singleton.mp new]
        exact hid
    next => exact h.filed _ _ member
  · intro other hstored
    rw [EntityStore.append_lastNumber]
    by_cases same : other = id
    · rw [same]
      exact hcovers
    · rw [EntityStore.append_revisions, if_neg same] at hstored
      exact h.counted other hstored
  · rw [List.map_append, h.numbered, EntityStore.append_lastRevision, List.range'_1_concat,
      List.map_append, List.map_singleton, List.map_singleton, hrevision, Nat.add_comm 1]
  · intro other
    rw [changesOf_append, EntityStore.append_revisions, hentity, List.map_append, h.revisions]
    by_cases same : other = id
    · rw [if_pos same.symm, if_pos same, same, List.map_append, List.map_singleton,
        List.map_singleton, hrevision]
    · rw [if_neg (Ne.symm same), if_neg same, List.map_nil, List.append_nil]
  · intro other
    rw [changesOf_append, hentity, List.map_append]
    by_cases same : other = id
    · subst same
      have hlatest : (feed.store.append other named).get? other = some named := by
        rw [EntityStore.get?, EntityStore.append_revisions, if_pos rfl]
        simp
      rw [if_pos rfl, List.map_singleton, hdiff, hlatest]
      refine (h.rebuild other).concat ?_ hnamed htype
      intro old hget
      exact Entity.type_of_id? (h.id?_of_get? hget)
    · have hlatest : (feed.store.append id named).get? other = feed.store.get? other := by
        rw [EntityStore.get?, EntityStore.append_revisions, if_neg same, EntityStore.get?]
      rw [if_neg (Ne.symm same), List.map_nil, List.append_nil, hlatest]
      exact h.rebuild other

/-- Every way a request can go: it fails and sends nothing, or it is answered with a revision
and sends the change that made it. -/
theorem save_cases {entity : Entity} (hentity : entity.Regular) (timestamp : Int64) :
    (∃ error after, (save entity timestamp).run feed = .error error ⟨after, feed.sent⟩ ∧
      Kept ⟨after, feed.sent⟩) ∨
    ∃ revision after change,
      (save entity timestamp).run feed = .ok revision ⟨after, feed.sent ++ [change]⟩ ∧
      change.entity = revision.entity ∧ change.revision = UInt64.ofNat revision.number ∧
      Kept ⟨after, feed.sent ++ [change]⟩ := by
  have hcounts := EntityStore.save_counts feed.store entity
  rcases EntityStore.save_cases feed.store entity with
    ⟨error, after, hrun, hsame⟩ | ⟨id, named, after, hrun, hid, hrenames, -, hsame⟩
  · rw [hrun] at hcounts
    exact Or.inl ⟨error, after, run_save_of_error hrun timestamp,
      h.of_sameRevisions hsame hcounts⟩
  · rw [hrun] at hcounts
    have hforward (type : EntityType) : feed.store.lastNumber type ≤ after.lastNumber type := by
      simpa using hcounts.forward type
    have hcovers : id.number ≤ after.lastNumber id.type := by simpa using hcounts.covers
    have hkept := h.of_sameRevisions hsame hforward
    have hprevious : entity.id?.bind feed.store.get? = after.get? id := by
      rw [h.previous hcounts, EntityStore.get?, EntityStore.revisions, ← hsame.history]
      rfl
    have hnamed : named.Regular := by
      refine ⟨hentity.toWellKept.of_renames hrenames, ?_⟩
      rw [hrenames.statements]
      exact hentity.short
    have hstored : (after.append id named).get? id = some named := by
      rw [EntityStore.get?, EntityStore.append_revisions, if_pos rfl]
      simp
    have hchange := Change.between_of_id hid (fun _ => hkept.id?_of_get?)
      (UInt64.ofNat (feed.store.lastRevision + 1)) timestamp
    rw [← hprevious] at hchange
    refine Or.inr ⟨_, _, _, run_save_of_ok hrun hstored hchange, rfl, rfl, ?_⟩
    rw [hprevious]
    exact hkept.append hid hnamed hcovers rfl (by rw [← hsame.lastRevision]) rfl

end Kept

/-! ## Any sequence of requests -/

/-- An entity to be saved, new or not, and the time at which it is. -/
structure Request where
  entity : Entity
  timestamp : Int64

/-- Answers requests that come in one after the other. -/
def answerAll (feed : ChangeFeed) : List Request → List (Except StoreError Revision) × ChangeFeed
  | [] => ([], feed)
  | request :: rest =>
      match (save request.entity request.timestamp).run feed with
      | .ok revision after =>
          let (answers, last) := answerAll after rest
          (.ok revision :: answers, last)
      | .error error after =>
          let (answers, last) := answerAll after rest
          (.error error :: answers, last)

/-- The entity and the number of a revision, as changes have them. -/
def changeKey (revision : Revision) : EntityId × UInt64 :=
  (revision.entity, UInt64.ofNat revision.number)

theorem kept_answerAll {feed : ChangeFeed} (h : feed.Kept) {requests : List Request}
    (hrequests : ∀ request ∈ requests, request.entity.Regular) :
    (answerAll feed requests).2.Kept ∧
      (answerAll feed requests).2.sent.map (fun change => (change.entity, change.revision)) =
        feed.sent.map (fun change => (change.entity, change.revision)) ++
          ((answerAll feed requests).1.filterMap Except.toOption).map changeKey := by
  induction requests generalizing feed with
  | nil => exact ⟨h, by simp [answerAll]⟩
  | cons request rest ih =>
      have hrest := fun later member => hrequests later (List.mem_cons_of_mem _ member)
      rcases h.save_cases (hrequests request (List.mem_cons_self ..)) request.timestamp with
        ⟨error, after, hrun, hkept⟩ | ⟨revision, after, change, hrun, hentity, hrevision, hkept⟩
      · simp only [answerAll, hrun]
        exact ih hkept hrest
      · obtain ⟨hlast, hsent⟩ := ih hkept hrest
        simp only [answerAll, hrun]
        refine ⟨hlast, hsent.trans ?_⟩
        rw [List.map_append, List.append_assoc, List.map_singleton, hentity, hrevision]
        rfl

/-- Whether a feed is a faithful log of what was answered and of what is stored. -/
structure Faithful (answers : List (Except StoreError Revision)) (feed : ChangeFeed) : Prop where
  /-- There is one change for every request that did not fail, and no other. -/
  answered : feed.sent.map (fun change => (change.entity, change.revision)) =
    (answers.filterMap Except.toOption).map changeKey
  numbered : feed.sent.map (·.revision) =
    (List.range' 1 feed.store.lastRevision).map UInt64.ofNat
  increasing : answers.length < UInt64.size → (feed.sent.map (·.revision)).Pairwise (· < ·)
  revisions : ∀ id, (feed.changesOf id).map (·.revision) =
    (feed.store.revisions id).map fun revision => UInt64.ofNat revision.1
  /-- Replayed on a blank entity, the changes of an entity give its latest revision. -/
  replayed : ∀ id latest, feed.store.get? id = some latest →
    ∀ blank : Entity, blank.Blank → blank.type = id.type →
      ∃ outcome,
        (EntityDiff.replay ((feed.changesOf id).map (·.diff))).run blank = .ok () outcome ∧
        outcome.SameContent latest ∧ (StatementList.keys outcome.statements).Nodup

private theorem pairwise_map_ofNat {count : Nat} (h : count < UInt64.size) :
    ((List.range' 1 count).map UInt64.ofNat).Pairwise (· < ·) := by
  rw [List.pairwise_map]
  refine (List.pairwise_lt_range' 1).imp_of_mem ?_
  intro first second hfirst hsecond hlt
  rw [List.mem_range'_1] at hfirst hsecond
  rw [UInt64.lt_iff_toNat_lt, UInt64.toNat_ofNat_of_lt' (by omega),
    UInt64.toNat_ofNat_of_lt' (by omega)]
  exact hlt

/-- Whatever is saved one after the other in an empty store, new entities and entities with
ids that were used or were not, the feed is a faithful log of it. -/
theorem answerAll_faithful {requests : List Request}
    (h : ∀ request ∈ requests, request.entity.Regular) :
    Faithful (answerAll {} requests).1 (answerAll {} requests).2 := by
  obtain ⟨hkept, hsent⟩ := kept_answerAll Kept.empty h
  generalize answerAll {} requests = outcome at hkept hsent ⊢
  obtain ⟨answers, feed⟩ := outcome
  simp only at hkept hsent ⊢
  have hanswered : feed.sent.map (fun change => (change.entity, change.revision)) =
      (answers.filterMap Except.toOption).map changeKey := hsent
  constructor
  · exact hanswered
  · exact hkept.numbered
  · intro hfew
    have hsentLength : feed.sent.length = feed.store.lastRevision := by
      simpa using congrArg List.length hkept.numbered
    have hanswersLength : feed.sent.length ≤ answers.length := by
      have hlength := congrArg List.length hanswered
      simp only [List.length_map] at hlength
      rw [hlength]
      exact List.length_filterMap_le _ _
    rw [hkept.numbered]
    exact pairwise_map_ofNat (by omega)
  · exact hkept.revisions
  · intro id latest hlatest blank hblank htype
    obtain ⟨outcome, hrun, hsame, hnumbered⟩ := hkept.rebuild id blank hblank htype
    rw [hlatest] at hsame
    exact ⟨outcome, hrun, hsame, hnumbered.nodup_keys⟩

/-- A new item is edited under the id it was given. Then an id is used up to the bound, so that
no further item can be saved without id. -/
theorem answerAll_of_items :
    let bare := bareStatement none .normal
    let first : ItemId := ⟨1, by decide, by decide⟩
    let last : ItemId := ⟨maxEntityNumber, by decide, by decide⟩
    let requests : List Request := [⟨labelledItem none "ant" [bare], 10⟩,
      ⟨labelledItem (some first) "bee" [bare, bareStatement none .preferred, bare], 20⟩,
      ⟨labelledItem (some last) "cat" [], 30⟩, ⟨labelledItem none "dog" [], 40⟩]
    (∀ request ∈ requests, request.entity.Regular) ∧
      (answerAll {} requests).1.map Except.toOption =
        [some ⟨1, .item first⟩, some ⟨2, .item first⟩, some ⟨3, .item last⟩, none] ∧
      Faithful (answerAll {} requests).1 (answerAll {} requests).2 := by
  intro bare first last requests
  have hrequests : ∀ request ∈ requests, request.entity.Regular := by
    simp only [requests, List.forall_mem_cons, List.not_mem_nil, false_implies, implies_true,
      and_true]
    exact ⟨regular_labelledItem _ (by decide) (by simp [bare]) (by decide),
      regular_labelledItem _ (by decide) (by simp [bare]) (by decide),
      regular_labelledItem _ (by decide) (by simp) (by decide),
      regular_labelledItem _ (by decide) (by simp) (by decide)⟩
  exact ⟨hrequests, rfl, answerAll_faithful hrequests⟩

end ChangeFeed

end KnowledgeBase
