import KnowledgeBase.Proofs.Store

/-!
No update is lost. What a client stores against a base contains its own changes of the base
and, where it changed nothing, what the latest revision has, whether the base is the latest
revision or an old one. The law is proved for one request on a valid store; that every store
a sequence of requests leads to is valid follows by induction on the sequence, so it does
not matter how the requests of several clients are interleaved.
-/

namespace KnowledgeBase

/-- A well-kept entity in which every statement has an identifier. -/
structure Entity.Storable (entity : Entity) : Prop extends entity.WellKept where
  present : ∀ statement ∈ entity.statements, statement.guid?.isSome

namespace Entity.Storable

variable {entity : Entity}

theorem identified (h : entity.Storable) : entity.statements.Identified :=
  ⟨h.statements, h.present⟩

theorem of_renames {named : Entity} (h : entity.Storable) (hsame : named.Renames entity) :
    named.Storable := by
  refine ⟨h.toWellKept.of_renames hsame, ?_⟩
  rw [hsame.statements]
  exact h.present

end Entity.Storable

/-- Whether a stored entity has the changes that a submitted one makes to its base, and at
every other place what the latest one has. -/
structure NoLostUpdate (base latest submitted stored : Entity) : Prop where
  value : ∀ place : Conflict, place.part ≠ .claims → stored.valueAt place =
    pick (base.valueAt place) (latest.valueAt place) (submitted.valueAt place)
  statement : ∀ guid, (stored.statements.get? guid ==
    pick (base.statements.get? guid) (latest.statements.get? guid)
      (submitted.statements.get? guid)) = true

/-! ## The two ways of saving -/

theorem eq_of_valueAt_beq {first second : Entity} {place : Conflict}
    (hplace : place.part ≠ .claims) (h : (first.valueAt place == second.valueAt place) = true) :
    first.valueAt place = second.valueAt place := by
  obtain ⟨part, key⟩ := place
  cases part with
  | labels | descriptions => exact map_eq_map_of_beq SectionValue.text (fun _ _ => rfl) h
  | aliases => exact map_eq_map_of_beq SectionValue.aliases (fun _ _ => rfl) h
  | claims => exact absurd rfl hplace
  | siteLinks => exact map_eq_map_of_beq SectionValue.link (fun _ _ => rfl) h

/-- On the latest revision an edit is stored as it is. -/
theorem noLostUpdate_of_latest {latest submitted : Entity} (hsubmitted : submitted.Storable) :
    NoLostUpdate latest latest submitted submitted where
  value place hplace := by
    rw [pick]
    split
    next same => exact (eq_of_valueAt_beq hplace same).symm
    next => rfl
  statement guid := by
    rw [pick]
    split
    next same => exact PartialEquivBEq.symm same
    next =>
      rw [hsubmitted.identified.get?_eq]
      exact StatementList.get?_byKey_beq_self hsubmitted.nanFree guid

section Joined

variable {base latest submitted : Entity} {merged : EntityDiff}
  (hjoins : EntityDiff.Joins (.computed base submitted) (.computed base latest) merged)
  (hbase : base.Storable) (hlatest : latest.Storable) (hsubmitted : submitted.Storable)
include hjoins hbase hlatest hsubmitted

theorem storable_patched : (merged.patched base).Storable := by
  have hidentified := StatementList.identified_applyDiff hjoins.claims hbase.identified
    hlatest.identified hsubmitted.identified
  have hsound : (merged.patched base).Sound := by
    have happly := (hjoins.fit hlatest.sound hsubmitted.sound).run_apply
      (show merged.type = base.type from hjoins.type)
    have hkeeps := merged.keeps_sound base hbase.sound
    rwa [Edit.stateAfter_of_ok happly] at hkeeps
  have hnanFree : (merged.patched base).NaNFree := by
    intro statement hmember
    rw [EntityDiff.patched_statements] at hmember
    rcases StatementList.mem_of_mem_applyDiff hjoins.claims hbase.identified
      hlatest.identified hsubmitted.identified hmember with
      hstatement | hstatement | hstatement
    · exact hbase.nanFree statement hstatement
    · exact hlatest.nanFree statement hstatement
    · exact hsubmitted.nanFree statement hstatement
  rw [← EntityDiff.patched_statements] at hidentified
  exact ⟨⟨hsound, hnanFree, hidentified.toWellKeyed⟩, hidentified.present⟩

theorem noLostUpdate_patched (hlatestType : base.type = latest.type)
    (hsubmittedType : base.type = submitted.type) :
    NoLostUpdate base latest submitted (merged.patched base) where
  value place hplace := EntityDiff.valueAt_patched hjoins hlatestType hsubmittedType hplace
  statement guid := by
    rw [EntityDiff.patched_statements, StatementList.get?_applyDiff hjoins.claims
      hbase.identified hlatest.identified hsubmitted.identified, hbase.identified.get?_eq,
      hlatest.identified.get?_eq, hsubmitted.identified.get?_eq]
    exact StatementList.after?_joined hjoins.claims hbase.nanFree hlatest.nanFree
      hsubmitted.nanFree guid

end Joined

/-- On an old revision an edit is stored with what was saved since. -/
theorem noLostUpdate_of_resolveEdits {base latest submitted stored : Entity}
    (hbase : base.Storable) (hlatest : latest.Storable) (hsubmitted : submitted.Storable)
    (hlatestType : base.type = latest.type) (hsubmittedType : base.type = submitted.type)
    (hresolve : resolveEdits base latest submitted = .ok stored) :
    stored.Storable ∧ stored.id? = base.id? ∧ NoLostUpdate base latest submitted stored := by
  rcases EntityDiff.resolveEdits_cases hbase.toWellKept hlatest.sound hsubmitted.sound
    hlatestType hsubmittedType with ⟨merged, hrun, hjoins, -⟩ | ⟨place, herror, -⟩
  · rw [hrun, Except.ok.injEq] at hresolve
    subst hresolve
    exact ⟨storable_patched hjoins hbase hlatest hsubmitted, merged.patched_id? base,
      noLostUpdate_patched hjoins hbase hlatest hsubmitted hlatestType hsubmittedType⟩
  · rw [herror] at hresolve
    cases hresolve

namespace EntityStore

/-! ## Valid stores -/

/-- What holds of every store: revisions are filed under the ids of their entities, their
numbers ascend and are counted, and the entities are storable. -/
structure Valid (store : EntityStore) : Prop where
  filed : ∀ id, ∀ revision ∈ store.revisions id, revision.2.id? = some id
  storable : ∀ id, ∀ revision ∈ store.revisions id, revision.2.Storable
  ascending : ∀ id, (store.revisions id).Pairwise fun first second => first.1 < second.1
  counted : ∀ id, ∀ revision ∈ store.revisions id, revision.1 ≤ store.lastRevision

namespace Valid

variable {store : EntityStore}

theorem empty : ({} : EntityStore).Valid := by
  constructor <;> simp [revisions]

theorem of_sameRevisions {after : EntityStore} (h : store.Valid)
    (hsame : after.SameRevisions store) : after.Valid := by
  have hrevisions (id : EntityId) : after.revisions id = store.revisions id := by
    rw [revisions, hsame.history, revisions]
  constructor
  · intro id
    rw [hrevisions]
    exact h.filed id
  · intro id
    rw [hrevisions]
    exact h.storable id
  · intro id
    rw [hrevisions]
    exact h.ascending id
  · intro id
    rw [hrevisions, hsame.lastRevision]
    exact h.counted id

private theorem mem_revisions_append {id other : EntityId} {entity : Entity}
    {revision : Nat × Entity} (h : revision ∈ (store.append id entity).revisions other) :
    revision ∈ store.revisions other ∨
      other = id ∧ revision = (store.lastRevision + 1, entity) := by
  rw [append_revisions] at h
  by_cases same : other = id
  · rw [if_pos same, List.mem_append, List.mem_singleton] at h
    rcases h with old | new
    · exact Or.inl (same ▸ old)
    · exact Or.inr ⟨same, new⟩
  · rw [if_neg same] at h
    exact Or.inl h

theorem append {id : EntityId} {entity : Entity} (h : store.Valid)
    (hid : entity.id? = some id) (hentity : entity.Storable) :
    (store.append id entity).Valid := by
  constructor
  · intro other revision hrevision
    rcases mem_revisions_append hrevision with old | ⟨rfl, rfl⟩
    · exact h.filed other revision old
    · exact hid
  · intro other revision hrevision
    rcases mem_revisions_append hrevision with old | ⟨rfl, rfl⟩
    · exact h.storable other revision old
    · exact hentity
  · intro other
    rw [append_revisions]
    split
    · rw [List.pairwise_append]
      refine ⟨h.ascending id, List.pairwise_singleton _ _, ?_⟩
      intro old hold new hnew
      rw [List.mem_singleton.mp hnew]
      exact Nat.lt_succ_of_le (h.counted id old hold)
    · exact h.ascending other
  · intro other revision hrevision
    rw [append_lastRevision]
    rcases mem_revisions_append hrevision with old | ⟨rfl, rfl⟩
    · exact (h.counted other revision old).trans (Nat.le_succ _)
    · exact Nat.le_refl _

end Valid

private theorem mem_of_lookup {revisions : List (Nat × Entity)} {number : Nat}
    {entity : Entity} (h : revisions.lookup number = some entity) :
    (number, entity) ∈ revisions := by
  obtain ⟨before, after, rfl, -⟩ := List.lookup_eq_some_iff.mp h
  simp

theorem mem_of_getRevision? {store : EntityStore} {id : EntityId} {number : Nat}
    {entity : Entity} (h : store.getRevision? id number = some entity) :
    (number, entity) ∈ store.revisions id :=
  mem_of_lookup h

/-! ## One request -/

/-- On a valid store a save against a base either fails and changes nothing or stores, as
the next revision, an entity that loses no update. -/
theorem saveWithBase_step {store : EntityStore} (h : store.Valid) {submitted : Entity}
    (hsubmitted : submitted.Storable) (base : Nat) :
    (∃ error, (saveWithBase submitted base).run store = .error error store) ∨
    ∃ id old latest stored, submitted.id? = some id ∧
      store.getRevision? id base = some old ∧ store.get? id = some latest ∧
      (saveWithBase submitted base).run store =
        .ok ⟨store.lastRevision + 1, id⟩ ((store.noteId id).append id stored) ∧
      stored.id? = some id ∧ stored.Storable ∧ NoLostUpdate old latest submitted stored := by
  rcases saveWithBase_cases store submitted base with
    hfailed | ⟨id, stored, hid, hrun,
      ⟨hlatest, rfl⟩ | ⟨old, number, latest, hold, hlatest, hfound, hresolve⟩⟩
  · exact Or.inl hfailed
  · obtain ⟨latest, hget⟩ := exists_get?_of_latestRevision? hlatest
    have hold := (getRevision?_latest (h.ascending id) hlatest).trans hget
    refine Or.inr ⟨id, latest, latest, stored, hid, hold, hget, ?_, hid, hsubmitted,
      noLostUpdate_of_latest hsubmitted⟩
    rw [hrun, save_of_id store hid]
  · have hget := (getRevision?_latest (h.ascending id) hlatest).symm.trans hfound
    have holdMember := mem_of_getRevision? hold
    have hlatestMember := mem_of_getRevision? hfound
    have holdId := h.filed id _ holdMember
    have hlatestId := h.filed id _ hlatestMember
    have hlatestType : old.type = latest.type :=
      (Entity.type_of_id? holdId).trans (Entity.type_of_id? hlatestId).symm
    have hsubmittedType : old.type = submitted.type :=
      (Entity.type_of_id? holdId).trans (Entity.type_of_id? hid).symm
    obtain ⟨hstored, hstoredId, hlaw⟩ := noLostUpdate_of_resolveEdits
      (h.storable id _ holdMember) (h.storable id _ hlatestMember) hsubmitted hlatestType
      hsubmittedType hresolve
    have hstoredId : stored.id? = some id := hstoredId.trans holdId
    refine Or.inr ⟨id, old, latest, stored, hid, hold, hget, ?_, hstoredId, hstored, hlaw⟩
    rw [hrun, save_of_id store hstoredId]

/-! ## Any sequence of requests -/

/-- What clients ask of a store. Reading changes nothing and is not among it: a client may
have read any revision at any time before it submits an edit of it. -/
inductive Request where
  | save (entity : Entity)
  | saveWithBase (entity : Entity) (base : Nat)

def Request.entity : Request → Entity
  | .save entity => entity
  | .saveWithBase entity _ => entity

def Request.action : Request → StoreAction Revision
  | .save entity => EntityStore.save entity
  | .saveWithBase entity base => EntityStore.saveWithBase entity base

/-- The store after a request, whether it succeeded or not. -/
def serve (store : EntityStore) (request : Request) : EntityStore :=
  match request.action.run store with
  | .ok _ after => after
  | .error _ after => after

/-- The store after requests that came in one after the other, from the empty store on. -/
def serveAll (requests : List Request) : EntityStore := requests.foldl serve {}

theorem Valid.serve {store : EntityStore} (h : store.Valid) {request : Request}
    (hrequest : request.entity.Storable) : (store.serve request).Valid := by
  cases request with
  | save entity =>
      rcases save_cases store entity with
        ⟨error, after, hrun, hsame⟩ | ⟨id, named, after, hrun, hid, hrenames, -, hsame⟩
      · rw [EntityStore.serve, Request.action, hrun]
        exact h.of_sameRevisions hsame
      · rw [EntityStore.serve, Request.action, hrun]
        exact (h.of_sameRevisions hsame).append hid (hrequest.of_renames hrenames)
  | saveWithBase entity base =>
      have hentity : entity.Storable := hrequest
      rcases saveWithBase_step h hentity base with
        ⟨error, hrun⟩ | ⟨id, old, latest, stored, -, -, -, hrun, hid, hstored, -⟩
      · rw [EntityStore.serve, Request.action, hrun]
        exact h
      · have hsame : (store.noteId id).SameRevisions store :=
          ⟨noteId_history store id, noteId_lastRevision store id⟩
        rw [EntityStore.serve, Request.action, hrun]
        exact (h.of_sameRevisions hsame).append hid hstored

theorem valid_serveAll {requests : List Request}
    (h : ∀ request ∈ requests, request.entity.Storable) : (serveAll requests).Valid := by
  have hrun {store : EntityStore} (hstore : store.Valid) :
      (requests.foldl serve store).Valid := by
    induction requests generalizing store with
    | nil => exact hstore
    | cons request rest ih =>
        have hrest := fun later member => h later (List.mem_cons_of_mem _ member)
        exact ih hrest (hstore.serve (h request (List.mem_cons_self ..)))
  exact hrun Valid.empty

/-- After any sequence of requests, a save against a base that succeeds stores an entity
that loses no update, on the latest revision as well as on an old one; a save that fails
leaves the store as it was. -/
theorem saveWithBase_loses_no_update {requests : List Request}
    (hrequests : ∀ request ∈ requests, request.entity.Storable) {submitted : Entity}
    (hsubmitted : submitted.Storable) (base : Nat) :
    (∀ revision after,
      (saveWithBase submitted base).run (serveAll requests) = .ok revision after →
      submitted.id? = some revision.entity ∧
        after.latestRevision? revision.entity = some revision.number ∧
        ∃ old latest stored, (serveAll requests).getRevision? revision.entity base = some old ∧
          (serveAll requests).get? revision.entity = some latest ∧
          after.get? revision.entity = some stored ∧
          stored.Storable ∧ NoLostUpdate old latest submitted stored) ∧
    ∀ error after,
      (saveWithBase submitted base).run (serveAll requests) = .error error after →
      after = serveAll requests := by
  have hvalid := valid_serveAll hrequests
  generalize serveAll requests = store at hvalid ⊢
  rcases saveWithBase_step hvalid hsubmitted base with
    ⟨error, hrun⟩ | ⟨id, old, latest, stored, hid, hold, hlatest, hrun, -, hstored, hlaw⟩
  · constructor
    · intro revision after hsaved
      rw [hrun] at hsaved
      cases hsaved
    · intro error after hfailed
      rw [hrun] at hfailed
      cases hfailed
      rfl
  · constructor
    · intro revision after hsaved
      rw [hrun] at hsaved
      cases hsaved
      have hrevisions := append_revisions (store.noteId id) id id stored
      rw [if_pos rfl, noteId_lastRevision] at hrevisions
      refine ⟨hid, ?_, old, latest, stored, hold, hlatest, ?_, hstored, hlaw⟩
      · simp [latestRevision?, hrevisions]
      · simp [get?, hrevisions]
    · intro error after hfailed
      rw [hrun] at hfailed
      cases hfailed

/-- Two clients edit one revision: the first changes the rank of a statement, the second
the label. Both edits are stored. -/
theorem saveWithBase_of_two_clients :
    let item (label : String) (rank : Rank) :=
      labelledItem (some ⟨1, by decide, by decide⟩) label [bareStatement (some "Q1$1") rank]
    let requests := [.save (item "ant" .normal), .saveWithBase (item "ant" .preferred) 1]
    (∀ request ∈ requests, request.entity.Storable) ∧ (item "bee" .normal).Storable ∧
      ∃ revision after old latest stored,
        (saveWithBase (item "bee" .normal) 1).run (serveAll requests) = .ok revision after ∧
          after.get? revision.entity = some stored ∧
          NoLostUpdate old latest (item "bee" .normal) stored := by
  intro item requests
  have hstorable {label : String} (hlabel : label.length ≤ maxTermLength) (rank : Rank) :
      (item label rank).Storable := by
    refine ⟨wellKept_labelledItem hlabel ?_ ⟨?_, ?_⟩, ?_⟩
    · simp [nanFree_bareStatement]
    · simp [StatementList.guids, bareStatement, Statement.guid?]
    · simp [StatementList.guids, bareStatement, Statement.guid?, looksHashed, hashKeyMark]
    · simp [item, labelledItem, Entity.statements, bareStatement, Statement.guid?]
  have hrequests : ∀ request ∈ requests, request.entity.Storable := by
    have hant : "ant".length ≤ maxTermLength := by decide
    simp [requests, Request.entity, hstorable hant]
  have hsubmitted : (item "bee" .normal).Storable := hstorable (by decide) .normal
  obtain ⟨-, -, old, latest, stored, -, -, hget, -, hlaw⟩ :=
    (saveWithBase_loses_no_update hrequests hsubmitted 1).1 _ _ rfl
  exact ⟨hrequests, hsubmitted, _, _, old, latest, stored, rfl, hget, hlaw⟩

end EntityStore

end KnowledgeBase
