import KnowledgeBase.Proofs.Store.ChangeFeed
import KnowledgeBase.Proofs.Store.DataType

/-!
The history of a store. The saves that succeed are numbered from one on, and every number
stands in the history of the entity that was saved, under the id that the entity has. Histories
only grow, at their end, so a revision is found under its number for ever. A request that fails
leaves them as they were.

An id that the store gives is new because the counters cover all ids that were ever stored,
also those that came from outside.
-/

namespace KnowledgeBase

/-- An entity that gets an id keeps its type. -/
theorem Entity.Renames.type {named entity : Entity} (h : named.Renames entity) :
    named.type = entity.type := by
  have hlinks := h.siteLinks?
  cases named <;> cases entity <;> first | rfl | cases hlinks

namespace EntityStore

/-! ## One request -/

/-- The entity that a request puts in a store: the submitted one, under a new id if it had
none, or what it becomes together with what was saved since its base. -/
def Request.Stores (store : EntityStore) : Request → Entity → Prop
  | .save entity, stored =>
      stored.Renames entity ∧ stored.dataType? = entity.dataType? ∧
        (entity.id? = none ∨ stored = entity)
  | .saveWithBase entity base, stored =>
      ∃ id ∈ entity.id?, store.latestRevision? id = some base ∧ stored = entity ∨
        ∃ old current, store.getRevision? id base = some old ∧
          store.get? id = some current ∧ resolveEdits old current entity = .ok stored

/-- Whether all revisions are filed under the ids of their entities. -/
def Filed (store : EntityStore) : Prop :=
  ∀ id, ∀ revision ∈ store.revisions id, revision.2.id? = some id

theorem save_stores (store : EntityStore) (entity : Entity) :
    (∃ error after, (save entity).run store = .error error after ∧
      after.SameRevisions store ∧ ∀ type, store.lastNumber type ≤ after.lastNumber type) ∨
    ∃ id stored reached, (save entity).run store =
        .ok ⟨store.lastRevision + 1, id⟩ (reached.append id stored) ∧
      stored.id? = some id ∧ (Request.save entity).Stores store stored ∧
      reached.SameRevisions store ∧ Counts store reached entity.id? id := by
  cases hid : entity.id? with
  | some id =>
      have hsame : (store.noteId id).SameRevisions store :=
        ⟨noteId_history store id, noteId_lastRevision store id⟩
      exact Or.inr ⟨id, entity, _, save_of_id store hid, hid,
        ⟨⟨rfl, rfl, rfl⟩, rfl, Or.inr rfl⟩, hsame, counts_noteId store id⟩
  | none =>
      have hcounts := save_counts store entity
      rcases save_cases store entity with
        ⟨error, after, hrun, hsame⟩ | ⟨id, named, after, hrun, hnamed, hrenames, hdataType, hsame⟩
      · rw [hrun] at hcounts
        exact Or.inl ⟨error, after, hrun, hsame, hcounts⟩
      · rw [hrun, hid] at hcounts
        refine Or.inr ⟨id, named, after, hrun, hnamed, ⟨hrenames, hdataType, Or.inl hid⟩, hsame, ?_⟩
        exact ⟨fun type => by simpa using hcounts.forward type, by simpa using hcounts.covers,
          hcounts.given⟩

/-- Every way a request can go: it fails and leaves the revisions as they were, or it adds the
next revision to the history of one entity. -/
theorem Filed.action_cases {store : EntityStore} (h : store.Filed)
    (hascending : ∀ id, ((store.revisions id).map (·.1)).Pairwise (· < ·)) (request : Request) :
    (∃ error after, request.action.run store = .error error after ∧
      after.SameRevisions store ∧ ∀ type, store.lastNumber type ≤ after.lastNumber type) ∨
    ∃ id stored reached, request.action.run store =
        .ok ⟨store.lastRevision + 1, id⟩ (reached.append id stored) ∧
      stored.id? = some id ∧ request.Stores store stored ∧
      reached.SameRevisions store ∧ Counts store reached request.entity.id? id := by
  cases request with
  | save entity => exact save_stores store entity
  | saveWithBase entity base =>
      rcases saveWithBase_cases store entity base with
        ⟨error, hrun⟩ | ⟨id, stored, hid, hrun, hcase⟩
      · exact Or.inl ⟨error, store, hrun, ⟨rfl, rfl⟩, fun _ => Nat.le_refl _⟩
      · obtain ⟨hstored, hstores⟩ : stored.id? = some id ∧
            (Request.saveWithBase entity base).Stores store stored := by
          rcases hcase with ⟨hlatest, rfl⟩ | ⟨old, latest, current, hold, hlatest, hfound, hresolve⟩
          · exact ⟨hid, id, hid, .inl ⟨hlatest, rfl⟩⟩
          · have hcurrent := getRevision?_latest (List.pairwise_map.mp (hascending id)) hlatest
            refine ⟨?_, id, hid, .inr ⟨old, current, hold, hcurrent.symm.trans hfound, hresolve⟩⟩
            rw [id?_of_resolveEdits hresolve]
            exact h id _ (mem_of_getRevision? hold)
        have hsame : (store.noteId id).SameRevisions store :=
          ⟨noteId_history store id, noteId_lastRevision store id⟩
        refine Or.inr ⟨id, stored, store.noteId id, hrun.trans (save_of_id store hstored), hstored,
          hstores, hsame, ?_⟩
        change Counts store _ entity.id? id
        rw [hid]
        exact counts_noteId store id

/-! ## The revisions after a request -/

/-- Whether every history of a store is the start of the one in a later store. -/
def Grows (store after : EntityStore) : Prop :=
  ∀ id, store.revisions id <+: after.revisions id

theorem Grows.trans {first second third : EntityStore} (h : first.Grows second)
    (h' : second.Grows third) : first.Grows third :=
  fun id => (h id).trans (h' id)

theorem SameRevisions.revisions {after store : EntityStore} (h : after.SameRevisions store)
    (id : EntityId) : after.revisions id = store.revisions id := by
  rw [EntityStore.revisions, h.history, EntityStore.revisions]

/-- What is found under a number stays there. -/
theorem Grows.getRevision? {store after : EntityStore} (h : store.Grows after) {id : EntityId}
    {number : Nat} {entity : Entity} (hfound : store.getRevision? id number = some entity) :
    after.getRevision? id number = some entity := by
  obtain ⟨later, hlater⟩ := h id
  rw [EntityStore.getRevision?, ← hlater, List.lookup_append]
  exact Option.or_eq_some_iff.mpr (Or.inl hfound)

/-- The outcome of a request, without the store. -/
def answer (store : EntityStore) (request : Request) : Except StoreError Revision :=
  match request.action.run store with
  | .ok revision _ => .ok revision
  | .error error _ => .error error

/-- The outcomes of requests that come in one after the other. -/
def answers (store : EntityStore) : List Request → List (Except StoreError Revision)
  | [] => []
  | request :: rest => store.answer request :: (store.serve request).answers rest

/-- What holds of every store that has answered saves with the given revisions. -/
structure Recorded (saved : List Revision) (store : EntityStore) : Prop where
  filed : store.Filed
  counted : ∀ id, store.revisions id ≠ [] → id.number ≤ store.lastNumber id.type
  numbered : saved.map (·.number) = List.range' 1 store.lastRevision
  histories : ∀ id, (store.revisions id).map (·.1) =
    (saved.filter (·.entity = id)).map (·.number)

namespace Recorded

variable {saved : List Revision} {store : EntityStore}

theorem empty : Recorded [] {} where
  filed id revision member := by cases member
  counted id hstored := absurd rfl hstored
  numbered := rfl
  histories id := rfl

theorem of_sameRevisions {after : EntityStore} (h : Recorded saved store)
    (hsame : after.SameRevisions store)
    (hforward : ∀ type, store.lastNumber type ≤ after.lastNumber type) : Recorded saved after where
  filed id := by
    rw [hsame.revisions]
    exact h.filed id
  counted id hstored := by
    rw [hsame.revisions] at hstored
    exact (h.counted id hstored).trans (hforward id.type)
  numbered := by
    rw [hsame.lastRevision]
    exact h.numbered
  histories id := by
    rw [hsame.revisions]
    exact h.histories id

theorem append {id : EntityId} {stored : Entity} (h : Recorded saved store)
    (hid : stored.id? = some id) (hcovers : id.number ≤ store.lastNumber id.type) :
    Recorded (saved ++ [⟨store.lastRevision + 1, id⟩]) (store.append id stored) where
  filed other revision member := by
    rw [append_revisions] at member
    split at member
    next same =>
      rcases List.mem_append.mp member with old | new
      · exact same ▸ h.filed id revision old
      · rw [List.mem_singleton.mp new, same]
        exact hid
    next => exact h.filed other revision member
  counted other hstored := by
    rw [append_lastNumber]
    by_cases same : other = id
    · rw [same]
      exact hcovers
    · rw [append_revisions, if_neg same] at hstored
      exact h.counted other hstored
  numbered := by
    rw [List.map_append, h.numbered, append_lastRevision, List.range'_1_concat, Nat.add_comm 1]
    rfl
  histories other := by
    rw [append_revisions, List.filter_append, List.map_append, ← h.histories other]
    by_cases same : other = id
    · subst same
      simp
    · have hdiffer : id ≠ other := Ne.symm same
      simp [same, hdiffer]

theorem ascending_numbers (h : Recorded saved store) :
    (saved.map (·.number)).Pairwise (· < ·) := by
  rw [h.numbered]
  exact List.pairwise_lt_range' 1

theorem ascending (h : Recorded saved store) (id : EntityId) :
    ((store.revisions id).map (·.1)).Pairwise (· < ·) := by
  rw [h.histories id]
  exact h.ascending_numbers.sublist (List.filter_sublist.map _)

/-- A request that fails records nothing; one that succeeds records the next revision. -/
theorem serve (h : Recorded saved store) (request : Request) :
    Recorded (saved ++ (store.answer request).toOption.toList) (store.serve request) ∧
      store.Grows (store.serve request) := by
  unfold EntityStore.serve answer
  rcases h.filed.action_cases h.ascending request with
    ⟨error, after, hrun, hsame, hforward⟩ | ⟨id, stored, reached, hrun, hid, -, hsame, hcounts⟩
  · rw [hrun]
    refine ⟨?_, fun other => ?_⟩
    · exact (List.append_nil saved).symm ▸ h.of_sameRevisions hsame hforward
    · exact (hsame.revisions other).symm ▸ List.prefix_rfl
  · rw [hrun, ← hsame.lastRevision]
    have hreached := h.of_sameRevisions hsame hcounts.forward
    refine ⟨hreached.append hid hcounts.covers, fun other => ?_⟩
    change _ <+: (reached.append id stored).revisions other
    rw [append_revisions, ← hsame.revisions]
    split
    next same =>
      rw [same]
      exact List.prefix_append _ _
    next => exact List.prefix_rfl

theorem serve_all (h : Recorded saved store) (requests : List Request) :
    Recorded (saved ++ (store.answers requests).filterMap Except.toOption)
        (requests.foldl EntityStore.serve store) ∧
      store.Grows (requests.foldl EntityStore.serve store) := by
  induction requests generalizing saved store with
  | nil => exact ⟨(List.append_nil saved).symm ▸ h, fun _ => List.prefix_rfl⟩
  | cons request rest ih =>
      obtain ⟨hserved, hgrows⟩ := h.serve request
      obtain ⟨hlast, hlater⟩ := ih hserved
      refine ⟨?_, hgrows.trans hlater⟩
      rw [answers, List.filterMap_cons, List.foldl_cons]
      cases hanswer : store.answer request <;> simpa [hanswer, Except.toOption] using hlast

end Recorded

theorem recorded_serveAll (requests : List Request) :
    Recorded ((answers {} requests).filterMap Except.toOption) (serveAll requests) :=
  (Recorded.empty.serve_all requests).1

/-! ## The whole history -/

/-- Whether the revisions of a store are those of the saves that succeeded, in their order. -/
structure Historical (saved : List Revision) (store : EntityStore) : Prop where
  numbered : saved.map (·.number) = List.range' 1 saved.length
  counted : store.lastRevision = saved.length
  /-- The history of an entity consists of the saves that were answered with its id. -/
  histories : ∀ id, (store.revisions id).map (·.1) =
    (saved.filter (·.entity = id)).map (·.number)
  ascending : ∀ id, ((store.revisions id).map (·.1)).Pairwise (· < ·)
  placed : ∀ number, 1 ≤ number → number ≤ store.lastRevision →
    ∃! id, number ∈ (store.revisions id).map (·.1)
  filed : store.Filed
  found : ∀ id number entity, store.getRevision? id number = some entity ↔
    (number, entity) ∈ store.revisions id
  newest : ∀ id, ∀ revision ∈ store.revisions id, ∃ number entity,
    store.latestRevision? id = some number ∧ store.get? id = some entity ∧
      store.getRevision? id number = some entity ∧ revision.1 ≤ number

/-- What a request that is answered with a revision does: it stores an entity under the next
number, as the newest revision of the entity with that id, and leaves all others. -/
structure Saves (store : EntityStore) (request : Request) (revision : Revision)
    (stored : Entity) (after : EntityStore) : Prop where
  number : revision.number = store.lastRevision + 1
  counted : after.lastRevision = revision.number
  stores : request.Stores store stored
  filed : stored.id? = some revision.entity
  appended : after.revisions revision.entity =
    store.revisions revision.entity ++ [(revision.number, stored)]
  others : ∀ other ≠ revision.entity, after.revisions other = store.revisions other
  given : ∀ id ∈ request.entity.id?, revision.entity = id
  /-- An id that was not given is of the entity's type and no stored entity has it. -/
  fresh : request.entity.id? = none → revision.entity.type = request.entity.type ∧
    ∀ id, ∀ earlier ∈ store.revisions id, earlier.2.id? ≠ some revision.entity

namespace Recorded

variable {saved : List Revision} {store : EntityStore} (h : Recorded saved store)
include h

theorem getRevision?_iff {id : EntityId} {number : Nat} {entity : Entity} :
    store.getRevision? id number = some entity ↔ (number, entity) ∈ store.revisions id :=
  SortedMap.lookup_eq_some_iff_of_nodup ((h.ascending id).imp Nat.ne_of_lt)

theorem mem_numbers_iff {id : EntityId} {number : Nat} :
    number ∈ (store.revisions id).map (·.1) ↔ ⟨number, id⟩ ∈ saved := by
  rw [h.histories id, List.mem_map]
  constructor
  · rintro ⟨revision, member, rfl⟩
    obtain ⟨hsaved, hentity⟩ := List.mem_filter.mp member
    rw [← of_decide_eq_true hentity]
    exact hsaved
  · intro member
    exact ⟨_, List.mem_filter.mpr ⟨member, decide_eq_true rfl⟩, rfl⟩

/-- Every number that was given stands in one history. -/
theorem existsUnique_id {number : Nat} (hfirst : 1 ≤ number)
    (hlast : number ≤ store.lastRevision) :
    ∃! id, number ∈ (store.revisions id).map (·.1) := by
  have member : number ∈ saved.map (·.number) := by
    rw [h.numbered, List.mem_range'_1]
    omega
  obtain ⟨revision, hrevision, rfl⟩ := List.mem_map.mp member
  refine ⟨revision.entity, h.mem_numbers_iff.mpr hrevision, ?_⟩
  intro other hother
  have hdistinct : (saved.map (·.number)).Nodup := h.ascending_numbers.imp Nat.ne_of_lt
  have hsame := List.inj_on_of_nodup_map hdistinct (h.mem_numbers_iff.mp hother) hrevision rfl
  exact congrArg Revision.entity hsame

/-- The last revision of a history is the newest one. -/
theorem newest {id : EntityId} {revision : Nat × Entity} (member : revision ∈ store.revisions id) :
    ∃ number entity, store.latestRevision? id = some number ∧ store.get? id = some entity ∧
      store.getRevision? id number = some entity ∧ revision.1 ≤ number := by
  cases hlast : (store.revisions id).getLast? with
  | none =>
      rw [List.getLast?_eq_none_iff.mp hlast] at member
      cases member
  | some last =>
      refine ⟨last.1, last.2, by rw [latestRevision?, hlast]; rfl, by rw [get?, hlast]; rfl,
        h.getRevision?_iff.mpr (List.mem_of_getLast? hlast), ?_⟩
      obtain ⟨earlier, hsplit⟩ := List.getLast?_eq_some_iff.mp hlast
      have hascending := h.ascending id
      rw [hsplit, List.map_append, List.pairwise_append] at hascending
      rw [hsplit, List.mem_append, List.mem_singleton] at member
      rcases member with old | rfl
      · exact Nat.le_of_lt
          (hascending.2.2 _ (List.mem_map_of_mem old) _ (List.mem_singleton_self _))
      · exact Nat.le_refl _

theorem historical : Historical saved store := by
  have hlength : store.lastRevision = saved.length := by
    simpa using (congrArg List.length h.numbered).symm
  exact {
    numbered := hlength ▸ h.numbered
    counted := hlength
    histories := h.histories
    ascending := h.ascending
    placed := fun _ => h.existsUnique_id
    filed := h.filed
    found := fun _ _ _ => h.getRevision?_iff
    newest := fun _ _ => h.newest }

/-- An id that was not given is above all stored ones of its type. -/
theorem fresh {reached : EntityStore} {id : EntityId} (hcounts : Counts store reached none id)
    {other : EntityId} {earlier : Nat × Entity} (member : earlier ∈ store.revisions other) :
    earlier.2.id? ≠ some id := by
  intro hid
  obtain rfl : other = id := Option.some.inj ((h.filed other earlier member).symm.trans hid)
  rcases hcounts.given with hgiven | ⟨-, habove⟩
  · cases hgiven
  · exact absurd (h.counted other (List.ne_nil_of_mem member)) (Nat.not_le_of_lt habove)

theorem action_saves (request : Request) :
    match request.action.run store with
    | .error _ after => after.history = store.history ∧ after.lastRevision = store.lastRevision
    | .ok revision after => ∃ stored, store.Saves request revision stored after := by
  rcases h.filed.action_cases h.ascending request with
    ⟨error, after, hrun, hsame, -⟩ | ⟨id, stored, reached, hrun, hid, hstores, hsame, hcounts⟩
  · rw [hrun]
    exact ⟨hsame.history, hsame.lastRevision⟩
  · rw [hrun]
    refine ⟨stored, rfl, by rw [append_lastRevision, hsame.lastRevision], hstores, hid,
      ?_, ?_, ?_, ?_⟩
    · rw [append_revisions, if_pos rfl, hsame.revisions, hsame.lastRevision]
    · intro other hother
      rw [append_revisions, if_neg hother, hsame.revisions]
    · intro given hgiven
      rcases hcounts.given with hsome | ⟨hnone, -⟩
      · exact Option.some.inj (hsome.symm.trans hgiven)
      · rw [hnone] at hgiven
        cases hgiven
    · intro hnone
      rw [hnone] at hcounts
      refine ⟨?_, fun other earlier member => h.fresh hcounts member⟩
      cases request with
      | save entity => exact (Entity.type_of_id? hid).symm.trans hstores.1.type
      | saveWithBase entity base =>
          obtain ⟨given, hgiven, -⟩ := hstores
          change entity.id? = none at hnone
          rw [hnone] at hgiven
          cases hgiven

end Recorded

theorem serveAll_append (requests later : List Request) (request : Request) :
    serveAll (requests ++ request :: later) =
      later.foldl serve ((serveAll requests).serve request) := by
  rw [serveAll, List.foldl_append, List.foldl_cons, serveAll]

theorem Saves.newest {store after : EntityStore} {request : Request} {revision : Revision}
    {stored : Entity} (h : store.Saves request revision stored after) :
    after.get? revision.entity = some stored ∧
      after.latestRevision? revision.entity = some revision.number := by
  rw [get?, latestRevision?, h.appended, List.getLast?_concat]
  exact ⟨rfl, rfl⟩

/-- Whatever entities are saved one after the other in an empty store, on the latest revision
or on an old one, with ids or without: the store holds the history of the saves that succeeded.
The next request either fails and leaves all histories and the next number, or it adds a
revision, which is the newest one at first and is found under its number for ever. -/
theorem serveAll_history (requests : List Request) :
    Historical ((answers {} requests).filterMap Except.toOption) (serveAll requests) ∧
      ∀ request : Request,
        match request.action.run (serveAll requests) with
        | .error _ after =>
            after.history = (serveAll requests).history ∧
              after.lastRevision = (serveAll requests).lastRevision
        | .ok revision after => ∃ stored,
            (serveAll requests).Saves request revision stored after ∧
              after.get? revision.entity = some stored ∧
              after.latestRevision? revision.entity = some revision.number ∧
              ∀ later, (serveAll (requests ++ request :: later)).getRevision? revision.entity
                revision.number = some stored := by
  have hrecorded := recorded_serveAll requests
  refine ⟨hrecorded.historical, fun request => ?_⟩
  have hsaves := hrecorded.action_saves request
  have hserved := (hrecorded.serve request).1
  have hlater (later : List Request) := (hserved.serve_all later).2
  simp only [serveAll_append]
  unfold EntityStore.serve at hserved hlater ⊢
  cases hrun : request.action.run (serveAll requests) with
  | error error after =>
      rw [hrun] at hsaves
      exact hsaves
  | ok revision after =>
      rw [hrun] at hsaves
      simp only [hrun] at hserved hlater ⊢
      obtain ⟨stored, hstored⟩ := hsaves
      refine ⟨stored, hstored, hstored.newest.1, hstored.newest.2, fun later => ?_⟩
      refine (hlater later).getRevision? (hserved.getRevision?_iff.mpr ?_)
      rw [hstored.appended]
      exact List.mem_append_right _ (List.mem_singleton_self _)

/-- A given id makes the store go on after it. An edit of an old revision that contradicts the
latest one is refused and takes no number. -/
example :
    let item (number : Option ItemId) (label : String) := labelledItem number label []
    let seventh : ItemId := ⟨7, by decide, by decide⟩
    (answers {} [.save (item none "ant"), .save (item (some seventh) "bee"),
      .save (item none "cat"), .saveWithBase (item (some seventh) "bat") 2,
      .saveWithBase (item (some seventh) "bug") 2, .save (item none "dog")]).map
        (·.toOption.map fun revision => (revision.number, revision.entity.number)) =
      [some (1, 1), some (2, 7), some (3, 8), some (4, 7), none, some (5, 9)] := by
  rfl

end EntityStore

end KnowledgeBase
