import KnowledgeBase.Proofs.Entity
import KnowledgeBase.TermIndex
import Mathlib.Data.List.Dedup
import Mathlib.Data.List.Destutter

/-!
What an index answers after any saves and deletions. It stands for a map from ids to terms: to
those of the version that was saved last, and to none if the entity was deleted since. Nothing of
an earlier version is left, whatever came before. The answers to all questions are filters of
these terms, entity by entity in the order of the ids.
-/

namespace KnowledgeBase

/-! ## Walks in key order -/

/-- The loop that drops repeated neighbours keeps what it has and goes on from the last. -/
private theorem eraseRepsBy_loop {α : Type} [DecidableEq α] (last : α) (rest kept : List α) :
    List.eraseRepsBy.loop (· == ·) last rest kept =
      kept.reverse ++ rest.destutter' (· ≠ ·) last := by
  induction rest generalizing last kept with
  | nil => simp [List.eraseRepsBy.loop]
  | cons next rest ih =>
      by_cases same : last = next
      · simp [List.eraseRepsBy.loop, same, ih]
      · simp [List.eraseRepsBy.loop, beq_false_of_ne same, same, ih]

theorem eraseReps_eq_destutter {α : Type} [DecidableEq α] (list : List α) :
    list.eraseReps = list.destutter (· ≠ ·) := by
  cases list with
  | nil => rfl
  | cons first rest => exact eraseRepsBy_loop first rest []

namespace EntityId

/-- The ids of a list in their order, each once. -/
def inOrder (ids : List EntityId) : List EntityId :=
  ids.dedup.mergeSort fun first second => first.rank ≤ second.rank

theorem mem_inOrder {ids : List EntityId} {id : EntityId} : id ∈ inOrder ids ↔ id ∈ ids := by
  rw [inOrder, List.mem_mergeSort, List.mem_dedup]

theorem nodup_inOrder (ids : List EntityId) : (inOrder ids).Nodup :=
  (List.mergeSort_perm ids.dedup _).nodup_iff.mpr ids.nodup_dedup

theorem ranked_mergeSort (ids : List EntityId) :
    (ids.mergeSort fun first second => first.rank ≤ second.rank).Pairwise
      fun first second => first.rank ≤ second.rank := by
  have hsorted : (ids.mergeSort fun first second => first.rank ≤ second.rank).Pairwise
      fun first second => decide (first.rank ≤ second.rank) = true := by
    apply List.pairwise_mergeSort
    · intro first second third hfirst hsecond
      exact decide_eq_true ((of_decide_eq_true hfirst).trans (of_decide_eq_true hsecond))
    · intro first second
      simpa using Nat.le_total first.rank second.rank
  exact hsorted.imp of_decide_eq_true

theorem ascending_of_ranked {ids : List EntityId}
    (h : ids.Pairwise fun first second => first.rank ≤ second.rank) (hdistinct : ids.Nodup) :
    ids.Pairwise fun first second => compare first second = .lt := by
  refine (h.and hdistinct).imp ?_
  rintro first second ⟨hle, hother⟩
  have hrank : first.rank ≠ second.rank := fun same => hother (rank_injective same)
  exact Nat.compare_eq_lt.mpr (lt_of_le_of_ne hle hrank)

theorem ascending_inOrder (ids : List EntityId) :
    (inOrder ids).Pairwise fun first second => compare first second = .lt :=
  ascending_of_ranked (ranked_mergeSort ids.dedup) (nodup_inOrder ids)

/-- It does not matter whether repeats are dropped before the ids are sorted or after. -/
theorem eraseReps_mergeSort (ids : List EntityId) :
    (ids.mergeSort fun first second => (compare first second).isLE).eraseReps = inOrder ids := by
  have hle : (fun first second : EntityId => (compare first second).isLE) =
      fun first second => decide (first.rank ≤ second.rank) := by
    funext first second
    rw [Bool.eq_iff_iff, decide_eq_true_iff]
    exact Nat.isLE_compare
  have hranked := ranked_mergeSort ids
  have hantisymm : Std.Antisymm fun first second : EntityId => first.rank ≤ second.rank :=
    ⟨fun _ _ hle hge => rank_injective (Nat.le_antisymm hle hge)⟩
  rw [hle, eraseReps_eq_destutter, hranked.destutter_eq_dedup]
  have hascending := ascending_of_ranked (hranked.sublist (List.dedup_sublist _))
    (List.nodup_dedup _)
  refine SortedMap.eq_of_ascending id hascending (ascending_inOrder ids) fun id => ?_
  rw [List.mem_dedup, List.mem_mergeSort, mem_inOrder]

end EntityId

/-- A map whose keys are all in an ascending list is walked in the order of the list. -/
theorem SortedMap.toList_eq_filterMap {κ α : Type} [Ord κ] [Std.TransOrd κ] [Std.LawfulEqOrd κ]
    (map : SortedMap κ α) {order : List κ}
    (horder : order.Pairwise fun first second => compare first second = .lt)
    (hkeys : ∀ key value, map.get? key = some value → key ∈ order) :
    map.toList = order.filterMap fun key => (map.get? key).map fun value => (key, value) := by
  have hwalk : (order.filterMap fun key => (map.get? key).map fun value =>
      (key, value)).Pairwise fun left right => compare left.1 right.1 = .lt := by
    rw [List.pairwise_filterMap]
    refine horder.imp ?_
    intro first second before left hleft right hright
    obtain ⟨_, -, rfl⟩ := Option.map_eq_some_iff.mp hleft
    obtain ⟨_, -, rfl⟩ := Option.map_eq_some_iff.mp hright
    exact before
  refine eq_of_ascending Prod.fst map.ascending hwalk ?_
  rintro ⟨key, value⟩
  simp only [← get?_eq_some_iff, List.mem_filterMap, Option.map_eq_some_iff, Prod.mk.injEq]
  constructor
  · intro hfound
    exact ⟨key, hkeys key value hfound, value, hfound, rfl, rfl⟩
  · rintro ⟨_, -, _, hfound, rfl, rfl⟩
    exact hfound

/-! ## The terms of an entity -/

/-- The entries of a fingerprint under an id. -/
def Fingerprint.termEntries (fingerprint : Fingerprint) (id : EntityId) : List TermEntry :=
  (fingerprint.labels.toList.map fun (language, text) => ⟨id, .label, language, text⟩) ++
    (fingerprint.descriptions.toList.map fun (language, text) =>
      ⟨id, .description, language, text⟩) ++
    fingerprint.aliases.toList.flatMap fun (language, group) =>
      group.map fun text => ⟨id, .otherName, language, text⟩

theorem Entity.termEntries_of_id {entity : Entity} {id : EntityId} (h : entity.id? = some id) :
    entity.termEntries = .ok (entity.fingerprint.termEntries id) := by
  simp only [Entity.termEntries, h]
  rfl

theorem Entity.termEntries_of_none {entity : Entity} (h : entity.id? = none) :
    entity.termEntries = .error .missingEntityId := by
  simp only [Entity.termEntries, h]
  rfl

namespace Fingerprint

variable {fingerprint : Fingerprint} {id : EntityId}

theorem mem_termEntries {entry : TermEntry} :
    entry ∈ fingerprint.termEntries id ↔ entry.entity = id ∧
      match entry.type with
      | .label => fingerprint.labels.get? entry.language = some entry.text
      | .description => fingerprint.descriptions.get? entry.language = some entry.text
      | .otherName => ∃ group, fingerprint.aliases.get? entry.language = some group ∧
          entry.text ∈ group := by
  obtain ⟨entity, type, language, text⟩ := entry
  simp only [termEntries, List.mem_append, List.mem_map, List.mem_flatMap, Prod.exists,
    TermEntry.mk.injEq, ← SortedMap.get?_eq_some_iff]
  cases type <;> grind

private theorem nodup_termList (terms : TermList) (type : TermType) :
    (terms.toList.map fun (language, text) => TermEntry.mk id type language text).Nodup := by
  have hpairs : terms.toList.Nodup := List.Nodup.of_map _ (SortedMap.nodup_keys terms)
  refine hpairs.map ?_
  rintro ⟨language, text⟩ ⟨language', text'⟩ same
  simpa using same

private theorem nodup_groups {groups : AliasGroups} (h : groups.All GroupRule) :
    (groups.toList.flatMap fun (language, group) =>
      group.map fun text => TermEntry.mk id .otherName language text).Nodup := by
  rw [List.nodup_flatMap]
  constructor
  · rintro ⟨language, group⟩ member
    obtain ⟨-, hgroup, -⟩ := h language group (SortedMap.get?_eq_some_iff.mpr member)
    refine hgroup.map ?_
    intro text text' same
    simpa using same
  · have hkeys : groups.toList.Pairwise fun first second => first.1 ≠ second.1 :=
      List.pairwise_map.mp (SortedMap.nodup_keys groups)
    refine hkeys.imp ?_
    intro first second hother entry hfirst hsecond
    obtain ⟨_, -, rfl⟩ := List.mem_map.mp hfirst
    obtain ⟨_, -, same⟩ := List.mem_map.mp hsecond
    exact hother (congrArg TermEntry.language same).symm

/-- No term of an entity is listed twice. -/
theorem nodup_termEntries (h : fingerprint.aliases.All GroupRule) :
    (fingerprint.termEntries id).Nodup := by
  rw [termEntries, List.nodup_append, List.nodup_append]
  refine ⟨⟨nodup_termList _ _, nodup_termList _ _, ?_⟩, nodup_groups h, ?_⟩
  · intro label hlabel description hdescription same
    obtain ⟨_, -, rfl⟩ := List.mem_map.mp hlabel
    obtain ⟨_, -, rfl⟩ := List.mem_map.mp hdescription
    cases same
  · intro term hterm name hname same
    obtain ⟨_, -, hname⟩ := List.mem_flatMap.mp hname
    obtain ⟨_, -, rfl⟩ := List.mem_map.mp hname
    rcases List.mem_append.mp hterm with hlabel | hdescription
    · obtain ⟨_, -, rfl⟩ := List.mem_map.mp hlabel
      cases same
    · obtain ⟨_, -, rfl⟩ := List.mem_map.mp hdescription
      cases same

/-- Only an empty fingerprint has no terms, since no group of aliases is empty. -/
theorem termEntries_eq_nil_iff (h : fingerprint.aliases.All GroupRule) :
    fingerprint.termEntries id = [] ↔ fingerprint.isEmpty = true := by
  have hgroups : fingerprint.aliases.toList.flatMap (fun (language, group) =>
      group.map fun text => TermEntry.mk id .otherName language text) = [] ↔
        fingerprint.aliases.toList = [] := by
    constructor
    · intro hnone
      rw [List.flatMap_eq_nil_iff] at hnone
      rw [List.eq_nil_iff_forall_not_mem]
      rintro ⟨language, group⟩ member
      obtain ⟨hmembers, -⟩ := h language group (SortedMap.get?_eq_some_iff.mpr member)
      exact hmembers (List.map_eq_nil_iff.mp (hnone _ member))
    · intro hnone
      rw [hnone, List.flatMap_nil]
  rw [termEntries, List.append_eq_nil_iff, List.append_eq_nil_iff, hgroups, List.map_eq_nil_iff,
    List.map_eq_nil_iff, isEmpty, Bool.and_eq_true, Bool.and_eq_true]
  simp only [SortedMap.isEmpty, SortedMap.toList, List.isEmpty_iff]

end Fingerprint

/-! ## Texts that match -/

namespace MatchOptions

/-- The form in which a text is compared. -/
def form (options : MatchOptions) (text : String) : List Char :=
  if options.caseSensitive then text.toList else (Text.lower text).toList

/-- Whether a text is the one that is looked for or, if this may go on, starts with it. -/
def Matches (options : MatchOptions) (wanted text : String) : Prop :=
  if options.openEnd then options.form wanted <+: options.form text
  else options.form text = options.form wanted

instance (options : MatchOptions) (wanted text : String) : Decidable (options.Matches wanted text) :=
  inferInstanceAs (Decidable (ite _ _ _))

theorem accepts_iff (options : MatchOptions) (wanted text : String) :
    options.accepts wanted text = true ↔ options.Matches wanted text := by
  unfold accepts Matches form
  cases options.caseSensitive <;> cases options.openEnd <;> simp [String.toList_inj]

end MatchOptions

namespace TermIndex

/-! ## Requests -/

/-- What an index is asked to do. -/
inductive Request where
  | save (entity : Entity)
  | delete (id : EntityId)

def Request.run (index : TermIndex) : Request → Except StoreError TermIndex
  | .save entity => index.save entity
  | .delete id => .ok (index.erase id)

/-- The index after a request; a refused one leaves it as it was. -/
def serve (index : TermIndex) (request : Request) : TermIndex :=
  (request.run index).toOption.getD index

/-- The index after requests on an empty one. -/
def serveAll (requests : List Request) : TermIndex := requests.foldl serve .empty

theorem serveAll_concat (requests : List Request) (last : Request) :
    serveAll (requests ++ [last]) = (serveAll requests).serve last := by
  simp [serveAll]

/-- The version of an entity after a request about it: the one that is saved, or none. -/
def Request.version? (id : EntityId) : Request → Option (Option Entity)
  | .save entity => if entity.id? = some id then some (some entity) else none
  | .delete other => if other = id then some none else none

/-- The version of an entity that was saved last, if it was not deleted since. -/
def lastSaved? (requests : List Request) (id : EntityId) : Option Entity :=
  (requests.reverse.findSome? (Request.version? id)).join

/-- The terms that requests leave of an entity. -/
def termsAfter (requests : List Request) (id : EntityId) : List TermEntry :=
  ((lastSaved? requests id).bind fun version => version.termEntries.toOption).getD []

/-- The ids of the entities that are saved. -/
def savedIds (requests : List Request) : List EntityId :=
  requests.filterMap fun
    | .save entity => entity.id?
    | .delete _ => none

/-- All terms that requests leave, entity by entity. -/
def allTerms (requests : List Request) : List TermEntry :=
  (EntityId.inOrder (savedIds requests)).flatMap (termsAfter requests)

theorem save_of_id {entity : Entity} {id : EntityId} (h : entity.id? = some id)
    (index : TermIndex) : index.save entity =
      .ok (if (entity.fingerprint.termEntries id).isEmpty then index.erase id
        else index.insert id (entity.fingerprint.termEntries id)) := by
  simp only [save, Entity.termEntries_of_id h, h]
  rfl

theorem save_of_none {entity : Entity} (h : entity.id? = none) (index : TermIndex) :
    index.save entity = .error (.model .missingEntityId) := by
  simp only [save, Entity.termEntries_of_none h]
  rfl

/-- A request replaces what is indexed of the entity that it is about, and nothing else. -/
theorem get?_serve (index : TermIndex) (request : Request) (id : EntityId) :
    (index.serve request).get? id =
      match request.version? id with
      | none => index.get? id
      | some version? =>
          (version?.map (·.fingerprint.termEntries id)).filter fun entries => !entries.isEmpty := by
  cases request with
  | delete other =>
      have hserve : index.serve (.delete other) = index.erase other := rfl
      rw [hserve, SortedMap.get?_erase, Request.version?]
      by_cases same : other = id
      · simp [same]
      · simp [same, Ne.symm same]
  | save entity =>
      cases hid : entity.id? with
      | none =>
          have hserve : index.serve (.save entity) = index := by
            simp only [serve, Request.run, save_of_none hid]
            rfl
          simp [hserve, Request.version?, hid]
      | some own =>
          have hserve : index.serve (.save entity) =
              if (entity.fingerprint.termEntries own).isEmpty then index.erase own
              else index.insert own (entity.fingerprint.termEntries own) := by
            simp only [serve, Request.run, save_of_id hid]
            rfl
          rw [hserve, Request.version?, hid]
          by_cases same : id = own
          · subst same
            cases hentries : (entity.fingerprint.termEntries id).isEmpty <;>
              simp [hentries, SortedMap.get?_insert, SortedMap.get?_erase, Option.filter]
          · have hother : some own ≠ some id := fun h => same (Option.some.inj h).symm
            rw [if_neg hother]
            split <;> simp [same, SortedMap.get?_insert, SortedMap.get?_erase]

/-! ## The map that an index stands for -/

theorem lastSaved?_concat (requests : List Request) (last : Request) (id : EntityId) :
    lastSaved? (requests ++ [last]) id =
      match last.version? id with
      | none => lastSaved? requests id
      | some version? => version? := by
  rw [lastSaved?, List.reverse_append, List.reverse_singleton, List.singleton_append,
    List.findSome?_cons]
  cases last.version? id <;> rfl

theorem of_version? {request : Request} {id : EntityId} {version : Entity}
    (h : request.version? id = some (some version)) :
    request = .save version ∧ version.id? = some id := by
  cases request with
  | save entity =>
      by_cases hid : entity.id? = some id
      · simp only [Request.version?, hid, if_true, Option.some.injEq] at h
        subst h
        exact ⟨rfl, hid⟩
      · simp [Request.version?, hid] at h
  | delete other => simp [Request.version?] at h

theorem of_lastSaved? {requests : List Request} {id : EntityId} {version : Entity}
    (h : lastSaved? requests id = some version) :
    Request.save version ∈ requests ∧ version.id? = some id := by
  obtain ⟨request, hmember, hversion⟩ :=
    List.exists_of_findSome?_eq_some (Option.join_eq_some_iff.mp h)
  obtain ⟨rfl, hid⟩ := of_version? hversion
  exact ⟨List.mem_reverse.mp hmember, hid⟩

theorem termsAfter_eq (requests : List Request) (id : EntityId) :
    termsAfter requests id =
      ((lastSaved? requests id).map (·.fingerprint.termEntries id)).getD [] := by
  unfold termsAfter
  cases hlast : lastSaved? requests id with
  | none => rfl
  | some version =>
      rw [Option.bind_some, Entity.termEntries_of_id (of_lastSaved? hlast).2]
      rfl

/-- An index holds exactly the terms of the last saved versions. -/
theorem get?_serveAll (requests : List Request) (id : EntityId) :
    (serveAll requests).get? id =
      if termsAfter requests id = [] then none else some (termsAfter requests id) := by
  have hfilter : (serveAll requests).get? id =
      ((lastSaved? requests id).map (·.fingerprint.termEntries id)).filter
        fun entries => !entries.isEmpty := by
    induction requests using List.reverseRecOn with
    | nil => rfl
    | append_singleton requests last ih =>
        rw [serveAll_concat, get?_serve, lastSaved?_concat]
        cases last.version? id with
        | none => exact ih
        | some version? => rfl
  rw [hfilter, termsAfter_eq]
  cases (lastSaved? requests id).map (·.fingerprint.termEntries id) with
  | none => rfl
  | some entries => cases entries <;> rfl

/-! ## Questions -/

/-- What entries a look-up selects: those of certain types and languages, if these are given. -/
def Selected (types? : Option (List TermType)) (languages? : Option (List String))
    (entry : TermEntry) : Prop :=
  (∀ types ∈ types?, entry.type ∈ types) ∧ ∀ languages ∈ languages?, entry.language ∈ languages

instance (types? : Option (List TermType)) (languages? : Option (List String)) :
    DecidablePred (Selected types? languages?) :=
  fun _ => inferInstanceAs (Decidable (_ ∧ _))

/-- What entries a search selects: those of certain types, if these are given, that match one of
the queries. -/
def Matching (queries : List TermQuery) (type? : Option TermType)
    (entityType? : Option EntityType) (options : MatchOptions) (entry : TermEntry) : Prop :=
  (∀ type ∈ entityType?, entry.entity.type = type) ∧ (∀ type ∈ type?, entry.type = type) ∧
    ∃ query ∈ queries, (∀ language ∈ query.language?, entry.language = language) ∧
      options.Matches query.text entry.text

instance (queries : List TermQuery) (type? : Option TermType) (entityType? : Option EntityType)
    (options : MatchOptions) : DecidablePred (Matching queries type? entityType? options) :=
  fun _ => inferInstanceAs (Decidable (_ ∧ _ ∧ _))

theorem mem_savedIds {requests : List Request} {id : EntityId} :
    id ∈ savedIds requests ↔ ∃ entity, Request.save entity ∈ requests ∧ entity.id? = some id := by
  rw [savedIds, List.mem_filterMap]
  constructor
  · rintro ⟨request, hmember, hid⟩
    cases request with
    | save entity => exact ⟨entity, hmember, hid⟩
    | delete other => cases hid
  · rintro ⟨entity, hmember, hid⟩
    exact ⟨.save entity, hmember, hid⟩

private theorem mem_savedIds_of_get? {requests : List Request} {id : EntityId}
    {entries : List TermEntry} (h : (serveAll requests).get? id = some entries) :
    id ∈ savedIds requests := by
  rw [get?_serveAll, termsAfter_eq] at h
  cases hlast : lastSaved? requests id with
  | none => simp [hlast] at h
  | some version => exact mem_savedIds.mpr ⟨version, of_lastSaved? hlast⟩

/-- What is found under the ids of a list are the terms that are left of each. -/
theorem flatten_filterMap_serveAll (requests : List Request) (order : List EntityId) :
    (order.filterMap (serveAll requests).get?).flatten =
      order.flatMap (termsAfter requests) := by
  induction order with
  | nil => rfl
  | cons id order ih =>
      rw [List.filterMap_cons, get?_serveAll, List.flatMap_cons, ← ih]
      by_cases hnone : termsAfter requests id = []
      · simp [hnone]
      · simp [hnone]

theorem ofEntities_serveAll (requests : List Request) (ids : List EntityId)
    (types? : Option (List TermType)) (languages? : Option (List String)) :
    (serveAll requests).ofEntities ids types? languages? =
      (EntityId.inOrder ids).flatMap fun id =>
        (termsAfter requests id).filter fun entry => Selected types? languages? entry := by
  have hselected (entry : TermEntry) : (languages?.all (·.contains entry.language) &&
      types?.all (·.contains entry.type)) = decide (Selected types? languages? entry) := by
    rw [Bool.eq_iff_iff]
    cases types? <;> cases languages? <;> simp [Selected, and_comm]
  simp only [ofEntities, EntityId.eraseReps_mergeSort, flatten_filterMap_serveAll,
    List.filter_filter, hselected, List.filter_flatMap]

theorem entries_serveAll (requests : List Request) :
    entries (serveAll requests) = allTerms requests := by
  have hkeys : ∀ id entries, (serveAll requests).get? id = some entries →
      id ∈ EntityId.inOrder (savedIds requests) :=
    fun id entries hfound => EntityId.mem_inOrder.mpr (mem_savedIds_of_get? hfound)
  rw [entries, allTerms, ← flatten_filterMap_serveAll, (serveAll requests).toList_eq_filterMap
    (EntityId.ascending_inOrder (savedIds requests)) hkeys, List.flatMap, List.map_filterMap]
  simp

private theorem all_beq_iff {α : Type} [BEq α] [LawfulBEq α] {wanted? : Option α} {value : α} :
    wanted?.all (· == value) = true ↔ ∀ wanted ∈ wanted?, value = wanted := by
  cases wanted? with
  | none => simp
  | some wanted => simpa using eq_comm

/-- A search goes through all entries and keeps those that it selects. -/
theorem search_eq (index : TermIndex) (queries : List TermQuery) (type? : Option TermType)
    (entityType? : Option EntityType) (options : MatchOptions) :
    index.search queries type? entityType? options =
      let found := (entries index).filter fun entry =>
        Matching queries type? entityType? options entry
      match options.limit? with
      | some limit => found.take limit
      | none => found := by
  have hmatching (entry : TermEntry) : (entityType?.all (· == entry.entity.type) &&
      type?.all (· == entry.type) && queries.any fun query =>
        query.language?.all (· == entry.language) && options.accepts query.text entry.text) =
      decide (Matching queries type? entityType? options entry) := by
    rw [Bool.eq_iff_iff, decide_eq_true_iff]
    simp only [Bool.and_eq_true, List.any_eq_true, all_beq_iff, MatchOptions.accepts_iff,
      and_assoc, Matching]
  cases hlimit : options.limit? with
  | some limit => simp only [search, hmatching, hlimit]
  | none => simp only [search, hmatching, hlimit]

theorem search_serveAll (requests : List Request) (queries : List TermQuery)
    (type? : Option TermType) (entityType? : Option EntityType) (options : MatchOptions) :
    (serveAll requests).search queries type? entityType? options =
      let found := (allTerms requests).filter fun entry =>
        Matching queries type? entityType? options entry
      match options.limit? with
      | some limit => found.take limit
      | none => found := by
  rw [search_eq, entries_serveAll]

/-! ## Numbers of terms -/

theorem count_eq_length (index : TermIndex) : index.count = (entries index).length := by
  rw [count, entries, List.length_flatMap, List.sum_eq_foldl, List.foldl_map, SortedMap.values,
    List.foldl_map]
  rfl

theorem isEmpty_serveAll_iff (requests : List Request) :
    (serveAll requests).isEmpty = true ↔ (serveAll requests).count = 0 := by
  rw [SortedMap.isEmpty_iff, count_eq_length, List.length_eq_zero_iff]
  constructor
  · intro hempty
    rw [hempty]
    rfl
  · intro hnone
    apply SortedMap.ext_get?
    intro id
    rw [SortedMap.get?_empty, Option.eq_none_iff_forall_ne_some]
    intro terms hfound
    have hterms : terms ≠ [] := by
      rw [get?_serveAll] at hfound
      split at hfound
      next => cases hfound
      next hsome => exact Option.some.inj hfound ▸ hsome
    rw [entries, List.flatMap_eq_nil_iff] at hnone
    exact hterms (hnone (id, terms) (SortedMap.get?_eq_some_iff.mp hfound))

/-! ## What an index answers -/

section Grouped

variable {requests : List Request}
  (h : ∀ entity, Request.save entity ∈ requests → entity.fingerprint.aliases.All GroupRule)
include h

theorem get?_serveAll_eq_none_iff (id : EntityId) : (serveAll requests).get? id = none ↔
    ∀ version, lastSaved? requests id = some version → version.fingerprint.isEmpty = true := by
  have hnone : (serveAll requests).get? id = none ↔ termsAfter requests id = [] := by
    rw [get?_serveAll]
    split
    next hnone => simp [hnone]
    next hsome => simp [hsome]
  rw [hnone, termsAfter_eq]
  cases hlast : lastSaved? requests id with
  | none => simp
  | some version =>
      have hgroups := h version (of_lastSaved? hlast).1
      simpa using Fingerprint.termEntries_eq_nil_iff hgroups

theorem nodup_allTerms : (allTerms requests).Nodup := by
  have hversion {id : EntityId} {version : Entity} (hlast : lastSaved? requests id = some version) :
      termsAfter requests id = version.fingerprint.termEntries id := by
    rw [termsAfter_eq, hlast]
    rfl
  rw [allTerms, List.nodup_flatMap]
  constructor
  · intro id _
    cases hlast : lastSaved? requests id with
    | none => simp [termsAfter_eq, hlast]
    | some version =>
        rw [hversion hlast]
        exact Fingerprint.nodup_termEntries (h version (of_lastSaved? hlast).1)
  · have hentity {id : EntityId} {entry : TermEntry} (hentry : entry ∈ termsAfter requests id) :
        entry.entity = id := by
      cases hlast : lastSaved? requests id with
      | none => simp [termsAfter_eq, hlast] at hentry
      | some version =>
          rw [hversion hlast] at hentry
          exact (Fingerprint.mem_termEntries.mp hentry).1
    refine (EntityId.nodup_inOrder _).imp ?_
    intro first second hother entry hfirst hsecond
    exact hother ((hentity hfirst).symm.trans (hentity hsecond))

end Grouped

/-- Whether an index answers every question from the terms that requests leave. -/
structure Answers (requests : List Request) (index : TermIndex) : Prop where
  found : ∀ id, index.get? id =
    if termsAfter requests id = [] then none else some (termsAfter requests id)
  /-- Nothing is found of an entity that was never saved, was deleted since or has no terms. -/
  absent : ∀ id, index.get? id = none ↔
    ∀ version, lastSaved? requests id = some version → version.fingerprint.isEmpty = true
  refused : ∀ entity error, index.save entity = .error error ↔
    entity.id? = none ∧ error = .model .missingEntityId
  unchanged : ∀ entity, entity.id? = none → index.serve (.save entity) = index
  distinct : (allTerms requests).Nodup
  ofEntities : ∀ ids types? languages?, index.ofEntities ids types? languages? =
    (EntityId.inOrder ids).flatMap fun id =>
      (termsAfter requests id).filter fun entry => Selected types? languages? entry
  search : ∀ queries type? entityType? options, options.limit? = none →
    index.search queries type? entityType? options =
      (allTerms requests).filter fun entry => Matching queries type? entityType? options entry
  limited : ∀ queries type? entityType? options limit, options.limit? = some limit →
    index.search queries type? entityType? options =
      ((allTerms requests).filter fun entry =>
        Matching queries type? entityType? options entry).take limit
  count : index.count = (allTerms requests).length
  isEmpty : index.isEmpty = true ↔ index.count = 0

/-- Whatever an index was asked to save and to delete, it answers from the terms of the versions
that were saved last. -/
theorem serveAll_answers {requests : List Request}
    (h : ∀ entity, Request.save entity ∈ requests → entity.fingerprint.aliases.All GroupRule) :
    Answers requests (serveAll requests) where
  found := get?_serveAll requests
  absent := get?_serveAll_eq_none_iff h
  refused entity error := by
    cases hid : entity.id? with
    | none =>
        rw [save_of_none hid]
        simp [eq_comm]
    | some id =>
        rw [save_of_id hid]
        simp
  unchanged entity hid := by
    simp only [serve, Request.run, save_of_none hid]
    rfl
  distinct := nodup_allTerms h
  ofEntities := ofEntities_serveAll requests
  search queries type? entityType? options hlimit := by
    rw [search_serveAll, hlimit]
  limited queries type? entityType? options limit hlimit := by
    rw [search_serveAll, hlimit]
  count := by rw [count_eq_length, entries_serveAll]
  isEmpty := isEmpty_serveAll_iff requests

/-- A label that is replaced, an entity that is deleted and saved again without terms, and a save
without id: one term is left. -/
theorem serveAll_answers_replaced :
    let second : ItemId := ⟨2, by decide, by decide⟩
    let requests : List Request := [.save (labelledItem (some second) "ant" []),
      .save (labelledItem (some .first) "bee" []), .delete (.item second),
      .save (labelledItem none "cat" []), .save (.item { id? := some second }),
      .save (labelledItem (some .first) "dog" [])]
    (∀ entity, Request.save entity ∈ requests → entity.fingerprint.aliases.All GroupRule) ∧
      Answers requests (serveAll requests) ∧
      entries (serveAll requests) = [⟨.item .first, .label, "en", "dog"⟩] := by
  intro second requests
  have hgroups : ∀ entity, Request.save entity ∈ requests →
      entity.fingerprint.aliases.All GroupRule := by
    intro entity member
    have hnone : entity.fingerprint.aliases = .empty := by
      simp only [requests, List.mem_cons, Request.save.injEq, reduceCtorEq, List.not_mem_nil,
        or_false, false_or] at member
      rcases member with rfl | rfl | rfl | rfl | rfl <;> rfl
    rw [hnone]
    exact SortedMap.All.empty
  exact ⟨hgroups, serveAll_answers hgroups, rfl⟩

end TermIndex

end KnowledgeBase
