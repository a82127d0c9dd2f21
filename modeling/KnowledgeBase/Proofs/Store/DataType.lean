import KnowledgeBase.Proofs.Store.NoLostUpdate

/-!
The type of data of a property under saves. A difference has no operation for it, so what is
resolved from an old revision has the type of data of that revision: a change that was saved
since is taken back, and a change that is submitted is not made.
-/

namespace KnowledgeBase

namespace EntityStore

theorem get?_append (store : EntityStore) (id : EntityId) (entity : Entity) :
    (store.append id entity).get? id = some entity := by
  rw [get?, append_revisions, if_pos rfl]
  simp

/-- A save stores the type of data of the saved entity. -/
theorem dataType?_of_save {store after : EntityStore} {entity : Entity} {revision : Revision}
    (h : (save entity).run store = .ok revision after) :
    ∃ stored, after.get? revision.entity = some stored ∧
      stored.dataType? = entity.dataType? := by
  rcases save_cases store entity with
    ⟨error, reached, hrun, -⟩ | ⟨id, named, reached, hrun, -, -, hdataType, -⟩
  · rw [hrun] at h
    cases h
  · rw [hrun] at h
    cases h
    exact ⟨named, get?_append reached id named, hdataType⟩

/-- A save against an old revision stores the type of data of that revision, whatever was
saved since and whatever is submitted. So it stores the one that a merge of both edits has
exactly if neither of them changed it. -/
theorem saveWithBase_reverts_dataType {store after : EntityStore} {submitted : Entity}
    {id : EntityId} {base : Nat} {revision : Revision} (hid : submitted.id? = some id)
    (hstale : store.latestRevision? id ≠ some base)
    (hsaved : (saveWithBase submitted base).run store = .ok revision after) :
    ∃ old latest stored, store.getRevision? id base = some old ∧
      store.get? id = some latest ∧ after.get? revision.entity = some stored ∧
      stored.dataType? = old.dataType? ∧
      (stored.dataType? = pick old.dataType? latest.dataType? submitted.dataType? ↔
        latest.dataType? = old.dataType? ∧ submitted.dataType? = old.dataType?) := by
  rcases saveWithBase_cases store submitted base with
    ⟨error, hfailed⟩ | ⟨found, resolved, hfound, hrun, hcase⟩
  · rw [hfailed] at hsaved
    cases hsaved
  obtain rfl : id = found := Option.some.inj (hid.symm.trans hfound)
  rcases hcase with ⟨hfast, -⟩ | ⟨old, number, current, hold, hnumber, -, hresolve⟩
  · exact absurd hfast hstale
  obtain ⟨latest, hlatest⟩ := exists_get?_of_latestRevision? hnumber
  rw [hrun] at hsaved
  obtain ⟨stored, hstored, hsame⟩ := dataType?_of_save hsaved
  have hreverted := hsame.trans (dataType?_of_resolveEdits hresolve)
  refine ⟨old, latest, stored, hold, hlatest, hstored, hreverted, ?_⟩
  rw [hreverted, pick]
  by_cases hchanged : old.dataType? = submitted.dataType?
  · simp [hchanged, eq_comm]
  · simp [hchanged, Ne.symm hchanged]

/-! ## A change that is taken back -/

/-- A property with one label. -/
def labelledProperty (dataType label : String) : Entity :=
  .property {
    id? := some .first
    fingerprint := { labels := SortedMap.empty.insert "en" label }
    dataType }

/-- A client changes the type of data of a property, after which others edit older revisions. -/
private def typeChanged : List Request :=
  [.save (labelledProperty "string" "ant"),
    .saveWithBase (labelledProperty "url" "ant") 1]

/-- The type of data that a merge of both edits has is not always stored: one client changes
it, and another, who edits the label of the revision before, takes the change back. -/
theorem dataType_update_lost :
    ¬∀ (requests : List Request) (submitted old latest : Entity) (id : EntityId) (base : Nat)
      (revision : Revision) (after : EntityStore), submitted.id? = some id →
      (serveAll requests).getRevision? id base = some old →
      (serveAll requests).get? id = some latest →
      (serveAll requests).latestRevision? id ≠ some base →
      (saveWithBase submitted base).run (serveAll requests) = .ok revision after →
      ∃ stored, after.get? revision.entity = some stored ∧
        stored.dataType? = pick old.dataType? latest.dataType? submitted.dataType? := by
  intro hlaw
  obtain ⟨stored, hstored, htype⟩ := hlaw typeChanged (labelledProperty "string" "bee")
    (labelledProperty "string" "ant") (labelledProperty "url" "ant") _ 1 _ _ rfl rfl rfl
    (by decide) rfl
  cases hstored
  revert htype
  decide

/-- Also a change that is submitted against an old revision is not made. -/
theorem saveWithBase_reverts_dataType_of_properties :
    ∃ revision after stored,
      (serveAll typeChanged).latestRevision? (.property .first) ≠ some 1 ∧
      (saveWithBase (labelledProperty "time" "bee") 1).run (serveAll typeChanged) =
        .ok revision after ∧
      after.get? revision.entity = some stored ∧ stored.dataType? = some "string" := by
  have hid : (labelledProperty "time" "bee").id? = some (.property .first) := rfl
  have hstale : (serveAll typeChanged).latestRevision? (.property .first) ≠ some 1 := by decide
  obtain ⟨old, latest, stored, hold, -, hstored, htype, -⟩ :=
    saveWithBase_reverts_dataType hid hstale rfl
  cases hold
  exact ⟨_, _, stored, hstale, rfl, hstored, htype⟩

end EntityStore

end KnowledgeBase
