import KnowledgeBase.Proofs.Diff.StatementPatch

/-!
Lists that hold equal statements under the same keys. A difference that was computed from
one of them takes the other to a list that agrees with the new one: the keys of the outcome
are those of the new list, so nothing is lost, doubled or numbered anew, and a second
application finds everything done.
-/

namespace KnowledgeBase.StatementList

/-- Whether two lists hold equal statements under the same keys. -/
def Agree (first second : StatementList) : Prop :=
  ∀ key, ((byKey first).get? key == (byKey second).get? key) = true

/-- Nothing differs between lists exactly if they agree. -/
theorem diff_eq_empty_iff {first second : StatementList} :
    diff first second = .empty ↔ first.Agree second := by
  constructor
  · intro h key
    have hnone := get?_diff first second key
    rw [h, SortedMap.get?_empty] at hnone
    exact DiffOp.beq_of_between?_eq_none hnone.symm
  · intro hagree
    apply SortedMap.ext_get?
    intro key
    rw [get?_diff, DiffOp.between?_self (hagree key), SortedMap.get?_empty]

private theorem bind_guid?_eq {first second : Option Statement}
    (h : (first == second) = true) :
    first.bind Statement.guid? = second.bind Statement.guid? := by
  cases first with
  | none =>
      cases second with
      | none => rfl
      | some right => cases h
  | some left =>
      cases second with
      | none => cases h
      | some right =>
          rw [Option.some_beq_some, Statement.beq_iff] at h
          exact h.2.2.1

/-- The identifiers of a list can be read off its keys. -/
theorem guids_eq_filterMap_keys {list : StatementList} (h : (keys list).Nodup) :
    list.guids =
      (keys list).filterMap fun key => ((byKey list).get? key).bind Statement.guid? := by
  calc list.guids = ((keyed list).map (·.2)).filterMap Statement.guid? := by
        rw [keyed_map_snd, guids]
    _ = (keyed list).filterMap fun entry => entry.2.guid? := by
        rw [List.filterMap_map]
        rfl
    _ = (keyed list).filterMap fun entry =>
          ((byKey list).get? entry.1).bind Statement.guid? := by
        apply List.filterMap_congr
        intro entry member
        rw [(get?_byKey h).mpr member, Option.bind_some]
    _ = ((keyed list).map (·.1)).filterMap fun key =>
          ((byKey list).get? key).bind Statement.guid? := by
        rw [List.filterMap_map]
        rfl
    _ = _ := by rw [keyed_map_fst]

namespace Agree

variable {first second third : StatementList}

theorem symm (h : Agree first second) : Agree second first :=
  fun key => PartialEquivBEq.symm (h key)

theorem trans (h : Agree first second) (h' : Agree second third) : Agree first third :=
  fun key => PartialEquivBEq.trans (h key) (h' key)

theorem mem_keys_iff (h : Agree first second) (hfirst : (keys first).Nodup)
    (hsecond : (keys second).Nodup) (key : String) :
    key ∈ keys first ↔ key ∈ keys second := by
  rw [StatementList.mem_keys_iff hfirst, StatementList.mem_keys_iff hsecond,
    isSome_eq_of_beq (h key)]

/-- Lists that agree have the same keys, each as often. -/
theorem perm_keys (h : Agree first second) (hfirst : (keys first).Nodup)
    (hsecond : (keys second).Nodup) : (keys first).Perm (keys second) :=
  (List.perm_ext_iff_of_nodup hfirst hsecond).mpr (h.mem_keys_iff hfirst hsecond)

theorem length_eq (h : Agree first second) (hfirst : (keys first).Nodup)
    (hsecond : (keys second).Nodup) : first.length = second.length := by
  simpa using (h.perm_keys hfirst hsecond).length_eq

theorem wellNumbered (h : Agree first second) (hfirst : (keys first).Nodup)
    (hsecond : second.WellNumbered) : first.WellNumbered := by
  have hkeys := h.perm_keys hfirst hsecond.nodup_keys
  have hguids : first.guids.Perm second.guids := by
    rw [guids_eq_filterMap_keys hfirst, guids_eq_filterMap_keys hsecond.nodup_keys,
      funext fun key => bind_guid?_eq (h key)]
    exact hkeys.filterMap _
  exact
    { distinct := hguids.nodup_iff.mpr hsecond.distinct
      plain := fun guid member => hsecond.plain guid (hguids.mem_iff.mp member)
      short := h.length_eq hfirst hsecond.nodup_keys ▸ hsecond.short }

end Agree

section Replay

variable {current old new : StatementList} (hcurrent : current.WellNumbered)
  (hnew : new.WellNumbered) (hself : ∀ statement ∈ new, statement.NaNFree)
  (hagree : current.Agree old)
include hcurrent hnew hself hagree

omit hcurrent hnew in
private theorem after?_diff (key : String) :
    (DiffOp.after? ((diff old new).get? key) ((byKey current).get? key) ==
      (byKey new).get? key) = true := by
  rw [get?_diff]
  exact DiffOp.after?_between? (hagree key) (get?_byKey_beq_self hself key)

/-- The outcome has the keys that the operations were computed with. -/
theorem keyed_replay : keyed (current.applyDiff (diff old new)) =
    patched (diff old new) current := by
  refine keyed_applyDiff hcurrent ?_ hnew ?_
  · rintro ⟨key, statement⟩ member
    rw [mem_patched hcurrent.nodup_keys] at member
    cases hop : (diff old new).get? key with
    | none =>
        rw [hop] at member
        exact hcurrent.fits ((get?_byKey hcurrent.nodup_keys).mp member)
    | some op =>
        have hbetween := (get?_diff old new key).symm.trans hop
        have hpresent := isSome_eq_of_beq (hagree key)
        rw [hop, (DiffOp.after?_of_between? hpresent hbetween).1] at member
        exact hnew.fits ((get?_byKey hnew.nodup_keys).mp member)
  · intro key
    have hafter := isSome_eq_of_beq (after?_diff hself hagree key)
    rw [mem_keys_iff hnew.nodup_keys, ← hafter, Option.isSome_iff_exists, List.mem_map]
    constructor
    · rintro ⟨⟨found, statement⟩, member, rfl⟩
      exact ⟨statement, (mem_patched hcurrent.nodup_keys).mp member⟩
    · rintro ⟨statement, hstatement⟩
      exact ⟨(key, statement), (mem_patched hcurrent.nodup_keys).mpr hstatement, rfl⟩

theorem nodup_keys_replay : (keys (current.applyDiff (diff old new))).Nodup := by
  rw [← keyed_map_fst, keyed_replay hcurrent hnew hself hagree]
  exact nodup_patched hcurrent.nodup_keys _

theorem get?_byKey_replay (key : String) :
    (byKey (current.applyDiff (diff old new))).get? key =
      DiffOp.after? ((diff old new).get? key) ((byKey current).get? key) := by
  ext statement
  rw [get?_byKey (nodup_keys_replay hcurrent hnew hself hagree),
    keyed_replay hcurrent hnew hself hagree, mem_patched hcurrent.nodup_keys]

/-- The outcome agrees with the list that the difference leads to. -/
theorem agree_replay : (current.applyDiff (diff old new)).Agree new := by
  intro key
  rw [get?_byKey_replay hcurrent hnew hself hagree]
  exact after?_diff hself hagree key

theorem wellNumbered_replay : (current.applyDiff (diff old new)).WellNumbered :=
  (agree_replay hcurrent hnew hself hagree).wellNumbered
    (nodup_keys_replay hcurrent hnew hself hagree) hnew

/-- A second application of the difference changes nothing. -/
theorem replay_again : (current.applyDiff (diff old new)).applyDiff (diff old new) =
    current.applyDiff (diff old new) := by
  apply applyDiff_of_done (nodup_keys_replay hcurrent hnew hself hagree)
  intro key op hop
  have hbetween := (get?_diff old new key).symm.trans hop
  obtain ⟨hafter, hvalue⟩ :=
    DiffOp.after?_of_between? (isSome_eq_of_beq (hagree key)) hbetween
  rw [get?_byKey_replay hcurrent hnew hself hagree, hop, hafter, hvalue]

end Replay

end KnowledgeBase.StatementList
