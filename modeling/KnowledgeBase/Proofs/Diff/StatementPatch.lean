import KnowledgeBase.Proofs.Diff.Map
import KnowledgeBase.Proofs.Diff.StatementKeys
import Mathlib.Data.Prod.Lex

/-!
Applying a difference to a statement list. The outcome is described with the keys that the
statements had or were given: each key holds the effect of its operation, once. These are
also the keys of the outcome itself if its statements still fit them and no number of a base
is left out, which is so when the keys are those of a well-kept list.
-/

namespace KnowledgeBase.StatementList

/-- A list as a map from the keys of its statements. -/
def byKey (list : StatementList) : SortedMap String Statement := .ofList (keyed list)

theorem get?_byKey {list : StatementList} (h : (keys list).Nodup) {key : String}
    {statement : Statement} :
    (byKey list).get? key = some statement ↔ (key, statement) ∈ keyed list :=
  SortedMap.get?_ofList_eq_some_iff (by rwa [keyed_map_fst])

theorem mem_keys_iff {list : StatementList} (h : (keys list).Nodup) {key : String} :
    key ∈ keys list ↔ ((byKey list).get? key).isSome := by
  rw [Option.isSome_iff_exists, ← keyed_map_fst, List.mem_map]
  constructor
  · rintro ⟨⟨found, statement⟩, member, rfl⟩
    exact ⟨statement, (get?_byKey h).mpr member⟩
  · rintro ⟨statement, hstatement⟩
    exact ⟨(key, statement), (get?_byKey h).mp hstatement, rfl⟩

/-- The statements under the keys of a list are statements of the list, also where one key
is that of several. -/
theorem mem_of_get?_byKey {list : StatementList} {key : String} {statement : Statement}
    (h : (byKey list).get? key = some statement) : statement ∈ list :=
  (slot_of_mem_keyed (SortedMap.mem_of_get?_ofList h)).1

theorem get?_byKey_beq_self {list : StatementList}
    (h : ∀ statement ∈ list, statement.NaNFree) (key : String) :
    ((byKey list).get? key == (byKey list).get? key) = true := by
  cases hfound : (byKey list).get? key with
  | none => rfl
  | some statement => exact (h statement (mem_of_get?_byKey hfound)).beq_self

theorem get?_diff (old new : StatementList) (key : String) :
    (diff old new).get? key =
      DiffOp.between? ((byKey old).get? key) ((byKey new).get? key) :=
  MapDiff.get?_between _ _ key

/-! ## The outcome with its keys -/

/-- What is left of the statements of a list after operations, with their keys. -/
def kept (ops : MapDiff Statement) (list : StatementList) : List (String × Statement) :=
  (keyed list).filterMap fun entry =>
    (DiffOp.after? (ops.get? entry.1) (some entry.2)).map fun statement => (entry.1, statement)

/-- What operations add to a list, with its keys. -/
def appended (ops : MapDiff Statement) (list : StatementList) : List (String × Statement) :=
  (absentNew ops (keys list)).mergeSort fun first second =>
    repeatOrder (splitRepeat first.1) (splitRepeat second.1)

def patched (ops : MapDiff Statement) (list : StatementList) : List (String × Statement) :=
  kept ops list ++ appended ops list

private theorem patchPresent_eq (ops : MapDiff Statement) {pairs : List (String × Statement)}
    (h : (pairs.map (·.1)).Nodup) :
    patchPresent ops pairs =
      (pairs.filterMap fun entry =>
        (DiffOp.after? (ops.get? entry.1) (some entry.2)).map
          fun statement => (entry.1, statement)).map (·.2) := by
  induction pairs with
  | nil => rfl
  | cons head rest ih =>
      obtain ⟨key, statement⟩ := head
      rw [List.map_cons, List.nodup_cons] at h
      have hfresh : rest.any (·.1 == key) = false := by
        rw [Bool.eq_false_iff]
        intro hany
        obtain ⟨entry, member, hkey⟩ := List.any_eq_true.mp hany
        exact h.1 (List.mem_map.mpr ⟨entry, member, beq_iff_eq.mp hkey⟩)
      have hrest := ih h.2
      cases hop : ops.get? key with
      | none => simp [patchPresent, hop, hrest, DiffOp.after?]
      | some op =>
          have hone : patchOne op statement = DiffOp.after? (some op) (some statement) := by
            cases op <;> rfl
          simp only [patchPresent, hop, hfresh, hrest, hone, List.filterMap_cons]
          cases DiffOp.after? (some op) (some statement) <;> simp

theorem applyDiff_eq {list : StatementList} (h : (keys list).Nodup)
    (ops : MapDiff Statement) : list.applyDiff ops = (patched ops list).map (·.2) := by
  rw [patched, List.map_append, kept, ← patchPresent_eq ops (by rwa [keyed_map_fst])]
  rfl

theorem mem_kept {ops : MapDiff Statement} {list : StatementList} {key : String}
    {statement : Statement} (h : (keys list).Nodup) :
    (key, statement) ∈ kept ops list ↔
      key ∈ keys list ∧
        DiffOp.after? (ops.get? key) ((byKey list).get? key) = some statement := by
  simp only [kept, List.mem_filterMap, Option.map_eq_some_iff, Prod.mk.injEq]
  constructor
  · rintro ⟨⟨found, before⟩, member, after, hafter, rfl, rfl⟩
    have hbefore := (get?_byKey h).mpr member
    rw [mem_keys_iff h, hbefore]
    exact ⟨rfl, hafter⟩
  · rintro ⟨member, hafter⟩
    rw [mem_keys_iff h, Option.isSome_iff_exists] at member
    obtain ⟨before, hbefore⟩ := member
    rw [hbefore] at hafter
    exact ⟨(key, before), (get?_byKey h).mp hbefore, statement, hafter, rfl, rfl⟩

theorem mem_appended {ops : MapDiff Statement} {list : StatementList} {key : String}
    {statement : Statement} (h : (keys list).Nodup) :
    (key, statement) ∈ appended ops list ↔
      key ∉ keys list ∧
        DiffOp.after? (ops.get? key) ((byKey list).get? key) = some statement := by
  rw [appended, List.mem_mergeSort, absentNew, List.mem_filterMap]
  constructor
  · rintro ⟨⟨found, op⟩, member, hnew⟩
    have hop := SortedMap.get?_eq_some_iff.mpr member
    by_cases present : found ∈ keys list
    · simp [present] at hnew
    · obtain ⟨after, hafter, hentry⟩ : ∃ after, op.new? = some after ∧
          (found, after) = (key, statement) := by simpa [present] using hnew
      cases hentry
      have habsent : (byKey list).get? key = none := by
        rwa [mem_keys_iff h, Option.not_isSome_iff_eq_none] at present
      rw [hop, habsent, DiffOp.after?_some_none]
      exact ⟨present, hafter⟩
  · rintro ⟨absent, hafter⟩
    have hnone : (byKey list).get? key = none := by
      rwa [mem_keys_iff h, Option.not_isSome_iff_eq_none] at absent
    cases hop : ops.get? key with
    | none =>
        rw [hop, hnone] at hafter
        cases hafter
    | some op =>
        rw [hop, hnone, DiffOp.after?_some_none] at hafter
        exact ⟨(key, op), SortedMap.get?_eq_some_iff.mp hop, by simp [absent, hafter]⟩

/-- Each key holds what its operation makes of the statement that had it. -/
theorem mem_patched {ops : MapDiff Statement} {list : StatementList} {key : String}
    {statement : Statement} (h : (keys list).Nodup) :
    (key, statement) ∈ patched ops list ↔
      DiffOp.after? (ops.get? key) ((byKey list).get? key) = some statement := by
  rw [patched, List.mem_append, mem_kept h, mem_appended h, ← or_and_right]
  simp [em]

private theorem map_fst_filterMap_sublist {β γ : Type}
    {f : String × β → Option (String × γ)}
    (h : ∀ entry outcome, f entry = some outcome → outcome.1 = entry.1)
    (pairs : List (String × β)) :
    ((pairs.filterMap f).map (·.1)).Sublist (pairs.map (·.1)) := by
  induction pairs with
  | nil => exact .slnil
  | cons head rest ih =>
      rw [List.filterMap_cons]
      cases houtcome : f head with
      | none => exact ih.cons _
      | some outcome =>
          rw [List.map_cons, List.map_cons, h head outcome houtcome]
          exact ih.cons_cons _

theorem kept_map_fst_sublist (ops : MapDiff Statement) (list : StatementList) :
    ((kept ops list).map (·.1)).Sublist (keys list) := by
  rw [← keyed_map_fst]
  refine map_fst_filterMap_sublist ?_ (keyed list)
  intro entry outcome houtcome
  obtain ⟨statement, -, rfl⟩ := Option.map_eq_some_iff.mp houtcome
  rfl

private theorem nodup_appended (ops : MapDiff Statement) (list : StatementList) :
    ((appended ops list).map (·.1)).Nodup := by
  have hsublist : ((absentNew ops (keys list)).map (·.1)).Sublist (ops.toList.map (·.1)) := by
    refine map_fst_filterMap_sublist ?_ ops.toList
    rintro ⟨key, op⟩ outcome houtcome
    by_cases present : key ∈ keys list
    · simp [present] at houtcome
    · obtain ⟨new, -, rfl⟩ : ∃ new, op.new? = some new ∧ (key, new) = outcome := by
        simpa [present] using houtcome
      rfl
  have hperm := (List.mergeSort_perm (absentNew ops (keys list)) fun first second =>
    repeatOrder (splitRepeat first.1) (splitRepeat second.1)).map (·.1)
  exact hperm.nodup_iff.mpr (hsublist.nodup (SortedMap.nodup_keys ops))

/-- No key of the outcome is repeated. -/
theorem nodup_patched {list : StatementList} (h : (keys list).Nodup)
    (ops : MapDiff Statement) : ((patched ops list).map (·.1)).Nodup := by
  rw [patched, List.map_append, List.nodup_append]
  refine ⟨(kept_map_fst_sublist ops list).nodup h, nodup_appended ops list, ?_⟩
  rintro key hkept other hother rfl
  obtain ⟨⟨found, statement⟩, member, rfl⟩ := List.mem_map.mp hother
  exact ((mem_appended h).mp member).1 ((kept_map_fst_sublist ops list).subset hkept)

/-! ## The keys of the outcome -/

/-- Whether a statement can have a key in a list whose places fit a machine word. -/
def Fits (key : String) (statement : Statement) : Prop :=
  ∃ number, number < UInt64.size ∧ ProperSlot (statement.baseKey, number) ∧
    key = slotKey (statement.baseKey, number)

theorem Fits.splitRepeat_eq {key : String} {statement : Statement} (h : Fits key statement) :
    (splitRepeat key).1 = statement.baseKey ∧ 0 < (splitRepeat key).2 ∧
      slotKey (splitRepeat key) = key := by
  obtain ⟨number, hsmall, hproper, rfl⟩ := h
  rw [splitRepeat_slotKey hproper hsmall]
  exact ⟨rfl, hproper.1, rfl⟩

/-- A well-kept list with so few statements that every number in a key can be read back. -/
structure WellNumbered (list : StatementList) : Prop extends list.WellKeyed where
  short : list.length < UInt64.size

namespace WellNumbered

variable {list : StatementList} (h : list.WellNumbered)
include h

theorem number_lt {slot : String × Nat} (hslot : slot ∈ slots list) :
    slot.2 < UInt64.size := by
  have hcount := number_le_count hslot
  have hlength : (list.map Statement.baseKey).count slot.1 ≤ list.length := by
    simpa using List.count_le_length (a := slot.1) (l := list.map Statement.baseKey)
  simp only [List.count_nil, Nat.zero_add] at hcount
  exact (hcount.trans hlength).trans_lt h.short

theorem splitRepeat_slotKey_of_mem {slot : String × Nat} (hslot : slot ∈ slots list) :
    splitRepeat (slotKey slot) = slot :=
  splitRepeat_slotKey (h.properSlot hslot) (h.number_lt hslot)

theorem fits {key : String} {statement : Statement} (hmember : (key, statement) ∈ keyed list) :
    Fits key statement := by
  obtain ⟨-, number, hslot, hkey⟩ := slot_of_mem_keyed hmember
  exact ⟨number, h.number_lt hslot, h.properSlot hslot, hkey⟩

theorem map_splitRepeat_keys : (keys list).map splitRepeat = slots list := by
  rw [keys_eq_map_slots, List.map_map]
  conv_rhs => rw [← List.map_id (slots list)]
  exact List.map_congr_left fun slot hslot => h.splitRepeat_slotKey_of_mem hslot

theorem mem_keys_iff_splitRepeat {key : String} (hkey : slotKey (splitRepeat key) = key) :
    key ∈ keys list ↔ splitRepeat key ∈ slots list := by
  constructor
  · intro member
    rw [← h.map_splitRepeat_keys]
    exact List.mem_map_of_mem member
  · intro member
    rw [keys_eq_map_slots, ← hkey]
    exact List.mem_map_of_mem member

end WellNumbered

theorem repeatOrder_iff {first second : String × Nat} :
    repeatOrder first second = true ↔ toLex first ≤ toLex second := by
  simp [repeatOrder, Prod.Lex.toLex_le_toLex]

/-- What is added is in the order of repeats. -/
theorem sorted_appended (ops : MapDiff Statement) (list : StatementList) :
    (appended ops list).Pairwise fun first second =>
      toLex (splitRepeat first.1) ≤ toLex (splitRepeat second.1) := by
  simp only [← repeatOrder_iff]
  unfold appended
  apply List.pairwise_mergeSort
  · intro first second third h h'
    rw [repeatOrder_iff] at h h' ⊢
    exact h.trans h'
  · intro first second
    rw [Bool.or_eq_true, repeatOrder_iff, repeatOrder_iff]
    exact le_total _ _

private theorem growing_appended {ops : MapDiff Statement} {list : StatementList}
    (hfits : ∀ entry ∈ appended ops list, Fits entry.1 entry.2) :
    ((appended ops list).map fun entry => splitRepeat entry.1).Pairwise
      fun first second => first.1 = second.1 → first.2 < second.2 := by
  rw [List.pairwise_map]
  have hdistinct : (appended ops list).Pairwise fun first second => first.1 ≠ second.1 :=
    List.pairwise_map.mp (nodup_appended ops list)
  refine ((sorted_appended ops list).and hdistinct).imp_of_mem ?_
  rintro first second hfirst hsecond ⟨horder, hother⟩ same
  rcases Prod.Lex.toLex_le_toLex.mp horder with before | ⟨-, hle⟩
  · exact absurd same before.ne
  · refine lt_of_le_of_ne hle fun hnumber => hother ?_
    rw [← (hfits first hfirst).splitRepeat_eq.2.2, ← (hfits second hsecond).splitRepeat_eq.2.2,
      Prod.ext same hnumber]

/-- An outcome whose numbers run without gap has the keys that its statements had or were
given. -/
theorem keys_applyDiff_of_numbered {ops : MapDiff Statement} {list : StatementList}
    (h : (keys list).Nodup) (hfits : ∀ entry ∈ patched ops list, Fits entry.1 entry.2)
    (hnumbered : Numbered [] ((patched ops list).map fun entry => splitRepeat entry.1)) :
    keys (list.applyDiff ops) = (patched ops list).map (·.1) := by
  have hbases : ((patched ops list).map (·.2)).map Statement.baseKey =
      ((patched ops list).map fun entry => splitRepeat entry.1).map (·.1) := by
    rw [List.map_map, List.map_map]
    exact List.map_congr_left fun entry member =>
      (hfits entry member).splitRepeat_eq.1.symm
  rw [applyDiff_eq h, keys_eq_map_slots, slots, hbases, hnumbered.numberAfter_eq, List.map_map]
  exact List.map_congr_left fun entry member => (hfits entry member).splitRepeat_eq.2.2

/-- Then each key of the outcome leads to what its operation made of its statement. -/
theorem keyed_applyDiff_of_keys {ops : MapDiff Statement} {list : StatementList}
    (h : (keys list).Nodup)
    (hkeys : keys (list.applyDiff ops) = (patched ops list).map (·.1)) :
    keyed (list.applyDiff ops) = patched ops list := by
  rw [keyed, hkeys, applyDiff_eq h, List.zip_map']
  exact List.map_id _

section Outcome

variable {ops : MapDiff Statement} {list target : StatementList} (hlist : list.WellNumbered)
  (hfits : ∀ entry ∈ patched ops list, Fits entry.1 entry.2)
include hlist hfits

/-- What is added has a greater number than what is kept of the same base, since the list
has every number up to a kept one. -/
private theorem kept_lt_appended {old new : String × Statement} (hold : old ∈ kept ops list)
    (hnew : new ∈ appended ops list)
    (same : (splitRepeat old.1).1 = (splitRepeat new.1).1) :
    (splitRepeat old.1).2 < (splitRepeat new.1).2 := by
  have holdKey := (hfits old (List.mem_append_left _ hold)).splitRepeat_eq.2.2
  have hnewKey := (hfits new (List.mem_append_right _ hnew)).splitRepeat_eq
  have hslot : splitRepeat old.1 ∈ slots list :=
    (hlist.mem_keys_iff_splitRepeat holdKey).mp ((mem_kept hlist.nodup_keys).mp hold).1
  by_contra hbelow
  have hgapless := (numbered_slots list).gapless _ hslot (splitRepeat new.1).2
    (by simpa using hnewKey.2.1) (Nat.le_of_not_lt hbelow)
  rw [same] at hgapless
  exact ((mem_appended hlist.nodup_keys).mp hnew).1
    ((hlist.mem_keys_iff_splitRepeat hnewKey.2.2).mpr hgapless)

/-- Along the outcome the numbers of one base grow. -/
theorem growing_patched :
    ((patched ops list).map fun entry => splitRepeat entry.1).Pairwise
      fun first second => first.1 = second.1 → first.2 < second.2 := by
  rw [patched, List.map_append, List.pairwise_append]
  refine ⟨?_, ?_, ?_⟩
  · have hsublist := (kept_map_fst_sublist ops list).map splitRepeat
    rw [hlist.map_splitRepeat_keys, List.map_map] at hsublist
    exact (numbered_slots list).growing.sublist hsublist
  · exact growing_appended fun entry member => hfits entry (List.mem_append_right _ member)
  · intro first hfirst second hsecond
    obtain ⟨old, hold, rfl⟩ := List.mem_map.mp hfirst
    obtain ⟨new, hnew, rfl⟩ := List.mem_map.mp hsecond
    exact kept_lt_appended hlist hfits hold hnew

variable (htarget : target.WellNumbered)
  (hkeys : ∀ key, key ∈ (patched ops list).map (·.1) ↔ key ∈ keys target)
include htarget hkeys

omit hlist in
private theorem gapless_patched {entry : String × Statement} (member : entry ∈ patched ops list)
    {number : Nat} (hlow : 0 < number) (hhigh : number ≤ (splitRepeat entry.1).2) :
    ((splitRepeat entry.1).1, number) ∈
      (patched ops list).map fun entry => splitRepeat entry.1 := by
  have hentry := (hfits entry member).splitRepeat_eq
  have htargetSlot : splitRepeat entry.1 ∈ slots target :=
    (htarget.mem_keys_iff_splitRepeat hentry.2.2).mp
      ((hkeys entry.1).mp (List.mem_map_of_mem member))
  have hfound : ((splitRepeat entry.1).1, number) ∈ slots target :=
    (numbered_slots target).gapless _ htargetSlot number (by simpa using hlow) hhigh
  have hpresent : slotKey ((splitRepeat entry.1).1, number) ∈
      (patched ops list).map (·.1) := by
    rw [hkeys, keys_eq_map_slots]
    exact List.mem_map_of_mem hfound
  obtain ⟨source, hsource, hkey⟩ := List.mem_map.mp hpresent
  refine List.mem_map.mpr ⟨source, hsource, ?_⟩
  rw [hkey, htarget.splitRepeat_slotKey_of_mem hfound]

private theorem numbered_patched :
    Numbered [] ((patched ops list).map fun entry => splitRepeat entry.1) := by
  refine ⟨growing_patched hlist hfits, ?_, ?_⟩
  · intro slot hslot
    obtain ⟨entry, member, rfl⟩ := List.mem_map.mp hslot
    simpa using (hfits entry member).splitRepeat_eq.2.1
  · intro slot hslot number hlow hhigh
    obtain ⟨entry, member, rfl⟩ := List.mem_map.mp hslot
    exact gapless_patched hfits htarget hkeys member (by simpa using hlow) hhigh

/-- If the outcome's statements fit its keys, and these are the keys of a well-kept list,
then they are the keys that the outcome has as a list. -/
theorem keys_applyDiff : keys (list.applyDiff ops) = (patched ops list).map (·.1) :=
  keys_applyDiff_of_numbered hlist.nodup_keys hfits
    (numbered_patched hlist hfits htarget hkeys)

theorem keyed_applyDiff : keyed (list.applyDiff ops) = patched ops list :=
  keyed_applyDiff_of_keys hlist.nodup_keys (keys_applyDiff hlist hfits htarget hkeys)

end Outcome

/-! ## Operations that are done already -/

/-- Operations that leave the statement of every key as it is leave a list as it is. -/
theorem applyDiff_of_settled {ops : MapDiff Statement} {list : StatementList}
    (h : (keys list).Nodup)
    (hsettled : ∀ key, DiffOp.after? (ops.get? key) ((byKey list).get? key) =
      (byKey list).get? key) :
    list.applyDiff ops = list := by
  have hkept : kept ops list = keyed list := by
    unfold kept
    conv_rhs => rw [← List.filterMap_some (l := keyed list)]
    refine List.filterMap_congr fun entry member => ?_
    have hstatement : (byKey list).get? entry.1 = some entry.2 := (get?_byKey h).mpr member
    rw [← hstatement, hsettled, hstatement, Option.map_some]
  have happended : appended ops list = [] := by
    rw [List.eq_nil_iff_forall_not_mem]
    rintro ⟨key, statement⟩ member
    obtain ⟨absent, hafter⟩ := (mem_appended h).mp member
    rw [mem_keys_iff h, Option.not_isSome_iff_eq_none] at absent
    rw [hsettled, absent] at hafter
    cases hafter
  rw [applyDiff_eq h, patched, hkept, happended, List.append_nil, keyed_map_snd]

/-- Operations whose outcomes a list has already leave it as it is. -/
theorem applyDiff_of_done {ops : MapDiff Statement} {list : StatementList}
    (h : (keys list).Nodup)
    (hdone : ∀ key op, ops.get? key = some op → (byKey list).get? key = op.new?) :
    list.applyDiff ops = list := by
  refine applyDiff_of_settled h fun key => ?_
  cases hop : ops.get? key with
  | none => rfl
  | some op => rw [hdone key op hop, DiffOp.after?_new?]

end KnowledgeBase.StatementList
