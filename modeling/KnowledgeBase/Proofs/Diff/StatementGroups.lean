import KnowledgeBase.Proofs.Diff.Agreement
import KnowledgeBase.Proofs.Diff.Identified

/-!
The groups of a list: the statements of one base key, in their order. The number in a key is
the place in its group, so a list is known as a map by its keys once its groups are known, and
it does not matter how the groups stand among each other. Differences applied to lists in
different orders leave different lists with equal groups, even where they take numbers out of
the middle of a group: what follows moves up, and it moves up alike on both sides.
-/

namespace KnowledgeBase.StatementList

/-! ## Groups and keys -/

/-- The statements of a list that have one base key. -/
def group (list : StatementList) (base : String) : StatementList :=
  list.filter fun statement => statement.baseKey == base

private theorem base_of_mem_zip {seen : List String} {list : StatementList}
    {place : (String × Nat) × Statement}
    (h : place ∈ (numberAfter seen (list.map Statement.baseKey)).zip list) :
    place.2.baseKey = place.1.1 := by
  induction list generalizing seen with
  | nil => simp [numberAfter] at h
  | cons head rest ih =>
      rw [List.map_cons, numberAfter, List.zip_cons_cons, List.mem_cons] at h
      rcases h with rfl | later
      · rfl
      · exact ih later

/-- The statements of one base are numbered in their order, counted on from the statements
before the list. -/
private theorem filter_zip_numberAfter (seen : List String) (list : StatementList)
    (base : String) :
    ((numberAfter seen (list.map Statement.baseKey)).zip list).filter (·.2.baseKey == base) =
      ((group list base).zipIdx (seen.count base + 1)).map fun place =>
        ((base, place.2), place.1) := by
  induction list generalizing seen with
  | nil => rfl
  | cons head rest ih =>
      rw [List.map_cons, numberAfter, List.zip_cons_cons, List.filter_cons, ih, group, group,
        List.filter_cons]
      by_cases same : head.baseKey = base
      · simp [same]
      · simp [same, List.count_cons_of_ne same]

/-- The statement with a number is the one at that place among those of its base. -/
private theorem mem_zip_slots {list : StatementList} {slot : String × Nat}
    {statement : Statement} :
    (slot, statement) ∈ (slots list).zip list ↔
      0 < slot.2 ∧ (group list slot.1)[slot.2 - 1]? = some statement := by
  have hgroup := filter_zip_numberAfter [] list slot.1
  rw [List.count_nil, Nat.zero_add] at hgroup
  have hplaces : (slot, statement) ∈ (slots list).zip list ↔
      (statement, slot.2) ∈ (group list slot.1).zipIdx 1 := by
    obtain ⟨base, number⟩ := slot
    have hmember : ((base, number), statement) ∈ (slots list).zip list ↔
        ((base, number), statement) ∈
          ((slots list).zip list).filter (·.2.baseKey == base) := by
      rw [List.mem_filter]
      exact ⟨fun h => ⟨h, beq_iff_eq.mpr (base_of_mem_zip h)⟩, And.left⟩
    rw [hmember, slots, hgroup, List.mem_map]
    constructor
    · rintro ⟨place, member, hplace⟩
      cases hplace
      exact member
    · intro member
      exact ⟨_, member, rfl⟩
  rw [hplaces, List.mk_mem_zipIdx_iff_le_and_getElem?_sub]
  rfl

/-- The statements of one base with their keys: the base with the numbers from one on. -/
def numbered (base : String) (group : StatementList) : List (String × Statement) :=
  (group.zipIdx 1).map fun place => (repeatKey base place.2, place.1)

theorem numbered_map_snd (base : String) (group : StatementList) :
    (numbered base group).map (·.2) = group := by
  rw [numbered, List.map_map]
  exact List.zipIdx_map_fst 1 group

private theorem keyed_eq_map_zip (list : StatementList) :
    keyed list = ((slots list).zip list).map fun place => (slotKey place.1, place.2) := by
  rw [keyed, keys_eq_map_slots, List.zip_map_left]
  rfl

theorem filter_keyed (list : StatementList) (base : String) :
    (keyed list).filter (·.2.baseKey == base) = numbered base (group list base) := by
  rw [keyed_eq_map_zip, List.filter_map]
  change (((slots list).zip list).filter (·.2.baseKey == base)).map _ = _
  rw [slots, filter_zip_numberAfter, List.map_map]
  rfl

/-- A key is the one of the place that a statement has in its group. -/
theorem mem_keyed_iff {list : StatementList} {key : String} {statement : Statement} :
    (key, statement) ∈ keyed list ↔ ∃ base place,
      (group list base)[place]? = some statement ∧ key = repeatKey base (place + 1) := by
  rw [keyed_eq_map_zip, List.mem_map]
  constructor
  · rintro ⟨⟨slot, found⟩, member, hentry⟩
    obtain ⟨rfl, rfl⟩ := Prod.mk.inj hentry
    obtain ⟨hpositive, hfound⟩ := mem_zip_slots.mp member
    refine ⟨slot.1, slot.2 - 1, hfound, ?_⟩
    rw [Nat.sub_add_cancel hpositive]
    rfl
  · rintro ⟨base, place, hfound, rfl⟩
    exact ⟨((base, place + 1), statement), mem_zip_slots.mpr ⟨Nat.succ_pos _, hfound⟩, rfl⟩

theorem get?_byKey_repeatKey {list : StatementList} (h : (keys list).Nodup) {base : String}
    {place : Nat} {statement : Statement}
    (hfound : (group list base)[place]? = some statement) :
    (byKey list).get? (repeatKey base (place + 1)) = some statement :=
  (get?_byKey h).mpr (mem_keyed_iff.mpr ⟨base, place, hfound, rfl⟩)

/-- A key leads to the place in the group of its base that its number says. -/
theorem get?_byKey_slotKey {list : StatementList} (h : list.WellKeyed) {slot : String × Nat}
    (hslot : ProperSlot slot) :
    (byKey list).get? (slotKey slot) = (group list slot.1)[slot.2 - 1]? := by
  have hplace (statement : Statement) : (slot, statement) ∈ (slots list).zip list ↔
      (group list slot.1)[slot.2 - 1]? = some statement :=
    mem_zip_slots.trans (and_iff_right hslot.1)
  ext statement
  rw [get?_byKey h.nodup_keys, keyed_eq_map_zip, ← hplace, List.mem_map]
  constructor
  · rintro ⟨⟨found, _⟩, member, hentry⟩
    obtain ⟨hkey, rfl⟩ := Prod.mk.inj hentry
    have hfound : ProperSlot found := h.properSlot (List.of_mem_zip member).1
    rwa [← slotKey_injective hfound hslot hkey]
  · intro member
    exact ⟨(slot, statement), member, rfl⟩

theorem getElem?_beq_of_forall₂ {first second : StatementList}
    (h : List.Forall₂ (fun left right => (left == right) = true) first second) (place : Nat) :
    (first[place]? == second[place]?) = true := by
  induction h generalizing place with
  | nil => rfl
  | cons same _ ih =>
      cases place with
      | zero => exact same
      | succ place => exact ih place

/-- Lists whose groups are equal, statement by statement, agree. -/
theorem agree_of_groups {first second : StatementList} (hfirst : (keys first).Nodup)
    (hsecond : (keys second).Nodup)
    (h : ∀ base, List.Forall₂ (fun left right => (left == right) = true) (group first base)
      (group second base)) : first.Agree second := by
  intro key
  cases hleft : (byKey first).get? key with
  | some statement =>
      obtain ⟨base, place, hplace, rfl⟩ := mem_keyed_iff.mp ((get?_byKey hfirst).mp hleft)
      have hsame := getElem?_beq_of_forall₂ (h base) place
      cases hother : (group second base)[place]? with
      | none =>
          rw [hplace, hother] at hsame
          cases hsame
      | some other =>
          rw [get?_byKey_repeatKey hsecond hother]
          rwa [hplace, hother] at hsame
  | none =>
      cases hright : (byKey second).get? key with
      | none => rfl
      | some statement =>
          obtain ⟨base, place, hplace, rfl⟩ := mem_keyed_iff.mp ((get?_byKey hsecond).mp hright)
          have hsame := getElem?_beq_of_forall₂ (h base) place
          cases hother : (group first base)[place]? with
          | none =>
              rw [hplace, hother] at hsame
              cases hsame
          | some other => cases hleft.symm.trans (get?_byKey_repeatKey hfirst hother)

/-! ## Arranged entries -/

/-- Whether a statement can have a key in a well-kept list. -/
structure Suits (key : String) (statement : Statement) : Prop where
  fits : Fits key statement
  plain : ∀ guid, statement.guid? = some guid → ¬looksHashed guid

theorem WellNumbered.suits {list : StatementList} (h : list.WellNumbered) {key : String}
    {statement : Statement} (hfound : (byKey list).get? key = some statement) :
    Suits key statement where
  fits := h.fits ((get?_byKey h.nodup_keys).mp hfound)
  plain guid hguid := h.plain guid
    (List.mem_filterMap.mpr ⟨statement, mem_of_get?_byKey hfound, hguid⟩)

/-- Entries that may be the statements of a list with keys they had before: each suits its
key, and along the entries the numbers of one base grow. Numbers may be left out. -/
structure Arranged (entries : List (String × Statement)) : Prop where
  suits : ∀ entry ∈ entries, Suits entry.1 entry.2
  growing : (entries.map fun entry => splitRepeat entry.1).Pairwise
    fun first second => first.1 = second.1 → first.2 < second.2

/-- The keys of one base, in the order of the entries. -/
private def keysOf (entries : List (String × Statement)) (base : String) : List String :=
  (entries.filter fun entry => (splitRepeat entry.1).1 == base).map (·.1)

namespace Arranged

variable {entries : List (String × Statement)} (h : Arranged entries)
include h

private theorem number_of_guid {entry : String × Statement} (member : entry ∈ entries)
    {guid : String} (hguid : entry.2.guid? = some guid) : splitRepeat entry.1 = (guid, 1) := by
  obtain ⟨⟨number, hsmall, hproper, hkey⟩, hplain⟩ := h.suits entry member
  have hbase := Statement.baseKey_of_guid_some hguid
  rw [hkey, splitRepeat_slotKey hproper hsmall]
  rw [hbase] at hproper ⊢
  obtain ⟨-, ⟨hmark, -⟩ | ⟨-, hone⟩⟩ := hproper
  · exact absurd hmark (hplain guid hguid)
  · exact Prod.ext rfl hone

/-- No identifier is twice among arranged entries, since it has one number only. -/
theorem wellKeyed : WellKeyed (entries.map (·.2)) := by
  have hguids : guids (entries.map (·.2)) = entries.filterMap fun entry => entry.2.guid? := by
    rw [guids, List.filterMap_map]
    rfl
  constructor
  · rw [hguids, List.Nodup, List.pairwise_filterMap]
    refine (List.pairwise_map.mp h.growing).imp_of_mem ?_
    rintro first second hfirst hsecond hgrow guid hguid other hother rfl
    rw [h.number_of_guid hfirst hguid, h.number_of_guid hsecond hother] at hgrow
    exact absurd (hgrow rfl) (lt_irrefl 1)
  · intro guid member
    rw [hguids] at member
    obtain ⟨entry, hentry, hguid⟩ := List.mem_filterMap.mp member
    exact (h.suits entry hentry).plain guid hguid

private theorem growing_keysOf (base : String) :
    (keysOf entries base).Pairwise fun first second =>
      (splitRepeat first).2 < (splitRepeat second).2 := by
  rw [keysOf, List.pairwise_map]
  refine ((List.pairwise_map.mp h.growing).filter _).imp_of_mem ?_
  intro first second hfirst hsecond hgrow
  have hbase := beq_iff_eq.mp (List.mem_filter.mp hfirst).2
  have hbase' := beq_iff_eq.mp (List.mem_filter.mp hsecond).2
  exact hgrow (hbase.trans hbase'.symm)

private theorem group_eq {value : String → Option Statement}
    (hvalue : ∀ key statement, (key, statement) ∈ entries ↔ value key = some statement)
    (base : String) :
    group (entries.map (·.2)) base = (keysOf entries base).filterMap value := by
  have hbase : entries.filter (fun entry => entry.2.baseKey == base) =
      entries.filter fun entry => (splitRepeat entry.1).1 == base := by
    apply List.filter_congr
    intro entry member
    rw [(h.suits entry member).fits.splitRepeat_eq.1]
  calc group (entries.map (·.2)) base
      = (entries.filter fun entry => entry.2.baseKey == base).map (·.2) := by
        rw [group, List.filter_map]
        rfl
    _ = (entries.filter fun entry => (splitRepeat entry.1).1 == base).filterMap
          fun entry => value entry.1 := by
        rw [hbase, ← List.filterMap_eq_map]
        apply List.filterMap_congr
        intro entry member
        exact ((hvalue entry.1 entry.2).mp (List.mem_filter.mp member).1).symm
    _ = (keysOf entries base).filterMap value := by
        rw [keysOf, List.filterMap_map]
        rfl

end Arranged

/-- Arranged entries with equal statements under each key make lists that agree. -/
theorem agree_of_arranged {first second : List (String × Statement)}
    {value value' : String → Option Statement} (hfirst : Arranged first)
    (hsecond : Arranged second)
    (hvalue : ∀ key statement, (key, statement) ∈ first ↔ value key = some statement)
    (hvalue' : ∀ key statement, (key, statement) ∈ second ↔ value' key = some statement)
    (same : ∀ key, (value key == value' key) = true) :
    Agree (first.map (·.2)) (second.map (·.2)) := by
  have hmember {entries : List (String × Statement)} {value : String → Option Statement}
      (hvalue : ∀ key statement, (key, statement) ∈ entries ↔ value key = some statement)
      (base key : String) : key ∈ keysOf entries base ↔
        (splitRepeat key).1 = base ∧ (value key).isSome := by
    simp only [keysOf, List.mem_map, List.mem_filter, beq_iff_eq, Option.isSome_iff_exists]
    constructor
    · rintro ⟨⟨found, statement⟩, ⟨hentry, hbase⟩, rfl⟩
      exact ⟨hbase, statement, (hvalue _ _).mp hentry⟩
    · rintro ⟨hbase, statement, hstatement⟩
      exact ⟨(key, statement), ⟨(hvalue _ _).mpr hstatement, hbase⟩, rfl⟩
  apply agree_of_groups hfirst.wellKeyed.nodup_keys hsecond.wellKeyed.nodup_keys
  intro base
  have hirrefl : Std.Irrefl fun left right : String =>
      (splitRepeat left).2 < (splitRepeat right).2 := ⟨fun key => lt_irrefl _⟩
  have htrans : IsTrans String fun left right =>
      (splitRepeat left).2 < (splitRepeat right).2 := ⟨fun _ _ _ => lt_trans⟩
  have hkeys : keysOf first base = keysOf second base := by
    apply (hfirst.growing_keysOf base).eq_of_mem_iff (hsecond.growing_keysOf base)
    intro key
    rw [hmember hvalue, hmember hvalue', isSome_eq_of_beq (same key)]
  rw [hfirst.group_eq hvalue, hsecond.group_eq hvalue', hkeys]
  exact forall₂_filterMap same _

/-! ## Outcomes of differences -/

/-- The new values of a computed difference suit their keys. -/
theorem newAll_diff (old : StatementList) {new : StatementList} (hnew : new.WellNumbered) :
    (diff old new).NewAll Suits := by
  intro key op statement hop hstatement
  have hbetween := (get?_diff old new key).symm.trans hop
  rw [(DiffOp.after?_of_between? rfl hbetween).2] at hstatement
  exact hnew.suits hstatement

theorem arranged_patched {ops : MapDiff Statement} {list : StatementList}
    (hlist : list.WellNumbered) (hops : ops.NewAll Suits) : Arranged (patched ops list) := by
  have hsuits : ∀ entry ∈ patched ops list, Suits entry.1 entry.2 := by
    rintro ⟨key, statement⟩ member
    rcases DiffOp.eq_some_of_after? ((mem_patched hlist.nodup_keys).mp member) with
      hkept | ⟨op, hop, hnew⟩
    · exact hlist.suits hkept
    · exact hops key op statement hop hnew
  exact ⟨hsuits, growing_patched hlist fun entry member => (hsuits entry member).fits⟩

theorem wellKeyed_applyDiff {ops : MapDiff Statement} {list : StatementList}
    (hlist : list.WellNumbered) (hops : ops.NewAll Suits) :
    (list.applyDiff ops).WellKeyed := by
  rw [applyDiff_eq hlist.nodup_keys]
  exact (arranged_patched hlist hops).wellKeyed

/-- Applications that make equal statements of each key lead to lists that agree, whatever
the keys are numbered anew. -/
theorem agree_applyDiff {ops ops' : MapDiff Statement} {list list' : StatementList}
    (hlist : list.WellNumbered) (hlist' : list'.WellNumbered) (hops : ops.NewAll Suits)
    (hops' : ops'.NewAll Suits)
    (same : ∀ key, (DiffOp.after? (ops.get? key) ((byKey list).get? key) ==
      DiffOp.after? (ops'.get? key) ((byKey list').get? key)) = true) :
    (list.applyDiff ops).Agree (list'.applyDiff ops') := by
  rw [applyDiff_eq hlist.nodup_keys, applyDiff_eq hlist'.nodup_keys]
  refine agree_of_arranged (arranged_patched hlist hops) (arranged_patched hlist' hops') ?_ ?_
    same
  · intro key statement
    exact mem_patched hlist.nodup_keys
  · intro key statement
    exact mem_patched hlist'.nodup_keys

end KnowledgeBase.StatementList
