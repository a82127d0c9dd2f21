import KnowledgeBase.ArrayForm.Entity
import KnowledgeBase.Proofs.Diff.StatementPatch
import KnowledgeBase.Proofs.Entity

/-!
When statements of one list share a key. The key of a repeat is its base with a number after
a number sign, and an identifier may be any text, so an identifier can be the key of a repeat.
There is no other way: keys of repeats differ, and bases made from hashes have no number sign.
A list that is read from an array form is not kept from it. Without a shared key a difference
has the operation of every statement; with one it has only that of the last statement.
-/

namespace KnowledgeBase.StatementList

/-! ## Slots of a list -/

private theorem mem_numberAfter_iff {seen bases : List String} {base : String} {number : Nat} :
    (base, number) ∈ numberAfter seen bases ↔
      seen.count base < number ∧ number ≤ seen.count base + bases.count base := by
  induction bases generalizing seen with
  | nil =>
      simp only [numberAfter, List.not_mem_nil, List.count_nil, false_iff]
      omega
  | cons first rest ih =>
      rw [numberAfter, List.mem_cons, ih, Prod.mk.injEq]
      by_cases same : base = first
      · subst same
        simp only [true_and, List.count_cons_self]
        omega
      · rw [List.count_cons_of_ne (Ne.symm same), List.count_cons_of_ne (Ne.symm same)]
        simp [same]

/-- The statements of one base have the numbers from one up to how many they are. -/
theorem mem_slots_iff {list : StatementList} {base : String} {number : Nat} :
    (base, number) ∈ slots list ↔
      0 < number ∧ number ≤ (list.map Statement.baseKey).count base := by
  rw [slots, mem_numberAfter_iff, List.count_nil, Nat.zero_add]

private theorem mem_guids_of_number_sign {list : StatementList} {base : String}
    (hbase : base ∈ list.map Statement.baseKey) (hsign : '#' ∈ base.toList) :
    base ∈ list.guids := by
  obtain ⟨statement, member, rfl⟩ := List.mem_map.mp hbase
  cases hguid : statement.guid? with
  | none => exact absurd hsign (Statement.baseKey_of_guid_none hguid).2
  | some guid =>
      rw [Statement.baseKey_of_guid_some hguid]
      exact List.mem_filterMap.mpr ⟨statement, member, hguid⟩

/-! ## Shared keys -/

/-- Whether an identifier of a list is the key of a statement that repeats another base. -/
def Collides (list : StatementList) : Prop :=
  ∃ guid ∈ list.guids, ∃ base number, 1 < number ∧
    number ≤ (list.map Statement.baseKey).count base ∧ guid = repeatKey base number

/-- A first statement with the key of a repeat is a collision. -/
private theorem collides_of_slotKey_eq {list : StatementList} {first second : String × Nat}
    (hfirst : first ∈ slots list) (hsecond : second ∈ slots list) (hone : first.2 = 1)
    (hrepeat : second.2 ≠ 1) (same : slotKey first = slotKey second) : list.Collides := by
  obtain ⟨guid, number⟩ := first
  obtain ⟨base, number'⟩ := second
  simp only at hone hrepeat
  subst hone
  have hkey : guid = repeatKey base number' := same
  have hsign : '#' ∈ guid.toList := by
    rw [hkey, repeatKey, if_neg hrepeat]
    simp
  have hbase : guid ∈ list.map Statement.baseKey :=
    List.count_pos_iff.mp (mem_slots_iff.mp hfirst).2
  obtain ⟨hpositive, hcount⟩ := mem_slots_iff.mp hsecond
  exact ⟨guid, mem_guids_of_number_sign hbase hsign, base, number', by omega, hcount, hkey⟩

private theorem slotKey_injOn {list : StatementList} (h : ¬list.Collides)
    {first second : String × Nat} (hfirst : first ∈ slots list) (hsecond : second ∈ slots list)
    (same : slotKey first = slotKey second) : first = second := by
  by_cases hone : first.2 = 1
  · by_cases hone' : second.2 = 1
    · refine Prod.ext ?_ (hone.trans hone'.symm)
      simpa [slotKey, repeatKey, hone, hone'] using same
    · exact absurd (collides_of_slotKey_eq hfirst hsecond hone hone' same) h
  · by_cases hone' : second.2 = 1
    · exact absurd (collides_of_slotKey_eq hsecond hfirst hone' hone same.symm) h
    · exact slotKey_injective_of_repeats hone hone' same

/-- A collision is two places of the list with one key. -/
private theorem not_nodup_keys_of_collides {list : StatementList} (h : list.Collides) :
    ¬(keys list).Nodup := by
  obtain ⟨guid, hguid, base, number, hrepeat, hcount, hkey⟩ := h
  obtain ⟨statement, member, hstatement⟩ := List.mem_filterMap.mp hguid
  have hbase : guid ∈ list.map Statement.baseKey := by
    rw [← Statement.baseKey_of_guid_some hstatement]
    exact List.mem_map_of_mem member
  have hfirst : (guid, 1) ∈ slots list :=
    mem_slots_iff.mpr ⟨Nat.one_pos, List.count_pos_iff.mpr hbase⟩
  have hsecond : (base, number) ∈ slots list := mem_slots_iff.mpr ⟨by omega, hcount⟩
  intro hkeys
  rw [keys_eq_map_slots] at hkeys
  have hslot := List.inj_on_of_nodup_map hkeys hfirst hsecond
    (show repeatKey guid 1 = repeatKey base number from hkey)
  have hnumber : 1 = number := congrArg Prod.snd hslot
  omega

/-- The keys of a list differ exactly if no identifier is the key of a repeat. Then the
difference with any other list, either way round, has under the key of each statement the
operation between it and what the other list has there. -/
theorem nodup_keys_iff_not_collides (list : StatementList) :
    ((keys list).Nodup ↔ ¬list.Collides) ∧
      (¬list.Collides → ∀ other key statement, (key, statement) ∈ keyed list →
        (diff list other).get? key =
          DiffOp.between? (some statement) ((byKey other).get? key) ∧
        (diff other list).get? key =
          DiffOp.between? ((byKey other).get? key) (some statement)) := by
  have hnodup (h : ¬list.Collides) : (keys list).Nodup := by
    rw [keys_eq_map_slots]
    refine List.Nodup.map_on ?_ (nodup_slots list)
    intro first hfirst second hsecond
    exact slotKey_injOn h hfirst hsecond
  refine ⟨⟨fun hkeys h => not_nodup_keys_of_collides h hkeys, hnodup⟩, ?_⟩
  intro h other key statement hmember
  have hfound := (get?_byKey (hnodup h)).mpr hmember
  rw [get?_diff, get?_diff, hfound]
  exact ⟨rfl, rfl⟩

/-- Identifiers may be repeated: the repeat gets a number, and the keys differ. -/
theorem nodup_keys_of_repeated_guids :
    let list := [bareStatement (some "Q1$a") .normal, bareStatement (some "Q1$a") .preferred]
    ¬Collides list ∧ (diff list []).get? "Q1$a#2" =
      some (.remove (bareStatement (some "Q1$a") .preferred)) := by
  intro list
  have hdistinct : ¬Collides list := (nodup_keys_iff_not_collides list).1.mp (by decide)
  have hmember : ("Q1$a#2", bareStatement (some "Q1$a") .preferred) ∈ keyed list :=
    List.mem_cons_of_mem _ (List.mem_singleton_self _)
  exact ⟨hdistinct, ((nodup_keys_iff_not_collides list).2 hdistinct [] _ _ hmember).1⟩

/-- A repeat of one identifier and, as another identifier, the key that the repeat has. -/
private def collidingItem : Entity :=
  labelledItem none "ant" [bareStatement (some "Q1$a") .normal,
    bareStatement (some "Q1$a") .preferred, bareStatement (some "Q1$a#2") .deprecated]

/-- Statements of an entity that is read from its array form can share a key. -/
theorem keys_shared_after_reading :
    ¬∀ (array : Json) (entity : Entity),
      (ArrayForm.ofArray array : Except ArrayError Entity) = .ok entity →
      (keys entity.statements).Nodup := by
  intro hdistinct
  have hread : (ArrayForm.ofArray (ArrayForm.toArray collidingItem) :
      Except ArrayError Entity) = .ok collidingItem := by rfl
  have hkeys := hdistinct _ _ hread
  revert hkeys
  decide

end KnowledgeBase.StatementList
