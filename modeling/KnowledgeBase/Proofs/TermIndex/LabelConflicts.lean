import KnowledgeBase.Proofs.TermIndex

/-!
What a check of new labels against an index reports. The given names are labels and aliases, but of
the stored terms only labels are compared. A stored alias that equals a given label is passed over,
so of two entities it can depend on which one is stored whether the names of the other are refused.
-/

namespace KnowledgeBase

/-- Whether a text is the label or an alias in a language. -/
def Named (labels : TermList) (aliases : AliasGroups) (language text : String) : Prop :=
  labels.get? language = some text ∨ ∃ group ∈ aliases.get? language, text ∈ group

instance (labels : TermList) (aliases : AliasGroups) (language text : String) :
    Decidable (Named labels aliases language text) :=
  inferInstanceAs (Decidable (_ ∨ _))

namespace Fingerprint

/-- Whether both have the same label in some language. -/
def SharesLabel (first second : Fingerprint) : Prop :=
  ∃ language text, first.labels.get? language = some text ∧
    second.labels.get? language = some text

/-- Whether a label of the first is an alias of the second, in one language. -/
def LabelIsAlias (first second : Fingerprint) : Prop :=
  ∃ language text, first.labels.get? language = some text ∧
    ∃ group ∈ second.aliases.get? language, text ∈ group

theorem sharesLabel_comm {first second : Fingerprint} :
    first.SharesLabel second ↔ second.SharesLabel first := by
  constructor <;> rintro ⟨language, text, hleft, hright⟩ <;> exact ⟨language, text, hright, hleft⟩

/-- A choice of labels passes over the descriptions and aliases. -/
theorem filter_termEntries (fingerprint : Fingerprint) (id : EntityId) {chosen : TermEntry → Bool}
    (h : ∀ entry, chosen entry = true → entry.type = .label) :
    (fingerprint.termEntries id).filter chosen =
      (fingerprint.labels.toList.map fun label =>
        TermEntry.mk id .label label.1 label.2).filter chosen := by
  have hpassed {first more : List TermEntry} (hmore : ∀ entry ∈ more, entry.type ≠ .label) :
      (first ++ more).filter chosen = first.filter chosen := by
    have hnone : more.filter chosen = [] :=
      List.filter_eq_nil_iff.mpr fun entry member hchosen => hmore entry member (h entry hchosen)
    rw [List.filter_append, hnone, List.append_nil]
  rw [termEntries]
  refine (hpassed ?_).trans ((hpassed ?_).trans rfl)
  · intro entry member htype
    obtain ⟨_, -, hgroup⟩ := List.mem_flatMap.mp member
    obtain ⟨_, -, rfl⟩ := List.mem_map.mp hgroup
    cases htype
  · intro entry member htype
    obtain ⟨_, -, rfl⟩ := List.mem_map.mp member
    cases htype

/-- The labels that are names of another fingerprint. -/
def labelsNamedBy (fingerprint other : Fingerprint) : List (String × String) :=
  fingerprint.labels.toList.filter fun (language, text) =>
    Named other.labels other.aliases language text

theorem labelsNamedBy_ne_nil_iff {first second : Fingerprint} :
    first.labelsNamedBy second ≠ [] ↔ first.SharesLabel second ∨ first.LabelIsAlias second := by
  simp only [labelsNamedBy, ne_eq, List.filter_eq_nil_iff, Prod.forall, decide_eq_true_eq,
    not_forall, not_not, exists_prop, ← SortedMap.get?_eq_some_iff]
  constructor
  · rintro ⟨language, text, hlabel, hshared | halias⟩
    · exact .inl ⟨language, text, hlabel, hshared⟩
    · exact .inr ⟨language, text, hlabel, halias⟩
  · rintro (⟨language, text, hlabel, hshared⟩ | ⟨language, text, hlabel, halias⟩)
    · exact ⟨language, text, hlabel, .inl hshared⟩
    · exact ⟨language, text, hlabel, .inr halias⟩

end Fingerprint

namespace TermIndex

theorem contains_wanted_iff (labels : TermList) (aliases : AliasGroups) (language text : String) :
    (labels.toList ++ aliases.toList.flatMap fun (language, group) =>
      group.map fun text => (language, text)).contains (language, text) = true ↔
        Named labels aliases language text := by
  simp only [List.contains_iff_mem, List.mem_append, List.mem_flatMap, List.mem_map, Prod.exists,
    Prod.mk.injEq, ← SortedMap.get?_eq_some_iff, Named, Option.mem_def]
  refine or_congr_right ⟨?_, ?_⟩
  · rintro ⟨_, group, hgroup, _, hmember, rfl, rfl⟩
    exact ⟨group, hgroup, hmember⟩
  · rintro ⟨group, hgroup, hmember⟩
    exact ⟨language, group, hgroup, text, hmember, rfl, rfl⟩

/-- Reported are the stored labels of entities of the type that are among the given names. -/
theorem labelConflicts_eq (index : TermIndex) (type : EntityType) (labels : TermList)
    (aliases : AliasGroups) :
    index.labelConflicts type labels aliases =
      (entries index).filter fun entry => entry.entity.type = type ∧ entry.type = .label ∧
        Named labels aliases entry.language entry.text := by
  unfold labelConflicts
  apply List.filter_congr
  intro entry _
  rw [Bool.eq_iff_iff]
  simp only [Bool.and_eq_true, beq_iff_eq, contains_wanted_iff, decide_eq_true_eq, and_assoc]

/-- An index on which only one entity was saved holds the terms of this entity. -/
theorem entries_of_save {entity : Entity} {index : TermIndex} (h : save .empty entity = .ok index) :
    entity.termEntries = .ok (entries index) := by
  cases hid : entity.id? with
  | none =>
      rw [save_of_none hid] at h
      cases h
  | some id =>
      rw [save_of_id hid] at h
      cases h
      rw [Entity.termEntries_of_id hid]
      cases entity.fingerprint.termEntries id with
      | nil => rfl
      | cons entry rest =>
          congr 1
          exact (List.append_nil _).symm

section OneEntity

variable {entity : Entity} {index : TermIndex} (h : entity.termEntries = .ok (entries index))
include h

/-- Of an entity that is alone in an index, those labels are reported that are given, in the order
of the languages. -/
theorem labelConflicts_of_one (given : Fingerprint) :
    ∃ id, entity.id? = some id ∧
      index.labelConflicts entity.type given.labels given.aliases =
        (entity.fingerprint.labelsNamedBy given).map fun (language, text) =>
          ⟨id, .label, language, text⟩ := by
  cases hid : entity.id? with
  | none =>
      rw [Entity.termEntries_of_none hid] at h
      cases h
  | some id =>
      refine ⟨id, rfl, ?_⟩
      rw [Entity.termEntries_of_id hid, Except.ok.injEq] at h
      rw [labelConflicts_eq, ← h, Fingerprint.filter_termEntries, List.filter_map,
        Fingerprint.labelsNamedBy]
      · congr 2
        funext ⟨language, text⟩
        simp [Entity.type_of_id? hid]
      · intro entry hchosen
        exact (of_decide_eq_true hchosen).2.1

/-- A name is refused because of a stored label only. -/
theorem labelConflicts_ne_nil_iff (given : Fingerprint) :
    index.labelConflicts entity.type given.labels given.aliases ≠ [] ↔
      entity.fingerprint.SharesLabel given ∨ entity.fingerprint.LabelIsAlias given := by
  obtain ⟨id, -, hconflicts⟩ := labelConflicts_of_one h given
  rw [hconflicts, ne_eq, List.map_eq_nil_iff]
  exact Fingerprint.labelsNamedBy_ne_nil_iff

end OneEntity

/-- What two entities of one type report of each other, when either is stored first. Whether a
conflict is reported is the same in both orders exactly if they share a label, or if each or neither
has a label that is an alias of the other. -/
theorem labelConflicts_in_both_orders {first second : Entity} {index index' : TermIndex}
    (hfirst : first.termEntries = .ok (entries index))
    (hsecond : second.termEntries = .ok (entries index')) (htype : first.type = second.type) :
    let found := index.labelConflicts first.type second.fingerprint.labels
      second.fingerprint.aliases
    let found' := index'.labelConflicts first.type first.fingerprint.labels
      first.fingerprint.aliases
    (∃ id, first.id? = some id ∧ found =
      (first.fingerprint.labelsNamedBy second.fingerprint).map fun (language, text) =>
        ⟨id, .label, language, text⟩) ∧
    (∃ id, second.id? = some id ∧ found' =
      (second.fingerprint.labelsNamedBy first.fingerprint).map fun (language, text) =>
        ⟨id, .label, language, text⟩) ∧
    ((found ≠ [] ↔ found' ≠ []) ↔ first.fingerprint.SharesLabel second.fingerprint ∨
      (first.fingerprint.LabelIsAlias second.fingerprint ↔
        second.fingerprint.LabelIsAlias first.fingerprint)) := by
  intro found found'
  have hfound : found ≠ [] ↔ first.fingerprint.SharesLabel second.fingerprint ∨
      first.fingerprint.LabelIsAlias second.fingerprint :=
    labelConflicts_ne_nil_iff hfirst second.fingerprint
  have hfound' : found' ≠ [] ↔ first.fingerprint.SharesLabel second.fingerprint ∨
      second.fingerprint.LabelIsAlias first.fingerprint := by
    rw [Fingerprint.sharesLabel_comm]
    simpa only [found', htype] using labelConflicts_ne_nil_iff hsecond first.fingerprint
  refine ⟨labelConflicts_of_one hfirst _, ?_, ?_⟩
  · simpa only [found', htype] using labelConflicts_of_one hsecond first.fingerprint
  · rw [hfound, hfound']
    by_cases hshared : first.fingerprint.SharesLabel second.fingerprint
    · simp [hshared]
    · simp [hshared]

/-- A property with English names. -/
def namedProperty (id : PropertyId) (label? alias? : Option String) : Entity :=
  let labels : TermList := label?.elim .empty fun label => SortedMap.empty.insert "en" label
  let aliases : AliasGroups := alias?.elim .empty fun name => SortedMap.empty.insert "en" [name]
  .property { id? := some id, fingerprint := { labels, aliases }, dataType := "string" }

/-- Two properties, each with the label of the other as an alias: the second one is refused in
both orders. -/
theorem labelConflicts_of_swapped_names :
    let first := namedProperty .first (some "ant") (some "bee")
    let second := namedProperty ⟨2, by decide, by decide⟩ (some "bee") (some "ant")
    ∃ index index', save .empty first = .ok index ∧ save .empty second = .ok index' ∧
      first.termEntries = .ok (entries index) ∧ second.termEntries = .ok (entries index') ∧
      first.type = second.type ∧
      index.labelConflicts first.type second.fingerprint.labels second.fingerprint.aliases =
        [⟨.property .first, .label, "en", "ant"⟩] ∧
      index'.labelConflicts first.type first.fingerprint.labels first.fingerprint.aliases ≠ [] := by
  intro first second
  obtain ⟨index, hindex⟩ : ∃ index, save .empty first = .ok index := ⟨_, rfl⟩
  obtain ⟨index', hindex'⟩ : ∃ index', save .empty second = .ok index' := ⟨_, rfl⟩
  have hfirst := entries_of_save hindex
  have hsecond := entries_of_save hindex'
  have horders := labelConflicts_in_both_orders hfirst hsecond rfl
  obtain ⟨⟨id, hid, hfound⟩, -, hagree⟩ := horders
  cases hid
  have hleft : first.fingerprint.LabelIsAlias second.fingerprint :=
    ⟨"en", "ant", rfl, ["ant"], rfl, List.mem_singleton_self _⟩
  have hright : second.fingerprint.LabelIsAlias first.fingerprint :=
    ⟨"en", "bee", rfl, ["bee"], rfl, List.mem_singleton_self _⟩
  have hnonempty := (hagree.mpr (.inr (iff_of_true hleft hright))).mp (by rw [hfound]; decide)
  exact ⟨index, index', hindex, hindex', hfirst, hsecond, rfl, hfound, hnonempty⟩

/-- A stored label is kept from becoming an alias, but a stored alias is not kept from becoming a
label: of these two properties the second is refused, but not the first if it comes second. -/
theorem label_accepted_beside_alias :
    let first := namedProperty .first (some "ant") none
    let second := namedProperty ⟨2, by decide, by decide⟩ none (some "ant")
    ∃ index index', save .empty first = .ok index ∧ save .empty second = .ok index' ∧
      index.labelConflicts first.type second.fingerprint.labels second.fingerprint.aliases =
        [⟨.property .first, .label, "en", "ant"⟩] ∧
      index'.labelConflicts first.type first.fingerprint.labels first.fingerprint.aliases = [] :=
  ⟨_, _, rfl, rfl, rfl, rfl⟩

end TermIndex

end KnowledgeBase
