import KnowledgeBase.Proofs.TermIndex

/-!
What a check of new labels and descriptions against an index reports. A label is reported exactly if
an entity of the type was last saved with this label and, in the same language, with the description
that is given beside it. Neither a label without its description nor a description of another
language or entity counts. The condition says the same of the terms that are given and of those that
are stored, so of two entities of one type it does not matter which is stored and which is checked.
-/

namespace KnowledgeBase

/-- Whether a fingerprint has, in a language, a label and the description given beside it. -/
structure Fingerprint.Repeats (fingerprint : Fingerprint) (labels descriptions : TermList)
    (language label : String) : Prop where
  given : labels.get? language = some label
  label : fingerprint.labels.get? language = some label
  description : ∃ description, descriptions.get? language = some description ∧
    fingerprint.descriptions.get? language = some description

theorem Fingerprint.repeats_comm {first second : Fingerprint} {language label : String} :
    first.Repeats second.labels second.descriptions language label ↔
      second.Repeats first.labels first.descriptions language label := by
  constructor
  · rintro ⟨hgiven, hlabel, description, hdescription, hdescription'⟩
    exact ⟨hlabel, hgiven, description, hdescription', hdescription⟩
  · rintro ⟨hgiven, hlabel, description, hdescription, hdescription'⟩
    exact ⟨hlabel, hgiven, description, hdescription', hdescription⟩

namespace TermIndex

/-- Whether an entry comes first by the id and then by the language. -/
def Precedes (first second : TermEntry) : Prop :=
  compare first.entity second.entity = .lt ∨
    first.entity = second.entity ∧ compare first.language second.language = .lt

/-- All entries of a version are of its entity, so what is compared are its terms. -/
theorem hasTerm_termEntries_iff {fingerprint : Fingerprint} {id : EntityId} {type : TermType}
    {language text : String} :
    hasTerm (fingerprint.termEntries id) type language text = true ↔
      ⟨id, type, language, text⟩ ∈ fingerprint.termEntries id := by
  simp only [hasTerm, List.any_eq_true, Bool.and_eq_true, beq_iff_eq]
  constructor
  · rintro ⟨⟨entity, _, _, _⟩, hmember, ⟨rfl, rfl⟩, rfl⟩
    obtain rfl : entity = id := (Fingerprint.mem_termEntries.mp hmember).1
    exact hmember
  · intro hmember
    exact ⟨_, hmember, ⟨rfl, rfl⟩, rfl⟩

section Index

variable (labels descriptions : TermList)

/-- What is reported of one entity: a label for each language in which it has both terms. -/
theorem mem_sharedPairs_iff {id : EntityId} {entries : List TermEntry} {entry : TermEntry} :
    entry ∈ sharedPairs labels descriptions id entries ↔
      entry.entity = id ∧ entry.type = .label ∧ labels.get? entry.language = some entry.text ∧
        hasTerm entries .label entry.language entry.text = true ∧
        ∃ description, descriptions.get? entry.language = some description ∧
          hasTerm entries .description entry.language description = true := by
  simp only [sharedPairs, List.mem_map, List.mem_filter, Option.any_eq_true, Prod.exists,
    Bool.and_eq_true, ← SortedMap.get?_eq_some_iff]
  constructor
  · rintro ⟨language, label, ⟨hlabel, description, hdescription, hterm, hterm'⟩, rfl⟩
    exact ⟨rfl, rfl, hlabel, hterm, description, hdescription, hterm'⟩
  · obtain ⟨entity, termType, language, label⟩ := entry
    rintro ⟨rfl, rfl, hlabel, hterm, description, hdescription, hterm'⟩
    exact ⟨language, label, ⟨hlabel, description, hdescription, hterm, hterm'⟩, rfl⟩

/-- The languages come in their order. -/
theorem sharedPairs_in_order (id : EntityId) (entries : List TermEntry) :
    (sharedPairs labels descriptions id entries).Pairwise Precedes := by
  rw [sharedPairs, List.pairwise_map]
  exact (labels.ascending.filter _).imp fun hlanguage => .inr ⟨rfl, hlanguage⟩

variable (index : TermIndex) (type : EntityType)

theorem mem_descriptionConflicts_iff {entry : TermEntry} :
    entry ∈ index.descriptionConflicts type labels descriptions ↔
      entry.entity.type = type ∧ ∃ entries, index.get? entry.entity = some entries ∧
        entry ∈ sharedPairs labels descriptions entry.entity entries := by
  simp only [descriptionConflicts, List.mem_flatMap, List.mem_filter, Prod.exists, beq_iff_eq,
    ← SortedMap.get?_eq_some_iff]
  constructor
  · rintro ⟨id, entries, ⟨hfound, htype⟩, hmember⟩
    obtain rfl := ((mem_sharedPairs_iff labels descriptions).mp hmember).1
    exact ⟨htype, entries, hfound, hmember⟩
  · rintro ⟨htype, entries, hfound, hmember⟩
    exact ⟨entry.entity, entries, ⟨hfound, htype⟩, hmember⟩

/-- Nothing is reported twice, since the entries come in order. -/
theorem descriptionConflicts_in_order :
    (index.descriptionConflicts type labels descriptions).Pairwise Precedes := by
  rw [descriptionConflicts, List.pairwise_flatMap]
  refine ⟨fun entity _ => sharedPairs_in_order labels descriptions _ _, ?_⟩
  refine (index.ascending.filter _).imp ?_
  rintro first second hbefore entry hentry other hother
  refine .inl ?_
  rwa [((mem_sharedPairs_iff labels descriptions).mp hentry).1,
    ((mem_sharedPairs_iff labels descriptions).mp hother).1]

end Index

/-! ## After saves and deletions -/

/-- The index has an entry for every term of the version that was saved last and no other. -/
theorem get?_serveAll_eq_some_iff {requests : List Request} {id : EntityId}
    {entries : List TermEntry} (hentries : entries ≠ []) :
    (serveAll requests).get? id = some entries ↔
      ∃ version, lastSaved? requests id = some version ∧
        version.fingerprint.termEntries id = entries := by
  rw [get?_serveAll, Option.ite_none_left_eq_some, Option.some.injEq, termsAfter_eq]
  cases lastSaved? requests id with
  | none => simp
  | some version =>
      simp only [Option.map_some, Option.getD_some, Option.some.injEq, exists_eq_left']
      constructor
      · exact fun h => h.2
      · rintro rfl
        exact ⟨hentries, rfl⟩

theorem mem_descriptionConflicts_serveAll {requests : List Request} {type : EntityType}
    {labels descriptions : TermList} {entry : TermEntry} :
    entry ∈ (serveAll requests).descriptionConflicts type labels descriptions ↔
      entry.type = .label ∧ entry.entity.type = type ∧
        ∃ version, lastSaved? requests entry.entity = some version ∧
          version.fingerprint.Repeats labels descriptions entry.language entry.text := by
  rw [mem_descriptionConflicts_iff]
  simp only [mem_sharedPairs_iff, true_and]
  constructor
  · rintro ⟨htype, entries, hfound, hlabel, hgiven, hterm, description, hdescription, hterm'⟩
    obtain ⟨_, hmember, -⟩ := List.any_eq_true.mp hterm
    obtain ⟨version, hlast, rfl⟩ :=
      (get?_serveAll_eq_some_iff (List.ne_nil_of_mem hmember)).mp hfound
    rw [hasTerm_termEntries_iff, Fingerprint.mem_termEntries] at hterm hterm'
    exact ⟨hlabel, htype, version, hlast, hgiven, hterm.2, description, hdescription, hterm'.2⟩
  · rintro ⟨hlabel, htype, version, hlast, hgiven, hstored, description, hdescription, hstored'⟩
    have hterm : ⟨entry.entity, .label, entry.language, entry.text⟩ ∈
        version.fingerprint.termEntries entry.entity :=
      Fingerprint.mem_termEntries.mpr ⟨rfl, hstored⟩
    have hterm' : ⟨entry.entity, .description, entry.language, description⟩ ∈
        version.fingerprint.termEntries entry.entity :=
      Fingerprint.mem_termEntries.mpr ⟨rfl, hstored'⟩
    exact ⟨htype, version.fingerprint.termEntries entry.entity,
      (get?_serveAll_eq_some_iff (List.ne_nil_of_mem hterm)).mpr ⟨version, hlast, rfl⟩,
      hlabel, hgiven, hasTerm_termEntries_iff.mpr hterm, description, hdescription,
      hasTerm_termEntries_iff.mpr hterm'⟩

/-! ## Conflicts of two entities -/

/-- Whether the terms of an entity are in conflict with those that an index has of another one. -/
def ConflictsWith (index : TermIndex) (entity : Entity) (id : EntityId) : Prop :=
  ∃ entry ∈ index.descriptionConflicts entity.type entity.fingerprint.labels
    entity.fingerprint.descriptions, entry.entity = id

theorem conflictsWith_serveAll_iff {requests : List Request} {id : EntityId} {stored : Entity}
    (hlast : lastSaved? requests id = some stored) {entity : Entity}
    (htype : entity.type = stored.type) :
    ConflictsWith (serveAll requests) entity id ↔
      ∃ language label, stored.fingerprint.Repeats entity.fingerprint.labels
        entity.fingerprint.descriptions language label := by
  simp only [ConflictsWith, mem_descriptionConflicts_serveAll]
  constructor
  · rintro ⟨entry, ⟨-, -, version, hversion, hrepeats⟩, rfl⟩
    obtain rfl := Option.some.inj (hlast.symm.trans hversion)
    exact ⟨entry.language, entry.text, hrepeats⟩
  · rintro ⟨language, label, hrepeats⟩
    have hid : id.type = entity.type :=
      (Entity.type_of_id? (of_lastSaved? hlast).2).symm.trans htype.symm
    exact ⟨⟨id, .label, language, label⟩, ⟨rfl, hid, stored, hlast, hrepeats⟩, rfl⟩

/-- Whether requests leave one entity in an index and no other. -/
structure LeavesOnly (requests : List Request) (id : EntityId) (version : Entity) : Prop where
  last : lastSaved? requests id = some version
  others : ∀ other, other ≠ id → lastSaved? requests other = none

theorem LeavesOnly.ne_nil_iff {requests : List Request} {id : EntityId} {stored : Entity}
    (h : LeavesOnly requests id stored) (entity : Entity) :
    (serveAll requests).descriptionConflicts entity.type entity.fingerprint.labels
      entity.fingerprint.descriptions ≠ [] ↔ ConflictsWith (serveAll requests) entity id := by
  constructor
  · intro hfound
    obtain ⟨entry, hentry⟩ := List.exists_mem_of_ne_nil _ hfound
    refine ⟨entry, hentry, ?_⟩
    obtain ⟨-, -, version, hlast, -⟩ := mem_descriptionConflicts_serveAll.mp hentry
    by_contra hother
    rw [h.others entry.entity hother] at hlast
    cases hlast
  · rintro ⟨entry, hentry, -⟩
    exact List.ne_nil_of_mem hentry

/-- Of two entities of one type, either or neither is in conflict with the other when that is
stored. -/
theorem conflictsWith_comm {requests requests' : List Request} {id id' : EntityId}
    {first second : Entity} (hfirst : lastSaved? requests id = some first)
    (hsecond : lastSaved? requests' id' = some second) (htype : first.type = second.type) :
    ConflictsWith (serveAll requests') first id' ↔
      ConflictsWith (serveAll requests) second id := by
  rw [conflictsWith_serveAll_iff hsecond htype, conflictsWith_serveAll_iff hfirst htype.symm]
  exact exists_congr fun _ => exists_congr fun _ => Fingerprint.repeats_comm

/-- Whether exactly the repeated labels are reported, by the id and then by the language. -/
structure ReportsRepeated (requests : List Request) (type : EntityType)
    (labels descriptions : TermList) (found : List TermEntry) : Prop where
  ordered : found.Pairwise Precedes
  reported : ∀ entry, entry ∈ found ↔ entry.type = .label ∧ entry.entity.type = type ∧
    ∃ version, lastSaved? requests entry.entity = some version ∧
      version.fingerprint.Repeats labels descriptions entry.language entry.text

/-- A check of labels with descriptions reports exactly what was last saved and is repeated, so it
does not matter which of two entities of one type is stored and which is checked. -/
theorem descriptionConflicts_exact :
    (∀ requests type labels descriptions, ReportsRepeated requests type labels descriptions
      ((serveAll requests).descriptionConflicts type labels descriptions)) ∧
    (∀ requests requests' id id' first second, lastSaved? requests id = some first →
      lastSaved? requests' id' = some second → first.type = second.type →
        (ConflictsWith (serveAll requests') first id' ↔
          ConflictsWith (serveAll requests) second id)) ∧
    ∀ requests requests' id id' first second, LeavesOnly requests id first →
      LeavesOnly requests' id' second → first.type = second.type →
        ((serveAll requests').descriptionConflicts first.type first.fingerprint.labels
            first.fingerprint.descriptions ≠ [] ↔
          (serveAll requests).descriptionConflicts second.type second.fingerprint.labels
            second.fingerprint.descriptions ≠ []) := by
  refine ⟨fun requests type labels descriptions => ?_, ?_, ?_⟩
  · exact ⟨descriptionConflicts_in_order _ _ _ _, fun _ => mem_descriptionConflicts_serveAll⟩
  · intro requests requests' id id' first second hfirst hsecond htype
    exact conflictsWith_comm hfirst hsecond htype
  · intro requests requests' id id' first second hfirst hsecond htype
    rw [hsecond.ne_nil_iff, hfirst.ne_nil_iff]
    exact conflictsWith_comm hfirst.last hsecond.last htype

/-- An item with an English label and description. -/
def describedItem (id : ItemId) (label description : String) : Entity :=
  .item {
    id? := some id
    fingerprint := {
      labels := SortedMap.empty.insert "en" label
      descriptions := SortedMap.empty.insert "en" description } }

theorem version?_describedItem {other : EntityId} {id : ItemId} (h : other ≠ .item id)
    (label description : String) :
    Request.version? other (.save (describedItem id label description)) = none :=
  if_neg fun same => h (Option.some.inj same).symm

/-- One item was renamed, of two others one was deleted: what is left of each history is in conflict
with what is left of the other. -/
theorem descriptionConflicts_of_renamed_item :
    let second : ItemId := ⟨2, by decide, by decide⟩
    let ant := describedItem .first "ant" "insect"
    let twin := describedItem second "ant" "insect"
    let requests : List Request := [.save (describedItem .first "bee" "insect"), .save ant]
    let requests' : List Request := [.save ant, .save twin, .delete (.item .first)]
    LeavesOnly requests (.item .first) ant ∧ LeavesOnly requests' (.item second) twin ∧
      ant.type = twin.type ∧
      (serveAll requests').descriptionConflicts .item ant.fingerprint.labels
        ant.fingerprint.descriptions = [⟨.item second, .label, "en", "ant"⟩] ∧
      (serveAll requests).descriptionConflicts twin.type twin.fingerprint.labels
        twin.fingerprint.descriptions ≠ [] ∧
      ConflictsWith (serveAll requests) twin (.item .first) := by
  intro second ant twin requests requests'
  have hant : LeavesOnly requests (.item .first) ant := by
    refine ⟨rfl, fun other hother => ?_⟩
    simp [lastSaved?, requests, ant, version?_describedItem hother]
  have htwin : LeavesOnly requests' (.item second) twin := by
    refine ⟨rfl, fun other hother => ?_⟩
    by_cases hdeleted : other = .item .first
    · rw [hdeleted]
      rfl
    · have hdelete : Request.version? other (.delete (.item .first)) = none :=
        if_neg (Ne.symm hdeleted)
      simp [lastSaved?, requests', ant, twin, hdelete, version?_describedItem hdeleted,
        version?_describedItem hother]
  have hfound : (serveAll requests').descriptionConflicts .item ant.fingerprint.labels
      ant.fingerprint.descriptions = [⟨.item second, .label, "en", "ant"⟩] := rfl
  have hconflict : ConflictsWith (serveAll requests') ant (.item second) :=
    ⟨⟨.item second, .label, "en", "ant"⟩, hfound ▸ List.mem_singleton_self _, rfl⟩
  have hexact := descriptionConflicts_exact.2
  refine ⟨hant, htwin, rfl, hfound, ?_, ?_⟩
  · refine (hexact.2 _ _ _ _ _ _ hant htwin rfl).mp ?_
    change (serveAll requests').descriptionConflicts .item _ _ ≠ []
    rw [hfound]
    exact List.cons_ne_nil _ _
  · exact (hexact.1 _ _ _ _ _ _ hant.last htwin.last rfl).mp hconflict

end TermIndex

end KnowledgeBase
