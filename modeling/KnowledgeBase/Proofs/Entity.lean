import KnowledgeBase.Entity
import KnowledgeBase.Proofs.ContentEquality
import KnowledgeBase.Proofs.Distinct
import KnowledgeBase.Proofs.SortedMap

/-!
What every entity keeps. Terms are at most as long as the limit says, a group of aliases has
members and no member twice, and a site link is found under its own site. An entity without
content is sound, and no operation on terms, aliases and links puts a value where it is not
fit, so these are facts about all entities and not conditions on some.
-/

namespace KnowledgeBase

/-! ## Terms and links -/

def TermRule (_language text : String) : Prop := text.length ≤ maxTermLength

def GroupRule (_language : String) (group : List String) : Prop :=
  group ≠ [] ∧ group.Nodup ∧ ∀ text ∈ group, text.length ≤ maxTermLength

def LinkRule (site : String) (link : SiteLink) : Prop := link.site = site

theorem checkTermLength_of_le {field text : String} (h : text.length ≤ maxTermLength) :
    checkTermLength field text = .ok () := by
  rw [checkTermLength, if_neg (Nat.not_lt.mpr h)]

theorem checkTermLength_of_lt {field text : String} (h : maxTermLength < text.length) :
    checkTermLength field text =
      .error (.lengthExceedsLimit field text.length maxTermLength) := by
  rw [checkTermLength, if_pos h]

theorem forM_checkTermLength_of_le {field : String} {texts : List String}
    (h : ∀ text ∈ texts, text.length ≤ maxTermLength) :
    texts.forM (checkTermLength field) = .ok () := by
  induction texts with
  | nil => rfl
  | cons text rest ih =>
      have hrest := ih fun later member => h later (List.mem_cons_of_mem _ member)
      rw [List.forM, checkTermLength_of_le (h text (List.mem_cons_self ..))]
      exact hrest

namespace TermList

theorem set_of_le {terms : TermList} {language text : String}
    (h : text.length ≤ maxTermLength) :
    TermList.set terms language text = .ok (terms.insert language text) := by
  rw [TermList.set, checkTermLength_of_le h]
  rfl

theorem set_of_lt {terms : TermList} {language text : String}
    (h : maxTermLength < text.length) :
    TermList.set terms language text =
      .error (.lengthExceedsLimit "term" text.length maxTermLength) := by
  rw [TermList.set, checkTermLength_of_lt h]
  rfl

/-- A list of terms that fit the limit stays one, whatever is set. -/
theorem all_set {terms after : TermList} {language text : String} (h : terms.All TermRule)
    (hset : TermList.set terms language text = .ok after) : after.All TermRule := by
  rcases Nat.lt_or_ge maxTermLength text.length with hlong | hshort
  · rw [set_of_lt hlong] at hset
    cases hset
  · rw [set_of_le hshort] at hset
    cases hset
    exact h.insert hshort

end TermList

namespace AliasGroups

theorem set_of_rule {groups : AliasGroups} {language : String} {group : List String}
    (h : GroupRule language group) :
    AliasGroups.set groups language group = .ok (groups.insert language group) := by
  obtain ⟨hmembers, hnodup, hshort⟩ := h
  rw [AliasGroups.set, forM_checkTermLength_of_le hshort, eraseDups_eq_self hnodup]
  cases group with
  | nil => exact absurd rfl hmembers
  | cons text rest => rfl

/-- A refused group has an alias that is too long, and the error tells its length. -/
theorem set_of_lt (groups : AliasGroups) (language : String) {group : List String}
    (h : ∃ text ∈ group, maxTermLength < text.length) :
    ∃ text ∈ group, maxTermLength < text.length ∧
      AliasGroups.set groups language group =
        .error (.lengthExceedsLimit "alias" text.length maxTermLength) := by
  have hcheck : ∃ text ∈ group, maxTermLength < text.length ∧
      group.forM (checkTermLength "alias") =
        .error (.lengthExceedsLimit "alias" text.length maxTermLength) := by
    induction group with
    | nil => simp at h
    | cons first rest ih =>
        rw [List.forM]
        rcases Nat.lt_or_ge maxTermLength first.length with hlong | hshort
        · refine ⟨first, List.mem_cons_self .., hlong, ?_⟩
          rw [checkTermLength_of_lt hlong]
          rfl
        · obtain ⟨text, member, hlong⟩ := h
          have hrest : ∃ text ∈ rest, maxTermLength < text.length := by
            rcases List.mem_cons.mp member with rfl | later
            · omega
            · exact ⟨text, later, hlong⟩
          obtain ⟨found, later, hfound, herror⟩ := ih hrest
          refine ⟨found, List.mem_cons_of_mem _ later, hfound, ?_⟩
          rw [checkTermLength_of_le hshort]
          exact herror
  obtain ⟨text, member, hlong, herror⟩ := hcheck
  refine ⟨text, member, hlong, ?_⟩
  rw [AliasGroups.set, herror]
  rfl

/-- Groups of aliases stay groups of aliases, whatever is set. -/
theorem all_set {groups after : AliasGroups} {language : String} {group : List String}
    (h : groups.All GroupRule) (hset : AliasGroups.set groups language group = .ok after) :
    after.All GroupRule := by
  by_cases hlong : ∃ text ∈ group, maxTermLength < text.length
  · obtain ⟨text, -, -, herror⟩ := set_of_lt groups language hlong
    rw [herror] at hset
    cases hset
  · have hshort : ∀ text ∈ group, text.length ≤ maxTermLength := by
      intro text member
      exact Nat.le_of_not_lt fun hlt => hlong ⟨text, member, hlt⟩
    have hmembers : ∀ text ∈ group.eraseDups, text.length ≤ maxTermLength := by
      intro text member
      exact hshort text (List.mem_eraseDups.mp member)
    have hnodup := nodup_eraseDups group
    rw [AliasGroups.set, forM_checkTermLength_of_le hshort] at hset
    cases hdistinct : group.eraseDups with
    | nil =>
        simp only [hdistinct] at hset
        cases hset
        exact h.erase language
    | cons first rest =>
        rw [hdistinct] at hnodup hmembers
        simp only [hdistinct] at hset
        cases hset
        exact h.insert ⟨List.cons_ne_nil _ _, hnodup, hmembers⟩

end AliasGroups

theorem SiteLinks.all_set {links : SiteLinks} (h : links.All LinkRule) (link : SiteLink) :
    (SiteLinks.set links link).All LinkRule :=
  SortedMap.All.insert h rfl

/-- The rules for terms, section by section. -/
structure Fingerprint.Sound (fingerprint : Fingerprint) : Prop where
  labels : fingerprint.labels.All TermRule
  descriptions : fingerprint.descriptions.All TermRule
  aliases : fingerprint.aliases.All GroupRule

/-! ## Entities -/

namespace Entity

/-- The type of data of a property. -/
def dataType? : Entity → Option String
  | .item _ => none
  | .property p => some p.dataType

/-- The site links of an entity; a property has none. -/
def siteLinks (entity : Entity) : SiteLinks := entity.siteLinks?.getD .empty

/-- Whether every value of an entity is fit for its place. -/
structure Sound (entity : Entity) : Prop where
  labels : entity.fingerprint.labels.All TermRule
  descriptions : entity.fingerprint.descriptions.All TermRule
  aliases : entity.fingerprint.aliases.All GroupRule
  siteLinks : entity.siteLinks.All LinkRule

/-- Whether no statement of an entity holds a coordinate that is not a number. -/
def NaNFree (entity : Entity) : Prop := ∀ statement ∈ entity.statements, statement.NaNFree

section Replacement

variable (entity : Entity) (fingerprint : Fingerprint) (statements : StatementList)
  (links : SiteLinks)

@[simp] theorem setFingerprint_type : (entity.setFingerprint fingerprint).type = entity.type := by
  cases entity <;> rfl

@[simp] theorem setStatements_type : (entity.setStatements statements).type = entity.type := by
  cases entity <;> rfl

@[simp] theorem setSiteLinks_type : (entity.setSiteLinks links).type = entity.type := by
  cases entity <;> rfl

@[simp] theorem setFingerprint_id? : (entity.setFingerprint fingerprint).id? = entity.id? := by
  cases entity <;> rfl

@[simp] theorem setStatements_id? : (entity.setStatements statements).id? = entity.id? := by
  cases entity <;> rfl

@[simp] theorem setSiteLinks_id? : (entity.setSiteLinks links).id? = entity.id? := by
  cases entity <;> rfl

@[simp] theorem setFingerprint_dataType? :
    (entity.setFingerprint fingerprint).dataType? = entity.dataType? := by
  cases entity <;> rfl

@[simp] theorem setStatements_dataType? :
    (entity.setStatements statements).dataType? = entity.dataType? := by
  cases entity <;> rfl

@[simp] theorem setSiteLinks_dataType? :
    (entity.setSiteLinks links).dataType? = entity.dataType? := by
  cases entity <;> rfl

@[simp] theorem setFingerprint_fingerprint :
    (entity.setFingerprint fingerprint).fingerprint = fingerprint := by
  cases entity <;> rfl

@[simp] theorem setStatements_fingerprint :
    (entity.setStatements statements).fingerprint = entity.fingerprint := by
  cases entity <;> rfl

@[simp] theorem setSiteLinks_fingerprint :
    (entity.setSiteLinks links).fingerprint = entity.fingerprint := by
  cases entity <;> rfl

@[simp] theorem setFingerprint_statements :
    (entity.setFingerprint fingerprint).statements = entity.statements := by
  cases entity <;> rfl

@[simp] theorem setStatements_statements :
    (entity.setStatements statements).statements = statements := by
  cases entity <;> rfl

@[simp] theorem setSiteLinks_statements :
    (entity.setSiteLinks links).statements = entity.statements := by
  cases entity <;> rfl

@[simp] theorem setFingerprint_siteLinks? :
    (entity.setFingerprint fingerprint).siteLinks? = entity.siteLinks? := by
  cases entity <;> rfl

@[simp] theorem setStatements_siteLinks? :
    (entity.setStatements statements).siteLinks? = entity.siteLinks? := by
  cases entity <;> rfl

@[simp] theorem setSiteLinks_siteLinks? :
    (entity.setSiteLinks links).siteLinks? = entity.siteLinks?.map fun _ => links := by
  cases entity <;> rfl

end Replacement

@[simp] theorem setFingerprint_self (entity : Entity) :
    entity.setFingerprint entity.fingerprint = entity := by
  cases entity <;> rfl

@[simp] theorem setStatements_self (entity : Entity) :
    entity.setStatements entity.statements = entity := by
  cases entity <;> rfl

@[simp] theorem setSiteLinks_self (entity : Entity) :
    entity.setSiteLinks entity.siteLinks = entity := by
  cases entity <;> rfl

theorem type_of_id? {entity : Entity} {id : EntityId} (h : entity.id? = some id) :
    entity.type = id.type := by
  cases entity with
  | item i =>
      obtain ⟨_, -, rfl⟩ := Option.map_eq_some_iff.mp h
      rfl
  | property p =>
      obtain ⟨_, -, rfl⟩ := Option.map_eq_some_iff.mp h
      rfl

/-- An entity that has the id already stays as it is; one without id gets it and keeps all
other parts. -/
theorem setId_cases {entity named : Entity} {id : EntityId} (h : entity.setId id = .ok named) :
    entity.id? = some id ∧ named = entity ∨
      entity.id? = none ∧ named.id? = some id ∧ named.fingerprint = entity.fingerprint ∧
        named.statements = entity.statements ∧ named.siteLinks? = entity.siteLinks? ∧
        named.dataType? = entity.dataType? := by
  cases entity with
  | item i =>
      cases id with
      | property id => cases h
      | item id =>
          cases hid : i.id? with
          | none =>
              simp only [setId, hid] at h
              cases h
              exact Or.inr ⟨by simp [id?, hid], rfl, rfl, rfl, rfl, rfl⟩
          | some current =>
              simp only [setId, hid] at h
              split at h
              next same =>
                cases h
                exact Or.inl ⟨by simp [id?, hid, same], rfl⟩
              next => cases h
  | property p =>
      cases id with
      | item id => cases h
      | property id =>
          cases hid : p.id? with
          | none =>
              simp only [setId, hid] at h
              cases h
              exact Or.inr ⟨by simp [id?, hid], rfl, rfl, rfl, rfl, rfl⟩
          | some current =>
              simp only [setId, hid] at h
              split at h
              next same =>
                cases h
                exact Or.inl ⟨by simp [id?, hid, same], rfl⟩
              next => cases h

/-- Entities of one type either both have site links or both have none. -/
theorem siteLinks?_eq_map {first second : Entity} (h : first.type = second.type) :
    first.siteLinks?.map (fun _ => second.siteLinks) = second.siteLinks? := by
  cases first <;> cases second <;> first | rfl | cases h

end Entity

/-! ## Small items -/

def ItemId.first : ItemId := ⟨1, by decide, by decide⟩

def PropertyId.first : PropertyId := ⟨1, by decide, by decide⟩

/-- A statement that says of the first property that it has no value. -/
def bareStatement (guid? : Option String) (rank : Rank) : Statement where
  claim := { mainSnak := .noValue ⟨1, by decide, by decide⟩, guid? }
  rank := rank

theorem nanFree_bareStatement (guid? : Option String) (rank : Rank) :
    (bareStatement guid? rank).NaNFree := by
  intro snak member
  have hsnak : snak = .noValue ⟨1, by decide, by decide⟩ := by
    simpa [bareStatement, Statement.allSnaks, Claim.allSnaks, SnakList.empty,
      ReferenceList.empty] using member
  rw [hsnak]
  intro value hvalue
  cases hvalue

/-- A statement about a place, the longitude of which is given. -/
def placedStatement (guid? : Option String) (longitude : Binary64) : Statement where
  claim :=
    { mainSnak := .value .first
        (.coordinate ⟨⟨0x404a43d70a3d70a4⟩, longitude, none, none, earthGlobe⟩)
      guid? }

theorem nanFree_placedStatement (guid? : Option String) {longitude : Binary64}
    (h : longitude.isNaN = false) : (placedStatement guid? longitude).NaNFree := by
  intro snak member
  have hsnaks : (placedStatement guid? longitude).allSnaks =
      [(placedStatement guid? longitude).mainSnak] := rfl
  rw [hsnaks] at member
  obtain rfl := List.mem_singleton.mp member
  intro value hvalue
  cases hvalue
  exact ⟨rfl, h, nofun, nofun⟩

/-- An item with one label and with statements. -/
def labelledItem (id? : Option ItemId) (label : String) (statements : StatementList) : Entity :=
  .item { id?, fingerprint := { labels := SortedMap.empty.insert "en" label }, statements }

theorem sound_labelledItem (id? : Option ItemId) {label : String} (statements : StatementList)
    (h : label.length ≤ maxTermLength) : (labelledItem id? label statements).Sound where
  labels := SortedMap.All.empty.insert (show TermRule "en" label from h)
  descriptions := SortedMap.All.empty
  aliases := SortedMap.All.empty
  siteLinks := SortedMap.All.empty

end KnowledgeBase
