import KnowledgeBase.Diff.Entity
import KnowledgeBase.Proofs.Diff.Map
import KnowledgeBase.Proofs.Diff.StatementKeys
import KnowledgeBase.Proofs.Edit
import KnowledgeBase.Proofs.Entity

/-!
Applying a difference to an entity. If the types are the same and every new value is fit for
its place, the application succeeds and each section is changed by its own operations; the
id and the type of data stay. Whatever a difference says, a sound entity stays sound.
-/

namespace KnowledgeBase

/-- An entity that differences can address: its values are fit for their places, its
coordinates are numbers, and its identifiers differ and do not look like hash keys. -/
structure Entity.WellKept (entity : Entity) : Prop where
  sound : entity.Sound
  nanFree : entity.NaNFree
  statements : entity.statements.WellKeyed

theorem wellKept_labelledItem {id? : Option ItemId} {label : String}
    {statements : StatementList} (hlabel : label.length ≤ maxTermLength)
    (hself : ∀ statement ∈ statements, statement.NaNFree) (h : statements.WellKeyed) :
    (labelledItem id? label statements).WellKept where
  sound := sound_labelledItem id? statements hlabel
  nanFree := hself
  statements := h

namespace MapDiff

variable {α : Type}

/-- Whether each value that operations put under a key obeys a rule. -/
def NewAll (rule : String → α → Prop) (diff : MapDiff α) : Prop :=
  ∀ key op new, diff.get? key = some op → op.new? = some new → rule key new

theorem newAll_between [BEq α] {rule : String → α → Prop} (old : SortedMap String α)
    {new : SortedMap String α} (h : new.All rule) :
    (between old.toList new.toList).NewAll rule := by
  intro key op value hop hvalue
  rw [get?_between, SortedMap.ofList_toList, SortedMap.ofList_toList] at hop
  have hnew : op.new? = new.get? key := by
    cases hold : old.get? key with
    | none => exact (DiffOp.after?_of_between? rfl (hold ▸ hop)).2
    | some before => exact (DiffOp.after?_of_between? rfl (hold ▸ hop)).2
  exact h key value (hnew ▸ hvalue)

theorem accepted_terms {diff : MapDiff String} (h : diff.NewAll TermRule) :
    diff.Accepted TermList.target where
  current := rfl
  take := rfl
  put key op new hop hnew _ := TermList.set_of_le (h key op new hop hnew)

theorem accepted_aliases {diff : MapDiff (List String)} (h : diff.NewAll GroupRule) :
    diff.Accepted AliasGroups.target where
  current := rfl
  take := rfl
  put key op new hop hnew _ := AliasGroups.set_of_rule (h key op new hop hnew)

theorem accepted_siteLinks {diff : MapDiff SiteLink} (h : diff.NewAll LinkRule) :
    diff.Accepted SiteLinks.target where
  current := rfl
  take := rfl
  put key op new hop hnew map := by
    have hsite : new.site = key := h key op new hop hnew
    change Except.ok (SortedMap.insert map new.site new) = _
    rw [hsite]

/-- An application keeps what its target keeps, given a rule for the values that are put. -/
theorem keeps_apply_of_new {σ : Type} [BEq α] {property : σ → Prop} {target : PatchTarget σ α}
    {diff : MapDiff α} {rule : String → α → Prop} (hnew : diff.NewAll rule)
    (hput : ∀ state after key value, property state → rule key value →
      target.put state key value = .ok after → property after)
    (htake : ∀ state key, property state → property (target.take state key)) :
    (diff.apply target).Keeps property := by
  rw [apply_eq_forM]
  apply Edit.keeps_forM
  rintro ⟨key, op⟩ member
  apply Edit.keeps_ofStep
  intro state after hstate hstep
  rcases op.apply_cases target key state with hsame | htaken | ⟨new, hvalue, hstored⟩
  · rw [hsame] at hstep
    cases hstep
    exact hstate
  · rw [htaken] at hstep
    cases hstep
    exact htake state key hstate
  · rw [hstored] at hstep
    have hop := SortedMap.get?_eq_some_iff.mpr member
    exact hput state after key new hstate (hnew key op new hop hvalue) hstep

theorem keeps_apply {σ : Type} [BEq α] {property : σ → Prop} {target : PatchTarget σ α}
    (hput : ∀ state after key value, property state → target.put state key value = .ok after →
      property after)
    (htake : ∀ state key, property state → property (target.take state key))
    (diff : MapDiff α) : (diff.apply target).Keeps property := by
  have hnew : diff.NewAll fun _ _ => True := fun _ _ _ _ _ => trivial
  refine keeps_apply_of_new hnew ?_ htake
  intro state after key value hstate _
  exact hput state after key value hstate

end MapDiff

namespace EntityDiff

/-! ## The outcome -/

def patchedTerms (diff : EntityDiff) (fingerprint : Fingerprint) : Fingerprint where
  labels := diff.labels.patch fingerprint.labels
  descriptions := diff.descriptions.patch fingerprint.descriptions
  aliases := diff.aliases.patch fingerprint.aliases

/-- An entity each section of which is changed by its own operations. -/
def patched (diff : EntityDiff) (entity : Entity) : Entity :=
  ((entity.setFingerprint (diff.patchedTerms entity.fingerprint)).setStatements
    (entity.statements.applyDiff diff.claims)).setSiteLinks
      (diff.siteLinks.patch entity.siteLinks)

section Patched

variable (diff : EntityDiff) (entity : Entity)

@[simp] theorem patched_type : (diff.patched entity).type = entity.type := by simp [patched]

@[simp] theorem patched_id? : (diff.patched entity).id? = entity.id? := by simp [patched]

@[simp] theorem patched_dataType? : (diff.patched entity).dataType? = entity.dataType? := by
  simp [patched]

@[simp] theorem patched_fingerprint :
    (diff.patched entity).fingerprint = diff.patchedTerms entity.fingerprint := by
  simp [patched]

@[simp] theorem patched_statements :
    (diff.patched entity).statements = entity.statements.applyDiff diff.claims := by
  simp [patched]

@[simp] theorem patched_siteLinks? : (diff.patched entity).siteLinks? =
    entity.siteLinks?.map fun _ => diff.siteLinks.patch entity.siteLinks := by
  simp [patched]

end Patched

/-- Whether every new value of a difference is fit for its place. -/
structure Fit (diff : EntityDiff) : Prop where
  labels : diff.labels.NewAll TermRule
  descriptions : diff.descriptions.NewAll TermRule
  aliases : diff.aliases.NewAll GroupRule
  siteLinks : diff.siteLinks.NewAll LinkRule

/-! ## Computed differences -/

/-- What differs between two entities, whatever their types are. -/
def computed (old new : Entity) : EntityDiff where
  type := old.type
  labels := .between old.fingerprint.labels.toList new.fingerprint.labels.toList
  descriptions :=
    .between old.fingerprint.descriptions.toList new.fingerprint.descriptions.toList
  aliases := .between old.fingerprint.aliases.toList new.fingerprint.aliases.toList
  claims := StatementList.diff old.statements new.statements
  siteLinks := .between old.siteLinks.toList new.siteLinks.toList

theorem between_of_type {old new : Entity} (h : old.type = new.type) :
    between old new = .ok (computed old new) := if_pos h

theorem fit_computed (old : Entity) {new : Entity} (h : new.Sound) :
    (computed old new).Fit where
  labels := MapDiff.newAll_between _ h.labels
  descriptions := MapDiff.newAll_between _ h.descriptions
  aliases := MapDiff.newAll_between _ h.aliases
  siteLinks := MapDiff.newAll_between _ h.siteLinks

/-! ## Runs -/

/-- The steps of an application after its check of the types. -/
def applySections (diff : EntityDiff) : Edit Entity Unit := do
  Edit.within Entity.fingerprint Entity.setFingerprint diff.applyTerms
  modify fun entity => entity.setStatements (entity.statements.applyDiff diff.claims)
  Edit.within (fun entity => entity.siteLinks?.getD .empty) Entity.setSiteLinks
    (diff.siteLinks.apply SiteLinks.target)

theorem run_apply {diff : EntityDiff} {entity : Entity} (h : diff.type = entity.type) :
    diff.apply.run entity = diff.applySections.run entity := by
  have hcheck : ¬diff.type ≠ entity.type := not_not.mpr h
  unfold apply
  rw [Edit.run_bind_ok (Edit.run_get entity)]
  simp only [if_neg hcheck]
  rfl

theorem run_apply_of_ne {diff : EntityDiff} {entity : Entity} (h : diff.type ≠ entity.type) :
    diff.apply.run entity = .error (.entityTypeMismatch diff.type entity.type) entity := by
  unfold apply
  rw [Edit.run_bind_ok (Edit.run_get entity)]
  simp only [if_pos h]
  rfl

theorem Fit.run_applyTerms {diff : EntityDiff} (h : diff.Fit) (fingerprint : Fingerprint) :
    diff.applyTerms.run fingerprint = .ok () (diff.patchedTerms fingerprint) := by
  have hlabels := (MapDiff.accepted_terms h.labels).run_apply
  have hdescriptions := (MapDiff.accepted_terms h.descriptions).run_apply
  have haliases := (MapDiff.accepted_aliases h.aliases).run_apply
  unfold applyTerms
  rw [Edit.run_bind_ok (Edit.run_within_ok (hlabels _)),
    Edit.run_bind_ok (Edit.run_within_ok (hdescriptions _)),
    Edit.run_within_ok (haliases _)]
  rfl

/-- A fitting difference is applied to an entity of its type without failure. -/
theorem Fit.run_apply {diff : EntityDiff} {entity : Entity} (h : diff.Fit)
    (htype : diff.type = entity.type) :
    diff.apply.run entity = .ok () (diff.patched entity) := by
  have hlinks := (MapDiff.accepted_siteLinks h.siteLinks).run_apply
  rw [EntityDiff.run_apply htype]
  unfold applySections
  rw [Edit.run_bind_ok (Edit.run_within_ok (h.run_applyTerms _)),
    Edit.run_bind_ok (Edit.run_modify _ _), Edit.run_within_ok (hlinks _)]
  simp [patched, Entity.siteLinks]

/-! ## Kept properties -/

/-- What the three steps of an application keep is kept by the application. -/
theorem keeps_apply {property : Entity → Prop} {diff : EntityDiff}
    (hterms :
      (Edit.within Entity.fingerprint Entity.setFingerprint diff.applyTerms).Keeps property)
    (hstatements : ∀ entity, property entity →
      property (entity.setStatements (entity.statements.applyDiff diff.claims)))
    (hlinks : (Edit.within (fun entity => entity.siteLinks?.getD .empty) Entity.setSiteLinks
      (diff.siteLinks.apply SiteLinks.target)).Keeps property) :
    diff.apply.Keeps property := by
  have hsections : diff.applySections.Keeps property := by
    unfold applySections
    exact hterms.bind fun _ => (Edit.keeps_modify hstatements).bind fun _ => hlinks
  intro entity hentity
  by_cases htype : diff.type = entity.type
  · rw [Edit.stateAfter, run_apply htype]
    exact hsections entity hentity
  · rwa [Edit.stateAfter_of_error (run_apply_of_ne htype)]

/-- An application changes terms, statements and links and nothing else. -/
theorem keeps_rest {property : Entity → Prop} (diff : EntityDiff)
    (hterms : ∀ entity terms, property entity → property (entity.setFingerprint terms))
    (hstatements : ∀ entity list, property entity → property (entity.setStatements list))
    (hlinks : ∀ entity links, property entity → property (entity.setSiteLinks links)) :
    diff.apply.Keeps property :=
  keeps_apply (Edit.keeps_within _ hterms) (fun entity => hstatements entity _)
    (Edit.keeps_within _ hlinks)

/-- Rules for the sections of entities. -/
structure SectionRules where
  terms : TermList → Prop
  groups : AliasGroups → Prop
  statements : StatementList → Prop
  siteLinks : SiteLinks → Prop

namespace SectionRules

/-- Whether the terms of an entity obey the rules. -/
structure HoldOfTerms (rules : SectionRules) (fingerprint : Fingerprint) : Prop where
  labels : rules.terms fingerprint.labels
  descriptions : rules.terms fingerprint.descriptions
  aliases : rules.groups fingerprint.aliases

/-- Whether every section of an entity obeys its rule. -/
structure Hold (rules : SectionRules) (entity : Entity) : Prop where
  fingerprint : rules.HoldOfTerms entity.fingerprint
  statements : rules.statements entity.statements
  siteLinks : rules.siteLinks entity.siteLinks

namespace Hold

variable {rules : SectionRules} {entity : Entity} (h : rules.Hold entity)
include h

theorem setFingerprint {terms : Fingerprint} (hterms : rules.HoldOfTerms terms) :
    rules.Hold (entity.setFingerprint terms) := by
  constructor
  · simpa using hterms
  · simpa using h.statements
  · simpa [Entity.siteLinks] using h.siteLinks

theorem setStatements {statements : StatementList} (hstatements : rules.statements statements) :
    rules.Hold (entity.setStatements statements) := by
  constructor
  · simpa using h.fingerprint
  · simpa using hstatements
  · simpa [Entity.siteLinks] using h.siteLinks

theorem setSiteLinks {links : SiteLinks} (hlinks : rules.siteLinks links) :
    rules.Hold (entity.setSiteLinks links) := by
  constructor
  · simpa using h.fingerprint
  · simpa using h.statements
  · cases entity with
    | item i => exact hlinks
    | property p => exact h.siteLinks

end Hold

end SectionRules

section Rules

variable (rules : SectionRules) {diff : EntityDiff}
  (hterms : ∀ part : MapDiff String, (part.apply TermList.target).Keeps rules.terms)
  (hgroups : ∀ part : MapDiff (List String), (part.apply AliasGroups.target).Keeps rules.groups)
include hterms hgroups

theorem keeps_applyTerms : diff.applyTerms.Keeps rules.HoldOfTerms := by
  unfold applyTerms
  apply Edit.Keeps.bind
  · refine (hterms diff.labels).within ?_ ?_
    · exact fun fingerprint h => h.labels
    · exact fun fingerprint labels h hlabels => ⟨hlabels, h.descriptions, h.aliases⟩
  · intro _
    apply Edit.Keeps.bind
    · refine (hterms diff.descriptions).within ?_ ?_
      · exact fun fingerprint h => h.descriptions
      · exact fun fingerprint descriptions h hnew => ⟨h.labels, hnew, h.aliases⟩
    · intro _
      refine (hgroups diff.aliases).within ?_ ?_
      · exact fun fingerprint h => h.aliases
      · exact fun fingerprint aliases h haliases => ⟨h.labels, h.descriptions, haliases⟩

/-- An application keeps the rules that hold through the operations on each section. -/
theorem keeps_rules
    (hstatements : ∀ list : StatementList, rules.statements list →
      rules.statements (list.applyDiff diff.claims))
    (hlinks : (diff.siteLinks.apply SiteLinks.target).Keeps rules.siteLinks) :
    diff.apply.Keeps rules.Hold := by
  apply keeps_apply
  · refine (keeps_applyTerms rules hterms hgroups).within ?_ ?_
    · exact fun entity h => h.fingerprint
    · exact fun entity terms h hnew => h.setFingerprint hnew
  · exact fun entity h => h.setStatements (hstatements entity.statements h.statements)
  · refine hlinks.within ?_ ?_
    · exact fun entity h => h.siteLinks
    · exact fun entity links h hnew => h.setSiteLinks hnew

end Rules

@[simp] theorem stateAfter_id? (diff : EntityDiff) (entity : Entity) :
    (diff.apply.stateAfter entity).id? = entity.id? := by
  have hkeeps : diff.apply.Keeps fun state => state.id? = entity.id? := by
    apply keeps_rest <;> simp
  exact hkeeps entity rfl

@[simp] theorem stateAfter_dataType? (diff : EntityDiff) (entity : Entity) :
    (diff.apply.stateAfter entity).dataType? = entity.dataType? := by
  have hkeeps : diff.apply.Keeps fun state => state.dataType? = entity.dataType? := by
    apply keeps_rest <;> simp
  exact hkeeps entity rfl

/-! ## Soundness -/

private theorem keeps_terms (diff : MapDiff String) :
    (diff.apply TermList.target).Keeps (SortedMap.All TermRule) := by
  apply MapDiff.keeps_apply
  · intro terms after language text hterms hset
    exact TermList.all_set hterms hset
  · intro terms language hterms
    exact hterms.erase language

private theorem keeps_aliases (diff : MapDiff (List String)) :
    (diff.apply AliasGroups.target).Keeps (SortedMap.All GroupRule) := by
  apply MapDiff.keeps_apply
  · intro groups after language group hgroups hset
    exact AliasGroups.all_set hgroups hset
  · intro groups language hgroups
    exact hgroups.erase language

private theorem keeps_siteLinks (diff : MapDiff SiteLink) :
    (diff.apply SiteLinks.target).Keeps (SortedMap.All LinkRule) := by
  apply MapDiff.keeps_apply
  · intro links after site link hlinks hset
    cases hset
    exact SiteLinks.all_set hlinks link
  · intro links site hlinks
    exact hlinks.erase site

/-- The rules that sound entities obey. -/
def soundRules : SectionRules where
  terms := SortedMap.All TermRule
  groups := SortedMap.All GroupRule
  statements _ := True
  siteLinks := SortedMap.All LinkRule

theorem soundRules_hold_iff {entity : Entity} : soundRules.Hold entity ↔ entity.Sound := by
  constructor
  · rintro ⟨hterms, -, hlinks⟩
    exact ⟨hterms.labels, hterms.descriptions, hterms.aliases, hlinks⟩
  · intro h
    exact ⟨⟨h.labels, h.descriptions, h.aliases⟩, trivial, h.siteLinks⟩

/-- A sound entity stays sound under every difference, also where the application fails. -/
theorem keeps_sound (diff : EntityDiff) : diff.apply.Keeps Entity.Sound := by
  intro entity hentity
  have hkeeps := keeps_rules soundRules keeps_terms keeps_aliases (fun _ _ => trivial)
    (keeps_siteLinks diff.siteLinks)
  exact soundRules_hold_iff.mp (hkeeps entity (soundRules_hold_iff.mpr hentity))

end EntityDiff

end KnowledgeBase
