import KnowledgeBase.Proofs.Diff.Construction
import KnowledgeBase.Proofs.Diff.FailedApply

/-!
What holds of every entity, wherever it comes from and whatever is done to it. The operations
on an entity and on its parts are edits, which may fail and then leave what they have already
done; an application of a difference that was read from its array form is one of them. Each
edit keeps the entity constructed, so by induction a sequence of edits does, and all that is
asked of the lists, terms and links of an entity follows from this. An id is not replaced by
any edit.
-/

namespace KnowledgeBase

/-! ## Edits of the parts of an entity -/

/-- Edits of the qualifiers of a statement. A list that is put in was itself constructed. -/
inductive SnakEdit where
  | add (snak : Snak)
  | remove (snak : Snak)
  | replace (list : { list : SnakList // list.Constructed })

def SnakEdit.run (list : SnakList) : SnakEdit → SnakList
  | .add snak => list.add snak
  | .remove snak => list.remove snak
  | .replace other => other.val

/-- Edits of the references of a statement. -/
inductive ReferenceEdit where
  | add (snaks : { list : SnakList // list.Constructed })
  | insertAt (snaks : { list : SnakList // list.Constructed }) (index : Nat)
  | remove (hash : String)
  | replace (list : { list : ReferenceList // list.Constructed })

def ReferenceEdit.run (list : ReferenceList) : ReferenceEdit → ReferenceList
  | .add snaks => list.add ⟨snaks.val⟩
  | .insertAt snaks index => list.insertAt ⟨snaks.val⟩ index
  | .remove hash => list.remove hash
  | .replace other => other.val

inductive StatementEdit where
  | setMainSnak (snak : Snak)
  | setGuid (guid? : Option String)
  | setRank (rank : Rank)
  | setRankNumber (number : Int)
  | qualifiers (edit : SnakEdit)
  | references (edit : ReferenceEdit)
  | replace (statement : { statement : Statement // statement.Constructed })

def StatementEdit.run (statement : Statement) : StatementEdit → Except ModelError Statement
  | .setMainSnak snak => .ok (statement.setMainSnak snak)
  | .setGuid guid? => .ok (statement.setGuid guid?)
  | .setRank rank => .ok { statement with rank }
  | .setRankNumber number => do return { statement with rank := ← Rank.ofNumber number }
  | .qualifiers edit => .ok (statement.setQualifiers (edit.run statement.qualifiers))
  | .references edit => .ok { statement with references := edit.run statement.references }
  | .replace other => .ok other.val

inductive StatementListEdit where
  | add (statement : { statement : Statement // statement.Constructed })
  | insertAt (index : Nat) (statement : { statement : Statement // statement.Constructed })
  | remove (guid : String)
  | removeAt (index : Nat)
  | editAt (index : Nat) (edit : StatementEdit)
  | replace (list : { list : StatementList // ∀ statement ∈ list, statement.Constructed })

/-- The list after an edit; where there is no statement at an index, none is changed. -/
def StatementListEdit.run (list : StatementList) :
    StatementListEdit → Except ModelError StatementList
  | .add statement => .ok (list ++ [statement.val])
  | .insertAt index statement => .ok (list.insertAt index statement.val)
  | .remove guid => .ok (StatementList.remove list guid)
  | .removeAt index => .ok (list.eraseIdx index)
  | .editAt index edit =>
      match list[index]? with
      | some statement => do return list.set index (← edit.run statement)
      | none => .ok list
  | .replace other => .ok other.val

inductive FingerprintEdit where
  | setLabel (language text : String)
  | setDescription (language text : String)
  | setAliases (language : String) (aliases : List String)
  | addAliases (language : String) (aliases : List String)
  | removeLabel (language : String)
  | removeDescription (language : String)
  | removeAliases (language : String)
  | replaceLabels (labels : { terms : TermList // TermList.Constructed terms })
  | replaceDescriptions (descriptions : { terms : TermList // TermList.Constructed terms })
  | replaceAliases (aliases : { groups : AliasGroups // AliasGroups.Constructed groups })
  | replace (fingerprint : { fingerprint : Fingerprint // fingerprint.Constructed })

def FingerprintEdit.run (fingerprint : Fingerprint) :
    FingerprintEdit → Except ModelError Fingerprint
  | .setLabel language text => fingerprint.setLabel language text
  | .setDescription language text => fingerprint.setDescription language text
  | .setAliases language aliases => fingerprint.setAliases language aliases
  | .addAliases language aliases => fingerprint.addAliases language aliases
  | .removeLabel language => .ok (fingerprint.removeLabel language)
  | .removeDescription language => .ok (fingerprint.removeDescription language)
  | .removeAliases language => .ok (fingerprint.removeAliases language)
  | .replaceLabels labels => .ok { fingerprint with labels := labels.val }
  | .replaceDescriptions descriptions =>
      .ok { fingerprint with descriptions := descriptions.val }
  | .replaceAliases aliases => .ok { fingerprint with aliases := aliases.val }
  | .replace other => .ok other.val

inductive SiteLinkEdit where
  | add (link : { link : SiteLink // link.Constructed })
  | set (link : { link : SiteLink // link.Constructed })
  | remove (site : String)
  | replace (links : { links : SiteLinks // SiteLinks.Constructed links })

def SiteLinkEdit.run (links : SiteLinks) : SiteLinkEdit → Except ModelError SiteLinks
  | .add link => SiteLinks.add links link.val
  | .set link => .ok (SiteLinks.set links link.val)
  | .remove site => .ok (links.erase site)
  | .replace other => .ok other.val

/-! ## Edits of an entity -/

/-- Gives a property another type of data; an item stays as it is. -/
def Entity.setDataType (entity : Entity) (dataType : String) : Entity :=
  match entity with
  | .item i => .item i
  | .property p => .property { p with dataType }

/-- All that can be done to an entity. A difference need not have been computed: it is any
that can be read. -/
inductive EntityEdit where
  | setId (id : EntityId)
  | fingerprint (edit : FingerprintEdit)
  | statements (edit : StatementListEdit)
  | addStatement (statement : { statement : Statement // statement.Constructed })
  | siteLinks (edit : SiteLinkEdit)
  | setDataType (dataType : String)
  | clear
  | apply (diff : { diff : EntityDiff // ∃ array,
      (ArrayForm.ofArray array : Except ArrayError EntityDiff) = .ok diff })

def EntityEdit.run : EntityEdit → Edit Entity Unit
  | .setId id => Edit.ofStep (·.setId id)
  | .fingerprint edit =>
      Edit.within Entity.fingerprint Entity.setFingerprint (Edit.ofStep fun terms => edit.run terms)
  | .statements edit =>
      Edit.within Entity.statements Entity.setStatements (Edit.ofStep fun list => edit.run list)
  | .addStatement statement => Edit.ofStep (·.addStatement statement.val)
  | .siteLinks edit =>
      Edit.within Entity.siteLinks Entity.setSiteLinks (Edit.ofStep fun links => edit.run links)
  | .setDataType dataType => modify (·.setDataType dataType)
  | .clear => modify Entity.clear
  | .apply diff => diff.val.apply

/-- The entity after edits, each of which may have failed. -/
def Entity.afterEdits (entity : Entity) (edits : List EntityEdit) : Entity :=
  edits.foldl (fun state edit => edit.run.stateAfter state) entity

/-- What each edit keeps is kept by every sequence of them. -/
theorem Entity.keeps_afterEdits {property : Entity → Prop}
    (h : ∀ edit : EntityEdit, edit.run.Keeps property) (edits : List EntityEdit)
    {entity : Entity} (hentity : property entity) : property (entity.afterEdits edits) := by
  induction edits generalizing entity with
  | nil => exact hentity
  | cons edit rest ih => exact ih (h edit entity hentity)

theorem Entity.afterEdits_append (entity : Entity) (earlier later : List EntityEdit) :
    entity.afterEdits (earlier ++ later) = (entity.afterEdits earlier).afterEdits later :=
  List.foldl_append

/-! ## Construction is kept -/

theorem SnakEdit.constructed_run {list : SnakList} (h : list.Constructed) (edit : SnakEdit) :
    (edit.run list).Constructed := by
  cases edit with
  | add snak => exact h.add snak
  | remove snak => exact h.remove snak
  | replace other => exact other.property

theorem ReferenceEdit.constructed_run {list : ReferenceList} (h : list.Constructed)
    (edit : ReferenceEdit) : (edit.run list).Constructed := by
  cases edit with
  | add snaks => exact h.add snaks.property
  | insertAt snaks index => exact h.insertAt snaks.property index
  | remove hash => exact h.remove hash
  | replace other => exact other.property

theorem StatementEdit.constructed_run {statement after : Statement} {edit : StatementEdit}
    (h : statement.Constructed) (hrun : edit.run statement = .ok after) : after.Constructed := by
  cases edit with
  | setRankNumber number =>
      obtain ⟨rank, -, hrun⟩ := bind_eq_ok.mp hrun
      cases hrun
      exact ⟨h.qualifiers, h.references⟩
  | setMainSnak _ | setGuid _ | setRank _ =>
      cases hrun
      exact ⟨h.qualifiers, h.references⟩
  | qualifiers edit =>
      cases hrun
      exact ⟨edit.constructed_run h.qualifiers, h.references⟩
  | references edit =>
      cases hrun
      exact ⟨h.qualifiers, edit.constructed_run h.references⟩
  | replace other =>
      cases hrun
      exact other.property

theorem StatementListEdit.constructed_run {list after : StatementList}
    {edit : StatementListEdit} (h : ∀ statement ∈ list, statement.Constructed)
    (hrun : edit.run list = .ok after) : ∀ statement ∈ after, statement.Constructed := by
  cases edit with
  | add statement =>
      cases hrun
      exact List.forall_mem_append.mpr ⟨h, by simpa using statement.property⟩
  | insertAt index statement =>
      cases hrun
      intro member hmember
      rcases List.eq_or_mem_of_mem_insertIdx hmember with rfl | hold
      · exact statement.property
      · exact h member hold
  | remove guid =>
      cases hrun
      intro member hmember
      unfold StatementList.remove at hmember
      split at hmember
      next => exact h member (List.mem_of_mem_eraseIdx hmember)
      next => exact h member hmember
  | removeAt index =>
      cases hrun
      exact fun member hmember => h member (List.mem_of_mem_eraseIdx hmember)
  | editAt index edit =>
      simp only [run] at hrun
      split at hrun
      next statement hstatement =>
        obtain ⟨edited, hedit, hrun⟩ := bind_eq_ok.mp hrun
        cases hrun
        intro member hmember
        rcases List.mem_or_eq_of_mem_set hmember with hold | rfl
        · exact h member hold
        · exact StatementEdit.constructed_run (h statement (List.mem_of_getElem? hstatement)) hedit
      next =>
        cases hrun
        exact h
  | replace other =>
      cases hrun
      exact other.property

theorem FingerprintEdit.constructed_run {fingerprint after : Fingerprint}
    {edit : FingerprintEdit} (h : fingerprint.Constructed)
    (hrun : edit.run fingerprint = .ok after) : after.Constructed := by
  obtain ⟨hlabels, hdescriptions, haliases⟩ := h
  cases edit with
  | setLabel language text =>
      obtain ⟨labels, hset, hrun⟩ := bind_eq_ok.mp hrun
      cases hrun
      exact ⟨hlabels.set hset, hdescriptions, haliases⟩
  | setDescription language text =>
      obtain ⟨descriptions, hset, hrun⟩ := bind_eq_ok.mp hrun
      cases hrun
      exact ⟨hlabels, hdescriptions.set hset, haliases⟩
  | setAliases language aliases | addAliases language aliases =>
      obtain ⟨groups, hset, hrun⟩ := bind_eq_ok.mp hrun
      cases hrun
      exact ⟨hlabels, hdescriptions, haliases.set hset⟩
  | removeLabel language =>
      cases hrun
      exact ⟨hlabels.erase language, hdescriptions, haliases⟩
  | removeDescription language =>
      cases hrun
      exact ⟨hlabels, hdescriptions.erase language, haliases⟩
  | removeAliases language =>
      cases hrun
      exact ⟨hlabels, hdescriptions, haliases.erase language⟩
  | replaceLabels labels =>
      cases hrun
      exact ⟨labels.property, hdescriptions, haliases⟩
  | replaceDescriptions descriptions =>
      cases hrun
      exact ⟨hlabels, descriptions.property, haliases⟩
  | replaceAliases aliases =>
      cases hrun
      exact ⟨hlabels, hdescriptions, aliases.property⟩
  | replace other =>
      cases hrun
      exact other.property

theorem SiteLinkEdit.constructed_run {links after : SiteLinks} {edit : SiteLinkEdit}
    (h : SiteLinks.Constructed links) (hrun : edit.run links = .ok after) :
    SiteLinks.Constructed after := by
  cases edit with
  | add link => exact h.add link.property hrun
  | set link =>
      cases hrun
      exact h.set link.property
  | remove site =>
      cases hrun
      exact h.erase site
  | replace other =>
      cases hrun
      exact other.property

namespace EntityEdit

/-- Every edit keeps an entity constructed, also where it fails. -/
theorem keeps_constructed (edit : EntityEdit) : edit.run.Keeps Entity.Constructed := by
  cases edit with
  | setId id =>
      refine Edit.keeps_ofStep ?_
      intro entity after hentity hset
      rcases Entity.setId_cases hset with ⟨-, rfl⟩ | ⟨-, -, hterms, hstatements, hlinks, -⟩
      · exact hentity
      · refine ⟨hterms ▸ hentity.fingerprint, hstatements ▸ hentity.statements, ?_⟩
        rw [Entity.siteLinks, hlinks]
        exact hentity.siteLinks
  | fingerprint edit =>
      refine Edit.Keeps.within (Edit.keeps_ofStep fun _ _ => FingerprintEdit.constructed_run)
        ?_ ?_
      · exact fun entity hentity => hentity.fingerprint
      · exact fun entity terms hentity hterms => hentity.setFingerprint hterms
  | statements edit =>
      refine Edit.Keeps.within (Edit.keeps_ofStep fun _ _ => StatementListEdit.constructed_run)
        ?_ ?_
      · exact fun entity hentity => hentity.statements
      · exact fun entity list hentity hlist => hentity.setStatements hlist
  | addStatement statement =>
      refine Edit.keeps_ofStep ?_
      intro entity after hentity hadd
      obtain ⟨_, -, hadd⟩ := bind_eq_ok.mp hadd
      cases hadd
      exact hentity.setStatements
        (List.forall_mem_append.mpr ⟨hentity.statements, by simpa using statement.property⟩)
  | siteLinks edit =>
      refine Edit.Keeps.within (Edit.keeps_ofStep fun _ _ => SiteLinkEdit.constructed_run) ?_ ?_
      · exact fun entity hentity => hentity.siteLinks
      · exact fun entity links hentity hlinks => hentity.setSiteLinks hlinks
  | setDataType dataType =>
      refine Edit.keeps_modify ?_
      intro entity hentity
      cases entity with
      | item i => exact hentity
      | property p => exact ⟨hentity.fingerprint, hentity.statements, hentity.siteLinks⟩
  | clear =>
      refine Edit.keeps_modify fun entity hentity => ?_
      exact ((hentity.setFingerprint Fingerprint.constructed_empty).setStatements
        (List.forall_mem_nil _)).setSiteLinks .empty
  | apply diff =>
      obtain ⟨diff, array, hread⟩ := diff
      exact (EntityDiff.made_ofArray hread).keeps_constructed

/-! ## The id is kept -/

/-- An id that is set is kept by every edit; another one is refused. -/
theorem keeps_id (edit : EntityEdit) (id : EntityId) :
    edit.run.Keeps fun entity => entity.id? = some id := by
  cases edit with
  | setId other =>
      refine Edit.keeps_ofStep ?_
      intro entity after hid hset
      rcases Entity.setId_cases hset with ⟨-, rfl⟩ | ⟨hnone, -⟩
      · exact hid
      · rw [hid] at hnone
        cases hnone
  | fingerprint edit => exact Edit.keeps_within _ (by simp)
  | statements edit => exact Edit.keeps_within _ (by simp)
  | addStatement statement =>
      refine Edit.keeps_ofStep ?_
      intro entity after hid hadd
      obtain ⟨_, -, hadd⟩ := bind_eq_ok.mp hadd
      cases hadd
      simpa using hid
  | siteLinks edit => exact Edit.keeps_within _ (by simp)
  | setDataType dataType =>
      refine Edit.keeps_modify fun entity hid => ?_
      cases entity <;> exact hid
  | clear =>
      refine Edit.keeps_modify fun entity hid => ?_
      simpa [Entity.clear] using hid
  | apply diff =>
      intro entity hid
      exact (EntityDiff.stateAfter_id? diff.val entity).trans hid

end EntityEdit

end KnowledgeBase
