import KnowledgeBase.ArrayForm.Entity
import KnowledgeBase.Proofs.ArrayForm.Members
import KnowledgeBase.Proofs.Construction

/-!
What is read from an array form is constructed, whatever members are given: a value that is
not fit for its place is refused, or it is put where it fits. A reader puts a value together
by the same operations that make it elsewhere, so what is read could also have been made by
them.
-/

namespace KnowledgeBase

open ArrayForm

/-! ## Statements -/

theorem SnakList.constructed_ofArray {array : Json} {list : SnakList}
    (h : (ofArray array : Except ArrayError SnakList) = .ok list) : list.Constructed := by
  obtain ⟨elements, -, h⟩ := bind_eq_ok.mp h
  obtain ⟨snaks, -, h⟩ := bind_eq_ok.mp h
  cases h
  exact constructed_ofList snaks

theorem ReferenceList.constructed_ofList {references : List Reference}
    (h : ∀ reference ∈ references, reference.snaks.Constructed) :
    (ofList references).Constructed := by
  induction references using List.reverseRecOn with
  | nil => exact .empty
  | append_singleton references last ih =>
      rw [ofList_append_singleton]
      have hreferences := ih fun reference member => h reference (List.mem_append_left _ member)
      exact hreferences.add (h last (by simp))

theorem ReferenceList.constructed_ofArray {array : Json} {list : ReferenceList}
    (h : (ofArray array : Except ArrayError ReferenceList) = .ok list) : list.Constructed := by
  obtain ⟨elements, -, h⟩ := bind_eq_ok.mp h
  obtain ⟨references, hreferences, h⟩ := bind_eq_ok.mp h
  cases h
  refine constructed_ofList (mapM_keeps (fun element _ reference hread => ?_) hreferences)
  obtain ⟨snaks, hsnaks, rfl⟩ := map_eq_ok.mp hread
  exact SnakList.constructed_ofArray hsnaks

theorem Claim.constructed_qualifiers {members : Members} {claim : Claim}
    (h : Claim.ofMembers members = .ok claim) : claim.qualifiers.Constructed := by
  unfold Claim.ofMembers at h
  obtain ⟨array, -, h⟩ := bind_eq_ok.mp h
  obtain ⟨mainSnak, -, h⟩ := bind_eq_ok.mp h
  obtain ⟨qualifiers, hqualifiers, h⟩ := bind_eq_ok.mp h
  obtain ⟨guid?, -, h⟩ := bind_eq_ok.mp h
  cases h
  exact Members.optionalD_keeps .empty (fun _ _ _ => SnakList.constructed_ofArray) hqualifiers

/-- A claim is read as a statement without references. -/
theorem Statement.constructed_ofArray {array : Json} {statement : Statement}
    (h : (ofArray array : Except ArrayError Statement) = .ok statement) :
    statement.Constructed := by
  obtain ⟨found, hfound, rfl⟩ := map_eq_ok.mp h
  obtain ⟨members, -, hfound⟩ := bind_eq_ok.mp hfound
  obtain ⟨kind, -, hfound⟩ := bind_eq_ok.mp hfound
  split at hfound
  next =>
    obtain ⟨claim, hclaim, hfound⟩ := bind_eq_ok.mp hfound
    cases hfound
    exact ⟨Claim.constructed_qualifiers hclaim, .empty⟩
  next =>
    split at hfound
    next =>
      obtain ⟨statement, hstatement, hfound⟩ := bind_eq_ok.mp hfound
      cases hfound
      unfold Statement.ofMembers at hstatement
      obtain ⟨claim, hclaim, hstatement⟩ := bind_eq_ok.mp hstatement
      obtain ⟨rank, -, hstatement⟩ := bind_eq_ok.mp hstatement
      obtain ⟨references, hreferences, hstatement⟩ := bind_eq_ok.mp hstatement
      cases hstatement
      refine ⟨Claim.constructed_qualifiers hclaim, ?_⟩
      exact Members.optionalD_keeps .empty (fun _ _ _ => ReferenceList.constructed_ofArray)
        hreferences
    next => cases hfound

theorem Entity.constructed_statements {members : Members} {statements : StatementList}
    (h : Entity.statementsOfMembers members = .ok statements) :
    ∀ statement ∈ statements, statement.Constructed := by
  have hread : ∀ array value, Entity.statementsOfArray array = .ok value →
      ∀ statement ∈ value, statement.Constructed := by
    intro array value hread
    obtain ⟨elements, -, hread⟩ := bind_eq_ok.mp hread
    exact mapM_keeps (fun _ _ _ => Statement.constructed_ofArray) hread
  exact Members.optionalD_keeps (by simp) (fun array value _ => hread array value) h

/-! ## Terms and links -/

theorem TermList.constructed_ofArray {array : Json} {terms : TermList}
    (h : (ofArray array : Except ArrayError TermList) = .ok terms) :
    TermList.Constructed terms := by
  obtain ⟨members, -, h⟩ := bind_eq_ok.mp h
  refine foldlM_keeps ?_ TermList.Constructed.empty h
  rintro state ⟨language, text⟩ after hstate hset
  obtain ⟨value, -, hset⟩ := bind_eq_ok.mp hset
  exact hstate.set (eq_ok_of_mapError hset)

theorem AliasGroups.constructed_ofArray {array : Json} {groups : AliasGroups}
    (h : (ofArray array : Except ArrayError AliasGroups) = .ok groups) :
    AliasGroups.Constructed groups := by
  obtain ⟨members, -, h⟩ := bind_eq_ok.mp h
  refine foldlM_keeps ?_ AliasGroups.Constructed.empty h
  rintro state ⟨language, aliases⟩ after hstate hset
  obtain ⟨value, -, hset⟩ := bind_eq_ok.mp hset
  exact hstate.set (eq_ok_of_mapError hset)

theorem SiteLink.constructed_ofPageMembers {site : String} {members : Members} {link : SiteLink}
    (h : SiteLink.ofPageMembers site members = .ok link) : link.Constructed := by
  obtain ⟨badges, -, h⟩ := bind_eq_ok.mp h
  obtain ⟨page, -, h⟩ := bind_eq_ok.mp h
  exact ⟨site, page, badges, eq_ok_of_mapError h⟩

theorem SiteLink.constructed_ofArray {array : Json} {link : SiteLink}
    (h : (ofArray array : Except ArrayError SiteLink) = .ok link) : link.Constructed := by
  obtain ⟨members, -, h⟩ := bind_eq_ok.mp h
  obtain ⟨site, -, h⟩ := bind_eq_ok.mp h
  exact constructed_ofPageMembers h

theorem SiteLinks.constructed_ofArray {array : Json} {links : SiteLinks}
    (h : (ofArray array : Except ArrayError SiteLinks) = .ok links) :
    SiteLinks.Constructed links := by
  obtain ⟨members, -, h⟩ := bind_eq_ok.mp h
  refine foldlM_keeps ?_ SiteLinks.Constructed.empty h
  rintro state ⟨site, entry⟩ after hstate hadd
  obtain ⟨object, -, hadd⟩ := bind_eq_ok.mp hadd
  obtain ⟨link, hlink, hadd⟩ := bind_eq_ok.mp hadd
  exact hstate.add (SiteLink.constructed_ofPageMembers hlink) (eq_ok_of_mapError hadd)

theorem Fingerprint.constructed_ofMembers {members : Members} {fingerprint : Fingerprint}
    (h : Fingerprint.ofMembers members = .ok fingerprint) : fingerprint.Constructed := by
  unfold Fingerprint.ofMembers at h
  obtain ⟨labels, hlabels, h⟩ := bind_eq_ok.mp h
  obtain ⟨descriptions, hdescriptions, h⟩ := bind_eq_ok.mp h
  obtain ⟨aliases, haliases, h⟩ := bind_eq_ok.mp h
  cases h
  constructor
  · exact Members.optionalD_keeps .empty (fun _ _ _ => TermList.constructed_ofArray) hlabels
  · exact Members.optionalD_keeps .empty (fun _ _ _ => TermList.constructed_ofArray) hdescriptions
  · exact Members.optionalD_keeps .empty (fun _ _ _ => AliasGroups.constructed_ofArray) haliases

/-! ## Entities -/

theorem Item.constructed_ofMembers {members : Members} {item : Item}
    (h : Item.ofMembers members = .ok item) : (Entity.item item).Constructed := by
  unfold Item.ofMembers at h
  obtain ⟨id?, -, h⟩ := bind_eq_ok.mp h
  obtain ⟨fingerprint, hfingerprint, h⟩ := bind_eq_ok.mp h
  obtain ⟨statements, hstatements, h⟩ := bind_eq_ok.mp h
  obtain ⟨links, hlinks, h⟩ := bind_eq_ok.mp h
  cases h
  refine ⟨Fingerprint.constructed_ofMembers hfingerprint,
    Entity.constructed_statements hstatements, ?_⟩
  exact Members.optionalD_keeps .empty (fun _ _ _ => SiteLinks.constructed_ofArray) hlinks

theorem Property.constructed_ofMembers {members : Members} {property : Property}
    (h : Property.ofMembers members = .ok property) :
    (Entity.property property).Constructed := by
  unfold Property.ofMembers at h
  obtain ⟨dataType, -, h⟩ := bind_eq_ok.mp h
  obtain ⟨id?, -, h⟩ := bind_eq_ok.mp h
  obtain ⟨fingerprint, hfingerprint, h⟩ := bind_eq_ok.mp h
  obtain ⟨statements, hstatements, h⟩ := bind_eq_ok.mp h
  cases h
  exact ⟨Fingerprint.constructed_ofMembers hfingerprint,
    Entity.constructed_statements hstatements, .empty⟩

/-- Every entity that is read from its array form is constructed, and so it is sound. -/
theorem Entity.constructed_ofArray {array : Json} {entity : Entity}
    (h : (ofArray array : Except ArrayError Entity) = .ok entity) : entity.Constructed := by
  obtain ⟨members, -, h⟩ := bind_eq_ok.mp h
  obtain ⟨kind, -, h⟩ := bind_eq_ok.mp h
  split at h
  next =>
    obtain ⟨item, hitem, h⟩ := bind_eq_ok.mp h
    cases h
    exact Item.constructed_ofMembers hitem
  next =>
    obtain ⟨property, hproperty, h⟩ := bind_eq_ok.mp h
    cases h
    exact Property.constructed_ofMembers hproperty
  next => cases h

end KnowledgeBase
