import KnowledgeBase.Builder
import KnowledgeBase.Proofs.Entity
import KnowledgeBase.Proofs.Except
import Mathlib.Data.List.Perm.Basic

/-!
What the operations of the model can make. A list of snaks or references, a map of terms or
links and a site link are made only by their operations, each from the empty one; the other
parts of an entity can be put in freely. No list made in this way holds a snak or a reference
twice, every link has its badges in ascending order, and building such a list or link once
more from its own members gives the same one.
-/

namespace KnowledgeBase

/-- Where at most one member is to be taken out, all others are kept. -/
theorem eraseP_eq_filter {α : Type} {condition : α → Bool} {members : List α}
    (h : members.Pairwise fun first second => condition first = true → condition second = false) :
    members.eraseP condition = members.filter (!condition ·) := by
  induction members with
  | nil => rfl
  | cons first others ih =>
      obtain ⟨hfirst, hothers⟩ := List.pairwise_cons.mp h
      rw [List.eraseP_cons, List.filter_cons]
      cases hcondition : condition first with
      | true =>
          refine (List.filter_eq_self.mpr ?_).symm
          intro other hother
          rw [hfirst other hother hcondition]
          rfl
      | false => exact congrArg (first :: ·) (ih hothers)

/-! ## Snaks -/

namespace SnakList

/-- Lists that the operations make from the empty one. -/
inductive Constructed : SnakList → Prop
  | empty : Constructed .empty
  | add {list : SnakList} (h : Constructed list) (snak : Snak) : Constructed (list.add snak)
  | remove {list : SnakList} (h : Constructed list) (snak : Snak) :
      Constructed (list.remove snak)

theorem ofList_append_singleton (snaks : List Snak) (snak : Snak) :
    ofList (snaks ++ [snak]) = (ofList snaks).add snak := by
  simp [ofList]

theorem constructed_ofList (snaks : List Snak) : (ofList snaks).Constructed := by
  induction snaks using List.reverseRecOn with
  | nil => exact .empty
  | append_singleton snaks last ih =>
      rw [ofList_append_singleton]
      exact ih.add last

/-- Whether no snak equals a later one. -/
def Distinct (list : SnakList) : Prop :=
  list.snaks.Pairwise fun first second => (first == second) = false

theorem contains_eq_false_iff {list : SnakList} {snak : Snak} :
    list.contains snak = false ↔ ∀ member ∈ list.snaks, (member == snak) = false := by
  simp [contains]

theorem Constructed.distinct {list : SnakList} (h : list.Constructed) : list.Distinct := by
  induction h with
  | empty => exact .nil
  | @add list _ snak ih =>
      unfold SnakList.add
      split
      next => exact ih
      next habsent =>
        have hother := contains_eq_false_iff.mp (Bool.eq_false_of_not_eq_true habsent)
        refine List.pairwise_append.mpr ⟨ih, List.pairwise_singleton _ _, ?_⟩
        intro member hmember last hlast
        rw [List.mem_singleton.mp hlast]
        exact hother member hmember
  | @remove list _ snak ih =>
      unfold SnakList.remove
      split
      next index _ => exact ih.sublist (List.eraseIdx_sublist list.snaks index)
      next => exact ih

/-- Distinct snaks are all kept, in their order. -/
theorem Distinct.ofList_snaks {list : SnakList} (h : list.Distinct) :
    ofList list.snaks = list := by
  obtain ⟨snaks⟩ := list
  induction snaks using List.reverseRecOn with
  | nil => rfl
  | append_singleton snaks last ih =>
      obtain ⟨hsnaks, -, hlast⟩ := List.pairwise_append.mp h
      have habsent : SnakList.contains ⟨snaks⟩ last = false :=
        contains_eq_false_iff.mpr fun member hmember =>
          hlast member hmember last (List.mem_singleton_self last)
      rw [ofList_append_singleton, ih hsnaks, SnakList.add, habsent]
      rfl

theorem mem_ofList {snaks : List Snak} {snak : Snak} (h : snak ∈ (ofList snaks).snaks) :
    snak ∈ snaks := by
  induction snaks using List.reverseRecOn with
  | nil => simp [ofList, SnakList.empty] at h
  | append_singleton snaks last ih =>
      rw [ofList_append_singleton, SnakList.add] at h
      rw [List.mem_append]
      split at h
      next => exact Or.inl (ih h)
      next => exact (List.mem_append.mp h).imp_left ih

end SnakList

/-! ## References -/

namespace ReferenceList

inductive Constructed : ReferenceList → Prop
  | empty : Constructed .empty
  | add {list : ReferenceList} (h : Constructed list) {reference : Reference}
      (hsnaks : reference.snaks.Constructed) : Constructed (list.add reference)
  | insertAt {list : ReferenceList} (h : Constructed list) {reference : Reference}
      (hsnaks : reference.snaks.Constructed) (index : Nat) :
      Constructed (list.insertAt reference index)
  | remove {list : ReferenceList} (h : Constructed list) (hash : String) :
      Constructed (list.remove hash)

theorem ofList_append_singleton (references : List Reference) (reference : Reference) :
    ofList (references ++ [reference]) = (ofList references).add reference := by
  simp [ofList]

theorem contains_iff {list : ReferenceList} {hash : String} :
    list.contains hash = true ↔ hash ∈ list.hashes := by
  simp [contains, indexOf?, hashes]

theorem references_remove (list : ReferenceList) (hash : String) :
    (list.remove hash).references = list.references.eraseP (·.hash == hash) := by
  rw [List.eraseP_eq_eraseIdx, remove, indexOf?]
  cases list.references.findIdx? (·.hash == hash) <;> rfl

theorem hashes_remove (list : ReferenceList) (hash : String) :
    (list.remove hash).hashes = list.hashes.erase hash := by
  rw [hashes, hashes, references_remove, List.erase_eq_eraseP', List.eraseP_map]
  rfl

theorem perm_insertAt (list : ReferenceList) (reference : Reference) (index : Nat) :
    (list.insertAt reference index).references.Perm
      (reference :: (list.remove reference.hash).references) :=
  List.perm_insertIdx _ _ (Nat.min_le_right _ _)

theorem nodup_hashes_add {list : ReferenceList} (h : list.hashes.Nodup)
    (reference : Reference) : (list.add reference).hashes.Nodup := by
  unfold ReferenceList.add
  split
  next => exact h
  next habsent =>
    rw [contains_iff] at habsent
    rw [hashes, List.map_append, List.map_singleton, ← List.concat_eq_append]
    exact h.concat habsent

theorem nodup_hashes_insertAt {list : ReferenceList} (h : list.hashes.Nodup)
    (reference : Reference) (index : Nat) : (list.insertAt reference index).hashes.Nodup := by
  have hperm := (perm_insertAt list reference index).map Reference.hash
  refine hperm.nodup_iff.mpr ?_
  change (reference.hash :: (list.remove reference.hash).hashes).Nodup
  rw [hashes_remove]
  exact List.nodup_cons.mpr ⟨h.not_mem_erase, h.erase _⟩

theorem nodup_hashes_ofList (references : List Reference) :
    (ofList references).hashes.Nodup := by
  induction references using List.reverseRecOn with
  | nil => exact List.nodup_nil
  | append_singleton references last ih =>
      rw [ofList_append_singleton]
      exact nodup_hashes_add ih last

theorem Constructed.nodup_hashes {list : ReferenceList} (h : list.Constructed) :
    list.hashes.Nodup := by
  induction h with
  | empty => exact List.nodup_nil
  | @add list _ reference _ ih => exact nodup_hashes_add ih reference
  | @insertAt list _ reference _ index ih => exact nodup_hashes_insertAt ih reference index
  | @remove list _ hash ih =>
      rw [hashes_remove]
      exact ih.erase hash

theorem Constructed.snaks {list : ReferenceList} (h : list.Constructed) :
    ∀ reference ∈ list.references, reference.snaks.Constructed := by
  induction h with
  | empty => simp [ReferenceList.empty]
  | @add list _ reference hsnaks ih =>
      intro member hmember
      unfold ReferenceList.add at hmember
      split at hmember
      next => exact ih member hmember
      next =>
        rcases List.mem_append.mp hmember with earlier | last
        · exact ih member earlier
        · rw [List.mem_singleton.mp last]
          exact hsnaks
  | @insertAt list _ reference hsnaks index ih =>
      intro member hmember
      rw [(perm_insertAt list reference index).mem_iff, List.mem_cons] at hmember
      rcases hmember with rfl | hother
      · exact hsnaks
      · rw [references_remove] at hother
        exact ih member (List.mem_of_mem_eraseP hother)
  | @remove list _ hash ih =>
      intro member hmember
      rw [references_remove] at hmember
      exact ih member (List.mem_of_mem_eraseP hmember)

/-- References of different hashes are all kept, in their order. -/
theorem ofList_references {list : ReferenceList} (h : list.hashes.Nodup) :
    ofList list.references = list := by
  obtain ⟨references⟩ := list
  induction references using List.reverseRecOn with
  | nil => rfl
  | append_singleton references last ih =>
      rw [hashes, List.map_append, List.nodup_append] at h
      obtain ⟨hreferences, -, hlast⟩ := h
      have habsent : ReferenceList.contains ⟨references⟩ last.hash = false := by
        rw [← Bool.not_eq_true, contains_iff]
        intro member
        exact hlast last.hash member last.hash (by simp) rfl
      rw [ofList_append_singleton, ih hreferences, ReferenceList.add, habsent]
      rfl

theorem mem_ofList {references : List Reference} {reference : Reference}
    (h : reference ∈ (ofList references).references) : reference ∈ references := by
  induction references using List.reverseRecOn with
  | nil => simp [ofList, ReferenceList.empty] at h
  | append_singleton references last ih =>
      rw [ofList_append_singleton, ReferenceList.add] at h
      rw [List.mem_append]
      split at h
      next => exact Or.inl (ih h)
      next => exact (List.mem_append.mp h).imp_left ih

end ReferenceList

/-! ## Site links -/

/-- Badges in strictly ascending order of their numbers. -/
def BadgesAscending (badges : List ItemId) : Prop :=
  badges.Pairwise fun first second => first.number < second.number

theorem mem_insertBadge {badge member : ItemId} {badges : List ItemId}
    (h : member ∈ insertBadge badge badges) : member = badge ∨ member ∈ badges := by
  induction badges with
  | nil => simpa [insertBadge] using h
  | cons first rest ih =>
      unfold insertBadge at h
      split_ifs at h <;> simp only [List.mem_cons] at h ⊢ <;> tauto

theorem BadgesAscending.insert {badges : List ItemId} (h : BadgesAscending badges)
    (badge : ItemId) : BadgesAscending (insertBadge badge badges) := by
  induction badges with
  | nil => exact List.pairwise_singleton _ _
  | cons first rest ih =>
      obtain ⟨hfirst, hrest⟩ := List.pairwise_cons.mp h
      unfold insertBadge
      split_ifs with hless hsame
      · refine List.Pairwise.cons ?_ h
        intro member hmember
        rcases List.mem_cons.mp hmember with rfl | later
        · exact hless
        · exact Nat.lt_trans hless (hfirst member later)
      · exact h
      · refine List.Pairwise.cons ?_ (ih hrest)
        intro member hmember
        rcases mem_insertBadge hmember with rfl | later
        · omega
        · exact hfirst member later

theorem insertBadge_of_forall_lt {badge : ItemId} {badges : List ItemId}
    (h : ∀ member ∈ badges, member.number < badge.number) :
    insertBadge badge badges = badges ++ [badge] := by
  induction badges with
  | nil => rfl
  | cons first rest ih =>
      have hfirst := h first (List.mem_cons_self ..)
      rw [insertBadge, if_neg (by omega), if_neg (by omega),
        ih fun member later => h member (List.mem_cons_of_mem _ later), List.cons_append]

/-- The badges in ascending order, each once. -/
def badgeSet (badges : List ItemId) : List ItemId :=
  badges.foldl (fun set badge => insertBadge badge set) []

theorem badgesAscending_badgeSet (badges : List ItemId) : BadgesAscending (badgeSet badges) := by
  induction badges using List.reverseRecOn with
  | nil => exact .nil
  | append_singleton badges last ih =>
      rw [badgeSet, List.foldl_append]
      exact ih.insert last

theorem BadgesAscending.badgeSet_eq {badges : List ItemId} (h : BadgesAscending badges) :
    badgeSet badges = badges := by
  induction badges using List.reverseRecOn with
  | nil => rfl
  | append_singleton badges last ih =>
      obtain ⟨hbadges, -, hlast⟩ := List.pairwise_append.mp h
      rw [badgeSet, List.foldl_append]
      change insertBadge last (badgeSet badges) = badges ++ [last]
      rw [ih hbadges]
      exact insertBadge_of_forall_lt fun member hmember =>
        hlast member hmember last (List.mem_singleton_self last)

namespace SiteLink

def Constructed (link : SiteLink) : Prop :=
  ∃ site page badges, SiteLink.create site page badges = .ok link

theorem create_eq_ok_iff {site page : String} {badges : List ItemId} {link : SiteLink} :
    SiteLink.create site page badges = .ok link ↔
      site.utf8ByteSize ≤ maxSiteLinkBytes ∧ page.utf8ByteSize ≤ maxSiteLinkBytes ∧
        link = ⟨site, page, badgeSet badges⟩ := by
  unfold create checkLength
  rw [bind_eq_ok]
  constructor
  · rintro ⟨_, hsite, h⟩
    obtain ⟨_, hpage, h⟩ := bind_eq_ok.mp h
    split at hsite
    · cases hsite
    · split at hpage
      · cases hpage
      · cases h
        exact ⟨by omega, by omega, rfl⟩
  · rintro ⟨hsite, hpage, rfl⟩
    refine ⟨(), if_neg (by omega), ?_⟩
    rw [if_neg (by omega)]
    rfl

/-- A link is made again from its own parts. -/
theorem Constructed.create_self {link : SiteLink} (h : link.Constructed) :
    SiteLink.create link.site link.page link.badges = .ok link := by
  obtain ⟨site, page, badges, hcreate⟩ := h
  obtain ⟨hsite, hpage, rfl⟩ := create_eq_ok_iff.mp hcreate
  refine create_eq_ok_iff.mpr ⟨hsite, hpage, ?_⟩
  rw [(badgesAscending_badgeSet badges).badgeSet_eq]

end SiteLink

/-! ## Maps of terms and links -/

inductive TermList.Constructed : TermList → Prop
  | empty : Constructed .empty
  | set {terms after : TermList} {language text : String} (h : Constructed terms)
      (hset : TermList.set terms language text = .ok after) : Constructed after
  | erase {terms : TermList} (h : Constructed terms) (language : String) :
      Constructed (terms.erase language)

theorem TermList.Constructed.all {terms : TermList} (h : TermList.Constructed terms) :
    terms.All TermRule := by
  induction h with
  | empty => exact SortedMap.All.empty
  | set _ hset ih => exact TermList.all_set ih hset
  | erase _ language ih => exact ih.erase language

inductive AliasGroups.Constructed : AliasGroups → Prop
  | empty : Constructed .empty
  | set {groups after : AliasGroups} {language : String} {aliases : List String}
      (h : Constructed groups) (hset : AliasGroups.set groups language aliases = .ok after) :
      Constructed after
  | erase {groups : AliasGroups} (h : Constructed groups) (language : String) :
      Constructed (groups.erase language)

theorem AliasGroups.Constructed.all {groups : AliasGroups}
    (h : AliasGroups.Constructed groups) : groups.All GroupRule := by
  induction h with
  | empty => exact SortedMap.All.empty
  | set _ hset ih => exact AliasGroups.all_set ih hset
  | erase _ language ih => exact ih.erase language

inductive SiteLinks.Constructed : SiteLinks → Prop
  | empty : Constructed .empty
  | add {links after : SiteLinks} {link : SiteLink} (h : Constructed links)
      (hlink : link.Constructed) (hadd : SiteLinks.add links link = .ok after) :
      Constructed after
  | set {links : SiteLinks} {link : SiteLink} (h : Constructed links)
      (hlink : link.Constructed) : Constructed (SiteLinks.set links link)
  | erase {links : SiteLinks} (h : Constructed links) (site : String) :
      Constructed (links.erase site)

/-- A constructed link under its own site. -/
def MadeLinkRule (site : String) (link : SiteLink) : Prop :=
  LinkRule site link ∧ link.Constructed

theorem SiteLinks.add_eq_ok_iff {links after : SiteLinks} {link : SiteLink} :
    SiteLinks.add links link = .ok after ↔
      links.get? link.site = none ∧ after = links.insert link.site link := by
  unfold SiteLinks.add SortedMap.contains
  cases links.get? link.site <;> simp [eq_comm]

theorem SiteLinks.Constructed.all {links : SiteLinks} (h : SiteLinks.Constructed links) :
    links.All MadeLinkRule := by
  induction h with
  | empty => exact SortedMap.All.empty
  | add _ hlink hadd ih =>
      rw [(SiteLinks.add_eq_ok_iff.mp hadd).2]
      exact ih.insert ⟨rfl, hlink⟩
  | set _ hlink ih => exact ih.insert ⟨rfl, hlink⟩
  | erase _ site ih => exact ih.erase site

/-! ## Statements and entities -/

structure Fingerprint.Constructed (fingerprint : Fingerprint) : Prop where
  labels : TermList.Constructed fingerprint.labels
  descriptions : TermList.Constructed fingerprint.descriptions
  aliases : AliasGroups.Constructed fingerprint.aliases

structure Statement.Constructed (statement : Statement) : Prop where
  qualifiers : statement.qualifiers.Constructed
  references : statement.references.Constructed

structure Entity.Constructed (entity : Entity) : Prop where
  fingerprint : entity.fingerprint.Constructed
  statements : ∀ statement ∈ entity.statements, statement.Constructed
  siteLinks : SiteLinks.Constructed entity.siteLinks

theorem Fingerprint.constructed_empty : Fingerprint.empty.Constructed := ⟨.empty, .empty, .empty⟩

/-- Constructed terms are fit for their places. -/
theorem Fingerprint.Constructed.sound {fingerprint : Fingerprint} (h : fingerprint.Constructed) :
    fingerprint.Sound :=
  ⟨h.labels.all, h.descriptions.all, h.aliases.all⟩

namespace Entity.Constructed

variable {entity : Entity} (h : entity.Constructed)
include h

/-- Constructed entities are sound. -/
theorem sound : entity.Sound where
  labels := h.fingerprint.labels.all
  descriptions := h.fingerprint.descriptions.all
  aliases := h.fingerprint.aliases.all
  siteLinks site link hfound := (h.siteLinks.all site link hfound).1

theorem setFingerprint {terms : Fingerprint} (hterms : terms.Constructed) :
    (entity.setFingerprint terms).Constructed := by
  constructor
  · simpa using hterms
  · simpa using h.statements
  · simpa [Entity.siteLinks] using h.siteLinks

theorem setStatements {statements : StatementList}
    (hstatements : ∀ statement ∈ statements, statement.Constructed) :
    (entity.setStatements statements).Constructed := by
  constructor
  · simpa using h.fingerprint
  · simpa using hstatements
  · simpa [Entity.siteLinks] using h.siteLinks

theorem setSiteLinks {links : SiteLinks} (hlinks : SiteLinks.Constructed links) :
    (entity.setSiteLinks links).Constructed := by
  constructor
  · simpa using h.fingerprint
  · simpa using h.statements
  · cases entity with
    | item i => exact hlinks
    | property p => exact .empty

end Entity.Constructed

/-! ## Builders -/

namespace StatementBuilder

variable {builder : StatementBuilder}

theorem constructed_ofSnak (snak : Snak) : (ofSnak snak).build.Constructed := ⟨.empty, .empty⟩

theorem constructed_qualifier (h : builder.build.Constructed) (snak : Snak) :
    (builder.qualifier snak).build.Constructed :=
  ⟨h.qualifiers.add snak, h.references⟩

theorem constructed_reference (h : builder.build.Constructed) (snaks : List Snak) :
    (builder.reference snaks).build.Constructed :=
  ⟨h.qualifiers, h.references.add (SnakList.constructed_ofList snaks)⟩

theorem constructed_rank (h : builder.build.Constructed) (rank : Rank) :
    (builder.rank rank).build.Constructed :=
  ⟨h.qualifiers, h.references⟩

theorem constructed_guid (h : builder.build.Constructed) (guid : String) :
    (builder.guid guid).build.Constructed :=
  ⟨h.qualifiers, h.references⟩

end StatementBuilder

theorem EntityParts.constructed_fingerprint {parts : EntityParts} {fingerprint : Fingerprint}
    (h : parts.fingerprint = .ok fingerprint) : fingerprint.Constructed := by
  unfold EntityParts.fingerprint at h
  obtain ⟨labelled, hlabels, h⟩ := bind_eq_ok.mp h
  obtain ⟨described, hdescriptions, haliases⟩ := bind_eq_ok.mp h
  have hlabelled : labelled.Constructed := by
    refine foldlM_keeps ?_ Fingerprint.constructed_empty hlabels
    rintro state ⟨language, text⟩ after hstate hstep
    obtain ⟨labels, hset, hafter⟩ := bind_eq_ok.mp hstep
    cases hafter
    exact ⟨hstate.labels.set hset, hstate.descriptions, hstate.aliases⟩
  have hdescribed : described.Constructed := by
    refine foldlM_keeps ?_ hlabelled hdescriptions
    rintro state ⟨language, text⟩ after hstate hstep
    obtain ⟨descriptions, hset, hafter⟩ := bind_eq_ok.mp hstep
    cases hafter
    exact ⟨hstate.labels, hstate.descriptions.set hset, hstate.aliases⟩
  refine foldlM_keeps ?_ hdescribed haliases
  rintro state ⟨language, text⟩ after hstate hstep
  obtain ⟨aliases, hset, hafter⟩ := bind_eq_ok.mp hstep
  cases hafter
  exact ⟨hstate.labels, hstate.descriptions, hstate.aliases.set hset⟩

theorem EntityParts.ownedStatements_eq {parts : EntityParts} {id? : Option EntityId}
    {statements : StatementList} (h : parts.ownedStatements id? = .ok statements) :
    statements = parts.statements := by
  obtain ⟨_, -, h⟩ := bind_eq_ok.mp h
  cases h
  rfl

/-- Every item that is built from constructed statements is constructed. -/
theorem ItemBuilder.constructed_build {builder : ItemBuilder} {item : Item}
    (hstatements : ∀ statement ∈ builder.parts.statements, statement.Constructed)
    (h : builder.build = .ok item) : (Entity.item item).Constructed := by
  unfold ItemBuilder.build at h
  obtain ⟨fingerprint, hfingerprint, h⟩ := bind_eq_ok.mp h
  obtain ⟨statements, howned, h⟩ := bind_eq_ok.mp h
  obtain ⟨links, hlinks, h⟩ := bind_eq_ok.mp h
  cases h
  refine ⟨EntityParts.constructed_fingerprint hfingerprint, ?_, ?_⟩
  · rw [← EntityParts.ownedStatements_eq howned] at hstatements
    exact hstatements
  · refine foldlM_keeps ?_ SiteLinks.Constructed.empty hlinks
    rintro state ⟨site, page, badges⟩ after hstate hadd
    obtain ⟨link, hlink, hadd⟩ := bind_eq_ok.mp hadd
    exact hstate.add ⟨site, page, badges, hlink⟩ hadd

/-- Every property that is built from constructed statements is constructed. -/
theorem PropertyBuilder.constructed_build {builder : PropertyBuilder} {property : Property}
    (hstatements : ∀ statement ∈ builder.parts.statements, statement.Constructed)
    (h : builder.build = .ok property) : (Entity.property property).Constructed := by
  unfold PropertyBuilder.build at h
  obtain ⟨fingerprint, hfingerprint, h⟩ := bind_eq_ok.mp h
  obtain ⟨statements, howned, h⟩ := bind_eq_ok.mp h
  cases h
  refine ⟨EntityParts.constructed_fingerprint hfingerprint, ?_, .empty⟩
  rw [← EntityParts.ownedStatements_eq howned] at hstatements
  exact hstatements

end KnowledgeBase
