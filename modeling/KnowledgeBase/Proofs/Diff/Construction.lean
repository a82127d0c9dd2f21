import KnowledgeBase.ArrayForm.Diff
import KnowledgeBase.Proofs.Diff.Entity
import KnowledgeBase.Proofs.ArrayForm.Construction

/-!
Applications of differences that are not trusted. A difference is read from its array form
without a look at the terms in it or at the keys of its links, so these are whatever they are.
Its statements and links are read by the operations that make them elsewhere, and terms are
put in by the operations that check them. A constructed entity therefore stays one, also where
the application ends with an error.
-/

namespace KnowledgeBase

/-! ## Statements after an application -/

namespace StatementList

private theorem forall_patchPresent {property : Statement → Prop} {ops : MapDiff Statement}
    (hops : ops.NewAll fun _ statement => property statement)
    {pairs : List (String × Statement)} (hpairs : ∀ pair ∈ pairs, property pair.2) :
    ∀ statement ∈ patchPresent ops pairs, property statement := by
  induction pairs with
  | nil => simp [patchPresent]
  | cons pair rest ih =>
      obtain ⟨key, current⟩ := pair
      obtain ⟨hcurrent, hrest⟩ := List.forall_mem_cons.mp hpairs
      have hkept : ∀ statement ∈ current :: patchPresent ops rest, property statement :=
        List.forall_mem_cons.mpr ⟨hcurrent, ih hrest⟩
      rw [patchPresent]
      cases hop : ops.get? key with
      | none => exact hkept
      | some op =>
          simp only []
          split
          next => exact hkept
          next =>
            intro statement member
            rcases List.mem_append.mp member with hpatched | hlater
            · have hnew (new : Statement) (h : op.new? = some new) : property new :=
                hops key op new hop h
              cases op with
              | remove old => simp [patchOne] at hpatched
              | change old new =>
                  obtain rfl : statement = new := by simpa [patchOne] using hpatched
                  exact hnew statement rfl
              | add new =>
                  obtain rfl : statement = if current == new then current else new := by
                    simpa [patchOne] using hpatched
                  split
                  next => exact hcurrent
                  next => exact hnew new rfl
            · exact ih hrest statement hlater

/-- Whatever the keys are, a statement of the outcome was in the list or is a new value. -/
theorem forall_applyDiff {property : Statement → Prop} {ops : MapDiff Statement}
    {list : StatementList} (hlist : ∀ statement ∈ list, property statement)
    (hops : ops.NewAll fun _ statement => property statement) :
    ∀ statement ∈ list.applyDiff ops, property statement := by
  intro statement member
  rcases List.mem_append.mp member with hpresent | habsent
  · refine forall_patchPresent hops ?_ statement hpresent
    intro pair hpair
    exact hlist pair.2 (List.of_mem_zip hpair).2
  · obtain ⟨⟨key, new⟩, hentry, rfl⟩ := List.mem_map.mp habsent
    rw [List.mem_mergeSort, absentNew, List.mem_filterMap] at hentry
    obtain ⟨⟨found, op⟩, hop, hnew⟩ := hentry
    simp only [] at hnew
    split at hnew
    next => cases hnew
    next =>
      obtain ⟨value, hvalue, hpair⟩ := Option.map_eq_some_iff.mp hnew
      cases hpair
      exact hops key op new (SortedMap.get?_eq_some_iff.mpr hop) hvalue

end StatementList

/-! ## Applications -/

namespace EntityDiff

/-- Whether the statements and links that a difference puts in are constructed. Its terms
and the keys of its links may be anything. -/
structure Made (diff : EntityDiff) : Prop where
  claims : diff.claims.NewAll fun _ statement => statement.Constructed
  siteLinks : diff.siteLinks.NewAll fun _ link => link.Constructed

private theorem keeps_constructed_terms (part : MapDiff String) :
    (part.apply TermList.target).Keeps TermList.Constructed := by
  apply MapDiff.keeps_apply
  · intro terms after language text hterms hset
    exact hterms.set hset
  · intro terms language hterms
    exact hterms.erase language

private theorem keeps_constructed_aliases (part : MapDiff (List String)) :
    (part.apply AliasGroups.target).Keeps AliasGroups.Constructed := by
  apply MapDiff.keeps_apply
  · intro groups after language group hgroups hset
    exact hgroups.set hset
  · intro groups language hgroups
    exact hgroups.erase language

private theorem keeps_constructed_siteLinks {part : MapDiff SiteLink}
    (h : part.NewAll fun _ link => link.Constructed) :
    (part.apply SiteLinks.target).Keeps SiteLinks.Constructed := by
  refine MapDiff.keeps_apply_of_new h ?_ ?_
  · intro links after site link hlinks hlink hset
    cases hset
    exact hlinks.set hlink
  · intro links site hlinks
    exact hlinks.erase site

/-- The rules that constructed entities obey. -/
def constructedRules : SectionRules where
  terms := TermList.Constructed
  groups := AliasGroups.Constructed
  statements list := ∀ statement ∈ list, statement.Constructed
  siteLinks := SiteLinks.Constructed

theorem constructedRules_hold_iff {entity : Entity} :
    constructedRules.Hold entity ↔ entity.Constructed := by
  constructor
  · rintro ⟨hterms, hstatements, hlinks⟩
    exact ⟨⟨hterms.labels, hterms.descriptions, hterms.aliases⟩, hstatements, hlinks⟩
  · rintro ⟨hterms, hstatements, hlinks⟩
    exact ⟨⟨hterms.labels, hterms.descriptions, hterms.aliases⟩, hstatements, hlinks⟩

/-- A constructed entity stays constructed, also where the application fails. -/
theorem Made.keeps_constructed {diff : EntityDiff} (h : diff.Made) :
    diff.apply.Keeps Entity.Constructed := by
  intro entity hentity
  have hkeeps := keeps_rules constructedRules keeps_constructed_terms keeps_constructed_aliases
    (fun _ hlist => StatementList.forall_applyDiff hlist h.claims)
    (keeps_constructed_siteLinks h.siteLinks)
  exact constructedRules_hold_iff.mp (hkeeps entity (constructedRules_hold_iff.mpr hentity))

end EntityDiff

/-! ## Array forms -/

open ArrayForm

section Operations

variable {α : Type} [ArrayForm α] {rule : α → Prop}
  (hread : ∀ array value, (ofArray array : Except ArrayError α) = .ok value → rule value)
include hread

theorem DiffOp.new?_ofMembers {members : Members} {op : DiffOp α} {new : α}
    (h : DiffOp.ofMembers members = .ok op) (hnew : op.new? = some new) : rule new := by
  have hvalue {name : String} {value : α}
      (h : (do ofArray (← members.field name) : Except ArrayError α) = .ok value) :
      rule value := by
    obtain ⟨array, -, h⟩ := bind_eq_ok.mp h
    exact hread array value h
  unfold DiffOp.ofMembers at h
  obtain ⟨name, -, h⟩ := bind_eq_ok.mp h
  simp only [] at h
  split at h
  next =>
    obtain ⟨value, hfield, h⟩ := bind_eq_ok.mp h
    cases h
    cases hnew
    exact hvalue hfield
  next =>
    split at h
    next =>
      obtain ⟨value, -, h⟩ := bind_eq_ok.mp h
      cases h
      cases hnew
    next =>
      split at h
      next =>
        obtain ⟨old, -, h⟩ := bind_eq_ok.mp h
        obtain ⟨value, hfield, h⟩ := bind_eq_ok.mp h
        cases h
        cases hnew
        exact hvalue hfield
      next => cases h

theorem MapDiff.newAll_ofArray {array : Json} {diff : MapDiff α}
    (h : (ofArray array : Except ArrayError (MapDiff α)) = .ok diff) :
    diff.NewAll fun _ value => rule value := by
  obtain ⟨members, -, h⟩ := bind_eq_ok.mp h
  obtain ⟨ops, hops, h⟩ := bind_eq_ok.mp h
  cases h
  have hvalues : ∀ entry ∈ ops, ∀ new, entry.2.new? = some new → rule new := by
    refine mapM_keeps ?_ hops
    rintro ⟨key, array⟩ - entry hentry new hnew
    obtain ⟨op, hop, hentry⟩ := bind_eq_ok.mp hentry
    cases hentry
    obtain ⟨members, -, hop⟩ := bind_eq_ok.mp hop
    exact DiffOp.new?_ofMembers hread hop hnew
  intro key op new hop hnew
  exact hvalues (key, op) (SortedMap.mem_of_get?_ofList hop) new hnew

end Operations

theorem MapDiff.newAll_empty {α : Type} {rule : String → α → Prop} :
    MapDiff.NewAll rule SortedMap.empty := by
  intro key op new hop
  cases hop

/-- Every difference that is read from its array form puts in what was constructed. -/
theorem EntityDiff.made_ofArray {array : Json} {diff : EntityDiff}
    (h : (ofArray array : Except ArrayError EntityDiff) = .ok diff) : diff.Made := by
  obtain ⟨members, -, h⟩ := bind_eq_ok.mp h
  unfold EntityDiff.ofMembers at h
  obtain ⟨tag, -, h⟩ := bind_eq_ok.mp h
  split at h
  next =>
    obtain ⟨labels, -, h⟩ := bind_eq_ok.mp h
    obtain ⟨descriptions, -, h⟩ := bind_eq_ok.mp h
    obtain ⟨aliases, -, h⟩ := bind_eq_ok.mp h
    obtain ⟨claims, hclaims, h⟩ := bind_eq_ok.mp h
    obtain ⟨siteLinks, hlinks, h⟩ := bind_eq_ok.mp h
    simp only [] at h
    split at h
    next => cases h
    next =>
      cases h
      constructor
      · exact Members.optionalD_keeps MapDiff.newAll_empty
          (fun _ _ _ => MapDiff.newAll_ofArray fun _ _ => Statement.constructed_ofArray) hclaims
      · exact Members.optionalD_keeps MapDiff.newAll_empty
          (fun _ _ _ => MapDiff.newAll_ofArray fun _ _ => SiteLink.constructed_ofArray) hlinks
  next => cases h

end KnowledgeBase
