import KnowledgeBase.Proofs.ArrayForm.Diff
import KnowledgeBase.Proofs.ArrayForm.RoundTrip

/-!
Which differences are read back from their array form. The limits are those of statements: an
identifier that is not too long and finite coordinates. Differences that are computed from
entities within these limits, turned around or merged stay within them, and they have links
only if they are differences of items. So all of them can be kept in their array form and
undone later.
-/

namespace KnowledgeBase

open ArrayForm

/-- A constructed statement within the limits of the array form. -/
structure Statement.Exchangeable (statement : Statement) : Prop where
  constructed : statement.Constructed
  finite : statement.Finite
  guid : statement.GuidFits

/-- A constructed entity whose statements are within the limits of the array form. -/
structure Entity.Exchangeable (entity : Entity) : Prop where
  constructed : entity.Constructed
  finite : entity.Finite
  guids : ∀ statement ∈ entity.statements, statement.GuidFits

theorem Entity.Exchangeable.statements {entity : Entity} (h : entity.Exchangeable) :
    ∀ statement ∈ entity.statements, statement.Exchangeable :=
  fun statement member =>
    ⟨h.constructed.statements statement member, h.finite statement member,
      h.guids statement member⟩

theorem StatementList.all_diff {rule : Statement → Prop} {old new : StatementList}
    (hold : ∀ statement ∈ old, rule statement) (hnew : ∀ statement ∈ new, rule statement) :
    (diff old new).All rule :=
  MapDiff.all_between (fun _ hentry => hold _ (List.of_mem_zip hentry).2)
    (fun _ hentry => hnew _ (List.of_mem_zip hentry).2)

namespace EntityDiff

/-- Whether the old and new statements and links of a difference are constructed and within
the limits of the array form. Terms have no limits there. -/
structure Exchangeable (diff : EntityDiff) : Prop where
  claims : diff.claims.All Statement.Exchangeable
  siteLinks : diff.siteLinks.All SiteLink.Constructed

theorem Exchangeable.valuesLossless {diff : EntityDiff} (h : diff.Exchangeable) :
    diff.ValuesLossless where
  claims := h.claims.imp fun _ hvalue => hvalue.finite.lossless hvalue.constructed hvalue.guid
  siteLinks := h.siteLinks.imp fun _ => SiteLink.lossless

/-! ## Differences of entities within the limits -/

/-- Differences that are computed from entities of one kind, turned around and merged. -/
inductive Derived (source : Entity → Prop) : EntityDiff → Prop
  | between {old new : Entity} {diff : EntityDiff} (hold : source old) (hnew : source new)
      (h : EntityDiff.between old new = .ok diff) : Derived source diff
  | reverse {diff : EntityDiff} (h : Derived source diff) : Derived source diff.reverse
  | merge {ours theirs merged : EntityDiff} (hours : Derived source ours)
      (htheirs : Derived source theirs) (h : ours.merge theirs = .ok merged) :
      Derived source merged

theorem linksFit_iff {diff : EntityDiff} :
    diff.LinksFit ↔ diff.type = .item ∨ diff.siteLinks = .empty :=
  or_congr_right SortedMap.isEmpty_iff

theorem eq_computed_of_between {old new : Entity} {diff : EntityDiff}
    (h : between old new = .ok diff) : old.type = new.type ∧ diff = computed old new := by
  have htype : old.type = new.type := by
    by_contra hother
    rw [between, if_neg hother] at h
    cases h
  rw [between_of_type htype] at h
  exact ⟨htype, (Except.ok.inj h).symm⟩

theorem joins_of_merge {ours theirs merged : EntityDiff} (h : ours.merge theirs = .ok merged) :
    ours.type = theirs.type ∧ Joins ours theirs merged := by
  have htype : ours.type = theirs.type := by
    by_contra hother
    rw [EntityDiff.merge, if_pos hother] at h
    cases h
  rcases merge_cases htype with ⟨found, hfound, hjoins, -⟩ | ⟨place, hclash, -⟩
  · rw [hfound] at h
    cases h
    exact ⟨htype, hjoins⟩
  · rw [hclash] at h
    cases h

theorem exchangeable_computed {old new : Entity} (hold : old.Exchangeable)
    (hnew : new.Exchangeable) : (computed old new).Exchangeable where
  claims := StatementList.all_diff hold.statements hnew.statements
  siteLinks := by
    have hlinks {entity : Entity} (h : entity.Exchangeable) :
        ∀ entry ∈ entity.siteLinks.toList, entry.2.Constructed :=
      fun entry member => (h.constructed.siteLinks.all entry.1 entry.2
        (SortedMap.get?_eq_some_iff.mpr member)).2
    exact MapDiff.all_between (hlinks hold) (hlinks hnew)

theorem linksFit_computed {old new : Entity} (htype : old.type = new.type) :
    (computed old new).LinksFit := by
  rw [linksFit_iff]
  cases old with
  | item i => exact Or.inl rfl
  | property p =>
      cases new with
      | item i => cases htype
      | property q => exact Or.inr rfl

theorem Joins.linksFit {ours theirs merged : EntityDiff} (h : Joins ours theirs merged)
    (htype : ours.type = theirs.type) (hours : ours.LinksFit) (htheirs : theirs.LinksFit) :
    merged.LinksFit := by
  rw [linksFit_iff] at hours htheirs ⊢
  rw [h.type]
  rcases hours with hitem | hours
  · exact Or.inl hitem
  · rcases htheirs with hitem | htheirs
    · exact Or.inl (htype.trans hitem)
    · right
      apply SortedMap.ext_get?
      intro key
      rw [h.siteLinks, hours, htheirs]
      rfl

theorem Derived.exchangeable {diff : EntityDiff} (h : Derived Entity.Exchangeable diff) :
    diff.Exchangeable ∧ diff.LinksFit := by
  induction h with
  | between hold hnew hbetween =>
      obtain ⟨htype, rfl⟩ := eq_computed_of_between hbetween
      exact ⟨exchangeable_computed hold hnew, linksFit_computed htype⟩
  | @reverse diff _ ih =>
      obtain ⟨hvalues, hlinks⟩ := ih
      refine ⟨⟨hvalues.claims.reverse, hvalues.siteLinks.reverse⟩, ?_⟩
      rw [linksFit_iff] at hlinks ⊢
      refine hlinks.imp_right fun hnone => ?_
      change diff.siteLinks.reverse = .empty
      rw [hnone]
      rfl
  | merge _ _ hmerge ihours ihtheirs =>
      obtain ⟨htype, hjoins⟩ := joins_of_merge hmerge
      refine ⟨⟨?_, ?_⟩, hjoins.linksFit htype ihours.2 ihtheirs.2⟩
      · exact .of_or hjoins.claims ihours.1.claims ihtheirs.1.claims
      · exact .of_or hjoins.siteLinks ihours.1.siteLinks ihtheirs.1.siteLinks

/-- A difference within the limits is read back from its array form as it is, old and new
values and the order inside statements included, unless it has operations on links and is not
a difference of items; then its form is refused. Every difference that is computed from
entities within the limits, turned around or merged is read back. What is read from any form
is read back from its own form. -/
theorem arrayForm_reads_back :
    (∀ diff : EntityDiff, diff.Exchangeable →
      (ofArray (toArray diff) : Except ArrayError EntityDiff) =
        if diff.LinksFit then .ok diff else .error (.invalidField "links" .linksOutsideItem)) ∧
      (∀ diff : EntityDiff, Derived Entity.Exchangeable diff →
        ofArray (toArray diff) = .ok diff) ∧
      ∀ (array : Json) (diff : EntityDiff), array.Finite → ofArray array = .ok diff →
        ofArray (toArray diff) = .ok diff := by
  refine ⟨fun diff hvalues => hvalues.valuesLossless.ofArray_toArray, ?_,
    fun array diff => lossless_ofArray⟩
  intro diff hderived
  obtain ⟨hvalues, hlinks⟩ := hderived.exchangeable
  rw [hvalues.valuesLossless.ofArray_toArray, if_pos hlinks]

/-! ## A capital that changes -/

open Entity (capital locatedStatement)

def placelessStatement : Statement :=
  ((StatementBuilder.ofSnak (.noValue Entity.location)).guid "Q64$1").build

/-- The capital without its place and under another link. -/
def changedCapital : Entity :=
  ((capital []).setStatements [placelessStatement]).setSiteLinks
    (SiteLinks.set .empty ⟨"dewiki", "Berlin", []⟩)

def capitalDiff : EntityDiff := computed (capital ["Q64$1", "Q64$2"]) changedCapital

theorem exchangeable_capital {guids : List String}
    (h : ∀ guid ∈ guids, guid.utf8ByteSize ≤ maxGuidBytes) : (capital guids).Exchangeable where
  constructed := Entity.constructed_capital guids
  finite := Entity.finite_capital guids
  guids := by
    intro statement member
    obtain ⟨guid, hguid, rfl⟩ := List.mem_map.mp member
    rintro _ ⟨⟩
    exact h guid hguid

theorem exchangeable_changedCapital : changedCapital.Exchangeable := by
  refine ⟨((Entity.constructed_capital []).setStatements ?_).setSiteLinks ?_, ?_, ?_⟩
  · intro statement member
    rw [List.mem_singleton.mp member]
    exact StatementBuilder.constructed_guid (StatementBuilder.constructed_ofSnak _) _
  · exact SiteLinks.Constructed.empty.set ⟨"dewiki", "Berlin", [], rfl⟩
  · intro statement member snak hsnak value hvalue
    rw [List.mem_singleton.mp member] at hsnak
    rw [List.mem_singleton.mp hsnak] at hvalue
    cases hvalue
  · intro statement member
    rw [List.mem_singleton.mp member]
    rintro _ ⟨⟩
    decide

/-- A difference of properties with an operation on a link, as no entities have. -/
def linkedPropertyDiff : EntityDiff where
  type := .property
  siteLinks := SortedMap.empty.insert "enwiki" (.add ⟨"enwiki", "Berlin", []⟩)

/-- A form with an empty section and a link under the key of another site. -/
def looseDiffForm : Json :=
  .object [("type", .text "diff/item"), ("labels", .object []),
    ("links", .object [("dewiki", .object [("op", .text "remove"),
      ("old", .object [("site", .text "enwiki"), ("title", .text "Berlin"),
        ("badges", .array [.text "q2", .text "Q1", .text "Q2"])])])])]

def looseDiff : EntityDiff where
  type := .item
  siteLinks := SortedMap.empty.insert "dewiki"
    (.remove ⟨"enwiki", "Berlin", Entity.capitalBadges⟩)

/-- The operations of a section by their names. -/
def operations {α : Type} (ops : MapDiff α) : List (String × String) :=
  ops.toList.map fun (key, op) => (key, op.name)

theorem arrayForm_of_changed_capital :
    (capital ["Q64$1", "Q64$2"]).Exchangeable ∧ changedCapital.Exchangeable ∧
      between (capital ["Q64$1", "Q64$2"]) changedCapital = .ok capitalDiff ∧
      operations capitalDiff.labels = [] ∧ operations capitalDiff.aliases = [] ∧
      operations capitalDiff.claims = [("Q64$1", "change"), ("Q64$2", "remove")] ∧
      operations capitalDiff.siteLinks = [("dewiki", "add"), ("enwiki", "remove")] ∧
      ofArray (toArray capitalDiff) = .ok capitalDiff ∧
      ofArray (toArray capitalDiff.reverse) = .ok capitalDiff.reverse ∧
      linkedPropertyDiff.Exchangeable ∧ ¬linkedPropertyDiff.LinksFit ∧
      (ofArray (toArray linkedPropertyDiff) : Except ArrayError EntityDiff) =
        .error (.invalidField "links" .linksOutsideItem) ∧
      looseDiffForm.Finite ∧ ofArray looseDiffForm = .ok looseDiff ∧
      ofArray (toArray looseDiff) = .ok looseDiff := by
  have hold : (capital ["Q64$1", "Q64$2"]).Exchangeable := exchangeable_capital (by decide)
  have hbetween : between (capital ["Q64$1", "Q64$2"]) changedCapital = .ok capitalDiff := rfl
  have hderived : Derived Entity.Exchangeable capitalDiff :=
    .between hold exchangeable_changedCapital hbetween
  have hlinked : linkedPropertyDiff.Exchangeable := by
    refine ⟨.empty, SortedMap.All.empty.insert ⟨nofun, ?_⟩⟩
    rintro _ ⟨⟩
    exact ⟨"enwiki", "Berlin", [], rfl⟩
  have hnofit : ¬linkedPropertyDiff.LinksFit := by decide
  have hfinite : looseDiffForm.Finite := by simp [looseDiffForm]
  have hread : ofArray looseDiffForm = .ok looseDiff := by rfl
  refine ⟨hold, exchangeable_changedCapital, hbetween, by decide, by decide, ?_, ?_,
    arrayForm_reads_back.2.1 _ hderived, arrayForm_reads_back.2.1 _ hderived.reverse, hlinked,
    hnofit, ?_, hfinite, hread, arrayForm_reads_back.2.2 _ _ hfinite hread⟩
  · rfl
  · rfl
  · rw [arrayForm_reads_back.1 _ hlinked, if_neg hnofit]

end EntityDiff

end KnowledgeBase
