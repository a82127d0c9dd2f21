import KnowledgeBase.Diff.Statement
import KnowledgeBase.Proofs.Reference.Order
import KnowledgeBase.Proofs.Snak

/-!
What the difference between two versions of a statement says. It is empty exactly if the
versions have the same parts, it turns the parts of the one into those of the other, it says
nothing twice, and seen from the other side it is the same with its sides exchanged.
Qualifiers are a set of snaks and references a set of hashes here; their order is not looked
at, and neither are identifiers.
-/

namespace KnowledgeBase

/-- Whether two versions of a statement have the same parts, in whatever order. -/
structure Statement.SameParts (old new : Statement) : Prop where
  mainSnak : (old.mainSnak == new.mainSnak) = true
  rank : old.rank = new.rank
  qualifiers : ∀ snak, old.qualifiers.contains snak = new.qualifiers.contains snak
  references : ∀ hash, hash ∈ old.references.hashes ↔ hash ∈ new.references.hashes

theorem Statement.NaNFree.qualifier {statement : Statement} (h : statement.NaNFree) {snak : Snak}
    (hsnak : snak ∈ statement.qualifiers.snaks) : snak.NaNFree :=
  h snak (List.mem_append_left _ (List.mem_cons_of_mem _ hsnak))

namespace StatementDifference

/-- Removes and adds the qualifiers that a difference names. -/
def patchQualifiers (difference : StatementDifference) (list : SnakList) : SnakList :=
  difference.addedQualifiers.foldl .add (difference.removedQualifiers.foldl .remove list)

/-- Removes the references with the hashes that a difference names, and adds those it has. -/
def patchReferences (difference : StatementDifference) (list : ReferenceList) : ReferenceList :=
  difference.addedReferences.foldl .add
    ((difference.removedReferences.map Reference.hash).foldl .remove list)

/-- The difference as it is seen from the other version. -/
def exchanged (difference : StatementDifference) : StatementDifference where
  mainSnak? := difference.mainSnak?.map Prod.swap
  rank? := difference.rank?.map Prod.swap
  addedQualifiers := difference.removedQualifiers
  removedQualifiers := difference.addedQualifiers
  addedReferences := difference.removedReferences
  removedReferences := difference.addedReferences

/-- Whether nothing is named twice, neither on one side nor on both. -/
structure Irredundant (difference : StatementDifference) : Prop where
  addedQualifiers : difference.addedQualifiers.Pairwise fun first second =>
    (first == second) = false
  removedQualifiers : difference.removedQualifiers.Pairwise fun first second =>
    (first == second) = false
  qualifiers : ∀ added ∈ difference.addedQualifiers, ∀ removed ∈ difference.removedQualifiers,
    (added == removed) = false
  addedReferences : (difference.addedReferences.map Reference.hash).Nodup
  removedReferences : (difference.removedReferences.map Reference.hash).Nodup
  references : (difference.addedReferences.map Reference.hash).Disjoint
    (difference.removedReferences.map Reference.hash)

variable {old new : Statement}

/-! ## What stands on each side -/

theorem mem_addedQualifiers {snak : Snak} :
    snak ∈ (between old new).addedQualifiers ↔
      snak ∈ new.qualifiers.snaks ∧ old.qualifiers.contains snak = false := by
  simp [between]

theorem mem_removedQualifiers {snak : Snak} :
    snak ∈ (between old new).removedQualifiers ↔
      snak ∈ old.qualifiers.snaks ∧ new.qualifiers.contains snak = false := by
  simp [between]

theorem mem_addedHashes {hash : String} :
    hash ∈ (between old new).addedReferences.map Reference.hash ↔
      hash ∈ new.references.hashes ∧ hash ∉ old.references.hashes := by
  simp only [between, List.mem_map, List.mem_filter, Bool.not_eq_true', ← Bool.not_eq_true,
    ReferenceList.contains_iff, ReferenceList.hashes]
  constructor
  · rintro ⟨reference, ⟨hmember, habsent⟩, rfl⟩
    exact ⟨⟨reference, hmember, rfl⟩, habsent⟩
  · rintro ⟨⟨reference, hmember, rfl⟩, habsent⟩
    exact ⟨reference, ⟨hmember, habsent⟩, rfl⟩

theorem mem_removedHashes {hash : String} :
    hash ∈ (between old new).removedReferences.map Reference.hash ↔
      hash ∈ old.references.hashes ∧ hash ∉ new.references.hashes := by
  change hash ∈ (between new old).addedReferences.map Reference.hash ↔ _
  exact mem_addedHashes

/-! ## Emptiness -/

/-- If all members are there, so is all that equals one of them. -/
theorem forall_contains_iff {list list' : SnakList}
    (hself : ∀ snak ∈ list.snaks, snak.NaNFree) :
    (∀ snak ∈ list.snaks, list'.contains snak = true) ↔
      ∀ snak, list.contains snak = true → list'.contains snak = true := by
  constructor
  · intro h snak hsnak
    obtain ⟨member, hmember, hsame⟩ := SnakList.contains_iff_exists.mp hsnak
    rw [← SnakList.contains_congr hsame]
    exact h member hmember
  · intro h snak hsnak
    exact h snak (SnakList.contains_of_mem hsnak (hself snak hsnak))

theorem addedQualifiers_eq_nil_iff (hnew : new.NaNFree) :
    (between old new).addedQualifiers = [] ↔
      ∀ snak, new.qualifiers.contains snak = true → old.qualifiers.contains snak = true := by
  rw [← forall_contains_iff fun _ => hnew.qualifier]
  simp [between, List.filter_eq_nil_iff]

theorem addedReferences_eq_nil_iff :
    (between old new).addedReferences = [] ↔
      ∀ hash, hash ∈ new.references.hashes → hash ∈ old.references.hashes := by
  rw [← List.map_eq_nil_iff (f := Reference.hash), List.eq_nil_iff_forall_not_mem]
  simp only [mem_addedHashes, not_and, not_not]

theorem isEmpty_iff_nil {difference : StatementDifference} :
    difference.isEmpty = true ↔
      difference.mainSnak? = none ∧ difference.rank? = none ∧
        (difference.addedQualifiers = [] ∧ difference.removedQualifiers = []) ∧
        difference.addedReferences = [] ∧ difference.removedReferences = [] := by
  simp only [isEmpty, Bool.and_eq_true, Option.isNone_iff_eq_none, List.isEmpty_iff, and_assoc]

theorem isEmpty_between_iff (hold : old.NaNFree) (hnew : new.NaNFree) :
    (between old new).isEmpty = true ↔ old.SameParts new := by
  have hmain : (between old new).mainSnak? = none ↔ (old.mainSnak == new.mainSnak) = true := by
    simp [between]
  have hrank : (between old new).rank? = none ↔ old.rank = new.rank := by
    simp [between]
  have hqualifiers : (between old new).addedQualifiers = [] ∧
      (between old new).removedQualifiers = [] ↔
        ∀ snak, old.qualifiers.contains snak = new.qualifiers.contains snak := by
    change _ ∧ (between new old).addedQualifiers = [] ↔ _
    rw [addedQualifiers_eq_nil_iff hnew, addedQualifiers_eq_nil_iff hold, ← forall_and]
    exact forall_congr' fun snak => (and_comm.trans iff_def.symm).trans Bool.eq_iff_iff.symm
  have hreferences : (between old new).addedReferences = [] ∧
      (between old new).removedReferences = [] ↔
        ∀ hash, hash ∈ old.references.hashes ↔ hash ∈ new.references.hashes := by
    change _ ∧ (between new old).addedReferences = [] ↔ _
    rw [addedReferences_eq_nil_iff, addedReferences_eq_nil_iff, ← forall_and]
    exact forall_congr' fun hash => and_comm.trans iff_def.symm
  rw [isEmpty_iff_nil, hmain, hrank, hqualifiers, hreferences]
  constructor
  · rintro ⟨hmain, hrank, hqualifiers, hreferences⟩
    exact ⟨hmain, hrank, hqualifiers, hreferences⟩
  · rintro ⟨hmain, hrank, hqualifiers, hreferences⟩
    exact ⟨hmain, hrank, hqualifiers, hreferences⟩

/-! ## From one version to the other -/

/-- A snak of the old version stays exactly if it equals one of the new version. -/
theorem contains_patchQualifiers (hdistinct : old.qualifiers.Distinct) (hold : old.NaNFree)
    (hnew : new.NaNFree) (snak : Snak) :
    ((between old new).patchQualifiers old.qualifiers).contains snak =
      new.qualifiers.contains snak := by
  rw [patchQualifiers, SnakList.contains_foldl_add, Bool.eq_iff_iff, Bool.or_eq_true,
    SnakList.contains_iff_exists, hdistinct.snaks_foldl_remove, List.any_eq_true]
  constructor
  · rintro (⟨member, hmember, hsame⟩ | ⟨added, hadded, hsame⟩)
    · obtain ⟨hmember, hkept⟩ := List.mem_filter.mp hmember
      rw [← SnakList.contains_congr hsame]
      by_contra habsent
      -- It would be among the removed snaks, and it equals itself.
      have hremoved := mem_removedQualifiers.mpr ⟨hmember, Bool.eq_false_of_not_eq_true habsent⟩
      have hself := (hold.qualifier hmember).beq_self
      rw [List.any_eq_true.mpr ⟨member, hremoved, hself⟩] at hkept
      cases hkept
    · exact SnakList.contains_iff_exists.mpr ⟨added, (mem_addedQualifiers.mp hadded).1, hsame⟩
  · intro hpresent
    obtain ⟨member, hmember, hsame⟩ := SnakList.contains_iff_exists.mp hpresent
    cases hknown : old.qualifiers.contains member with
    | false => exact Or.inr ⟨member, mem_addedQualifiers.mpr ⟨hmember, hknown⟩, hsame⟩
    | true =>
        obtain ⟨known, hmemberOld, hknown⟩ := SnakList.contains_iff_exists.mp hknown
        refine Or.inl ⟨known, List.mem_filter.mpr ⟨hmemberOld, ?_⟩, BEq.trans hknown hsame⟩
        -- A removed snak equal to it would equal a member of the new version.
        rw [Bool.not_eq_true', List.any_eq_false]
        intro removed hremoved hequal
        have habsent := (mem_removedQualifiers.mp hremoved).2
        have hthere := SnakList.contains_of_mem hmember (hnew.qualifier hmember)
        rw [← SnakList.contains_congr hequal, SnakList.contains_congr hknown, hthere] at habsent
        cases habsent

theorem mem_hashes_patchReferences (hdistinct : old.references.hashes.Nodup) (hash : String) :
    hash ∈ ((between old new).patchReferences old.references).hashes ↔
      hash ∈ new.references.hashes := by
  rw [patchReferences, ReferenceList.mem_hashes_foldl_add,
    ReferenceList.mem_hashes_foldl_remove hdistinct, mem_addedHashes, mem_removedHashes]
  tauto

/-! ## Nothing twice, and both sides alike -/

theorem irredundant_between (hold : old.Constructed) (hnew : new.Constructed) :
    (between old new).Irredundant where
  addedQualifiers := hnew.qualifiers.distinct.filter _
  removedQualifiers := hold.qualifiers.distinct.filter _
  qualifiers := by
    intro added hadded removed hremoved
    obtain ⟨-, habsent⟩ := mem_addedQualifiers.mp hadded
    obtain ⟨hmember, -⟩ := mem_removedQualifiers.mp hremoved
    rw [BEq.comm]
    exact SnakList.contains_eq_false_iff.mp habsent removed hmember
  addedReferences := hnew.references.nodup_hashes.sublist (List.filter_sublist.map _)
  removedReferences := hold.references.nodup_hashes.sublist (List.filter_sublist.map _)
  references := by
    intro hash hadded hremoved
    exact (mem_addedHashes.mp hadded).2 (mem_removedHashes.mp hremoved).1

theorem between_comm (old new : Statement) : between new old = (between old new).exchanged := by
  have hmain : (between new old).mainSnak? = (between old new).mainSnak?.map Prod.swap := by
    rw [between, between, BEq.comm]
    split <;> rfl
  have hrank : (between new old).rank? = (between old new).rank?.map Prod.swap := by
    by_cases hsame : old.rank = new.rank
    · simp [between, hsame]
    · simp [between, hsame, Ne.symm hsame]
  rw [exchanged, ← hmain, ← hrank]
  rfl

/-- The difference of two versions says what differs, all of it and nothing twice, and it says
the same from either side. -/
theorem between_complete (hold : old.Constructed) (hnew : new.Constructed)
    (holdFree : old.NaNFree) (hnewFree : new.NaNFree) :
    ((between old new).isEmpty = true ↔ old.SameParts new) ∧
      (∀ snak, ((between old new).patchQualifiers old.qualifiers).contains snak =
        new.qualifiers.contains snak) ∧
      (∀ hash, hash ∈ ((between old new).patchReferences old.references).hashes ↔
        hash ∈ new.references.hashes) ∧
      (between old new).Irredundant ∧ between new old = (between old new).exchanged :=
  ⟨isEmpty_between_iff holdFree hnewFree,
    contains_patchQualifiers hold.qualifiers.distinct holdFree hnewFree,
    mem_hashes_patchReferences hold.references.nodup_hashes,
    irredundant_between hold hnew, between_comm old new⟩

/-- The rank and one of two qualifiers have changed, and a reference has been added. -/
theorem between_complete_for_rank :
    let kept : Snak := .noValue ⟨1, by decide, by decide⟩
    let left : Snak := .noValue ⟨2, by decide, by decide⟩
    let come : Snak := .someValue ⟨2, by decide, by decide⟩
    let old : Statement := { claim := { mainSnak := kept, qualifiers := .ofList [kept, left] } }
    let new : Statement :=
      { claim := { mainSnak := kept, qualifiers := .ofList [come, kept] }
        rank := .preferred
        references := .ofList [.ofSnaks [kept]] }
    old.Constructed ∧ new.Constructed ∧ old.NaNFree ∧ new.NaNFree ∧
      (between old new).addedQualifiers = [come] ∧
      (between old new).removedQualifiers = [left] ∧ ¬old.SameParts new ∧
      between new old = (between old new).exchanged := by
  intro kept left come old new
  have hold : old.Constructed := ⟨SnakList.constructed_ofList _, .empty⟩
  have hnew : new.Constructed :=
    ⟨SnakList.constructed_ofList _, ReferenceList.Constructed.empty.add
      (SnakList.constructed_ofList _)⟩
  have hfree : kept.NaNFree ∧ left.NaNFree ∧ come.NaNFree := ⟨nofun, nofun, nofun⟩
  have holdFree : old.NaNFree := by
    have hsnaks : old.allSnaks = [kept, kept, left] := rfl
    simp [Statement.NaNFree, hsnaks, hfree]
  have hnewFree : new.NaNFree := by
    have hsnaks : new.allSnaks = [kept, come, kept, kept] := rfl
    simp [Statement.NaNFree, hsnaks, hfree]
  obtain ⟨hempty, -, -, -, hcomm⟩ := between_complete hold hnew holdFree hnewFree
  have hchanged : (between old new).isEmpty = false := rfl
  refine ⟨hold, hnew, holdFree, hnewFree, rfl, rfl, ?_, hcomm⟩
  rw [← hempty, hchanged]
  exact Bool.false_ne_true

end StatementDifference

end KnowledgeBase
