import KnowledgeBase.Proofs.Construction

/-!
The order of references. What is added comes last, what is taken out leaves the others as they
are, and what is put at a place comes there among the others, wherever it was before. The
statements are about lists whose hashes are all different; no other lists are ever made.
-/

namespace KnowledgeBase.ReferenceList

variable {list : ReferenceList}

theorem references_add (list : ReferenceList) (reference : Reference) :
    (list.add reference).references =
      if reference.hash ∈ list.hashes then list.references
      else list.references ++ [reference] := by
  simp only [add, contains_iff]
  split <;> rfl

/-- Only one reference can have the hash, so to take out the first of them is to keep the
others. -/
theorem references_remove_of_nodup (h : list.hashes.Nodup) (hash : String) :
    (list.remove hash).references = list.references.filter (·.hash != hash) := by
  rw [references_remove]
  refine eraseP_eq_filter ((List.pairwise_map.mp h).imp fun {first second} hdiffer hfirst => ?_)
  rw [beq_iff_eq] at hfirst
  rw [← hfirst]
  exact beq_false_of_ne hdiffer.symm

/-- What a condition does not admit may be put anywhere before the members are sifted. -/
theorem filter_insertIdx {α : Type} (condition : α → Bool) {member : α}
    (h : condition member = false) (members : List α) (index : Nat) :
    (members.insertIdx index member).filter condition = members.filter condition := by
  induction index generalizing members with
  | zero => simp [h]
  | succ index ih =>
      cases members with
      | nil => rfl
      | cons first members =>
          rw [List.insertIdx_succ_cons, List.filter_cons, List.filter_cons, ih]

/-- How a reference is put at a place: those with another hash stay in their order, and it is
the only one with its own. -/
structure Placed (reference : Reference) (index : Nat) (before after : List Reference) : Prop where
  place : after[min index (before.filter (·.hash != reference.hash)).length]? = some reference
  others : after.filter (·.hash != reference.hash) = before.filter (·.hash != reference.hash)
  alone : after.filter (·.hash == reference.hash) = [reference]

theorem placed_insertAt (h : list.hashes.Nodup) (reference : Reference) (index : Nat) :
    Placed reference index list.references (list.insertAt reference index).references := by
  have hothers := references_remove_of_nodup h reference.hash
  constructor
  · rw [← hothers]
    refine List.getElem?_insertIdx_self.trans (if_pos ?_)
    exact Nat.min_le_right _ _
  · let differs (member : Reference) : Bool := member.hash != reference.hash
    have hself : differs reference = false := bne_self_eq_false _
    refine (filter_insertIdx differs hself _ _).trans ?_
    rw [hothers, List.filter_filter]
    simp only [differs, Bool.and_self]
  · have hself : (reference.hash == reference.hash) = true := beq_self_eq_true _
    have hperm := (perm_insertAt list reference index).filter (·.hash == reference.hash)
    have hnone : (list.remove reference.hash).references.filter (·.hash == reference.hash) =
        [] := by
      rw [hothers, List.filter_filter, List.filter_eq_nil_iff]
      simp
    rw [List.filter_cons, if_pos hself, hnone] at hperm
    exact List.perm_singleton.mp hperm

/-! ## The hashes as a set -/

theorem mem_hashes_add (list : ReferenceList) (reference : Reference) (hash : String) :
    hash ∈ (list.add reference).hashes ↔ hash ∈ list.hashes ∨ hash = reference.hash := by
  rw [hashes, references_add]
  split
  next hpresent =>
    refine ⟨Or.inl, fun h => h.elim id ?_⟩
    rintro rfl
    exact hpresent
  next => simp [hashes]

theorem mem_hashes_foldl_add (added : List Reference) (list : ReferenceList) (hash : String) :
    hash ∈ (added.foldl ReferenceList.add list).hashes ↔
      hash ∈ list.hashes ∨ hash ∈ added.map Reference.hash := by
  induction added generalizing list with
  | nil => simp
  | cons first added ih =>
      rw [List.foldl_cons, ih, mem_hashes_add, List.map_cons, List.mem_cons, or_assoc]

theorem mem_hashes_foldl_remove (h : list.hashes.Nodup) (removed : List String) (hash : String) :
    hash ∈ (removed.foldl ReferenceList.remove list).hashes ↔
      hash ∈ list.hashes ∧ hash ∉ removed := by
  induction removed generalizing list with
  | nil => simp
  | cons first removed ih =>
      have hrest : (list.remove first).hashes.Nodup := by
        rw [hashes_remove]
        exact h.erase first
      rw [List.foldl_cons, ih hrest, hashes_remove, h.mem_erase_iff, List.mem_cons, not_or]
      constructor
      · rintro ⟨⟨hother, hmember⟩, hkept⟩
        exact ⟨hmember, hother, hkept⟩
      · rintro ⟨hmember, hother, hkept⟩
        exact ⟨⟨hother, hmember⟩, hkept⟩

end KnowledgeBase.ReferenceList
