import KnowledgeBase.Proofs.Diff.Operations
import KnowledgeBase.Proofs.Diff.Replay

/-!
What a computed difference holds, and taking it back. At each place there is the operation
from the old value to the new one, exactly where the two differ. Reversing the operations
exchanges the two sides, so the reverse is the difference that would be computed in the
opposite direction, and applying it leads back.
-/

namespace KnowledgeBase

variable {α : Type}

/-! ## One place -/

namespace DiffOp

/-- The operation from one value to another is an addition, a removal or a change of exactly
these values, and there is none between equal ones. -/
theorem between?_eq_some_iff [BEq α] {old new : Option α} {op : DiffOp α} :
    between? old new = some op ↔
      (∃ value, old = none ∧ new = some value ∧ op = .add value) ∨
      (∃ value, old = some value ∧ new = none ∧ op = .remove value) ∨
      ∃ before after, old = some before ∧ new = some after ∧ (before == after) = false ∧
        op = .change before after := by
  constructor
  · intro h
    cases old with
    | none =>
        cases new with
        | none => cases h
        | some after =>
            cases h
            exact Or.inl ⟨after, rfl, rfl, rfl⟩
    | some before =>
        cases new with
        | none =>
            cases h
            exact Or.inr (Or.inl ⟨before, rfl, rfl, rfl⟩)
        | some after =>
            simp only [between?] at h
            split at h
            next => cases h
            next hdiffer =>
              cases h
              exact Or.inr (Or.inr ⟨before, after, rfl, rfl, by simpa using hdiffer, rfl⟩)
  · rintro (⟨value, rfl, rfl, rfl⟩ | ⟨value, rfl, rfl, rfl⟩ |
      ⟨before, after, rfl, rfl, hdiffer, rfl⟩)
    · rfl
    · rfl
    · simp [between?, hdiffer]

/-- Reversed, an operation leads from the new value to the old one. -/
theorem reverse_between? [BEq α] [PartialEquivBEq α] (old new : Option α) :
    (between? old new).map reverse = between? new old := by
  cases old with
  | none => cases new <;> rfl
  | some before =>
      cases new with
      | none => rfl
      | some after =>
          have hsymm : (before == after) = (after == before) :=
            Bool.eq_iff_iff.mpr ⟨PartialEquivBEq.symm, PartialEquivBEq.symm⟩
          simp only [between?, hsymm]
          split <;> rfl

end DiffOp

theorem MapDiff.get?_reverse (diff : MapDiff α) (key : String) :
    diff.reverse.get? key = (diff.get? key).map DiffOp.reverse := by
  ext op
  rw [Option.map_eq_some_iff, SortedMap.get?_eq_some_iff]
  constructor
  · intro member
    obtain ⟨⟨found, before⟩, hbefore, hentry⟩ := List.mem_map.mp member
    cases hentry
    exact ⟨before, SortedMap.get?_eq_some_iff.mpr hbefore, rfl⟩
  · rintro ⟨before, hbefore, rfl⟩
    exact List.mem_map.mpr ⟨(key, before), SortedMap.get?_eq_some_iff.mp hbefore, rfl⟩

theorem Entity.NaNFree.valueAt_beq_self {entity : Entity} (h : entity.NaNFree)
    (place : Conflict) : (entity.valueAt place == entity.valueAt place) = true := by
  obtain ⟨part, key⟩ := place
  cases part with
  | labels | descriptions =>
      exact (map_beq_map SectionValue.text (fun _ _ => rfl) _ _).trans BEq.rfl
  | aliases => exact (map_beq_map SectionValue.aliases (fun _ _ => rfl) _ _).trans BEq.rfl
  | claims =>
      exact (map_beq_map SectionValue.statement (fun _ _ => rfl) _ _).trans
        (StatementList.get?_byKey_beq_self h key)
  | siteLinks => exact (map_beq_map SectionValue.link (fun _ _ => rfl) _ _).trans BEq.rfl

namespace EntityDiff

/-! ## What a computed difference holds -/

/-- At each place a computed difference has the operation from the old to the new value. -/
theorem operationAt_computed (old new : Entity) (place : Conflict) :
    (computed old new).operationAt place =
      DiffOp.between? (old.valueAt place) (new.valueAt place) := by
  obtain ⟨part, key⟩ := place
  have hmap {α : Type} [BEq α] {f : α → SectionValue}
      (hf : ∀ first second, (f first == f second) = (first == second))
      (before after : SortedMap String α) :
      ((MapDiff.between before.toList after.toList).get? key).map (DiffOp.map f) =
        DiffOp.between? ((before.get? key).map f) ((after.get? key).map f) := by
    rw [MapDiff.get?_between, SortedMap.ofList_toList, SortedMap.ofList_toList,
      DiffOp.between?_map hf]
  cases part with
  | labels | descriptions => exact hmap (f := .text) (fun _ _ => rfl) _ _
  | aliases => exact hmap (f := .aliases) (fun _ _ => rfl) _ _
  | siteLinks => exact hmap (f := .link) (fun _ _ => rfl) _ _
  | claims =>
      simp only [operationAt, computed, Entity.valueAt]
      rw [StatementList.get?_diff,
        DiffOp.between?_map (f := SectionValue.statement) fun _ _ => rfl]

private theorem isEmpty_section_iff {f : α → SectionValue} {diff : MapDiff α} :
    diff.size = 0 ↔ ∀ key, (diff.get? key).map (DiffOp.map f) = none := by
  have hsize : diff.size = 0 ↔ diff.isEmpty = true := by
    rw [SortedMap.size, SortedMap.isEmpty, List.isEmpty_iff, List.length_eq_zero_iff]
  rw [hsize, SortedMap.isEmpty_iff]
  simp only [Option.map_eq_none_iff]
  constructor
  · rintro rfl key
    exact SortedMap.get?_empty key
  · intro h
    exact SortedMap.ext_get? h

theorem isEmpty_iff_operationAt {diff : EntityDiff} :
    diff.isEmpty = true ↔ ∀ place, diff.operationAt place = none := by
  have hsizes : diff.isEmpty = true ↔ diff.labels.size = 0 ∧ diff.descriptions.size = 0 ∧
      diff.aliases.size = 0 ∧ diff.claims.size = 0 ∧ diff.siteLinks.size = 0 := by
    simp only [isEmpty, size, sizes, List.foldl_cons, List.foldl_nil, beq_iff_eq]
    omega
  rw [hsizes, isEmpty_section_iff (f := .text), isEmpty_section_iff (f := .text),
    isEmpty_section_iff (f := .aliases), isEmpty_section_iff (f := .statement),
    isEmpty_section_iff (f := .link)]
  constructor
  · rintro ⟨hlabels, hdescriptions, haliases, hclaims, hlinks⟩ ⟨part, key⟩
    cases part with
    | labels => exact hlabels key
    | descriptions => exact hdescriptions key
    | aliases => exact haliases key
    | claims => exact hclaims key
    | siteLinks => exact hlinks key
  · intro h
    exact ⟨fun key => h ⟨.labels, key⟩, fun key => h ⟨.descriptions, key⟩,
      fun key => h ⟨.aliases, key⟩, fun key => h ⟨.claims, key⟩, fun key => h ⟨.siteLinks, key⟩⟩

theorem isEmpty_computed_iff {old new : Entity} : (computed old new).isEmpty = true ↔
    ∀ place, (old.valueAt place == new.valueAt place) = true := by
  simp only [isEmpty_iff_operationAt, operationAt_computed, DiffOp.between?_eq_none_iff]

/-! ## The reverse -/

theorem operationAt_reverse (diff : EntityDiff) (place : Conflict) :
    diff.reverse.operationAt place = (diff.operationAt place).map DiffOp.reverse := by
  obtain ⟨part, key⟩ := place
  have hsection {α : Type} (f : α → SectionValue) (ops : MapDiff α) :
      (ops.reverse.get? key).map (DiffOp.map f) =
        ((ops.get? key).map (DiffOp.map f)).map DiffOp.reverse := by
    rw [MapDiff.get?_reverse, Option.map_map, Option.map_map]
    congr 1
    funext op
    exact (DiffOp.reverse_map f op).symm
  cases part with
  | labels => exact hsection .text diff.labels
  | descriptions => exact hsection .text diff.descriptions
  | aliases => exact hsection .aliases diff.aliases
  | claims => exact hsection .statement diff.claims
  | siteLinks => exact hsection .link diff.siteLinks

theorem reverse_reverse (diff : EntityDiff) : diff.reverse.reverse = diff := by
  refine ext_operationAt rfl fun place => ?_
  rw [operationAt_reverse, operationAt_reverse, Option.map_map,
    show DiffOp.reverse ∘ DiffOp.reverse = (id : DiffOp SectionValue → _) from
      funext DiffOp.reverse_reverse, Option.map_id, id]

theorem reverse_computed {old new : Entity} (htype : old.type = new.type) :
    (computed old new).reverse = computed new old := by
  refine ext_operationAt htype fun place => ?_
  rw [operationAt_reverse, operationAt_computed, operationAt_computed, DiffOp.reverse_between?]

/-! ## Exactness and undoing -/

/-- What the difference between two entities has to be. Places of statements are the keys of
their lists, where of several statements with one key the last counts. -/
structure Exact (old new : Entity) (diff : EntityDiff) : Prop where
  operation : ∀ place op, diff.operationAt place = some op ↔
    (∃ value, old.valueAt place = none ∧ new.valueAt place = some value ∧ op = .add value) ∨
    (∃ value, old.valueAt place = some value ∧ new.valueAt place = none ∧ op = .remove value) ∨
    ∃ before after, old.valueAt place = some before ∧ new.valueAt place = some after ∧
      (before == after) = false ∧ op = .change before after
  present : ∀ place, (diff.operationAt place).isSome ↔
    (old.valueAt place == new.valueAt place) = false
  empty : diff.isEmpty = true ↔ ∀ place, (old.valueAt place == new.valueAt place) = true

theorem exact_computed (old new : Entity) : Exact old new (computed old new) where
  operation place op := by rw [operationAt_computed, DiffOp.between?_eq_some_iff]
  present place := by
    rw [operationAt_computed, Bool.eq_false_iff, ne_eq, ← DiffOp.between?_eq_none_iff,
      Option.isSome_iff_ne_none]
  empty := isEmpty_computed_iff

/-- What is left when a difference is taken back from `new`: the content of `old` under the
id of `new`, with each statement key of `old` once and as many statements as `old` has. -/
structure TakenBack (old new undone : Entity) : Prop where
  content : undone.SameContent old
  keys : (StatementList.keys undone.statements).Perm (StatementList.keys old.statements)
  distinct : (StatementList.keys undone.statements).Nodup
  length : undone.statements.length = old.statements.length
  id? : undone.id? = new.id?
  dataType? : undone.dataType? = new.dataType?

theorem run_apply_reverse {old new : Entity} (htype : old.type = new.type)
    (hnan : new.NaNFree) (hold : old.Regular) (hnew : new.statements.WellNumbered) :
    ∃ undone, (computed old new).reverse.apply.run new = .ok () undone ∧
      TakenBack old new undone := by
  have hself : new.SameContent new :=
    { type := rfl
      fingerprint := rfl
      siteLinks? := rfl
      statements := StatementList.get?_byKey_beq_self hnan }
  have hcontent := sameContent_patched hnew hself hold htype.symm
  have hnumbered := wellNumbered_patched hnew hself hold
  rw [reverse_computed htype]
  refine ⟨_, (fit_computed new hold.sound).run_apply rfl, ?_⟩
  exact
    { content := hcontent
      keys := hcontent.statements.perm_keys hnumbered.nodup_keys hold.statements.nodup_keys
      distinct := hnumbered.nodup_keys
      length := hcontent.statements.length_eq hnumbered.nodup_keys hold.statements.nodup_keys
      id? := patched_id? _ _
      dataType? := patched_dataType? _ _ }

/-- Between entities of one type there is an exact difference, and none from an entity to
itself. Its reverse is the difference in the opposite direction, and applied to the new
entity it gives back the content of the old one. -/
theorem between_exact_and_undone {old new : Entity} (htype : old.type = new.type)
    (hold : old.NaNFree) (hnew : new.NaNFree) :
    ∃ diff, between old new = .ok diff ∧ Exact old new diff ∧
      (∃ own, between old old = .ok own ∧ own.isEmpty = true) ∧
      between new old = .ok diff.reverse ∧
      (∀ other : EntityDiff, other.reverse.reverse = other) ∧
      (old.Regular → new.statements.WellNumbered →
        ∃ undone, diff.reverse.apply.run new = .ok () undone ∧ TakenBack old new undone) := by
  refine ⟨computed old new, between_of_type htype, exact_computed old new, ?_, ?_,
    reverse_reverse, run_apply_reverse htype hnew⟩
  · exact ⟨computed old old, between_of_type rfl, isEmpty_computed_iff.mpr hold.valueAt_beq_self⟩
  · rw [reverse_computed htype, between_of_type htype.symm]

/-- A label is changed and, of two statements without identifier, one is replaced by a
statement with an identifier; the difference is taken back. -/
theorem between_exact_and_undone_of_items :
    let old := labelledItem none "ant" [bareStatement none .normal, bareStatement none .normal]
    let new := labelledItem none "bee" [bareStatement (some "Q1$1") .preferred,
      bareStatement none .normal]
    old.Regular ∧ new.statements.WellNumbered ∧
      ∃ diff undone, between old new = .ok diff ∧ Exact old new diff ∧
        diff.reverse.apply.run new = .ok () undone ∧ TakenBack old new undone := by
  intro old new
  have hold : old.Regular :=
    regular_labelledItem none (by decide) (by simp) (by decide)
  have hnew : new.statements.WellNumbered := by
    refine ⟨⟨by decide, ?_⟩, by decide⟩
    simp [new, labelledItem, Entity.statements, StatementList.guids, bareStatement,
      Statement.guid?, looksHashed, hashKeyMark]
  have hnan : new.NaNFree := by
    simp [new, labelledItem, Entity.NaNFree, Entity.statements, nanFree_bareStatement]
  have htype : old.type = new.type := rfl
  obtain ⟨diff, hdiff, hexact, -, -, -, hundo⟩ :=
    between_exact_and_undone htype hold.nanFree hnan
  obtain ⟨undone, hrun, htaken⟩ := hundo hold hnew
  exact ⟨hold, hnew, diff, undone, hdiff, hexact, hrun, htaken⟩

end EntityDiff

end KnowledgeBase
