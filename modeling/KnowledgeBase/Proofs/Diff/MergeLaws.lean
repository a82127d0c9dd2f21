import KnowledgeBase.Proofs.Diff.Operations
import KnowledgeBase.Proofs.Except

/-!
The laws of merging. Differences of one type are ordered by the operations they have, up to
equality of values, and a merge is the least difference above both sides; it is refused
exactly if there is none. Place by place it is the first of two operations that do not
contradict each other, so that order, repetition and grouping do not matter follows from the
same facts about one place.
-/

namespace KnowledgeBase

/-! ## One place -/

namespace DiffOp

variable {α : Type} [BEq α]

/-- Whether two operations, if both are there, are equal. -/
def Agree (first second : Option (DiffOp α)) : Prop :=
  ∀ op ∈ first, ∀ op' ∈ second, (op == op') = true

theorem agree_none_left (second : Option (DiffOp α)) : Agree none second := nofun

theorem agree_none_right (first : Option (DiffOp α)) : Agree first none := fun _ _ => nofun

theorem agree_self {op? : Option (DiffOp α)} (h : (op? == op?) = true) : Agree op? op? := by
  intro op hop op' hop'
  obtain rfl : op = op' := Option.some.inj (hop.symm.trans hop')
  rw [Option.mem_def] at hop
  rwa [hop, Option.some_beq_some] at h

variable [PartialEquivBEq α] {first second third : Option (DiffOp α)}

theorem Agree.symm (h : Agree first second) : Agree second first :=
  fun op hop op' hop' => PartialEquivBEq.symm (h op' hop' op hop)

/-- What agrees with the joined operations agrees with both. -/
theorem agree_or_iff (h : Agree first second) :
    Agree (first.or second) third ↔ Agree first third ∧ Agree second third := by
  cases first with
  | none =>
      rw [Option.none_or]
      exact (and_iff_right (agree_none_left third)).symm
  | some op =>
      rw [Option.some_or]
      refine ⟨fun hthird => ⟨hthird, ?_⟩, And.left⟩
      intro op' hop' op'' hop''
      have hfirst : (op == op') = true := h op rfl op' hop'
      exact PartialEquivBEq.trans (PartialEquivBEq.symm hfirst) (hthird op rfl op'' hop'')

omit [PartialEquivBEq α] in
/-- In either order two operations that agree are joined to equal ones. -/
theorem or_beq_or_swap (h : Agree first second) (hfirst : (first == first) = true)
    (hsecond : (second == second) = true) : (first.or second == second.or first) = true := by
  cases first with
  | none => simpa using hsecond
  | some op =>
      cases second with
      | none => exact hfirst
      | some op' => exact h op rfl op' rfl

end DiffOp

open DiffOp (Agree)

/-! ## Outcomes -/

theorem Conflict.Precedes.antisymm {first second : Conflict} (h : first.Precedes second)
    (h' : second.Precedes first) : first = second := by
  rcases h with hbefore | ⟨hpart, hkey⟩
  · rcases h' with hafter | ⟨hpart, -⟩
    · exact absurd hbefore hafter.asymm
    · rw [hpart] at hbefore
      exact absurd hbefore (lt_irrefl _)
  · rcases h' with hafter | ⟨-, hkey'⟩
    · rw [hpart] at hafter
      exact absurd hafter (lt_irrefl _)
    · cases first
      cases second
      cases hpart
      cases le_antisymm hkey hkey'
      rfl

namespace EntityDiff

variable {first second third merged : EntityDiff}

private theorem clash_iff {α : Type} [BEq α] {f : α → SectionValue}
    (hf : ∀ first second, (f first == f second) = (first == second)) {left right : MapDiff α}
    {key : String} : MapDiff.Clash left right key ↔
      ¬Agree ((left.get? key).map (DiffOp.map f)) ((right.get? key).map (DiffOp.map f)) := by
  simp only [MapDiff.Clash, Agree, Option.mem_def, Option.map_eq_some_iff, not_forall,
    Bool.not_eq_true]
  constructor
  · rintro ⟨op, op', hop, hop', hdiffer⟩
    exact ⟨_, ⟨op, hop, rfl⟩, _, ⟨op', hop', rfl⟩, by rwa [DiffOp.map_beq_map hf]⟩
  · rintro ⟨_, ⟨op, hop, rfl⟩, _, ⟨op', hop', rfl⟩, hdiffer⟩
    exact ⟨op, op', hop, hop', by rwa [DiffOp.map_beq_map hf] at hdiffer⟩

theorem clashAt_iff_not_agree {place : Conflict} : ClashAt first second place ↔
    ¬Agree (first.operationAt place) (second.operationAt place) := by
  obtain ⟨part, key⟩ := place
  cases part with
  | labels | descriptions => exact clash_iff (f := .text) fun _ _ => rfl
  | aliases => exact clash_iff (f := .aliases) fun _ _ => rfl
  | claims => exact clash_iff (f := .statement) fun _ _ => rfl
  | siteLinks => exact clash_iff (f := .link) fun _ _ => rfl

theorem ClashAt.symm {place : Conflict} (h : ClashAt first second place) :
    ClashAt second first place := by
  rw [clashAt_iff_not_agree] at h ⊢
  exact fun hagree => h hagree.symm

/-- Whether two differences are of one type and contradict each other nowhere. -/
structure Compatible (first second : EntityDiff) : Prop where
  type : first.type = second.type
  agree : ∀ place, Agree (first.operationAt place) (second.operationAt place)

theorem compatible_iff : first.Compatible second ↔
    first.type = second.type ∧ ∀ place, ¬ClashAt first second place := by
  simp only [clashAt_iff_not_agree, not_not]
  exact ⟨fun h => ⟨h.type, h.agree⟩, fun h => ⟨h.1, h.2⟩⟩

theorem Compatible.symm (h : first.Compatible second) : second.Compatible first where
  type := h.type.symm
  agree place := (h.agree place).symm

/-- Whether a difference has exactly the operations of two others. -/
structure Joined (first second merged : EntityDiff) : Prop where
  type : merged.type = first.type
  operationAt : ∀ place,
    merged.operationAt place = (first.operationAt place).or (second.operationAt place)

theorem Joins.joined (h : Joins first second merged) : Joined first second merged where
  type := h.type
  operationAt := by
    rintro ⟨part, key⟩
    cases part with
    | labels => exact (congrArg _ (h.labels key)).trans Option.map_or
    | descriptions => exact (congrArg _ (h.descriptions key)).trans Option.map_or
    | aliases => exact (congrArg _ (h.aliases key)).trans Option.map_or
    | claims => exact (congrArg _ (h.claims key)).trans Option.map_or
    | siteLinks => exact (congrArg _ (h.siteLinks key)).trans Option.map_or

theorem Joined.unique {merged' : EntityDiff} (h : Joined first second merged)
    (h' : Joined first second merged') : merged = merged' :=
  ext_operationAt (h.type.trans h'.type.symm) fun place =>
    (h.operationAt place).trans (h'.operationAt place).symm

theorem Compatible.exists_merge (h : first.Compatible second) :
    ∃ merged, first.merge second = .ok merged ∧ Joined first second merged := by
  rcases merge_cases h.type with ⟨merged, hrun, hjoins, -⟩ | ⟨place, -, hclash, -⟩
  · exact ⟨merged, hrun, hjoins.joined⟩
  · exact absurd hclash ((compatible_iff.mp h).2 place)

theorem merge_of_type_ne (h : first.type ≠ second.type) :
    first.merge second = .error (.model (.entityTypeMismatch first.type second.type)) := by
  unfold merge
  rw [if_pos h]
  rfl

theorem merge_eq_ok_iff : first.merge second = .ok merged ↔
    first.Compatible second ∧ Joined first second merged := by
  constructor
  · intro h
    have htype : first.type = second.type := by
      by_contra hne
      rw [merge_of_type_ne hne] at h
      cases h
    rcases merge_cases htype with ⟨found, hrun, hjoins, hfree⟩ | ⟨place, herror, -⟩
    · cases hrun.symm.trans h
      exact ⟨compatible_iff.mpr ⟨htype, hfree⟩, hjoins.joined⟩
    · cases herror.symm.trans h
  · rintro ⟨hcompatible, hjoined⟩
    obtain ⟨found, hrun, hfound⟩ := hcompatible.exists_merge
    rw [hrun, hfound.unique hjoined]

/-- A refusal names the first place at which the differences contradict each other. -/
theorem merge_eq_conflict_iff {place : Conflict} :
    first.merge second = .error (.conflict place) ↔
      first.type = second.type ∧ ClashAt first second place ∧
        ∀ other, ClashAt first second other → place.Precedes other := by
  constructor
  · intro h
    have htype : first.type = second.type := by
      by_contra hne
      rw [merge_of_type_ne hne] at h
      cases h
    rcases merge_cases htype with ⟨found, hrun, -⟩ | ⟨found, herror, hclash, hfirst⟩
    · cases hrun.symm.trans h
    · cases herror.symm.trans h
      exact ⟨htype, hclash, hfirst⟩
  · rintro ⟨htype, hclash, hfirst⟩
    rcases merge_cases htype with ⟨found, -, -, hfree⟩ | ⟨found, herror, hfound, hfirst'⟩
    · exact absurd hclash (hfree place)
    · rw [herror, (hfirst' place hclash).antisymm (hfirst found hfound)]

/-! ## The order of differences -/

/-- Whether a difference has every operation of another, or an equal one. -/
structure Within (part whole : EntityDiff) : Prop where
  type : part.type = whole.type
  operation : ∀ place op, part.operationAt place = some op →
    (some op == whole.operationAt place) = true

theorem compatible_of_within {bound : EntityDiff} (hfirst : first.Within bound)
    (hsecond : second.Within bound) : first.Compatible second where
  type := hfirst.type.trans hsecond.type.symm
  agree := by
    intro place op hop op' hop'
    have hbelow := hfirst.operation place op hop
    have hbelow' := hsecond.operation place op' hop'
    rw [← Option.some_beq_some]
    exact PartialEquivBEq.trans hbelow (PartialEquivBEq.symm hbelow')

theorem Joined.within_left (h : Joined first second merged) (hfirst : first.NaNFree) :
    first.Within merged where
  type := h.type.symm
  operation := by
    intro place op hop
    have hself := hfirst.operationAt_beq_self place
    rw [h.operationAt, hop, Option.some_or]
    rwa [hop] at hself

theorem Joined.within_right (h : Joined first second merged)
    (hcompatible : first.Compatible second) (hsecond : second.NaNFree) :
    second.Within merged where
  type := hcompatible.type.symm.trans h.type.symm
  operation := by
    intro place op hop
    rw [h.operationAt]
    cases hleft : first.operationAt place with
    | none =>
        have hself := hsecond.operationAt_beq_self place
        rwa [Option.none_or, hop] at *
    | some left => exact (hcompatible.agree place).symm op hop left hleft

theorem Joined.within_of_bound {bound : EntityDiff} (h : Joined first second merged)
    (hfirst : first.Within bound) (hsecond : second.Within bound) : merged.Within bound where
  type := h.type.trans hfirst.type
  operation := by
    intro place op hop
    rw [h.operationAt] at hop
    rcases Option.or_eq_some_iff.mp hop with hleft | ⟨-, hright⟩
    · exact hfirst.operation place op hleft
    · exact hsecond.operation place op hright

/-! ## Grouping -/

theorem Joined.compatible_iff (h : Joined first second merged)
    (hcompatible : first.Compatible second) :
    merged.Compatible third ↔ first.Compatible third ∧ second.Compatible third := by
  have hplace (place : Conflict) :
      Agree ((first.operationAt place).or (second.operationAt place)) (third.operationAt place) ↔
        Agree (first.operationAt place) (third.operationAt place) ∧
          Agree (second.operationAt place) (third.operationAt place) :=
    DiffOp.agree_or_iff (hcompatible.agree place)
  constructor
  · intro hmerged
    have htype : first.type = third.type := h.type.symm.trans hmerged.type
    have hagree (place : Conflict) :=
      (hplace place).mp (h.operationAt place ▸ hmerged.agree place)
    exact ⟨⟨htype, fun place => (hagree place).1⟩,
      ⟨hcompatible.type.symm.trans htype, fun place => (hagree place).2⟩⟩
  · rintro ⟨hfirst, hsecond⟩
    refine ⟨h.type.trans hfirst.type, fun place => ?_⟩
    rw [h.operationAt]
    exact (hplace place).mpr ⟨hfirst.agree place, hsecond.agree place⟩

/-- Whether any two of three differences are compatible. -/
structure PairwiseCompatible (first second third : EntityDiff) : Prop where
  firstSecond : first.Compatible second
  firstThird : first.Compatible third
  secondThird : second.Compatible third

/-- Whether a difference has exactly the operations of three others. -/
structure JoinedThree (first second third outcome : EntityDiff) : Prop where
  type : outcome.type = first.type
  operationAt : ∀ place, outcome.operationAt place =
    (first.operationAt place).or ((second.operationAt place).or (third.operationAt place))

section Grouping

variable {outcome : EntityDiff}

/-- A third difference can be merged into two merged ones if any two of the three can be. -/
theorem merge_merge_eq_ok_iff :
    (first.merge second >>= fun merged => merged.merge third) = .ok outcome ↔
      PairwiseCompatible first second third ∧ JoinedThree first second third outcome := by
  rw [bind_eq_ok]
  constructor
  · rintro ⟨merged, hmerged, houtcome⟩
    obtain ⟨hfirst, hjoined⟩ := merge_eq_ok_iff.mp hmerged
    obtain ⟨hthird, hall⟩ := merge_eq_ok_iff.mp houtcome
    obtain ⟨hfirstThird, hsecondThird⟩ := (hjoined.compatible_iff hfirst).mp hthird
    refine ⟨⟨hfirst, hfirstThird, hsecondThird⟩, hall.type.trans hjoined.type, ?_⟩
    intro place
    rw [hall.operationAt, hjoined.operationAt, Option.or_assoc]
  · rintro ⟨hpairs, hall⟩
    obtain ⟨merged, hmerged, hjoined⟩ := hpairs.firstSecond.exists_merge
    have hthird : merged.Compatible third :=
      (hjoined.compatible_iff hpairs.firstSecond).mpr ⟨hpairs.firstThird, hpairs.secondThird⟩
    refine ⟨merged, hmerged, merge_eq_ok_iff.mpr ⟨hthird, hall.type.trans hjoined.type.symm, ?_⟩⟩
    intro place
    rw [hall.operationAt, hjoined.operationAt, Option.or_assoc]

theorem merge_merge_right_eq_ok_iff :
    (second.merge third >>= fun merged => first.merge merged) = .ok outcome ↔
      PairwiseCompatible first second third ∧ JoinedThree first second third outcome := by
  rw [bind_eq_ok]
  constructor
  · rintro ⟨merged, hmerged, houtcome⟩
    obtain ⟨hsecond, hjoined⟩ := merge_eq_ok_iff.mp hmerged
    obtain ⟨hfirst, hall⟩ := merge_eq_ok_iff.mp houtcome
    obtain ⟨hsecondFirst, hthirdFirst⟩ := (hjoined.compatible_iff hsecond).mp hfirst.symm
    refine ⟨⟨hsecondFirst.symm, hthirdFirst.symm, hsecond⟩, hall.type, ?_⟩
    intro place
    rw [hall.operationAt, hjoined.operationAt]
  · rintro ⟨hpairs, hall⟩
    obtain ⟨merged, hmerged, hjoined⟩ := hpairs.secondThird.exists_merge
    have hfirst : merged.Compatible first := (hjoined.compatible_iff hpairs.secondThird).mpr
      ⟨hpairs.firstSecond.symm, hpairs.firstThird.symm⟩
    refine ⟨merged, hmerged, merge_eq_ok_iff.mpr ⟨hfirst.symm, hall.type, ?_⟩⟩
    intro place
    rw [hall.operationAt, hjoined.operationAt]

end Grouping

/-! ## The laws -/

/-- What merging comes to on three differences. A merge is refused because of the types or
with the first clash; one that is not refused is the least bound of both sides. -/
structure MergeLaws (first second third : EntityDiff) : Prop where
  succeeds_iff : (∃ merged, first.merge second = .ok merged) ↔
    first.type = second.type ∧ ∀ place, ¬ClashAt first second place
  operations : ∀ merged, first.merge second = .ok merged → merged.type = first.type ∧
    ∀ place, merged.operationAt place =
      (first.operationAt place).or (second.operationAt place)
  otherTypes : first.type ≠ second.type →
    first.merge second = .error (.model (.entityTypeMismatch first.type second.type))
  conflict_iff : ∀ place, first.merge second = .error (.conflict place) ↔
    first.type = second.type ∧ ClashAt first second place ∧
      ∀ other, ClashAt first second other → place.Precedes other
  bounded_iff : (∃ merged, first.merge second = .ok merged) ↔
    ∃ bound, first.Within bound ∧ second.Within bound
  least : ∀ merged, first.merge second = .ok merged →
    first.Within merged ∧ second.Within merged ∧
      ∀ bound, first.Within bound → second.Within bound → merged.Within bound
  comm : first.type = second.type →
    (∃ merged merged', first.merge second = .ok merged ∧ second.merge first = .ok merged' ∧
      (merged == merged') = true) ∨
    ∃ place, first.merge second = .error (.conflict place) ∧
      second.merge first = .error (.conflict place)
  idem : first.merge first = .ok first
  merge_empty : first.merge { type := first.type } = .ok first
  empty_merge : merge { type := first.type } first = .ok first
  assoc : ∀ outcome,
    (first.merge second >>= fun merged => merged.merge third) = .ok outcome ↔
      (second.merge third >>= fun merged => first.merge merged) = .ok outcome

theorem operationAt_empty (type : EntityType) (place : Conflict) :
    operationAt { type } place = none := by
  obtain ⟨part, key⟩ := place
  cases part <;> rfl

theorem NaNFree.merge_self (h : first.NaNFree) : first.merge first = .ok first := by
  refine merge_eq_ok_iff.mpr ⟨⟨rfl, ?_⟩, rfl, ?_⟩
  · intro place
    exact DiffOp.agree_self (h.operationAt_beq_self place)
  · intro place
    exact (Option.or_self ..).symm

theorem merge_comm_cases (hfirst : first.NaNFree) (hsecond : second.NaNFree)
    (htype : first.type = second.type) :
    (∃ merged merged', first.merge second = .ok merged ∧ second.merge first = .ok merged' ∧
      (merged == merged') = true) ∨
    ∃ place, first.merge second = .error (.conflict place) ∧
      second.merge first = .error (.conflict place) := by
  rcases merge_cases htype with ⟨merged, hrun, -, hfree⟩ | ⟨place, herror, hclash, hleast⟩
  · have hcompatible := compatible_iff.mpr ⟨htype, hfree⟩
    have hjoined := (merge_eq_ok_iff.mp hrun).2
    obtain ⟨merged', hrun', hjoined'⟩ := hcompatible.symm.exists_merge
    refine Or.inl ⟨merged, merged', hrun, hrun', beq_iff_operationAt.mpr ⟨?_, ?_⟩⟩
    · exact hjoined.type.trans (htype.trans hjoined'.type.symm)
    · intro place
      rw [hjoined.operationAt, hjoined'.operationAt]
      exact DiffOp.or_beq_or_swap (hcompatible.agree place) (hfirst.operationAt_beq_self place)
        (hsecond.operationAt_beq_self place)
  · refine Or.inr ⟨place, herror, merge_eq_conflict_iff.mpr ⟨htype.symm, hclash.symm, ?_⟩⟩
    intro other hother
    exact hleast other hother.symm

/-- Merging is a partial least upper bound: it is refused exactly where two differences
contradict each other, and up to equality it is commutative, idempotent and associative. -/
theorem mergeLaws_of_nanFree (hfirst : first.NaNFree) (hsecond : second.NaNFree) :
    MergeLaws first second third where
  succeeds_iff := by
    rw [← compatible_iff]
    constructor
    · rintro ⟨merged, hmerged⟩
      exact (merge_eq_ok_iff.mp hmerged).1
    · intro hcompatible
      obtain ⟨merged, hmerged, -⟩ := hcompatible.exists_merge
      exact ⟨merged, hmerged⟩
  operations := by
    intro merged hmerged
    have hjoined := (merge_eq_ok_iff.mp hmerged).2
    exact ⟨hjoined.type, hjoined.operationAt⟩
  otherTypes := merge_of_type_ne
  conflict_iff place := merge_eq_conflict_iff
  bounded_iff := by
    constructor
    · rintro ⟨merged, hmerged⟩
      obtain ⟨hcompatible, hjoined⟩ := merge_eq_ok_iff.mp hmerged
      exact ⟨merged, hjoined.within_left hfirst, hjoined.within_right hcompatible hsecond⟩
    · rintro ⟨bound, hfirstBelow, hsecondBelow⟩
      obtain ⟨merged, hmerged, -⟩ :=
        (compatible_of_within hfirstBelow hsecondBelow).exists_merge
      exact ⟨merged, hmerged⟩
  least := by
    intro merged hmerged
    obtain ⟨hcompatible, hjoined⟩ := merge_eq_ok_iff.mp hmerged
    exact ⟨hjoined.within_left hfirst, hjoined.within_right hcompatible hsecond,
      fun bound => hjoined.within_of_bound⟩
  comm := merge_comm_cases hfirst hsecond
  idem := hfirst.merge_self
  merge_empty := by
    refine merge_eq_ok_iff.mpr ⟨⟨rfl, fun place => ?_⟩, rfl, fun place => ?_⟩
    · rw [operationAt_empty]
      exact DiffOp.agree_none_right _
    · rw [operationAt_empty, Option.or_none]
  empty_merge := by
    refine merge_eq_ok_iff.mpr ⟨⟨rfl, fun place => ?_⟩, rfl, fun place => ?_⟩
    · rw [operationAt_empty]
      exact DiffOp.agree_none_left _
    · rw [operationAt_empty, Option.none_or]
  assoc outcome := merge_merge_eq_ok_iff.trans merge_merge_right_eq_ok_iff.symm

/-- One statement is added in two edits, with longitudes that differ in the sign of zero, and
a label in a third. -/
theorem mergeLaws_of_signed_zeros :
    let adding (longitude : Binary64) : EntityDiff :=
      { type := .item
        claims := SortedMap.empty.insert "Q64$1"
          (.add (placedStatement (some "Q64$1") longitude)) }
    let first := adding .zero
    let second := adding ⟨0x8000000000000000⟩
    let third : EntityDiff :=
      { type := .item, labels := SortedMap.empty.insert "en" (.add "Berlin") }
    first.NaNFree ∧ second.NaNFree ∧ MergeLaws first second third := by
  intro adding first second third
  have hadding {longitude : Binary64} (h : longitude.isNaN = false) :
      (adding longitude).NaNFree :=
    SortedMap.All.empty.insert
      ⟨nofun, fun value hvalue => Option.some.inj hvalue ▸ nanFree_placedStatement _ h⟩
  have hfirst : first.NaNFree := hadding (by decide)
  have hsecond : second.NaNFree := hadding (by decide)
  exact ⟨hfirst, hsecond, mergeLaws_of_nanFree hfirst hsecond⟩

end EntityDiff

end KnowledgeBase
