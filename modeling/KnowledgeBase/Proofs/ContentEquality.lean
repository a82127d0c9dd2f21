import KnowledgeBase.Statement
import Mathlib.Data.List.Forall2

/-!
Equality of contents. Doubles are compared as numbers and references by their hashes, so the
comparison of values, snaks and statements is not equality of data. It is symmetric and
transitive throughout, and only what holds a coordinate that is not a number differs from
itself.
-/

namespace KnowledgeBase

section Containers

variable {α : Type} [BEq α] [PartialEquivBEq α]

instance partialEquivBEqOption : PartialEquivBEq (Option α) where
  symm := by
    rintro (_ | first) (_ | second) h <;> simp_all [PartialEquivBEq.symm]
  trans := by
    rintro (_ | first) (_ | second) (_ | third) h h' <;> simp_all
    exact PartialEquivBEq.trans h h'

instance partialEquivBEqList : PartialEquivBEq (List α) where
  symm := by
    intro first
    induction first with
    | nil =>
        rintro (_ | ⟨head, rest⟩) h
        · rfl
        · cases h
    | cons left lefts ih =>
        rintro (_ | ⟨head, rest⟩) h
        · cases h
        · rw [List.cons_beq_cons, Bool.and_eq_true] at h ⊢
          exact ⟨PartialEquivBEq.symm h.1, ih h.2⟩
  trans := by
    intro first
    induction first with
    | nil =>
        rintro (_ | ⟨head, rest⟩) third h h'
        · exact h'
        · cases h
    | cons left lefts ih =>
        rintro (_ | ⟨middle, middles⟩) (_ | ⟨right, rights⟩) h h'
        · cases h
        · cases h
        · cases h'
        · rw [List.cons_beq_cons, Bool.and_eq_true] at h h' ⊢
          exact ⟨PartialEquivBEq.trans h.1 h'.1, ih h.2 h'.2⟩

omit [PartialEquivBEq α] in
/-- Lists are equal if they are member by member. -/
theorem list_beq_iff {first second : List α} : (first == second) = true ↔
    List.Forall₂ (fun left right => (left == right) = true) first second := by
  induction first generalizing second with
  | nil => cases second <;> simp
  | cons left lefts ih =>
      cases second with
      | nil => simp
      | cons right rights =>
          rw [List.cons_beq_cons, Bool.and_eq_true, ih, List.forall₂_cons]

omit [PartialEquivBEq α] in
theorem isSome_eq_of_beq {first second : Option α} (h : (first == second) = true) :
    first.isSome = second.isSome := by
  cases first <;> cases second <;> simp_all

omit [PartialEquivBEq α] in
/-- A list whose members equal themselves equals itself. -/
theorem list_beq_self {list : List α} (h : ∀ member ∈ list, (member == member) = true) :
    (list == list) = true := by
  induction list with
  | nil => rfl
  | cons head rest ih =>
      rw [List.cons_beq_cons, Bool.and_eq_true]
      exact ⟨h head (by simp), ih fun member later => h member (by simp [later])⟩

end Containers

/-! ## Doubles and values -/

namespace Binary64

theorem beq_iff {x y : Binary64} : (x == y) = true ↔
    x.isNaN = false ∧ y.isNaN = false ∧ (x = y ∨ x.isZero = true ∧ y.isZero = true) := by
  change equal x y = true ↔ _
  have hbits : (x.bits == y.bits) = true ↔ x = y := by
    cases x
    cases y
    simp
  simp only [equal, Bool.and_eq_true, Bool.or_eq_true, Bool.not_eq_true', hbits, and_assoc]

instance : PartialEquivBEq Binary64 where
  symm h := by
    rw [beq_iff] at h ⊢
    obtain ⟨hx, hy, same | ⟨hzero, hzero'⟩⟩ := h
    · exact ⟨hy, hx, Or.inl same.symm⟩
    · exact ⟨hy, hx, Or.inr ⟨hzero', hzero⟩⟩
  trans h h' := by
    rw [beq_iff] at h h' ⊢
    obtain ⟨hx, -, same⟩ := h
    obtain ⟨-, hz, same'⟩ := h'
    refine ⟨hx, hz, ?_⟩
    rcases same with rfl | ⟨hzero, hzero'⟩
    · exact same'
    · rcases same' with rfl | ⟨-, hzero''⟩
      · exact Or.inr ⟨hzero, hzero'⟩
      · exact Or.inr ⟨hzero, hzero''⟩

theorem beq_self {x : Binary64} (h : x.isNaN = false) : (x == x) = true :=
  beq_iff.mpr ⟨h, h, Or.inl rfl⟩

end Binary64

namespace Coordinate

theorem beq_iff {first second : Coordinate} : (first == second) = true ↔
    (first.latitude == second.latitude) = true ∧
      (first.longitude == second.longitude) = true ∧
      (first.altitude == second.altitude) = true ∧
      (first.precision == second.precision) = true ∧ first.globe = second.globe := by
  change equal first second = true ↔ _
  simp only [equal, Bool.and_eq_true, and_assoc, beq_iff_eq]

instance : PartialEquivBEq Coordinate where
  symm h := by
    rw [beq_iff] at h ⊢
    obtain ⟨hlat, hlong, halt, hprec, hglobe⟩ := h
    exact ⟨PartialEquivBEq.symm hlat, PartialEquivBEq.symm hlong, PartialEquivBEq.symm halt,
      PartialEquivBEq.symm hprec, hglobe.symm⟩
  trans h h' := by
    rw [beq_iff] at h h' ⊢
    obtain ⟨hlat, hlong, halt, hprec, hglobe⟩ := h
    obtain ⟨hlat', hlong', halt', hprec', hglobe'⟩ := h'
    exact ⟨PartialEquivBEq.trans hlat hlat', PartialEquivBEq.trans hlong hlong',
      PartialEquivBEq.trans halt halt', PartialEquivBEq.trans hprec hprec',
      hglobe.trans hglobe'⟩

/-- Whether all parts of a coordinate are numbers. -/
def NaNFree (place : Coordinate) : Prop :=
  place.latitude.isNaN = false ∧ place.longitude.isNaN = false ∧
    (∀ altitude ∈ place.altitude, altitude.isNaN = false) ∧
    ∀ precision ∈ place.precision, precision.isNaN = false

theorem NaNFree.beq_self {place : Coordinate} (h : place.NaNFree) :
    (place == place) = true := by
  obtain ⟨hlat, hlong, halt, hprec⟩ := h
  have hoption {value : Option Binary64} (h : ∀ x ∈ value, x.isNaN = false) :
      (value == value) = true := by
    cases value with
    | none => rfl
    | some x => simpa using Binary64.beq_self (h x rfl)
  exact beq_iff.mpr ⟨Binary64.beq_self hlat, Binary64.beq_self hlong, hoption halt,
    hoption hprec, rfl⟩

end Coordinate

namespace DataValue

/-- Only coordinates are compared otherwise than as data. -/
theorem beq_iff {first second : DataValue} : (first == second) = true ↔
    (∃ place place', first = .coordinate place ∧ second = .coordinate place' ∧
      (place == place') = true) ∨
      (∀ place, first ≠ .coordinate place) ∧ first = second := by
  change equal first second = true ↔ _
  cases first <;> cases second <;> simp [equal]

instance : PartialEquivBEq DataValue where
  symm h := by
    rw [beq_iff] at h ⊢
    rcases h with ⟨place, place', rfl, rfl, h⟩ | ⟨hother, rfl⟩
    · exact Or.inl ⟨place', place, rfl, rfl, PartialEquivBEq.symm h⟩
    · exact Or.inr ⟨hother, rfl⟩
  trans h h' := by
    rw [beq_iff] at h h' ⊢
    rcases h with ⟨place, place', rfl, rfl, h⟩ | ⟨hother, rfl⟩
    · rcases h' with ⟨middle, place'', hmiddle, rfl, h'⟩ | ⟨hother, -⟩
      · cases hmiddle
        exact Or.inl ⟨place, place'', rfl, rfl, PartialEquivBEq.trans h h'⟩
      · exact absurd rfl (hother place')
    · exact h'

def NaNFree : DataValue → Prop
  | .coordinate place => place.NaNFree
  | _ => True

theorem NaNFree.beq_self {value : DataValue} (h : value.NaNFree) :
    (value == value) = true := by
  rw [beq_iff]
  cases value with
  | coordinate place => exact Or.inl ⟨place, place, rfl, rfl, Coordinate.NaNFree.beq_self h⟩
  | string | monolingualText | quantity | time | entityId => exact Or.inr ⟨by simp, rfl⟩

end DataValue

/-! ## Snaks and statements -/

namespace Snak

theorem beq_iff {first second : Snak} : (first == second) = true ↔
    first.kind = second.kind ∧ first.property = second.property ∧
      (first.dataValue? == second.dataValue?) = true := by
  change equal first second = true ↔ _
  simp only [equal, Bool.and_eq_true, beq_iff_eq, and_assoc]

instance : PartialEquivBEq Snak where
  symm h := by
    rw [beq_iff] at h ⊢
    exact ⟨h.1.symm, h.2.1.symm, PartialEquivBEq.symm h.2.2⟩
  trans h h' := by
    rw [beq_iff] at h h' ⊢
    exact ⟨h.1.trans h'.1, h.2.1.trans h'.2.1, PartialEquivBEq.trans h.2.2 h'.2.2⟩

def NaNFree (snak : Snak) : Prop := ∀ value ∈ snak.dataValue?, value.NaNFree

theorem NaNFree.beq_self {snak : Snak} (h : snak.NaNFree) : (snak == snak) = true := by
  refine beq_iff.mpr ⟨rfl, rfl, ?_⟩
  cases hvalue : snak.dataValue? with
  | none => rfl
  | some value => simpa using DataValue.NaNFree.beq_self (h value hvalue)

end Snak

/-- References are known by their hashes. -/
theorem references_beq_iff {first second : List Reference} :
    (first == second) = true ↔ first.map Reference.hash = second.map Reference.hash := by
  induction first generalizing second with
  | nil => cases second <;> simp
  | cons head rest ih =>
      cases second with
      | nil => simp
      | cons head' rest' =>
          rw [List.cons_beq_cons, Bool.and_eq_true, ih, List.map_cons, List.map_cons,
            List.cons.injEq, show (head == head') = (head.hash == head'.hash) from rfl,
            beq_iff_eq]

namespace Statement

theorem beq_iff {first second : Statement} : (first == second) = true ↔
    (first.mainSnak == second.mainSnak) = true ∧
      (first.qualifiers.snaks == second.qualifiers.snaks) = true ∧
      first.guid? = second.guid? ∧ first.rank = second.rank ∧
      first.references.hashes = second.references.hashes := by
  change ((first.mainSnak == second.mainSnak &&
    first.qualifiers.snaks == second.qualifiers.snaks && first.guid? == second.guid?) &&
    first.rank == second.rank &&
    first.references.references == second.references.references) = true ↔ _
  simp only [Bool.and_eq_true, references_beq_iff, beq_iff_eq, and_assoc, ReferenceList.hashes]

instance : PartialEquivBEq Statement where
  symm h := by
    rw [beq_iff] at h ⊢
    obtain ⟨hmain, hqualifiers, hguid, hrank, hreferences⟩ := h
    exact ⟨PartialEquivBEq.symm hmain, PartialEquivBEq.symm hqualifiers, hguid.symm,
      hrank.symm, hreferences.symm⟩
  trans h h' := by
    rw [beq_iff] at h h' ⊢
    obtain ⟨hmain, hqualifiers, hguid, hrank, hreferences⟩ := h
    obtain ⟨hmain', hqualifiers', hguid', hrank', hreferences'⟩ := h'
    exact ⟨PartialEquivBEq.trans hmain hmain', PartialEquivBEq.trans hqualifiers hqualifiers',
      hguid.trans hguid', hrank.trans hrank', hreferences.trans hreferences'⟩

/-- Whether no snak of a statement, those of its references included, holds a coordinate
with a part that is not a number. -/
def NaNFree (statement : Statement) : Prop := ∀ snak ∈ statement.allSnaks, snak.NaNFree

theorem NaNFree.beq_self {statement : Statement} (h : statement.NaNFree) :
    (statement == statement) = true := by
  have hclaim : ∀ snak ∈ statement.claim.allSnaks, snak.NaNFree := fun snak member =>
    h snak (List.mem_append_left _ member)
  refine beq_iff.mpr ⟨?_, ?_, rfl, rfl, rfl⟩
  · exact Snak.NaNFree.beq_self (hclaim _ (List.mem_cons_self ..))
  · exact list_beq_self fun snak member =>
      Snak.NaNFree.beq_self (hclaim snak (List.mem_cons_of_mem _ member))

end Statement

end KnowledgeBase
