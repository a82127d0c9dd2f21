import KnowledgeBase.Proofs.CanonicalBytes
import KnowledgeBase.Proofs.EntityId
import KnowledgeBase.Proofs.KeySort

/-!
What the canonical order of snaks forgets. It puts the properties in the order of their texts
and keeps the snaks of one property in theirs, and nothing else does both. So two lists have
one canonical order exactly if they have the same snaks, in the same order, about every
property. The canonical bytes tell apart what the canonical order does, but for the signs of
zeros.
-/

namespace KnowledgeBase.SnakList

/-- The snaks about one property, in their order. -/
def about (list : SnakList) (property : PropertyId) : List Snak :=
  list.snaks.filter (·.property == property)

/-- Whether snaks are those of a list, by the texts of their properties and with those of one
property in their order. -/
structure OrderedByProperty (list : SnakList) (ordered : List Snak) : Prop where
  perm : ordered.Perm list.snaks
  sorted : ordered.Pairwise fun first second => first.property.text ≤ second.property.text
  about : ∀ property, ordered.filter (·.property == property) = list.about property

/-! ## Property by property -/

private theorem filter_text (snaks : List Snak) (property : PropertyId) :
    snaks.filter (·.property.text == property.text) =
      snaks.filter (·.property == property) := by
  apply List.filter_congr
  intro snak _
  rw [Bool.eq_iff_iff, beq_iff_eq, beq_iff_eq]
  exact ⟨PropertyId.text_injective, congrArg PropertyId.text⟩

/-- A text that is not that of a property is looked for in vain. -/
private theorem forall₂_filter_text_iff {related : Snak → Snak → Prop} {first second : List Snak} :
    (∀ text, List.Forall₂ related (first.filter (·.property.text == text))
        (second.filter (·.property.text == text))) ↔
      ∀ property, List.Forall₂ related (first.filter (·.property == property))
        (second.filter (·.property == property)) := by
  constructor
  · intro h property
    rw [← filter_text, ← filter_text]
    exact h property.text
  · intro h text
    by_cases hproperty : ∃ property : PropertyId, property.text = text
    · obtain ⟨property, rfl⟩ := hproperty
      rw [filter_text, filter_text]
      exact h property
    · have hnone (snaks : List Snak) : snaks.filter (·.property.text == text) = [] := by
        rw [List.filter_eq_nil_iff]
        intro snak _ hsnak
        exact hproperty ⟨snak.property, beq_iff_eq.mp hsnak⟩
      rw [hnone, hnone]
      exact .nil

/-- Canonical orders are related snak by snak exactly if the lists are property by property. -/
theorem forall₂_canonicalOrder_iff {related : Snak → Snak → Prop}
    (hproperty : ∀ left right, related left right → left.property = right.property)
    (first second : SnakList) :
    List.Forall₂ related first.canonicalOrder second.canonicalOrder ↔
      ∀ property, List.Forall₂ related (first.about property) (second.about property) := by
  have htext (left right : Snak) (h : related left right) :
      left.property.text = right.property.text := congrArg PropertyId.text (hproperty left right h)
  exact (forall₂_mergeSort_iff htext).trans forall₂_filter_text_iff

/-! ## The canonical order -/

theorem orderedByProperty_canonicalOrder (list : SnakList) :
    list.OrderedByProperty list.canonicalOrder where
  perm := List.mergeSort_perm _ _
  sorted := sorted_mergeSort (fun snak : Snak => snak.property.text) list.snaks
  about property := by
    rw [← filter_text, about, ← filter_text]
    exact filter_mergeSort (fun snak : Snak => snak.property.text) list.snaks property.text

/-- There is one order by properties only. -/
theorem OrderedByProperty.eq_canonicalOrder {list : SnakList} {ordered : List Snak}
    (h : list.OrderedByProperty ordered) : ordered = list.canonicalOrder := by
  have hsorted : canonicalOrder ⟨ordered⟩ = ordered :=
    List.mergeSort_of_pairwise (by simpa only [decide_eq_true_eq] using h.sorted)
  rw [← hsorted, ← List.forall₂_eq_eq_eq,
    forall₂_canonicalOrder_iff (fun _ _ => congrArg Snak.property)]
  intro property
  rw [List.forall₂_eq_eq_eq]
  exact h.about property

/-- Two lists have one canonical order, and one canonical form, exactly if their snaks about
each property are the same. Equality takes the two zeros for one and does not hold of what is
not a number; canonical forms do the former only. -/
structure InterleavingForgotten (first second : SnakList) : Prop where
  order_eq_iff : first.canonicalOrder = second.canonicalOrder ↔
    ∀ property, first.about property = second.about property
  order_beq_iff : (first.canonicalOrder == second.canonicalOrder) = true ↔
    ∀ property, (first.about property == second.about property) = true
  bytes_eq_iff : first.canonicalBytes = second.canonicalBytes ↔
    ∀ property, (first.about property).map Snak.withoutSignedZero =
      (second.about property).map Snak.withoutSignedZero
  bytes_eq_iff_beq : first.NaNFree → second.NaNFree →
    (first.canonicalBytes = second.canonicalBytes ↔
      ∀ property, (first.about property == second.about property) = true)

private theorem property_eq_of_withoutSignedZero {left right : Snak}
    (h : left.withoutSignedZero = right.withoutSignedZero) : left.property = right.property := by
  rw [← left.property_withoutSignedZero, h, right.property_withoutSignedZero]

private theorem canonicalOrder_eq_iff (first second : SnakList) :
    first.canonicalOrder = second.canonicalOrder ↔
      ∀ property, first.about property = second.about property := by
  have hiff := forall₂_canonicalOrder_iff (fun _ _ => congrArg Snak.property) first second
  simpa only [List.forall₂_eq_eq_eq] using hiff

private theorem canonicalOrder_beq_iff (first second : SnakList) :
    (first.canonicalOrder == second.canonicalOrder) = true ↔
      ∀ property, (first.about property == second.about property) = true := by
  simp only [list_beq_iff]
  refine forall₂_canonicalOrder_iff (fun left right h => ?_) first second
  exact property_eq_of_withoutSignedZero (Snak.beq_iff_withoutSignedZero.mp h).2.2

private theorem content_eq_iff_about (first second : SnakList) :
    first.content = second.content ↔
      ∀ property, (first.about property).map Snak.withoutSignedZero =
        (second.about property).map Snak.withoutSignedZero := by
  have hproperty (left right : Snak) (h : left.withoutSignedZero = right.withoutSignedZero) :=
    property_eq_of_withoutSignedZero h
  have hiff := forall₂_canonicalOrder_iff hproperty first second
  simpa only [List.forall₂_map_left_iff, List.forall₂_map_right_iff, List.forall₂_eq_eq_eq,
    content, ← List.forall₂_eq_eq_eq] using hiff

theorem canonicalBytes_eq_iff_content (first second : SnakList) :
    first.canonicalBytes = second.canonicalBytes ↔ first.content = second.content :=
  ⟨content_eq_of_canonicalBytes, canonicalBytes_eq_of_content⟩

/-- The canonical order of a list is its only order by properties, and it forgets how the
snaks of different properties are interleaved and nothing else. -/
theorem canonicalOrder_forgets_interleaving (first second : SnakList) :
    (∀ ordered, first.OrderedByProperty ordered ↔ ordered = first.canonicalOrder) ∧
      InterleavingForgotten first second := by
  refine ⟨fun ordered => ?_, ?_⟩
  · constructor
    · exact OrderedByProperty.eq_canonicalOrder
    · rintro rfl
      exact first.orderedByProperty_canonicalOrder
  · constructor
    · exact canonicalOrder_eq_iff first second
    · exact canonicalOrder_beq_iff first second
    · rw [canonicalBytes_eq_iff_content, content_eq_iff_about]
    · intro hfirst hsecond
      rw [canonicalBytes_eq_iff_content, content_eq_iff hfirst hsecond, SameContent,
        canonicalOrder_beq_iff]

end KnowledgeBase.SnakList
