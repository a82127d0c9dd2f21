import KnowledgeBase.ArrayForm.Statement
import KnowledgeBase.Proofs.ArrayForm.DataValue
import KnowledgeBase.Proofs.Construction

/-!
Array forms of statements. A list of distinct snaks or references is read back in its order,
since nothing is dropped when it is built again. So a statement is read back from its form if
its lists were constructed, its coordinates are finite and its identifier is within the limit;
an identifier beyond the limit is the one thing for which a statement is refused.
-/

namespace KnowledgeBase

open ArrayForm

/-! ## Snaks and references -/

namespace Snak

theorem lossless {snak : Snak} (h : ∀ value ∈ snak.dataValue?, Lossless value) :
    Lossless snak := by
  cases snak with
  | noValue property =>
      change (liftM (PropertyId.parse property.text) >>= fun property =>
        (.ok (.noValue property) : Except ArrayError Snak)) = _
      rw [property.parse_text, liftM_ok, ok_bind]
  | someValue property =>
      change (liftM (PropertyId.parse property.text) >>= fun property =>
        (.ok (.someValue property) : Except ArrayError Snak)) = _
      rw [property.parse_text, liftM_ok, ok_bind]
  | value property value =>
      have hvalue : ofArray (toArray value) = .ok value := h value rfl
      change (liftM (PropertyId.parse property.text) >>= fun property =>
        ofArray (toArray value) >>= fun value =>
          (.ok (.value property value) : Except ArrayError Snak)) = _
      rw [property.parse_text, liftM_ok, ok_bind, hvalue, ok_bind]

/-- The value of a snak is read from one of the elements of its form. -/
theorem exists_element_of_ofArray {array : Json} {snak : Snak} {value : DataValue}
    (h : ofArray array = .ok snak) (hvalue : value ∈ snak.dataValue?) :
    ∃ elements, array.expectArray "snak" = .ok elements ∧
      ∃ element ∈ elements, ofArray element = .ok value := by
  obtain ⟨elements, helements, h⟩ := bind_eq_ok.mp h
  refine ⟨elements, helements, ?_⟩
  split at h
  next =>
    obtain ⟨name, -, h⟩ := bind_eq_ok.mp h
    split at h
    next kind _ =>
      split at h
      next =>
        obtain ⟨text, -, h⟩ := bind_eq_ok.mp h
        obtain ⟨property, -, h⟩ := bind_eq_ok.mp h
        -- Surplus elements are refused before the kind decides what is read.
        cases kind with
        | noValue | someValue =>
            simp only [reduceCtorEq, if_false] at h
            split at h
            next => cases h
            next =>
              cases h
              cases hvalue
        | value =>
            simp only [if_true] at h
            split at h
            next => cases h
            next =>
              split at h
              next element helement =>
                obtain ⟨data, hdata, h⟩ := bind_eq_ok.mp h
                cases h
                cases hvalue
                exact ⟨element, List.mem_of_getElem? helement, hdata⟩
              next => cases h
      next => cases h
    next => cases h
  next => cases h

theorem lossless_ofArray {array : Json} {snak : Snak} (hfinite : array.Finite)
    (h : ofArray array = .ok snak) : Lossless snak := by
  apply lossless
  intro value hvalue
  obtain ⟨elements, helements, element, member, hread⟩ := exists_element_of_ofArray h hvalue
  have helements := hfinite.of_expectArray helements
  exact DataValue.lossless_ofArray (helements element member) hread

end Snak

theorem SnakList.lossless {list : SnakList} (hdistinct : list.Distinct)
    (hsnaks : ∀ snak ∈ list.snaks, Lossless snak) : Lossless list := by
  change ((list.snaks.map toArray).mapM ofArray >>= fun snaks =>
    (.ok (.ofList snaks) : Except ArrayError SnakList)) = .ok list
  rw [mapM_eq_ok hsnaks, ok_bind, hdistinct.ofList_snaks]

theorem SnakList.lossless_empty : Lossless SnakList.empty := rfl

theorem SnakList.lossless_ofArray {array : Json} {list : SnakList} (hfinite : array.Finite)
    (h : ofArray array = .ok list) : Lossless list := by
  obtain ⟨elements, helements, h⟩ := bind_eq_ok.mp h
  obtain ⟨snaks, hsnaks, h⟩ := bind_eq_ok.mp h
  cases h
  have helements := hfinite.of_expectArray helements
  have hsnaks := mapM_keeps (fun element member snak =>
    Snak.lossless_ofArray (helements element member)) hsnaks
  exact lossless (constructed_ofList snaks).distinct fun snak member =>
    hsnaks snak (mem_ofList member)

theorem Reference.lossless {reference : Reference} (h : Lossless reference.snaks) :
    Lossless reference :=
  congrArg (Reference.mk <$> ·) h

theorem Reference.lossless_ofArray {array : Json} {reference : Reference}
    (hfinite : array.Finite) (h : ofArray array = .ok reference) : Lossless reference := by
  obtain ⟨snaks, hsnaks, rfl⟩ := map_eq_ok.mp h
  exact lossless (SnakList.lossless_ofArray hfinite hsnaks)

theorem ReferenceList.lossless {list : ReferenceList} (hdistinct : list.hashes.Nodup)
    (hreferences : ∀ reference ∈ list.references, Lossless reference) : Lossless list := by
  change ((list.references.map toArray).mapM ofArray >>= fun references =>
    (.ok (.ofList references) : Except ArrayError ReferenceList)) = .ok list
  rw [mapM_eq_ok hreferences, ok_bind, ofList_references hdistinct]

theorem ReferenceList.lossless_empty : Lossless ReferenceList.empty := rfl

theorem ReferenceList.lossless_ofArray {array : Json} {list : ReferenceList}
    (hfinite : array.Finite) (h : ofArray array = .ok list) : Lossless list := by
  obtain ⟨elements, helements, h⟩ := bind_eq_ok.mp h
  obtain ⟨references, hreferences, h⟩ := bind_eq_ok.mp h
  cases h
  have helements := hfinite.of_expectArray helements
  have hreferences := mapM_keeps (fun element member reference =>
    Reference.lossless_ofArray (helements element member)) hreferences
  exact lossless (nodup_hashes_ofList references) fun reference member =>
    hreferences reference (mem_ofList member)

/-! ## Ranks and identifiers -/

theorem Statement.rankOfArray_number (rank : Rank) :
    Statement.rankOfArray (.int rank.number) = .ok rank := by
  cases rank <;> rfl

/-- Whether the identifier of a statement, if it has one, is within the limit. -/
def Statement.GuidFits (statement : Statement) : Prop :=
  ∀ guid ∈ statement.guid?, guid.utf8ByteSize ≤ maxGuidBytes

theorem Claim.guidOfArray_of_le {guid : String} (h : guid.utf8ByteSize ≤ maxGuidBytes) :
    Claim.guidOfArray (.text guid) = .ok guid := by
  change (if maxGuidBytes < guid.utf8ByteSize then _ else _) = _
  rw [if_neg (Nat.not_lt.mpr h)]
  rfl

theorem Claim.guidOfArray_of_lt {guid : String} (h : maxGuidBytes < guid.utf8ByteSize) :
    Claim.guidOfArray (.text guid) =
      .error (.lengthExceedsLimit "g" guid.utf8ByteSize maxGuidBytes) := by
  change (if maxGuidBytes < guid.utf8ByteSize then _ else _) = _
  rw [if_pos h]
  rfl

theorem Claim.le_of_guidOfArray {array : Json} {guid : String}
    (h : Claim.guidOfArray array = .ok guid) : guid.utf8ByteSize ≤ maxGuidBytes := by
  obtain ⟨text, -, h⟩ := bind_eq_ok.mp h
  split at h
  next => cases h
  next hshort =>
    cases h
    omega

/-! ## Statements -/

namespace Statement

/-- The members of a statement's form are found under their names. -/
theorem lookup_written (statement : Statement) (name : String) :
    statement.members.written.lookup name = statement.members.lookup name := by
  have hkeys : (statement.members.map (·.1)).Nodup := by simp [members, Claim.members]
  exact Members.lookup_written hkeys name

/-- What is written as a statement is read as one. -/
theorem ofArray_toArray (statement : Statement) :
    ofArray (toArray statement) = ofMembers statement.members.written := by
  have hkind := Members.text_of_lookup (statement.lookup_written "type")
  change AnyClaim.toStatement <$> (statement.members.written.text "type" >>= fun kind => _) = _
  rw [hkind, ok_bind, if_neg (by decide), if_pos rfl]
  change AnyClaim.toStatement <$> (ofMembers statement.members.written >>= fun found =>
    pure (AnyClaim.statement found)) = _
  cases ofMembers statement.members.written <;> rfl

variable {statement : Statement} (hmain : Lossless statement.mainSnak)
  (hqualifiers : Lossless statement.qualifiers)
include hmain hqualifiers

/-- All of a claim is read back but the identifier, which may be refused. -/
theorem claim_ofMembers_written :
    Claim.ofMembers statement.members.written =
      (statement.members.written.optional "g" Claim.guidOfArray >>= fun guid? =>
        .ok { statement.claim with guid? }) := by
  have hlookup := statement.lookup_written
  have hmainField := Members.field_of_lookup (hlookup "m")
  have hqualifiers : statement.members.written.optionalD "q" .empty ofArray =
      .ok statement.qualifiers :=
    (Members.optionalD_of_lookup (hlookup "q") rfl).trans hqualifiers
  have hmain : ofArray (toArray statement.mainSnak) = .ok statement.mainSnak := hmain
  rw [Claim.ofMembers, hmainField, ok_bind]
  change (ofArray (toArray statement.mainSnak) >>= fun snak => _) = _
  rw [hmain, ok_bind, hqualifiers, ok_bind]
  rfl

theorem lossless (hreferences : Lossless statement.references) (hguid : statement.GuidFits) :
    Lossless statement := by
  have hlookup := statement.lookup_written
  have hgiven : statement.members.written.given? "g" = statement.guid?.map .text :=
    Members.given?_of_lookup_ofOption (hlookup "g") fun _ _ => rfl
  have hguid : statement.members.written.optional "g" Claim.guidOfArray = .ok statement.guid? :=
    Members.optional_of_given hgiven fun guid member => Claim.guidOfArray_of_le (hguid guid member)
  have hrank : statement.members.written.optionalD "rank" .normal rankOfArray =
      .ok statement.rank :=
    (Members.optionalD_of_lookup (hlookup "rank") rfl).trans (rankOfArray_number statement.rank)
  have hreferences : statement.members.written.optionalD "refs" .empty ofArray =
      .ok statement.references :=
    (Members.optionalD_of_lookup (hlookup "refs") rfl).trans hreferences
  rw [Lossless, ofArray_toArray, ofMembers, claim_ofMembers_written hmain hqualifiers, hguid,
    ok_bind, ok_bind, hrank, ok_bind, hreferences, ok_bind]
  rfl

/-- A statement whose identifier is too long is refused for it before its rank and its
references are looked at. -/
theorem ofArray_of_long_guid {guid : String} (hguid : statement.guid? = some guid)
    (hlong : maxGuidBytes < guid.utf8ByteSize) :
    (ofArray (toArray statement) : Except ArrayError Statement) =
      .error (.lengthExceedsLimit "g" guid.utf8ByteSize maxGuidBytes) := by
  have hlookup : statement.members.written.lookup "g" = some (.text guid) := by
    have hform : (Json.text guid : Json) = .ofOption (statement.guid?.map .text) := by
      rw [hguid]
      rfl
    rw [statement.lookup_written, hform]
    rfl
  have hgiven := Members.given?_of_lookup hlookup rfl
  have hguid : statement.members.written.optional "g" Claim.guidOfArray =
      .error (.lengthExceedsLimit "g" guid.utf8ByteSize maxGuidBytes) := by
    rw [Members.optional_of_given_some hgiven, Claim.guidOfArray_of_lt hlong]
    rfl
  rw [ofArray_toArray, ofMembers, claim_ofMembers_written hmain hqualifiers, hguid, error_bind,
    error_bind]

end Statement

/-- Whether all coordinates that a statement holds are finite. -/
def Statement.Finite (statement : Statement) : Prop :=
  ∀ snak ∈ statement.allSnaks, ∀ value ∈ snak.dataValue?, value.Finite

namespace Statement.Finite

variable {statement : Statement} (h : statement.Finite)
include h

theorem lossless_snak {snak : Snak} (member : snak ∈ statement.allSnaks) : Lossless snak :=
  Snak.lossless fun value hvalue => (h snak member value hvalue).lossless

theorem lossless_mainSnak : Lossless statement.mainSnak :=
  h.lossless_snak (List.mem_append_left _ (List.mem_cons_self ..))

theorem lossless_qualifiers (hmade : statement.Constructed) : Lossless statement.qualifiers := by
  refine SnakList.lossless hmade.qualifiers.distinct ?_
  intro snak member
  exact h.lossless_snak (List.mem_append_left _ (List.mem_cons_of_mem _ member))

theorem lossless_references (hmade : statement.Constructed) : Lossless statement.references := by
  refine ReferenceList.lossless hmade.references.nodup_hashes ?_
  intro reference hreference
  refine Reference.lossless (SnakList.lossless (hmade.references.snaks _ hreference).distinct ?_)
  intro snak member
  exact h.lossless_snak (List.mem_append_right _
    (List.mem_flatMap.mpr ⟨reference, hreference, member⟩))

/-- A constructed statement with finite coordinates is read back if its identifier fits. -/
theorem lossless (hmade : statement.Constructed) (hguid : statement.GuidFits) :
    Lossless statement :=
  Statement.lossless h.lossless_mainSnak (h.lossless_qualifiers hmade)
    (h.lossless_references hmade) hguid

end Statement.Finite

/-- Whether all parts of a claim are read back. -/
structure Claim.PartsLossless (claim : Claim) : Prop where
  mainSnak : Lossless claim.mainSnak
  qualifiers : Lossless claim.qualifiers
  guid : ∀ guid ∈ claim.guid?, guid.utf8ByteSize ≤ maxGuidBytes

theorem Claim.partsLossless_ofMembers {members : Members} {claim : Claim} (hfinite : members.Finite)
    (h : Claim.ofMembers members = .ok claim) : claim.PartsLossless := by
  unfold Claim.ofMembers at h
  obtain ⟨array, harray, h⟩ := bind_eq_ok.mp h
  obtain ⟨mainSnak, hmain, h⟩ := bind_eq_ok.mp h
  obtain ⟨qualifiers, hqualifiers, h⟩ := bind_eq_ok.mp h
  obtain ⟨guid?, hguid, h⟩ := bind_eq_ok.mp h
  cases h
  constructor
  · exact Snak.lossless_ofArray (hfinite.of_field harray) hmain
  · exact hfinite.lossless_of_optionalD SnakList.lossless_empty
      (fun _ _ => SnakList.lossless_ofArray) hqualifiers
  · exact hfinite.of_optional (fun _ _ _ => Claim.le_of_guidOfArray) hguid

theorem Claim.PartsLossless.lossless_statement {statement : Statement}
    (h : statement.claim.PartsLossless) (hreferences : Lossless statement.references) :
    Lossless statement :=
  Statement.lossless h.mainSnak h.qualifiers hreferences h.guid

theorem Statement.lossless_ofArray {array : Json} {statement : Statement}
    (hfinite : array.Finite) (h : ofArray array = .ok statement) : Lossless statement := by
  obtain ⟨found, hfound, rfl⟩ := map_eq_ok.mp h
  obtain ⟨members, hmembers, hfound⟩ := bind_eq_ok.mp hfound
  obtain ⟨kind, -, hfound⟩ := bind_eq_ok.mp hfound
  have hmembers := hfinite.of_expectObject hmembers
  split at hfound
  next =>
    obtain ⟨claim, hclaim, hfound⟩ := bind_eq_ok.mp hfound
    cases hfound
    have hclaim := Claim.partsLossless_ofMembers hmembers hclaim
    exact Claim.PartsLossless.lossless_statement hclaim ReferenceList.lossless_empty
  next =>
    split at hfound
    next =>
      obtain ⟨statement, hstatement, hfound⟩ := bind_eq_ok.mp hfound
      cases hfound
      unfold Statement.ofMembers at hstatement
      obtain ⟨claim, hclaim, hstatement⟩ := bind_eq_ok.mp hstatement
      obtain ⟨rank, -, hstatement⟩ := bind_eq_ok.mp hstatement
      obtain ⟨references, hreferences, hstatement⟩ := bind_eq_ok.mp hstatement
      cases hstatement
      have hreferences := hmembers.lossless_of_optionalD ReferenceList.lossless_empty
        (fun _ _ => ReferenceList.lossless_ofArray) hreferences
      have hclaim := Claim.partsLossless_ofMembers hmembers hclaim
      exact Claim.PartsLossless.lossless_statement hclaim hreferences
    next => cases hfound

end KnowledgeBase
