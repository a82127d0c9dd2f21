import KnowledgeBase.Proofs.Bytes
import KnowledgeBase.Proofs.ContentEquality
import KnowledgeBase.Proofs.EntityId
import Mathlib.Data.List.Permutation

/-!
The canonical byte forms are unambiguous. Two values have the same form exactly if they have
the same content, also when other bytes follow, so no hash can stand for two contents unless
the digest itself collides. The content is what is left when the two zeros are not told
apart, the snaks of a list are in canonical order, references are known by their hashes and
identifiers are left out.
-/

namespace KnowledgeBase

/-! ## Contents without signed zeros -/

theorem Binary64.beq_iff_withoutSignedZero {x y : Binary64} : (x == y) = true ↔
    x.isNaN = false ∧ y.isNaN = false ∧ x.withoutSignedZero = y.withoutSignedZero := by
  have hzero : Binary64.zero.isZero = true := by decide
  rw [beq_iff]
  refine and_congr_right fun _ => and_congr_right fun _ => ?_
  unfold withoutSignedZero
  constructor
  · rintro (rfl | ⟨hx, hy⟩)
    · rfl
    · rw [if_pos hx, if_pos hy]
  · intro h
    split at h
    next hx =>
      split at h
      next hy => exact Or.inr ⟨hx, hy⟩
      next hy =>
        rw [h] at hzero
        exact absurd hzero hy
    next hx =>
      split at h
      next hy =>
        rw [← h] at hzero
        exact absurd hzero hx
      next => exact Or.inl h

private theorem option_beq_iff {x y : Option Binary64} : (x == y) = true ↔
    (∀ value ∈ x, value.isNaN = false) ∧ (∀ value ∈ y, value.isNaN = false) ∧
      x.map Binary64.withoutSignedZero = y.map Binary64.withoutSignedZero := by
  cases x with
  | none => cases y <;> simp
  | some x =>
      cases y with
      | none => simp
      | some y => simp [Binary64.beq_iff_withoutSignedZero]

/-- The place with zero for each part that is a negative zero. -/
def Coordinate.withoutSignedZero (place : Coordinate) : Coordinate where
  latitude := place.latitude.withoutSignedZero
  longitude := place.longitude.withoutSignedZero
  altitude := place.altitude.map Binary64.withoutSignedZero
  precision := place.precision.map Binary64.withoutSignedZero
  globe := place.globe

theorem Coordinate.beq_iff_withoutSignedZero {first second : Coordinate} :
    (first == second) = true ↔ first.NaNFree ∧ second.NaNFree ∧
      first.withoutSignedZero = second.withoutSignedZero := by
  rw [beq_iff, Binary64.beq_iff_withoutSignedZero, Binary64.beq_iff_withoutSignedZero,
    option_beq_iff, option_beq_iff]
  simp only [NaNFree, withoutSignedZero, mk.injEq]
  tauto

def DataValue.withoutSignedZero : DataValue → DataValue
  | .coordinate place => .coordinate place.withoutSignedZero
  | value => value

theorem DataValue.beq_iff_withoutSignedZero {first second : DataValue} :
    (first == second) = true ↔ first.NaNFree ∧ second.NaNFree ∧
      first.withoutSignedZero = second.withoutSignedZero := by
  cases first with
  | coordinate place =>
      cases second with
      | coordinate place' =>
          rw [withoutSignedZero, withoutSignedZero, coordinate.injEq]
          exact Coordinate.beq_iff_withoutSignedZero
      | string | monolingualText | quantity | time | entityId =>
          simp [beq_iff, withoutSignedZero]
  | string | monolingualText | quantity | time | entityId =>
      cases second <;> simp [beq_iff, NaNFree, withoutSignedZero]

def Snak.withoutSignedZero : Snak → Snak
  | .value property data => .value property data.withoutSignedZero
  | snak => snak

theorem Snak.beq_iff_withoutSignedZero {first second : Snak} :
    (first == second) = true ↔ first.NaNFree ∧ second.NaNFree ∧
      first.withoutSignedZero = second.withoutSignedZero := by
  cases first with
  | value property data =>
      cases second with
      | value property' data' =>
          simp only [beq_iff, kind, Snak.property, dataValue?, Option.some_beq_some,
            DataValue.beq_iff_withoutSignedZero, NaNFree, withoutSignedZero, value.injEq,
            Option.mem_some_iff, forall_eq', true_and]
          tauto
      | noValue | someValue => simp [beq_iff, kind, withoutSignedZero]
  | noValue | someValue =>
      cases second <;> simp [beq_iff, kind, Snak.property, dataValue?, NaNFree,
        withoutSignedZero]

@[simp] theorem Snak.property_withoutSignedZero (snak : Snak) :
    snak.withoutSignedZero.property = snak.property := by
  cases snak <;> rfl

theorem snaks_beq_iff_withoutSignedZero {first second : List Snak} :
    (first == second) = true ↔ (∀ snak ∈ first, snak.NaNFree) ∧
      (∀ snak ∈ second, snak.NaNFree) ∧
      first.map Snak.withoutSignedZero = second.map Snak.withoutSignedZero := by
  induction first generalizing second with
  | nil => cases second <;> simp
  | cons head rest ih =>
      cases second with
      | nil => simp
      | cons head' rest' =>
          rw [List.cons_beq_cons, Bool.and_eq_true, ih, Snak.beq_iff_withoutSignedZero]
          simp only [List.forall_mem_cons, List.map_cons, List.cons.injEq]
          tauto

/-! ## Ids and values -/

private theorem tagged_append_iff {tag : UInt8} {bytes bytes' rest rest' : Bytes} {same : Prop}
    (h : bytes ++ rest = bytes' ++ rest' ↔ same) :
    (tag :: bytes) ++ rest = (tag :: bytes') ++ rest' ↔ same := by
  rw [List.cons_append, List.cons_append, List.cons.injEq, h, and_iff_right rfl]

open Bytes (SelfDelimiting selfDelimiting_byte selfDelimiting_double selfDelimiting_signed
  selfDelimiting_text selfDelimiting_varint)

theorem EntityId.selfDelimiting : SelfDelimiting EntityId.canonicalBytes id :=
  (selfDelimiting_text.comp EntityId.text).congr fun _ _ => ⟨text_injective, congrArg text⟩

theorem PropertyId.selfDelimiting :
    SelfDelimiting (fun id : PropertyId => Bytes.text id.text) id :=
  (selfDelimiting_text.comp PropertyId.text).congr fun _ _ => ⟨text_injective, congrArg text⟩

private theorem selfDelimiting_monolingualText :
    SelfDelimiting (fun parts : String × String => Bytes.text parts.1 ++ Bytes.text parts.2) id :=
  (selfDelimiting_text.comp Prod.fst).append (selfDelimiting_text.comp Prod.snd)

private theorem selfDelimiting_quantity :
    SelfDelimiting (fun q : Quantity => Bytes.text q.amount ++ Bytes.text q.unit ++
      Bytes.optional Bytes.text q.upperBound ++ Bytes.optional Bytes.text q.lowerBound) id := by
  have hparts := (((selfDelimiting_text.comp Quantity.amount).append
    (selfDelimiting_text.comp Quantity.unit)).append
    (selfDelimiting_text.optional.comp Quantity.upperBound)).append
    (selfDelimiting_text.optional.comp Quantity.lowerBound)
  refine hparts.congr fun first second => ?_
  cases first
  cases second
  simp [and_assoc]

private theorem selfDelimiting_time :
    SelfDelimiting (fun t : TimePoint => Bytes.text t.time ++ Bytes.signed t.timezone.toInt ++
      Bytes.varint t.before.toNat ++ Bytes.varint t.after.toNat ++
      t.precision :: Bytes.text t.calendar) id := by
  have hparts := ((((selfDelimiting_text.comp TimePoint.time).append
    (selfDelimiting_signed.comp fun t => t.timezone.toInt)).append
    (selfDelimiting_varint.comp fun t => t.before.toNat)).append
    (selfDelimiting_varint.comp fun t => t.after.toNat)).append
    ((selfDelimiting_byte.comp TimePoint.precision).append
      (selfDelimiting_text.comp TimePoint.calendar))
  refine hparts.congr fun first second => ?_
  cases first
  cases second
  simp [and_assoc, Int32.toInt_inj, UInt32.toNat_inj]

private theorem selfDelimiting_coordinate :
    SelfDelimiting (fun c : Coordinate => Bytes.double c.latitude ++ Bytes.double c.longitude ++
      Bytes.optional Bytes.double c.altitude ++ Bytes.optional Bytes.double c.precision ++
      Bytes.text c.globe) Coordinate.withoutSignedZero := by
  have hparts := ((((selfDelimiting_double.comp Coordinate.latitude).append
    (selfDelimiting_double.comp Coordinate.longitude)).append
    (selfDelimiting_double.optional.comp Coordinate.altitude)).append
    (selfDelimiting_double.optional.comp Coordinate.precision)).append
    (selfDelimiting_text.comp Coordinate.globe)
  refine hparts.congr fun first second => ?_
  simp [Coordinate.withoutSignedZero, and_assoc]

/-- The tag shows the kind of a value, and values of one kind have forms of one shape. -/
theorem DataValue.selfDelimiting :
    SelfDelimiting DataValue.canonicalBytes DataValue.withoutSignedZero := by
  intro first second rest rest'
  cases first with
  | string value =>
      cases second with
      | string value' =>
          refine (tagged_append_iff (selfDelimiting_text value value' rest rest')).trans ?_
          simp [withoutSignedZero]
      | _ => simp [canonicalBytes, kind, ValueKind.tag, withoutSignedZero]
  | monolingualText language text =>
      cases second with
      | monolingualText language' text' =>
          refine (tagged_append_iff (selfDelimiting_monolingualText (language, text)
            (language', text') rest rest')).trans ?_
          simp [withoutSignedZero]
      | _ => simp [canonicalBytes, kind, ValueKind.tag, withoutSignedZero]
  | quantity q =>
      cases second with
      | quantity q' =>
          refine (tagged_append_iff (selfDelimiting_quantity q q' rest rest')).trans ?_
          simp [withoutSignedZero]
      | _ => simp [canonicalBytes, kind, ValueKind.tag, withoutSignedZero]
  | time point =>
      cases second with
      | time point' =>
          refine (tagged_append_iff (selfDelimiting_time point point' rest rest')).trans ?_
          simp [withoutSignedZero]
      | _ => simp [canonicalBytes, kind, ValueKind.tag, withoutSignedZero]
  | coordinate place =>
      cases second with
      | coordinate place' =>
          refine (tagged_append_iff
            (selfDelimiting_coordinate place place' rest rest')).trans ?_
          simp [withoutSignedZero]
      | _ => simp [canonicalBytes, kind, ValueKind.tag, withoutSignedZero]
  | entityId id =>
      cases second with
      | entityId id' =>
          refine (tagged_append_iff (EntityId.selfDelimiting id id' rest rest')).trans ?_
          simp [withoutSignedZero]
      | _ => simp [canonicalBytes, kind, ValueKind.tag, withoutSignedZero]

/-! ## Snaks and what is made of them -/

theorem SnakKind.name_injective {first second : SnakKind} (h : first.name = second.name) :
    first = second := by
  cases first <;> cases second <;> first | rfl | exact absurd h (by decide)

/-- The kind of a snak tells whether a value follows. -/
theorem Snak.selfDelimiting : SelfDelimiting Snak.canonicalBytes Snak.withoutSignedZero := by
  have hhead := (selfDelimiting_text.comp fun snak : Snak => snak.kind.name).append
    (PropertyId.selfDelimiting.comp Snak.property)
  have hparts : SelfDelimiting Snak.canonicalBytes fun snak =>
      ((snak.kind.name, snak.property), snak.dataValue?.map DataValue.withoutSignedZero) := by
    refine hhead.bind ?_
    intro first second hsame rest rest'
    have hkind : first.kind = second.kind := SnakKind.name_injective (Prod.mk.inj hsame).1
    cases first with
    | value property data =>
        cases second with
        | value property' data' =>
            refine (DataValue.selfDelimiting data data' rest rest').trans ?_
            simp [dataValue?]
        | noValue | someValue => cases hkind
    | noValue | someValue =>
        cases second with
        | value => cases hkind
        | noValue | someValue => simp [dataValue?]
  refine hparts.congr fun first second => ?_
  cases first <;> cases second <;>
    simp [kind, SnakKind.name, Snak.property, dataValue?, withoutSignedZero]

namespace SnakList

/-- Lists that have equal snaks in canonical order. -/
def SameContent (first second : SnakList) : Prop :=
  (first.canonicalOrder == second.canonicalOrder) = true

def NaNFree (list : SnakList) : Prop := ∀ snak ∈ list.snaks, snak.NaNFree

/-- The snaks in canonical order, without signed zeros. -/
def content (list : SnakList) : List Snak := list.canonicalOrder.map Snak.withoutSignedZero

theorem selfDelimiting : SelfDelimiting SnakList.canonicalBytes content := by
  have hcounted := (Snak.selfDelimiting.counted.comp canonicalOrder).mark (Bytes.text "snaks")
  have hform : canonicalBytes = fun list => Bytes.text "snaks" ++
      (Bytes.varint list.canonicalOrder.length ++
        list.canonicalOrder.flatMap Snak.canonicalBytes) := by
    funext list
    rw [canonicalBytes, canonicalOrder, List.length_mergeSort, List.append_assoc, size]
  rw [hform]
  exact hcounted

theorem content_eq_iff {first second : SnakList} (hfirst : first.NaNFree)
    (hsecond : second.NaNFree) : first.content = second.content ↔ first.SameContent second := by
  have hordered {list : SnakList} (h : list.NaNFree) :
      ∀ snak ∈ list.canonicalOrder, snak.NaNFree := fun snak member =>
    h snak (List.mem_mergeSort.mp member)
  rw [SameContent, snaks_beq_iff_withoutSignedZero, content, content,
    and_iff_right (hordered hfirst), and_iff_right (hordered hsecond)]

/-- Zeros do not count for the canonical order. -/
theorem content_eq_mergeSort (list : SnakList) : list.content =
    (list.snaks.map Snak.withoutSignedZero).mergeSort
      fun first second => first.property.text ≤ second.property.text :=
  List.map_mergeSort (by simp)

/-- Equal lists are put in canonical order alike. -/
theorem content_eq_of_beq {first second : SnakList} (h : (first == second) = true) :
    first.content = second.content := by
  rw [content_eq_mergeSort, content_eq_mergeSort, (snaks_beq_iff_withoutSignedZero.mp h).2.2]

theorem canonicalBytes_eq_of_content {first second : SnakList}
    (h : first.content = second.content) : first.canonicalBytes = second.canonicalBytes := by
  have happended := (selfDelimiting first second [] []).mpr ⟨h, rfl⟩
  rwa [List.append_nil, List.append_nil] at happended

theorem content_eq_of_canonicalBytes {first second : SnakList}
    (h : first.canonicalBytes = second.canonicalBytes) : first.content = second.content := by
  have happended : first.canonicalBytes ++ [] = second.canonicalBytes ++ [] := by rw [h]
  exact ((selfDelimiting first second [] []).mp happended).1

end SnakList

namespace ReferenceList

/-- Lists of references with the same hashes in the same order. -/
def SameContent (first second : ReferenceList) : Prop := first.hashes = second.hashes

theorem selfDelimiting : SelfDelimiting ReferenceList.canonicalBytes hashes := by
  have hcounted := (selfDelimiting_text.counted.comp hashes).mark (Bytes.text "references")
  have hform : canonicalBytes = fun list => Bytes.text "references" ++
      (Bytes.varint list.hashes.length ++ list.hashes.flatMap Bytes.text) := by
    funext list
    rw [canonicalBytes, hashes, List.length_map, List.append_assoc, size]
  rw [hform]
  exact hcounted.congr fun first second => by rw [List.map_id, List.map_id]

theorem hashes_eq_of_beq {first second : ReferenceList} (h : (first == second) = true) :
    first.hashes = second.hashes :=
  references_beq_iff.mp h

end ReferenceList

namespace Claim

/-- Claims that have equal main snaks and qualifiers of the same content. -/
structure SameContent (first second : Claim) : Prop where
  mainSnak : (first.mainSnak == second.mainSnak) = true
  qualifiers : first.qualifiers.SameContent second.qualifiers

structure NaNFree (claim : Claim) : Prop where
  mainSnak : claim.mainSnak.NaNFree
  qualifiers : claim.qualifiers.NaNFree

def content (claim : Claim) : Snak × List Snak :=
  (claim.mainSnak.withoutSignedZero, claim.qualifiers.content)

theorem selfDelimiting : SelfDelimiting Claim.canonicalBytes content := by
  have hparts := ((Snak.selfDelimiting.comp mainSnak).mark (Bytes.text "claim")).append
    (SnakList.selfDelimiting.comp qualifiers)
  exact hparts

theorem content_eq_iff {first second : Claim} (hfirst : first.NaNFree)
    (hsecond : second.NaNFree) : first.content = second.content ↔ first.SameContent second := by
  rw [content, content, Prod.mk.injEq,
    SnakList.content_eq_iff hfirst.qualifiers hsecond.qualifiers]
  constructor
  · rintro ⟨hmain, hqualifiers⟩
    exact ⟨Snak.beq_iff_withoutSignedZero.mpr ⟨hfirst.mainSnak, hsecond.mainSnak, hmain⟩,
      hqualifiers⟩
  · rintro ⟨hmain, hqualifiers⟩
    exact ⟨(Snak.beq_iff_withoutSignedZero.mp hmain).2.2, hqualifiers⟩

theorem content_eq_of_beq {first second : Claim} (h : (first == second) = true) :
    first.content = second.content := by
  have hparts : ((first.mainSnak == second.mainSnak) && (first.qualifiers == second.qualifiers) &&
      (first.guid? == second.guid?)) = true := h
  rw [Bool.and_eq_true, Bool.and_eq_true] at hparts
  rw [content, content, (Snak.beq_iff_withoutSignedZero.mp hparts.1.1).2.2,
    SnakList.content_eq_of_beq hparts.1.2]

end Claim

namespace Statement

/-- Statements that have claims and references of the same content and the same rank. -/
structure SameContent (first second : Statement) : Prop where
  claim : first.claim.SameContent second.claim
  rank : first.rank = second.rank
  references : first.references.SameContent second.references

def content (statement : Statement) : (Snak × List Snak) × Rank × List String :=
  (statement.claim.content, statement.rank, statement.references.hashes)

theorem NaNFree.claim {statement : Statement} (h : statement.NaNFree) :
    statement.claim.NaNFree where
  mainSnak := h _ (List.mem_append_left _ (List.mem_cons_self ..))
  qualifiers snak member := h snak (List.mem_append_left _ (List.mem_cons_of_mem _ member))

theorem selfDelimiting : SelfDelimiting Statement.canonicalBytes content := by
  have hrank : SelfDelimiting (fun rank : Rank => [UInt8.ofNat rank.number]) id := by
    refine (selfDelimiting_byte.comp fun rank : Rank => UInt8.ofNat rank.number).congr ?_
    intro first second
    cases first <;> cases second <;> decide
  have hparts := (((Snak.selfDelimiting.comp mainSnak).mark (Bytes.text "statement")).append
    (SnakList.selfDelimiting.comp qualifiers)).append
    ((hrank.comp rank).append (ReferenceList.selfDelimiting.comp references))
  exact hparts

theorem content_eq_iff {first second : Statement} (hfirst : first.NaNFree)
    (hsecond : second.NaNFree) : first.content = second.content ↔ first.SameContent second := by
  have hclaim := Claim.content_eq_iff hfirst.claim hsecond.claim
  constructor
  · intro h
    obtain ⟨hclaimContent, hrest⟩ := Prod.mk.inj h
    obtain ⟨hrank, hreferences⟩ := Prod.mk.inj hrest
    exact ⟨hclaim.mp hclaimContent, hrank, hreferences⟩
  · rintro ⟨hsame, hrank, hreferences⟩
    rw [content, content, hclaim.mpr hsame, hrank, hreferences]

theorem content_eq_of_beq {first second : Statement} (h : (first == second) = true) :
    first.content = second.content := by
  have hparts : ((first.claim == second.claim) && (first.rank == second.rank) &&
      (first.references == second.references)) = true := h
  rw [Bool.and_eq_true, Bool.and_eq_true] at hparts
  rw [content, content, Claim.content_eq_of_beq hparts.1.1, eq_of_beq hparts.1.2,
    ReferenceList.hashes_eq_of_beq hparts.2]

end Statement

/-! ## All canonical forms -/

/-- Whether the canonical forms of values tell their contents apart, also from what follows
them, and nothing else apart. -/
structure Unambiguous {α : Type} [BEq α] (bytes : α → Bytes) (hash : α → String)
    (fit : α → Prop) (same : α → α → Prop) : Prop where
  told_apart : ∀ first second, fit first → fit second → ∀ rest rest',
    bytes first ++ rest = bytes second ++ rest' → same first second ∧ rest = rest'
  written_alike : ∀ first second, fit first → fit second → same first second →
    bytes first = bytes second
  hashed_alike : ∀ first second, (first == second) = true → hash first = hash second

theorem unambiguous_of_content {α β : Type} [BEq α] {bytes : α → Bytes} {hash : α → String}
    {fit : α → Prop} {same : α → α → Prop} {content : α → β}
    (hbytes : SelfDelimiting bytes content)
    (hhash : ∀ value, hash value = contentHash (bytes value))
    (hsame : ∀ {first second}, fit first → fit second →
      (content first = content second ↔ same first second))
    (hbeq : ∀ {first second}, (first == second) = true → content first = content second) :
    Unambiguous bytes hash fit same := by
  have halike {first second : α} (h : content first = content second) :
      bytes first = bytes second := by
    have happended := (hbytes first second [] []).mpr ⟨h, rfl⟩
    rwa [List.append_nil, List.append_nil] at happended
  constructor
  · intro first second hfirst hsecond rest rest' h
    rw [← hsame hfirst hsecond]
    exact (hbytes first second rest rest').mp h
  · intro first second hfirst hsecond h
    exact halike ((hsame hfirst hsecond).mpr h)
  · intro first second h
    rw [hhash, hhash, halike (hbeq h)]

/-- The canonical forms of ids, values, snaks, lists of snaks and references, claims and
statements are unambiguous. -/
theorem canonicalBytes_unambiguous :
    Unambiguous EntityId.canonicalBytes EntityId.hash (fun _ => True) (· = ·) ∧
    Unambiguous DataValue.canonicalBytes DataValue.hash DataValue.NaNFree
      (fun first second => (first == second) = true) ∧
    Unambiguous Snak.canonicalBytes Snak.hash Snak.NaNFree
      (fun first second => (first == second) = true) ∧
    Unambiguous SnakList.canonicalBytes SnakList.hash SnakList.NaNFree SnakList.SameContent ∧
    Unambiguous ReferenceList.canonicalBytes ReferenceList.hash (fun _ => True)
      ReferenceList.SameContent ∧
    Unambiguous Claim.canonicalBytes Claim.hash Claim.NaNFree Claim.SameContent ∧
    Unambiguous Statement.canonicalBytes Statement.hash Statement.NaNFree
      Statement.SameContent := by
  refine ⟨?_, ?_, ?_, ?_, ?_, ?_, ?_⟩
  · exact unambiguous_of_content EntityId.selfDelimiting (fun _ => rfl) (fun _ _ => Iff.rfl)
      eq_of_beq
  · refine unambiguous_of_content DataValue.selfDelimiting (fun _ => rfl) ?_ ?_
    · intro first second hfirst hsecond
      rw [DataValue.beq_iff_withoutSignedZero, and_iff_right hfirst, and_iff_right hsecond]
    · intro first second h
      exact (DataValue.beq_iff_withoutSignedZero.mp h).2.2
  · refine unambiguous_of_content Snak.selfDelimiting (fun _ => rfl) ?_ ?_
    · intro first second hfirst hsecond
      rw [Snak.beq_iff_withoutSignedZero, and_iff_right hfirst, and_iff_right hsecond]
    · intro first second h
      exact (Snak.beq_iff_withoutSignedZero.mp h).2.2
  · exact unambiguous_of_content SnakList.selfDelimiting (fun _ => rfl)
      SnakList.content_eq_iff SnakList.content_eq_of_beq
  · exact unambiguous_of_content ReferenceList.selfDelimiting (fun _ => rfl)
      (fun _ _ => Iff.rfl) ReferenceList.hashes_eq_of_beq
  · exact unambiguous_of_content Claim.selfDelimiting (fun _ => rfl) Claim.content_eq_iff
      Claim.content_eq_of_beq
  · exact unambiguous_of_content Statement.selfDelimiting (fun _ => rfl)
      Statement.content_eq_iff Statement.content_eq_of_beq

/-- Neither the interleaving of properties nor the sign of a zero shows in the form of a list,
but the snaks do. -/
theorem canonicalBytes_of_interleaved_snaks :
    let first : PropertyId := ⟨1, by decide, by decide⟩
    let second : PropertyId := ⟨2, by decide, by decide⟩
    let place (latitude : Binary64) := DataValue.ofPlace latitude .zero none
    let list : SnakList := ⟨[.noValue first, .value second (place .zero)]⟩
    let interleaved : SnakList :=
      ⟨[.value second (place (.ofMagnitude true 0)), .noValue first]⟩
    let other : SnakList := ⟨[.someValue first, .value second (place .zero)]⟩
    (list.NaNFree ∧ interleaved.NaNFree ∧ other.NaNFree) ∧
      list.canonicalBytes = interleaved.canonicalBytes ∧
      list.canonicalBytes ≠ other.canonicalBytes := by
  intro first second place list interleaved other
  have hnanFree : list.NaNFree ∧ interleaved.NaNFree ∧ other.NaNFree := by
    have hplace {latitude : Binary64} (h : latitude.isNaN = false) : (place latitude).NaNFree :=
      ⟨h, show Binary64.zero.isNaN = false by decide, by simp, by simp⟩
    have hzero := hplace (show Binary64.zero.isNaN = false by decide)
    have hnegative := hplace (show (Binary64.ofMagnitude true 0).isNaN = false by decide)
    simp [SnakList.NaNFree, Snak.NaNFree, list, interleaved, other, Snak.dataValue?, hzero,
      hnegative]
  obtain ⟨-, -, -, hlists, -⟩ := canonicalBytes_unambiguous
  refine ⟨hnanFree, hlists.written_alike _ _ hnanFree.1 hnanFree.2.1 ?_, ?_⟩
  · unfold SnakList.SameContent
    cbv
  · intro h
    have hsame := (hlists.told_apart _ _ hnanFree.1 hnanFree.2.2 [] [] (by rw [h])).1
    have hdiffer : (list.canonicalOrder == other.canonicalOrder) = false := by cbv
    rw [SnakList.SameContent, hdiffer] at hsame
    cases hsame

end KnowledgeBase
