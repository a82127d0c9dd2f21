import KnowledgeBase.Proofs.ArrayForm.Entity
import KnowledgeBase.Proofs.ArrayForm.Readable
import KnowledgeBase.Proofs.CanonicalBytes
import KnowledgeBase.Proofs.KeySort

/-!
Equality and the array form. Equality looks at less than what is written: it does not tell the
two zeros apart, and references are compared by their hashes, for which the snaks of different
properties may be interleaved in any way. What it leaves open is the layout of an entity. Equal
entities have the same normal form. They are written alike exactly if they have the same layout,
and then they have the same hash.
-/

namespace KnowledgeBase

open ArrayForm

/-! ## Lists -/

section Lists

variable {α β γ : Type}

/-- Lists have the same image if related members have. -/
private theorem map_eq_of_forall₂ {related : α → α → Prop} {g : α → γ} {first second : List α}
    (h : ∀ left ∈ first, ∀ right ∈ second, related left right → g left = g right)
    (hrelated : List.Forall₂ related first second) : first.map g = second.map g := by
  induction hrelated with
  | nil => rfl
  | cons hhead _ ih =>
      have hfirst := h _ (List.mem_cons_self ..) _ (List.mem_cons_self ..) hhead
      have hlater := ih fun left member right member' =>
        h left (List.mem_cons_of_mem _ member) right (List.mem_cons_of_mem _ member')
      rw [List.map_cons, List.map_cons, hfirst, hlater]

theorem map_eq_of_map_eq {f : α → β} {g : α → γ} {first second : List α}
    (h : ∀ left ∈ first, ∀ right ∈ second, f left = f right → g left = g right)
    (hmap : first.map f = second.map f) : first.map g = second.map g := by
  rw [← List.forall₂_eq_eq_eq, List.forall₂_map_left_iff, List.forall₂_map_right_iff] at hmap
  exact map_eq_of_forall₂ h hmap

theorem map_eq_of_beq [BEq α] {g : α → γ} {first second : List α}
    (h : ∀ left ∈ first, ∀ right ∈ second, (left == right) = true → g left = g right)
    (hbeq : (first == second) = true) : first.map g = second.map g :=
  map_eq_of_forall₂ h (list_beq_iff.mp hbeq)

theorem exists_beq_of_mem [BEq α] {first second : List α} (h : (first == second) = true) :
    ∀ left ∈ first, ∃ right, (left == right) = true := by
  have hrelated := list_beq_iff.mp h
  clear h
  induction hrelated with
  | nil => exact List.forall_mem_nil _
  | cons hhead _ ih => exact List.forall_mem_cons.mpr ⟨⟨_, hhead⟩, ih⟩

theorem list_beq_map [BEq α] {f : α → α} {list : List α}
    (h : ∀ member ∈ list, (member == f member) = true) : (list == list.map f) = true := by
  induction list with
  | nil => rfl
  | cons head rest ih =>
      rw [List.map_cons, List.cons_beq_cons, Bool.and_eq_true]
      exact ⟨h head (List.mem_cons_self ..),
        ih fun member later => h member (List.mem_cons_of_mem _ later)⟩

/-- Lists are the same if their members are known from two views of them. -/
theorem eq_of_map_eq {f : α → β} {g : α → γ} {first second : List α}
    (h : ∀ left right, f left = f right → g left = g right → left = right)
    (hf : first.map f = second.map f) (hg : first.map g = second.map g) : first = second := by
  have hinjective : Function.Injective fun member => (f member, g member) := fun left right hpair =>
    h left right (congrArg Prod.fst hpair) (congrArg Prod.snd hpair)
  refine List.map_injective_iff.mpr hinjective ?_
  rw [← List.zip_map', ← List.zip_map', hf, hg]

end Lists

/-! ## Signs of zeros -/

namespace Binary64

def isNegativeZero (x : Binary64) : Bool := x.isZero && x.isNegative

private theorem isZero_zero : zero.isZero = true := by decide

theorem eq_of_withoutSignedZero {x y : Binary64}
    (h : x.withoutSignedZero = y.withoutSignedZero)
    (hsign : x.isNegativeZero = y.isNegativeZero) : x = y := by
  unfold withoutSignedZero at h
  split at h
  next hx =>
    split at h
    next hy =>
      -- both magnitudes are zero, and a word is known from its magnitude and its sign
      have hbits : x.bits.toNat = y.bits.toNat := by
        simp only [isNegativeZero, isZero, isNegative, magnitude, signWeight, beq_iff_eq,
          Nat.shiftLeft_eq] at hx hy hsign
        have hxBound := x.bits.toNat_lt
        have hyBound := y.bits.toNat_lt
        simp only [hx, hy, beq_self_eq_true, Bool.true_and, decide_eq_decide] at hsign
        omega
      cases x
      cases y
      exact congrArg mk (UInt64.toNat_inj.mp hbits)
    next hy =>
      exact absurd (h ▸ isZero_zero) hy
  next hx =>
    split at h
    next hy =>
      exact absurd (h ▸ isZero_zero) hx
    next => exact h

theorem isNegativeZero_of_not_finite {x : Binary64} (h : x.isFinite = false) :
    x.isNegativeZero = false := by
  have hpositive : 0 < infinite := by decide
  have hzero : x.isZero = false := by
    simp only [isFinite, isZero, decide_eq_false_iff_not, beq_eq_false_iff_ne] at h ⊢
    omega
  rw [isNegativeZero, hzero, Bool.false_and]

@[simp] theorem withoutSignedZero_twice (x : Binary64) :
    x.withoutSignedZero.withoutSignedZero = x.withoutSignedZero := by
  unfold withoutSignedZero
  split
  next => rw [if_pos isZero_zero]
  next => rfl

theorem beq_withoutSignedZero {x : Binary64} (h : x.isNaN = false) :
    (x == x.withoutSignedZero) = true := by
  unfold withoutSignedZero
  split
  next hx => exact beq_iff.mpr ⟨h, by decide, Or.inr ⟨hx, isZero_zero⟩⟩
  next => exact beq_self h

end Binary64

private theorem option_beq_withoutSignedZero {x : Option Binary64}
    (h : ∀ value ∈ x, value.isNaN = false) :
    (x == x.map Binary64.withoutSignedZero) = true := by
  cases x with
  | none => rfl
  | some x => exact Binary64.beq_withoutSignedZero (h x rfl)

theorem Coordinate.NaNFree.beq_withoutSignedZero {place : Coordinate} (h : place.NaNFree) :
    (place == place.withoutSignedZero) = true := by
  obtain ⟨hlatitude, hlongitude, haltitude, hprecision⟩ := h
  exact beq_iff.mpr ⟨Binary64.beq_withoutSignedZero hlatitude,
    Binary64.beq_withoutSignedZero hlongitude, option_beq_withoutSignedZero haltitude,
    option_beq_withoutSignedZero hprecision, rfl⟩

/-- A snak that equals some snak equals itself without signed zeros. -/
theorem Snak.NaNFree.beq_withoutSignedZero {snak : Snak} (h : snak.NaNFree) :
    (snak == snak.withoutSignedZero) = true := by
  cases snak with
  | noValue property | someValue property => exact Snak.beq_iff.mpr ⟨rfl, rfl, rfl⟩
  | value property data =>
      refine Snak.beq_iff.mpr ⟨rfl, rfl, ?_⟩
      have hdata : data.NaNFree := h data rfl
      cases data with
      | coordinate place =>
          exact DataValue.beq_iff.mpr
            (Or.inl ⟨place, _, rfl, rfl, Coordinate.NaNFree.beq_withoutSignedZero hdata⟩)
      | string | monolingualText | quantity | time | entityId =>
          exact DataValue.NaNFree.beq_self hdata

@[simp] theorem Snak.withoutSignedZero_twice (snak : Snak) :
    snak.withoutSignedZero.withoutSignedZero = snak.withoutSignedZero := by
  cases snak with
  | noValue property | someValue property => rfl
  | value property data =>
      cases data with
      | coordinate place =>
          simp [withoutSignedZero, DataValue.withoutSignedZero, Coordinate.withoutSignedZero,
            Option.map_map, Function.comp_def]
      | string | monolingualText | quantity | time | entityId => rfl

/-- Which parts of a place are negative zeros. -/
def Coordinate.zeroSigns (place : Coordinate) : List Bool :=
  [place.latitude.isNegativeZero, place.longitude.isNegativeZero,
    place.altitude.any Binary64.isNegativeZero, place.precision.any Binary64.isNegativeZero]

def DataValue.zeroSigns : DataValue → List Bool
  | .coordinate place => place.zeroSigns
  | _ => []

def Snak.zeroSigns : Snak → List Bool
  | .value _ data => data.zeroSigns
  | _ => []

private theorem option_eq_of_withoutSignedZero {x y : Option Binary64}
    (h : x.map Binary64.withoutSignedZero = y.map Binary64.withoutSignedZero)
    (hsign : x.any Binary64.isNegativeZero = y.any Binary64.isNegativeZero) : x = y := by
  cases x with
  | none => cases y <;> simp_all
  | some x =>
      cases y with
      | none => cases h
      | some y =>
          rw [Binary64.eq_of_withoutSignedZero (Option.some.inj h) hsign]

theorem DataValue.eq_of_withoutSignedZero {first second : DataValue}
    (h : first.withoutSignedZero = second.withoutSignedZero)
    (hsigns : first.zeroSigns = second.zeroSigns) : first = second := by
  cases first with
  | coordinate place =>
      cases second with
      | coordinate place' =>
          simp only [withoutSignedZero, Coordinate.withoutSignedZero, coordinate.injEq,
            Coordinate.mk.injEq] at h
          simp only [zeroSigns, Coordinate.zeroSigns, List.cons.injEq, and_true] at hsigns
          obtain ⟨hlatitude, hlongitude, haltitude, hprecision, hglobe⟩ := h
          obtain ⟨hlatitudeSign, hlongitudeSign, haltitudeSign, hprecisionSign⟩ := hsigns
          congr 1
          cases place
          cases place'
          rw [Coordinate.mk.injEq]
          exact ⟨Binary64.eq_of_withoutSignedZero hlatitude hlatitudeSign,
            Binary64.eq_of_withoutSignedZero hlongitude hlongitudeSign,
            option_eq_of_withoutSignedZero haltitude haltitudeSign,
            option_eq_of_withoutSignedZero hprecision hprecisionSign, hglobe⟩
      | string | monolingualText | quantity | time | entityId => cases h
  | string | monolingualText | quantity | time | entityId =>
      cases second with
      | coordinate place => cases h
      | string | monolingualText | quantity | time | entityId => exact h

theorem Snak.eq_of_withoutSignedZero {first second : Snak}
    (h : first.withoutSignedZero = second.withoutSignedZero)
    (hsigns : first.zeroSigns = second.zeroSigns) : first = second := by
  cases first with
  | value property data =>
      cases second with
      | value property' data' =>
          obtain ⟨hproperty, hdata⟩ := Snak.value.inj h
          rw [hproperty, DataValue.eq_of_withoutSignedZero hdata hsigns]
      | noValue | someValue => cases h
  | noValue | someValue =>
      cases second with
      | value => cases h
      | noValue | someValue => exact h

/-! ## Normal forms and layouts -/

/-- The reference with its snaks in canonical order and without signed zeros. -/
def Reference.normalized (reference : Reference) : Reference := ⟨⟨reference.snaks.content⟩⟩

/-- A reference and its normal form have one content, so they have one hash. -/
theorem Reference.hash_normalized (reference : Reference) :
    reference.normalized.hash = reference.hash := by
  have hzeros : reference.snaks.content.map Snak.withoutSignedZero = reference.snaks.content := by
    rw [SnakList.content, List.map_map]
    exact List.map_congr_left fun snak _ => snak.withoutSignedZero_twice
  have hsorted : reference.snaks.content.Pairwise
      fun first second => decide (first.property.text ≤ second.property.text) = true := by
    simp only [decide_eq_true_eq]
    rw [SnakList.content_eq_mergeSort]
    exact sorted_mergeSort (fun snak : Snak => snak.property.text) _
  have hcontent : reference.normalized.snaks.content = reference.snaks.content := by
    rw [SnakList.content_eq_mergeSort]
    change (reference.snaks.content.map Snak.withoutSignedZero).mergeSort _ = _
    rw [hzeros, List.mergeSort_of_pairwise hsorted]
  exact congrArg contentHash (SnakList.canonicalBytes_eq_of_content hcontent)

/-- The order of the properties in a reference and the signs of its zeros. -/
def Reference.layout (reference : Reference) : List (PropertyId × List Bool) :=
  reference.snaks.snaks.map fun snak => (snak.property, snak.zeroSigns)

theorem Reference.eq_of_normalized {first second : Reference}
    (h : first.normalized = second.normalized) (hlayout : first.layout = second.layout) :
    first = second := by
  have hcontent : first.snaks.content = second.snaks.content :=
    congrArg (fun reference => reference.snaks.snaks) h
  have hproperties := congrArg (List.map Prod.fst) hlayout
  have hsigns := congrArg (List.map Prod.snd) hlayout
  simp only [layout, List.map_map] at hproperties hsigns
  have hzeros : first.snaks.snaks.map Snak.withoutSignedZero =
      second.snaks.snaks.map Snak.withoutSignedZero := by
    refine eq_of_mergeSort_eq (fun snak => snak.property.text) ?_ ?_
    · have htexts := congrArg (List.map PropertyId.text) hproperties
      simpa only [List.map_map, Function.comp_def, Snak.property_withoutSignedZero] using htexts
    · rwa [SnakList.content_eq_mergeSort, SnakList.content_eq_mergeSort] at hcontent
  have hsnaks : first.snaks.snaks = second.snaks.snaks :=
    eq_of_map_eq (fun _ _ => Snak.eq_of_withoutSignedZero) hzeros hsigns
  obtain ⟨⟨snaks⟩⟩ := first
  obtain ⟨⟨snaks'⟩⟩ := second
  obtain rfl : snaks = snaks' := hsnaks
  rfl

namespace Statement

def normalized (statement : Statement) : Statement where
  claim :=
    { mainSnak := statement.mainSnak.withoutSignedZero
      qualifiers := ⟨statement.qualifiers.snaks.map Snak.withoutSignedZero⟩
      guid? := statement.guid? }
  rank := statement.rank
  references := ⟨statement.references.references.map Reference.normalized⟩

/-- What is written of a statement although equality does not look at it. -/
structure Layout where
  mainSnak : List Bool
  qualifiers : List (List Bool)
  references : List (List (PropertyId × List Bool))

def layout (statement : Statement) : Layout where
  mainSnak := statement.mainSnak.zeroSigns
  qualifiers := statement.qualifiers.snaks.map Snak.zeroSigns
  references := statement.references.references.map Reference.layout

variable {first second : Statement}

/-- A statement is known from its normal form and its layout. -/
theorem eq_of_normalized (h : first.normalized = second.normalized)
    (hlayout : first.layout = second.layout) : first = second := by
  obtain ⟨⟨mainSnak, ⟨qualifiers⟩, guid?⟩, rank, ⟨references⟩⟩ := first
  obtain ⟨⟨mainSnak', ⟨qualifiers'⟩, guid?'⟩, rank', ⟨references'⟩⟩ := second
  simp only [normalized, Statement.mk.injEq, Claim.mk.injEq, SnakList.mk.injEq,
    ReferenceList.mk.injEq, Statement.mainSnak, Statement.qualifiers, Statement.guid?] at h
  simp only [layout, Layout.mk.injEq, Statement.mainSnak, Statement.qualifiers] at hlayout
  obtain ⟨⟨hmain, hqualifiers, rfl⟩, rfl, hreferences⟩ := h
  obtain ⟨hmainSigns, hqualifierSigns, hreferenceLayouts⟩ := hlayout
  obtain rfl := Snak.eq_of_withoutSignedZero hmain hmainSigns
  obtain rfl := eq_of_map_eq (fun _ _ => Snak.eq_of_withoutSignedZero) hqualifiers hqualifierSigns
  obtain rfl := eq_of_map_eq (fun _ _ => Reference.eq_of_normalized) hreferences hreferenceLayouts
  rfl

/-- A statement that equals some statement equals its normal form. -/
theorem beq_normalized (h : (first == second) = true) : (first == first.normalized) = true := by
  obtain ⟨hmain, hqualifiers, -⟩ := beq_iff.mp h
  have hmain := (Snak.beq_iff_withoutSignedZero.mp hmain).1
  have hqualifiers := (snaks_beq_iff_withoutSignedZero.mp hqualifiers).1
  refine beq_iff.mpr ⟨hmain.beq_withoutSignedZero, ?_, rfl, rfl, ?_⟩
  · exact list_beq_map fun snak member => (hqualifiers snak member).beq_withoutSignedZero
  · simp only [ReferenceList.hashes, normalized, List.map_map, Function.comp_def,
      Reference.hash_normalized]

/-- Whether references of two statements that have one hash have the bytes of one content. -/
def DigestsApart (first second : Statement) : Prop :=
  ∀ reference ∈ first.references.references, ∀ reference' ∈ second.references.references,
    reference.hash = reference'.hash →
      reference.snaks.canonicalBytes = reference'.snaks.canonicalBytes

theorem normalized_eq_of_beq (h : (first == second) = true) (hdigests : first.DigestsApart second) :
    first.normalized = second.normalized := by
  obtain ⟨hmain, hqualifiers, hguid, hrank, hhashes⟩ := beq_iff.mp h
  have hreferences : first.references.references.map Reference.normalized =
      second.references.references.map Reference.normalized := by
    refine map_eq_of_map_eq ?_ hhashes
    intro reference member reference' member' hhash
    have hcontent := SnakList.content_eq_of_canonicalBytes
      (hdigests reference member reference' member' hhash)
    rw [Reference.normalized, Reference.normalized, hcontent]
  rw [normalized, normalized, (Snak.beq_iff_withoutSignedZero.mp hmain).2.2,
    (snaks_beq_iff_withoutSignedZero.mp hqualifiers).2.2, hguid, hrank, hreferences]

end Statement

/-! ## What the array form shows -/

/-- Objects that are the same have the same members, written under different names. -/
theorem lookup_eq_of_ofMembers {members members' : Members} (h : Json.ofMembers members =
    Json.ofMembers members') (hnames : (members.map (·.1)).Nodup)
    (hnames' : (members'.map (·.1)).Nodup) (name : String) :
    members.lookup name = members'.lookup name := by
  have hwritten : members.written = members'.written := Json.object.inj h
  rw [← Members.lookup_written hnames, hwritten, Members.lookup_written hnames']

namespace Json

/-- Whether a number is a negative zero. -/
def isNegativeZero : Json → Bool
  | .float x => x.isNegativeZero
  | _ => false

theorem isNegativeZero_ofBinary64 (x : Binary64) :
    (ofBinary64 x).isNegativeZero = x.isNegativeZero := by
  unfold ofBinary64
  split
  next => rfl
  next h => exact (Binary64.isNegativeZero_of_not_finite (Bool.eq_false_iff.mpr h)).symm

theorem isNegativeZero_ofOption (x : Option Binary64) :
    (ofOption (x.map ofBinary64)).isNegativeZero = x.any Binary64.isNegativeZero := by
  cases x with
  | none => rfl
  | some x => exact isNegativeZero_ofBinary64 x

end Json

theorem Coordinate.zeroSigns_eq_of_members {first second : Coordinate}
    (h : Json.ofMembers first.members = Json.ofMembers second.members) :
    first.zeroSigns = second.zeroSigns := by
  have hnames (place : Coordinate) : (place.members.map (·.1)).Nodup := by simp [members]
  have hlookup := lookup_eq_of_ofMembers h (hnames first) (hnames second)
  have hlatitude := congrArg Json.isNegativeZero (Option.some.inj (hlookup "latitude"))
  have hlongitude := congrArg Json.isNegativeZero (Option.some.inj (hlookup "longitude"))
  have haltitude := congrArg Json.isNegativeZero (Option.some.inj (hlookup "altitude"))
  have hprecision := congrArg Json.isNegativeZero (Option.some.inj (hlookup "precision"))
  rw [Json.isNegativeZero_ofBinary64, Json.isNegativeZero_ofBinary64] at hlatitude hlongitude
  rw [Json.isNegativeZero_ofOption, Json.isNegativeZero_ofOption] at haltitude hprecision
  rw [zeroSigns, zeroSigns, hlatitude, hlongitude, haltitude, hprecision]

theorem DataValue.zeroSigns_eq_of_toArray {first second : DataValue}
    (h : (toArray first : Json) = toArray second) : first.zeroSigns = second.zeroSigns := by
  have hlookup := lookup_eq_of_ofMembers h (by simp) (by simp)
  have hname : first.kind.name = second.kind.name :=
    Json.text.inj (Option.some.inj (hlookup "type"))
  have hpayload : first.payload = second.payload := Option.some.inj (hlookup "value")
  have hkind : first.kind = second.kind := by
    have hread := congrArg ValueKind.ofName? hname
    rw [ValueKind.ofName?_name, ValueKind.ofName?_name] at hread
    exact Option.some.inj hread
  cases first with
  | coordinate place =>
      cases second with
      | coordinate place' => exact Coordinate.zeroSigns_eq_of_members hpayload
      | string | monolingualText | quantity | time | entityId => cases hkind
  | string | monolingualText | quantity | time | entityId =>
      cases second with
      | coordinate place' => cases hkind
      | string | monolingualText | quantity | time | entityId => rfl

/-- The form of a snak shows its property and the signs of its zeros. -/
theorem Snak.shown_of_toArray {first second : Snak} (h : (toArray first : Json) = toArray second) :
    first.property = second.property ∧ first.zeroSigns = second.zeroSigns := by
  have hparts := Json.array.inj h
  rw [List.cons_append, List.cons_append, List.cons_append, List.cons_append, List.cons.injEq,
    List.cons.injEq, List.nil_append, List.nil_append] at hparts
  obtain ⟨-, hproperty, hvalues⟩ := hparts
  refine ⟨PropertyId.text_injective (Json.text.inj hproperty), ?_⟩
  cases first with
  | value property data =>
      cases second with
      | value property' data' =>
          exact DataValue.zeroSigns_eq_of_toArray (List.cons.inj hvalues).1
      | noValue | someValue => cases hvalues
  | noValue | someValue =>
      cases second with
      | value property' data' => cases hvalues
      | noValue | someValue => rfl

theorem Reference.layout_eq_of_toArray {first second : Reference}
    (h : (toArray first : Json) = toArray second) : first.layout = second.layout := by
  refine map_eq_of_map_eq (fun left _ right _ hsnak => ?_) (Json.array.inj h)
  obtain ⟨hproperty, hsigns⟩ := Snak.shown_of_toArray hsnak
  rw [hproperty, hsigns]

/-- The form of a statement shows its layout. -/
theorem Statement.layout_eq_of_toArray {first second : Statement}
    (h : (toArray first : Json) = toArray second) : first.layout = second.layout := by
  have hnames (statement : Statement) : (statement.members.map (·.1)).Nodup := by
    simp [members, Claim.members]
  have hlookup := lookup_eq_of_ofMembers h (hnames first) (hnames second)
  have hmain : (toArray first.mainSnak : Json) = toArray second.mainSnak :=
    Option.some.inj (hlookup "m")
  have hqualifiers : (toArray first.qualifiers : Json) = toArray second.qualifiers :=
    Option.some.inj (hlookup "q")
  have hreferences : (toArray first.references : Json) = toArray second.references :=
    Option.some.inj (hlookup "refs")
  rw [layout, layout, Layout.mk.injEq]
  refine ⟨(Snak.shown_of_toArray hmain).2, ?_, ?_⟩
  · exact map_eq_of_map_eq (fun _ _ _ _ hsnak => (Snak.shown_of_toArray hsnak).2)
      (Json.array.inj hqualifiers)
  · exact map_eq_of_map_eq (fun _ _ _ _ => Reference.layout_eq_of_toArray)
      (Json.array.inj hreferences)

/-! ## Entities -/

namespace Entity

def normalized (entity : Entity) : Entity :=
  entity.setStatements (entity.statements.map Statement.normalized)

/-- What is written of an entity although equality does not look at it. -/
def layout (entity : Entity) : List Statement.Layout := entity.statements.map Statement.layout

variable {first second : Entity}

/-- Equal entities differ at most in their statements, and these are equal. -/
theorem rest_of_beq (h : (first == second) = true) :
    (first.statements == second.statements) = true ∧
      ∀ statements, first.setStatements statements = second.setStatements statements := by
  cases first with
  | item i =>
      cases second with
      | item i' =>
          have hparts : (i.id? == i'.id? && i.fingerprint == i'.fingerprint &&
            i.statements == i'.statements && i.siteLinks == i'.siteLinks) = true := h
          simp only [Bool.and_eq_true, beq_iff_eq] at hparts
          obtain ⟨⟨⟨hid, hfingerprint⟩, hstatements⟩, hlinks⟩ := hparts
          refine ⟨hstatements, fun statements => ?_⟩
          simp only [setStatements, hid, hfingerprint, SortedMap.eq_of_beq hlinks]
      | property p => cases h
  | property p =>
      cases second with
      | item i => cases h
      | property p' =>
          have hparts : (p.id? == p'.id? && p.fingerprint == p'.fingerprint &&
            p.dataType == p'.dataType && p.statements == p'.statements) = true := h
          simp only [Bool.and_eq_true, beq_iff_eq] at hparts
          obtain ⟨⟨⟨hid, hfingerprint⟩, hdataType⟩, hstatements⟩ := hparts
          refine ⟨hstatements, fun statements => ?_⟩
          simp only [setStatements, hid, hfingerprint, hdataType]

theorem beq_setStatements {entity : Entity} {statements : StatementList}
    (h : (entity.statements == statements) = true) :
    (entity == entity.setStatements statements) = true := by
  have hlinks (links : SiteLinks) : (links == links) = true := BEq.rfl (a := links.entries)
  cases entity with
  | item i =>
      change (i.id? == i.id? && i.fingerprint == i.fingerprint && i.statements == statements &&
        i.siteLinks == i.siteLinks) = true
      rw [hlinks, show (i.statements == statements) = true from h]
      simp
  | property p =>
      change (p.id? == p.id? && p.fingerprint == p.fingerprint && p.dataType == p.dataType &&
        p.statements == statements) = true
      rw [show (p.statements == statements) = true from h]
      simp

/-- An entity that equals some entity equals its normal form. -/
theorem beq_normalized (h : (first == second) = true) : (first == first.normalized) = true := by
  refine beq_setStatements (list_beq_map fun statement member => ?_)
  obtain ⟨other, hother⟩ := exists_beq_of_mem (rest_of_beq h).1 statement member
  exact Statement.beq_normalized hother

theorem statements_eq_of_toArray (h : (toArray first : Json) = toArray second) :
    first.statements.map (toArray : Statement → Json) = second.statements.map toArray := by
  have hnames (entity : Entity) : (entity.members.map (·.1)).Nodup := by
    cases entity <;> simp [members, commonMembers, Fingerprint.members]
  have hlookup (entity : Entity) :
      entity.members.lookup "claims" = some (.array (entity.statements.map toArray)) := rfl
  have hclaims : first.members.lookup "claims" = second.members.lookup "claims" :=
    lookup_eq_of_ofMembers h (hnames first) (hnames second) "claims"
  rw [hlookup, hlookup] at hclaims
  exact Json.array.inj (Option.some.inj hclaims)

theorem layout_eq_of_toArray (h : (toArray first : Json) = toArray second) :
    first.layout = second.layout :=
  map_eq_of_map_eq (fun _ _ _ _ => Statement.layout_eq_of_toArray) (statements_eq_of_toArray h)

/-- Whether the digest tells the references of two entities apart. -/
def DigestsApart (first second : Entity) : Prop :=
  ∀ statement ∈ first.statements, ∀ statement' ∈ second.statements,
    statement.DigestsApart statement'

/-! ## A place with a source -/

def negativeZero : Binary64 := ⟨0x8000000000000000⟩

/-- An item with a statement about a place, which has one reference. -/
def sourcedItem (longitude : Binary64) (source : SnakList) : Entity :=
  .item { statements := [{ placedStatement none longitude with references := ⟨[⟨source⟩]⟩ }] }

/-- Snaks of two properties. -/
def source : SnakList := ⟨[.noValue .first, .someValue ⟨3, by decide, by decide⟩]⟩

def reversedSource : SnakList := ⟨source.snaks.reverse⟩

theorem canonicalBytes_reversedSource : reversedSource.canonicalBytes = source.canonicalBytes :=
  SnakList.canonicalBytes_eq_of_content (by cbv)

theorem beq_sourcedItem {longitude longitude' : Binary64} {snaks snaks' : SnakList}
    (hplace : ((placedStatement none longitude).mainSnak ==
      (placedStatement none longitude').mainSnak) = true)
    (hsnaks : snaks.canonicalBytes = snaks'.canonicalBytes) :
    (sourcedItem longitude snaks == sourcedItem longitude' snaks') = true := by
  have hhashes : [contentHash snaks.canonicalBytes] = [contentHash snaks'.canonicalBytes] := by
    rw [hsnaks]
  change (sourcedItem longitude snaks ==
    (sourcedItem longitude snaks).setStatements (sourcedItem longitude' snaks').statements) = true
  refine beq_setStatements ((Bool.and_eq_true _ _).mpr ⟨?_, rfl⟩)
  exact Statement.beq_iff.mpr ⟨hplace, rfl, rfl, rfl, hhashes⟩

theorem readBack_sourcedItem {longitude : Binary64} {snaks : SnakList}
    (h : longitude.ReadBack) (hsnaks : ∀ snak ∈ snaks.snaks, snak.dataValue? = none) :
    (sourcedItem longitude snaks).ReadBack := by
  have hlatitude : Binary64.ReadBack ⟨0x404a43d70a3d70a4⟩ := by decide +kernel
  refine List.forall_mem_singleton.mpr (List.forall_mem_cons.mpr ⟨?_, ?_⟩)
  · intro value hvalue
    cases hvalue
    exact List.forall_mem_cons.mpr ⟨hlatitude, List.forall_mem_singleton.mpr h⟩
  · intro snak member
    have hsnak : snak ∈ snaks.snaks := by simpa [placedStatement, SnakList.empty] using member
    intro value hvalue
    rw [hsnaks snak hsnak] at hvalue
    cases hvalue

/-! ## Equal entities -/

/-- Whether two entities differ in nothing but their layouts, on which it depends whether they
are written alike. -/
structure AlikeUpToLayout (first second : Entity) : Prop where
  beq_normalized : (first == first.normalized) = true
  normalized_eq : first.normalized = second.normalized
  array : (toArray first : Json) = toArray second ↔ first.layout = second.layout
  render : first.layout = second.layout → (toArray first).render = (toArray second).render
  hash : first.layout = second.layout → first.hash = second.hash
  layout_of_render : first.ReadBack → second.ReadBack →
    (toArray first).render = (toArray second).render → first.layout = second.layout

/-- Equal entities have one normal form, to which they are equal, unless references of
different content have the same digest. They are written alike exactly if they have one layout,
and then they have one hash. -/
theorem hash_of_beq (h : (first == second) = true) (hdigests : first.DigestsApart second) :
    AlikeUpToLayout first second := by
  obtain ⟨hstatements, hrest⟩ := rest_of_beq h
  have hnormal : first.statements.map Statement.normalized =
      second.statements.map Statement.normalized := by
    refine map_eq_of_beq ?_ hstatements
    intro statement member statement' member' hsame
    exact Statement.normalized_eq_of_beq hsame (hdigests statement member statement' member')
  have hsame (hlayout : first.layout = second.layout) : first = second := by
    have hall := eq_of_map_eq (fun _ _ => Statement.eq_of_normalized) hnormal hlayout
    calc first = first.setStatements first.statements := first.setStatements_self.symm
      _ = second.setStatements second.statements := by rw [hall, hrest]
      _ = second := second.setStatements_self
  exact {
    beq_normalized := beq_normalized h
    normalized_eq := by rw [normalized, normalized, hnormal, hrest]
    array := ⟨layout_eq_of_toArray, fun hlayout => by rw [hsame hlayout]⟩
    render := fun hlayout => by rw [hsame hlayout]
    hash := fun hlayout => by rw [hsame hlayout]
    layout_of_render := fun hfirst hsecond hrender =>
      layout_eq_of_toArray (toArray_eq_of_render hfirst hsecond hrender) }

theorem hash_of_beq_sourced :
    (sourcedItem .zero source == sourcedItem negativeZero reversedSource) = true ∧
      (sourcedItem .zero source).DigestsApart (sourcedItem negativeZero reversedSource) ∧
      AlikeUpToLayout (sourcedItem .zero source) (sourcedItem negativeZero reversedSource) := by
  have hbytes := canonicalBytes_reversedSource.symm
  have hsame : (sourcedItem .zero source == sourcedItem negativeZero reversedSource) = true :=
    beq_sourcedItem (by decide) hbytes
  have hdigests :
      (sourcedItem .zero source).DigestsApart (sourcedItem negativeZero reversedSource) := by
    refine List.forall_mem_singleton.mpr (List.forall_mem_singleton.mpr ?_)
    exact List.forall_mem_singleton.mpr (List.forall_mem_singleton.mpr fun _ => hbytes)
  exact ⟨hsame, hdigests, hash_of_beq hsame hdigests⟩

theorem equal_items_written_apart :
    ((sourcedItem .zero source == sourcedItem negativeZero source) = true ∧
      (toArray (sourcedItem .zero source)).render ≠
        (toArray (sourcedItem negativeZero source)).render) ∧
    ((sourcedItem .zero source == sourcedItem .zero reversedSource) = true ∧
      (toArray (sourcedItem .zero source)).render ≠
        (toArray (sourcedItem .zero reversedSource)).render) := by
  have hzero : Binary64.zero.ReadBack := by decide +kernel
  have hnegative : negativeZero.ReadBack := by decide +kernel
  have hplain : (sourcedItem .zero source).ReadBack := readBack_sourcedItem hzero (by decide)
  refine ⟨⟨beq_sourcedItem (by decide) rfl, fun hrender => ?_⟩,
    ⟨beq_sourcedItem (by decide) canonicalBytes_reversedSource.symm, fun hrender => ?_⟩⟩
  · have hsigned : (sourcedItem negativeZero source).ReadBack :=
      readBack_sourcedItem hnegative (by decide)
    have hlayout := layout_eq_of_toArray (toArray_eq_of_render hplain hsigned hrender)
    exact absurd (congrArg (List.map Statement.Layout.mainSnak) hlayout) (by decide)
  · have hreversed : (sourcedItem .zero reversedSource).ReadBack :=
      readBack_sourcedItem hzero (by decide)
    have hlayout := layout_eq_of_toArray (toArray_eq_of_render hplain hreversed hrender)
    exact absurd (congrArg (List.map Statement.Layout.references) hlayout) (by decide)

end Entity

end KnowledgeBase
