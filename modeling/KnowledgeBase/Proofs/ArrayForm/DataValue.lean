import KnowledgeBase.ArrayForm.DataValue
import KnowledgeBase.Proofs.ArrayForm.Members
import KnowledgeBase.Proofs.EntityId

/-!
Array forms of data values. A value whose coordinates are finite is read back from its form
as it was, down to the signs of zeros, and only such values are read: the format has no other
numbers, and an integer becomes a finite double.
-/

namespace KnowledgeBase

open ArrayForm

/-! ## Finite doubles -/

theorem Json.ofBinary64_of_isFinite {x : Binary64} (h : x.isFinite = true) :
    Json.ofBinary64 x = .float x := if_pos h

theorem Json.Finite.of_expectNumber {field : String} {array : Json} {x : Binary64}
    (hfinite : array.Finite) (h : array.expectNumber field = .ok x) : x.isFinite = true := by
  cases hfinite with
  | int value =>
      cases h
      exact Binary64.isFinite_ofInt value
  | float hvalue =>
      cases h
      exact hvalue
  | null | bool | text | array | object => cases h

/-- Whether all parts of a coordinate are finite. -/
structure Coordinate.Finite (place : Coordinate) : Prop where
  latitude : place.latitude.isFinite = true
  longitude : place.longitude.isFinite = true
  altitude : ∀ x ∈ place.altitude, x.isFinite = true
  precision : ∀ x ∈ place.precision, x.isFinite = true

def DataValue.Finite : DataValue → Prop
  | .coordinate place => place.Finite
  | _ => True

/-! ## Kinds of values -/

theorem Members.optional_text_of_lookup {members : Members} {name : String}
    {value : Option String} (h : members.lookup name = value.map .text) :
    members.optional name (Json.expectText name) = .ok value :=
  Members.optional_of_given (given?_of_lookup_map h fun _ _ => rfl) fun _ _ => rfl

theorem Members.optional_number_of_lookup {members : Members} {name : String}
    {value : Option Binary64} (h : members.lookup name = some (.ofOption (value.map .ofBinary64)))
    (hfinite : ∀ x ∈ value, x.isFinite = true) :
    members.optional name (Json.expectNumber name) = .ok value := by
  have hnull : ∀ x ∈ value, (Json.ofBinary64 x).isNull = false := by
    intro x hx
    rw [Json.ofBinary64_of_isFinite (hfinite x hx)]
    rfl
  refine Members.optional_of_given (given?_of_lookup_ofOption h hnull) ?_
  intro x hx
  rw [Json.ofBinary64_of_isFinite (hfinite x hx)]
  rfl

theorem Quantity.ofMembers_written (q : Quantity) :
    Quantity.ofMembers q.members.written = .ok q := by
  obtain ⟨amount, unit, upper, lower⟩ := q
  let parts := Quantity.members ⟨amount, unit, upper, lower⟩
  have hkeys : (parts.map (·.1)).Nodup := by
    cases upper <;> cases lower <;> simp [parts, members]
  have hlookup := Members.lookup_written hkeys
  have hupper : parts.written.lookup "upperBound" = upper.map Json.text := by
    rw [hlookup]
    cases upper <;> cases lower <;> rfl
  have hlower : parts.written.lookup "lowerBound" = lower.map Json.text := by
    rw [hlookup]
    cases upper <;> cases lower <;> rfl
  have hamount := Members.text_of_lookup (hlookup "amount")
  have hunit := Members.text_of_lookup (hlookup "unit")
  have hupper := Members.optional_text_of_lookup hupper
  have hlower := Members.optional_text_of_lookup hlower
  rw [ofMembers, hamount, ok_bind, hunit, ok_bind, hupper, ok_bind, hlower, ok_bind]
  rfl

theorem TimePoint.ofMembers_written (t : TimePoint) :
    TimePoint.ofMembers t.members.written = .ok t := by
  have hkeys : (t.members.map (·.1)).Nodup := by simp [members]
  have hlookup := Members.lookup_written hkeys
  have htime := Members.text_of_lookup (hlookup "time")
  have hzone := Members.integer_of_lookup (hlookup "timezone") t.timezone.minValue_le_toInt
    t.timezone.toInt_le (by decide) (by decide)
  have hbefore := Members.integer_of_lookup_natCast (hlookup "before") t.before.toNat_lt_size
    (Nat.le_refl _)
  have hafter := Members.integer_of_lookup_natCast (hlookup "after") t.after.toNat_lt_size
    (Nat.le_refl _)
  have hprecision := Members.integer_of_lookup_natCast (hlookup "precision")
    t.precision.toNat_lt_size (by decide)
  have hcalendar := Members.text_of_lookup (hlookup "calendarmodel")
  rw [TimePoint.ofMembers, htime, ok_bind, hzone, ok_bind, hbefore, ok_bind, hafter, ok_bind,
    hprecision, ok_bind, hcalendar, ok_bind, Int32.ofInt_toInt]
  simp only [Int.toNat_natCast, UInt32.ofNat_toNat, UInt8.ofNat_toNat]
  rfl

theorem Coordinate.Finite.ofMembers_written {place : Coordinate} (h : place.Finite) :
    Coordinate.ofMembers place.members.written = .ok place := by
  have hkeys : (place.members.map (·.1)).Nodup := by simp [members]
  have hlookup := Members.lookup_written hkeys
  have hlatitude : place.members.written.lookup "latitude" = some (.float place.latitude) := by
    rw [hlookup, ← Json.ofBinary64_of_isFinite h.latitude]
    rfl
  have hlongitude : place.members.written.lookup "longitude" =
      some (.float place.longitude) := by
    rw [hlookup, ← Json.ofBinary64_of_isFinite h.longitude]
    rfl
  have hlatitude := Members.number_of_lookup hlatitude
  have hlongitude := Members.number_of_lookup hlongitude
  have haltitude := Members.optional_number_of_lookup (hlookup "altitude") h.altitude
  have hprecision := Members.optional_number_of_lookup (hlookup "precision") h.precision
  have hglobe := Members.text_of_lookup (hlookup "globe")
  rw [Coordinate.ofMembers, hlatitude, ok_bind, hlongitude, ok_bind, haltitude, ok_bind,
    hprecision, ok_bind, hglobe, ok_bind]
  rfl

/-- Only finite coordinates are read. -/
theorem Coordinate.finite_ofMembers {members : Members} {place : Coordinate}
    (hfinite : members.Finite) (h : Coordinate.ofMembers members = .ok place) :
    place.Finite := by
  have hnumber {name : String} {x : Binary64} (h : members.number name = .ok x) :
      x.isFinite = true := by
    obtain ⟨array, hfield, hx⟩ := bind_eq_ok.mp h
    exact (hfinite.of_field hfield).of_expectNumber hx
  have hoptional {name : String} {value : Option Binary64}
      (h : members.optional name (Json.expectNumber name) = .ok value) :
      ∀ x ∈ value, x.isFinite = true :=
    hfinite.of_optional (fun _ _ harray hx => harray.of_expectNumber hx) h
  unfold Coordinate.ofMembers at h
  obtain ⟨latitude, hlatitude, h⟩ := bind_eq_ok.mp h
  obtain ⟨longitude, hlongitude, h⟩ := bind_eq_ok.mp h
  obtain ⟨altitude, haltitude, h⟩ := bind_eq_ok.mp h
  obtain ⟨precision, hprecision, h⟩ := bind_eq_ok.mp h
  obtain ⟨globe, -, h⟩ := bind_eq_ok.mp h
  cases h
  exact ⟨hnumber hlatitude, hnumber hlongitude, hoptional haltitude, hoptional hprecision⟩

/-- The two ways to give an id agree in what is written. -/
theorem EntityId.ofMembers_written (id : EntityId) :
    EntityId.ofMembers id.members.written = .ok id := by
  have hkeys : (id.members.map (·.1)).Nodup := by simp [members]
  have hlookup := Members.lookup_written hkeys
  have htype := Members.given?_of_lookup (hlookup "entity-type") rfl
  have hnumber := Members.given?_of_lookup (hlookup "numeric-id") rfl
  have htext := Members.given?_of_lookup (hlookup "id") rfl
  have hbound := id.number_le
  have hunsigned : (Json.int id.number).asUnsigned? = some id.number := by
    have hword : maxEntityNumber < UInt64.size := by decide
    rw [Json.asUnsigned?, if_pos ⟨by omega, by omega⟩, Int.toNat_natCast]
  have hparts : ofPartMembers id.members.written = .ok (some id) := by
    rw [ofPartMembers, htype, hnumber]
    simp only [Json.expectText, ok_bind, EntityType.ofName?_name, hunsigned, ofParts?_self]
    rfl
  rw [ofMembers, hparts, ok_bind, htext]
  simp only [Json.expectText, ok_bind, id.parse_text, liftM_ok, Option.any_some, bne_self_eq_false]
  rfl

/-! ## Values -/

theorem ValueKind.ofName?_name (kind : ValueKind) : ofName? kind.name = some kind := by
  cases kind <;> decide

theorem DataValue.Finite.ofPayload_payload {value : DataValue} (h : value.Finite) :
    ofPayload value.kind value.payload = .ok value := by
  cases value with
  | string value => rfl
  | monolingualText language text =>
      let parts : Members := [("text", .text text), ("language", .text language)]
      have hkeys : (parts.map (·.1)).Nodup := by simp [parts]
      have hlookup := Members.lookup_written hkeys
      have htext := Members.text_of_lookup (hlookup "text")
      have hlanguage := Members.text_of_lookup (hlookup "language")
      change (parts.written.text "text" >>= fun text => parts.written.text "language" >>=
        fun language => pure (monolingualText language text)) = _
      rw [htext, ok_bind, hlanguage, ok_bind]
      rfl
  | quantity q => exact congrArg (DataValue.quantity <$> ·) q.ofMembers_written
  | time t => exact congrArg (DataValue.time <$> ·) t.ofMembers_written
  | coordinate place =>
      exact congrArg (DataValue.coordinate <$> ·) (Coordinate.Finite.ofMembers_written h)
  | entityId id => exact congrArg (DataValue.entityId <$> ·) id.ofMembers_written

/-- A value with finite coordinates is read back from its array form. -/
theorem DataValue.Finite.lossless {value : DataValue} (h : value.Finite) : Lossless value := by
  let parts : Members := [("type", .text value.kind.name), ("value", value.payload)]
  have hkeys : (parts.map (·.1)).Nodup := by simp [parts]
  have hlookup := Members.lookup_written hkeys
  have htype := Members.text_of_lookup (hlookup "type")
  have hvalue := Members.field_of_lookup (hlookup "value")
  change (parts.written.text "type" >>= fun name => _) = _
  rw [htype, ok_bind, ValueKind.ofName?_name]
  change (parts.written.field "value" >>= ofPayload value.kind) = _
  rw [hvalue, ok_bind, h.ofPayload_payload]

theorem DataValue.finite_ofPayload {kind : ValueKind} {payload : Json} {value : DataValue}
    (hfinite : payload.Finite) (h : ofPayload kind payload = .ok value) : value.Finite := by
  cases kind with
  | globeCoordinate =>
      obtain ⟨members, hmembers, h⟩ := bind_eq_ok.mp h
      obtain ⟨place, hplace, h⟩ := bind_eq_ok.mp h
      cases h
      exact Coordinate.finite_ofMembers (hfinite.of_expectObject hmembers) hplace
  | string =>
      obtain ⟨text, -, h⟩ := bind_eq_ok.mp h
      cases h
      exact trivial
  | monolingualText =>
      obtain ⟨members, -, h⟩ := bind_eq_ok.mp h
      obtain ⟨text, -, h⟩ := bind_eq_ok.mp h
      obtain ⟨language, -, h⟩ := bind_eq_ok.mp h
      cases h
      exact trivial
  | quantity | time | entityId =>
      obtain ⟨members, -, h⟩ := bind_eq_ok.mp h
      obtain ⟨part, -, h⟩ := bind_eq_ok.mp h
      cases h
      exact trivial

/-- Every value that is read is read back from its own array form. -/
theorem DataValue.lossless_ofArray {array : Json} {value : DataValue} (hfinite : array.Finite)
    (h : ofArray array = .ok value) : Lossless value := by
  obtain ⟨members, hmembers, h⟩ := bind_eq_ok.mp h
  obtain ⟨name, -, h⟩ := bind_eq_ok.mp h
  cases hkind : ValueKind.ofName? name with
  | none =>
      rw [hkind] at h
      cases h
  | some kind =>
      rw [hkind] at h
      obtain ⟨payload, hpayload, h⟩ := bind_eq_ok.mp h
      have hmembers := hfinite.of_expectObject hmembers
      exact (finite_ofPayload (hmembers.of_field hpayload) h).lossless

end KnowledgeBase
