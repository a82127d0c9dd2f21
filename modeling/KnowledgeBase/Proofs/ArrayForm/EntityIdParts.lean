import KnowledgeBase.Proofs.ArrayForm.DataValue

/-!
Which payloads are read as an entity id. A payload may give the id as a text, by its type and
its number, or in both ways. The text is decisive: it must be that of the id, and the type and
the number are held against it only if both are there. A type or a number that stands alone
beside a text is not looked at, so it may be that of another id.
-/

namespace KnowledgeBase

namespace EntityId

/-- Whether the members of a payload give an id: by a text, by a type and a number, or in both
ways. A type without a number and a number without a type say nothing. -/
structure GivenBy (id : EntityId) (members : Members) : Prop where
  text : ∀ value, members.given? "id" = some value →
    ∃ text, value = .text text ∧ EntityId.parse text = .ok id
  parts : ∀ kind number, members.given? "entity-type" = some kind →
    members.given? "numeric-id" = some number →
    kind = .text id.type.name ∧ number = .int id.number
  given : (members.given? "id").isSome ∨
    (members.given? "entity-type").isSome ∧ (members.given? "numeric-id").isSome

section Parts

variable {members : Members} {parts : Option EntityId}

/-- A type and a number are read as the id that has them. -/
theorem ofPartMembers_of_both {kind number : Json}
    (hkind : members.given? "entity-type" = some kind)
    (hnumber : members.given? "numeric-id" = some number) :
    ofPartMembers members = .ok parts ↔
      ∃ id, parts = some id ∧ kind = .text id.type.name ∧ number = .int id.number := by
  simp only [ofPartMembers, hkind, hnumber]
  constructor
  · intro h
    obtain ⟨name, hname, h⟩ := bind_eq_ok.mp h
    cases htype : EntityType.ofName? name with
    | none =>
        rw [htype] at h
        cases h
    | some type =>
        rw [htype] at h
        cases hcount : number.asUnsigned? with
        | none =>
            rw [hcount] at h
            cases h
        | some count =>
            rw [hcount] at h
            cases hid : ofParts? type count with
            | none =>
                simp only [hid] at h
                cases h
            | some id =>
                simp only [hid] at h
                cases h
                obtain ⟨rfl, rfl⟩ := ofParts?_eq_some_iff.mp hid
                obtain rfl := EntityType.ofName?_eq_some_iff.mp htype
                refine ⟨id, rfl, Json.expectText_eq_ok_iff.mp hname, ?_⟩
                exact (Json.asUnsigned?_eq_some_iff.mp hcount).1
  · rintro ⟨id, rfl, rfl, rfl⟩
    have hword : maxEntityNumber < UInt64.size := by decide
    have hunsigned : (Json.int id.number).asUnsigned? = some id.number :=
      Json.asUnsigned?_eq_some_iff.mpr ⟨rfl, Nat.lt_of_le_of_lt id.number_le hword⟩
    simp only [Json.expectText, ok_bind, EntityType.ofName?_name, hunsigned, ofParts?_self]
    rfl

theorem ofPartMembers_of_lone
    (h : members.given? "entity-type" = none ∨ members.given? "numeric-id" = none) :
    ofPartMembers members = .ok none := by
  unfold ofPartMembers
  split
  next kind number hkind hnumber => simp [hkind, hnumber] at h
  next => rfl

/-- What is read is given by the text, if there is one, and by the parts, if they count. -/
theorem ofMembers_of_parts {id : EntityId} (hparts : ofPartMembers members = .ok parts) :
    ofMembers members = .ok id ↔
      (∀ value, members.given? "id" = some value →
        ∃ text, value = .text text ∧ EntityId.parse text = .ok id) ∧
      (∀ part ∈ parts, part = id) ∧ ((members.given? "id").isSome ∨ parts.isSome) := by
  rw [ofMembers, hparts, ok_bind]
  cases hgiven : members.given? "id" with
  | some value =>
      simp only [Option.some.injEq, forall_eq', Option.isSome_some, true_or, and_true]
      constructor
      · intro h
        obtain ⟨text, htext, h⟩ := bind_eq_ok.mp h
        rw [Json.expectText_eq_ok_iff] at htext
        obtain ⟨found, hfound, h⟩ := bind_eq_ok.mp h
        split at h
        next => cases h
        next hagree =>
          cases h
          refine ⟨⟨text, htext, eq_ok_of_mapError hfound⟩, ?_⟩
          intro part hpart
          cases hpart
          simpa using hagree
      · rintro ⟨⟨text, rfl, hparse⟩, hagree⟩
        have hnone : parts.any (· != id) = false := by
          cases parts with
          | none => rfl
          | some part => simp [hagree part rfl]
        simp only [Json.expectText, ok_bind, hparse, liftM_ok, hnone]
        rfl
  | none =>
      cases parts with
      | none => simp [throw, throwThe, MonadExceptOf.throw]
      | some part => simp [pure, Except.pure]

/-- Members are read as an id exactly if they give it. -/
theorem ofMembers_eq_ok_iff {id : EntityId} :
    ofMembers members = .ok id ↔ id.GivenBy members := by
  constructor
  · intro h
    obtain ⟨parts, hparts, -⟩ := bind_eq_ok.mp h
    obtain ⟨htext, hagree, hgiven⟩ := (ofMembers_of_parts hparts).mp h
    refine ⟨htext, ?_, ?_⟩
    · intro kind number hkind hnumber
      obtain ⟨part, rfl, hpart⟩ := (ofPartMembers_of_both hkind hnumber).mp hparts
      rw [← hagree part rfl]
      exact hpart
    · refine hgiven.imp_right fun hsome => ?_
      rw [← not_not (a := _ ∧ _)]
      intro hlone
      have hnone : members.given? "entity-type" = none ∨ members.given? "numeric-id" = none := by
        simpa [imp_iff_not_or] using hlone
      rw [ofPartMembers_of_lone hnone] at hparts
      cases hparts
      cases hsome
  · rintro ⟨htext, hboth, hgiven⟩
    cases hkind : members.given? "entity-type" with
    | none =>
        rw [hkind] at hgiven
        refine (ofMembers_of_parts (ofPartMembers_of_lone (Or.inl hkind))).mpr ?_
        exact ⟨htext, by simp, by simpa using hgiven⟩
    | some kind =>
        cases hnumber : members.given? "numeric-id" with
        | none =>
            rw [hnumber] at hgiven
            refine (ofMembers_of_parts (ofPartMembers_of_lone (Or.inr hnumber))).mpr ?_
            exact ⟨htext, by simp, by simpa using hgiven⟩
        | some number =>
            have hparts : ofPartMembers members = .ok (some id) :=
              (ofPartMembers_of_both hkind hnumber).mpr ⟨id, rfl, hboth kind number hkind hnumber⟩
            refine (ofMembers_of_parts hparts).mpr ?_
            exact ⟨htext, by simp, Or.inr rfl⟩

end Parts

end EntityId

namespace DataValue

/-- A payload is read as an entity exactly if it is an object that gives its id. So an id that
is written out is never that of another entity, and neither are a type and a number that are
given together. -/
theorem ofPayload_entityId_iff (payload : Json) (value : DataValue) :
    ofPayload .entityId payload = .ok value ↔
      ∃ members id, payload = .object members ∧ value = .entityId id ∧
        EntityId.GivenBy id members := by
  constructor
  · intro h
    obtain ⟨members, hmembers, h⟩ := bind_eq_ok.mp h
    obtain ⟨id, hid, h⟩ := bind_eq_ok.mp h
    cases h
    exact ⟨members, id, Json.expectObject_eq_ok_iff.mp hmembers, rfl,
      EntityId.ofMembers_eq_ok_iff.mp hid⟩
  · rintro ⟨members, id, rfl, rfl, hgiven⟩
    have hid := EntityId.ofMembers_eq_ok_iff.mpr hgiven
    exact congrArg (DataValue.entityId <$> ·) hid

/-- The type of another entity stands beside the text of an id. -/
theorem lone_type_overlooked :
    ∃ (members : Members) (id : EntityId),
      ofPayload .entityId (.object members) = .ok (.entityId id) ∧
        members.given? "entity-type" = some (.text "property") ∧ id.type.name ≠ "property" := by
  let members : Members := [("entity-type", .text "property"), ("id", .text "Q5")]
  let id : EntityId := .item ⟨5, by decide, by decide⟩
  have hread : ofPayload .entityId (.object members) = .ok (.entityId id) := rfl
  exact ⟨members, id, hread, rfl, by decide⟩

end DataValue

end KnowledgeBase
