import KnowledgeBase.ArrayForm.Basic
import KnowledgeBase.Proofs.Except
import KnowledgeBase.Proofs.Json

/-!
Reading back what was written. A value is lossless if its array form is read as the same
value. The members that are written for a value of the model are found under their names, each
reader accepts what was written for it, and a list or a map is rebuilt from the forms of its
members. In the other direction, what is read from a value without infinite numbers comes
from parts that have none either.
-/

namespace KnowledgeBase

open ArrayForm

/-- Whether the array form of a value is read as the same value. -/
def Lossless {α : Type} [ArrayForm α] (value : α) : Prop := ofArray (toArray value) = .ok value

theorem liftM_ok {α : Type} (value : α) :
    (liftM (.ok value : Except ModelError α) : Except ArrayError α) = .ok value := rfl

theorem Json.expectText_eq_ok_iff {field text : String} {value : Json} :
    value.expectText field = .ok text ↔ value = .text text := by
  cases value with
  | text found => simp [expectText]
  | null | bool | int | float | array | object => simp [expectText]

theorem Json.expectObject_eq_ok_iff {field : String} {members : Members} {value : Json} :
    value.expectObject field = .ok members ↔ value = .object members := by
  cases value with
  | object found => simp [expectObject]
  | null | bool | int | float | text | array => simp [expectObject]

theorem Json.asUnsigned?_eq_some_iff {value : Json} {number : Nat} :
    value.asUnsigned? = some number ↔ value = .int number ∧ number < UInt64.size := by
  cases value with
  | int found =>
      simp only [asUnsigned?, Option.ite_none_right_eq_some, Option.some.injEq, Json.int.injEq]
      omega
  | null | bool | float | text | array | object => simp [asUnsigned?]

section Maps

variable {ε α β : Type}

/-- A map is rebuilt from the forms of its entries if each of them is put under its key. -/
theorem foldlM_toList {κ : Type} [Ord κ] [Std.TransOrd κ] [Std.LawfulEqOrd κ] [DecidableEq κ]
    {write : α → β} {step : SortedMap κ α → κ × β → Except ε (SortedMap κ α)}
    (map : SortedMap κ α)
    (hstep : ∀ state key value, map.get? key = some value → state.get? key = none →
      step state (key, write value) = .ok (state.insert key value)) :
    (map.mapValues write).toList.foldlM step .empty = .ok map := by
  -- Induction from the end: the entries before the last one have other keys, so it is absent.
  have hstart : ∀ pairs rest : List (κ × α), map.toList = pairs ++ rest →
      (pairs.map fun pair => (pair.1, write pair.2)).foldlM step .empty =
        .ok (SortedMap.ofList pairs) := by
    intro pairs
    induction pairs using List.reverseRecOn with
    | nil => exact fun _ _ => rfl
    | append_singleton pairs last ih =>
        intro rest hsplit
        rw [List.append_assoc] at hsplit
        have hkeys : (map.toList.map (·.1)).Nodup := map.nodup_keys
        rw [hsplit, List.map_append, List.nodup_append] at hkeys
        obtain ⟨hpairs, -, hother⟩ := hkeys
        have habsent : (SortedMap.ofList pairs).get? last.1 = none := by
          rw [Option.eq_none_iff_forall_ne_some]
          intro value hvalue
          have member := (SortedMap.get?_ofList_eq_some_iff hpairs).mp hvalue
          exact hother last.1 (List.mem_map.mpr ⟨_, member, rfl⟩) last.1 (by simp) rfl
        have hfound : map.get? last.1 = some last.2 := by
          rw [SortedMap.get?_eq_some_iff, hsplit]
          simp
        rw [List.map_append, List.foldlM_append, ih _ hsplit, ok_bind, List.map_singleton,
          List.foldlM_cons, hstep _ _ _ hfound habsent, SortedMap.ofList_append_singleton]
        rfl
  have hall := hstart map.toList [] (List.append_nil _).symm
  rw [SortedMap.ofList_toList] at hall
  exact hall

end Maps

/-! ## Written members -/

namespace Members

/-- The members of a written object, in the order of their names. -/
def written (members : Members) : Members := (SortedMap.ofList members).toList

theorem lookup_written {members : Members} (h : (members.map (·.1)).Nodup) (name : String) :
    members.written.lookup name = members.lookup name := by
  rw [written, SortedMap.lookup_toList]
  ext value
  rw [SortedMap.get?_ofList_eq_some_iff h, SortedMap.lookup_eq_some_iff_of_nodup h]

variable {α : Type} {members : Members} {name : String}

theorem field_of_lookup {value : Json} (h : members.lookup name = some value) :
    members.field name = .ok value := by
  rw [field, h]

theorem text_of_lookup {value : String} (h : members.lookup name = some (.text value)) :
    members.text name = .ok value := by
  rw [text, field_of_lookup h]
  rfl

theorem number_of_lookup {value : Binary64} (h : members.lookup name = some (.float value)) :
    members.number name = .ok value := by
  rw [number, field_of_lookup h]
  rfl

/-- The bounds are those of words that a signed 64-bit word can hold. -/
theorem integer_of_lookup {value low high : Int} (h : members.lookup name = some (.int value))
    (hlow : low ≤ value) (hhigh : value ≤ high) (hmin : Int64.minValue.toInt ≤ low)
    (hmax : high ≤ Int64.maxValue.toInt) : members.integer name low high = .ok value := by
  have hsigned : (Json.int value).asSigned? = some value :=
    if_pos ⟨Int.le_trans hmin hlow, Int.le_trans hhigh hmax⟩
  rw [integer, field_of_lookup h, ok_bind, Json.expectInteger, hsigned]
  exact if_pos ⟨hlow, hhigh⟩

theorem integer_of_lookup_natCast {value size : Nat}
    (h : members.lookup name = some (.int value)) (hvalue : value < size)
    (hsize : size ≤ UInt32.size) : members.integer name 0 (size - 1) = .ok value := by
  have hword : (UInt32.size : Int) - 1 ≤ Int64.maxValue.toInt := by decide
  exact integer_of_lookup h (by omega) (by omega) (by decide) (by omega)

theorem given?_of_lookup {value : Json} (h : members.lookup name = some value)
    (hnull : value.isNull = false) : members.given? name = some value := by
  unfold given?
  rw [h]
  cases value <;> first | rfl | cases hnull

/-- A field that is left out if there is no value. -/
theorem given?_of_lookup_map {value : Option α} {write : α → Json}
    (h : members.lookup name = value.map write)
    (hnull : ∀ found ∈ value, (write found).isNull = false) :
    members.given? name = value.map write := by
  cases value with
  | none => rw [given?, h]; rfl
  | some found => exact given?_of_lookup h (hnull found rfl)

/-- A field that is null if there is no value. -/
theorem given?_of_lookup_ofOption {value : Option α} {write : α → Json}
    (h : members.lookup name = some (.ofOption (value.map write)))
    (hnull : ∀ found ∈ value, (write found).isNull = false) :
    members.given? name = value.map write := by
  cases value with
  | none => rw [given?, h]; rfl
  | some found => exact given?_of_lookup h (hnull found rfl)

theorem optional_of_given_some {array : Json} {read : Json → Except ArrayError α}
    (h : members.given? name = some array) :
    members.optional name read = some <$> read array := by
  rw [optional, h]

/-- An optional value is read from the form that it was given. -/
theorem optional_of_given {value : Option α} {write : α → Json}
    {read : Json → Except ArrayError α} (h : members.given? name = value.map write)
    (hread : ∀ found ∈ value, read (write found) = .ok found) :
    members.optional name read = .ok value := by
  cases value with
  | none => rw [optional, h]; rfl
  | some found =>
      rw [optional_of_given_some h, hread found rfl]
      rfl

theorem optionalD_of_lookup {absent : α} {array : Json} {read : Json → Except ArrayError α}
    (h : members.lookup name = some array) (hnull : array.isNull = false) :
    members.optionalD name absent read = read array := by
  rw [optionalD, optional_of_given_some (given?_of_lookup h hnull)]
  cases read array <;> rfl

/-- What holds of every reading of the given field holds of the value, if there is one. -/
theorem optional_keeps {property : α → Prop} {read : Json → Except ArrayError α}
    (hread : ∀ array value, members.given? name = some array → read array = .ok value →
      property value)
    {value : Option α} (h : members.optional name read = .ok value) :
    ∀ found ∈ value, property found := by
  unfold optional at h
  split at h
  next array hgiven =>
    obtain ⟨found, hfound, rfl⟩ := map_eq_ok.mp h
    intro other hother
    cases hother
    exact hread array found hgiven hfound
  next =>
    cases h
    simp

/-- What holds of every reading of the given field and of the value for an absent one holds of
the value. -/
theorem optionalD_keeps {property : α → Prop} {read : Json → Except ArrayError α}
    {absent value : α} (habsent : property absent)
    (hread : ∀ array value, members.given? name = some array → read array = .ok value →
      property value)
    (h : members.optionalD name absent read = .ok value) : property value := by
  obtain ⟨value?, hvalue?, hvalue⟩ := bind_eq_ok.mp h
  cases hvalue
  cases value? with
  | none => exact habsent
  | some found => exact optional_keeps hread hvalue? found rfl

end Members

/-! ## Values without infinite numbers -/

def Members.Finite (members : Members) : Prop := ∀ member ∈ members, member.2.Finite

theorem Json.Finite.of_expectObject {field : String} {array : Json} {members : Members}
    (hfinite : array.Finite) (h : array.expectObject field = .ok members) : members.Finite := by
  cases array with
  | object found =>
      cases h
      exact finite_object_iff.mp hfinite
  | null | bool | int | float | text | array => cases h

theorem Json.Finite.of_expectArray {field : String} {array : Json} {elements : List Json}
    (hfinite : array.Finite) (h : array.expectArray field = .ok elements) :
    ∀ element ∈ elements, element.Finite := by
  cases array with
  | array found =>
      cases h
      exact finite_array_iff.mp hfinite
  | null | bool | int | float | text | object => cases h

namespace Members.Finite

variable {α : Type} {members : Members} (h : members.Finite) {name : String}
include h

theorem of_lookup {array : Json} (hlookup : members.lookup name = some array) :
    array.Finite := by
  obtain ⟨before, after, hsplit, -⟩ := List.lookup_eq_some_iff.mp hlookup
  refine h (name, array) ?_
  rw [hsplit]
  simp

theorem of_field {array : Json} (hfield : members.field name = .ok array) : array.Finite := by
  unfold Members.field at hfield
  split at hfield
  next found hlookup =>
    cases hfield
    exact h.of_lookup hlookup
  next => cases hfield

theorem of_given {array : Json} (hgiven : members.given? name = some array) :
    array.Finite := by
  unfold Members.given? at hgiven
  split at hgiven
  next => cases hgiven
  next => exact h.of_lookup hgiven

theorem of_optional {property : α → Prop} {read : Json → Except ArrayError α}
    (hread : ∀ array value, array.Finite → read array = .ok value → property value)
    {value : Option α} (hoptional : members.optional name read = .ok value) :
    ∀ found ∈ value, property found :=
  optional_keeps (fun array value hgiven => hread array value (h.of_given hgiven)) hoptional

theorem of_optionalD {property : α → Prop} {read : Json → Except ArrayError α}
    {absent value : α} (habsent : property absent)
    (hread : ∀ array value, array.Finite → read array = .ok value → property value)
    (hoptional : members.optionalD name absent read = .ok value) : property value :=
  optionalD_keeps habsent (fun array value hgiven => hread array value (h.of_given hgiven))
    hoptional

/-- A section that may be left out. -/
theorem lossless_of_optionalD [ArrayForm α] {absent value : α} (habsent : Lossless absent)
    (hread : ∀ array value, array.Finite → ofArray array = .ok value →
      Lossless (value : α))
    (hsection : members.optionalD name absent ofArray = .ok value) : Lossless value :=
  h.of_optionalD habsent hread hsection

end Members.Finite

end KnowledgeBase
