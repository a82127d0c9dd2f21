import KnowledgeBase.EntityId.Parsing
import Mathlib.Tactic.IntervalCases

/-!
The written form of an id is read as the same id: its number is positive, so its digits begin
with no zero, and it is within the bounds that reading checks. Two ids are therefore written
differently.
-/

namespace KnowledgeBase

theorem toDigits_eq_cons {number : Nat} (h : 0 < number) :
    ∃ first rest, Nat.toDigits 10 number = first :: rest ∧ first ≠ '0' := by
  induction number using Nat.strong_induction_on with
  | _ number ih =>
      rcases Nat.lt_or_ge number 10 with hdigit | hmore
      · refine ⟨number.digitChar, [], Nat.toDigits_of_lt_base hdigit, ?_⟩
        interval_cases number <;> decide
      · obtain ⟨first, rest, hdigits, hfirst⟩ := ih (number / 10) (by omega) (by omega)
        refine ⟨first, rest ++ [(number % 10).digitChar], ?_, hfirst⟩
        rw [Nat.toDigits_of_base_le (by decide) hmore, hdigits, List.cons_append]

theorem idNumber?_toDigits {number : Nat} (hpositive : 0 < number)
    (hbounded : number ≤ maxEntityNumber) :
    idNumber? (Nat.toDigits 10 number) = some number := by
  have hall : (Nat.toDigits 10 number).all Char.isDigit = true :=
    List.all_eq_true.mpr fun _ => Nat.isDigit_of_mem_toDigits (by decide) (by decide)
  have hvalue : Nat.ofDigitChars 10 (Nat.toDigits 10 number) 0 = number :=
    Nat.ofDigitChars_ten_toDigits
  obtain ⟨first, rest, hdigits, hfirst⟩ := toDigits_eq_cons hpositive
  rw [hdigits] at hall hvalue ⊢
  unfold idNumber?
  split
  next heq => cases heq
  next heq => exact absurd (List.cons.inj heq).1 hfirst
  next => rw [if_pos hall, hvalue, if_pos hbounded]

theorem EntityType.ofLetter?_letter (type : EntityType) : ofLetter? type.letter = some type := by
  cases type <;> rfl

theorem EntityType.ofName?_name (type : EntityType) : ofName? type.name = some type := by
  cases type <;> rfl

theorem EntityType.ofName?_eq_some_iff {name : String} {type : EntityType} :
    ofName? name = some type ↔ name = type.name := by
  constructor
  · intro h
    unfold ofName? at h
    split at h
    next hitem =>
      cases h
      exact hitem
    next =>
      obtain ⟨hproperty, htype⟩ := Option.ite_none_right_eq_some.mp h
      cases htype
      exact hproperty
  · rintro rfl
    exact type.ofName?_name

namespace EntityId

theorem number_pos (id : EntityId) : 0 < id.number := by
  cases id with
  | item id => exact id.positive
  | property id => exact id.positive

theorem number_le (id : EntityId) : id.number ≤ maxEntityNumber := by
  cases id with
  | item id => exact id.bounded
  | property id => exact id.bounded

theorem ofParts?_self (id : EntityId) : ofParts? id.type id.number = some id := by
  have hbounds := And.intro id.number_pos id.number_le
  cases id with
  | item id => exact congrArg (Option.map EntityId.item) (dif_pos hbounds)
  | property id => exact congrArg (Option.map EntityId.property) (dif_pos hbounds)

theorem ofParts?_eq_some {type : EntityType} {number : Nat} {id : EntityId}
    (h : ofParts? type number = some id) : id.type = type ∧ id.number = number := by
  cases type with
  | item =>
      obtain ⟨item, hitem, rfl⟩ := Option.map_eq_some_iff.mp h
      rw [ItemId.ofNumber?, Option.dite_none_right_eq_some] at hitem
      obtain ⟨_, hsome⟩ := hitem
      cases hsome
      exact ⟨rfl, rfl⟩
  | property =>
      obtain ⟨property, hproperty, rfl⟩ := Option.map_eq_some_iff.mp h
      rw [PropertyId.ofNumber?, Option.dite_none_right_eq_some] at hproperty
      obtain ⟨_, hsome⟩ := hproperty
      cases hsome
      exact ⟨rfl, rfl⟩

theorem ofParts?_eq_some_iff {type : EntityType} {number : Nat} {id : EntityId} :
    ofParts? type number = some id ↔ id.type = type ∧ id.number = number := by
  constructor
  · exact ofParts?_eq_some
  · rintro ⟨rfl, rfl⟩
    exact id.ofParts?_self

theorem parse_text (id : EntityId) : EntityId.parse id.text = .ok id := by
  have hchars : ofChars? id.text.toList = some id := by
    rw [text, idText, String.toList_ofList, ofChars?, EntityType.ofLetter?_letter,
      idNumber?_toDigits id.number_pos id.number_le]
    exact id.ofParts?_self
  rw [parse, hchars]

theorem text_injective {first second : EntityId} (h : first.text = second.text) :
    first = second := by
  have hparse := second.parse_text
  rw [← h, first.parse_text] at hparse
  exact Except.ok.inj hparse

end EntityId

theorem ItemId.parse_text (id : ItemId) : ItemId.parse id.text = .ok id := by
  have hparse : EntityId.parse id.text = .ok (.item id) := (EntityId.item id).parse_text
  rw [ItemId.parse, hparse]
  rfl

theorem PropertyId.parse_text (id : PropertyId) : PropertyId.parse id.text = .ok id := by
  have hparse : EntityId.parse id.text = .ok (.property id) := (EntityId.property id).parse_text
  rw [PropertyId.parse, hparse]
  rfl

theorem PropertyId.text_injective {first second : PropertyId} (h : first.text = second.text) :
    first = second :=
  EntityId.property.inj (EntityId.text_injective h)

end KnowledgeBase
