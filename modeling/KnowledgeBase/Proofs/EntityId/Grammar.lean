import KnowledgeBase.Proofs.EntityId
import KnowledgeBase.Proofs.Except
import Mathlib.Data.List.Induction

/-!
Which texts are ids, and of what. A text is read as an id exactly if it is the letter of the type,
in either case, and the number in decimal digits; a number that is too large is refused however many
digits it has. So a text is read as an id exactly if it is the written form of the id once its first
letter is a capital, and everything else about reading and writing follows.
-/

namespace KnowledgeBase

/-! ## Capitals -/

/-- The text with a capital for its first character, if that is a letter from `a` to `z`. -/
def Text.capitalized (text : String) : String :=
  match text.toList with
  | [] => text
  | first :: rest => String.ofList (first.toUpper :: rest)

theorem Text.capitalized_append {first : String} (h : first ≠ "") (second : String) :
    capitalized (first ++ second) = capitalized first ++ second := by
  obtain ⟨head, rest, hfirst⟩ := List.exists_cons_of_ne_nil (mt String.toList_eq_nil_iff.mp h)
  simp [capitalized, hfirst, String.append_assoc]

/-- The small letters from `a` to `z` come thirty-two places after their capitals. -/
theorem toNat_toUpper (c : Char) :
    c.toUpper.toNat = if 97 ≤ c.toNat ∧ c.toNat ≤ 122 then c.toNat - 32 else c.toNat := by
  have hrange : ('a'.val ≤ c.val ∧ c.val ≤ 'z'.val) ↔ 97 ≤ c.toNat ∧ c.toNat ≤ 122 := by
    simp only [UInt32.le_iff_toNat_le]
    rfl
  unfold Char.toUpper
  by_cases h : 'a'.val ≤ c.val ∧ c.val ≤ 'z'.val
  · have hdown : ('A'.val - 'a'.val).toNat = 4294967264 := rfl
    have hsmall := hrange.mp h
    rw [dif_pos h, if_pos hsmall]
    change (c.val + ('A'.val - 'a'.val)).toNat = _
    rw [UInt32.toNat_add, hdown]
    change (c.toNat + 4294967264) % 2 ^ 32 = _
    omega
  · rw [dif_neg h, if_neg (mt hrange.mpr h)]

namespace EntityType

/-- The letters that a text may begin with to be an id of the type. -/
def letters : EntityType → List Char
  | .item => ['Q', 'q']
  | .property => ['P', 'p']

theorem ofLetter?_eq_some_iff {c : Char} {type : EntityType} :
    ofLetter? c = some type ↔ c ∈ type.letters := by
  unfold ofLetter?
  split
  all_goals cases type <;> simp_all [letters]

theorem mem_letters_iff {c : Char} {type : EntityType} :
    c ∈ type.letters ↔ c.toUpper = type.letter := by
  rw [← Char.toNat_inj, toNat_toUpper]
  cases type with
  | item =>
      have hcapital : 'Q'.toNat = 81 ∧ 'q'.toNat = 113 := ⟨rfl, rfl⟩
      simp only [letters, letter, List.mem_cons, List.not_mem_nil, or_false, ← Char.toNat_inj]
      split <;> omega
  | property =>
      have hcapital : 'P'.toNat = 80 ∧ 'p'.toNat = 112 := ⟨rfl, rfl⟩
      simp only [letters, letter, List.mem_cons, List.not_mem_nil, or_false, ← Char.toNat_inj]
      split <;> omega

end EntityType

/-! ## Numbers -/

/-- A digit is the one for its value. -/
theorem digitChar_toNat {c : Char} (h : c.isDigit = true) :
    c.toNat - '0'.toNat < 10 ∧ (c.toNat - '0'.toNat).digitChar = c := by
  rw [Char.isDigit_iff_toNat] at h
  have hzero : '0'.toNat = 48 := rfl
  have hnine : '9'.toNat = 57 := rfl
  have hdigit : c.toNat - '0'.toNat < 10 := by omega
  refine ⟨hdigit, Char.toNat_inj.mp ?_⟩
  rw [Nat.toNat_digitChar_of_lt_ten hdigit]
  omega

/-- The digits of a number are found again if the first one is no zero. -/
theorem toDigits_ofDigitChars {digits : List Char} (hdigits : ∀ c ∈ digits, c.isDigit = true)
    {first : Char} (hhead : digits.head? = some first) (hfirst : first ≠ '0') :
    Nat.toDigits 10 (Nat.ofDigitChars 10 digits 0) = digits := by
  induction digits using List.reverseRecOn with
  | nil => cases hhead
  | append_singleton digits last ih =>
      have hlast : last.isDigit = true := hdigits last (by simp)
      have hvalue : Nat.ofDigitChars 10 (digits ++ [last]) 0 =
          10 * Nat.ofDigitChars 10 digits 0 + (last.toNat - '0'.toNat) := by
        rw [Nat.ofDigitChars_append, Nat.ofDigitChars_cons, Nat.ofDigitChars_nil]
      obtain ⟨hdigit, hchar⟩ := digitChar_toNat hlast
      rw [hvalue]
      cases digits with
      | nil =>
          rw [Nat.ofDigitChars_nil, Nat.mul_zero, Nat.zero_add, Nat.toDigits_of_lt_base hdigit,
            hchar, List.nil_append]
      | cons head digits =>
          have hearlier := ih (fun c member => hdigits c (List.mem_append_left _ member)) hhead
          have hpositive : 0 < Nat.ofDigitChars 10 (head :: digits) 0 := by
            rw [Nat.pos_iff_ne_zero]
            intro hzero
            rw [hzero, Nat.toDigits_zero] at hearlier
            cases hearlier
            exact hfirst (Option.some.inj hhead).symm
          rw [Nat.toDigits_of_base_le (by decide) (by omega), Nat.mul_add_div (by decide),
            Nat.div_eq_of_lt hdigit, Nat.add_zero, hearlier, Nat.mul_add_mod,
            Nat.mod_eq_of_lt hdigit, hchar]

/-- A number is read from its digits only, and only within the bounds. -/
theorem idNumber?_eq_some_iff {digits : List Char} {number : Nat} :
    idNumber? digits = some number ↔
      0 < number ∧ number ≤ maxEntityNumber ∧ digits = Nat.toDigits 10 number := by
  constructor
  · intro h
    unfold idNumber? at h
    split at h
    next => cases h
    next => cases h
    next digits hne hzero =>
      rw [Option.ite_none_right_eq_some, Option.ite_none_right_eq_some, Option.some.injEq] at h
      obtain ⟨hall, hle, rfl⟩ := h
      obtain ⟨first, rest, rfl⟩ := List.exists_cons_of_ne_nil fun hnil => hne hnil
      have hfirst : first ≠ '0' := fun same => hzero rest (by rw [same])
      have hdigits := toDigits_ofDigitChars (List.all_eq_true.mp hall) rfl hfirst
      refine ⟨Nat.pos_iff_ne_zero.mpr fun hnone => ?_, hle, hdigits.symm⟩
      rw [hnone, Nat.toDigits_zero] at hdigits
      cases hdigits
      exact hfirst rfl
  · rintro ⟨hpositive, hle, rfl⟩
    exact idNumber?_toDigits hpositive hle

/-! ## Ids -/

namespace EntityId

theorem toList_text (id : EntityId) :
    id.text.toList = id.type.letter :: Nat.toDigits 10 id.number := by
  rw [text, idText, String.toList_ofList]

theorem ofChars?_eq_some_iff {chars : List Char} {id : EntityId} :
    ofChars? chars = some id ↔
      ∃ letter ∈ id.type.letters, chars = letter :: Nat.toDigits 10 id.number := by
  cases chars with
  | nil => simp [ofChars?]
  | cons first digits =>
      simp only [ofChars?, Option.bind_eq_bind, Option.bind_eq_some_iff, ofParts?_eq_some_iff,
        EntityType.ofLetter?_eq_some_iff, idNumber?_eq_some_iff, List.cons.injEq]
      constructor
      · rintro ⟨type, hletter, number, ⟨-, -, rfl⟩, rfl, rfl⟩
        exact ⟨first, hletter, rfl, rfl⟩
      · rintro ⟨letter, hletter, rfl, rfl⟩
        exact ⟨id.type, hletter, id.number, ⟨id.number_pos, id.number_le, rfl⟩, rfl, rfl⟩

theorem parse_eq_ok_iff {written : String} {id : EntityId} :
    EntityId.parse written = .ok id ↔ ofChars? written.toList = some id := by
  rw [EntityId.parse]
  split
  next found hfound => rw [hfound, Except.ok.injEq, Option.some.injEq]
  next hnone => simp [hnone]

/-- A text is read as an id exactly if it is written as the id is, up to its first letter. -/
theorem parse_eq_ok_iff_capitalized {written : String} {id : EntityId} :
    EntityId.parse written = .ok id ↔ Text.capitalized written = id.text := by
  rw [parse_eq_ok_iff, ofChars?_eq_some_iff, ← String.toList_inj, toList_text, Text.capitalized]
  cases hchars : written.toList with
  | nil => simp [hchars]
  | cons first digits =>
      rw [String.toList_ofList]
      simp only [EntityType.mem_letters_iff, List.cons.injEq]
      constructor
      · rintro ⟨letter, hletter, rfl, rfl⟩
        exact ⟨hletter, rfl⟩
      · rintro ⟨hletter, rfl⟩
        exact ⟨first, hletter, rfl, rfl⟩

/-- What is not an id is refused with the text in the error. -/
theorem parse_eq_error_iff {written : String} {error : ModelError} :
    EntityId.parse written = .error error ↔
      error = .malformedEntityId written ∧ ∀ id, EntityId.parse written ≠ .ok id := by
  simp only [ne_eq, parse_eq_ok_iff]
  rw [EntityId.parse]
  split
  next found hfound => simp [hfound]
  next hnone => simp [hnone, eq_comm]

theorem expectItem_eq_ok_iff {written : String} {id : EntityId} {item : ItemId} :
    id.expectItem written = .ok item ↔ id = .item item := by
  cases id <;> simp [expectItem]

theorem expectProperty_eq_ok_iff {written : String} {id : EntityId} {property : PropertyId} :
    id.expectProperty written = .ok property ↔ id = .property property := by
  cases id <;> simp [expectProperty]

end EntityId

theorem ItemId.parse_eq_ok_iff {written : String} {id : ItemId} :
    ItemId.parse written = .ok id ↔ EntityId.parse written = .ok (.item id) := by
  simp only [ItemId.parse, bind_eq_ok, EntityId.expectItem_eq_ok_iff, exists_eq_right]

theorem PropertyId.parse_eq_ok_iff {written : String} {id : PropertyId} :
    PropertyId.parse written = .ok id ↔ EntityId.parse written = .ok (.property id) := by
  simp only [PropertyId.parse, bind_eq_ok, EntityId.expectProperty_eq_ok_iff, exists_eq_right]

namespace EntityId

theorem exists_of_parts (type : EntityType) {number : Nat} (hpositive : 1 ≤ number)
    (hbounded : number ≤ maxEntityNumber) :
    ∃ id : EntityId, id.type = type ∧ id.number = number := by
  cases type with
  | item => exact ⟨.item ⟨number, hpositive, hbounded⟩, rfl, rfl⟩
  | property => exact ⟨.property ⟨number, hpositive, hbounded⟩, rfl, rfl⟩

/-- Whether any id is read depends on the letter, the digits and the size of the number. -/
theorem exists_parse_iff {written : String} : (∃ id, EntityId.parse written = .ok id) ↔
    ∃ letter ∈ ['Q', 'q', 'P', 'p'], ∃ number, 1 ≤ number ∧ number ≤ maxEntityNumber ∧
      written.toList = letter :: Nat.toDigits 10 number := by
  have hletters (letter : Char) : letter ∈ ['Q', 'q', 'P', 'p'] ↔
      ∃ type : EntityType, letter ∈ type.letters := by
    constructor
    · intro h
      rcases List.mem_append.mp (show letter ∈ ['Q', 'q'] ++ ['P', 'p'] from h) with h | h
      · exact ⟨.item, h⟩
      · exact ⟨.property, h⟩
    · rintro ⟨type, h⟩
      cases type with
      | item => exact List.mem_append_left ['P', 'p'] h
      | property => exact List.mem_append_right ['Q', 'q'] h
  simp only [parse_eq_ok_iff, ofChars?_eq_some_iff]
  constructor
  · rintro ⟨id, letter, hletter, hwritten⟩
    exact ⟨letter, (hletters letter).mpr ⟨id.type, hletter⟩, id.number, id.number_pos,
      id.number_le, hwritten⟩
  · rintro ⟨letter, hletter, number, hpositive, hbounded, hwritten⟩
    obtain ⟨type, htype⟩ := (hletters letter).mp hletter
    obtain ⟨id, rfl, rfl⟩ := exists_of_parts type hpositive hbounded
    exact ⟨id, letter, htype, hwritten⟩

/-- How a text is read as an id, and how the id is written. -/
structure Grammar (written : String) : Prop where
  accepted : (∃ id, EntityId.parse written = .ok id) ↔
    ∃ letter ∈ ['Q', 'q', 'P', 'p'], ∃ number, 1 ≤ number ∧ number ≤ 2147483647 ∧
      written.toList = letter :: Nat.toDigits 10 number
  refused : ∀ error, EntityId.parse written = .error error → error = .malformedEntityId written
  read : ∀ id, EntityId.parse written = .ok id ↔
    ∃ letter ∈ id.type.letters, written.toList = letter :: Nat.toDigits 10 id.number
  capital : ∀ id, EntityId.parse written = .ok id → id.text = Text.capitalized written
  /-- A text is the same id exactly if it differs in the first letter at most. -/
  same : ∀ id other, EntityId.parse written = .ok id →
    (EntityId.parse other = .ok id ↔ Text.capitalized other = Text.capitalized written)
  item : ∀ id, ItemId.parse written = .ok id ↔ EntityId.parse written = .ok (.item id)
  property : ∀ id, PropertyId.parse written = .ok id ↔
    EntityId.parse written = .ok (.property id)

theorem grammar (written : String) : Grammar written where
  accepted := exists_parse_iff
  refused _ h := (parse_eq_error_iff.mp h).1
  read id := by rw [parse_eq_ok_iff, ofChars?_eq_some_iff]
  capital _ h := (parse_eq_ok_iff_capitalized.mp h).symm
  same id other h := by
    rw [parse_eq_ok_iff_capitalized, parse_eq_ok_iff_capitalized.mp h]
  item _ := ItemId.parse_eq_ok_iff
  property _ := PropertyId.parse_eq_ok_iff

/-- Ids are read by their grammar, and each is read back from the text that it is written as, which
is written for no other id. -/
theorem parsed_by_grammar : (∀ written, Grammar written) ∧
    (∀ id, EntityId.parse id.text = .ok id) ∧
    ∀ first second : EntityId, first.text = second.text → first = second :=
  ⟨grammar, EntityId.parse_text, fun _ _ => text_injective⟩

end EntityId

end KnowledgeBase
