import KnowledgeBase.Guid
import KnowledgeBase.Proofs.Bytes
import KnowledgeBase.Proofs.EntityId.Grammar
import Mathlib.Data.List.Nodup
import Mathlib.Data.List.TakeDrop
import Mathlib.Data.List.TakeWhile

/-!
Identifiers of statements. One is read from a text that has an id before its first dollar sign and
something behind it, and it is written as that text with a capital for the first letter. Those that
are made from a counter have the counter as the token, in thirty-two hexadecimal digits: they are as
different as the numbers, and each is accepted for the entity that it was made for and no other.
-/

namespace KnowledgeBase

namespace EntityId

/-- No text that is read as an id has a dollar sign. -/
theorem dollar_not_mem {written : String} {id : EntityId} (h : EntityId.parse written = .ok id) :
    '$' ∉ written.toList := by
  obtain ⟨letter, hletter, hwritten⟩ := ofChars?_eq_some_iff.mp (parse_eq_ok_iff.mp h)
  rw [hwritten, List.mem_cons, not_or]
  constructor
  · rintro rfl
    cases htype : id.type <;> simp [htype, EntityType.letters] at hletter
  · intro hdigit
    have hno := Nat.isDigit_of_mem_toDigits (by decide) (by decide) hdigit
    exact absurd hno (by decide)

/-- The written form has as many bytes as any text that is read as the id. -/
theorem utf8ByteSize_text {written : String} {id : EntityId}
    (h : EntityId.parse written = .ok id) : id.text.utf8ByteSize = written.utf8ByteSize := by
  obtain ⟨letter, hletter, hwritten⟩ := ofChars?_eq_some_iff.mp (parse_eq_ok_iff.mp h)
  have hsize : letter.utf8Size = id.type.letter.utf8Size := by
    cases htype : id.type
    all_goals
      simp only [htype, EntityType.letters, List.mem_cons, List.not_mem_nil, or_false] at hletter
      rcases hletter with rfl | rfl <;> rfl
  rw [← String.ofList_toList (s := written), hwritten, text, idText, String.ofList_cons,
    String.ofList_cons, String.utf8ByteSize_append, String.utf8ByteSize_append,
    String.utf8ByteSize_singleton, String.utf8ByteSize_singleton, hsize]

end EntityId

/-- A text is cut in two at the first place of a mark. -/
theorem span_ne_eq_iff {mark c : Char} {chars before after : List Char} :
    chars.span (· != mark) = (before, c :: after) ↔
      c = mark ∧ mark ∉ before ∧ chars = before ++ mark :: after := by
  rw [List.span_eq_takeWhile_dropWhile, Prod.mk.injEq]
  constructor
  · rintro ⟨rfl, hafter⟩
    have hmark : c = mark := by
      have hhead := List.head?_dropWhile_not (· != mark) chars
      rw [hafter] at hhead
      simpa using hhead
    subst hmark
    refine ⟨rfl, fun member => ?_, ?_⟩
    · simpa using List.mem_takeWhile_imp member
    · rw [← hafter, List.takeWhile_append_dropWhile]
  · rintro ⟨rfl, hbefore, rfl⟩
    have hkept : ∀ other ∈ before, (other != c) = true := by
      intro other member
      rw [bne_iff_ne]
      rintro rfl
      exact hbefore member
    rw [List.takeWhile_append_of_pos hkept, List.dropWhile_append_of_pos hkept]
    simp

namespace Guid

/-! ## Reading and writing -/

/-- A text is read at its first dollar sign. -/
theorem ofText?_eq_some_iff {written : String} {guid : Guid} :
    ofText? written = some guid ↔ written.utf8ByteSize ≤ maxGuidBytes ∧ guid.token ≠ "" ∧
      ∃ entity, written = entity ++ "$" ++ guid.token ∧
        EntityId.parse entity = .ok guid.entity := by
  constructor
  · intro h
    unfold ofText? at h
    rw [Option.ite_none_left_eq_some] at h
    obtain ⟨hsize, h⟩ := h
    split at h
    next entity c token hspan =>
      obtain ⟨rfl, -, hchars⟩ := span_ne_eq_iff.mp hspan
      rw [Option.ite_none_left_eq_some, Option.map_eq_some_iff] at h
      obtain ⟨htoken, id, hid, rfl⟩ := h
      refine ⟨Nat.le_of_not_lt hsize, ?_, String.ofList entity, ?_, ?_⟩
      · rwa [ne_eq, String.ofList_eq_empty_iff, ← List.isEmpty_iff]
      · rw [← String.toList_inj, hchars]
        simp
      · rwa [EntityId.parse_eq_ok_iff, String.toList_ofList]
    next => cases h
  · rintro ⟨hsize, htoken, entity, rfl, hentity⟩
    have hspan : (entity ++ "$" ++ guid.token).toList.span (· != '$') =
        (entity.toList, '$' :: guid.token.toList) := by
      rw [span_ne_eq_iff]
      exact ⟨rfl, EntityId.dollar_not_mem hentity, by simp⟩
    have hnonempty : guid.token.toList.isEmpty = false := by
      rwa [List.isEmpty_eq_false_iff, ne_eq, String.toList_eq_nil_iff]
    rw [ofText?, if_neg (Nat.not_lt.mpr hsize), hspan]
    simp only [hnonempty, EntityId.parse_eq_ok_iff.mp hentity, String.ofList_toList]
    rfl

theorem parse_eq_ok_iff {written : String} {guid : Guid} :
    Guid.parse written = .ok guid ↔ ofText? written = some guid := by
  rw [Guid.parse]
  split
  next found hfound => rw [hfound, Except.ok.injEq, Option.some.injEq]
  next hnone => simp [hnone]

theorem parse_eq_error {written : String} {error : ModelError}
    (h : Guid.parse written = .error error) : error = .malformedGuid written := by
  rw [Guid.parse] at h
  split at h
  next => cases h
  next => exact (Except.error.inj h).symm

section Parsed

variable {written : String} {guid : Guid} (h : Guid.parse written = .ok guid)
include h

theorem text_eq_capitalized : guid.text = Text.capitalized written := by
  obtain ⟨-, -, entity, rfl, hentity⟩ := ofText?_eq_some_iff.mp (parse_eq_ok_iff.mp h)
  have hnonempty : entity ≠ "" := by
    rintro rfl
    cases hentity
  rw [text, ← EntityId.parse_eq_ok_iff_capitalized.mp hentity, String.append_assoc,
    String.append_assoc, Text.capitalized_append hnonempty]

theorem parse_text_of_parse : Guid.parse guid.text = .ok guid := by
  obtain ⟨hsize, htoken, entity, rfl, hentity⟩ := ofText?_eq_some_iff.mp (parse_eq_ok_iff.mp h)
  refine parse_eq_ok_iff.mpr (ofText?_eq_some_iff.mpr ⟨?_, htoken, guid.entity.text, rfl,
    guid.entity.parse_text⟩)
  rw [text, String.utf8ByteSize_append, String.utf8ByteSize_append,
    EntityId.utf8ByteSize_text hentity, ← String.utf8ByteSize_append, ← String.utf8ByteSize_append]
  exact hsize

end Parsed

/-! ## Tokens -/

theorem hexDigit?_digitChar : ∀ value < 16,
    Text.hexDigit? (Nat.digitChar value).toUpper = some value := by
  decide

theorem length_tokenDigits (number : Nat) : (tokenDigits number).length = 32 := by
  rw [tokenDigits, List.length_map, List.length_range]

theorem isSome_hexDigit? {number : Nat} {c : Char} (h : c ∈ tokenDigits number) :
    (Text.hexDigit? c).isSome = true := by
  obtain ⟨place, -, rfl⟩ := List.mem_map.mp h
  rw [hexDigit?_digitChar _ (Nat.mod_lt _ (by decide))]
  rfl

/-- A number of 128 bits is known from its thirty-two digits. -/
theorem tokenDigits_injective {first second : Nat} (hfirst : first < 2 ^ 128)
    (hsecond : second < 2 ^ 128) (h : tokenDigits first = tokenDigits second) :
    first = second := by
  refine Bytes.eq_of_digits_eq (show first < 16 ^ 32 from hfirst)
    (show second < 16 ^ 32 from hsecond) ?_
  intro place hplace
  have hindex : 31 - place < 32 := by omega
  have hback : 31 - (31 - place) = place := by omega
  have hdigit := congrArg (fun digits : List Char => digits[31 - place]?) h
  simp only [tokenDigits, List.getElem?_map, List.getElem?_range hindex, Option.map_some,
    Option.some.injEq, hback] at hdigit
  have hvalue := congrArg Text.hexDigit? hdigit
  rwa [hexDigit?_digitChar _ (Nat.mod_lt _ (by decide)),
    hexDigit?_digitChar _ (Nat.mod_lt _ (by decide)), Option.some.injEq,
    Nat.shiftRight_eq_div_pow, Nat.shiftRight_eq_div_pow, Nat.pow_mul] at hvalue

theorem toList_tokenOf (number : Nat) :
    let digits := tokenDigits number
    (tokenOf number).toList = digits.take 8 ++ '-' :: ((digits.drop 8).take 4 ++
      '-' :: ((digits.drop 12).take 4 ++ '-' :: ((digits.drop 16).take 4 ++
        '-' :: (digits.drop 20).take 12))) := by
  simp [tokenOf]

/-- Digits stand where no hyphen belongs. -/
theorem all_fitsPlace {group : List Char} {start : Nat}
    (hdigits : ∀ c ∈ group, (Text.hexDigit? c).isSome = true)
    (hgap : ∀ hyphen ∈ hyphens, hyphen < start ∨ start + group.length ≤ hyphen) :
    (group.zipIdx start).all (fun (c, place) => fitsPlace place c) = true := by
  rw [List.all_eq_true]
  rintro ⟨c, place⟩ member
  obtain ⟨hstart, hend, hc⟩ := List.mem_zipIdx member
  have hplace : ¬hyphens.contains place = true := by
    intro hhyphen
    have hoff := hgap place (List.contains_iff_mem.mp hhyphen)
    omega
  simp only [fitsPlace, if_neg hplace]
  exact hdigits c (hc ▸ List.getElem_mem _)

/-- Five groups of digits with hyphens between them make a token. -/
theorem isUuid_of_groups {first second third fourth fifth : List Char}
    (hfirst : first.length = 8) (hsecond : second.length = 4) (hthird : third.length = 4)
    (hfourth : fourth.length = 4) (hfifth : fifth.length = 12)
    (hdigits : ∀ group ∈ [first, second, third, fourth, fifth], ∀ c ∈ group,
      (Text.hexDigit? c).isSome = true) :
    isUuid (first ++ '-' :: (second ++ '-' :: (third ++ '-' :: (fourth ++ '-' :: fifth)))) =
      true := by
  have hgroup {group : List Char} {start : Nat}
      (hmember : group ∈ [first, second, third, fourth, fifth])
      (hgap : ∀ hyphen ∈ hyphens, hyphen < start ∨ start + group.length ≤ hyphen) :
      (group.zipIdx start).all (fun (c, place) => fitsPlace place c) = true :=
    all_fitsPlace (hdigits group hmember) hgap
  simp only [isUuid, List.zipIdx_append, List.zipIdx_cons, List.all_append, List.all_cons,
    Bool.and_eq_true, beq_iff_eq]
  refine ⟨?_, hgroup (by simp) ?_, ?_, hgroup (by simp) ?_, ?_, hgroup (by simp) ?_, ?_,
    hgroup (by simp) ?_, ?_, hgroup (by simp) ?_⟩
  all_goals simp only [hfirst, hsecond, hthird, hfourth, hfifth, List.length_append,
    List.length_cons]
  all_goals decide

theorem isUuid_tokenOf (number : Nat) : isUuid (tokenOf number).toList = true := by
  have hlength := length_tokenDigits number
  rw [toList_tokenOf]
  refine isUuid_of_groups (by simp [hlength]) (by simp [hlength]) (by simp [hlength])
    (by simp [hlength]) (by simp [hlength]) ?_
  intro group hgroup c member
  have hdigit : c ∈ tokenDigits number := by
    simp only [List.mem_cons, List.not_mem_nil, or_false] at hgroup
    rcases hgroup with rfl | rfl | rfl | rfl | rfl
    · exact List.mem_of_mem_take member
    all_goals exact List.mem_of_mem_drop (List.mem_of_mem_take member)
  exact isSome_hexDigit? hdigit

theorem filter_tokenOf (number : Nat) :
    (tokenOf number).toList.filter (· != '-') = tokenDigits number := by
  have hkept : (tokenDigits number).filter (· != '-') = tokenDigits number := by
    rw [List.filter_eq_self]
    intro c member
    rw [bne_iff_ne]
    rintro rfl
    exact absurd (isSome_hexDigit? member) (by decide)
  have hjoined (digits : List Char) (h : digits.length = 32) :
      digits.take 8 ++ ((digits.drop 8).take 4 ++ ((digits.drop 12).take 4 ++
        ((digits.drop 16).take 4 ++ (digits.drop 20).take 12))) = digits := by
    have hlast : (digits.drop 20).take 12 = ((digits.drop 16).drop 4) := by
      rw [List.take_of_length_le (by simp [h]), List.drop_drop]
    have hfourth : digits.drop 16 = (digits.drop 12).drop 4 := by rw [List.drop_drop]
    have hthird : digits.drop 12 = (digits.drop 8).drop 4 := by rw [List.drop_drop]
    rw [hlast, List.take_append_drop, hfourth, List.take_append_drop, hthird,
      List.take_append_drop, List.take_append_drop]
  calc (tokenOf number).toList.filter (· != '-')
      = ((tokenDigits number).take 8 ++ (((tokenDigits number).drop 8).take 4 ++
          (((tokenDigits number).drop 12).take 4 ++ (((tokenDigits number).drop 16).take 4 ++
            ((tokenDigits number).drop 20).take 12)))).filter (· != '-') := by
        rw [toList_tokenOf]
        simp only [List.filter_append, List.filter_cons, bne_self_eq_false, Bool.false_eq_true,
          if_false]
    _ = (tokenDigits number).filter (· != '-') := by
        rw [hjoined _ (length_tokenDigits number)]
    _ = tokenDigits number := hkept

theorem tokenOf_injective {first second : Nat} (hfirst : first < 2 ^ 128)
    (hsecond : second < 2 ^ 128) (h : tokenOf first = tokenOf second) : first = second := by
  refine tokenDigits_injective hfirst hsecond ?_
  rw [← filter_tokenOf, ← filter_tokenOf, h]

theorem tokenOf_ne_empty (number : Nat) : tokenOf number ≠ "" := by
  intro hempty
  have hdigits := length_tokenDigits number
  rw [← filter_tokenOf, hempty] at hdigits
  cases hdigits

theorem length_tokenOf (number : Nat) : (tokenOf number).toList.length = 36 := by
  rw [toList_tokenOf]
  simp [length_tokenDigits]

/-! ## Identifiers from a counter -/

theorem utf8ByteSize_le (written : String) : written.utf8ByteSize ≤ 4 * written.toList.length := by
  have hsize := Bytes.length_utf8_ofList_le written.toList
  rwa [String.ofList_toList, Bytes.utf8_eq] at hsize

/-- An identifier with a token made from a number is read back from its text. -/
theorem parse_text_tokenOf (entity : EntityId) (number : Nat) :
    Guid.parse (Guid.mk entity (tokenOf number)).text = .ok ⟨entity, tokenOf number⟩ := by
  refine parse_eq_ok_iff.mpr (ofText?_eq_some_iff.mpr ⟨?_, tokenOf_ne_empty number, entity.text,
    rfl, entity.parse_text⟩)
  have hdigits : (Nat.toDigits 10 entity.number).length ≤ 10 :=
    (Nat.length_toDigits_le_iff (by decide) (by decide)).mpr
      (entity.number_le.trans_lt (by decide))
  refine (utf8ByteSize_le _).trans ?_
  rw [text, String.toList_append, String.toList_append, EntityId.toList_text, List.length_append,
    List.length_append, List.length_cons, length_tokenOf]
  change 4 * ((Nat.toDigits 10 entity.number).length + 1 + 1 + 36) ≤ 255
  omega

/-- The check of an owner looks at the entity that the identifier names. -/
theorem validateFor_of_parse {written : String} {guid : Guid} (h : Guid.parse written = .ok guid)
    (htoken : guid.hasUuidToken = true) (entity : EntityId) :
    validateFor entity written =
      if guid.entity = entity then .ok guid else .error (.guidMismatch written entity) := by
  have hvalid : validate written = .ok guid := by
    simp only [validate, h, ok_bind, htoken, if_true]
    rfl
  simp only [validateFor, hvalid, ok_bind]
  rfl

section Sequence

variable (start : Nat) (ids : List EntityId)

theorem map_entity_sequence : (sequence start ids).map (·.entity) = ids := by
  induction ids generalizing start with
  | nil => rfl
  | cons id ids ih => rw [sequence, List.map_cons, ih]

theorem map_token_sequence :
    (sequence start ids).map (·.token) = (List.range' start ids.length).map tokenOf := by
  induction ids generalizing start with
  | nil => rfl
  | cons id ids ih =>
      rw [sequence, List.map_cons, ih, List.length_cons, List.range'_succ, List.map_cons]

variable {start ids}

theorem parse_text_of_mem_sequence {guid : Guid} (h : guid ∈ sequence start ids) :
    Guid.parse guid.text = .ok guid ∧ guid.hasUuidToken = true := by
  have htoken : guid.token ∈ (List.range' start ids.length).map tokenOf := by
    rw [← map_token_sequence]
    exact List.mem_map_of_mem h
  obtain ⟨number, -, htoken⟩ := List.mem_map.mp htoken
  obtain ⟨entity, token⟩ := guid
  subst htoken
  exact ⟨parse_text_tokenOf entity number, isUuid_tokenOf number⟩

/-- As long as the counter stays within the bits of a token, no text comes twice. -/
theorem nodup_sequence (h : start + ids.length ≤ 2 ^ 128) :
    ((sequence start ids).map Guid.text).Nodup := by
  have htokens : ((sequence start ids).map (·.token)).Nodup := by
    rw [map_token_sequence]
    refine List.Nodup.map_on ?_ List.nodup_range'
    intro first hfirst second hsecond
    rw [List.mem_range'_1] at hfirst hsecond
    exact tokenOf_injective (by omega) (by omega)
  refine List.pairwise_map.mpr (List.Pairwise.imp_of_mem ?_ (List.pairwise_map.mp htokens))
  intro first second hfirst hsecond hother same
  have hread := (parse_text_of_mem_sequence hfirst).1
  rw [same, (parse_text_of_mem_sequence hsecond).1] at hread
  exact hother (congrArg token (Except.ok.inj hread)).symm

end Sequence

/-! ## What is read and what is made -/

/-- How a text is read as an identifier, and how the identifier is written. -/
structure Grammar (written : String) : Prop where
  accepted : (∃ guid, Guid.parse written = .ok guid) ↔
    written.utf8ByteSize ≤ 255 ∧ ∃ entity token, written = entity ++ "$" ++ token ∧
      '$' ∉ entity.toList ∧ token ≠ "" ∧ ∃ id, EntityId.parse entity = .ok id
  refused : ∀ error, Guid.parse written = .error error → error = .malformedGuid written
  parts : ∀ guid, Guid.parse written = .ok guid →
    ∃ entity, written = entity ++ "$" ++ guid.token ∧ EntityId.parse entity = .ok guid.entity
  capital : ∀ guid, Guid.parse written = .ok guid → guid.text = Text.capitalized written
  again : ∀ guid, Guid.parse written = .ok guid → Guid.parse guid.text = .ok guid

theorem grammar (written : String) : Grammar written where
  accepted := by
    simp only [parse_eq_ok_iff, ofText?_eq_some_iff]
    constructor
    · rintro ⟨guid, hsize, htoken, entity, hwritten, hentity⟩
      exact ⟨hsize, entity, guid.token, hwritten, EntityId.dollar_not_mem hentity, htoken,
        guid.entity, hentity⟩
    · rintro ⟨hsize, entity, token, hwritten, -, htoken, id, hentity⟩
      exact ⟨⟨id, token⟩, hsize, htoken, entity, hwritten, hentity⟩
  refused _ := parse_eq_error
  parts _ h := (ofText?_eq_some_iff.mp (parse_eq_ok_iff.mp h)).2.2
  capital _ := text_eq_capitalized
  again _ := parse_text_of_parse

/-- Whether identifiers are fit for the entities that they were made for: all are different, and
each is accepted for its own entity and for no other. -/
structure Fit (ids : List EntityId) (guids : List Guid) : Prop where
  entities : guids.map (·.entity) = ids
  distinct : (guids.map Guid.text).Nodup
  accepted : ∀ guid ∈ guids, validateFor guid.entity guid.text = .ok guid
  refused : ∀ guid ∈ guids, ∀ other, other ≠ guid.entity →
    validateFor other guid.text = .error (.guidMismatch guid.text other)

/-- Identifiers are read by their grammar, and those made with a counter of 64 bits are fit for
their entities. -/
theorem grammar_and_sequence_fit (start : Nat) (ids : List EntityId)
    (h : start + ids.length < 2 ^ 64) :
    (∀ written, Grammar written) ∧ Fit ids (sequence start ids) := by
  refine ⟨grammar, map_entity_sequence start ids, nodup_sequence (by omega), ?_, ?_⟩
  · intro guid member
    obtain ⟨hread, htoken⟩ := parse_text_of_mem_sequence member
    rw [validateFor_of_parse hread htoken, if_pos rfl]
  · intro guid member other hother
    obtain ⟨hread, htoken⟩ := parse_text_of_mem_sequence member
    rw [validateFor_of_parse hread htoken, if_neg (Ne.symm hother)]

/-- The last three numbers that leave room for a next one, two of them for one item. -/
theorem sequence_fit_at_limit :
    let item : EntityId := .item ⟨1, by decide, by decide⟩
    let property : EntityId := .property ⟨2147483647, by decide, by decide⟩
    let ids := [item, property, item]
    2 ^ 64 - 4 + ids.length < 2 ^ 64 ∧ Fit ids (sequence (2 ^ 64 - 4) ids) ∧
      (sequence (2 ^ 64 - 4) ids).map Guid.text =
        ["Q1$00000000-0000-0000-FFFF-FFFFFFFFFFFC",
          "P2147483647$00000000-0000-0000-FFFF-FFFFFFFFFFFD",
          "Q1$00000000-0000-0000-FFFF-FFFFFFFFFFFE"] := by
  intro item property ids
  have hroom : 2 ^ 64 - 4 + ids.length < 2 ^ 64 := by decide
  exact ⟨hroom, (grammar_and_sequence_fit _ ids hroom).2, by decide⟩

end Guid

end KnowledgeBase
