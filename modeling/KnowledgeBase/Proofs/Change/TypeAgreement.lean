import KnowledgeBase.Proofs.Change.Envelope
import KnowledgeBase.Proofs.Diff.FailedApply
import KnowledgeBase.Proofs.Record
import KnowledgeBase.Proofs.Store.ChangeFeed

/-!
The type of a change. An application fails for the type only if the difference is of another type
than the entity, and a change that is computed from versions of an entity has a difference of the
entity's type. A reader takes the id and the difference of a change each by itself and compares
nothing, so what is decoded need not fit together: with any other id it is decoded as well.
-/

namespace KnowledgeBase

open ArrayForm

/-! ## Applications -/

namespace EntityDiff

/-- Whether an application of a difference fails because of the types. -/
def Mismatched (diff : EntityDiff) (entity : Entity) : Prop :=
  ∃ expected found after,
    diff.apply.run entity = .error (.entityTypeMismatch expected found) after

/-- Within a type, only terms are refused, and for their length. -/
private theorem limit_of_error {diff : EntityDiff} {entity after : Entity} {error : ModelError}
    (htype : diff.type = entity.type) (h : diff.apply.run entity = .error error after) :
    ∃ field length, error = .lengthExceedsLimit field length maxTermLength := by
  rw [run_apply htype] at h
  unfold applySections at h
  rcases Edit.run_bind_error_cases h with hterms | ⟨_, termed, -, h⟩
  · obtain ⟨terms, hrun, -⟩ := Edit.run_within_error_cases hterms
    obtain ⟨⟨part, key⟩, hrefuses, -⟩ := applyTerms_of_error hrun
    cases part with
    | labels | descriptions =>
        obtain ⟨_, text, -, -, -, rfl⟩ := hrefuses
        exact ⟨_, _, rfl⟩
    | aliases =>
        obtain ⟨_, _, -, -, text, -, -, rfl⟩ := hrefuses
        exact ⟨_, _, rfl⟩
    | claims | siteLinks => exact hrefuses.elim
  · rcases Edit.run_bind_error_cases h with hmodify | ⟨_, middle, -, hlinks⟩
    · cases hmodify
    · obtain ⟨_, _, link, _, -, -, hput, -⟩ := MapDiff.run_within_below_of_error hlinks
      cases hput

theorem mismatched_iff {diff : EntityDiff} {entity : Entity} :
    diff.Mismatched entity ↔ diff.type ≠ entity.type := by
  constructor
  · rintro ⟨expected, found, after, h⟩ htype
    obtain ⟨_, _, herror⟩ := limit_of_error htype h
    cases herror
  · intro htype
    exact ⟨_, _, _, run_apply_of_ne htype⟩

end EntityDiff

namespace Change

private theorem type_of_diffed {before after : Entity} {action : ChangeAction} {revision : UInt64}
    {timestamp : Int64} {change : Change} (h : (do
      let diff ← EntityDiff.between before after
      let some entity := after.id?.or before.id? | throw .missingEntityId
      return { entity, action, revision, timestamp, diff } : Except ModelError Change) =
        .ok change) : change.diff.type = change.entity.type := by
  obtain ⟨diff, hdiff, h⟩ := bind_eq_ok.mp h
  obtain ⟨htype, rfl⟩ := EntityDiff.eq_computed_of_between hdiff
  cases hid : after.id?.or before.id? with
  | none =>
      simp only [hid] at h
      cases h
  | some id =>
      simp only [hid] at h
      cases h
      rcases Option.or_eq_some_iff.mp hid with hafter | ⟨-, hbefore⟩
      · exact htype.trans (Entity.type_of_id? hafter)
      · exact Entity.type_of_id? hbefore

/-- What is computed from versions is of the type of its entity. -/
theorem type_of_between {old new : Option Entity} {revision : UInt64} {timestamp : Int64}
    {change : Change} (h : between old new revision timestamp = .ok change) :
    change.diff.type = change.entity.type := by
  cases old with
  | some old => cases new <;> exact type_of_diffed h
  | none =>
      cases new with
      | some new => exact type_of_diffed h
      | none => cases h

/-! ## Reading -/

/-- Whether the difference among the fields that have been read can be read back. -/
def Parts.DiffLossless (parts : Parts) : Prop :=
  ∀ diff, parts.diff? = some diff → Lossless diff

theorem keeps_diffLossless (source : Source) : shape.Keeps source Parts.DiffLossless := by
  intro parts name value after hparts hvalue hput
  change parts.put source name value = some (.ok after) at hput
  unfold Parts.put at hput
  split at hput
  -- The fifth name is that of the difference, and the last case is that of all other names.
  case h_5 =>
    obtain ⟨diff, hdiff, hafter⟩ := bind_eq_ok.mp (Option.some.inj hput)
    cases hafter
    rintro _ ⟨⟩
    unfold FieldReader.array at hdiff
    split at hdiff
    next array harray =>
      have hfinite := Draft.finite_of_toJson? value hvalue harray
      exact EntityDiff.lossless_ofArray hfinite (eq_ok_of_mapError hdiff)
    next => cases hdiff
  case h_6 => cases hput
  all_goals
    obtain ⟨field, -, hafter⟩ := bind_eq_ok.mp (Option.some.inj hput)
    cases hafter
    exact hparts

theorem diff_of_finish {parts : Parts} {change : Change} (h : parts.finish = .ok change) :
    parts.diff? = some change.diff := by
  obtain ⟨entity, -, h⟩ := bind_eq_ok.mp h
  obtain ⟨action, -, h⟩ := bind_eq_ok.mp h
  obtain ⟨revision, -, h⟩ := bind_eq_ok.mp h
  obtain ⟨timestamp, -, h⟩ := bind_eq_ok.mp h
  obtain ⟨diff, hdiff, h⟩ := bind_eq_ok.mp h
  cases h
  cases hfound : parts.diff? with
  | none =>
      rw [hfound] at hdiff
      cases hdiff
  | some found =>
      rw [hfound] at hdiff
      cases hdiff
      rfl

theorem lossless_ofText {text : String} {change : Change} (h : ofText text = .ok change) :
    Lossless change.diff := by
  have hstart : shape.start.DiffLossless := nofun
  obtain ⟨parts, hparts, hfinish⟩ := (keeps_diffLossless .text).ofText hstart h
  exact hparts change.diff (diff_of_finish hfinish)

end Change

namespace Envelope

variable {d : Decompressor}

theorem lossless_decodePlain {bytes : Bytes} {change : Change}
    (h : decodePlain bytes = .ok change) : Lossless change.diff := by
  obtain ⟨content, -, h⟩ := bind_eq_ok.mp h
  cases htext : textOfUtf8? content with
  | none =>
      rw [htext] at h
      cases h
  | some text =>
      rw [htext] at h
      exact Change.lossless_ofText (eq_ok_of_mapError h)

/-- Whatever the bytes are, the difference that is read from them is one that is read from its
own form. -/
theorem lossless_decodeWith {bytes : Bytes} {change : Change}
    (h : decodeWith d bytes = .ok change) : Lossless change.diff := by
  by_cases hshort : bytes.length < 4
  · rw [decodeWith_of_short hshort] at h
    cases h
  · by_cases hcompressed : bytes.take 5 = compressedMark
    · rw [decodeWith, if_neg hshort, if_pos hcompressed] at h
      obtain ⟨plain, -, h⟩ := bind_eq_ok.mp h
      exact lossless_decodePlain h
    · by_cases hplain : bytes.take 4 = plainMark
      · rw [decodeWith_of_plainMark hplain hcompressed] at h
        split at h
        · cases h
        · exact lossless_decodePlain h
      · rw [decodeWith, if_neg hshort, if_neg hcompressed, if_neg hplain] at h
        cases h

/-- What is decoded from any bytes is decoded as well with any other entity named in it. -/
theorem decodeWith_renamed {bytes : Bytes} {change : Change}
    (h : decodeWith d bytes = .ok change) (hdoubles : change.diff.ReadBack) {id : EntityId}
    (hlength : (plain { change with entity := id }).length ≤ maxChangeBytes) :
    decodeWith d (plain { change with entity := id }) = .ok { change with entity := id } := by
  have hread : (ofArray (toArray change.diff) : Except ArrayError EntityDiff) = .ok change.diff :=
    lossless_decodeWith h
  let renamed : Change := { change with entity := id }
  have hdoubles : renamed.diff.ReadBack := hdoubles
  rw [decodeWith_plain hlength, Change.ofText_render hdoubles, hread]
  rfl

/-- An application to the entity that is named fails for the type exactly if the difference is of
another type than the id. That is never so for a change that is computed from versions. But what
is decoded, by a reader of any compressed envelopes, is also decoded with every other id in it,
those of the other type among them. -/
theorem types_agree_unless_decoded (d : Decompressor) (change : Change) :
    (∀ entity, entity.id? = some change.entity →
      (change.diff.Mismatched entity ↔ change.diff.type ≠ change.entity.type)) ∧
    (∀ old new revision timestamp, Change.between old new revision timestamp = .ok change →
      change.diff.type = change.entity.type ∧
        ∀ entity, entity.id? = some change.entity → ¬change.diff.Mismatched entity) ∧
    ∀ bytes, decodeWith d bytes = .ok change → change.diff.ReadBack →
      ∀ id, (plain { change with entity := id }).length ≤ maxChangeBytes →
        decodeWith d (plain { change with entity := id }) = .ok { change with entity := id } := by
  have happlied : ∀ entity, entity.id? = some change.entity →
      (change.diff.Mismatched entity ↔ change.diff.type ≠ change.entity.type) := by
    intro entity hid
    rw [EntityDiff.mismatched_iff, Entity.type_of_id? hid]
  refine ⟨happlied, ?_, ?_⟩
  · intro old new revision timestamp hbetween
    have htype := Change.type_of_between hbetween
    refine ⟨htype, fun entity hid hmismatched => ?_⟩
    exact (happlied entity hid).mp hmismatched htype
  · intro bytes hdecode hdoubles id hlength
    exact decodeWith_renamed hdecode hdoubles hlength

/-- The statement that gives an item a place is decoded under a property as well, where it cannot be
applied; the change that is computed for a new item can be. -/
theorem types_agree_unless_decoded_placed :
    (∃ change, Change.between none (some (labelledItem (some .first) "ant" [])) 1 0 = .ok change ∧
      change.diff.type = change.entity.type) ∧
    ∃ bytes, decode bytes = .ok placed ∧ placed.diff.ReadBack ∧
      decode (plain { placed with entity := .property .first }) =
        .ok { placed with entity := .property .first } ∧
      placed.diff.Mismatched (.property { id? := some .first, dataType := "string" }) := by
  constructor
  · have hid : (labelledItem (some .first) "ant" []).id? = some (.item .first) := rfl
    have hbetween := Change.between_of_id hid (fun entity (h : none = some entity) => nomatch h) 1 0
    exact ⟨_, hbetween, ((types_agree_unless_decoded Frame.decompressor _).2.1 _ _ _ _ hbetween).1⟩
  · have hdecode : decode (plain placed) = .ok placed :=
      decodeWith_plain_of_exchangeable length_placed exchangeable_placed (.inl rfl) readBack_placed
    let renamed : Change := { placed with entity := .property .first }
    have hchars : renamed.toJson.chars.length = 437 := by
      decide +kernel
    have hlength : (plain renamed).length ≤ maxChangeBytes :=
      length_plain_le (hchars.trans_le (by decide))
    refine ⟨plain placed, hdecode, readBack_placed, ?_, ?_⟩
    · exact (types_agree_unless_decoded Frame.decompressor placed).2.2 _ hdecode readBack_placed _ hlength
    · have hid : (Entity.property { id? := some .first, dataType := "string" }).id? =
          some renamed.entity := rfl
      exact ((types_agree_unless_decoded Frame.decompressor renamed).1 _ hid).mpr nofun

/-- An empty difference for properties under the id of an item. -/
def misaddressed : Change where
  entity := .item .first
  action := .add
  revision := 1
  timestamp := 0
  diff := { type := .property }

/-- What is decoded cannot always be applied to the entity that it names. -/
theorem misaddressed_accepted :
    ∃ bytes entity, decode bytes = .ok misaddressed ∧ entity.id? = some misaddressed.entity ∧
      misaddressed.diff.apply.run entity =
        .error (.entityTypeMismatch .property .item) entity := by
  have hchars : misaddressed.toJson.chars.length = 95 := by
    decide +kernel
  have hlength : (plain misaddressed).length ≤ maxChangeBytes :=
    length_plain_le (hchars.trans_le (by decide))
  have hmade : misaddressed.diff.Exchangeable := ⟨.empty, .empty⟩
  have hdecode : decode (plain misaddressed) = .ok misaddressed :=
    decodeWith_plain_of_exchangeable hlength hmade (.inr rfl) .empty
  exact ⟨_, labelledItem (some .first) "ant" [], hdecode, rfl, EntityDiff.run_apply_of_ne nofun⟩

end Envelope

end KnowledgeBase
