import KnowledgeBase.Proofs.ArrayForm.DiffRoundTrip
import KnowledgeBase.Proofs.Change.Fields
import KnowledgeBase.Proofs.Change.Written

/-!
Plain envelopes are exact. What is encoded is decoded as it was, whatever is cut off its end is
missed, and whatever is added to it is noticed. The writer bounds the length of the whole and
the reader that of the whole and of the change in it, so they agree on what is too long.
-/

namespace KnowledgeBase

open ArrayForm

theorem textOfUtf8?_utf8 (text : String) : textOfUtf8? (Bytes.utf8 text) = some text := by
  have hbytes : (⟨(Bytes.utf8 text).toArray⟩ : ByteArray) = text.toByteArray := by
    rw [Bytes.utf8_eq]
  rw [textOfUtf8?, hbytes, String.fromUTF8?, dif_pos text.isValidUTF8]
  rfl

namespace Envelope

/-- The fields of a plain envelope. -/
def plainFields : Fields Bytes := do
  let mark ← field (ByteReader.bytes 4 "magic")
  if mark ≠ plainMark then throw (.invalidMagic mark)
  let version ← field (ByteReader.byte "version")
  if version ≠ envelopeVersion then throw (.unsupportedVersion version)
  field (ByteReader.sized maxChangeBytes "payload")

theorem payload_eq (envelope : Bytes) : payload envelope = (do
    let (content, rest) ← plainFields.run envelope
    if rest.isEmpty then return content else throw (.trailingBytes rest.length)) := rfl

/-- A plain envelope around any content. -/
def around (content : Bytes) : Bytes := plainMark ++ envelopeVersion :: Bytes.sized content

theorem plain_eq_around (change : Change) :
    plain change = around (Bytes.utf8 change.toJson.render) := rfl

theorem takes_around {content : Bytes} (h : content.length ≤ maxChangeBytes) :
    Takes plainFields (around content) content := by
  refine Takes.bind (takes_bytes "magic" plainMark) ?_
  rw [if_neg (not_not.mpr rfl)]
  change Takes _ ([envelopeVersion] ++ Bytes.sized content) _
  refine Takes.bind (takes_byte "version" envelopeVersion) ?_
  rw [if_neg (not_not.mpr rfl)]
  exact takes_sized "payload" h (by decide)

theorem length_around (content : Bytes) :
    (around content).length = 5 + (Bytes.varint content.length).length + content.length := by
  simp only [around, plainMark, Bytes.sized, List.length_append, List.length_cons, List.length_nil]
  omega

theorem length_le_around (content : Bytes) : content.length ≤ (around content).length := by
  rw [length_around]
  exact Nat.le_add_left _ _

/-- A change that is printed in few characters is far within the bound. -/
theorem length_plain_le {change : Change} (h : change.toJson.chars.length ≤ 2 ^ 16) :
    (plain change).length ≤ maxChangeBytes := by
  have hcontent : (Bytes.utf8 change.toJson.render).length ≤ 4 * change.toJson.chars.length :=
    Bytes.length_utf8_ofList_le change.toJson.chars
  have hsize := Bytes.length_varint_le (Bytes.utf8 change.toJson.render).length
  rw [plain_eq_around, length_around, maxChangeBytes]
  omega

/-! ## Contents -/

theorem payload_around {content : Bytes} (h : content.length ≤ maxChangeBytes) :
    payload (around content) = .ok content := by
  have hrun := (takes_around h).whole []
  rw [List.append_nil] at hrun
  rw [payload_eq, hrun]
  rfl

theorem payload_part {content first last : Bytes} (h : content.length ≤ maxChangeBytes)
    (hsplit : around content = first ++ last) (hlast : last ≠ []) :
    ∃ context, payload first = .error (.bytes (.unexpectedEnd context)) := by
  obtain ⟨context, hrun⟩ := (takes_around h).part first last hsplit hlast
  exact ⟨context, by rw [payload_eq, hrun]; rfl⟩

theorem payload_append {content more : Bytes} (h : content.length ≤ maxChangeBytes)
    (hmore : more ≠ []) :
    payload (around content ++ more) = .error (.trailingBytes more.length) := by
  rw [payload_eq, (takes_around h).whole more]
  cases more with
  | nil => exact absurd rfl hmore
  | cons head tail => rfl

theorem decodePlain_of_error {bytes : Bytes} {error : EnvelopeError}
    (h : payload bytes = .error error) : decodePlain bytes = .error error := by
  rw [decodePlain, h]
  rfl

theorem decodePlain_plain {change : Change} (h : (plain change).length ≤ maxChangeBytes) :
    decodePlain (plain change) = (Change.ofText change.toJson.render).mapError .payload := by
  have hcontent := (length_le_around (Bytes.utf8 change.toJson.render)).trans h
  rw [plain_eq_around, decodePlain, payload_around hcontent, ok_bind, textOfUtf8?_utf8]

/-! ## Marks -/

section Marks

variable {d : Decompressor}

theorem decodeWith_of_short {bytes : Bytes} (h : bytes.length < 4) :
    decodeWith d bytes = .error (.bytes (.unexpectedEnd "magic")) := by
  rw [decodeWith, if_pos h]
  rfl

theorem decodeWith_of_plainMark {bytes : Bytes} (hplain : bytes.take 4 = plainMark)
    (hcompressed : bytes.take 5 ≠ compressedMark) :
    decodeWith d bytes =
      if maxChangeBytes < bytes.length then
        .error (.changeTooLong bytes.length maxChangeBytes)
      else decodePlain bytes := by
  have hlength : ¬bytes.length < 4 := by
    have htake := congrArg List.length hplain
    simp [plainMark] at htake
    omega
  rw [decodeWith, if_neg hlength, if_neg hcompressed, if_pos hplain]
  split <;> rfl

/-- What begins like a plain envelope is decoded as one unless it ends in the mark. -/
theorem decodeWith_of_start {bytes content more : Bytes}
    (hstart : bytes <+: around content ++ more) :
    decodeWith d bytes =
      if bytes.length < 4 then .error (.bytes (.unexpectedEnd "magic"))
      else if maxChangeBytes < bytes.length then
        .error (.changeTooLong bytes.length maxChangeBytes)
      else decodePlain bytes := by
  by_cases hshort : bytes.length < 4
  · rw [if_pos hshort, decodeWith_of_short hshort]
  · rw [if_neg hshort]
    apply decodeWith_of_plainMark
    · have hmark : plainMark <+: around content ++ more :=
        ⟨envelopeVersion :: Bytes.sized content ++ more, by simp [around]⟩
      have hbytes : plainMark <+: bytes :=
        List.prefix_of_prefix_length_le hmark hstart (Nat.le_of_not_lt hshort)
      exact (List.prefix_iff_eq_take.mp hbytes).symm
    · intro hmarked
      have hcompressed : compressedMark <+: around content ++ more :=
        hmarked ▸ (List.take_prefix 5 bytes).trans hstart
      have hbegin : compressedMark = plainMark ++ [envelopeVersion] :=
        List.prefix_iff_eq_take.mp hcompressed
      exact absurd hbegin (by decide)

theorem decodeWith_plain {change : Change} (h : (plain change).length ≤ maxChangeBytes) :
    decodeWith d (plain change) = (Change.ofText change.toJson.render).mapError .payload := by
  have hmark : ¬(plain change).length < 4 := by
    simp [plain, plainMark]
  rw [← decodePlain_plain h]
  rw [plain_eq_around] at h hmark ⊢
  rw [decodeWith_of_start (List.prefix_append _ []), if_neg hmark, if_neg (Nat.not_lt.mpr h)]

/-- A change within the limits of the array form is decoded as it was. -/
theorem decodeWith_plain_of_exchangeable {change : Change}
    (h : (plain change).length ≤ maxChangeBytes) (hmade : change.diff.Exchangeable)
    (hlinks : change.diff.LinksFit) (hdoubles : change.diff.ReadBack) :
    decodeWith d (plain change) = .ok change := by
  have hread : (ofArray (toArray change.diff) : Except ArrayError EntityDiff) =
      .ok change.diff := by
    rw [hmade.valuesLossless.ofArray_toArray, if_pos hlinks]
  rw [decodeWith_plain h, Change.ofText_render hdoubles, hread]
  rfl

theorem decodeWith_part {content first last : Bytes} (h : (around content).length ≤ maxChangeBytes)
    (hsplit : around content = first ++ last) (hlast : last ≠ []) :
    ∃ context, decodeWith d first = .error (.bytes (.unexpectedEnd context)) := by
  have hstart : first <+: around content ++ [] := ⟨last, by rw [List.append_nil, hsplit]⟩
  rw [decodeWith_of_start hstart]
  split
  · exact ⟨"magic", rfl⟩
  · have hlength : first.length ≤ maxChangeBytes := by
      rw [hsplit, List.length_append] at h
      omega
    obtain ⟨context, hpayload⟩ := payload_part ((length_le_around content).trans h) hsplit hlast
    rw [if_neg (Nat.not_lt.mpr hlength)]
    exact ⟨context, decodePlain_of_error hpayload⟩

theorem decodeWith_append {content more : Bytes} (h : (around content).length ≤ maxChangeBytes)
    (hmore : more ≠ []) :
    decodeWith d (around content ++ more) =
      .error (if maxChangeBytes < (around content ++ more).length then
        .changeTooLong (around content ++ more).length maxChangeBytes
      else .trailingBytes more.length) := by
  have hmark : ¬(around content ++ more).length < 4 := by
    simp [around, plainMark]
  rw [decodeWith_of_start List.prefix_rfl, if_neg hmark, apply_ite Except.error]
  congr
  exact decodePlain_of_error (payload_append ((length_le_around content).trans h) hmore)

end Marks

/-- A change that is within the limits of the array form and is not too long is decoded from
its envelope as it was. If the envelope ends anywhere before its end, the field that is not
whole is reported, and if anything follows it, that is reported with its length, or the whole
is too long. None of these is decompressed, so it does not matter what compressed envelopes the
reader knows. -/
theorem decode_encode_exact (d : Decompressor) {change : Change} (hmade : change.diff.Exchangeable)
    (hlinks : change.diff.LinksFit) (hdoubles : change.diff.ReadBack)
    (hlength : (plain change).length ≤ maxChangeBytes) :
    ∃ bytes, encode change = .ok bytes ∧ decodeWith d bytes = .ok change ∧
      (∀ first last, bytes = first ++ last → last ≠ [] →
        ∃ context, decodeWith d first = .error (.bytes (.unexpectedEnd context))) ∧
      ∀ more, more ≠ [] → decodeWith d (bytes ++ more) =
        .error (if maxChangeBytes < (bytes ++ more).length then
          .changeTooLong (bytes ++ more).length maxChangeBytes
        else .trailingBytes more.length) := by
  refine ⟨plain change, if_neg (Nat.not_lt.mpr hlength),
    decodeWith_plain_of_exchangeable hlength hmade hlinks hdoubles, ?_, ?_⟩
  · exact fun first last => decodeWith_part hlength
  · exact fun more => decodeWith_append hlength

/-! ## A statement that is added -/

/-- The change that gives an item a place. -/
def placed : Change where
  entity := .item .first
  action := .update
  revision := 3
  timestamp := 5
  diff := {
    type := .item
    claims := SortedMap.empty.insert "Q1$1" (.add (Entity.locatedStatement "Q1$1")) }

theorem exchangeable_placed : placed.diff.Exchangeable := by
  have hcapital : (Entity.capital ["Q1$1"]).Exchangeable :=
    EntityDiff.exchangeable_capital (by decide)
  refine ⟨SortedMap.All.empty.insert ⟨nofun, ?_⟩, .empty⟩
  rintro _ ⟨⟩
  exact hcapital.statements _ (List.mem_map_of_mem (List.mem_singleton.mpr rfl))

theorem readBack_placed : placed.diff.ReadBack := by
  refine SortedMap.All.empty.insert ⟨nofun, ?_⟩
  rintro _ ⟨⟩ snak hsnak value hvalue
  change snak ∈ [Snak.value _ _, .noValue _, .someValue _, .someValue _, .noValue _] at hsnak
  simp only [List.mem_cons, List.not_mem_nil, or_false] at hsnak
  rcases hsnak with rfl | rfl | rfl | rfl | rfl
  · cases hvalue
    decide +kernel
  all_goals cases hvalue

theorem length_placed : (plain placed).length ≤ maxChangeBytes := by
  have hchars : placed.toJson.chars.length = 437 := by
    decide +kernel
  exact length_plain_le (hchars.trans_le (by decide))

theorem decode_encode_placed :
    placed.diff.Exchangeable ∧ placed.diff.LinksFit ∧ placed.diff.ReadBack ∧
      (plain placed).length ≤ maxChangeBytes ∧
      ∃ bytes, encode placed = .ok bytes ∧ decode bytes = .ok placed := by
  have hlinks : placed.diff.LinksFit := .inl rfl
  obtain ⟨bytes, hencode, hdecode, -⟩ :=
    decode_encode_exact Frame.decompressor exchangeable_placed hlinks readBack_placed length_placed
  exact ⟨exchangeable_placed, hlinks, readBack_placed, length_placed, bytes, hencode, hdecode⟩

end Envelope

end KnowledgeBase
