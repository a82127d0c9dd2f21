import KnowledgeBase.Proofs.Change.Envelope
import KnowledgeBase.Proofs.Compression.Stored
import Mathlib.Data.List.Permutation

/-!
Compressed envelopes. They declare how much is compressed in them, and one byte more than that
is asked for. That is enough to refuse whatever is not exactly a plain envelope of the
declared length, with nothing after it.
-/

namespace KnowledgeBase.Envelope

open ArrayForm

/-- A compressed envelope that declares `size` bytes. -/
def compressed (size : Nat) (frames : Bytes) : Bytes :=
  compressedMark ++ Bytes.varint size ++ frames

variable {d : Decompressor} {size : Nat} {frames content : Bytes}

/-! ## The declared size -/

theorem run_varintFrom_cons (context : String) (count weight sum : Nat) (next : UInt8)
    (rest : Bytes) :
    (field (ByteReader.varintFrom context (count + 1) weight sum)).run (next :: rest) =
      if count = 0 ∧ 1 < next.toNat % 128 then .error (.bytes .varintOverflow)
      else if next.toNat < 128 then .ok (sum + next.toNat % 128 * weight, rest)
      else (field (ByteReader.varintFrom context count (weight * 128)
        (sum + next.toNat % 128 * weight))).run rest := by
  have hnext : (field (ByteReader.byte context)).run (next :: rest) = .ok (next, rest) :=
    (takes_byte context next).whole rest
  rw [field_varintFrom, run_bind_ok hnext]
  by_cases hlast : count = 0 ∧ 1 < next.toNat % 128
  · rw [if_pos hlast, if_pos hlast]
    rfl
  · rw [if_neg hlast, if_neg hlast]
    split <;> rfl

/-- A number is refused if it has more than a single bit in the last group that is allowed. -/
theorem field_varintFrom_error (context : String) {count more n : Nat}
    (hgroups : n < 128 ^ (more + 1)) (hn : 2 * 128 ^ count ≤ n) (weight sum : Nat) (rest : Bytes) :
    ∃ error, (field (ByteReader.varintFrom context (count + 1) weight sum)).run
      (Bytes.groups more n ++ rest) = .error (.bytes error) := by
  induction count generalizing more n weight sum with
  | zero =>
      cases more with
      | zero =>
          have hvalue : (UInt8.ofNat n).toNat % 128 = n := by
            rw [UInt8.toNat_ofNat']
            omega
          rw [Bytes.groups, List.singleton_append, run_varintFrom_cons, hvalue,
            if_pos ⟨rfl, by omega⟩]
          exact ⟨_, rfl⟩
      | succ more =>
          rw [Bytes.groups, List.cons_append, run_varintFrom_cons, Bytes.toNat_followedGroup]
          split
          · exact ⟨_, rfl⟩
          · rw [if_neg (by omega)]
            exact ⟨.varintTooLong, rfl⟩
  | succ count ih =>
      have hpower : 0 < 128 ^ count := Nat.pow_pos (by decide)
      rw [Nat.pow_succ] at hn
      cases more with
      | zero => omega
      | succ more =>
          rw [Bytes.groups, List.cons_append, run_varintFrom_cons, Bytes.toNat_followedGroup,
            if_neg (by omega), if_neg (by omega)]
          exact ih (Bytes.higherGroups_lt hgroups) (by omega) _ _

theorem decompressWith_varint (h : size ≤ maxChangeBytes) :
    decompressWith d (Bytes.varint size ++ frames) =
      match d.content? size frames with
      | some content =>
          if content.length = size then .ok content
          else .error (.sizeMismatch size content.length)
      | none => .error .decompressionFailed := by
  have hword : size < 2 ^ 64 := by
    unfold maxChangeBytes at h
    omega
  have hdeclared := (takes_varint "uncompressed_size" hword).whole frames
  rw [decompressWith, field_bind, run_bind_ok hdeclared, if_neg (Nat.not_lt.mpr h)]
  have hrun : (field (pure size)).run frames = .ok (size, frames) := rfl
  rw [hrun, ok_bind]
  cases hread : d.content? size frames with
  | none =>
      simp only [hread]
      rfl
  | some content =>
      simp only [hread]
      rfl

/-- A declared size beyond the bound on changes is refused, whether or not it fits a word. -/
theorem decompressWith_varint_error (d : Decompressor) (frames : Bytes)
    (h : maxChangeBytes < size) :
    ∃ error, decompressWith d (Bytes.varint size ++ frames) = .error (.bytes error) := by
  rw [decompressWith, field_bind]
  by_cases hword : size < 2 ^ 64
  · have hdeclared := (takes_varint "uncompressed_size" hword).whole frames
    rw [run_bind_ok hdeclared, if_pos h]
    exact ⟨_, rfl⟩
  · obtain ⟨error, hrefused⟩ : ∃ error, (field (ByteReader.varint "uncompressed_size")).run
        (Bytes.varint size ++ frames) = .error (.bytes error) :=
      field_varintFrom_error "uncompressed_size" (Bytes.lt_of_groups size)
        (show 2 * 128 ^ 9 ≤ size by omega) 1 0 frames
    exact ⟨error, by rw [run_bind_error hrefused]; rfl⟩

theorem decodeWith_compressed :
    decodeWith d (compressed size frames) =
      decompressWith d (Bytes.varint size ++ frames) >>= decodePlain := by
  have hlength : ¬(compressed size frames).length < 4 := by
    simp [compressed, compressedMark, plainMark]
  have hmark : (compressed size frames).take 5 = compressedMark := rfl
  have hrest : (compressed size frames).drop 5 = Bytes.varint size ++ frames := rfl
  rw [decodeWith, if_neg hlength, hmark, if_pos rfl, hrest]

/-! ## The content -/

theorem payload_marked {bytes : Bytes} (h : payload bytes = .ok content) :
    plainMark ++ [envelopeVersion] <+: bytes := by
  have hrun := run_bytes 4 "magic" bytes
  rw [payload_eq, plainFields] at h
  by_cases hshort : bytes.length < 4
  · rw [if_pos hshort] at hrun
    rw [run_bind_error hrun] at h
    cases h
  · rw [if_neg hshort] at hrun
    rw [run_bind_ok hrun] at h
    by_cases hmark : bytes.take 4 = plainMark
    · rw [hmark, if_neg (not_not.mpr rfl)] at h
      cases hrest : bytes.drop 4 with
      | nil =>
          rw [hrest] at h
          cases h
      | cons version rest =>
          have hnext : (field (ByteReader.byte "version")).run (version :: rest) =
              .ok (version, rest) := (takes_byte "version" version).whole rest
          rw [hrest, run_bind_ok hnext] at h
          by_cases hversion : version = envelopeVersion
          · refine ⟨rest, ?_⟩
            rw [← List.take_append_drop 4 bytes, hmark, hrest, hversion, List.append_assoc]
            rfl
          · rw [if_pos hversion] at h
            cases h
    · rw [if_pos hmark] at h
      cases h

/-- What is taken for a plain envelope inside a compressed one is what is decoded on its own
and is not compressed. -/
theorem decodePlain_eq_ok_iff {change : Change} (h : content.length ≤ maxChangeBytes) :
    decodePlain content = .ok change ↔
      content.take 5 ≠ compressedMark ∧ decodeWith d content = .ok change := by
  constructor
  · intro hplain
    cases hpayload : payload content with
    | error error =>
        rw [decodePlain_of_error hpayload] at hplain
        cases hplain
    | ok written =>
        obtain ⟨rest, rfl⟩ := payload_marked hpayload
        have hmark : (plainMark ++ [envelopeVersion] ++ rest).take 4 = plainMark := rfl
        have hversion : (plainMark ++ [envelopeVersion] ++ rest).take 5 ≠ compressedMark := by
          change plainMark ++ [envelopeVersion] ≠ compressedMark
          decide
        refine ⟨hversion, ?_⟩
        rw [decodeWith_of_plainMark hmark hversion, if_neg (Nat.not_lt.mpr h)]
        exact hplain
  · rintro ⟨hcompressed, hdecode⟩
    by_cases hmark : content.take 4 = plainMark
    · rwa [decodeWith_of_plainMark hmark hcompressed, if_neg (Nat.not_lt.mpr h)] at hdecode
    · by_cases hshort : content.length < 4
      · rw [decodeWith_of_short hshort] at hdecode
        cases hdecode
      · rw [decodeWith, if_neg hshort, if_neg hcompressed, if_neg hmark] at hdecode
        cases hdecode

/-! ## Decoding -/

/-- Accepted content is decoded if it has the declared length. Otherwise its length is
reported, or one byte more than the declared one if there are more. -/
theorem decodeWith_of_accepts (h : d.Accepts (d.start frames) content)
    (hsize : size ≤ maxChangeBytes) :
    decodeWith d (compressed size frames) =
      if content.length = size then decodePlain content
      else .error (.sizeMismatch size (min content.length (size + 1))) := by
  have hlength : (content.take (size + 1)).length = min content.length (size + 1) := by
    rw [List.length_take, Nat.min_comm]
  rw [decodeWith_compressed, decompressWith_varint hsize, d.content?_of_accepts h]
  by_cases hexact : content.length = size
  · have hall : content.take (size + 1) = content := List.take_of_length_le (by omega)
    simp only [hall, if_pos hexact]
    rfl
  · have hother : min content.length (size + 1) ≠ size := by omega
    simp only [hlength, if_neg hother, if_neg hexact]
    rfl

theorem decodeWith_of_long (d : Decompressor) (frames : Bytes) (h : maxChangeBytes < size) :
    ∃ error, decodeWith d (compressed size frames) = .error (.bytes error) := by
  obtain ⟨error, hrefused⟩ := decompressWith_varint_error d frames h
  exact ⟨error, by rw [decodeWith_compressed, hrefused]; rfl⟩

theorem delivers_of_decodeWith {change : Change}
    (h : decodeWith d (compressed size frames) = .ok change) :
    size ≤ maxChangeBytes ∧ ∃ content, d.Delivers (d.start frames) content ∧
      content.length = size ∧ decodePlain content = .ok change := by
  by_cases hlong : maxChangeBytes < size
  · obtain ⟨error, hrefused⟩ := decodeWith_of_long d frames hlong
    rw [hrefused] at h
    cases h
  · have hsize := Nat.not_lt.mp hlong
    refine ⟨hsize, ?_⟩
    rw [decodeWith_compressed, decompressWith_varint hsize] at h
    cases hread : d.content? size frames with
    | none =>
        rw [hread] at h
        cases h
    | some content =>
        rw [hread] at h
        by_cases hlength : content.length = size
        · simp only [if_pos hlength] at h
          exact ⟨content, d.delivers_of_content? hread (Nat.le_of_eq hlength), hlength, h⟩
        · simp only [if_neg hlength] at h
          cases h

theorem encode_eq_ok {change : Change} {bytes : Bytes} (h : encode change = .ok bytes) :
    bytes = plain change ∧ (plain change).length ≤ maxChangeBytes := by
  by_cases hlong : maxChangeBytes < (plain change).length
  · have hrefused : encode change = .error (.changeTooLong (plain change).length maxChangeBytes) :=
      if_pos hlong
    rw [hrefused] at h
    cases h
  · have hplain : encode change = .ok (plain change) := if_neg hlong
    exact ⟨Except.ok.inj (h.symm.trans hplain), Nat.not_lt.mp hlong⟩

/-- What is compressed of an encoded change is decoded with the right length as that change is
on its own, and with no other length. -/
theorem decodeWith_compressed_encode {change : Change} {bytes : Bytes}
    (hencode : encode change = .ok bytes) (h : d.Accepts (d.start frames) bytes) :
    decodeWith d (compressed bytes.length frames) = decodeWith d bytes ∧
      ∀ size, size ≠ bytes.length →
        ∃ error, decodeWith d (compressed size frames) = .error error ∧
          (size ≤ maxChangeBytes →
            error = .sizeMismatch size (min bytes.length (size + 1))) := by
  obtain ⟨rfl, hlength⟩ := encode_eq_ok hencode
  refine ⟨?_, fun size hother => ?_⟩
  · rw [decodeWith_of_accepts h hlength, if_pos rfl, decodePlain_plain hlength,
      decodeWith_plain hlength]
  · by_cases hlong : maxChangeBytes < size
    · obtain ⟨error, hrefused⟩ := decodeWith_of_long d frames hlong
      exact ⟨_, hrefused, fun hsize => absurd hsize (Nat.not_le_of_lt hlong)⟩
    · rw [decodeWith_of_accepts h (Nat.not_lt.mp hlong), if_neg (Ne.symm hother)]
      exact ⟨_, rfl, fun _ => rfl⟩

/-- A compressed envelope is decoded only if the bytes in it are read to their end, as exactly
as many as are declared, and these are a plain envelope that is decoded. If the verdict on the
bytes does not depend on how they are read, it is decoded whenever they are accepted as such. So
what is compressed of an encoded change is decoded with its own length as that change is on its
own, and with no other length. -/
theorem decodeWith_compressed_exact (d : Decompressor) (frames : Bytes) :
    (∀ size change, decodeWith d (compressed size frames) = .ok change →
      size ≤ maxChangeBytes ∧ ∃ content, d.Delivers (d.start frames) content ∧
        content.length = size ∧ content.take 5 ≠ compressedMark ∧
        decodeWith d content = .ok change) ∧
      (d.Steady frames → ∀ size change, decodeWith d (compressed size frames) = .ok change ↔
        size ≤ maxChangeBytes ∧ ∃ content, d.Accepts (d.start frames) content ∧
          content.length = size ∧ content.take 5 ≠ compressedMark ∧
          decodeWith d content = .ok change) ∧
      ∀ change bytes, encode change = .ok bytes → d.Accepts (d.start frames) bytes →
        decodeWith d (compressed bytes.length frames) = decodeWith d bytes ∧
        (change.diff.Exchangeable → change.diff.LinksFit → change.diff.ReadBack →
          decodeWith d (compressed bytes.length frames) = .ok change) ∧
        ∀ size, size ≠ bytes.length →
          ∃ error, decodeWith d (compressed size frames) = .error error ∧
            (size ≤ maxChangeBytes →
              error = .sizeMismatch size (min bytes.length (size + 1))) := by
  have honly (size : Nat) (change : Change)
      (hdecode : decodeWith d (compressed size frames) = .ok change) :
      size ≤ maxChangeBytes ∧ ∃ content, d.Delivers (d.start frames) content ∧
        content.length = size ∧ content.take 5 ≠ compressedMark ∧
        decodeWith d content = .ok change := by
    obtain ⟨hsize, content, hdelivers, hlength, hplain⟩ := delivers_of_decodeWith hdecode
    exact ⟨hsize, content, hdelivers, hlength,
      (decodePlain_eq_ok_iff (hlength ▸ hsize)).mp hplain⟩
  refine ⟨honly, ?_, ?_⟩
  · intro hsteady size change
    constructor
    · intro hdecode
      obtain ⟨hsize, content, hdelivers, hcontent⟩ := honly size change hdecode
      exact ⟨hsize, content, hsteady content hdelivers, hcontent⟩
    · rintro ⟨hsize, content, haccepts, hlength, hplain⟩
      rw [decodeWith_of_accepts haccepts hsize, if_pos hlength]
      exact (decodePlain_eq_ok_iff (hlength ▸ hsize)).mpr hplain
  · intro change bytes hencode haccepts
    obtain ⟨hsame, hothers⟩ := decodeWith_compressed_encode hencode haccepts
    refine ⟨hsame, fun hmade hlinks hdoubles => ?_, hothers⟩
    obtain ⟨rfl, hlength⟩ := encode_eq_ok hencode
    rw [hsame, decodeWith_plain_of_exchangeable hlength hmade hlinks hdoubles]

/-! ## Stored changes -/

theorem maxChangeBytes_le_maxWindow : maxChangeBytes ≤ Frame.maxWindow := by decide

/-- The content that is stored in a frame is accepted as what it is. -/
theorem accepts_store_plain {change : Change} (h : (plain change).length ≤ maxChangeBytes) :
    Frame.decompressor.Accepts (Frame.decompressor.start (Frame.store (plain change)))
      (plain change) :=
  Frame.accepts_store (h.trans maxChangeBytes_le_maxWindow)

theorem decode_compressed_placed :
    Frame.decompressor.Steady (Frame.store (plain placed)) ∧
      encode placed = .ok (plain placed) ∧
      Frame.decompressor.Accepts (Frame.decompressor.start (Frame.store (plain placed)))
        (plain placed) ∧
      decode (compressed (plain placed).length (Frame.store (plain placed))) = .ok placed ∧
      (plain placed).length ≤ maxChangeBytes ∧
      ∀ size, size ≠ (plain placed).length →
        ∃ error, decode (compressed size (Frame.store (plain placed))) = .error error := by
  have haccepts := accepts_store_plain length_placed
  have hencode : encode placed = .ok (plain placed) := if_neg (Nat.not_lt.mpr length_placed)
  obtain ⟨-, hiff, hencoded⟩ :=
    decodeWith_compressed_exact Frame.decompressor (Frame.store (plain placed))
  obtain ⟨-, hplaced, hothers⟩ := hencoded placed (plain placed) hencode haccepts
  have hdecode := hplaced exchangeable_placed (.inl rfl) readBack_placed
  refine ⟨haccepts.steady, hencode, haccepts, hdecode, ?_, ?_⟩
  · exact ((hiff haccepts.steady _ _).mp hdecode).1
  · intro size hother
    obtain ⟨error, hrefused, -⟩ := hothers size hother
    exact ⟨error, hrefused⟩

/-- The change that adds a statement whose identifier is too long for readers. -/
def overlong : Change where
  entity := .item .first
  action := .update
  revision := 3
  timestamp := 5
  diff := {
    type := .item
    claims := SortedMap.empty.insert Entity.longGuid
      (.add ((StatementBuilder.ofSnak (.noValue Entity.location)).guid Entity.longGuid).build) }

theorem readBack_overlong : overlong.diff.ReadBack := by
  refine SortedMap.All.empty.insert ⟨nofun, ?_⟩
  rintro _ ⟨⟩ snak hsnak value hvalue
  rw [List.mem_singleton.mp hsnak] at hvalue
  cases hvalue

set_option maxRecDepth 4000 in
theorem length_overlong : (plain overlong).length ≤ maxChangeBytes := by
  have hchars : overlong.toJson.chars.length = 716 := by
    cbv
  exact length_plain_le (hchars.trans_le (by decide))

set_option maxRecDepth 4000 in
theorem ofArray_overlong :
    (ofArray (toArray overlong.diff) : Except ArrayError EntityDiff) =
      .error (.lengthExceedsLimit "g" 256 255) := by
  rfl

/-- Not all that is encoded is decoded again, compressed or not. -/
theorem decode_compressed_overlong :
    encode overlong = .ok (plain overlong) ∧
      Frame.decompressor.Accepts (Frame.decompressor.start (Frame.store (plain overlong)))
        (plain overlong) ∧
      decode (compressed (plain overlong).length (Frame.store (plain overlong))) =
        .error (.payload (.array (.lengthExceedsLimit "g" 256 255))) := by
  have haccepts := accepts_store_plain length_overlong
  refine ⟨if_neg (Nat.not_lt.mpr length_overlong), haccepts, ?_⟩
  rw [decode, decodeWith_of_accepts haccepts length_overlong, if_pos rfl,
    decodePlain_plain length_overlong, Change.ofText_render readBack_overlong, ofArray_overlong]
  rfl

end KnowledgeBase.Envelope
