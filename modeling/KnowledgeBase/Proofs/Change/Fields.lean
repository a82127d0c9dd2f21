import KnowledgeBase.Change.Envelope
import KnowledgeBase.Proofs.Bytes
import Mathlib.Tactic.Ring

/-!
The fields of an envelope against their writers. A field is taken off the front of whatever
begins with it, and bytes that end inside a field are reported as having ended. Readers put
together from such readers are of the same kind.
-/

namespace KnowledgeBase.Envelope

variable {α β : Type}

/-- Readers of what stands in an envelope. -/
abbrev Fields (α : Type) := StateT Bytes (Except EnvelopeError) α

/-- Whether a reader takes `taken` off the front of all bytes that begin with it and gives
`value`, and complains of an early end if there is only a part of it. -/
structure Takes (reader : Fields α) (taken : Bytes) (value : α) : Prop where
  whole : ∀ rest, reader.run (taken ++ rest) = .ok (value, rest)
  part : ∀ first last, taken = first ++ last → last ≠ [] →
    ∃ context, reader.run first = .error (.bytes (.unexpectedEnd context))

theorem run_bind_ok {reader : Fields α} {bytes rest : Bytes} {value : α}
    (h : reader.run bytes = .ok (value, rest)) (next : α → Fields β) :
    (reader >>= next).run bytes = (next value).run rest := by
  rw [StateT.run_bind, h]
  rfl

theorem run_bind_error {reader : Fields α} {bytes : Bytes} {error : EnvelopeError}
    (h : reader.run bytes = .error error) (next : α → Fields β) :
    (reader >>= next).run bytes = .error error := by
  rw [StateT.run_bind, h]
  rfl

theorem takes_pure (value : α) : Takes (pure value) [] value where
  whole _ := rfl
  part _ _ h hlast := absurd (List.append_eq_nil_iff.mp h.symm).2 hlast

theorem Takes.bind {reader : Fields α} {next : α → Fields β} {taken taken' : Bytes}
    {value : α} {value' : β} (h : Takes reader taken value)
    (h' : Takes (next value) taken' value') : Takes (reader >>= next) (taken ++ taken') value' where
  whole rest := by
    rw [List.append_assoc, run_bind_ok (h.whole _)]
    exact h'.whole rest
  part first last hsplit hlast := by
    rcases List.append_eq_append_iff.mp hsplit with ⟨more, rfl, hrest⟩ | ⟨more, htaken, hrest⟩
    · rw [run_bind_ok (h.whole more)]
      exact h'.part more last hrest hlast
    · by_cases hmore : more = []
      · subst hmore
        obtain rfl : taken = first := by simpa using htaken
        obtain rfl : last = taken' := by simpa using hrest
        have hwhole := h.whole []
        rw [List.append_nil] at hwhole
        rw [run_bind_ok hwhole]
        exact h'.part [] last rfl hlast
      · obtain ⟨context, hrun⟩ := h.part first more htaken hmore
        exact ⟨context, run_bind_error hrun next⟩

/-! ## Single fields -/

theorem field_bind (reader : ByteReader α) (next : α → ByteReader β) :
    field (reader >>= next) = field reader >>= fun value => field (next value) := by
  funext bytes
  change field (reader >>= next) bytes =
    (field reader bytes >>= fun found => field (next found.1) found.2)
  simp only [field, ExceptT.run_bind, StateT.run_bind]
  cases reader.run.run bytes with
  | mk result rest => cases result <;> rfl

theorem takes_byte (context : String) (value : UInt8) :
    Takes (field (ByteReader.byte context)) [value] value where
  whole _ := rfl
  part first last h hlast := by
    cases first with
    | nil => exact ⟨context, rfl⟩
    | cons head tail =>
        have hrest : [] = tail ++ last := (List.cons.inj h).2
        exact absurd (List.append_eq_nil_iff.mp hrest.symm).2 hlast

theorem run_bytes (count : Nat) (context : String) (left : Bytes) :
    (field (ByteReader.bytes count context)).run left =
      if left.length < count then .error (.bytes (.unexpectedEnd context))
      else .ok (left.take count, left.drop count) := by
  have hget : (field (get : ByteReader Bytes)).run left = .ok (left, left) := rfl
  rw [ByteReader.bytes, field_bind, run_bind_ok hget]
  by_cases hshort : left.length < count
  · simp only [if_pos hshort]
    rfl
  · simp only [if_neg hshort]
    rfl

theorem takes_bytes (context : String) (taken : Bytes) :
    Takes (field (ByteReader.bytes taken.length context)) taken taken where
  whole rest := by
    rw [run_bytes, if_neg (by simp)]
    simp
  part first last h hlast := by
    have hlength : 0 < last.length := List.length_pos_iff.mpr hlast
    rw [run_bytes, if_pos (by rw [h, List.length_append]; omega)]
    exact ⟨context, rfl⟩

/-- One group of a number: it is the last one, or others follow it. -/
theorem field_varintFrom (context : String) (count weight sum : Nat) :
    field (ByteReader.varintFrom context (count + 1) weight sum) = (do
      let next ← field (ByteReader.byte context)
      if count = 0 ∧ 1 < next.toNat % 128 then throw (.bytes .varintOverflow)
      else if next.toNat < 128 then return sum + next.toNat % 128 * weight
      else field (ByteReader.varintFrom context count (weight * 128)
        (sum + next.toNat % 128 * weight))) := by
  rw [ByteReader.varintFrom, field_bind]
  congr
  funext next
  by_cases hlast : count = 0 ∧ 1 < next.toNat % 128
  · simp only [if_pos hlast]
    rfl
  · simp only [if_neg hlast]
    by_cases hend : next.toNat < 128
    · simp only [if_pos hend]
      rfl
    · simp only [if_neg hend]

/-- Groups are read one by one. The last one that is allowed must be small. -/
theorem takes_groups (context : String) {count more n : Nat} (hcount : more < count)
    (hn : n < 128 ^ (more + 1)) (hlast : more + 1 = count → n < 2 * 128 ^ more)
    (weight sum : Nat) :
    Takes (field (ByteReader.varintFrom context count weight sum)) (Bytes.groups more n)
      (sum + n * weight) := by
  obtain ⟨rest, rfl⟩ : ∃ rest, count = rest + 1 := ⟨count - 1, by omega⟩
  rw [field_varintFrom]
  induction more generalizing n rest weight sum with
  | zero =>
      have hbyte : (UInt8.ofNat n).toNat = n := by
        rw [UInt8.toNat_ofNat', Nat.mod_eq_of_lt (by omega)]
      have hvalue : n % 128 = n := Nat.mod_eq_of_lt (by omega)
      change Takes _ ([UInt8.ofNat n] ++ []) _
      refine (takes_byte context (UInt8.ofNat n)).bind ?_
      rw [hbyte, hvalue, if_neg (by omega), if_pos (by omega)]
      exact takes_pure _
  | succ more ih =>
      obtain ⟨rest, rfl⟩ : ∃ others, rest = others + 1 := ⟨rest - 1, by omega⟩
      have hvalue : (n % 128 + 128) % 128 = n % 128 := by omega
      have hsum : sum + n % 128 * weight + n / 128 * (weight * 128) = sum + n * weight := by
        calc sum + n % 128 * weight + n / 128 * (weight * 128)
            = sum + (n % 128 + 128 * (n / 128)) * weight := by ring
          _ = sum + n * weight := by rw [Nat.mod_add_div]
      refine (takes_byte context _).bind ?_
      have hlast : more + 1 = rest + 1 → n / 128 < 2 * 128 ^ more := by
        intro hend
        have hsmall : n < 2 * 128 ^ (more + 1) := hlast (by omega)
        rw [Nat.pow_succ, ← Nat.mul_assoc, Nat.mul_comm] at hsmall
        exact Nat.div_lt_of_lt_mul hsmall
      rw [Bytes.toNat_followedGroup, hvalue, if_neg (by omega), if_neg (by omega), ← hsum,
        field_varintFrom]
      exact ih (Bytes.higherGroups_lt hn) _ _ rest (by omega) hlast

theorem takes_varint (context : String) {n : Nat} (h : n < 2 ^ 64) :
    Takes (field (ByteReader.varint context)) (Bytes.varint n) n := by
  have hbits : n.log2 / 7 < 10 := by
    rcases Nat.eq_zero_or_pos n with rfl | hpos
    · decide
    · have hlog : n.log2 < 64 := (Nat.log2_lt (by omega)).mpr h
      omega
  have hlast : n.log2 / 7 + 1 = 10 → n < 2 * 128 ^ (n.log2 / 7) := by
    intro hlast
    rw [show n.log2 / 7 = 9 by omega]
    omega
  simpa [ByteReader.varint, Bytes.varint] using
    takes_groups context hbits (Bytes.lt_of_groups n) hlast 1 0

theorem takes_sized {limit : Nat} (name : String) {content : Bytes}
    (h : content.length ≤ limit) (hlimit : limit < 2 ^ 64) :
    Takes (field (ByteReader.sized limit name)) (Bytes.sized content) content := by
  rw [ByteReader.sized, field_bind]
  refine (takes_varint name (by omega)).bind ?_
  rw [if_neg (by omega)]
  exact takes_bytes name content

end KnowledgeBase.Envelope
