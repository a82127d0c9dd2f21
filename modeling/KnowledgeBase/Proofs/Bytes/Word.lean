import KnowledgeBase.Bytes.Word
import KnowledgeBase.Proofs.Bytes
import Mathlib.Data.Nat.Bitwise

/-!
Words against numbers. Masks and shifts on 64-bit words do what remainders, quotients and
powers do on numbers: a group that is put in its place does not meet the bits below it, and
nothing is shifted out of the word before the last group that is allowed, which holds one bit.
-/

namespace KnowledgeBase

namespace Bytes

/-! ## Masks and shifts -/

theorem toNat_and_low (byte : UInt8) : (byte &&& 0x7F).toNat = byte.toNat % 128 := by
  rw [UInt8.toNat_and]
  exact Nat.and_two_pow_sub_one_eq_mod byte.toNat 7

theorem toNat_or_high {byte : UInt8} (h : byte.toNat < 128) :
    (byte ||| 0x80).toNat = byte.toNat + 128 := by
  have hor := Nat.two_pow_add_eq_or_of_lt (i := 7) h 1
  rw [UInt8.toNat_or, Nat.or_comm, Nat.add_comm]
  exact hor.symm

theorem and_high_eq_zero_iff (byte : UInt8) : byte &&& 0x80 = 0 ↔ byte.toNat < 128 := by
  have hbyte := byte.toNat_lt
  have hand : (byte &&& 0x80).toNat = (byte.toNat.testBit 7).toNat * 2 ^ 7 := by
    rw [UInt8.toNat_and]
    exact Nat.and_two_pow byte.toNat 7
  rw [← UInt8.toNat_inj, hand, UInt8.toNat_zero]
  cases hbit : byte.toNat.testBit 7 with
  | false =>
      rw [Nat.testBit_eq_decide_div_mod_eq, decide_eq_false_iff_not] at hbit
      simp only [Bool.toNat_false]
      omega
  | true =>
      rw [Nat.testBit_eq_decide_div_mod_eq, decide_eq_true_iff] at hbit
      simp only [Bool.toNat_true]
      omega

theorem toNat_shiftRight_group (word : UInt64) : (word >>> 7).toNat = word.toNat / 128 := by
  rw [UInt64.toNat_shiftRight]
  exact Nat.shiftRight_eq_div_pow word.toNat 7

/-- A group that stays within the word is put above the bits that are there. -/
theorem toNat_or_shiftLeft {word value : UInt64} {place : Nat} (hplace : place < 10)
    (hword : word.toNat < 128 ^ place) (hvalue : value.toNat * 128 ^ place < 2 ^ 64) :
    (word ||| value <<< UInt64.ofNat (7 * place)).toNat =
      word.toNat + value.toNat * 128 ^ place := by
  have hpower : 128 ^ place = 2 ^ (7 * place) := (Nat.pow_mul 2 7 place).symm
  have hshift : (UInt64.ofNat (7 * place)).toNat % 64 = 7 * place := by
    rw [UInt64.toNat_ofNat']
    omega
  rw [hpower] at hword hvalue ⊢
  rw [UInt64.toNat_or, UInt64.toNat_shiftLeft, hshift, Nat.shiftLeft_eq, Nat.mod_eq_of_lt hvalue,
    Nat.or_comm, Nat.mul_comm, ← Nat.two_pow_add_eq_or_of_lt hword, Nat.add_comm]

/-! ## Writing -/

theorem log2_div_group {n : Nat} (h : 128 ≤ n) : n.log2 = (n / 128).log2 + 7 := by
  obtain ⟨hlow, hhigh⟩ := (Nat.log2_eq_iff (show n / 128 ≠ 0 by omega)).mp rfl
  have hlowPower : 2 ^ ((n / 128).log2 + 7) = 2 ^ (n / 128).log2 * 128 := Nat.pow_add 2 _ 7
  have hhighPower : 2 ^ ((n / 128).log2 + 7 + 1) = 2 ^ ((n / 128).log2 + 1) * 128 := by
    rw [← Nat.pow_add 2 _ 7, Nat.add_right_comm]
  rw [Nat.log2_eq_iff (by omega)]
  omega

/-- A number is written group by group. -/
theorem varint_eq (n : Nat) :
    varint n =
      if n < 128 then [UInt8.ofNat n] else UInt8.ofNat (n % 128 + 128) :: varint (n / 128) := by
  split
  next hsmall =>
    have hgroups : n.log2 / 7 = 0 := by
      rcases Nat.eq_zero_or_pos n with rfl | hpositive
      · rfl
      · have hlog : n.log2 < 7 := (Nat.log2_lt (by omega)).mpr hsmall
        omega
    rw [varint, hgroups, groups]
  next hlarge =>
    have hgroups : n.log2 / 7 = (n / 128).log2 / 7 + 1 := by
      rw [log2_div_group (by omega)]
      omega
    rw [varint, hgroups, groups, varint]

theorem ofWord_eq_varint (value : UInt64) : ofWord value = varint value.toNat := by
  fun_induction ofWord value with
  | case1 value hsmall =>
      have hsmall : value.toNat < 128 := hsmall
      rw [varint_eq, if_pos hsmall, List.cons.injEq, ← UInt8.toNat_inj, UInt8.toNat_ofNat']
      exact ⟨rfl, rfl⟩
  | case2 value hlarge ih =>
      have hlarge : ¬value.toNat < 128 := hlarge
      have hgroup : value.toUInt8 &&& 0x7F ||| 0x80 = UInt8.ofNat (value.toNat % 128 + 128) := by
        have hlow : (value.toUInt8 &&& 0x7F).toNat = value.toNat % 128 := by
          rw [toNat_and_low, UInt64.toNat_toUInt8]
          omega
        rw [← UInt8.toNat_inj, toNat_or_high (by omega), hlow, toNat_followedGroup]
      rw [varint_eq, if_neg hlarge, hgroup, ih, toNat_shiftRight_group]

/-! ## Signs -/

/-- The sign of a word, spread over the whole of it. -/
theorem sshiftRight_sign (word : BitVec 64) :
    word.sshiftRight 63 = if word.msb then BitVec.allOnes 64 else 0#64 := by
  have hshift {low : BitVec 64} (h : low.msb = false) : low >>> 63 = 0#64 := by
    have hlow := BitVec.msb_eq_false_iff_two_mul_lt.mp h
    apply BitVec.eq_of_toNat_eq
    rw [BitVec.toNat_ushiftRight, Nat.shiftRight_eq_div_pow, Nat.div_eq_of_lt (by omega)]
    rfl
  cases hsign : word.msb with
  | false =>
      rw [BitVec.sshiftRight_eq_of_msb_false hsign, hshift hsign]
      rfl
  | true =>
      rw [BitVec.sshiftRight_eq_of_msb_true hsign, hshift (by simp [hsign])]
      rfl

theorem toNat_zigzagWord (value : Int64) : (zigzagWord value).toNat = zigzag value.toInt := by
  have hword : (zigzagWord value).toBitVec =
      (value.toBitVec <<< 1) ^^^ value.toBitVec.sshiftRight 63 := by
    simp [zigzagWord]
  have hdouble : (value.toBitVec <<< 1).toNat = 2 * value.toBitVec.toNat % 2 ^ 64 := by
    rw [BitVec.toNat_shiftLeft, Nat.shiftLeft_eq, Nat.mul_comm]
  have hvalue : value.toInt = value.toBitVec.toInt := rfl
  have hbound := value.toBitVec.isLt
  rw [← UInt64.toNat_toBitVec, hword, sshiftRight_sign, hvalue, BitVec.toInt_eq_msb_cond, zigzag]
  cases hsign : value.toBitVec.msb with
  | false =>
      have hlow := BitVec.msb_eq_false_iff_two_mul_lt.mp hsign
      simp only [Bool.false_eq_true, if_false, BitVec.xor_zero, hdouble]
      split <;> omega
  | true =>
      have hhigh := BitVec.msb_eq_true_iff_two_mul_ge.mp hsign
      simp only [if_true, BitVec.xor_allOnes, BitVec.toNat_not, hdouble]
      split <;> omega

theorem ofSignedWord_eq_signed (value : Int64) : ofSignedWord value = signed value.toInt := by
  rw [ofSignedWord, ofWord_eq_varint, toNat_zigzagWord, signed]

end Bytes

/-! ## Reading -/

namespace ByteReader

/-- A group does not reach beyond the word; the tenth one must be a single bit. -/
theorem group_lt_word {value place : Nat} (hplace : place < 10) (hvalue : value < 128)
    (hlast : place = 9 → value ≤ 1) : value * 128 ^ place < 2 ^ 64 := by
  rcases Nat.lt_or_ge place 9 with hearlier | hend
  · calc value * 128 ^ place ≤ 127 * 128 ^ 8 :=
          Nat.mul_le_mul (by omega) (Nat.pow_le_pow_right (by decide) (by omega))
      _ < 2 ^ 64 := by decide
  · obtain rfl : place = 9 := by omega
    calc value * 128 ^ 9 ≤ 1 * 128 ^ 9 := Nat.mul_le_mul (hlast rfl) (Nat.le_refl _)
      _ < 2 ^ 64 := by decide

/-- The groups that are allowed and those before them are ten, and what these hold is a number
below the power of the place. -/
theorem toNat_wordFrom (context : String) {left place : Nat} {word : UInt64}
    (hplace : place + left = 10) (hword : word.toNat < 128 ^ place) :
    UInt64.toNat <$> wordFrom context left place word =
      varintFrom context left (128 ^ place) word.toNat := by
  induction left generalizing place word with
  | zero => rfl
  | succ left ih =>
      rw [wordFrom, varintFrom, map_bind]
      congr
      funext next
      have hvalue : (next &&& 0x7F).toUInt64.toNat = next.toNat % 128 := by
        rw [UInt8.toNat_toUInt64, Bytes.toNat_and_low]
      have hlast : (7 * place = 63 ∧ 1 < (next &&& 0x7F).toUInt64) ↔
          left = 0 ∧ 1 < next.toNat % 128 := by
        rw [UInt64.lt_iff_toNat_lt, hvalue, UInt64.toNat_one]
        omega
      by_cases hover : left = 0 ∧ 1 < next.toNat % 128
      · simp only [if_pos (hlast.mpr hover), if_pos hover]
        rfl
      · have hgroup : next.toNat % 128 < 128 := Nat.mod_lt _ (by decide)
        have hfits : next.toNat % 128 * 128 ^ place < 2 ^ 64 :=
          group_lt_word (by omega) hgroup (by omega)
        have hsum := Bytes.toNat_or_shiftLeft (by omega) hword (hvalue.symm ▸ hfits)
        rw [hvalue] at hsum
        simp only [if_neg (mt hlast.mp hover), if_neg hover, Bytes.and_high_eq_zero_iff]
        split
        next => rw [map_pure, hsum]
        next =>
          have hnext : word.toNat + next.toNat % 128 * 128 ^ place < 128 ^ (place + 1) := by
            calc word.toNat + next.toNat % 128 * 128 ^ place
                < 128 ^ place + next.toNat % 128 * 128 ^ place := Nat.add_lt_add_right hword _
              _ = (next.toNat % 128 + 1) * 128 ^ place := by rw [Nat.succ_mul, Nat.add_comm]
              _ ≤ 128 * 128 ^ place := Nat.mul_le_mul_right _ hgroup
              _ = 128 ^ (place + 1) := by rw [Nat.pow_succ, Nat.mul_comm]
          rw [← Nat.pow_succ, ← hsum]
          exact ih (by omega) (by rw [hsum]; exact hnext)

theorem toNat_word (context : String) : UInt64.toNat <$> word context = varint context :=
  toNat_wordFrom context rfl (by decide)

end ByteReader

end KnowledgeBase
