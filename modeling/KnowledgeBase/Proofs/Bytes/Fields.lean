import KnowledgeBase.Proofs.Bytes.Word
import KnowledgeBase.Proofs.Change.Fields
import Mathlib.Algebra.BigOperators.Fin

/-!
Reading fields. What was written field by field is read field by field as it was, and what
follows is left. A number is read from any bytes whose groups come to an end within ten and
within a word; which of the errors is reported otherwise is told by the first ten bytes.
-/

namespace KnowledgeBase.ByteReader

/-! ## Groups -/

/-- What groups say in seven bits each, the first of them being the least significant. -/
def groupSum (groups : Bytes) : Nat :=
  ∑ place : Fin groups.length, groups[place].toNat % 128 * 128 ^ place.val

/-- Whether each group says by its high bit that another one follows it. -/
def Followed (groups : Bytes) : Prop := ∀ group ∈ groups, 128 ≤ group.toNat

theorem groupSum_cons (group : UInt8) (groups : Bytes) :
    groupSum (group :: groups) = group.toNat % 128 + 128 * groupSum groups := by
  rw [groupSum, groupSum, Finset.mul_sum]
  refine (Fin.sum_univ_succ _).trans ?_
  congr 1
  · exact Nat.mul_one _
  · apply Finset.sum_congr rfl
    intro place _
    change groups[place].toNat % 128 * 128 ^ (place.val + 1) = _
    rw [Nat.pow_succ, Nat.mul_comm (128 ^ place.val), Nat.mul_left_comm]

theorem groupSum_append_singleton (front : Bytes) (last : UInt8) :
    groupSum (front ++ [last]) = groupSum front + last.toNat % 128 * 128 ^ front.length := by
  induction front with
  | nil => simp [groupSum]
  | cons group front ih =>
      rw [List.cons_append, groupSum_cons, groupSum_cons, ih, List.length_cons, Nat.pow_succ,
        Nat.mul_add, Nat.add_assoc, Nat.mul_left_comm, Nat.mul_comm 128 (128 ^ _)]

theorem groupSum_lt (groups : Bytes) : groupSum groups < 128 ^ groups.length := by
  induction groups with
  | nil => simp [groupSum]
  | cons group groups ih =>
      have hgroup : group.toNat % 128 < 128 := Nat.mod_lt _ (by decide)
      rw [groupSum_cons, List.length_cons, Nat.pow_succ]
      omega

theorem Followed.cons {group : UInt8} {groups : Bytes} (h : Followed (group :: groups)) :
    128 ≤ group.toNat ∧ Followed groups :=
  List.forall_mem_cons.mp h

/-! ## Numbers -/

variable {context : String} {left : Nat}

theorem run_byte_bind {α : Type} (next : UInt8 → ByteReader α) (first : UInt8) (rest : Bytes) :
    (byte context >>= next).run.run (first :: rest) = (next first).run.run rest := rfl

theorem run_varintFrom_nil (weight sum : Nat) :
    (varintFrom context (left + 1) weight sum).run.run [] =
      (.error (.unexpectedEnd context), []) := rfl

theorem run_varintFrom_cons (weight sum : Nat) (next : UInt8) (rest : Bytes) :
    (varintFrom context (left + 1) weight sum).run.run (next :: rest) =
      if left = 0 ∧ 1 < next.toNat % 128 then (.error .varintOverflow, rest)
      else if next.toNat < 128 then (.ok (sum + next.toNat % 128 * weight), rest)
      else (varintFrom context left (weight * 128) (sum + next.toNat % 128 * weight)).run.run
        rest := by
  rw [varintFrom, run_byte_bind]
  by_cases hlast : left = 0 ∧ 1 < next.toNat % 128
  · simp only [if_pos hlast]
    rfl
  · simp only [if_neg hlast]
    split <;> rfl

/-- Groups that others follow are added up, as long as one more is allowed. -/
theorem run_varintFrom_followed {front : Bytes} (hfront : Followed front) (weight sum : Nat)
    (rest : Bytes) :
    (varintFrom context (front.length + (left + 1)) weight sum).run.run (front ++ rest) =
      (varintFrom context (left + 1) (weight * 128 ^ front.length)
        (sum + groupSum front * weight)).run.run rest := by
  induction front generalizing weight sum with
  | nil => simp [groupSum]
  | cons group front ih =>
      obtain ⟨hgroup, hfront⟩ := hfront.cons
      have hcount : (group :: front).length + (left + 1) = front.length + (left + 1) + 1 := by
        rw [List.length_cons]
        omega
      have hweight : weight * 128 * 128 ^ front.length = weight * 128 ^ (front.length + 1) := by
        rw [Nat.pow_succ, Nat.mul_assoc, Nat.mul_comm 128]
      have hsum : sum + group.toNat % 128 * weight + groupSum front * (weight * 128) =
          sum + groupSum (group :: front) * weight := by
        rw [groupSum_cons]
        ring
      rw [hcount, List.cons_append, run_varintFrom_cons, if_neg (by omega), if_neg (by omega),
        ih hfront, hweight, hsum, List.length_cons]

theorem run_varint_followed {front : Bytes} (hfront : Followed front)
    (hcount : front.length + (left + 1) = 10) (rest : Bytes) :
    (varint context).run.run (front ++ rest) =
      (varintFrom context (left + 1) (128 ^ front.length) (groupSum front)).run.run rest := by
  have hrun : (varintFrom context (front.length + (left + 1)) 1 0).run.run (front ++ rest) = _ :=
    run_varintFrom_followed hfront 1 0 rest
  rwa [hcount, Nat.one_mul, Nat.zero_add, Nat.mul_one] at hrun

/-! ## The four ways in which the reading of a number ends -/

theorem run_varint_of_end {front : Bytes} {last : UInt8} (hfront : Followed front)
    (hlength : front.length < 10) (hlast : last.toNat < 128)
    (hword : groupSum (front ++ [last]) < 2 ^ 64) (rest : Bytes) :
    (varint context).run.run (front ++ last :: rest) =
      (.ok (groupSum (front ++ [last])), rest) := by
  obtain ⟨left, hcount⟩ : ∃ left, front.length + (left + 1) = 10 :=
    ⟨9 - front.length, by omega⟩
  have hbit : ¬(left = 0 ∧ 1 < last.toNat % 128) := by
    rintro ⟨rfl, hlarge⟩
    rw [groupSum_append_singleton, show front.length = 9 by omega] at hword
    omega
  rw [run_varint_followed hfront hcount, run_varintFrom_cons, if_neg hbit, if_pos hlast,
    groupSum_append_singleton]

theorem run_varint_of_overflow {front : Bytes} {last : UInt8} (hfront : Followed front)
    (hlength : front.length = 9) (hlast : 1 < last.toNat % 128) (rest : Bytes) :
    (varint context).run.run (front ++ last :: rest) = (.error .varintOverflow, rest) := by
  have hcount : front.length + (0 + 1) = 10 := by omega
  rw [run_varint_followed hfront hcount, run_varintFrom_cons, if_pos ⟨rfl, hlast⟩]

theorem run_varint_of_tenth {front : Bytes} {last : UInt8} (hfront : Followed front)
    (hlength : front.length = 9) (hlast : last.toNat % 128 ≤ 1) (hmore : 128 ≤ last.toNat)
    (rest : Bytes) :
    (varint context).run.run (front ++ last :: rest) = (.error .varintTooLong, rest) := by
  have hcount : front.length + (0 + 1) = 10 := by omega
  rw [run_varint_followed hfront hcount, run_varintFrom_cons, if_neg (by omega),
    if_neg (by omega)]
  rfl

theorem run_varint_of_short {input : Bytes} (hinput : Followed input)
    (hlength : input.length < 10) :
    (varint context).run.run input = (.error (.unexpectedEnd context), []) := by
  obtain ⟨left, hcount⟩ : ∃ left, input.length + (left + 1) = 10 :=
    ⟨9 - input.length, by omega⟩
  have hrun : (varint context).run.run (input ++ []) = _ := run_varint_followed hinput hcount []
  rwa [List.append_nil, run_varintFrom_nil] at hrun

/-- How the reading of a number ends, as told by the bytes: within ten groups and within a word,
or with an error that leaves what comes after the tenth byte, or nothing. -/
inductive NumberOutcome (context : String) : Bytes → Except ByteError Nat × Bytes → Prop
  | number {front : Bytes} {last : UInt8} (hfront : Followed front) (hlength : front.length < 10)
      (hlast : last.toNat < 128) (hword : groupSum (front ++ [last]) < 2 ^ 64) (rest : Bytes) :
      NumberOutcome context (front ++ last :: rest) (.ok (groupSum (front ++ [last])), rest)
  | overflow {front : Bytes} {last : UInt8} (hfront : Followed front)
      (hlength : front.length = 9) (hlast : 1 < last.toNat % 128) (rest : Bytes) :
      NumberOutcome context (front ++ last :: rest) (.error .varintOverflow, rest)
  | tooLong {front : Bytes} {last : UInt8} (hfront : Followed front)
      (hlength : front.length = 9) (hlast : last.toNat % 128 ≤ 1) (hmore : 128 ≤ last.toNat)
      (rest : Bytes) :
      NumberOutcome context (front ++ last :: rest) (.error .varintTooLong, rest)
  | short {input : Bytes} (hinput : Followed input) (hlength : input.length < 10) :
      NumberOutcome context input (.error (.unexpectedEnd context), [])

theorem NumberOutcome.run_varint {input : Bytes} {outcome : Except ByteError Nat × Bytes}
    (h : NumberOutcome context input outcome) : (varint context).run.run input = outcome := by
  cases h with
  | number hfront hlength hlast hword rest =>
      exact run_varint_of_end hfront hlength hlast hword rest
  | overflow hfront hlength hlast rest => exact run_varint_of_overflow hfront hlength hlast rest
  | tooLong hfront hlength hlast hmore rest =>
      exact run_varint_of_tenth hfront hlength hlast hmore rest
  | short hinput hlength => exact run_varint_of_short hinput hlength

/-- Either the bytes end before a group is the last one, or the last one is found within the
groups that are allowed, or the last that is allowed is reached. -/
theorem followed_cases (count : Nat) (input : Bytes) :
    (Followed input ∧ input.length ≤ count) ∨
      ∃ front last rest, input = front ++ last :: rest ∧ Followed front ∧
        (front.length < count ∧ last.toNat < 128 ∨ front.length = count) := by
  induction count generalizing input with
  | zero =>
      cases input with
      | nil => exact Or.inl ⟨List.forall_mem_nil _, Nat.le_refl 0⟩
      | cons first input =>
          exact Or.inr ⟨[], first, input, rfl, List.forall_mem_nil _, Or.inr rfl⟩
  | succ count ih =>
      cases input with
      | nil => exact Or.inl ⟨List.forall_mem_nil _, Nat.zero_le _⟩
      | cons first input =>
          rcases Nat.lt_or_ge first.toNat 128 with hlast | hmore
          · exact Or.inr ⟨[], first, input, rfl, List.forall_mem_nil _,
              Or.inl ⟨Nat.succ_pos count, hlast⟩⟩
          · rcases ih input with ⟨hinput, hlength⟩ | ⟨front, last, rest, rfl, hfront, hend⟩
            · exact Or.inl ⟨List.forall_mem_cons.mpr ⟨hmore, hinput⟩, Nat.succ_le_succ hlength⟩
            · refine Or.inr ⟨first :: front, last, rest, rfl,
                List.forall_mem_cons.mpr ⟨hmore, hfront⟩, ?_⟩
              rw [List.length_cons]
              omega

theorem exists_numberOutcome (context : String) (input : Bytes) :
    ∃ outcome, NumberOutcome context input outcome := by
  rcases followed_cases 9 input with ⟨hinput, hlength⟩ | ⟨front, last, rest, rfl, hfront, hend⟩
  · exact ⟨_, .short hinput (by omega)⟩
  · have hsum := groupSum_append_singleton front last
    have hbelow := groupSum_lt front
    rcases hend with ⟨hlength, hlast⟩ | hlength
    · have hfits := groupSum_lt (front ++ [last])
      have hcount : (front ++ [last]).length ≤ 9 := by
        rw [List.length_append, List.length_singleton]
        omega
      have hpower : 128 ^ (front ++ [last]).length ≤ 128 ^ 9 :=
        Nat.pow_le_pow_right (by decide) hcount
      exact ⟨_, .number hfront (by omega) hlast (by omega) rest⟩
    · rw [hlength] at hsum hbelow
      rcases Nat.lt_or_ge 1 (last.toNat % 128) with hlarge | hsmall
      · exact ⟨_, .overflow hfront hlength hlarge rest⟩
      · rcases Nat.lt_or_ge last.toNat 128 with hlast | hmore
        · exact ⟨_, .number hfront (by omega) hlast (by omega) rest⟩
        · exact ⟨_, .tooLong hfront hlength hsmall hmore rest⟩

theorem run_varint_iff (context : String) (input : Bytes)
    (outcome : Except ByteError Nat × Bytes) :
    (varint context).run.run input = outcome ↔ NumberOutcome context input outcome := by
  constructor
  · rintro rfl
    obtain ⟨outcome, houtcome⟩ := exists_numberOutcome context input
    rw [houtcome.run_varint]
    exact houtcome
  · exact NumberOutcome.run_varint

/-! ## Fields one after another -/

/-- What is written as a single field. -/
inductive FieldValue where
  | byte (value : UInt8)
  | number (value : UInt64)
  | content (bytes : Bytes)

def FieldValue.written : FieldValue → Bytes
  | .byte value => [value]
  | .number value => Bytes.ofWord value
  | .content bytes => Bytes.sized bytes

/-- How a single field is read. -/
inductive FieldKind where
  | byte (context : String)
  | number (context : String)
  | content (limit : UInt64) (name : String)

def FieldKind.read : FieldKind → ByteReader FieldValue
  | .byte context => .byte <$> ByteReader.byte context
  | .number context => .number <$> ByteReader.word context
  | .content limit name => .content <$> ByteReader.sized limit.toNat name

/-- Whether a value is one of those that the reading of a field is for. -/
inductive FieldKind.Admits : FieldKind → FieldValue → Prop
  | byte (context : String) (value : UInt8) : Admits (.byte context) (.byte value)
  | number (context : String) (value : UInt64) : Admits (.number context) (.number value)
  | content {limit : UInt64} (name : String) {bytes : Bytes}
      (hlength : bytes.length ≤ limit.toNat) : Admits (.content limit name) (.content bytes)

section Run

variable {α β : Type} {reader : ByteReader α} {input rest : Bytes} {value : α}

theorem run_map (f : α → β) (reader : ByteReader α) (input : Bytes) :
    (f <$> reader).run.run input =
      ((reader.run.run input).1.map f, (reader.run.run input).2) := by
  rw [ExceptT.run_map]
  rfl

theorem run_bind_of_ok (h : reader.run.run input = (.ok value, rest)) (next : α → ByteReader β) :
    (reader >>= next).run.run input = (next value).run.run rest := by
  rw [ExceptT.run_bind, StateT.run_bind, h]
  rfl

/-- A reader inside an envelope reads what it reads by itself. -/
theorem run_of_takes {taken : Bytes} (h : Envelope.Takes (Envelope.field reader) taken value)
    (rest : Bytes) : reader.run.run (taken ++ rest) = (.ok value, rest) := by
  have hwhole : Envelope.field reader (taken ++ rest) = .ok (value, rest) := h.whole rest
  unfold Envelope.field at hwhole
  split at hwhole
  next found left hrun =>
    cases hwhole
    exact hrun
  next => cases hwhole

end Run

theorem run_word_ofWord (context : String) (value : UInt64) (rest : Bytes) :
    (word context).run.run (Bytes.ofWord value ++ rest) = (.ok value, rest) := by
  have hnumber := run_of_takes (Envelope.takes_varint context value.toNat_lt) rest
  rw [← toNat_word, run_map, ← Bytes.ofWord_eq_varint, Prod.mk.injEq] at hnumber
  obtain ⟨hvalue, hrest⟩ := hnumber
  refine Prod.ext ?_ hrest
  cases hfound : ((word context).run.run (Bytes.ofWord value ++ rest)).1 with
  | error error =>
      rw [hfound] at hvalue
      cases hvalue
  | ok found =>
      rw [hfound] at hvalue
      exact congrArg _ (UInt64.toNat_inj.mp (Except.ok.inj hvalue))

theorem FieldKind.Admits.run_read {kind : FieldKind} {value : FieldValue}
    (h : kind.Admits value) (rest : Bytes) :
    kind.read.run.run (value.written ++ rest) = (.ok value, rest) := by
  cases h with
  | byte context value => rfl
  | number context value =>
      rw [read, FieldValue.written, run_map, run_word_ofWord]
      rfl
  | @content limit name bytes hlength =>
      have hcontent := run_of_takes (Envelope.takes_sized name hlength limit.toNat_lt) rest
      rw [read, FieldValue.written, run_map, hcontent]
      rfl

theorem run_mapM_read {kinds : List FieldKind} {values : List FieldValue}
    (h : List.Forall₂ FieldKind.Admits kinds values) (rest : Bytes) :
    (kinds.mapM FieldKind.read).run.run (values.flatMap FieldValue.written ++ rest) =
      (.ok values, rest) := by
  induction h with
  | nil => rfl
  | cons hfirst hothers ih =>
      rw [List.mapM_cons, List.flatMap_cons, List.append_assoc,
        run_bind_of_ok (hfirst.run_read _), run_bind_of_ok ih]
      rfl

/-! ## Words and numbers -/

theorem ofWord_injective : Function.Injective Bytes.ofWord := by
  intro first second h
  have hfirst := run_word_ofWord "" first []
  rw [h, run_word_ofWord] at hfirst
  exact (Except.ok.inj (Prod.mk.inj hfirst).1).symm

theorem zigzagWord_eq (value : Int64) :
    ((Bytes.zigzagWord value).toNat : Int) =
      if 0 ≤ value.toInt then 2 * value.toInt else -2 * value.toInt - 1 := by
  rw [Bytes.toNat_zigzagWord, Bytes.zigzag]
  split <;> omega

/-- The signs stay apart, the one half of the words being even and the other odd. -/
theorem zigzagWord_injective : Function.Injective Bytes.zigzagWord := by
  intro first second h
  have hfirst := zigzagWord_eq first
  have hsecond := zigzagWord_eq second
  rw [h] at hfirst
  apply Int64.toInt_inj.mp
  split at hfirst <;> split at hsecond <;> omega

/-- What is written and read in words of 64 bits, said of numbers of any size. -/
structure WordForms : Prop where
  written : ∀ value : UInt64, Bytes.ofWord value = Bytes.varint value.toNat
  read : ∀ context : String, UInt64.toNat <$> word context = varint context
  signed : ∀ value : Int64, Bytes.ofSignedWord value = Bytes.signed value.toInt
  interleaved : ∀ value : Int64, ((Bytes.zigzagWord value).toNat : Int) =
    if 0 ≤ value.toInt then 2 * value.toInt else -2 * value.toInt - 1
  signed_injective : Function.Injective Bytes.ofSignedWord

theorem wordForms : WordForms where
  written := Bytes.ofWord_eq_varint
  read := toNat_word
  signed := Bytes.ofSignedWord_eq_signed
  interleaved := zigzagWord_eq
  signed_injective := ofWord_injective.comp zigzagWord_injective

/-- Fields that were written one after another are read as they were, whatever follows them.
The bytes alone tell how the reading of a number ends, and a sign is not lost. -/
theorem fields_read_as_written :
    (∀ kinds values rest, List.Forall₂ FieldKind.Admits kinds values →
      (kinds.mapM FieldKind.read).run.run (values.flatMap FieldValue.written ++ rest) =
        (.ok values, rest)) ∧
    (∀ context input outcome,
      (varint context).run.run input = outcome ↔ NumberOutcome context input outcome) ∧
    WordForms :=
  ⟨fun _ _ rest hadmits => run_mapM_read hadmits rest, run_varint_iff, wordForms⟩

/-- The greatest number, as much content as is allowed and a byte that looks as if another one
followed it, before a byte that is left. -/
theorem fields_read_before_byte :
    let kinds : List FieldKind := [.number "count", .content 3 "name", .byte "mark"]
    let values : List FieldValue := [.number 0xFFFFFFFFFFFFFFFF, .content [1, 2, 3], .byte 0x80]
    List.Forall₂ FieldKind.Admits kinds values ∧
      (kinds.mapM FieldKind.read).run.run (values.flatMap FieldValue.written ++ [0xFF]) =
        (.ok values, [0xFF]) := by
  intro kinds values
  have hadmits : List.Forall₂ FieldKind.Admits kinds values := by
    refine .cons (.number _ _) (.cons (.content _ ?_) (.cons (.byte _ _) .nil))
    decide
  exact ⟨hadmits, fields_read_as_written.1 kinds values [0xFF] hadmits⟩

end KnowledgeBase.ByteReader
