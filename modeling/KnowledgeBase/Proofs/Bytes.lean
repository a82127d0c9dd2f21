import KnowledgeBase.Bytes.Writer
import Mathlib.Algebra.Group.Nat.Defs

/-!
Byte forms that delimit themselves: whatever follows, they show their content and where they
end. Numbers do, since only their last group has no high bit; fields of variable length do
because of the length before them. Forms put together from such forms are of the same kind,
so a form of any depth is treated by the lemma of its outermost part.
-/

namespace KnowledgeBase.Bytes

variable {α β γ δ ε : Type}

/-- Whether the bytes written for a value show its content and where they end. -/
def SelfDelimiting (write : α → Bytes) (content : α → β) : Prop :=
  ∀ first second rest rest', write first ++ rest = write second ++ rest' ↔
    content first = content second ∧ rest = rest'

namespace SelfDelimiting

variable {write : α → Bytes} {write' : α → Bytes} {content : α → β} {content' : α → γ}

theorem comp (h : SelfDelimiting write content) (part : δ → α) :
    SelfDelimiting (fun value => write (part value)) fun value => content (part value) :=
  fun first second => h (part first) (part second)

/-- What is shown may be said in another way. -/
theorem congr (h : SelfDelimiting write content)
    (hcontent : ∀ first second, content first = content second ↔
      content' first = content' second) : SelfDelimiting write content' := by
  intro first second rest rest'
  rw [h, hcontent]

/-- A form is followed by one that need delimit itself only among values of one content. -/
theorem bind (h : SelfDelimiting write content)
    (h' : ∀ first second, content first = content second → ∀ rest rest',
      write' first ++ rest = write' second ++ rest' ↔
        content' first = content' second ∧ rest = rest') :
    SelfDelimiting (fun value => write value ++ write' value)
      fun value => (content value, content' value) := by
  intro first second rest rest'
  simp only [List.append_assoc, Prod.mk.injEq]
  rw [h, and_assoc]
  exact and_congr_right fun same => h' first second same rest rest'

theorem append (h : SelfDelimiting write content) (h' : SelfDelimiting write' content') :
    SelfDelimiting (fun value => write value ++ write' value)
      fun value => (content value, content' value) :=
  h.bind fun first second _ => h' first second

/-- Bytes that are the same before every value. -/
theorem mark (h : SelfDelimiting write content) (bytes : Bytes) :
    SelfDelimiting (fun value => bytes ++ write value) content := by
  intro first second rest rest'
  rw [List.append_assoc, List.append_assoc, List.append_cancel_left_eq]
  exact h first second rest rest'

end SelfDelimiting

/-! ## Single fields -/

theorem selfDelimiting_byte : SelfDelimiting (fun byte : UInt8 => [byte]) id := by
  intro first second rest rest'
  simp

/-- The byte of a group that others follow has its high bit set. -/
theorem toNat_followedGroup (n : Nat) : (UInt8.ofNat (n % 128 + 128)).toNat = n % 128 + 128 := by
  rw [UInt8.toNat_ofNat']
  omega

theorem higherGroups_lt {more n : Nat} (h : n < 128 ^ (more + 1 + 1)) :
    n / 128 < 128 ^ (more + 1) :=
  Nat.div_lt_of_lt_mul (by rwa [Nat.pow_succ, Nat.mul_comm] at h)

/-- Groups show their number and how many they are. -/
private theorem groups_append_inj {more more' n n' : Nat} (hn : n < 128 ^ (more + 1))
    (hn' : n' < 128 ^ (more' + 1)) {rest rest' : Bytes}
    (h : groups more n ++ rest = groups more' n' ++ rest') : n = n' ∧ rest = rest' := by
  have hbyte {a b : Nat} (ha : a < 256) (hb : b < 256) (h : UInt8.ofNat a = UInt8.ofNat b) :
      a = b := by
    have hnat := congrArg UInt8.toNat h
    rwa [UInt8.toNat_ofNat', UInt8.toNat_ofNat', Nat.mod_eq_of_lt ha, Nat.mod_eq_of_lt hb]
      at hnat
  induction more generalizing more' n n' with
  | zero =>
      cases more' with
      | zero =>
          obtain ⟨hhead, hrest⟩ := List.cons.inj h
          exact ⟨hbyte (by omega) (by omega) hhead, hrest⟩
      | succ more' =>
          have hhead := hbyte (by omega) (by omega) (List.cons.inj h).1
          omega
  | succ more ih =>
      cases more' with
      | zero =>
          have hhead := hbyte (by omega) (by omega) (List.cons.inj h).1
          omega
      | succ more' =>
          obtain ⟨hhead, hlater⟩ := List.cons.inj h
          have hlow := hbyte (by omega) (by omega) hhead
          obtain ⟨hhigh, hrest⟩ := ih (higherGroups_lt hn) (higherGroups_lt hn') hlater
          exact ⟨by omega, hrest⟩

theorem lt_of_groups (n : Nat) : n < 128 ^ (n.log2 / 7 + 1) := by
  calc n < 2 ^ (n.log2 + 1) := Nat.lt_log2_self
    _ ≤ 2 ^ (7 * (n.log2 / 7 + 1)) := Nat.pow_le_pow_right (by decide) (by omega)
    _ = 128 ^ (n.log2 / 7 + 1) := Nat.pow_mul 2 7 _

theorem length_groups (more n : Nat) : (groups more n).length = more + 1 := by
  induction more generalizing n with
  | zero => rfl
  | succ more ih => rw [groups, List.length_cons, ih]

theorem length_varint_le (n : Nat) : (varint n).length ≤ n + 1 := by
  have hlog : n.log2 ≤ n := Nat.log2_le_self n
  rw [varint, length_groups]
  omega

theorem selfDelimiting_varint : SelfDelimiting varint id := by
  intro first second rest rest'
  constructor
  · exact groups_append_inj (lt_of_groups first) (lt_of_groups second)
  · rintro ⟨rfl, rfl⟩
    rfl

theorem zigzag_injective {first second : Int} (h : zigzag first = zigzag second) :
    first = second := by
  unfold zigzag at h
  split at h <;> split at h <;> omega

theorem selfDelimiting_signed : SelfDelimiting signed id :=
  (selfDelimiting_varint.comp zigzag).congr fun _ _ => ⟨zigzag_injective, congrArg zigzag⟩

theorem selfDelimiting_sized : SelfDelimiting sized id := by
  have hsized : SelfDelimiting sized fun bytes => (bytes.length, bytes) := by
    refine (selfDelimiting_varint.comp List.length).bind ?_
    intro first second hlength rest rest'
    constructor
    · intro h
      exact List.append_inj h hlength
    · rintro ⟨rfl, rfl⟩
      rfl
  refine hsized.congr fun first second => ?_
  constructor
  · exact fun h => (Prod.mk.inj h).2
  · rintro rfl
    rfl

private theorem toList_loop (bytes : ByteArray) (index : Nat) (found : List UInt8) :
    ByteArray.toList.loop bytes index found =
      found.reverse ++ bytes.data.toList.drop index := by
  fun_induction ByteArray.toList.loop bytes index found with
  | case1 index found hindex ih =>
      have hlength : index < bytes.data.toList.length := by simpa using hindex
      rw [ih, List.drop_eq_getElem_cons hlength]
      simp [ByteArray.get!, hindex]
  | case2 index found hindex =>
      rw [List.drop_eq_nil_of_le (by simpa using hindex)]
      simp

theorem utf8_eq (text : String) : utf8 text = text.toByteArray.data.toList := by
  rw [utf8, ByteArray.toList, toList_loop, List.reverse_nil, List.nil_append, List.drop_zero]

theorem length_utf8_ofList_le (chars : List Char) :
    (utf8 (String.ofList chars)).length ≤ 4 * chars.length := by
  rw [utf8_eq, String.toByteArray_ofList, List.utf8Encode, List.toList_data_toByteArray]
  induction chars with
  | nil => exact Nat.le_refl 0
  | cons c chars ih =>
      have hc : (String.utf8EncodeChar c).length ≤ 4 := by
        rw [String.length_utf8EncodeChar]
        exact c.utf8Size_le_four
      rw [List.flatMap_cons, List.length_append, List.length_cons]
      omega

theorem utf8_injective {first second : String} (h : utf8 first = utf8 second) :
    first = second := by
  rw [utf8_eq, utf8_eq, Array.toList_inj] at h
  exact String.toByteArray_inj.mp (ByteArray.ext h)

theorem selfDelimiting_text : SelfDelimiting text id :=
  (selfDelimiting_sized.comp utf8).congr fun _ _ => ⟨utf8_injective, congrArg utf8⟩

/-- A number is known from as many of its digits as it needs. -/
theorem eq_of_digits_eq {base count n n' : Nat} (hn : n < base ^ count) (hn' : n' < base ^ count)
    (h : ∀ place < count, n / base ^ place % base = n' / base ^ place % base) : n = n' := by
  induction count generalizing n n' with
  | zero =>
      rw [Nat.pow_zero] at hn hn'
      omega
  | succ count ih =>
      have hlow : n % base = n' % base := by simpa using h 0 (Nat.succ_pos _)
      have hhigh : n / base = n' / base := by
        apply ih
        · exact Nat.div_lt_of_lt_mul (by rwa [Nat.pow_succ, Nat.mul_comm] at hn)
        · exact Nat.div_lt_of_lt_mul (by rwa [Nat.pow_succ, Nat.mul_comm] at hn')
        · intro place hplace
          have hnext := h (place + 1) (Nat.succ_lt_succ hplace)
          rwa [Nat.pow_succ, Nat.mul_comm, ← Nat.div_div_eq_div_mul,
            ← Nat.div_div_eq_div_mul] at hnext
      rw [← Nat.div_add_mod n base, hhigh, hlow, Nat.div_add_mod]

private theorem length_binary64_bytes (x : Binary64) : x.bytes.length = 8 := by
  simp [Binary64.bytes]

theorem binary64_bytes_injective {x y : Binary64} (h : x.bytes = y.bytes) : x = y := by
  have hbits : x.bits.toNat = y.bits.toNat := by
    refine eq_of_digits_eq (show _ < 256 ^ 8 from x.bits.toNat_lt)
      (show _ < 256 ^ 8 from y.bits.toNat_lt) ?_
    intro place hplace
    have hbyte := congrArg (fun bytes : List UInt8 => bytes[place]?) h
    simp only [Binary64.bytes, List.getElem?_map, List.getElem?_range hplace, Option.map_some,
      Option.some.injEq] at hbyte
    have hnat := congrArg UInt8.toNat hbyte
    rwa [UInt8.toNat_ofNat', UInt8.toNat_ofNat', Nat.shiftRight_eq_div_pow,
      Nat.shiftRight_eq_div_pow, Nat.pow_mul] at hnat
  cases x
  cases y
  rw [Binary64.mk.injEq, ← UInt64.toNat_inj]
  exact hbits

theorem selfDelimiting_double : SelfDelimiting double Binary64.withoutSignedZero := by
  intro first second rest rest'
  constructor
  · intro h
    obtain ⟨hbytes, hrest⟩ := List.append_inj h
      ((length_binary64_bytes _).trans (length_binary64_bytes _).symm)
    exact ⟨binary64_bytes_injective hbytes, hrest⟩
  · rintro ⟨hcontent, rfl⟩
    rw [double, hcontent, double]

/-! ## Fields that may be absent or repeated -/

theorem SelfDelimiting.optional {write : α → Bytes} {content : α → β}
    (h : SelfDelimiting write content) :
    SelfDelimiting (Bytes.optional write) (Option.map content) := by
  rintro (_ | first) (_ | second) rest rest'
  · simp [Bytes.optional]
  · simp [Bytes.optional]
  · simp [Bytes.optional]
  · simpa [Bytes.optional] using h first second rest rest'

/-- The form of a list: how many members there are, then their forms. -/
theorem SelfDelimiting.counted {write : α → Bytes} {content : α → β}
    (h : SelfDelimiting write content) :
    SelfDelimiting (fun list : List α => varint list.length ++ list.flatMap write)
      (List.map content) := by
  have hcounted : SelfDelimiting (fun list : List α => varint list.length ++ list.flatMap write)
      fun list => (list.length, list.map content) := by
    refine (selfDelimiting_varint.comp List.length).bind ?_
    intro first
    induction first with
    | nil =>
        intro second hlength rest rest'
        obtain rfl := List.length_eq_zero_iff.mp hlength.symm
        simp
    | cons head tail ih =>
        rintro (_ | ⟨head', tail'⟩) hlength rest rest'
        · cases hlength
        · have hlength : tail.length = tail'.length := Nat.succ.inj hlength
          simp only [List.flatMap_cons, List.append_assoc, List.map_cons, List.cons.injEq]
          rw [h, ih tail' hlength, and_assoc]
  refine hcounted.congr fun first second => ?_
  constructor
  · exact fun h => (Prod.mk.inj h).2
  · intro h
    rw [h, ← List.length_map content, h, List.length_map]

end KnowledgeBase.Bytes
