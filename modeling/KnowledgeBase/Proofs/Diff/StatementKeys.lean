import KnowledgeBase.Diff.Statement
import KnowledgeBase.Proofs.SortedMap
import Mathlib.Data.List.TakeDrop

/-!
The keys of a statement list. A statement's slot is its base key with its number among the
statements that share it. The numbering is described without recursion: along the list the
numbers of one base grow, and none is left out. Under the two conditions on identifiers,
that those present differ and do not look like hash keys, different slots have different
keys and a key gives its slot back, so the keys of a list are the keys of a map. Nothing is
used of the hash but that its text has no number sign: different statements may share one.
-/

namespace KnowledgeBase

/-! ## Slots -/

/-- The bases of a list with their numbers, given the bases before it. -/
def numberAfter (seen : List String) : List String → List (String × Nat)
  | [] => []
  | base :: rest => (base, seen.count base + 1) :: numberAfter (base :: seen) rest

/-- Along the slots the numbers of one base grow, and they run without gap from the number
of times the base was seen before. -/
structure Numbered (seen : List String) (slots : List (String × Nat)) : Prop where
  growing : slots.Pairwise fun first second => first.1 = second.1 → first.2 < second.2
  above : ∀ slot ∈ slots, seen.count slot.1 < slot.2
  gapless : ∀ slot ∈ slots, ∀ number, seen.count slot.1 < number → number ≤ slot.2 →
    (slot.1, number) ∈ slots

namespace Numbered

variable {seen : List String} {base : String} {slots : List (String × Nat)}

theorem cons (later : Numbered (base :: seen) slots) :
    Numbered seen ((base, seen.count base + 1) :: slots) := by
  have hcount (slot : String × Nat) : seen.count slot.1 ≤ (base :: seen).count slot.1 :=
    List.count_le_count_cons
  refine ⟨List.pairwise_cons.mpr ⟨?_, later.growing⟩, ?_, ?_⟩
  · intro slot member same
    have hslot := later.above slot member
    rw [← same, List.count_cons_self] at hslot
    exact hslot
  · intro slot member
    rcases List.mem_cons.mp member with rfl | member
    · exact Nat.lt_succ_self _
    · exact (hcount slot).trans_lt (later.above slot member)
  · intro slot member number hlow hhigh
    rcases List.mem_cons.mp member with rfl | member
    · have hnumber : number = seen.count base + 1 := by
        simp only at hlow hhigh
        omega
      simp [hnumber]
    · by_cases same : slot.1 = base
      · -- the first missing number of the base is the one the head has
        by_cases hfirst : number = seen.count base + 1
        · simp [same, hfirst]
        · refine List.mem_cons_of_mem _ (later.gapless slot member number ?_ hhigh)
          rw [same] at hlow ⊢
          rw [List.count_cons_self]
          omega
      · refine List.mem_cons_of_mem _ (later.gapless slot member number ?_ hhigh)
        rwa [List.count_cons_of_ne (Ne.symm same)]

theorem head_eq {number : Nat} (h : Numbered seen ((base, number) :: slots)) :
    number = seen.count base + 1 := by
  have hgrowing := List.pairwise_cons.mp h.growing
  have habove : seen.count base < number := h.above (base, number) (List.mem_cons_self ..)
  by_contra hother
  have hmember := h.gapless (base, number) (List.mem_cons_self ..) (seen.count base + 1)
    (Nat.lt_succ_self _) habove
  rcases List.mem_cons.mp hmember with hhead | later
  · exact hother (congrArg Prod.snd hhead).symm
  · have hbelow : number < seen.count base + 1 := hgrowing.1 _ later rfl
    omega

theorem tail {number : Nat} (h : Numbered seen ((base, number) :: slots)) :
    Numbered (base :: seen) slots := by
  have hnumber := h.head_eq
  have hgrowing := List.pairwise_cons.mp h.growing
  refine ⟨hgrowing.2, ?_, ?_⟩
  · intro slot member
    by_cases same : slot.1 = base
    · have hslot : number < slot.2 := hgrowing.1 slot member same.symm
      rw [same, List.count_cons_self]
      omega
    · rw [List.count_cons_of_ne (Ne.symm same)]
      exact h.above slot (List.mem_cons_of_mem _ member)
  · intro slot member found hlow hhigh
    have hseen : seen.count slot.1 < found := List.count_le_count_cons.trans_lt hlow
    have hmember := h.gapless slot (List.mem_cons_of_mem _ member) found hseen hhigh
    rcases List.mem_cons.mp hmember with hhead | later
    · obtain ⟨hbase, hfound⟩ := Prod.mk.inj hhead
      rw [hbase, List.count_cons_self] at hlow
      omega
    · exact later

end Numbered

theorem numbered_numberAfter (seen bases : List String) :
    Numbered seen (numberAfter seen bases) := by
  induction bases generalizing seen with
  | nil => exact ⟨.nil, by simp [numberAfter], by simp [numberAfter]⟩
  | cons base rest ih =>
      rw [numberAfter]
      exact (ih (base :: seen)).cons

/-- The numbering is the only one that grows without gap. -/
theorem Numbered.numberAfter_eq {seen : List String} {slots : List (String × Nat)}
    (h : Numbered seen slots) : numberAfter seen (slots.map (·.1)) = slots := by
  induction slots generalizing seen with
  | nil => rfl
  | cons head rest ih =>
      obtain ⟨base, number⟩ := head
      simp only [List.map_cons, numberAfter, ih h.tail, h.head_eq]

/-! ## The text of a key -/

def slotKey (slot : String × Nat) : String := repeatKey slot.1 slot.2

/-- Whether a text begins like the key of a statement without identifier. -/
def looksHashed (text : String) : Prop := text.toList.head? = some hashKeyMark

/-- A slot that a statement of a well-kept list can have: only bases made from hashes have
repeats, and these contain no number sign. -/
def ProperSlot (slot : String × Nat) : Prop :=
  0 < slot.2 ∧ (looksHashed slot.1 ∧ '#' ∉ slot.1.toList ∨ ¬looksHashed slot.1 ∧ slot.2 = 1)

private theorem slotKey_toList (slot : String × Nat) :
    (slotKey slot).toList =
      slot.1.toList ++ if slot.2 = 1 then [] else '#' :: Nat.toDigits 10 slot.2 := by
  unfold slotKey repeatKey
  by_cases hone : slot.2 = 1 <;> simp [hone]

private theorem toDigits_isDigit {number : Nat} {c : Char} (h : c ∈ Nat.toDigits 10 number) :
    c.isDigit :=
  Nat.isDigit_of_mem_toDigits (by decide) (by decide) h

private theorem repeatNumber?_toDigits {number : Nat} (h : number < UInt64.size) :
    repeatNumber? (Nat.toDigits 10 number) = some number := by
  have hdigits : ∀ c ∈ Nat.toDigits 10 number, c.isDigit := fun _ => toDigits_isDigit
  have hvalue := Nat.ofDigitChars_ten_toDigits (n := number)
  cases hchars : Nat.toDigits 10 number with
  | nil => exact absurd hchars Nat.toDigits_ne_nil
  | cons first rest =>
      rw [hchars] at hdigits hvalue
      have hsign : first ≠ '+' := fun hplus => by
        have := hdigits first (by simp)
        rw [hplus] at this
        revert this
        decide
      have hall : (first :: rest).all Char.isDigit = true := by simpa using hdigits
      unfold repeatNumber?
      split
      · next heq => exact absurd (List.cons.inj heq).1 hsign
      · simp [hall, hvalue, h]

/-- A base that looks hashed and a number can be read from the key of a repeat. -/
theorem splitRepeat_repeat {base : String} {number : Nat} (hmark : looksHashed base)
    (hrepeat : number ≠ 1) (hsmall : number < UInt64.size) :
    splitRepeat (slotKey (base, number)) = (base, number) := by
  have hchars : (slotKey (base, number)).toList =
      base.toList ++ '#' :: Nat.toDigits 10 number := by simp [slotKey_toList, hrepeat]
  have hhead : (base.toList ++ '#' :: Nat.toDigits 10 number).head? = some hashKeyMark := by
    rw [List.head?_append, show base.toList.head? = some hashKeyMark from hmark]
    rfl
  have hdigits : ∀ c ∈ (Nat.toDigits 10 number).reverse, (c != '#') = true := by
    intro c member
    have := toDigits_isDigit (List.mem_reverse.mp member)
    rw [bne_iff_ne]
    rintro rfl
    revert this
    decide
  have hspan : (base.toList ++ '#' :: Nat.toDigits 10 number).reverse.span (· != '#') =
      ((Nat.toDigits 10 number).reverse, '#' :: base.toList.reverse) := by
    rw [List.span_eq_takeWhile_dropWhile, List.reverse_append, List.reverse_cons,
      List.append_assoc, List.takeWhile_append_of_pos hdigits,
      List.dropWhile_append_of_pos hdigits]
    simp
  simp only [splitRepeat, hchars, hhead, hspan, List.reverse_reverse,
    repeatNumber?_toDigits hsmall]
  simp

/-- Other keys are not read. -/
theorem splitRepeat_of_not_looksHashed {key : String} (h : ¬looksHashed key) :
    splitRepeat key = (key, 1) := by
  have hmark : ¬key.toList.head? = some hashKeyMark := h
  simp [splitRepeat, hmark]

/-- A key tells which slot it was made for. -/
theorem splitRepeat_slotKey {slot : String × Nat} (hproper : ProperSlot slot)
    (hsmall : slot.2 < UInt64.size) : splitRepeat (slotKey slot) = slot := by
  obtain ⟨base, number⟩ := slot
  obtain ⟨-, ⟨hmark, hplain⟩ | ⟨hmark, rfl⟩⟩ := hproper
  · by_cases hone : number = 1
    · subst hone
      simp [slotKey, repeatKey, splitRepeat, hplain]
    · exact splitRepeat_repeat hmark hone hsmall
  · exact splitRepeat_of_not_looksHashed hmark

private theorem takeWhile_slotKey {slot : String × Nat} (h : '#' ∉ slot.1.toList) :
    (slotKey slot).toList.takeWhile (· != '#') = slot.1.toList := by
  have hbase : ∀ c ∈ slot.1.toList, (c != '#') = true := by
    intro c member
    rw [bne_iff_ne]
    rintro rfl
    exact h member
  rw [slotKey_toList, List.takeWhile_append_of_pos hbase]
  by_cases hone : slot.2 = 1 <;> simp [hone]

theorem looksHashed_slotKey (slot : String × Nat) :
    looksHashed (slotKey slot) ↔ looksHashed slot.1 := by
  rw [looksHashed, looksHashed, slotKey_toList, List.head?_append]
  cases slot.1.toList.head? with
  | some first => exact Iff.rfl
  | none => by_cases hone : slot.2 = 1 <;> simp [hone, hashKeyMark]

/-- Proper slots with one key are one slot, however large their numbers are. -/
theorem slotKey_injective {first second : String × Nat} (hfirst : ProperSlot first)
    (hsecond : ProperSlot second) (same : slotKey first = slotKey second) : first = second := by
  have hmarks : looksHashed first.1 ↔ looksHashed second.1 := by
    rw [← looksHashed_slotKey first, ← looksHashed_slotKey second, same]
  obtain ⟨-, ⟨hmark, hplain⟩ | ⟨hmark, hone⟩⟩ := hfirst
  · obtain ⟨-, ⟨-, hplain'⟩ | ⟨hmark', -⟩⟩ := hsecond
    · have hbase : first.1 = second.1 := by
        rw [← String.toList_inj, ← takeWhile_slotKey hplain, ← takeWhile_slotKey hplain', same]
      have hrest := congrArg String.toList same
      rw [slotKey_toList, slotKey_toList, hbase, List.append_cancel_left_eq] at hrest
      refine Prod.ext hbase ?_
      by_cases hone : first.2 = 1
      · by_cases hone' : second.2 = 1
        · rw [hone, hone']
        · simp [hone, hone'] at hrest
      · by_cases hone' : second.2 = 1
        · simp [hone, hone'] at hrest
        · simp only [hone, hone', if_false, List.cons.injEq, true_and] at hrest
          rw [← Nat.ofDigitChars_ten_toDigits (n := first.2), hrest,
            Nat.ofDigitChars_ten_toDigits]
    · exact absurd (hmarks.mp hmark) hmark'
  · obtain ⟨-, ⟨hmark', -⟩ | ⟨-, hone'⟩⟩ := hsecond
    · exact absurd (hmarks.mpr hmark') hmark
    · refine Prod.ext ?_ (hone.trans hone'.symm)
      simpa [slotKey, repeatKey, hone, hone'] using same

private theorem takeWhile_reverse_slotKey {slot : String × Nat} (h : slot.2 ≠ 1) :
    (slotKey slot).toList.reverse.takeWhile (· != '#') = (Nat.toDigits 10 slot.2).reverse := by
  have hdigits : ∀ c ∈ (Nat.toDigits 10 slot.2).reverse, (c != '#') = true := by
    intro c member
    rw [bne_iff_ne]
    rintro rfl
    have hdigit := toDigits_isDigit (List.mem_reverse.mp member)
    revert hdigit
    decide
  rw [slotKey_toList, if_neg h, List.reverse_append, List.reverse_cons, List.append_assoc,
    List.takeWhile_append_of_pos hdigits]
  simp

/-- Slots that are not the first of their base are one slot if they have one key, whatever
their bases are. -/
theorem slotKey_injective_of_repeats {first second : String × Nat} (hfirst : first.2 ≠ 1)
    (hsecond : second.2 ≠ 1) (same : slotKey first = slotKey second) : first = second := by
  have hnumber : first.2 = second.2 := by
    have hdigits : Nat.toDigits 10 first.2 = Nat.toDigits 10 second.2 := by
      rw [← List.reverse_inj, ← takeWhile_reverse_slotKey hfirst,
        ← takeWhile_reverse_slotKey hsecond, same]
    rw [← Nat.ofDigitChars_ten_toDigits (n := first.2), hdigits, Nat.ofDigitChars_ten_toDigits]
  have hchars := congrArg String.toList same
  rw [slotKey_toList, slotKey_toList, hnumber, List.append_cancel_right_eq] at hchars
  exact Prod.ext (String.toList_inj.mp hchars) hnumber

/-! ## The keys of a list -/

private theorem hash_plain (content : Bytes) : '#' ∉ (contentHash content).toList := by
  simp only [contentHash, Text.hex, String.toList_ofList, List.mem_flatMap, not_exists, not_and]
  intro byte _ member
  simp only [Text.hexByte, List.mem_cons, List.not_mem_nil, or_false] at member
  have hdigit (number : Nat) : '#' ≠ Nat.digitChar number :=
    (Nat.digitChar_ne '#' (by decide)).symm
  rcases member with high | low
  · exact hdigit _ high
  · exact hdigit _ low

/-- The base of a statement without identifier looks hashed and has no number sign. -/
theorem Statement.baseKey_of_guid_none {statement : Statement} (h : statement.guid? = none) :
    looksHashed statement.baseKey ∧ '#' ∉ statement.baseKey.toList := by
  have hchars : statement.baseKey.toList = hashKeyMark :: statement.claim.hash.toList := by
    simp [Statement.baseKey, h]
  rw [looksHashed, hchars]
  refine ⟨rfl, ?_⟩
  rw [List.mem_cons, not_or]
  exact ⟨by decide, hash_plain _⟩

theorem Statement.baseKey_of_guid_some {statement : Statement} {guid : String}
    (h : statement.guid? = some guid) : statement.baseKey = guid := by
  simp [Statement.baseKey, h]

namespace StatementList

/-- The identifiers that are present. -/
def guids (list : StatementList) : List String := list.filterMap Statement.guid?

/-- A list whose present identifiers differ and do not look like hash keys. Statements
without identifier may be there in any number. -/
structure WellKeyed (list : StatementList) : Prop where
  distinct : list.guids.Nodup
  plain : ∀ guid ∈ list.guids, ¬looksHashed guid

def slots (list : StatementList) : List (String × Nat) :=
  numberAfter [] (list.map Statement.baseKey)

theorem numbered_slots (list : StatementList) : Numbered [] (slots list) :=
  numbered_numberAfter [] _

theorem nodup_slots (list : StatementList) : (slots list).Nodup := by
  refine list.numbered_slots.growing.imp ?_
  rintro first second hgrow rfl
  exact absurd (hgrow rfl) (lt_irrefl _)

private theorem keysAfter_eq_map (seen : List String) (list : StatementList) :
    keysAfter seen list = (numberAfter seen (list.map Statement.baseKey)).map slotKey := by
  induction list generalizing seen with
  | nil => rfl
  | cons statement rest ih =>
      simp only [keysAfter, List.map_cons, numberAfter, ih]
      rfl

theorem keys_eq_map_slots (list : StatementList) : keys list = (slots list).map slotKey :=
  keysAfter_eq_map [] list

private theorem numberAfter_map_fst (seen bases : List String) :
    (numberAfter seen bases).map (·.1) = bases := by
  induction bases generalizing seen with
  | nil => rfl
  | cons base rest ih => simp [numberAfter, ih]

theorem number_le_count {seen bases : List String} {slot : String × Nat}
    (h : slot ∈ numberAfter seen bases) : slot.2 ≤ seen.count slot.1 + bases.count slot.1 := by
  induction bases generalizing seen with
  | nil => cases h
  | cons base rest ih =>
      rcases List.mem_cons.mp h with rfl | later
      · simp only [List.count_cons_self]
        omega
      · have hrest := ih later
        rw [List.count_cons] at hrest
        rw [List.count_cons]
        omega

/-- Every place in a list has a slot, and its key is the slot's. -/
theorem slot_of_mem_keyed {list : StatementList} {key : String} {statement : Statement}
    (h : (key, statement) ∈ keyed list) :
    statement ∈ list ∧
      ∃ number, (statement.baseKey, number) ∈ slots list ∧
        key = slotKey (statement.baseKey, number) := by
  have general (seen : List String) (list : StatementList)
      (h : (key, statement) ∈ (keysAfter seen list).zip list) :
      statement ∈ list ∧
        ∃ number, (statement.baseKey, number) ∈ numberAfter seen (list.map Statement.baseKey) ∧
          key = slotKey (statement.baseKey, number) := by
    induction list generalizing seen with
    | nil => simp [keysAfter] at h
    | cons head rest ih =>
        simp only [keysAfter, List.zip_cons_cons, List.mem_cons] at h
        rcases h with hhead | later
        · obtain ⟨rfl, rfl⟩ := Prod.mk.inj hhead
          exact ⟨List.mem_cons_self .., _, List.mem_cons_self .., rfl⟩
        · obtain ⟨hmember, number, hslot, hkey⟩ := ih _ later
          exact ⟨List.mem_cons_of_mem _ hmember, number, List.mem_cons_of_mem _ hslot, hkey⟩
  exact general [] list h

@[simp] theorem length_keys (list : StatementList) : (keys list).length = list.length := by
  have hlength := congrArg List.length (numberAfter_map_fst [] (list.map Statement.baseKey))
  rw [keys_eq_map_slots, List.length_map]
  simpa [slots] using hlength

@[simp] theorem keyed_map_fst (list : StatementList) : (keyed list).map (·.1) = keys list :=
  List.map_fst_zip (by simp)

@[simp] theorem keyed_map_snd (list : StatementList) : (keyed list).map (·.2) = list :=
  List.map_snd_zip (by simp)

private theorem count_baseKey {guid : String} (h : ¬looksHashed guid) (list : StatementList) :
    (list.map Statement.baseKey).count guid = list.guids.count guid := by
  induction list with
  | nil => rfl
  | cons statement rest ih =>
      cases hguid : statement.guid? with
      | none =>
          have hother : statement.baseKey ≠ guid := fun same =>
            h (same ▸ (Statement.baseKey_of_guid_none hguid).1)
          have hguids : guids (statement :: rest) = guids rest := List.filterMap_cons_none hguid
          rw [List.map_cons, List.count_cons_of_ne hother, ih, hguids]
      | some found =>
          have hguids : guids (statement :: rest) = found :: guids rest :=
            List.filterMap_cons_some hguid
          rw [List.map_cons, Statement.baseKey_of_guid_some hguid, hguids, List.count_cons, ih,
            List.count_cons]

namespace WellKeyed

variable {list : StatementList} (h : list.WellKeyed)
include h

theorem properSlot {slot : String × Nat} (hslot : slot ∈ slots list) : ProperSlot slot := by
  have hpositive : 0 < slot.2 := (list.numbered_slots.above slot hslot).trans_le' (Nat.zero_le _)
  have hbase : slot.1 ∈ list.map Statement.baseKey := by
    rw [← numberAfter_map_fst [] (list.map Statement.baseKey)]
    exact List.mem_map_of_mem hslot
  obtain ⟨statement, member, hbase⟩ := List.mem_map.mp hbase
  cases hguid : statement.guid? with
  | none =>
      rw [ProperSlot, ← hbase]
      exact ⟨hpositive, Or.inl (Statement.baseKey_of_guid_none hguid)⟩
  | some guid =>
      have hguids : guid ∈ list.guids := List.mem_filterMap.mpr ⟨statement, member, hguid⟩
      have hplain := h.plain guid hguids
      rw [Statement.baseKey_of_guid_some hguid] at hbase
      have hcount : slot.2 ≤ (list.map Statement.baseKey).count guid := by
        simpa [hbase] using number_le_count hslot
      rw [count_baseKey hplain, List.count_eq_one_of_mem h.distinct hguids] at hcount
      rw [ProperSlot, ← hbase]
      exact ⟨hpositive, Or.inr ⟨hplain, by omega⟩⟩

/-- No two statements of a well-kept list have the same key. -/
theorem nodup_keys : (keys list).Nodup := by
  rw [keys_eq_map_slots]
  refine List.Nodup.map_on ?_ (nodup_slots list)
  intro first hfirst second hsecond
  exact slotKey_injective (h.properSlot hfirst) (h.properSlot hsecond)

/-- A statement with an identifier has it as its key. -/
theorem key_eq_guid {key guid : String} {statement : Statement}
    (hmember : (key, statement) ∈ keyed list) (hguid : statement.guid? = some guid) :
    key = guid := by
  obtain ⟨member, number, hslot, rfl⟩ := slot_of_mem_keyed hmember
  have hbase := Statement.baseKey_of_guid_some hguid
  have hplain : ¬looksHashed statement.baseKey := by
    rw [hbase]
    exact h.plain guid (List.mem_filterMap.mpr ⟨statement, member, hguid⟩)
  obtain ⟨-, ⟨hmark, -⟩ | ⟨-, hone⟩⟩ := h.properSlot hslot
  · exact absurd hmark hplain
  · simp only at hone
    simp [slotKey, repeatKey, hone, hbase]

end WellKeyed

end StatementList

end KnowledgeBase
