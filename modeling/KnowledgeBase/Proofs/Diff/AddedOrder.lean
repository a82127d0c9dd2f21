import KnowledgeBase.Proofs.Diff.KeyCollisions
import KnowledgeBase.Proofs.Diff.StatementGroups
import KnowledgeBase.Proofs.KeySort
import Mathlib.Data.List.TakeWhile

/-!
The order of added statements. A difference keeps its operations in the order of the texts of
their keys, and there the tenth repeat comes before the second. An application reads numbers
only from keys whose base looks like one made from a hash, and orders these repeats by number.
Other bases are identifiers; their repeats stay in the order of the texts, which is their own
up to nine of them. What is made of the empty list has all statements and differs from the list
exactly if a group is not as it was.
-/

namespace KnowledgeBase

private theorem lt_append_cons (chars : List Char) (c : Char) (rest : List Char) :
    chars < chars ++ c :: rest := by
  have hlonger : chars ++ [] < chars ++ c :: rest :=
    List.append_left_lt (List.nil_lt_cons c rest)
  rwa [List.append_nil] at hlonger

/-- What is read as the base of a key is the key or a part from which it goes on. -/
theorem splitRepeat_eq_or_lt (key : String) :
    splitRepeat key = (key, 1) ∨ (splitRepeat key).1 < key := by
  by_cases hmarked : key.toList.head? = some hashKeyMark ∧ '#' ∈ key.toList
  · obtain ⟨digits, rest, hsplit⟩ : ∃ digits rest,
        key.toList.reverse.span (· != '#') = (digits, rest) := ⟨_, _, rfl⟩
    have hchars : key.toList = rest.reverse ++ digits.reverse := by
      rw [List.span_eq_takeWhile_dropWhile, Prod.mk.injEq] at hsplit
      rw [← List.reverse_append, ← hsplit.1, ← hsplit.2, List.takeWhile_append_dropWhile,
        List.reverse_reverse]
    cases hnumber : repeatNumber? digits.reverse with
    | none => exact Or.inl (by simp only [splitRepeat, if_pos hmarked, hsplit, hnumber])
    | some count =>
        have hkey : splitRepeat key = (String.ofList (rest.drop 1).reverse, count) := by
          simp only [splitRepeat, if_pos hmarked, hsplit, hnumber]
        have hrest : rest ≠ [] := by
          rintro rfl
          rw [List.span_eq_takeWhile_dropWhile, Prod.mk.injEq, List.dropWhile_eq_nil_iff] at hsplit
          simpa using hsplit.2 '#' (List.mem_reverse.mpr hmarked.2)
        obtain ⟨sign, before, rfl⟩ := List.exists_cons_of_ne_nil hrest
        right
        rw [hkey, String.lt_iff_toList_lt, hchars, String.toList_ofList, List.reverse_cons,
          List.append_assoc]
        exact lt_append_cons before.reverse sign digits.reverse
  · exact Or.inl (by simp only [splitRepeat, if_neg hmarked])

namespace StatementList

/-! ## The keys of one group -/

/-- A group with its keys is in an order of texts that the keys are in. -/
theorem pairwise_numbered {base : String} {group : StatementList} {R : String → String → Prop}
    (h : ∀ first second, 0 < first → first < second → second ≤ group.length →
      R (repeatKey base first) (repeatKey base second)) :
    (numbered base group).Pairwise fun first second => R first.1 second.1 := by
  have hkeys : (numbered base group).map (·.1) =
      (List.range' 1 group.length).map (repeatKey base) := by
    rw [numbered, List.map_map, ← List.zipIdx_map_snd 1 group, List.map_map]
    rfl
  have hpairwise : ((numbered base group).map (·.1)).Pairwise R := by
    rw [hkeys, List.pairwise_map]
    have hrange : (List.range' 1 group.length).Pairwise (· < ·) := List.pairwise_lt_range'
    refine hrange.imp_of_mem ?_
    intro first second hfirst hsecond hlt
    have hlow := (List.mem_range'_1.mp hfirst).1
    have hhigh := (List.mem_range'_1.mp hsecond).2
    exact h first second hlow hlt (by omega)
  exact List.pairwise_map.mp hpairwise

/-- The repeats of a base that looks hashed are ordered by their numbers. -/
theorem splitRepeat_repeatKey_lt {base : String} (hmark : looksHashed base) {first second : Nat}
    (hpositive : 0 < first) (hlt : first < second) (hsmall : second < UInt64.size) :
    toLex (splitRepeat (repeatKey base first)) < toLex (splitRepeat (repeatKey base second)) := by
  have hsecond : splitRepeat (repeatKey base second) = (base, second) :=
    splitRepeat_repeat hmark (by omega) hsmall
  rw [hsecond, Prod.Lex.toLex_lt_toLex]
  by_cases hone : first = 1
  · -- the first of the base may itself be read as the repeat of a shorter base
    subst hone
    rcases splitRepeat_eq_or_lt base with hsame | hbefore
    · rw [repeatKey, if_pos rfl, hsame]
      exact Or.inr ⟨rfl, hlt⟩
    · exact Or.inl hbefore
  · have hfirst : splitRepeat (repeatKey base first) = (base, first) :=
      splitRepeat_repeat hmark hone (by omega)
    rw [hfirst]
    exact Or.inr ⟨rfl, hlt⟩

theorem splitRepeat_repeatKey {base : String} (h : ¬looksHashed base) (number : Nat) :
    splitRepeat (repeatKey base number) = (repeatKey base number, 1) :=
  splitRepeat_of_not_looksHashed fun hkey => h ((looksHashed_slotKey (base, number)).mp hkey)

/-- Up to nine the order of the numbers is the order of the texts. -/
theorem repeatKey_lt {base : String} {first second : Nat} (hpositive : 0 < first)
    (hlt : first < second) (hfew : second < 10) :
    repeatKey base first < repeatKey base second := by
  have hsecond : (repeatKey base second).toList =
      base.toList ++ '#' :: Nat.toDigits 10 second := by
    simp [repeatKey, show second ≠ 1 by omega]
  rw [String.lt_iff_toList_lt, hsecond]
  by_cases hone : first = 1
  · rw [repeatKey, if_pos hone]
    exact lt_append_cons base.toList '#' (Nat.toDigits 10 second)
  · have hfirst : (repeatKey base first).toList =
        base.toList ++ '#' :: Nat.toDigits 10 first := by simp [repeatKey, hone]
    have hdigits : ∀ second < 10, ∀ first < second,
        '#' :: Nat.toDigits 10 first < '#' :: Nat.toDigits 10 second := by decide
    rw [hfirst]
    exact List.append_left_lt (hdigits second hfew first hlt)

/-! ## What is added to the empty list -/

section Added

variable {list : StatementList} (hkeys : (keys list).Nodup)
include hkeys

/-- Every statement is added, under the key that it has in the list. -/
theorem perm_appended : (appended (diff [] list) []).Perm (keyed list) := by
  have hnil : (keys []).Nodup := List.nodup_nil
  have hadded := nodup_patched hnil (diff [] list)
  have hlist : ((keyed list).map (·.1)).Nodup := by rwa [keyed_map_fst]
  refine (List.perm_ext_iff_of_nodup (hadded.of_map _) (hlist.of_map _)).mpr ?_
  rintro ⟨key, statement⟩
  have habsent : (byKey []).get? key = none := rfl
  rw [← get?_byKey hkeys, mem_patched hnil, get?_diff, habsent]
  cases (byKey list).get? key <;> exact Iff.rfl

omit hkeys in
theorem applyDiff_nil :
    applyDiff (diff [] list) [] = (appended (diff [] list) []).map (·.2) :=
  applyDiff_eq (show (keys []).Nodup from List.nodup_nil) _

private theorem perm_group (base : String) :
    ((appended (diff [] list) []).filter (·.2.baseKey == base)).Perm
      (numbered base (group list base)) := by
  rw [← filter_keyed]
  exact (perm_appended hkeys).filter _

/-- A group is added in the order of what is read from its keys. -/
theorem group_applyDiff_of_sorted {base : String} {entries : List (String × Statement)}
    (hperm : entries.Perm (numbered base (group list base)))
    (hsorted : entries.Pairwise fun first second =>
      toLex (splitRepeat first.1) < toLex (splitRepeat second.1)) :
    group (applyDiff (diff [] list) []) base = entries.map (·.2) := by
  have hread : (entries.map fun entry => toLex (splitRepeat entry.1)).Nodup :=
    List.pairwise_map.mpr (hsorted.imp ne_of_lt)
  have hadded := (perm_group hkeys base).trans hperm.symm
  have hentries : (appended (diff [] list) []).filter (·.2.baseKey == base) = entries := by
    refine List.Perm.eq_of_pairwise ?_ ((sorted_appended _ _).filter _)
      (hsorted.imp le_of_lt) hadded
    intro first second hfirst hsecond hle hge
    exact List.inj_on_of_nodup_map hread (hadded.subset hfirst) hsecond (le_antisymm hle hge)
  rw [applyDiff_nil, group, List.filter_map, ← hentries]
  rfl

/-- A group in the order of the texts of its keys. -/
def inTextOrder (base : String) (group : StatementList) : StatementList :=
  ((numbered base group).mergeSort fun first second => first.1 ≤ second.1).map (·.2)

omit hkeys in
theorem inTextOrder_of_few {base : String} {group : StatementList} (h : group.length < 10) :
    inTextOrder base group = group := by
  have hsorted : (numbered base group).Pairwise fun first second =>
      decide (first.1 ≤ second.1) = true := by
    simp only [decide_eq_true_eq]
    refine pairwise_numbered (R := (· ≤ ·)) fun first second hpositive hlt hle => ?_
    exact (repeatKey_lt hpositive hlt (by omega)).le
  rw [inTextOrder, List.mergeSort_of_pairwise hsorted, numbered_map_snd]

theorem group_of_looksHashed (hshort : list.length < UInt64.size) {base : String}
    (hmark : looksHashed base) :
    group (applyDiff (diff [] list) []) base = group list base := by
  have hlength : (group list base).length ≤ list.length := List.length_filter_le _ _
  have hsorted : (numbered base (group list base)).Pairwise fun first second =>
      toLex (splitRepeat first.1) < toLex (splitRepeat second.1) := by
    apply pairwise_numbered (R := fun first second =>
      toLex (splitRepeat first) < toLex (splitRepeat second))
    intro first second hpositive hlt hle
    exact splitRepeat_repeatKey_lt hmark hpositive hlt (by omega)
  rw [group_applyDiff_of_sorted hkeys (.refl _) hsorted, numbered_map_snd]

theorem group_of_not_looksHashed {base : String} (hmark : ¬looksHashed base) :
    group (applyDiff (diff [] list) []) base = inTextOrder base (group list base) := by
  have hperm := List.mergeSort_perm (numbered base (group list base)) fun first second =>
    first.1 ≤ second.1
  refine group_applyDiff_of_sorted hkeys hperm ?_
  have hnodup : ((numbered base (group list base)).map (·.1)).Nodup := by
    rw [← filter_keyed]
    refine List.Nodup.sublist (List.filter_sublist.map _) ?_
    rwa [keyed_map_fst]
  have hdistinct := List.pairwise_map.mp ((hperm.map (·.1)).nodup_iff.mpr hnodup)
  have hplain : ∀ entry ∈ numbered base (group list base),
      splitRepeat entry.1 = (entry.1, 1) := by
    intro entry member
    obtain ⟨place, -, rfl⟩ := List.mem_map.mp member
    exact splitRepeat_repeatKey hmark place.2
  refine ((sorted_mergeSort Prod.fst _).and hdistinct).imp_of_mem ?_
  rintro first second hfirst hsecond ⟨hle, hne⟩
  rw [hplain first (hperm.subset hfirst), hplain second (hperm.subset hsecond),
    Prod.Lex.toLex_lt_toLex]
  exact Or.inl (lt_of_le_of_ne hle hne)

theorem perm_applyDiff : (applyDiff (diff [] list) []).Perm list := by
  have hadded := (perm_appended hkeys).map (·.2)
  rwa [keyed_map_snd, ← applyDiff_nil] at hadded

end Added

/-! ## What differs afterwards -/

theorem length_group (list : StatementList) (base : String) :
    (group list base).length = (list.map Statement.baseKey).count base := by
  rw [group, ← List.countP_eq_length_filter, List.count, List.countP_map]
  rfl

section Rearranged

variable {first second : StatementList} (hperm : first.Perm second)
include hperm

theorem perm_keys : (keys first).Perm (keys second) := by
  rw [keys_eq_map_slots, keys_eq_map_slots]
  refine List.Perm.map _ ((List.perm_ext_iff_of_nodup (nodup_slots _) (nodup_slots _)).mpr ?_)
  rintro ⟨base, number⟩
  rw [mem_slots_iff, mem_slots_iff, (hperm.map Statement.baseKey).count_eq]

/-- Nothing differs between a list and the same statements in another order exactly if each
group has equal statements in the same places. -/
theorem diff_eq_empty_iff_groups (hkeys : (keys second).Nodup) :
    diff first second = .empty ↔ ∀ base,
      List.Forall₂ (fun left right => (left == right) = true) (group first base)
        (group second base) := by
  have hfirst : (keys first).Nodup := (perm_keys hperm).nodup_iff.mpr hkeys
  rw [diff_eq_empty_iff]
  constructor
  · intro hagree base
    have hlength : (group first base).length = (group second base).length := by
      rw [length_group, length_group, (hperm.map Statement.baseKey).count_eq]
    rw [List.forall₂_iff_get]
    refine ⟨hlength, fun place hplace hplace' => ?_⟩
    have hsame := hagree (repeatKey base (place + 1))
    rw [get?_byKey_repeatKey hfirst (List.getElem?_eq_getElem hplace),
      get?_byKey_repeatKey hkeys (List.getElem?_eq_getElem hplace')] at hsame
    exact hsame
  · exact agree_of_groups hfirst hkeys

end Rearranged

/-! ## The order of added statements -/

/-- What is made of the empty list by a difference that adds a list. -/
structure AddedInOrder (list outcome : StatementList) : Prop where
  perm : outcome.Perm list
  hashed : ∀ base, looksHashed base → group outcome base = group list base
  few : ∀ base, (group list base).length < 10 → group outcome base = group list base
  others : ∀ base, ¬looksHashed base →
    group outcome base = inTextOrder base (group list base)
  settled_iff : diff outcome list = .empty ↔ ∀ base,
    List.Forall₂ (fun left right => (left == right) = true) (group outcome base)
      (group list base)

/-- A list with different keys is added as it is but for the order of its groups among each
other and of ten and more statements with one identifier. -/
theorem applyDiff_nil_in_order {list : StatementList} (hkeys : (keys list).Nodup)
    (hshort : list.length < UInt64.size) :
    AddedInOrder list (applyDiff (diff [] list) []) where
  perm := perm_applyDiff hkeys
  hashed _ := group_of_looksHashed hkeys hshort
  few base hfew := by
    by_cases hmark : looksHashed base
    · exact group_of_looksHashed hkeys hshort hmark
    · rw [group_of_not_looksHashed hkeys hmark, inTextOrder_of_few hfew]
  others _ := group_of_not_looksHashed hkeys
  settled_iff := diff_eq_empty_iff_groups (perm_applyDiff hkeys) hkeys

/-- Two statements with one identifier, around a third one. -/
theorem applyDiff_nil_in_order_of_repeated_guid :
    let list := [bareStatement (some "Q1$b") .preferred, bareStatement (some "Q1$a") .normal,
      bareStatement (some "Q1$b") .deprecated]
    (keys list).Nodup ∧ list.length < UInt64.size ∧
      AddedInOrder list (applyDiff (diff [] list) []) := by
  intro list
  have hkeys : (keys list).Nodup := by decide
  have hshort : list.length < UInt64.size := by decide
  exact ⟨hkeys, hshort, applyDiff_nil_in_order hkeys hshort⟩

/-- Ten statements with one identifier, the last of which is preferred. -/
def tenRepeats : StatementList :=
  List.replicate 9 (bareStatement (some "Q1$a") .normal) ++
    [bareStatement (some "Q1$a") .preferred]

private def repeated (number : Nat) (rank : Rank) : String × Statement :=
  (repeatKey "Q1$a" number, bareStatement (some "Q1$a") rank)

private theorem group_of_tenRepeats :
    group (applyDiff (diff [] tenRepeats) []) "Q1$a" = (repeated 1 .normal ::
      repeated 10 .preferred :: (List.range' 2 8).map (repeated · .normal)).map (·.2) := by
  have hnumbered : numbered "Q1$a" (group tenRepeats "Q1$a") = repeated 1 .normal ::
      ((List.range' 2 8).map (repeated · .normal) ++ [repeated 10 .preferred]) := rfl
  refine group_applyDiff_of_sorted (by decide) ?_ (by decide)
  rw [hnumbered]
  exact (List.perm_append_singleton _ _).symm.cons _

/-- The tenth of ten statements with one identifier is added as the second, and then there is
a difference again. -/
theorem tenth_repeat_added_second :
    let outcome := applyDiff (diff [] tenRepeats) []
    (keys tenRepeats).Nodup ∧ group outcome "Q1$a" ≠ group tenRepeats "Q1$a" ∧
      diff outcome tenRepeats ≠ .empty := by
  intro outcome
  have hkeys : (keys tenRepeats).Nodup := by decide
  have hgroup : group outcome "Q1$a" = _ := group_of_tenRepeats
  refine ⟨hkeys, ?_, ?_⟩
  · intro hsame
    have hranks := congrArg (List.map Statement.rank) (hgroup.symm.trans hsame)
    revert hranks
    decide
  · intro hsettled
    have hgroups := (diff_eq_empty_iff_groups (perm_applyDiff hkeys) hkeys).mp hsettled "Q1$a"
    have hsecond := getElem?_beq_of_forall₂ hgroups 1
    rw [hgroup] at hsecond
    revert hsecond
    decide

end StatementList

end KnowledgeBase
