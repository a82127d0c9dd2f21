import KnowledgeBase.Proofs.ArrayForm.Equality
import KnowledgeBase.Proofs.Diff.Construction
import KnowledgeBase.Proofs.Diff.KeyCollisions
import KnowledgeBase.Proofs.Diff.Replay
import KnowledgeBase.Proofs.Diff.StatementGroups
import Mathlib.Data.Finset.Card
import Mathlib.Order.Interval.Finset.Nat

/-!
A difference that is applied to any target, and then once more. The operations on terms and links
find their own outcomes the second time and keep them. So do those on statements, as long as these
have the keys that the operations go by. But statements without identifier are numbered by their
places, and where the first application leaves a number out, those behind it move up: then the
second application meets others under its keys, and takes out or puts in one more.
-/

namespace KnowledgeBase

open StatementList (patched kept appended byKey keys keyed slots)

/-- Equal statements have the same base key. -/
theorem Statement.baseKey_of_beq {first second : Statement} (h : (first == second) = true) :
    first.baseKey = second.baseKey := by
  have hparts : ((first.claim == second.claim) && (first.rank == second.rank) &&
      (first.references == second.references)) = true := h
  rw [Bool.and_eq_true, Bool.and_eq_true] at hparts
  have hbytes := (Claim.selfDelimiting first.claim second.claim [] []).mpr
    ⟨Claim.content_eq_of_beq hparts.1.1, rfl⟩
  rw [List.append_nil, List.append_nil] at hbytes
  rw [baseKey, baseKey, (Statement.beq_iff.mp h).2.2.1, Claim.hash, Claim.hash, hbytes]

namespace StatementList

/-! ## Numbers that are left out -/

/-- Whether a key has a statement after operations on a list. -/
def Held (ops : MapDiff Statement) (list : StatementList) (key : String) : Prop :=
  (DiffOp.after? (ops.get? key) ((byKey list).get? key)).isSome

/-- Whether operations leave out no number of a key that statements without identifier have. -/
def Gapless (ops : MapDiff Statement) (list : StatementList) : Prop :=
  ∀ statement : Statement, statement.guid? = none → ∀ number earlier, 0 < earlier →
    earlier < number → Held ops list (slotKey (statement.baseKey, number)) →
      Held ops list (slotKey (statement.baseKey, earlier))

theorem properSlot_bare {statement : Statement} (h : statement.guid? = none) {number : Nat}
    (hpositive : 0 < number) : ProperSlot (statement.baseKey, number) :=
  ⟨hpositive, .inl (Statement.baseKey_of_guid_none h)⟩

/-- The slots of the keys that operations leave. -/
def slotsAfter (ops : MapDiff Statement) (list : StatementList) : List (String × Nat) :=
  (patched ops list).map fun entry => splitRepeat entry.1

section First

variable {ops : MapDiff Statement} {list : StatementList} (hlist : list.WellNumbered)
  (hops : ops.NewAll Suits)
include hlist hops

theorem mem_slotsAfter {slot : String × Nat} :
    slot ∈ slotsAfter ops list ↔ ProperSlot slot ∧ Held ops list (slotKey slot) := by
  have harranged := arranged_patched hlist hops
  rw [slotsAfter, List.mem_map]
  constructor
  · rintro ⟨⟨key, statement⟩, member, rfl⟩
    obtain ⟨number, hsmall, hproper, hkey⟩ := (harranged.suits _ member).fits
    obtain rfl : key = slotKey (statement.baseKey, number) := hkey
    simp only
    rw [splitRepeat_slotKey hproper hsmall, Held, (mem_patched hlist.nodup_keys).mp member]
    exact ⟨hproper, rfl⟩
  · rintro ⟨hproper, hheld⟩
    obtain ⟨statement, hstatement⟩ := Option.isSome_iff_exists.mp hheld
    have member := (mem_patched hlist.nodup_keys).mpr hstatement
    obtain ⟨number, hsmall, hproper', hkey⟩ := (harranged.suits _ member).fits
    have hslot := slotKey_injective hproper hproper' hkey
    refine ⟨_, member, ?_⟩
    rw [hslot] at hproper ⊢
    exact splitRepeat_slotKey hproper' hsmall

theorem slotsAfter_map_fst :
    (slotsAfter ops list).map (·.1) = (list.applyDiff ops).map Statement.baseKey := by
  rw [applyDiff_eq hlist.nodup_keys, slotsAfter, List.map_map, List.map_map]
  apply List.map_congr_left
  intro entry member
  exact ((arranged_patched hlist hops).suits entry member).fits.splitRepeat_eq.1

/-- A base with more than one number is that of a statement without identifier. -/
theorem exists_bare {base : String} {number : Nat} (h : (base, number) ∈ slotsAfter ops list)
    (hrepeat : 1 < number) : ∃ statement : Statement, statement.guid? = none ∧
      statement.baseKey = base := by
  obtain ⟨entry, member, hslot⟩ := List.mem_map.mp h
  have hsuits := (arranged_patched hlist hops).suits entry member
  have hbase : entry.2.baseKey = base := by
    rw [← hsuits.fits.splitRepeat_eq.1, hslot]
  refine ⟨entry.2, ?_, hbase⟩
  rw [Option.eq_none_iff_forall_ne_some]
  intro guid hguid
  have hplain := hsuits.plain guid hguid
  rw [← Statement.baseKey_of_guid_some hguid, hbase] at hplain
  obtain ⟨-, ⟨hmark, -⟩ | ⟨-, hone⟩⟩ := ((mem_slotsAfter hlist hops).mp h).1
  · exact hplain hmark
  · exact hrepeat.ne' hone

theorem numbered_slotsAfter (hgapless : Gapless ops list) :
    Numbered [] (slotsAfter ops list) := by
  refine ⟨(arranged_patched hlist hops).growing, ?_, ?_⟩
  · intro slot member
    exact ((mem_slotsAfter hlist hops).mp member).1.1
  · rintro ⟨base, number⟩ member earlier hpositive hle
    obtain ⟨hproper, hheld⟩ := (mem_slotsAfter hlist hops).mp member
    rcases Nat.lt_or_eq_of_le hle with hlt | rfl
    · obtain ⟨statement, hguid, rfl⟩ := exists_bare hlist hops member (by omega)
      have hearlier := hgapless statement hguid number earlier (by simpa using hpositive) hlt hheld
      exact (mem_slotsAfter hlist hops).mpr ⟨properSlot_bare hguid (by simpa using hpositive), hearlier⟩
    · exact member

/-- If no number is left out, the statements have the keys that the operations go by. -/
theorem get?_byKey_of_gapless (hgapless : Gapless ops list) (key : String) :
    (byKey (list.applyDiff ops)).get? key =
      DiffOp.after? (ops.get? key) ((byKey list).get? key) := by
  have hfits : ∀ entry ∈ patched ops list, Fits entry.1 entry.2 := fun entry member =>
    ((arranged_patched hlist hops).suits entry member).fits
  have hkeys := keys_applyDiff_of_numbered hlist.nodup_keys hfits
    (numbered_slotsAfter hlist hops hgapless)
  ext statement
  rw [get?_byKey (wellKeyed_applyDiff hlist hops).nodup_keys,
    keyed_applyDiff_of_keys hlist.nodup_keys hkeys, mem_patched hlist.nodup_keys]

theorem applyDiff_again_of_gapless (hgapless : Gapless ops list) :
    (list.applyDiff ops).applyDiff ops = list.applyDiff ops := by
  refine applyDiff_of_settled (wellKeyed_applyDiff hlist hops).nodup_keys fun key => ?_
  rw [get?_byKey_of_gapless hlist hops hgapless, DiffOp.after?_after?]

/-- There are as many statements of one base afterwards as numbers of this base are held. -/
theorem exists_numbers {statement : Statement} (hguid : statement.guid? = none) :
    ∃ numbers : Finset Nat,
      numbers.card = ((list.applyDiff ops).map Statement.baseKey).count statement.baseKey ∧
      ∀ number, number ∈ numbers ↔
        0 < number ∧ Held ops list (slotKey (statement.baseKey, number)) := by
  let found := (slotsAfter ops list).filter fun slot => slot.1 == statement.baseKey
  have hdistinct : (found.map (·.2)).Nodup := by
    refine List.pairwise_map.mpr (((arranged_patched hlist hops).growing.filter _).imp_of_mem ?_)
    intro first second hfirst hsecond hgrow
    have hbase := beq_iff_eq.mp (List.mem_filter.mp hfirst).2
    have hbase' := beq_iff_eq.mp (List.mem_filter.mp hsecond).2
    exact (hgrow (hbase.trans hbase'.symm)).ne
  refine ⟨(found.map (·.2)).toFinset, ?_, fun number => ?_⟩
  · rw [List.toFinset_card_of_nodup hdistinct, List.length_map,
      ← slotsAfter_map_fst hlist hops, List.count, List.countP_map, List.countP_eq_length_filter]
    rfl
  · have hmember : number ∈ (found.map (·.2)).toFinset ↔
        (statement.baseKey, number) ∈ slotsAfter ops list := by
      simp [found]
    rw [hmember, mem_slotsAfter hlist hops]
    exact and_congr_left' ⟨fun hproper => hproper.1, properSlot_bare hguid⟩

end First

theorem slotKey_mem_keys_iff {list : StatementList} (h : list.WellKeyed) {slot : String × Nat}
    (hslot : ProperSlot slot) :
    slotKey slot ∈ keys list ↔ slot.2 ≤ (list.map Statement.baseKey).count slot.1 := by
  rw [keys_eq_map_slots, List.mem_map]
  constructor
  · rintro ⟨found, member, hkey⟩
    obtain rfl := slotKey_injective (h.properSlot member) hslot hkey
    exact (mem_slots_iff.mp member).2
  · intro hcount
    exact ⟨slot, mem_slots_iff.mpr ⟨hslot.1, hcount⟩, rfl⟩

/-- Whether each operation finds what it leaves: a statement under its key, or none. -/
def Settled (ops : MapDiff Statement) (list : StatementList) : Prop :=
  ∀ key op, ops.get? key = some op → (key ∈ keys list ↔ op.new?.isSome)

theorem get?_byKey_eq_none_of_lt {list : StatementList} (h : list.WellKeyed)
    {slot : String × Nat} (hslot : ProperSlot slot)
    (habove : (list.map Statement.baseKey).count slot.1 < slot.2) :
    (byKey list).get? (slotKey slot) = none := by
  have habsent : slotKey slot ∉ keys list := by
    rw [slotKey_mem_keys_iff h hslot]
    omega
  rwa [mem_keys_iff h.nodup_keys, Option.not_isSome_iff_eq_none] at habsent

/-- A set of numbers is not smaller than a number that it leaves out, if it has all before it and
one behind it. -/
private theorem le_card_of_gap {numbers : Finset Nat} {gap behind : Nat}
    (hbefore : ∀ number, 0 < number → number < gap → number ∈ numbers)
    (hlt : gap < behind) (hbehind : behind ∈ numbers) : gap ≤ numbers.card := by
  have hsubset : insert behind (Finset.Ico 1 gap) ⊆ numbers := by
    intro number member
    rw [Finset.mem_insert, Finset.mem_Ico] at member
    rcases member with rfl | ⟨hlow, hhigh⟩
    · exact hbehind
    · exact hbefore number hlow hhigh
  have habsent : behind ∉ Finset.Ico 1 gap := by
    rw [Finset.mem_Ico]
    omega
  have hle := Finset.card_le_card hsubset
  rw [Finset.card_insert_of_notMem habsent, Nat.card_Ico] at hle
  omega

/-- As many positive numbers as the largest of them are all that there are. -/
private theorem mem_of_le_card {numbers : Finset Nat}
    (h : ∀ number ∈ numbers, 0 < number ∧ number ≤ numbers.card) {number : Nat}
    (hpositive : 0 < number) (hle : number ≤ numbers.card) : number ∈ numbers := by
  have hsubset : numbers ⊆ Finset.Icc 1 numbers.card := fun other member =>
    Finset.mem_Icc.mpr (h other member)
  have hall : numbers = Finset.Icc 1 numbers.card := by
    apply Finset.eq_of_subset_of_card_le hsubset
    rw [Nat.card_Icc]
    omega
  have member : number ∈ Finset.Icc 1 numbers.card := Finset.mem_Icc.mpr ⟨hpositive, hle⟩
  rwa [← hall] at member

/-- A first number that is left out would still be a key of the outcome, since there are at least
as many statements. Then no operation is on it, so the list has fewer statements, and what is held
behind it was put there. But then all that is held are keys of the outcome, and none is left out. -/
theorem gapless_of_settled {ops : MapDiff Statement} {list : StatementList}
    (hlist : list.WellNumbered) (hops : ops.NewAll Suits)
    (hsettled : Settled ops (list.applyDiff ops)) : Gapless ops list := by
  intro statement hguid number earlier hpositive hlt hheld
  obtain ⟨numbers, hcard, hnumbers⟩ := exists_numbers hlist hops hguid
  have hkey {place : Nat} (hplace : 0 < place) :
      slotKey (statement.baseKey, place) ∈ keys (list.applyDiff ops) ↔ place ≤ numbers.card := by
    rw [hcard]
    exact slotKey_mem_keys_iff (wellKeyed_applyDiff hlist hops) (properSlot_bare hguid hplace)
  induction earlier using Nat.strong_induction_on with
  | h earlier ih =>
      have hbefore : ∀ place, 0 < place → place < earlier → place ∈ numbers :=
        fun place hlow hhigh => (hnumbers place).mpr ⟨hlow, ih place hhigh hlow (hhigh.trans hlt)⟩
      have hcount : earlier ≤ numbers.card :=
        le_card_of_gap hbefore hlt ((hnumbers number).mpr ⟨hpositive.trans hlt, hheld⟩)
      cases hop : ops.get? (slotKey (statement.baseKey, earlier)) with
      | some op =>
          rw [Held, hop, DiffOp.isSome_after?]
          exact (hsettled _ op hop).mp ((hkey hpositive).mpr hcount)
      | none =>
          by_contra hgap
          have habsent : (list.map Statement.baseKey).count statement.baseKey < earlier := by
            by_contra hle
            have hmember := (slotKey_mem_keys_iff hlist.toWellKeyed
              (properSlot_bare hguid hpositive)).mpr (Nat.le_of_not_lt hle)
            rw [mem_keys_iff hlist.nodup_keys] at hmember
            apply hgap
            rwa [Held, hop]
          have hput {place : Nat} (hbehind : earlier < place)
              (hplace : Held ops list (slotKey (statement.baseKey, place))) :
              place ≤ numbers.card := by
            have hproper := properSlot_bare hguid (hpositive.trans hbehind)
            rw [Held, get?_byKey_eq_none_of_lt hlist.toWellKeyed hproper
              (habsent.trans hbehind)] at hplace
            cases hop' : ops.get? (slotKey (statement.baseKey, place)) with
            | none =>
                rw [hop'] at hplace
                cases hplace
            | some op =>
                rw [hop', DiffOp.isSome_after?] at hplace
                exact (hkey hproper.1).mp ((hsettled _ op hop').mpr hplace)
          have hsmall : ∀ place ∈ numbers, 0 < place ∧ place ≤ numbers.card := by
            intro place member
            obtain ⟨hplace, hheld⟩ := (hnumbers place).mp member
            refine ⟨hplace, ?_⟩
            rcases Nat.lt_or_ge earlier place with hbehind | hle
            · exact hput hbehind hheld
            · exact hle.trans hcount
          exact hgap ((hnumbers earlier).mp (mem_of_le_card hsmall hpositive hcount)).2

/-! ## A second application -/

/-- Whether, of each base, new statements are put under smaller numbers than those that are
removed. -/
def PutsBelow (ops : MapDiff Statement) : Prop :=
  ∀ base put removed op op', ProperSlot (base, put) → ProperSlot (base, removed) →
    ops.get? (slotKey (base, put)) = some op → op.new?.isSome →
    ops.get? (slotKey (base, removed)) = some op' → op'.new? = none → put < removed

/-- A list has its statements under the first numbers, so a computed difference removes only
numbers above those that it puts. -/
theorem putsBelow_diff (old : StatementList) {new : StatementList} (hnew : new.WellKeyed) :
    PutsBelow (diff old new) := by
  intro base put removed op op' hput hremoved hop hsome hop' hnone
  have hbetween := (get?_diff old new _).symm.trans hop
  have hbetween' := (get?_diff old new _).symm.trans hop'
  rw [(DiffOp.after?_of_between? rfl hbetween).2, ← mem_keys_iff hnew.nodup_keys,
    slotKey_mem_keys_iff hnew hput] at hsome
  rw [(DiffOp.after?_of_between? rfl hbetween').2, ← Option.not_isSome_iff_eq_none,
    ← mem_keys_iff hnew.nodup_keys, slotKey_mem_keys_iff hnew hremoved] at hnone
  exact hsome.trans_lt (Nat.lt_of_not_le hnone)

section Second

variable {ops : MapDiff Statement} {list : StatementList} (hlist : list.WellKeyed)
  (hops : ops.NewAll Suits)
include hlist hops

/-- An operation leaves a statement the base key that it has. -/
theorem baseKey_of_after? {key : String} {before after : Statement}
    (hmember : (key, before) ∈ keyed list)
    (hafter : DiffOp.after? (ops.get? key) (some before) = some after) :
    after.baseKey = before.baseKey := by
  rcases DiffOp.eq_some_of_after? hafter with hsame | ⟨op, hop, hnew⟩
  · rw [Option.some.inj hsame]
  · obtain ⟨number, -, hproper, hkey⟩ := (hops key op after hop hnew).fits
    obtain ⟨-, number', hslot, hkey'⟩ := slot_of_mem_keyed hmember
    have hsame := slotKey_injective hproper (hlist.properSlot hslot) (hkey.symm.trans hkey')
    exact congrArg Prod.fst hsame

/-- The statements of a list that operations take out. -/
def removed (ops : MapDiff Statement) (list : StatementList) : List (String × Statement) :=
  (keyed list).filter fun entry => (DiffOp.after? (ops.get? entry.1) (some entry.2)).isNone

/-- Of each base, what is taken out and what is added makes up for the difference in number. -/
theorem count_applyDiff (base : String) :
    ((list.applyDiff ops).map Statement.baseKey).count base +
        ((removed ops list).map (·.2.baseKey)).count base =
      (list.map Statement.baseKey).count base +
        ((appended ops list).map (·.2.baseKey)).count base := by
  have hkept : ((kept ops list).map (·.2.baseKey)).count base =
      (((keyed list).filter fun entry =>
        !(DiffOp.after? (ops.get? entry.1) (some entry.2)).isNone).map (·.2.baseKey)).count base := by
    congr 1
    rw [kept, List.map_filterMap, ← List.filterMap_eq_map, ← List.filterMap_eq_filter,
      List.filterMap_filterMap]
    apply List.filterMap_congr
    rintro ⟨key, before⟩ member
    cases hafter : DiffOp.after? (ops.get? key) (some before) with
    | none => simp [hafter, Option.guard]
    | some after => simp [hafter, Option.guard, baseKey_of_after? hlist hops member hafter]
  have hlistCount : (list.map Statement.baseKey).count base =
      ((keyed list).map (·.2.baseKey)).count base := by
    conv_lhs => rw [← keyed_map_snd list, List.map_map]
    rfl
  have hsplit := ((List.filter_append_perm (fun entry : String × Statement =>
    (DiffOp.after? (ops.get? entry.1) (some entry.2)).isNone) (keyed list)).map
      (·.2.baseKey)).count_eq base
  have houtcome : ((list.applyDiff ops).map Statement.baseKey).count base =
      ((kept ops list).map (·.2.baseKey)).count base +
        ((appended ops list).map (·.2.baseKey)).count base := by
    rw [applyDiff_eq hlist.nodup_keys, patched, List.map_map, List.map_append, List.count_append]
    rfl
  rw [List.map_append, List.count_append] at hsplit
  rw [houtcome, hkept, hlistCount, ← hsplit, removed]
  omega

omit hops in
theorem mem_removed {key : String} {before : Statement} :
    (key, before) ∈ removed ops list ↔ (byKey list).get? key = some before ∧
      ∃ op, ops.get? key = some op ∧ op.new? = none := by
  rw [removed, List.mem_filter, get?_byKey hlist.nodup_keys]
  refine and_congr_right fun _ => ?_
  cases hop : ops.get? key with
  | none => simp [DiffOp.after?]
  | some op =>
      have hnone : (DiffOp.after? (some op) (some before)).isNone = op.new?.isNone := by
        rw [← Option.not_isSome, DiffOp.isSome_after?, Option.not_isSome]
      simp [hnone]

/-- A removed statement and an added one do not have the same base: the key of the first is one of
the list and has the greater number. -/
theorem baseKey_ne_of_putsBelow (hbelow : PutsBelow ops) {key key' : String}
    {before new : Statement} (hremoved : (key, before) ∈ removed ops list)
    (hadded : (key', new) ∈ appended ops list) : new.baseKey ≠ before.baseKey := by
  intro same
  obtain ⟨hbefore, op, hop, hnone⟩ := (mem_removed hlist).mp hremoved
  obtain ⟨habsent, hafter⟩ := (mem_appended hlist.nodup_keys).mp hadded
  obtain ⟨-, number, hslot, rfl⟩ := slot_of_mem_keyed ((get?_byKey hlist.nodup_keys).mp hbefore)
  rcases DiffOp.eq_some_of_after? hafter with hpresent | ⟨op', hop', hnew⟩
  · rw [mem_keys_iff hlist.nodup_keys, hpresent] at habsent
    exact habsent rfl
  · obtain ⟨number', -, hproper, rfl⟩ := (hops key' op' new hop' hnew).fits
    rw [same] at hproper habsent hop'
    have hsome : op'.new?.isSome := by rw [hnew]; rfl
    have hlt := hbelow _ _ _ op' op hproper (hlist.properSlot hslot) hop' hsome hop hnone
    have hpresent : number ≤ (list.map Statement.baseKey).count before.baseKey :=
      (mem_slots_iff.mp hslot).2
    rw [slotKey_mem_keys_iff hlist hproper] at habsent
    exact habsent (hlt.le.trans hpresent)

/-- Operations that leave a list as it is, up to equality, find what they leave. -/
theorem settled_of_beq (hbelow : PutsBelow ops) (h : (list.applyDiff ops == list) = true) :
    Settled ops list := by
  have hcounts (base : String) : ((removed ops list).map (·.2.baseKey)).count base =
      ((appended ops list).map (·.2.baseKey)).count base := by
    have hbases : (list.applyDiff ops).map Statement.baseKey = list.map Statement.baseKey :=
      map_eq_of_beq (fun _ _ _ _ => Statement.baseKey_of_beq) h
    have hcount := count_applyDiff hlist hops base
    rw [hbases] at hcount
    omega
  have hexists (first second : List (String × Statement))
      (hcounts : ∀ base, (first.map (·.2.baseKey)).count base =
        (second.map (·.2.baseKey)).count base) {entry : String × Statement}
      (hentry : entry ∈ first) : ∃ other ∈ second, other.2.baseKey = entry.2.baseKey := by
    have hpositive := List.count_pos_iff.mpr (List.mem_map_of_mem (f := (·.2.baseKey)) hentry)
    rw [hcounts, List.count_pos_iff, List.mem_map] at hpositive
    exact hpositive
  have hremoved : ∀ entry, entry ∉ removed ops list := by
    intro entry member
    obtain ⟨other, hother, same⟩ := hexists _ _ hcounts member
    exact baseKey_ne_of_putsBelow hlist hops hbelow member hother same
  have happended : ∀ entry, entry ∉ appended ops list := by
    intro entry member
    obtain ⟨other, hother, -⟩ := hexists _ _ (fun base => (hcounts base).symm) member
    exact hremoved other hother
  intro key op hop
  rw [mem_keys_iff hlist.nodup_keys]
  cases hbefore : (byKey list).get? key with
  | some before =>
      refine iff_of_true rfl ?_
      rw [← Option.ne_none_iff_isSome]
      intro hnone
      exact hremoved (key, before) ((mem_removed hlist).mpr ⟨hbefore, op, hop, hnone⟩)
  | none =>
      cases hnew : op.new? with
      | none => rfl
      | some new =>
          have habsent : key ∉ keys list := by
            rw [mem_keys_iff hlist.nodup_keys, hbefore]
            simp
          have hafter : DiffOp.after? (ops.get? key) ((byKey list).get? key) = some new := by
            rw [hop, hbefore, DiffOp.after?_some_none, hnew]
          exact absurd ((mem_appended hlist.nodup_keys).mpr ⟨habsent, hafter⟩) (happended _)

end Second

/-- A second application of a computed difference changes something if the first one leaves out a
number. -/
theorem gapless_of_again (old : StatementList) {new list : StatementList}
    (hnew : new.WellNumbered) (hlist : list.WellNumbered)
    (h : ((list.applyDiff (diff old new)).applyDiff (diff old new) ==
      list.applyDiff (diff old new)) = true) : Gapless (diff old new) list := by
  have hops := newAll_diff old hnew
  have hbelow := putsBelow_diff old hnew.toWellKeyed
  exact gapless_of_settled hlist hops
    (settled_of_beq (wellKeyed_applyDiff hlist hops) hops hbelow h)

theorem nanFree_applyDiff_diff (old : StatementList) {new list : StatementList}
    (hself : ∀ statement ∈ new, statement.NaNFree)
    (hlist : ∀ statement ∈ list, statement.NaNFree) :
    ∀ statement ∈ list.applyDiff (diff old new), statement.NaNFree := by
  refine forall_applyDiff hlist ?_
  intro key op statement hop hput
  have hbetween := (get?_diff old new key).symm.trans hop
  rw [(DiffOp.after?_of_between? rfl hbetween).2] at hput
  exact hself _ (mem_of_get?_byKey hput)

/-- No number is left out where all statements have identifiers, since these are not numbered. -/
theorem gapless_of_identified (old : StatementList) {new list : StatementList}
    (hnew : new.Identified) (hlist : list.Identified) : Gapless (diff old new) list := by
  intro statement hbare number earlier hpositive hlt hheld
  obtain ⟨found, hfound⟩ := Option.isSome_iff_exists.mp hheld
  obtain ⟨source, hsource, hkey⟩ : ∃ source : StatementList, source.Identified ∧
      (byKey source).get? (slotKey (statement.baseKey, number)) = some found := by
    rcases DiffOp.eq_some_of_after? hfound with hpresent | ⟨op, hop, hput⟩
    · exact ⟨list, hlist, hpresent⟩
    · have hbetween := (get?_diff old new _).symm.trans hop
      rw [(DiffOp.after?_of_between? rfl hbetween).2] at hput
      exact ⟨new, hnew, hput⟩
  have hguid := hsource.guid_of_get?_byKey hkey
  have hmember := mem_of_get?_byKey hkey
  have hplain := hsource.plain _ (List.mem_filterMap.mpr ⟨found, hmember, hguid⟩)
  obtain ⟨-, number', hslot, hsame⟩ :=
    slot_of_mem_keyed ((get?_byKey hsource.nodup_keys).mp hkey)
  have hbase : statement.baseKey = found.baseKey :=
    congrArg Prod.fst (slotKey_injective (properSlot_bare hbare (hpositive.trans hlt))
      (hsource.properSlot hslot) hsame)
  have hmark := (Statement.baseKey_of_guid_none hbare).1
  rw [hbase, Statement.baseKey_of_guid_some hguid] at hmark
  exact absurd hmark hplain

end StatementList

namespace EntityDiff

/-- Beside the statements, an entity is settled after one application. -/
theorem patched_patched (diff : EntityDiff) (entity : Entity) :
    diff.patched (diff.patched entity) =
      (diff.patched entity).setStatements
        ((diff.patched entity).statements.applyDiff diff.claims) := by
  have hterms (fingerprint : Fingerprint) :
      diff.patchedTerms (diff.patchedTerms fingerprint) = diff.patchedTerms fingerprint := by
    simp only [patchedTerms, MapDiff.patch_patch]
  cases entity with
  | item i =>
      have hlinks : diff.siteLinks.patch (diff.siteLinks.patch i.siteLinks) =
          diff.siteLinks.patch i.siteLinks := MapDiff.patch_patch _ _
      simp only [patched, Entity.setFingerprint, Entity.setStatements, Entity.setSiteLinks,
        Entity.fingerprint, Entity.statements, Entity.siteLinks, Entity.siteLinks?,
        Option.getD_some, hterms, hlinks]
  | property p =>
      simp only [patched, Entity.setFingerprint, Entity.setStatements, Entity.setSiteLinks,
        Entity.fingerprint, Entity.statements, hterms]

section Twice

variable {old new target : Entity} (hnew : new.Regular) (htarget : target.Regular)
include hnew htarget

theorem patched_patched_of_gapless
    (hgapless : StatementList.Gapless (computed old new).claims target.statements) :
    (computed old new).patched ((computed old new).patched target) =
      (computed old new).patched target := by
  have hstatements : (target.statements.applyDiff (computed old new).claims).applyDiff
      (computed old new).claims = target.statements.applyDiff (computed old new).claims :=
    StatementList.applyDiff_again_of_gapless htarget.wellNumbered
      (StatementList.newAll_diff old.statements hnew.wellNumbered) hgapless
  rw [patched_patched, patched_statements, hstatements, ← patched_statements,
    Entity.setStatements_self]

theorem gapless_of_patched_patched
    (h : ((computed old new).patched ((computed old new).patched target) ==
      (computed old new).patched target) = true) :
    StatementList.Gapless (computed old new).claims target.statements := by
  have hstatements := (Entity.rest_of_beq h).1
  rw [patched_patched, Entity.setStatements_statements, patched_statements] at hstatements
  exact StatementList.gapless_of_again old.statements hnew.wellNumbered htarget.wellNumbered
    hstatements

theorem patched_beq_self : ((computed old new).patched target ==
    (computed old new).patched target) = true := by
  have hstatements : (((computed old new).patched target).statements ==
      ((computed old new).patched target).statements) = true := by
    rw [patched_statements]
    refine list_beq_self fun statement member => Statement.NaNFree.beq_self ?_
    exact StatementList.nanFree_applyDiff_diff old.statements hnew.nanFree htarget.nanFree
      statement member
  have hset := Entity.beq_setStatements hstatements
  rwa [Entity.setStatements_self] at hset

end Twice

/-- What two applications of a difference make of a target. -/
structure AppliedTwice (diff : EntityDiff) (target first second : Entity) : Prop where
  once : diff.apply.run target = .ok () first
  twice : diff.apply.run first = .ok () second
  fingerprint : second.fingerprint = first.fingerprint
  siteLinks? : second.siteLinks? = first.siteLinks?
  id? : second.id? = first.id?
  dataType? : second.dataType? = first.dataType?
  /-- Only statements that are numbered anew can change. -/
  unchanged : (second == first) = true ↔
    StatementList.Gapless diff.claims target.statements
  same : StatementList.Gapless diff.claims target.statements → second = first

/-- The difference of two entities can be applied to any target of their type and then again. The
second application changes nothing exactly if the first one leaves out no number of statements
without identifier, in particular if all statements have identifiers. -/
theorem apply_twice {old new target : Entity} (hnew : new.Regular) (htarget : target.Regular)
    (htype : old.type = new.type) (htargetType : old.type = target.type) :
    ∃ diff first second, between old new = .ok diff ∧ AppliedTwice diff target first second ∧
      (new.statements.Identified → target.statements.Identified → second = first) := by
  have hfit := fit_computed old hnew.sound
  have hfirstType : (computed old new).type = ((computed old new).patched target).type := by
    rw [patched_type]
    exact htargetType
  refine ⟨computed old new, (computed old new).patched target,
    (computed old new).patched ((computed old new).patched target), between_of_type htype, ?_, ?_⟩
  · exact
      { once := hfit.run_apply htargetType
        twice := hfit.run_apply hfirstType
        fingerprint := by rw [patched_patched, Entity.setStatements_fingerprint]
        siteLinks? := by rw [patched_patched, Entity.setStatements_siteLinks?]
        id? := patched_id? _ _
        dataType? := patched_dataType? _ _
        unchanged := by
          refine ⟨gapless_of_patched_patched hnew htarget, fun hgapless => ?_⟩
          rw [patched_patched_of_gapless hnew htarget hgapless]
          exact patched_beq_self hnew htarget
        same := patched_patched_of_gapless hnew htarget }
  · intro hnewIdentified htargetIdentified
    exact patched_patched_of_gapless hnew htarget
      (StatementList.gapless_of_identified _ hnewIdentified htargetIdentified)

/-- The difference from two statements of one claim to one, applied to three. -/
theorem apply_twice_to_repeated_statements :
    let old := labelledItem none "ant" [bareStatement none .normal, bareStatement none .normal]
    let new := labelledItem none "bee" [bareStatement none .preferred]
    let target := labelledItem none "cat" [bareStatement none .deprecated,
      bareStatement none .normal, bareStatement none .preferred]
    new.Regular ∧ target.Regular ∧ old.type = new.type ∧ old.type = target.type ∧
      ∃ diff first second, between old new = .ok diff ∧ AppliedTwice diff target first second ∧
        (new.statements.Identified → target.statements.Identified → second = first) := by
  intro old new target
  have hnew : new.Regular := regular_labelledItem none (by decide) (by simp) (by decide)
  have htarget : target.Regular := regular_labelledItem none (by decide) (by simp) (by decide)
  exact ⟨hnew, htarget, rfl, rfl, apply_twice hnew htarget rfl rfl⟩

/-- The statements of one claim have their places as numbers. -/
private theorem get?_byKey_bare {ranks : List Rank} (hshort : ranks.length < UInt64.size)
    {number : Nat} (hpositive : 0 < number) :
    (byKey (ranks.map (bareStatement none))).get?
        (slotKey ((bareStatement none .normal).baseKey, number)) =
      (ranks.map (bareStatement none))[number - 1]? := by
  have hregular : (labelledItem none "ant" (ranks.map (bareStatement none))).Regular := by
    refine regular_labelledItem none (by decide) ?_ (by simpa using hshort)
    intro statement member
    obtain ⟨rank, -, rfl⟩ := List.mem_map.mp member
    exact ⟨rank, rfl⟩
  have hgroup : StatementList.group (ranks.map (bareStatement none))
      (bareStatement none .normal).baseKey = ranks.map (bareStatement none) := by
    rw [StatementList.group, List.filter_eq_self]
    intro statement member
    obtain ⟨rank, -, rfl⟩ := List.mem_map.mp member
    exact beq_iff_eq.mpr rfl
  have hproper : ProperSlot ((bareStatement none .normal).baseKey, number) :=
    StatementList.properSlot_bare rfl hpositive
  have hkey := StatementList.get?_byKey_slotKey hregular.statements hproper
  conv_rhs => rw [← hgroup]
  exact hkey

/-- Of two statements of one claim, the second gets the key of the first if this is removed. -/
private theorem not_gapless_of_removal :
    ¬StatementList.Gapless (StatementList.diff [bareStatement none .normal] [])
      [bareStatement none .normal, bareStatement none .preferred] := by
  intro hgapless
  have hop (number : Nat) : (StatementList.diff [bareStatement none .normal] []).get?
      (slotKey ((bareStatement none .normal).baseKey, number)) =
        DiffOp.between? ((byKey [bareStatement none .normal]).get?
          (slotKey ((bareStatement none .normal).baseKey, number))) none :=
    StatementList.get?_diff _ _ _
  have hold (number : Nat) (hpositive : 0 < number) :=
    get?_byKey_bare (show [Rank.normal].length < UInt64.size by decide) hpositive
  have htarget (number : Nat) (hpositive : 0 < number) :=
    get?_byKey_bare (show [Rank.normal, .preferred].length < UInt64.size by decide) hpositive
  have hheld := hgapless (bareStatement none .normal) rfl 2 1 (by decide) (by decide)
  simp only [List.map_cons, List.map_nil] at hold htarget
  rw [StatementList.Held, StatementList.Held, hop, hop, hold 1 (by decide), hold 2 (by decide),
    htarget 1 (by decide), htarget 2 (by decide)] at hheld
  simp [DiffOp.between?, DiffOp.after?, DiffOp.new?] at hheld

/-- A removal that is applied again can remove another statement. -/
theorem apply_twice_removes_more :
    let old := labelledItem none "ant" [bareStatement none .normal]
    let new := labelledItem none "ant" []
    let target := labelledItem none "ant" [bareStatement none .normal,
      bareStatement none .preferred]
    old.Regular ∧ new.Regular ∧ target.Regular ∧
      ∃ diff first second, between old new = .ok diff ∧ diff.apply.run target = .ok () first ∧
        diff.apply.run first = .ok () second ∧ (second == first) = false := by
  intro old new target
  have hold : old.Regular := regular_labelledItem none (by decide) (by simp) (by decide)
  have hnew : new.Regular := regular_labelledItem none (by decide) (by simp) (by decide)
  have htarget : target.Regular := regular_labelledItem none (by decide) (by simp) (by decide)
  have hfit : (computed old new).Fit := fit_computed old hnew.sound
  have htype : old.type = new.type := rfl
  have htargetType : (computed old new).type = target.type := rfl
  have hfirstType : (computed old new).type = ((computed old new).patched target).type := by
    rw [patched_type]
    exact htargetType
  refine ⟨hold, hnew, htarget, computed old new, (computed old new).patched target,
    (computed old new).patched ((computed old new).patched target), between_of_type htype,
    hfit.run_apply htargetType, hfit.run_apply hfirstType, ?_⟩
  rw [Bool.eq_false_iff]
  intro h
  have hgapless : StatementList.Gapless (StatementList.diff old.statements new.statements)
      target.statements := gapless_of_patched_patched hnew htarget h
  exact not_gapless_of_removal hgapless

end EntityDiff

end KnowledgeBase
