import KnowledgeBase.Proofs.Diff.ThreeWay
import Mathlib.Data.List.Pairwise

/-!
Deletions under a merge. A merge works key by key, so a statement that one side deletes and
the other keeps is gone from the outcome if the other side keeps it under the key it has in
the base. A statement with an identifier has no other key. One without is known by its number
among the statements of its claim; where the other side has it under another number, this is
a statement that was added there, and it comes back.
-/

namespace KnowledgeBase

/-! ## The merge of one value -/

section Values

variable {α : Type} [BEq α]

/-- Whether a value is a merge of two versions of a base: what one of them leaves as it was,
it has from the other, and where both change it they agree. -/
structure MergedValue (base first second merged : Option α) : Prop where
  unchangedSecond : (base == second) = true → (merged == first) = true
  unchangedFirst : (base == first) = true → (merged == second) = true
  changed : (base == first) = false → (base == second) = false →
    (merged == first) = true ∧ (merged == second) = true

theorem MergedValue.symm {base first second merged : Option α}
    (h : MergedValue base first second merged) : MergedValue base second first merged where
  unchangedSecond := h.unchangedFirst
  unchangedFirst := h.unchangedSecond
  changed hsecond hfirst := (h.changed hfirst hsecond).symm

theorem mergedValue_pick [PartialEquivBEq α] {base current submitted : Option α}
    (hfree : ¬Contradict base current submitted) (hcurrent : (current == current) = true)
    (hsubmitted : (submitted == submitted) = true) :
    MergedValue base current submitted (pick base current submitted) where
  unchangedSecond same := by rwa [pick, if_pos same]
  unchangedFirst same := by
    rw [pick]
    split
    next same' => exact PartialEquivBEq.trans (PartialEquivBEq.symm same) same'
    next => exact hsubmitted
  changed hfirst hsecond := by
    rw [pick, if_neg (Bool.eq_false_iff.mp hsecond)]
    have hagree : (submitted == current) = true := by
      by_contra hdiffer
      exact hfree ⟨hfirst, hsecond, Bool.eq_false_iff.mpr hdiffer⟩
    exact ⟨hagree, hsubmitted⟩

end Values

/-! ## Statements and their keys -/

namespace StatementList

/-- Whether no statement of a list equals a later one. -/
def Distinct (list : StatementList) : Prop :=
  list.Pairwise fun first second => (first == second) = false

/-- Whether the statement that has a key in a list equals a statement. -/
def HasAt (list : StatementList) (key : String) (statement : Statement) : Prop :=
  (some statement == (byKey list).get? key) = true

theorem contains_iff_exists_beq {list : StatementList} {statement : Statement} :
    list.contains statement = true ↔ ∃ member ∈ list, (statement == member) = true := by
  rw [List.contains_eq_any_beq, List.any_eq_true]

variable {list : StatementList} {key : String} {statement : Statement}

theorem hasAt_iff : list.HasAt key statement ↔
    ∃ found, (byKey list).get? key = some found ∧ (statement == found) = true := by
  unfold HasAt
  cases (byKey list).get? key <;> simp

theorem contains_iff_hasAt (h : list.WellKeyed) :
    list.contains statement = true ↔ ∃ key, list.HasAt key statement := by
  simp only [contains_iff_exists_beq, hasAt_iff]
  constructor
  · rintro ⟨member, hmember, same⟩
    have hkeyed : member ∈ (keyed list).map (·.2) := by rwa [keyed_map_snd]
    obtain ⟨⟨key, found⟩, hentry, rfl⟩ := List.mem_map.mp hkeyed
    exact ⟨key, found, (get?_byKey h.nodup_keys).mpr hentry, same⟩
  · rintro ⟨key, found, hfound, same⟩
    exact ⟨found, mem_of_get?_byKey hfound, same⟩

/-- No statement is under two keys of a list without equal statements. -/
theorem HasAt.key_eq (hlist : list.WellKeyed) (hdistinct : list.Distinct) {other : String}
    (h : list.HasAt key statement) (h' : list.HasAt other statement) : key = other := by
  obtain ⟨found, hfound, same⟩ := hasAt_iff.mp h
  obtain ⟨found', hfound', same'⟩ := hasAt_iff.mp h'
  have hsymm : Std.Symm fun first second : String × Statement =>
      (first.2 == second.2) = false := by
    refine ⟨fun first second hdiffer => ?_⟩
    rw [Bool.eq_false_iff] at hdiffer ⊢
    exact fun hequal => hdiffer (PartialEquivBEq.symm hequal)
  have hpairwise : (keyed list).Pairwise fun first second => (first.2 == second.2) = false := by
    rw [Distinct, ← keyed_map_snd list] at hdistinct
    exact List.pairwise_map.mp hdistinct
  by_contra hother
  have hdiffer := hpairwise.forall ((get?_byKey hlist.nodup_keys).mp hfound)
    ((get?_byKey hlist.nodup_keys).mp hfound') fun hentry => hother (congrArg Prod.fst hentry)
  rw [PartialEquivBEq.trans (PartialEquivBEq.symm same) same'] at hdiffer
  cases hdiffer

/-- A statement with an identifier has it as its key, in every list. -/
theorem HasAt.key_eq_guid (hlist : list.WellKeyed) (h : list.HasAt key statement)
    {guid : String} (hguid : statement.guid? = some guid) : key = guid := by
  obtain ⟨found, hfound, same⟩ := hasAt_iff.mp h
  obtain ⟨-, -, hsame, -⟩ := Statement.beq_iff.mp same
  exact hlist.key_eq_guid ((get?_byKey hlist.nodup_keys).mp hfound) (hsame ▸ hguid)

/-! ## The outcome of a merge -/

section Merge

variable {base deleting keeping outcome : StatementList} {merged : String → Option Statement}
  (hmerged : ∀ key, MergedValue ((byKey base).get? key) ((byKey deleting).get? key)
    ((byKey keeping).get? key) (merged key))
  (houtcome : outcome.contains statement = true ↔
    ∃ key, (some statement == merged key) = true)
  (hbase : base.WellKeyed) (hdeleting : deleting.WellKeyed) (hkeeping : keeping.WellKeyed)
  (hbaseDistinct : base.Distinct) (hkeepingDistinct : keeping.Distinct)
  (hmember : base.HasAt key statement) (hdeleted : deleting.contains statement = false)
include hmerged houtcome hbase hdeleting hkeeping hbaseDistinct hkeepingDistinct hmember hdeleted

/-- A statement kept under its key is deleted; kept under another key it stays. -/
theorem deleted_iff_hasAt (hkept : keeping.contains statement = true) :
    outcome.contains statement = false ↔ keeping.HasAt key statement := by
  have hgone (other : String) : ¬deleting.HasAt other statement := by
    intro hfound
    rw [(contains_iff_hasAt hdeleting).mpr ⟨other, hfound⟩] at hdeleted
    cases hdeleted
  have hequal {first second : Option Statement} (h : (first == second) = true)
      (same : (some statement == first) = true) : (some statement == second) = true :=
    PartialEquivBEq.trans same h
  constructor
  · intro hlost
    by_contra habsent
    obtain ⟨other, hother⟩ := (contains_iff_hasAt hkeeping).mp hkept
    have hadded : ((byKey base).get? other == (byKey keeping).get? other) = false := by
      -- the base has the statement under its own key only
      rw [Bool.eq_false_iff]
      intro same
      have hbaseOther : base.HasAt other statement := hequal (PartialEquivBEq.symm same) hother
      rw [hmember.key_eq hbase hbaseDistinct hbaseOther] at habsent
      exact habsent hother
    have htaken : (merged other == (byKey keeping).get? other) = true := by
      by_cases hunchanged : ((byKey base).get? other == (byKey deleting).get? other) = true
      · exact (hmerged other).unchangedFirst hunchanged
      · exact ((hmerged other).changed (Bool.eq_false_iff.mpr hunchanged) hadded).2
    have hstays := houtcome.mpr ⟨other, hequal (PartialEquivBEq.symm htaken) hother⟩
    rw [hlost] at hstays
    cases hstays
  · intro hkey
    rw [Bool.eq_false_iff]
    intro hstays
    obtain ⟨other, hother⟩ := houtcome.mp hstays
    by_cases hunchanged : ((byKey base).get? other == (byKey keeping).get? other) = true
    · exact hgone other (hequal ((hmerged other).unchangedSecond hunchanged) hother)
    · by_cases hunchanged' : ((byKey base).get? other == (byKey deleting).get? other) = true
      · have hkeptOther : keeping.HasAt other statement :=
          hequal ((hmerged other).unchangedFirst hunchanged') hother
        rw [← hkey.key_eq hkeeping hkeepingDistinct hkeptOther] at hunchanged
        exact hunchanged (PartialEquivBEq.trans (PartialEquivBEq.symm hmember) hkey)
      · have hchanged := (hmerged other).changed (Bool.eq_false_iff.mpr hunchanged')
          (Bool.eq_false_iff.mpr hunchanged)
        exact hgone other (hequal hchanged.1 hother)

/-- A statement with an identifier has the same key on all sides, so it is deleted. -/
theorem deleted_of_guid (hkept : keeping.contains statement = true) {guid : String}
    (hguid : statement.guid? = some guid) : outcome.contains statement = false := by
  obtain ⟨other, hother⟩ := (contains_iff_hasAt hkeeping).mp hkept
  refine (deleted_iff_hasAt hmerged houtcome hbase hdeleting hkeeping hbaseDistinct
    hkeepingDistinct hmember hdeleted hkept).mpr ?_
  rwa [hmember.key_eq_guid hbase hguid, ← hother.key_eq_guid hkeeping hguid]

end Merge

/-- What a merge of two versions of a base has at a key. -/
def picked (base current submitted : StatementList) (key : String) : Option Statement :=
  pick ((byKey base).get? key) ((byKey current).get? key) ((byKey submitted).get? key)

/-- What a joined difference leaves contains exactly what is picked at some key. -/
theorem contains_applyDiff_iff {base current submitted : StatementList}
    {merged : MapDiff Statement} (hmerged : ∀ key, merged.get? key =
      ((diff base submitted).get? key).or ((diff base current).get? key))
    (hbase : base.WellKeyed) (hselfBase : ∀ statement ∈ base, statement.NaNFree)
    (hselfCurrent : ∀ statement ∈ current, statement.NaNFree)
    (hselfSubmitted : ∀ statement ∈ submitted, statement.NaNFree) :
    (base.applyDiff merged).contains statement = true ↔
      ∃ key, (some statement == picked base current submitted key) = true := by
  have hvalue := after?_joined hmerged hselfBase hselfCurrent hselfSubmitted
  rw [contains_iff_exists_beq, applyDiff_eq hbase.nodup_keys]
  constructor
  · rintro ⟨member, hmember, same⟩
    obtain ⟨⟨key, found⟩, hentry, rfl⟩ := List.mem_map.mp hmember
    have hkey := hvalue key
    rw [(mem_patched hbase.nodup_keys).mp hentry] at hkey
    exact ⟨key, PartialEquivBEq.trans (b := some found) same hkey⟩
  · rintro ⟨key, hkey⟩
    have same := PartialEquivBEq.trans hkey (PartialEquivBEq.symm (hvalue key))
    cases hfound : DiffOp.after? (merged.get? key) ((byKey base).get? key) with
    | none =>
        rw [hfound] at same
        cases same
    | some member =>
        rw [hfound] at same
        exact ⟨member, List.mem_map.mpr
          ⟨(key, member), (mem_patched hbase.nodup_keys).mpr hfound, rfl⟩, same⟩

end StatementList

/-! ## Entities -/

/-- A well-kept entity of which no two statements are equal. -/
structure Entity.Irredundant (entity : Entity) : Prop extends entity.WellKept where
  distinct : entity.statements.Distinct

namespace EntityDiff

open StatementList

section Resolved

variable {base current submitted outcome : Entity} (hbase : base.Irredundant)
  (hcurrent : current.Irredundant) (hsubmitted : submitted.Irredundant)
  (hcurrentType : base.type = current.type) (hsubmittedType : base.type = submitted.type)
  (hresolve : resolveEdits base current submitted = .ok outcome)
include hbase hcurrent hsubmitted hcurrentType hsubmittedType hresolve

/-- A resolution that succeeds has a merge of both sides at every key. -/
private theorem merged_of_resolveEdits :
    (∀ key, MergedValue ((byKey base.statements).get? key)
      ((byKey current.statements).get? key) ((byKey submitted.statements).get? key)
      (picked base.statements current.statements submitted.statements key)) ∧
    ∀ statement, outcome.statements.contains statement = true ↔ ∃ key, (some statement ==
      picked base.statements current.statements submitted.statements key) = true := by
  rcases resolveEdits_cases hbase.toWellKept hcurrent.sound hsubmitted.sound hcurrentType
    hsubmittedType with ⟨merged, hrun, hjoins, hfree⟩ | ⟨place, herror, -⟩
  swap
  · rw [herror] at hresolve
    cases hresolve
  rw [hrun, Except.ok.injEq] at hresolve
  subst hresolve
  constructor
  · intro key
    refine mergedValue_pick ?_
      (get?_byKey_beq_self hcurrent.nanFree key)
      (get?_byKey_beq_self hsubmitted.nanFree key)
    intro hcontradict
    exact hfree ⟨.claims, key⟩
      ((contradict_map SectionValue.statement (fun _ _ => rfl) _ _ _).mpr hcontradict)
  · intro statement
    rw [patched_statements]
    exact contains_applyDiff_iff hjoins.claims hbase.statements hbase.nanFree hcurrent.nanFree
      hsubmitted.nanFree

/-- A statement of the base that one side of a merge deletes and the other keeps is deleted
exactly if the other side keeps it under the key it has in the base, as it does whenever the
statement has an identifier. -/
theorem resolveEdits_deletes {deleting keeping : Entity}
    (hsides : deleting = current ∧ keeping = submitted ∨
      deleting = submitted ∧ keeping = current)
    {key : String} {statement : Statement} (hmember : (key, statement) ∈ keyed base.statements)
    (hdeleted : deleting.statements.contains statement = false)
    (hkept : keeping.statements.contains statement = true) :
    (outcome.statements.contains statement = false ↔
      keeping.statements.HasAt key statement) ∧
    (statement.guid?.isSome → outcome.statements.contains statement = false) := by
  have hbaseAt : base.statements.HasAt key statement := by
    have hkeys := hbase.statements.nodup_keys
    rw [HasAt, ← (get?_byKey hkeys).mpr hmember]
    exact get?_byKey_beq_self hbase.nanFree key
  obtain ⟨hmerged, houtcome⟩ := merged_of_resolveEdits hbase hcurrent hsubmitted hcurrentType
    hsubmittedType hresolve
  obtain ⟨hmerged, hdeleting, hkeeping⟩ : (∀ key, MergedValue
      ((byKey base.statements).get? key) ((byKey deleting.statements).get? key)
      ((byKey keeping.statements).get? key)
      (picked base.statements current.statements submitted.statements key)) ∧
      deleting.Irredundant ∧ keeping.Irredundant := by
    rcases hsides with ⟨rfl, rfl⟩ | ⟨rfl, rfl⟩
    · exact ⟨hmerged, hcurrent, hsubmitted⟩
    · exact ⟨fun key => (hmerged key).symm, hsubmitted, hcurrent⟩
  constructor
  · exact deleted_iff_hasAt hmerged (houtcome statement) hbase.statements hdeleting.statements
      hkeeping.statements hbase.distinct hkeeping.distinct hbaseAt hdeleted hkept
  · intro hpresent
    obtain ⟨guid, hguid⟩ := Option.isSome_iff_exists.mp hpresent
    exact deleted_of_guid hmerged (houtcome statement) hbase.statements hdeleting.statements
      hkeeping.statements hbase.distinct hkeeping.distinct hbaseAt hdeleted hkept hguid

end Resolved

/-- One client deletes a statement while another edits the label: it stays deleted. -/
theorem resolveEdits_deletes_identified :
    let statement := bareStatement (some "Q1$1") .normal
    let base := labelledItem none "ant" [statement]
    let current := labelledItem none "ant" []
    let submitted := labelledItem none "bee" [statement]
    (base.Irredundant ∧ current.Irredundant ∧ submitted.Irredundant) ∧
      ∃ outcome, resolveEdits base current submitted = .ok outcome ∧
        current.statements.contains statement = false ∧
        submitted.statements.contains statement = true ∧
        outcome.statements.contains statement = false := by
  intro statement base current submitted
  have hkept {label : String} (hlabel : label.length ≤ maxTermLength) :
      (labelledItem none label [statement]).Irredundant := by
    refine ⟨wellKept_labelledItem hlabel ?_ ⟨?_, ?_⟩, List.pairwise_singleton _ _⟩
    · simp [statement, nanFree_bareStatement]
    · simp [StatementList.guids, statement, bareStatement, Statement.guid?]
    · simp [StatementList.guids, statement, bareStatement, Statement.guid?, looksHashed,
        hashKeyMark]
  have hbase : base.Irredundant := hkept (by decide)
  have hsubmitted : submitted.Irredundant := hkept (by decide)
  have hcurrent : current.Irredundant := by
    refine ⟨wellKept_labelledItem (by decide) ?_ ⟨?_, ?_⟩, .nil⟩ <;>
      simp [StatementList.guids]
  have hdeleted : current.statements.contains statement = false := rfl
  have hstays : submitted.statements.contains statement = true := by decide
  obtain ⟨outcome, hresolve⟩ : ∃ outcome,
      resolveEdits (labelledItem none "ant" [bareStatement (some "Q1$1") .normal])
        (labelledItem none "ant" [])
        (labelledItem none "bee" [bareStatement (some "Q1$1") .normal]) = .ok outcome :=
    ⟨_, rfl⟩
  have hmember : ("Q1$1", statement) ∈ keyed base.statements := List.mem_singleton_self _
  have hgone := (resolveEdits_deletes hbase hcurrent hsubmitted rfl rfl hresolve
    (Or.inl ⟨rfl, rfl⟩) hmember hdeleted hstays).2 rfl
  exact ⟨⟨hbase, hcurrent, hsubmitted⟩, outcome, hresolve, hdeleted, hstays, hgone⟩

/-! ## A statement that comes back -/

/-- An item with one statement of each rank, in order; the claims are all the same. -/
private def ranked (ranks : List Rank) : Entity :=
  labelledItem none "ant" (ranks.map (bareStatement none))

private theorem irredundant_ranked {ranks : List Rank} (h : ranks.Nodup) :
    (ranked ranks).Irredundant := by
  have hguids : StatementList.guids (ranks.map (bareStatement none)) = [] := by
    rw [StatementList.guids, List.filterMap_eq_nil_iff]
    simp [bareStatement, Statement.guid?]
  refine ⟨wellKept_labelledItem (by decide) ?_ ⟨?_, ?_⟩, ?_⟩
  · simp [nanFree_bareStatement]
  · rw [hguids]
    exact List.nodup_nil
  · simp [hguids]
  · refine List.pairwise_map.mpr (h.imp ?_)
    intro first second hother
    rw [Bool.eq_false_iff, ne_eq, Statement.beq_iff]
    rintro ⟨-, -, -, hrank, -⟩
    exact hother hrank

/-- The key of the first statement, whatever its rank is. -/
private def firstKey : String := (bareStatement none .normal).baseKey

private theorem get?_firstKey {rank : Rank} {ranks : List Rank} (h : (rank :: ranks).Nodup) :
    (byKey (ranked (rank :: ranks)).statements).get? firstKey =
      some (bareStatement none rank) :=
  (get?_byKey (irredundant_ranked h).statements.nodup_keys).mpr (List.mem_cons_self ..)

private theorem get?_of_ne_firstKey (rank : Rank) {key : String} (h : key ≠ firstKey) :
    (byKey (ranked [rank]).statements).get? key = none := by
  rw [Option.eq_none_iff_forall_ne_some]
  intro statement hfound
  have hkeys := (irredundant_ranked (List.nodup_singleton rank)).statements.nodup_keys
  have hmember : (key, statement) ∈ [(firstKey, bareStatement none rank)] :=
    (get?_byKey hkeys).mp hfound
  exact h (congrArg Prod.fst (List.mem_singleton.mp hmember))

/-- Where one rank becomes another on both sides, what one side adds contradicts nothing. -/
private theorem not_contradict_ranked {first second third : Rank} (h : [second, third].Nodup)
    (place : Conflict) : ¬Contradict ((ranked [first]).valueAt place)
      ((ranked [second]).valueAt place) ((ranked [second, third]).valueAt place) := by
  rintro ⟨hcurrent, hsubmitted, hdiffer⟩
  obtain ⟨part, key⟩ := place
  cases part with
  | claims =>
      simp only [Entity.valueAt, map_beq_map SectionValue.statement fun _ _ => rfl]
        at hcurrent hdiffer
      by_cases hkey : key = firstKey
      · rw [hkey, get?_firstKey h, get?_firstKey (List.nodup_singleton second)] at hdiffer
        exact absurd (nanFree_bareStatement none second).beq_self
          (Bool.eq_false_iff.mp hdiffer)
      · rw [get?_of_ne_firstKey first hkey, get?_of_ne_firstKey second hkey] at hcurrent
        cases hcurrent
  | labels =>
      refine absurd ?_ (Bool.eq_false_iff.mp hcurrent)
      exact (map_beq_map SectionValue.text (fun _ _ => rfl) _ _).trans BEq.rfl
  | descriptions | aliases | siteLinks => cases hcurrent

/-- A deleted statement can come back: the other side has it after another statement with
the same claim, so it is the second one there and not the one that was deleted. -/
theorem resolveEdits_resurrects :
    ¬∀ (base current submitted outcome : Entity) (statement : Statement), base.Irredundant →
      current.Irredundant → submitted.Irredundant → base.type = current.type →
      base.type = submitted.type → resolveEdits base current submitted = .ok outcome →
      statement ∈ base.statements →
      (current.statements.contains statement = false ∧
        submitted.statements.contains statement = true ∨
      submitted.statements.contains statement = false ∧
        current.statements.contains statement = true) →
      outcome.statements.contains statement = false := by
  intro hlaw
  have hbase := irredundant_ranked (List.nodup_singleton Rank.normal)
  have hcurrent := irredundant_ranked (List.nodup_singleton Rank.preferred)
  have hboth : [Rank.preferred, Rank.normal].Nodup := by decide
  have hsubmitted := irredundant_ranked hboth
  rcases resolveEdits_cases hbase.toWellKept hcurrent.sound hsubmitted.sound rfl rfl with
    ⟨merged, hresolve, -⟩ | ⟨place, -, hcontradict, -⟩
  swap
  · exact not_contradict_ranked hboth place hcontradict
  have hdeleted : (ranked [.preferred]).statements.contains (bareStatement none .normal) =
      false := by decide
  have hkept : (ranked [.preferred, .normal]).statements.contains (bareStatement none .normal) =
      true := by decide
  have hlost := hlaw _ _ _ _ (bareStatement none .normal) hbase hcurrent hsubmitted rfl rfl
    hresolve (List.mem_singleton_self _) (Or.inl ⟨hdeleted, hkept⟩)
  obtain ⟨hmerged, houtcome⟩ :=
    merged_of_resolveEdits hbase hcurrent hsubmitted rfl rfl hresolve
  have hmember : (ranked [.normal]).statements.HasAt firstKey (bareStatement none .normal) := by
    rw [HasAt, get?_firstKey (List.nodup_singleton _)]
    exact (nanFree_bareStatement none .normal).beq_self
  have hsamePlace := (deleted_iff_hasAt hmerged (houtcome _) hbase.statements hcurrent.statements
    hsubmitted.statements hbase.distinct hsubmitted.distinct hmember hdeleted hkept).mp hlost
  rw [HasAt, get?_firstKey hboth] at hsamePlace
  revert hsamePlace
  decide

end EntityDiff

end KnowledgeBase
