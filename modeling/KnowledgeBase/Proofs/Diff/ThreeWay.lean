import KnowledgeBase.Proofs.Diff.Merge
import KnowledgeBase.Proofs.Diff.StatementPatch
import Mathlib.Data.List.Dedup

/-!
Resolving an edit against what was saved since. At every place the outcome is the submitted
value where the edit changed something and the current value elsewhere; two edits contradict
each other where both change a value and do not agree. A contradiction is an operation on
each side that the merge refuses, so the resolution fails exactly with the first one.
-/

namespace KnowledgeBase

variable {α β : Type}

/-! ## The rule at one key -/

/-- Whether two versions of a value both differ from the base and from each other. -/
def Contradict [BEq α] (base current submitted : Option α) : Prop :=
  (base == current) = false ∧ (base == submitted) = false ∧ (submitted == current) = false

/-- The submitted value if it differs from the base, else the current one. -/
def pick [BEq α] (base current submitted : Option α) : Option α :=
  if base == submitted then current else submitted

section Map

variable [BEq α] [BEq β] (f : α → β)
  (hf : ∀ first second, (f first == f second) = (first == second))
include hf

theorem map_beq_map (first second : Option α) :
    (first.map f == second.map f) = (first == second) := by
  cases first <;> cases second <;> simp [hf]

theorem map_eq_map_of_beq [LawfulBEq α] {first second : Option α}
    (h : (first.map f == second.map f) = true) : first.map f = second.map f := by
  rw [map_beq_map f hf] at h
  rw [eq_of_beq h]

theorem contradict_map (base current submitted : Option α) :
    Contradict (base.map f) (current.map f) (submitted.map f) ↔
      Contradict base current submitted := by
  simp only [Contradict, map_beq_map f hf]

theorem pick_map (base current submitted : Option α) :
    pick (base.map f) (current.map f) (submitted.map f) =
      (pick base current submitted).map f := by
  simp only [pick, map_beq_map f hf]
  split <;> rfl

end Map

namespace DiffOp

theorem between?_eq_none_iff [BEq α] {old new : Option α} :
    between? old new = none ↔ (old == new) = true := by
  constructor
  · intro h
    cases old with
    | none =>
        cases new with
        | none => rfl
        | some after => cases h
    | some before =>
        cases new with
        | none => cases h
        | some after => simpa [between?] using h
  · exact between?_self

/-- The sides of a computed operation are the values it was computed from. -/
theorem old?_of_between? [BEq α] {old new : Option α} {op : DiffOp α}
    (h : between? old new = some op) : op.old? = old := by
  cases old with
  | none =>
      cases new with
      | none => cases h
      | some after =>
          cases h
          rfl
  | some before =>
      cases new with
      | none =>
          cases h
          rfl
      | some after =>
          simp only [between?] at h
          split at h
          · cases h
          · cases h
            rfl

/-- The operation of the edit, else the one of what was saved since, gives the picked value. -/
theorem after?_or_between? [BEq α] [PartialEquivBEq α] {base current submitted : Option α}
    (hbase : (base == base) = true) (hcurrent : (current == current) = true)
    (hsubmitted : (submitted == submitted) = true) :
    (after? ((between? base submitted).or (between? base current)) base ==
      pick base current submitted) = true := by
  cases hop : between? base submitted with
  | none =>
      rw [Option.none_or, pick, if_pos (between?_eq_none_iff.mp hop)]
      exact after?_between? hbase hcurrent
  | some op =>
      have hchanged : ¬(base == submitted) = true := by
        rw [← between?_eq_none_iff, hop]
        exact Option.some_ne_none op
      rw [Option.some_or, pick, if_neg hchanged, ← hop]
      exact after?_between? hbase hsubmitted

end DiffOp

namespace MapDiff

/-- The operations of two edits of one base clash exactly where the edits contradict. -/
theorem clash_between_iff [BEq α] {base current submitted : List (String × α)} {key : String}
    (hbase : ((SortedMap.ofList base).get? key == (SortedMap.ofList base).get? key) = true) :
    Clash (between base submitted) (between base current) key ↔
      Contradict ((SortedMap.ofList base).get? key) ((SortedMap.ofList current).get? key)
        ((SortedMap.ofList submitted).get? key) := by
  simp only [Clash, get?_between]
  constructor
  · rintro ⟨op, op', hop, hop', hdiffer⟩
    rw [DiffOp.beq_eq, DiffOp.old?_of_between? hop, DiffOp.old?_of_between? hop', hbase,
      (DiffOp.after?_of_between? rfl hop).2, (DiffOp.after?_of_between? rfl hop').2,
      Bool.true_and] at hdiffer
    refine ⟨?_, ?_, hdiffer⟩
    · rw [Bool.eq_false_iff, ne_eq, ← DiffOp.between?_eq_none_iff, hop']
      exact Option.some_ne_none op'
    · rw [Bool.eq_false_iff, ne_eq, ← DiffOp.between?_eq_none_iff, hop]
      exact Option.some_ne_none op
  · rintro ⟨hcurrent, hsubmitted, hdiffer⟩
    rw [Bool.eq_false_iff, ne_eq, ← DiffOp.between?_eq_none_iff] at hcurrent hsubmitted
    obtain ⟨op, hop⟩ := Option.ne_none_iff_exists'.mp hsubmitted
    obtain ⟨op', hop'⟩ := Option.ne_none_iff_exists'.mp hcurrent
    refine ⟨op, op', hop, hop', ?_⟩
    rw [DiffOp.beq_eq, DiffOp.old?_of_between? hop, DiffOp.old?_of_between? hop', hbase,
      (DiffOp.after?_of_between? rfl hop).2, (DiffOp.after?_of_between? rfl hop').2,
      Bool.true_and, hdiffer]

theorem newAll_of_or {rule : String → α → Prop} {ours theirs merged : MapDiff α}
    (h : ∀ key, merged.get? key = (ours.get? key).or (theirs.get? key))
    (hours : ours.NewAll rule) (htheirs : theirs.NewAll rule) : merged.NewAll rule := by
  intro key op new hop hnew
  rw [h] at hop
  rcases Option.or_eq_some_iff.mp hop with hop | ⟨-, hop⟩
  · exact hours key op new hop hnew
  · exact htheirs key op new hop hnew

/-- Where equal values are one value, a joined difference gives each key its picked value. -/
theorem get?_patch_of_or [BEq α] [LawfulBEq α] {base current submitted : SortedMap String α}
    {merged : MapDiff α}
    (h : ∀ key, merged.get? key = ((between base.toList submitted.toList).get? key).or
      ((between base.toList current.toList).get? key)) (key : String) :
    (merged.patch base).get? key =
      pick (base.get? key) (current.get? key) (submitted.get? key) := by
  rw [get?_patch, h, get?_between, get?_between]
  simp only [SortedMap.ofList_toList]
  exact eq_of_beq (DiffOp.after?_or_between? BEq.rfl BEq.rfl BEq.rfl)

end MapDiff

/-! ## Statements -/

namespace StatementList

/-- Whether two lists hold equal statements, in any order. -/
def EqualContents (first second : StatementList) : Prop :=
  ∃ middle : StatementList, first.Perm middle ∧
    List.Forall₂ (fun left right => (left == right) = true) middle second

/-- The picked statements of three lists, each of which is a map by its own keys. -/
def threeWay (base current submitted : StatementList) : StatementList :=
  (keys base ++ keys current ++ keys submitted).dedup.filterMap fun key =>
    pick ((byKey base).get? key) ((byKey current).get? key) ((byKey submitted).get? key)

theorem forall₂_filterMap {first second : String → Option Statement}
    (h : ∀ key, (first key == second key) = true) (keys : List String) :
    List.Forall₂ (fun left right => (left == right) = true) (keys.filterMap first)
      (keys.filterMap second) := by
  induction keys with
  | nil => exact .nil
  | cons key rest ih =>
      have hkey := h key
      cases hfirst : first key with
      | none =>
          cases hsecond : second key with
          | none => rwa [List.filterMap_cons_none hfirst, List.filterMap_cons_none hsecond]
          | some right =>
              rw [hfirst, hsecond] at hkey
              cases hkey
      | some left =>
          cases hsecond : second key with
          | none =>
              rw [hfirst, hsecond] at hkey
              cases hkey
          | some right =>
              rw [hfirst, hsecond, Option.some_beq_some] at hkey
              rw [List.filterMap_cons_some hfirst, List.filterMap_cons_some hsecond]
              exact .cons hkey ih

/-- Statements that are placed once under each key have the contents that the keys ask for. -/
private theorem equalContents_of_placed {placed : List (String × Statement)}
    {keys : List String} {value wanted : String → Option Statement}
    (hplaced : (placed.map (·.1)).Nodup) (hkeys : keys.Nodup)
    (hvalue : ∀ key statement, (key, statement) ∈ placed ↔ value key = some statement)
    (hcover : ∀ key, (value key).isSome → key ∈ keys)
    (hwanted : ∀ key, (value key == wanted key) = true) :
    EqualContents (placed.map (·.2)) (keys.filterMap wanted) := by
  have hmade : (keys.filterMap fun key =>
      (value key).map fun statement => (key, statement)).Nodup := by
    refine hkeys.filterMap ?_
    rintro key other ⟨found, statement⟩ hkey hother
    obtain ⟨_, -, heq⟩ := Option.map_eq_some_iff.mp hkey
    obtain ⟨_, -, heq'⟩ := Option.map_eq_some_iff.mp hother
    exact (congrArg Prod.fst heq).trans (congrArg Prod.fst heq').symm
  have hperm : placed.Perm (keys.filterMap fun key =>
      (value key).map fun statement => (key, statement)) := by
    rw [List.perm_ext_iff_of_nodup (List.Nodup.of_map _ hplaced) hmade]
    rintro ⟨key, statement⟩
    rw [hvalue, List.mem_filterMap]
    constructor
    · intro h
      exact ⟨key, hcover key (h ▸ rfl), by rw [h, Option.map_some]⟩
    · rintro ⟨found, -, h⟩
      obtain ⟨_, h, heq⟩ := Option.map_eq_some_iff.mp h
      cases heq
      exact h
  refine ⟨keys.filterMap value, ?_, forall₂_filterMap hwanted keys⟩
  have hvalues := hperm.map (·.2)
  rw [List.map_filterMap] at hvalues
  simpa using hvalues

section Joined

variable {base current submitted : StatementList} {merged : MapDiff Statement}
  (hmerged : ∀ key, merged.get? key =
    ((diff base submitted).get? key).or ((diff base current).get? key))
  (hbase : base.WellKeyed) (hcurrent : current.WellKeyed) (hsubmitted : submitted.WellKeyed)
  (hselfBase : ∀ statement ∈ base, statement.NaNFree)
  (hselfCurrent : ∀ statement ∈ current, statement.NaNFree)
  (hselfSubmitted : ∀ statement ∈ submitted, statement.NaNFree)
include hmerged hbase hcurrent hsubmitted hselfBase hselfCurrent hselfSubmitted

omit hbase hcurrent hsubmitted in
theorem after?_joined (key : String) :
    (DiffOp.after? (merged.get? key) ((byKey base).get? key) ==
      pick ((byKey base).get? key) ((byKey current).get? key)
        ((byKey submitted).get? key)) = true := by
  rw [hmerged, get?_diff, get?_diff]
  exact DiffOp.after?_or_between? (get?_byKey_beq_self hselfBase key)
    (get?_byKey_beq_self hselfCurrent key)
    (get?_byKey_beq_self hselfSubmitted key)

/-- A joined difference leaves the picked statements, and no others. -/
theorem equalContents_applyDiff :
    EqualContents (base.applyDiff merged) (threeWay base current submitted) := by
  have hvalue := after?_joined hmerged hselfBase hselfCurrent hselfSubmitted
  rw [applyDiff_eq hbase.nodup_keys, threeWay]
  apply equalContents_of_placed (nodup_patched hbase.nodup_keys merged) (List.nodup_dedup _)
  · intro key statement
    exact mem_patched hbase.nodup_keys
  · intro key hpresent
    rw [isSome_eq_of_beq (hvalue key), pick] at hpresent
    rw [List.mem_dedup, List.mem_append, List.mem_append]
    split at hpresent
    · exact Or.inl (Or.inr ((mem_keys_iff hcurrent.nodup_keys).mpr hpresent))
    · exact Or.inr ((mem_keys_iff hsubmitted.nodup_keys).mpr hpresent)
  · exact hvalue

end Joined

end StatementList

/-! ## Entities -/

/-- A value of any section. -/
inductive SectionValue where
  | text (text : String)
  | aliases (group : List String)
  | statement (statement : Statement)
  | link (link : SiteLink)
deriving BEq

/-- The value of an entity at a place: a term by its language, a statement by its key in the
list, a link by its site. -/
def Entity.valueAt (entity : Entity) (place : Conflict) : Option SectionValue :=
  match place.part with
  | .labels => (entity.fingerprint.labels.get? place.key).map .text
  | .descriptions => (entity.fingerprint.descriptions.get? place.key).map .text
  | .aliases => (entity.fingerprint.aliases.get? place.key).map .aliases
  | .claims => ((StatementList.byKey entity.statements).get? place.key).map .statement
  | .siteLinks => (entity.siteLinks.get? place.key).map .link

/-- What an entity has to be that resolves an edit of `base` against the current version. -/
structure Resolved (base current submitted outcome : Entity) : Prop where
  type : outcome.type = base.type
  id? : outcome.id? = base.id?
  dataType? : outcome.dataType? = base.dataType?
  value : ∀ place : Conflict, place.part ≠ .claims → outcome.valueAt place =
    pick (base.valueAt place) (current.valueAt place) (submitted.valueAt place)
  statements : StatementList.EqualContents outcome.statements
    (StatementList.threeWay base.statements current.statements submitted.statements)

namespace EntityDiff

variable {base current submitted : Entity}

private theorem clash_map_iff [BEq α] [LawfulBEq α] [BEq β] (f : α → β)
    (hf : ∀ first second, (f first == f second) = (first == second))
    {base current submitted : SortedMap String α} {key : String} :
    MapDiff.Clash (.between base.toList submitted.toList) (.between base.toList current.toList)
        key ↔
      Contradict ((base.get? key).map f) ((current.get? key).map f)
        ((submitted.get? key).map f) := by
  rw [MapDiff.clash_between_iff BEq.rfl, contradict_map f hf]
  simp only [SortedMap.ofList_toList]

/-- The differences of two edits clash exactly where the edits contradict each other. -/
theorem clashAt_computed_iff (hbase : base.WellKept) (place : Conflict) :
    ClashAt (computed base submitted) (computed base current) place ↔
      Contradict (base.valueAt place) (current.valueAt place) (submitted.valueAt place) := by
  obtain ⟨part, key⟩ := place
  cases part with
  | labels => exact clash_map_iff SectionValue.text fun _ _ => rfl
  | descriptions => exact clash_map_iff SectionValue.text fun _ _ => rfl
  | aliases => exact clash_map_iff SectionValue.aliases fun _ _ => rfl
  | claims =>
      simp only [Entity.valueAt]
      rw [contradict_map SectionValue.statement fun _ _ => rfl]
      exact MapDiff.clash_between_iff (StatementList.get?_byKey_beq_self hbase.nanFree key)
  | siteLinks => exact clash_map_iff SectionValue.link fun _ _ => rfl

theorem Joins.fit {merged : EntityDiff} (hcurrent : current.Sound) (hsubmitted : submitted.Sound)
    (h : Joins (computed base submitted) (computed base current) merged) : merged.Fit where
  labels := MapDiff.newAll_of_or h.labels (fit_computed base hsubmitted).labels
    (fit_computed base hcurrent).labels
  descriptions := MapDiff.newAll_of_or h.descriptions
    (fit_computed base hsubmitted).descriptions (fit_computed base hcurrent).descriptions
  aliases := MapDiff.newAll_of_or h.aliases (fit_computed base hsubmitted).aliases
    (fit_computed base hcurrent).aliases
  siteLinks := MapDiff.newAll_of_or h.siteLinks (fit_computed base hsubmitted).siteLinks
    (fit_computed base hcurrent).siteLinks

/-- A resolution applies the joined difference to the base or names the first contradiction. -/
theorem resolveEdits_cases (hbase : base.WellKept) (hcurrent : current.Sound)
    (hsubmitted : submitted.Sound) (hcurrentType : base.type = current.type)
    (hsubmittedType : base.type = submitted.type) :
    (∃ merged, resolveEdits base current submitted = .ok (merged.patched base) ∧
      Joins (computed base submitted) (computed base current) merged ∧
      ∀ place : Conflict, ¬Contradict (base.valueAt place) (current.valueAt place)
        (submitted.valueAt place)) ∨
    ∃ place : Conflict, resolveEdits base current submitted = .error (.conflict place) ∧
      Contradict (base.valueAt place) (current.valueAt place) (submitted.valueAt place) ∧
      ∀ other : Conflict, Contradict (base.valueAt other) (current.valueAt other)
        (submitted.valueAt other) → place.Precedes other := by
  have hresolve : resolveEdits base current submitted =
      (computed base submitted).merge (computed base current) >>= fun merged =>
        liftM (merged.apply.result base) := by
    rw [resolveEdits, between_of_type hcurrentType, between_of_type hsubmittedType]
    rfl
  have htypes : (computed base submitted).type = (computed base current).type := rfl
  rcases merge_cases htypes with
    ⟨merged, hrun, hjoins, hfree⟩ | ⟨place, herror, hclash, hfirst⟩
  · refine Or.inl ⟨merged, ?_, hjoins, ?_⟩
    · have hrunApply := (hjoins.fit hcurrent hsubmitted).run_apply
        (show merged.type = base.type from hjoins.type)
      rw [hresolve, hrun]
      change (liftM (merged.apply.result base) : Except MergeError Entity) = _
      rw [Edit.result_of_ok hrunApply]
      rfl
    · intro place
      rw [← clashAt_computed_iff hbase]
      exact hfree place
  · refine Or.inr ⟨place, ?_, (clashAt_computed_iff hbase place).mp hclash, ?_⟩
    · rw [hresolve, herror]
      rfl
    · intro other hother
      exact hfirst other ((clashAt_computed_iff hbase other).mpr hother)

private theorem siteLinks_eq_empty {first second : Entity} (h : first.type = second.type)
    (hfirst : first.siteLinks? = none) : second.siteLinks = .empty := by
  have hsecond := Entity.siteLinks?_eq_map h
  rw [hfirst] at hsecond
  rw [Entity.siteLinks, ← hsecond]
  rfl

/-- Except for statements, a joined difference gives each place its picked value. -/
theorem valueAt_patched {merged : EntityDiff}
    (hjoins : Joins (computed base submitted) (computed base current) merged)
    (hcurrentType : base.type = current.type) (hsubmittedType : base.type = submitted.type)
    {place : Conflict} (hplace : place.part ≠ .claims) :
    (merged.patched base).valueAt place =
      pick (base.valueAt place) (current.valueAt place) (submitted.valueAt place) := by
  obtain ⟨part, key⟩ := place
  cases part with
  | labels =>
      simp only [Entity.valueAt, patched_fingerprint, patchedTerms]
      rw [MapDiff.get?_patch_of_or hjoins.labels, pick_map SectionValue.text fun _ _ => rfl]
  | descriptions =>
      simp only [Entity.valueAt, patched_fingerprint, patchedTerms]
      rw [MapDiff.get?_patch_of_or hjoins.descriptions,
        pick_map SectionValue.text fun _ _ => rfl]
  | aliases =>
      simp only [Entity.valueAt, patched_fingerprint, patchedTerms]
      rw [MapDiff.get?_patch_of_or hjoins.aliases, pick_map SectionValue.aliases fun _ _ => rfl]
  | claims => exact absurd rfl hplace
  | siteLinks =>
      simp only [Entity.valueAt]
      rw [pick_map SectionValue.link fun _ _ => rfl]
      cases hlinks : base.siteLinks? with
      | none =>
          have hpatched : (merged.patched base).siteLinks = .empty :=
            siteLinks_eq_empty (merged.patched_type base).symm hlinks
          rw [hpatched, siteLinks_eq_empty rfl hlinks, siteLinks_eq_empty hcurrentType hlinks,
            siteLinks_eq_empty hsubmittedType hlinks]
          rfl
      | some links =>
          have hpatched : (merged.patched base).siteLinks =
              merged.siteLinks.patch base.siteLinks := by
            rw [Entity.siteLinks, patched_siteLinks?, hlinks]
            rfl
          rw [hpatched, MapDiff.get?_patch_of_or hjoins.siteLinks]

/-- Edits that contradict each other are refused with the first contradiction. Others are
resolved: the outcome has at each place the submitted value where the edit changed the base
and the current value elsewhere, statements included, and the id of the base. -/
theorem resolveEdits_three_way (hbase : base.WellKept) (hcurrent : current.WellKept)
    (hsubmitted : submitted.WellKept) (hcurrentType : base.type = current.type)
    (hsubmittedType : base.type = submitted.type) :
    ((∃ place : Conflict, Contradict (base.valueAt place) (current.valueAt place)
        (submitted.valueAt place)) →
      ∃ place : Conflict, resolveEdits base current submitted = .error (.conflict place) ∧
        Contradict (base.valueAt place) (current.valueAt place) (submitted.valueAt place) ∧
        ∀ other : Conflict, Contradict (base.valueAt other) (current.valueAt other)
          (submitted.valueAt other) → place.Precedes other) ∧
    ((∀ place : Conflict, ¬Contradict (base.valueAt place) (current.valueAt place)
        (submitted.valueAt place)) →
      ∃ outcome, resolveEdits base current submitted = .ok outcome ∧
        Resolved base current submitted outcome) := by
  rcases resolveEdits_cases hbase hcurrent.sound hsubmitted.sound hcurrentType hsubmittedType
    with ⟨merged, hrun, hjoins, hfree⟩ | ⟨place, herror, hcontradict, hfirst⟩
  · constructor
    · rintro ⟨place, hcontradict⟩
      exact absurd hcontradict (hfree place)
    · intro _
      refine ⟨merged.patched base, hrun, ?_⟩
      exact
        { type := patched_type _ _
          id? := patched_id? _ _
          dataType? := patched_dataType? _ _
          value := fun place hplace =>
            valueAt_patched hjoins hcurrentType hsubmittedType hplace
          statements := by
            rw [patched_statements]
            exact StatementList.equalContents_applyDiff hjoins.claims hbase.statements
              hcurrent.statements hsubmitted.statements hbase.nanFree hcurrent.nanFree
              hsubmitted.nanFree }
  · constructor
    · intro _
      exact ⟨place, herror, hcontradict, hfirst⟩
    · intro hfree
      exact absurd hcontradict (hfree place)

/-- A change of a label and a change of the statements are both kept; two changes of one
label contradict each other. -/
theorem resolveEdits_of_items :
    let base := labelledItem none "ant" [bareStatement none .normal, bareStatement none .normal]
    let current := labelledItem none "bee" base.statements
    let submitted := labelledItem none "ant" [bareStatement none .preferred,
      bareStatement (some "Q1$1") .normal]
    let other := labelledItem none "cat" []
    (∃ outcome, resolveEdits base current submitted = .ok outcome ∧
      Resolved base current submitted outcome) ∧
    ∃ place : Conflict, resolveEdits base current other = .error (.conflict place) ∧
      place.Precedes ⟨.labels, "en"⟩ := by
  intro base current submitted other
  have hplain : base.statements.WellKeyed := by
    refine ⟨by decide, ?_⟩
    simp [base, labelledItem, Entity.statements, StatementList.guids, bareStatement,
      Statement.guid?]
  have hself : ∀ statement ∈ base.statements, statement.NaNFree := by
    simp [base, labelledItem, Entity.statements, nanFree_bareStatement]
  have hbase : base.WellKept := wellKept_labelledItem (by decide) hself hplain
  have hcurrent : current.WellKept := wellKept_labelledItem (by decide) hself hplain
  have hsubmitted : submitted.WellKept := by
    refine wellKept_labelledItem (by decide) ?_ ⟨by decide, ?_⟩
    · simp [nanFree_bareStatement]
    · simp [StatementList.guids, bareStatement, Statement.guid?, looksHashed, hashKeyMark]
  have hother : other.WellKept :=
    wellKept_labelledItem (by decide) (by simp) ⟨by decide, by simp [StatementList.guids]⟩
  constructor
  · apply (resolveEdits_three_way hbase hcurrent hsubmitted rfl rfl).2
    rintro ⟨part, key⟩ ⟨hcurrentDiffers, hsubmittedDiffers, -⟩
    cases part with
    | claims =>
        have hsame := StatementList.get?_byKey_beq_self hself key
        rw [← map_beq_map SectionValue.statement fun _ _ => rfl] at hsame
        exact absurd hsame (Bool.eq_false_iff.mp hcurrentDiffers)
    | labels =>
        refine absurd ?_ (Bool.eq_false_iff.mp hsubmittedDiffers)
        exact (map_beq_map SectionValue.text (fun _ _ => rfl) _ _).trans BEq.rfl
    | descriptions | aliases | siteLinks => cases hcurrentDiffers
  · obtain ⟨place, herror, -, hfirst⟩ :=
      (resolveEdits_three_way hbase hcurrent hother rfl rfl).1
        ⟨⟨.labels, "en"⟩, by decide, by decide, by decide⟩
    refine ⟨place, herror, hfirst _ ?_⟩
    exact ⟨by decide, by decide, by decide⟩

end EntityDiff

end KnowledgeBase
