import KnowledgeBase.Proofs.Diff.Agreement
import KnowledgeBase.Proofs.Diff.Entity

/-!
Replaying the differences of a chain of versions. One step keeps a copy in agreement with
the versions: what has the content of the old version gets the content of the new one, and
the step may be repeated. The run from the first version to the last follows by induction
on the chain.
-/

namespace KnowledgeBase

/-- A well-kept entity with so few statements that a machine word can count them, as it can
count what is in memory. -/
structure Entity.Regular (entity : Entity) : Prop extends entity.WellKept where
  short : entity.statements.length < UInt64.size

theorem Entity.Regular.wellNumbered {entity : Entity} (h : entity.Regular) :
    entity.statements.WellNumbered :=
  ⟨h.statements, h.short⟩

/-- A small item with statements that have no identifier. -/
theorem regular_labelledItem (id? : Option ItemId) {label : String} {statements : StatementList}
    (hlabel : label.length ≤ maxTermLength)
    (hbare : ∀ statement ∈ statements, ∃ rank, statement = bareStatement none rank)
    (hshort : statements.length < UInt64.size) : (labelledItem id? label statements).Regular := by
  have hguids : StatementList.guids statements = [] := by
    rw [StatementList.guids, List.filterMap_eq_nil_iff]
    intro statement member
    obtain ⟨rank, rfl⟩ := hbare statement member
    rfl
  refine ⟨wellKept_labelledItem hlabel ?_ ⟨by simp [hguids], by simp [hguids]⟩, hshort⟩
  intro statement member
  obtain ⟨rank, rfl⟩ := hbare statement member
  exact nanFree_bareStatement none rank

/-- Whether two entities have the same terms, the same links, and statements that agree. -/
structure Entity.SameContent (first second : Entity) : Prop where
  type : first.type = second.type
  fingerprint : first.fingerprint = second.fingerprint
  siteLinks? : first.siteLinks? = second.siteLinks?
  statements : first.statements.Agree second.statements

namespace Entity.SameContent

variable {first second third : Entity}

theorem symm (h : first.SameContent second) : second.SameContent first where
  type := h.type.symm
  fingerprint := h.fingerprint.symm
  siteLinks? := h.siteLinks?.symm
  statements := h.statements.symm

theorem trans (h : first.SameContent second) (h' : second.SameContent third) :
    first.SameContent third where
  type := h.type.trans h'.type
  fingerprint := h.fingerprint.trans h'.fingerprint
  siteLinks? := h.siteLinks?.trans h'.siteLinks?
  statements := h.statements.trans h'.statements

end Entity.SameContent

namespace EntityDiff

/-! ## One step -/

section Step

variable {current old new : Entity} (hcurrent : current.statements.WellNumbered)
  (hsame : current.SameContent old) (hnew : new.Regular) (htype : old.type = new.type)
include hcurrent hsame hnew htype

/-- What a difference makes of a copy of the old version has the content of the new one. -/
theorem sameContent_patched : ((computed old new).patched current).SameContent new := by
  have hlinks : current.siteLinks = old.siteLinks := by
    rw [Entity.siteLinks, hsame.siteLinks?, Entity.siteLinks]
  have hterms : (computed old new).patchedTerms current.fingerprint = new.fingerprint := by
    rw [hsame.fingerprint]
    simp only [patchedTerms, computed, MapDiff.patch_between]
  constructor
  · rw [patched_type, hsame.type, htype]
  · rw [patched_fingerprint, hterms]
  · rw [patched_siteLinks?, hsame.siteLinks?, hlinks]
    simp only [computed, MapDiff.patch_between]
    exact Entity.siteLinks?_eq_map htype
  · rw [patched_statements]
    exact StatementList.agree_replay hcurrent hnew.wellNumbered hnew.nanFree hsame.statements

omit htype in
theorem wellNumbered_patched :
    ((computed old new).patched current).statements.WellNumbered := by
  rw [patched_statements]
  exact StatementList.wellNumbered_replay hcurrent hnew.wellNumbered hnew.nanFree
    hsame.statements

theorem patched_again : (computed old new).patched ((computed old new).patched current) =
    (computed old new).patched current := by
  have houtcome := sameContent_patched hcurrent hsame hnew htype
  have hlinks : ((computed old new).patched current).siteLinks = new.siteLinks := by
    rw [Entity.siteLinks, houtcome.siteLinks?, Entity.siteLinks]
  have hstatements := StatementList.replay_again hcurrent hnew.wellNumbered hnew.nanFree
    hsame.statements
  generalize houtcomeEq : (computed old new).patched current = outcome at *
  have hterms : (computed old new).patchedTerms outcome.fingerprint = outcome.fingerprint := by
    rw [houtcome.fingerprint]
    simp only [patchedTerms, computed, MapDiff.patch_between_again]
  have hpatchedLinks :
      (computed old new).siteLinks.patch outcome.siteLinks = outcome.siteLinks := by
    rw [hlinks]
    exact MapDiff.patch_between_again _ _
  have hpatchedStatements :
      outcome.statements.applyDiff (computed old new).claims = outcome.statements := by
    rw [← houtcomeEq, patched_statements]
    exact hstatements
  rw [patched, hterms, hpatchedStatements, hpatchedLinks, Entity.setFingerprint_self,
    Entity.setStatements_self, Entity.setSiteLinks_self]

end Step

/-! ## A run -/

/-- The differences between the successive versions of a chain. -/
def differences : List Entity → Except ModelError (List EntityDiff)
  | old :: new :: rest => do
      let first ← between old new
      let later ← differences (new :: rest)
      return first :: later
  | _ => .ok []

/-- Applies differences one after the other. -/
def replay (diffs : List EntityDiff) : Edit Entity Unit := forM diffs apply

theorem run_replay_concat {diffs : List EntityDiff} {diff : EntityDiff}
    {entity middle outcome : Entity} (h : (replay diffs).run entity = .ok () middle)
    (hlast : diff.apply.run middle = .ok () outcome) :
    (replay (diffs ++ [diff])).run entity = .ok () outcome := by
  rw [replay] at h ⊢
  rw [List.forM_append, Edit.run_bind_ok h, List.forM_cons, Edit.run_bind_ok hlast]
  rfl

/-- Differences, each as many times in a row as is said beside it. -/
def repeated (runs : List (EntityDiff × Nat)) : List EntityDiff :=
  runs.flatMap fun run => List.replicate run.2 run.1

private theorem run_replay_replicate {diff : EntityDiff} {entity : Entity}
    (h : diff.apply.run entity = .ok () entity) (times : Nat) (rest : List EntityDiff) :
    (replay (List.replicate times diff ++ rest)).run entity = (replay rest).run entity := by
  induction times with
  | zero => rfl
  | succ times ih =>
      rw [List.replicate_succ, List.cons_append, replay, List.forM_cons, Edit.run_bind_ok h]
      exact ih

/-- Whether differences lead from one entity to another, however often each is applied. -/
def LeadsTo (diffs : List EntityDiff) (entity outcome : Entity) : Prop :=
  ∀ runs : List (EntityDiff × Nat), runs.map (·.1) = diffs → (∀ run ∈ runs, 0 < run.2) →
    (replay (repeated runs)).run entity = .ok () outcome

private theorem LeadsTo.cons {diff : EntityDiff} {diffs : List EntityDiff}
    {entity middle outcome : Entity} (hfirst : diff.apply.run entity = .ok () middle)
    (hagain : diff.apply.run middle = .ok () middle) (h : LeadsTo diffs middle outcome) :
    LeadsTo (diff :: diffs) entity outcome := by
  intro runs hruns hpositive
  cases runs with
  | nil => cases hruns
  | cons head rest =>
      obtain ⟨first, times⟩ := head
      obtain ⟨rfl, hrest⟩ := List.cons.inj hruns
      have htimes : 0 < times := hpositive _ (List.mem_cons_self ..)
      obtain ⟨more, rfl⟩ := Nat.exists_eq_add_of_lt htimes
      have hlater := h rest hrest fun run member =>
        hpositive run (List.mem_cons_of_mem _ member)
      rw [repeated, List.flatMap_cons, Nat.zero_add, List.replicate_succ, List.cons_append,
        replay, List.forM_cons, Edit.run_bind_ok hfirst]
      exact (run_replay_replicate hagain more _).trans hlater

theorem LeadsTo.run_replay {diffs : List EntityDiff} {entity outcome : Entity}
    (h : LeadsTo diffs entity outcome) : (replay diffs).run entity = .ok () outcome := by
  have honce := h (diffs.map fun diff => (diff, 1))
  rw [List.map_map] at honce
  have hrepeated : repeated (diffs.map fun diff => (diff, 1)) = diffs := by
    rw [repeated, List.flatMap_map]
    exact List.flatMap_singleton' diffs
  rw [hrepeated] at honce
  apply honce
  · exact List.map_id diffs
  · intro run member
    obtain ⟨diff, -, rfl⟩ := List.mem_map.mp member
    exact Nat.one_pos

private theorem replay_copy {old : Entity} {rest : List Entity} {copy : Entity}
    (hcopy : copy.statements.WellNumbered) (hsame : copy.SameContent old)
    (hregular : ∀ entity ∈ rest, entity.Regular)
    (htypes : ∀ entity ∈ rest, old.type = entity.type) :
    ∃ diffs outcome, differences (old :: rest) = .ok diffs ∧ LeadsTo diffs copy outcome ∧
      outcome.SameContent ((old :: rest).getLast (List.cons_ne_nil _ _)) ∧
      outcome.statements.WellNumbered ∧
      outcome.id? = copy.id? ∧ outcome.dataType? = copy.dataType? := by
  induction rest generalizing old copy with
  | nil =>
      refine ⟨[], copy, rfl, ?_, hsame, hcopy, rfl, rfl⟩
      intro runs hruns _
      rw [List.map_eq_nil_iff.mp hruns]
      rfl
  | cons new rest ih =>
      have hnew := hregular new (List.mem_cons_self ..)
      have htype := htypes new (List.mem_cons_self ..)
      have hcopyType : (computed old new).type = copy.type := hsame.type.symm
      obtain ⟨diffs, outcome, hdiffs, hleads, hcontent, hnumbered, hid, hdataType⟩ := ih
        (wellNumbered_patched hcopy hsame hnew)
        (sameContent_patched hcopy hsame hnew htype)
        (fun entity member => hregular entity (List.mem_cons_of_mem _ member))
        (fun entity member => htype.symm.trans (htypes entity (List.mem_cons_of_mem _ member)))
      have hfit := fit_computed old hnew.sound
      have hagain : (computed old new).apply.run ((computed old new).patched copy) =
          .ok () ((computed old new).patched copy) := by
        rw [hfit.run_apply (hcopyType.trans (patched_type _ _).symm),
          patched_again hcopy hsame hnew htype]
      refine ⟨computed old new :: diffs, outcome, ?_,
        LeadsTo.cons (hfit.run_apply hcopyType) hagain hleads, ?_, hnumbered, ?_, ?_⟩
      · rw [differences, between_of_type htype, hdiffs]
        rfl
      · rwa [List.getLast_cons (List.cons_ne_nil _ _)]
      · rw [hid, patched_id?]
      · rw [hdataType, patched_dataType?]

/-- Nothing differs between entities of the same content. -/
theorem isEmpty_computed {first second : Entity} (h : first.SameContent second) :
    (computed first second).isEmpty = true := by
  have hclaims : StatementList.diff first.statements second.statements = .empty :=
    StatementList.diff_eq_empty_iff.mpr h.statements
  have hlinks : first.siteLinks = second.siteLinks := by
    rw [Entity.siteLinks, h.siteLinks?, Entity.siteLinks]
  simp only [isEmpty, size, sizes, computed, h.fingerprint, hlinks, hclaims,
    MapDiff.between_self]
  rfl

/-- What a replay of the differences from `first` to `last` has to come to. The statements
have their keys once each and are as many as those of `last`, so none is lost or doubled. -/
structure Reproduced (diffs : List EntityDiff) (first last outcome : Entity) : Prop where
  replayed : (replay diffs).run first = .ok () outcome
  repeatable : LeadsTo diffs first outcome
  fingerprint : outcome.fingerprint = last.fingerprint
  siteLinks? : outcome.siteLinks? = last.siteLinks?
  statements : outcome.statements.Agree last.statements
  keys : (StatementList.keys outcome.statements).Perm (StatementList.keys last.statements)
  distinct : (StatementList.keys outcome.statements).Nodup
  length : outcome.statements.length = last.statements.length
  type : outcome.type = first.type
  id? : outcome.id? = first.id?
  dataType? : outcome.dataType? = first.dataType?
  settled : ∃ diff, between last outcome = .ok diff ∧ diff.isEmpty = true

/-- Along a chain of versions of one type the differences can be computed and replayed on
the first version. The outcome has the content of the last version, and it is the same
outcome if differences are applied several times in a row. -/
theorem replay_reproduces {first last : Entity} {middle : List Entity}
    (hregular : ∀ entity ∈ first :: (middle ++ [last]), entity.Regular)
    (htypes : ∀ entity ∈ middle ++ [last], first.type = entity.type) :
    ∃ diffs outcome, differences (first :: (middle ++ [last])) = .ok diffs ∧
      Reproduced diffs first last outcome := by
  have hfirst := hregular first (List.mem_cons_self ..)
  have hlast := hregular last (by simp)
  have hself : first.SameContent first :=
    { type := rfl
      fingerprint := rfl
      siteLinks? := rfl
      statements := StatementList.get?_byKey_beq_self hfirst.nanFree }
  obtain ⟨diffs, outcome, hdiffs, hleads, hsame, hnumbered, hid, hdataType⟩ :=
    replay_copy hfirst.wellNumbered hself
      (fun entity member => hregular entity (List.mem_cons_of_mem _ member)) htypes
  rw [List.getLast_cons (by simp), List.getLast_append_singleton] at hsame
  have hlastType : last.type = outcome.type := hsame.type.symm
  have hback : last.SameContent outcome :=
    { type := hlastType
      fingerprint := hsame.fingerprint.symm
      siteLinks? := hsame.siteLinks?.symm
      statements := hsame.statements.symm }
  refine ⟨diffs, outcome, hdiffs, ?_⟩
  exact
    { replayed := hleads.run_replay
      repeatable := hleads
      fingerprint := hsame.fingerprint
      siteLinks? := hsame.siteLinks?
      statements := hsame.statements
      keys := hsame.statements.perm_keys hnumbered.nodup_keys hlast.statements.nodup_keys
      distinct := hnumbered.nodup_keys
      length := hsame.statements.length_eq hnumbered.nodup_keys hlast.statements.nodup_keys
      type := hsame.type.trans (htypes last (by simp)).symm
      id? := hid
      dataType? := hdataType
      settled := ⟨_, between_of_type hlastType, isEmpty_computed hback⟩ }

/-- Two equal statements without identifier become three, one of them changed, around a
statement with an identifier, and a single one in the end. -/
theorem replay_of_repeated_statements :
    let first := labelledItem none "ant" [bareStatement none .normal, bareStatement none .normal]
    let second := labelledItem none "bee" [bareStatement none .preferred,
      bareStatement (some "Q1$1") .normal, bareStatement none .normal,
      bareStatement none .normal]
    let third := labelledItem none "cat" [bareStatement none .deprecated]
    (∀ entity ∈ first :: ([second] ++ [third]), entity.Regular) ∧
      (∀ entity ∈ [second] ++ [third], first.type = entity.type) ∧
      ∃ diffs outcome, differences (first :: ([second] ++ [third])) = .ok diffs ∧
        Reproduced diffs first third outcome := by
  intro first second third
  have hfirst : first.Regular := by
    refine ⟨wellKept_labelledItem (by decide) ?_ ⟨by decide, ?_⟩, by decide⟩
    · simp [nanFree_bareStatement]
    · simp [StatementList.guids, bareStatement, Statement.guid?]
  have hsecond : second.Regular := by
    refine ⟨wellKept_labelledItem (by decide) ?_ ⟨by decide, ?_⟩, by decide⟩
    · simp [nanFree_bareStatement]
    · simp [StatementList.guids, bareStatement, Statement.guid?, looksHashed, hashKeyMark]
  have hthird : third.Regular := by
    refine ⟨wellKept_labelledItem (by decide) ?_ ⟨by decide, ?_⟩, by decide⟩
    · simp [nanFree_bareStatement]
    · simp [StatementList.guids, bareStatement, Statement.guid?]
  have hregular : ∀ entity ∈ first :: ([second] ++ [third]), entity.Regular := by
    simp [hfirst, hsecond, hthird]
  have htypes : ∀ entity ∈ [second] ++ [third], first.type = entity.type := by
    simp [first, second, third, labelledItem, Entity.type]
  exact ⟨hregular, htypes, replay_reproduces hregular htypes⟩

end EntityDiff

end KnowledgeBase
