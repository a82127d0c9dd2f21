import KnowledgeBase.Proofs.Diff.Replay
import KnowledgeBase.Proofs.Diff.StatementGroups

/-!
Edits that can be merged commute. Two edits of one base without clash are applied jointly, the
first after the second or the second after the first, and the three outcomes have the same
content. At a single key this is so because the operation that comes last has its own outcome,
and where both sides have an operation their outcomes are equal. Statements may be numbered
anew by the first application, but only after the operations of the second one have found
their keys, so the groups of the outcomes are equal.
-/

namespace KnowledgeBase

variable {α : Type}

/-! ## One key -/

/-- An operation has its own outcome wherever it is applied. -/
theorem DiffOp.after?_some_beq [BEq α] {op : DiffOp α} (hnew : (op.new? == op.new?) = true)
    (current : Option α) : (after? (some op) current == op.new?) = true := by
  cases op with
  | add new =>
      cases current with
      | none => exact hnew
      | some current =>
          simp only [after?, new?, Option.some_beq_some]
          split
          next same => exact same
          next => exact hnew
  | remove old => rfl
  | change old new => exact hnew

section OneKey

variable [BEq α] [PartialEquivBEq α] {base current submitted : Option α}
  (hbase : (base == base) = true) (hcurrent : (current == current) = true)
  (hsubmitted : (submitted == submitted) = true)
include hbase hcurrent hsubmitted

/-- What the edit does after the other one is what the joined operation does. -/
theorem DiffOp.after?_edit_last :
    (after? (between? base submitted) (after? (between? base current) base) ==
      after? ((between? base submitted).or (between? base current)) base) = true := by
  have hcurrentAfter := after?_between? hbase hcurrent
  cases hop : between? base submitted with
  | none => exact PartialEquivBEq.trans hcurrentAfter (PartialEquivBEq.symm hcurrentAfter)
  | some op =>
      have hself : (op.new? == op.new?) = true := by
        rwa [(after?_of_between? rfl hop).2]
      exact PartialEquivBEq.trans (after?_some_beq hself _)
        (PartialEquivBEq.symm (after?_some_beq hself _))

/-- What the other edit does last differs from the joined operation only if both have an
operation, and then the two have equal outcomes. -/
theorem DiffOp.after?_edit_first
    (hagree : ∀ op op', between? base submitted = some op → between? base current = some op' →
      (op == op') = true) :
    (after? (between? base current) (after? (between? base submitted) base) ==
      after? ((between? base submitted).or (between? base current)) base) = true := by
  have hcurrentAfter := after?_between? hbase hcurrent
  have hsubmittedAfter := after?_between? hbase hsubmitted
  cases hop : between? base submitted with
  | none => exact PartialEquivBEq.trans hcurrentAfter (PartialEquivBEq.symm hcurrentAfter)
  | some op =>
      rw [Option.some_or]
      cases hop' : between? base current with
      | none =>
          rw [hop] at hsubmittedAfter
          exact PartialEquivBEq.trans hsubmittedAfter (PartialEquivBEq.symm hsubmittedAfter)
      | some op' =>
          have hself : (op.new? == op.new?) = true := by
            rwa [(after?_of_between? rfl hop).2]
          have hself' : (op'.new? == op'.new?) = true := by
            rwa [(after?_of_between? rfl hop').2]
          have hsame := hagree op op' hop hop'
          rw [beq_eq, Bool.and_eq_true] at hsame
          exact PartialEquivBEq.trans (after?_some_beq hself' _)
            (PartialEquivBEq.trans (PartialEquivBEq.symm hsame.2)
              (PartialEquivBEq.symm (after?_some_beq hself _)))

end OneKey

/-! ## Maps -/

namespace MapDiff

variable [BEq α] [LawfulBEq α] {base current submitted : SortedMap String α}
  {merged : MapDiff α}
  (hmerged : ∀ key, merged.get? key = ((between base.toList submitted.toList).get? key).or
    ((between base.toList current.toList).get? key))
include hmerged

theorem patch_edit_last :
    (between base.toList submitted.toList).patch
      ((between base.toList current.toList).patch base) = merged.patch base := by
  apply SortedMap.ext_get?
  intro key
  simp only [get?_patch, hmerged, get?_between, SortedMap.ofList_toList]
  exact eq_of_beq (DiffOp.after?_edit_last BEq.rfl BEq.rfl BEq.rfl)

theorem patch_edit_first
    (hfree : ∀ key, ¬Clash (between base.toList submitted.toList)
      (between base.toList current.toList) key) :
    (between base.toList current.toList).patch
      ((between base.toList submitted.toList).patch base) = merged.patch base := by
  apply SortedMap.ext_get?
  intro key
  have hagree (op op' : DiffOp α)
      (hop : DiffOp.between? (base.get? key) (submitted.get? key) = some op)
      (hop' : DiffOp.between? (base.get? key) (current.get? key) = some op') :
      (op == op') = true := by
    by_contra hdiffer
    refine hfree key ⟨op, op', ?_, ?_, by simpa using hdiffer⟩
    · simpa only [get?_between, SortedMap.ofList_toList] using hop
    · simpa only [get?_between, SortedMap.ofList_toList] using hop'
  simp only [get?_patch, hmerged, get?_between, SortedMap.ofList_toList]
  exact eq_of_beq (DiffOp.after?_edit_first BEq.rfl BEq.rfl BEq.rfl hagree)

end MapDiff

/-! ## Statements -/

namespace StatementList

section Joined

variable {base current submitted : StatementList} {merged : MapDiff Statement}
  (hmerged : ∀ key, merged.get? key =
    ((diff base submitted).get? key).or ((diff base current).get? key))
  (hbase : base.WellNumbered) (hcurrent : current.WellNumbered)
  (hsubmitted : submitted.WellNumbered)
  (hselfBase : ∀ statement ∈ base, statement.NaNFree)
  (hselfCurrent : ∀ statement ∈ current, statement.NaNFree)
  (hselfSubmitted : ∀ statement ∈ submitted, statement.NaNFree)
include hmerged hbase hcurrent hsubmitted hselfBase hselfCurrent hselfSubmitted

omit hselfBase hselfCurrent hselfSubmitted hbase in
theorem newAll_joined : merged.NewAll Suits :=
  MapDiff.newAll_of_or hmerged (newAll_diff base hsubmitted) (newAll_diff base hcurrent)

/-- The edit after the other one leaves the statements that the joined difference leaves. -/
theorem agree_edit_last :
    ((base.applyDiff (diff base current)).applyDiff (diff base submitted)).Agree
      (base.applyDiff merged) := by
  have hself := get?_byKey_beq_self hselfBase
  have hmiddle : (base.applyDiff (diff base current)).WellNumbered :=
    wellNumbered_replay hbase hcurrent hselfCurrent hself
  refine agree_applyDiff hmiddle hbase (newAll_diff base hsubmitted)
    (newAll_joined hmerged hcurrent hsubmitted) fun key => ?_
  rw [get?_byKey_replay hbase hcurrent hselfCurrent hself, hmerged, get?_diff, get?_diff]
  exact DiffOp.after?_edit_last (hself key)
    (get?_byKey_beq_self hselfCurrent key)
    (get?_byKey_beq_self hselfSubmitted key)

theorem agree_edit_first
    (hfree : ∀ key, ¬MapDiff.Clash (diff base submitted) (diff base current) key) :
    ((base.applyDiff (diff base submitted)).applyDiff (diff base current)).Agree
      (base.applyDiff merged) := by
  have hself := get?_byKey_beq_self hselfBase
  have hmiddle : (base.applyDiff (diff base submitted)).WellNumbered :=
    wellNumbered_replay hbase hsubmitted hselfSubmitted hself
  refine agree_applyDiff hmiddle hbase (newAll_diff base hcurrent)
    (newAll_joined hmerged hcurrent hsubmitted) fun key => ?_
  have hagree (op op' : DiffOp Statement)
      (hop : DiffOp.between? ((byKey base).get? key) ((byKey submitted).get? key) = some op)
      (hop' : DiffOp.between? ((byKey base).get? key) ((byKey current).get? key) = some op') :
      (op == op') = true := by
    by_contra hdiffer
    refine hfree key ⟨op, op', ?_, ?_, by simpa using hdiffer⟩
    · rw [get?_diff, hop]
    · rw [get?_diff, hop']
  rw [get?_byKey_replay hbase hsubmitted hselfSubmitted hself, hmerged, get?_diff, get?_diff]
  exact DiffOp.after?_edit_first (hself key)
    (get?_byKey_beq_self hselfCurrent key)
    (get?_byKey_beq_self hselfSubmitted key) hagree

end Joined

/-- Statements at the end leave the keys of those before them. -/
theorem get?_byKey_of_prefix {list longer : StatementList} (hstart : list <+: longer)
    (h : WellKeyed longer) {key : String} {statement : Statement}
    (hfound : (byKey list).get? key = some statement) :
    (byKey longer).get? key = some statement := by
  obtain ⟨more, rfl⟩ := hstart
  have hkeys (seen : List String) :
      ∃ later, keysAfter seen (list ++ more) = keysAfter seen list ++ later := by
    clear h hfound
    induction list generalizing seen with
    | nil => exact ⟨keysAfter seen more, rfl⟩
    | cons head rest ih =>
        obtain ⟨later, hlater⟩ := ih (head.baseKey :: seen)
        exact ⟨later, by simp only [List.cons_append, keysAfter, hlater]⟩
  obtain ⟨later, hlater⟩ := hkeys []
  have hkeyed : keyed (list ++ more) = keyed list ++ later.zip more := by
    rw [keyed, keys, hlater]
    exact List.zip_append (length_keys list)
  have hnodup : (keys list).Nodup := by
    have hall := h.nodup_keys
    rw [keys, hlater] at hall
    exact hall.of_append_left
  rw [get?_byKey h.nodup_keys, hkeyed]
  exact List.mem_append_left _ ((get?_byKey hnodup).mp hfound)

end StatementList

/-! ## Entities -/

namespace EntityDiff

/-- Two applications change the site links one after the other. -/
theorem patched_patched_siteLinks? (first second : EntityDiff) (entity : Entity) :
    (second.patched (first.patched entity)).siteLinks? =
      entity.siteLinks?.map fun _ =>
        second.siteLinks.patch (first.siteLinks.patch entity.siteLinks) := by
  cases hlinks : entity.siteLinks? with
  | none => simp [hlinks]
  | some links => simp [hlinks, Entity.siteLinks]

section Joined

variable {base current submitted : Entity} {merged : EntityDiff}
  (hjoins : Joins (computed base submitted) (computed base current) merged)
  (hbase : base.Regular) (hcurrent : current.Regular) (hsubmitted : submitted.Regular)
include hjoins hbase hcurrent hsubmitted

theorem sameContent_edit_last :
    ((computed base submitted).patched ((computed base current).patched base)).SameContent
      (merged.patched base) where
  type := by simp
  fingerprint := by
    have hlabels := MapDiff.patch_edit_last hjoins.labels
    have hdescriptions := MapDiff.patch_edit_last hjoins.descriptions
    have haliases := MapDiff.patch_edit_last hjoins.aliases
    simp only [patched_fingerprint, patchedTerms, Fingerprint.mk.injEq]
    exact ⟨hlabels, hdescriptions, haliases⟩
  siteLinks? := by
    have hlinks := MapDiff.patch_edit_last hjoins.siteLinks
    rw [patched_patched_siteLinks?, patched_siteLinks?, ← hlinks]
    rfl
  statements := by
    rw [patched_statements, patched_statements, patched_statements]
    exact StatementList.agree_edit_last hjoins.claims hbase.wellNumbered hcurrent.wellNumbered
      hsubmitted.wellNumbered hbase.nanFree hcurrent.nanFree hsubmitted.nanFree

theorem sameContent_edit_first
    (hfree : ∀ place, ¬ClashAt (computed base submitted) (computed base current) place) :
    ((computed base current).patched ((computed base submitted).patched base)).SameContent
      (merged.patched base) where
  type := by simp
  fingerprint := by
    have hlabels := MapDiff.patch_edit_first hjoins.labels fun key => hfree ⟨.labels, key⟩
    have hdescriptions := MapDiff.patch_edit_first hjoins.descriptions
      fun key => hfree ⟨.descriptions, key⟩
    have haliases := MapDiff.patch_edit_first hjoins.aliases fun key => hfree ⟨.aliases, key⟩
    simp only [patched_fingerprint, patchedTerms, Fingerprint.mk.injEq]
    exact ⟨hlabels, hdescriptions, haliases⟩
  siteLinks? := by
    have hlinks := MapDiff.patch_edit_first hjoins.siteLinks fun key => hfree ⟨.siteLinks, key⟩
    rw [patched_patched_siteLinks?, patched_siteLinks?, ← hlinks]
    rfl
  statements := by
    rw [patched_statements, patched_statements, patched_statements]
    exact StatementList.agree_edit_first hjoins.claims hbase.wellNumbered
      hcurrent.wellNumbered hsubmitted.wellNumbered hbase.nanFree hcurrent.nanFree
      hsubmitted.nanFree fun key => hfree ⟨.claims, key⟩

end Joined

/-- Two differences that fit are applied one after the other without failure. -/
theorem Fit.run_replay_two {first second : EntityDiff} {entity : Entity} (hfirst : first.Fit)
    (hsecond : second.Fit) (htype : first.type = entity.type)
    (htype' : second.type = entity.type) :
    (replay [first, second]).run entity = .ok () (second.patched (first.patched entity)) := by
  have hlast := hsecond.run_apply (htype'.trans (first.patched_type entity).symm)
  rw [replay, List.forM_cons, Edit.run_bind_ok (hfirst.run_apply htype), List.forM_cons,
    Edit.run_bind_ok hlast]
  rfl

/-- Differences of edits that do not contradict each other can be merged. -/
theorem exists_merge {base current submitted : Entity} {theirs ours : EntityDiff}
    (hbase : base.WellKept) (hcurrentType : base.type = current.type)
    (hsubmittedType : base.type = submitted.type)
    (hfree : ∀ place : Conflict, ¬Contradict (base.valueAt place) (current.valueAt place)
      (submitted.valueAt place))
    (htheirs : between base current = .ok theirs) (hours : between base submitted = .ok ours) :
    ∃ merged, ours.merge theirs = .ok merged := by
  rw [between_of_type hcurrentType, Except.ok.injEq] at htheirs
  rw [between_of_type hsubmittedType, Except.ok.injEq] at hours
  subst htheirs hours
  have htypes : (computed base submitted).type = (computed base current).type := rfl
  rcases merge_cases htypes with ⟨merged, hmerge, -, -⟩ | ⟨place, -, hclash, -⟩
  · exact ⟨merged, hmerge⟩
  · exact absurd ((clashAt_computed_iff hbase place).mp hclash) (hfree place)

/-- Whatever two edits of one base are, they have differences, and if these can be merged it
does not matter whether the merged one is applied or the two in either order: no application
fails, and the outcomes have the same terms and links and equal statements under the same
keys, each key once. -/
theorem merge_commutes {base current submitted : Entity} (hbase : base.Regular)
    (hcurrent : current.Regular) (hsubmitted : submitted.Regular)
    (hcurrentType : base.type = current.type) (hsubmittedType : base.type = submitted.type) :
    ∃ theirs ours, between base current = .ok theirs ∧ between base submitted = .ok ours ∧
      ∀ merged, ours.merge theirs = .ok merged →
        ∃ joined theirsFirst oursFirst : Entity,
          merged.apply.run base = .ok () joined ∧
          (replay [theirs, ours]).run base = .ok () theirsFirst ∧
          (replay [ours, theirs]).run base = .ok () oursFirst ∧
          joined.SameContent theirsFirst ∧ joined.SameContent oursFirst ∧
          theirsFirst.SameContent oursFirst ∧
          ∀ outcome ∈ [joined, theirsFirst, oursFirst],
            (StatementList.keys outcome.statements).Nodup := by
  refine ⟨computed base current, computed base submitted, between_of_type hcurrentType,
    between_of_type hsubmittedType, fun merged hmerge => ?_⟩
  have htypes : (computed base submitted).type = (computed base current).type := rfl
  obtain ⟨hjoins, hfree⟩ : Joins (computed base submitted) (computed base current) merged ∧
      ∀ place, ¬ClashAt (computed base submitted) (computed base current) place := by
    rcases merge_cases htypes with ⟨found, hrun, hjoins, hfree⟩ | ⟨place, herror, -⟩
    · rw [hrun, Except.ok.injEq] at hmerge
      exact ⟨hmerge ▸ hjoins, hfree⟩
    · rw [herror] at hmerge
      cases hmerge
  have htheirs := fit_computed base hcurrent.sound
  have hours := fit_computed base hsubmitted.sound
  have hlast := sameContent_edit_last hjoins hbase hcurrent hsubmitted
  have hfirst := sameContent_edit_first hjoins hbase hcurrent hsubmitted hfree
  have hself : base.SameContent base :=
    ⟨rfl, rfl, rfl, StatementList.get?_byKey_beq_self hbase.nanFree⟩
  have hcurrentNumbered := wellNumbered_patched hbase.wellNumbered hself hcurrent
  have hsubmittedNumbered := wellNumbered_patched hbase.wellNumbered hself hsubmitted
  refine ⟨merged.patched base, _, _,
    (hjoins.fit hcurrent.sound hsubmitted.sound).run_apply hjoins.type,
    htheirs.run_replay_two hours rfl rfl, hours.run_replay_two htheirs rfl rfl,
    hlast.symm, hfirst.symm, hlast.trans hfirst.symm, ?_⟩
  intro outcome member
  simp only [List.mem_cons, List.not_mem_nil, or_false] at member
  rcases member with rfl | rfl | rfl
  · rw [patched_statements]
    exact (StatementList.wellKeyed_applyDiff hbase.wellNumbered
      (StatementList.newAll_joined hjoins.claims hcurrent.wellNumbered
        hsubmitted.wellNumbered)).nodup_keys
  · rw [patched_statements]
    exact (StatementList.wellKeyed_applyDiff hcurrentNumbered
      (StatementList.newAll_diff _ hsubmitted.wellNumbered)).nodup_keys
  · rw [patched_statements]
    exact (StatementList.wellKeyed_applyDiff hsubmittedNumbered
      (StatementList.newAll_diff _ hcurrent.wellNumbered)).nodup_keys

/-- Of three equal statements without identifier one edit takes the last away and the other
puts two more at the end, so that numbers of the keys change. -/
theorem merge_commutes_of_repeated_statements :
    let bare := bareStatement none .normal
    let base := labelledItem none "ant" [bare, bare, bare]
    let current := labelledItem none "ant" [bare, bare]
    let submitted := labelledItem none "bee"
      [bare, bare, bare, bareStatement none .preferred, bareStatement none .normal]
    (base.Regular ∧ current.Regular ∧ submitted.Regular ∧ base.type = current.type ∧
      base.type = submitted.type) ∧
    ∃ theirs ours merged joined theirsFirst oursFirst, between base current = .ok theirs ∧
      between base submitted = .ok ours ∧ ours.merge theirs = .ok merged ∧
      merged.apply.run base = .ok () joined ∧
      (replay [theirs, ours]).run base = .ok () theirsFirst ∧
      (replay [ours, theirs]).run base = .ok () oursFirst ∧
      joined.SameContent theirsFirst ∧ theirsFirst.SameContent oursFirst := by
  intro bare base current submitted
  have hbase : base.Regular :=
    regular_labelledItem _ (by decide) (by simp [bare]) (by decide)
  have hcurrent : current.Regular :=
    regular_labelledItem _ (by decide) (by simp [bare]) (by decide)
  have hsubmitted : submitted.Regular :=
    regular_labelledItem _ (by decide) (by simp [bare]) (by decide)
  have hcurrentType : base.type = current.type := rfl
  have hsubmittedType : base.type = submitted.type := rfl
  refine ⟨⟨hbase, hcurrent, hsubmitted, hcurrentType, hsubmittedType⟩, ?_⟩
  have hshorter : current.statements <+: base.statements := ⟨[bare], rfl⟩
  have hlonger : base.statements <+: submitted.statements := ⟨[_, _], rfl⟩
  have hfree (place : Conflict) : ¬Contradict (base.valueAt place) (current.valueAt place)
      (submitted.valueAt place) := by
    obtain ⟨part, key⟩ := place
    rintro ⟨hcurrentDiffers, hsubmittedDiffers, -⟩
    cases part with
    | claims =>
        rw [Entity.valueAt, Entity.valueAt, map_beq_map SectionValue.statement fun _ _ => rfl]
          at hcurrentDiffers hsubmittedDiffers
        have hself := StatementList.get?_byKey_beq_self hbase.nanFree key
        cases hfound : (StatementList.byKey base.statements).get? key with
        | some statement =>
            have hkept := StatementList.get?_byKey_of_prefix hlonger hsubmitted.statements hfound
            rw [hkept, ← hfound, hself] at hsubmittedDiffers
            cases hsubmittedDiffers
        | none =>
            have hgone : (StatementList.byKey current.statements).get? key = none := by
              rw [Option.eq_none_iff_forall_ne_some]
              intro statement hstatement
              rw [StatementList.get?_byKey_of_prefix hshorter hbase.statements hstatement]
                at hfound
              cases hfound
            rw [hfound, hgone] at hcurrentDiffers
            cases hcurrentDiffers
    | labels =>
        refine absurd ?_ (Bool.eq_false_iff.mp hcurrentDiffers)
        exact (map_beq_map SectionValue.text (fun _ _ => rfl) _ _).trans BEq.rfl
    | descriptions | aliases | siteLinks => cases hcurrentDiffers
  obtain ⟨theirs, ours, htheirs, hours, hall⟩ :=
    merge_commutes hbase hcurrent hsubmitted hcurrentType hsubmittedType
  obtain ⟨merged, hmerge⟩ := exists_merge hbase.toWellKept hcurrentType hsubmittedType hfree
    htheirs hours
  obtain ⟨joined, theirsFirst, oursFirst, hjoined, htheirsFirst, hoursFirst, hsame, -, hsame',
    -⟩ := hall merged hmerge
  exact ⟨theirs, ours, merged, joined, theirsFirst, oursFirst, htheirs, hours, hmerge, hjoined,
    htheirsFirst, hoursFirst, hsame, hsame'⟩

end EntityDiff

end KnowledgeBase
