import KnowledgeBase.ArrayForm.Diff
import KnowledgeBase.Proofs.Diff.Entity

/-!
Applications that fail. Operations are applied one by one and nothing is taken back, so a
refused operation leaves what the operations before it have done. Only terms are refused,
for their length, and they come before statements and links, which a failed application
therefore leaves as they were.
-/

namespace KnowledgeBase

/-! ## One section -/

namespace MapDiff

variable {σ α : Type} [BEq α]

private theorem split_of_error {target : PatchTarget σ α} {ops : List (String × DiffOp α)}
    {state after : σ} {error : ModelError}
    (h : (forM ops (runKey target)).run state = .error error after) :
    ∃ before key op rest, ops = before ++ (key, op) :: rest ∧
      (forM before (runKey target)).run state = .ok () after ∧
      op.apply target key after = .error error := by
  induction ops generalizing state with
  | nil => cases h
  | cons entry rest ih =>
      obtain ⟨key, op⟩ := entry
      cases hstep : op.apply target key state with
      | error found =>
          rw [List.forM_cons, Edit.run_bind_error (run_runKey_error hstep)] at h
          cases h
          exact ⟨[], key, op, rest, rfl, rfl, hstep⟩
      | ok middle =>
          have hrun := run_runKey_ok hstep
          rw [List.forM_cons, Edit.run_bind_ok hrun] at h
          obtain ⟨before, refusedKey, refusedOp, later, rfl, hbefore, hrefused⟩ := ih h
          refine ⟨(key, op) :: before, refusedKey, refusedOp, later, rfl, ?_, hrefused⟩
          rw [List.forM_cons, Edit.run_bind_ok hrun]
          exact hbefore

private theorem put_of_error {target : PatchTarget σ α} {key : String} {op : DiffOp α}
    {state : σ} {error : ModelError} (h : op.apply target key state = .error error) :
    ∃ new, op.new? = some new ∧ target.put state key new = .error error := by
  rcases op.apply_cases target key state with hsame | htaken | ⟨new, hnew, hput⟩
  · rw [hsame] at h
    cases h
  · rw [htaken] at h
    cases h
  · exact ⟨new, hnew, hput.symm.trans h⟩

/-- A failed application of a section has applied what comes before the refused key. -/
theorem run_below_of_error {target : PatchTarget σ α} {diff : MapDiff α} {state after : σ}
    {error : ModelError} (h : (diff.apply target).run state = .error error after) :
    ∃ key op new, diff.get? key = some op ∧ op.new? = some new ∧
      target.put after key new = .error error ∧
      (MapDiff.apply target (diff.below key)).run state = .ok () after := by
  rw [apply_eq_forM] at h
  obtain ⟨before, key, op, rest, hsplit, hbefore, hrefused⟩ := split_of_error h
  obtain ⟨new, hnew, hput⟩ := put_of_error hrefused
  refine ⟨key, op, new, ?_, hnew, hput, ?_⟩
  · rw [SortedMap.get?_eq_some_iff, hsplit]
    simp
  · rw [apply_eq_forM, SortedMap.toList_below hsplit]
    exact hbefore

theorem run_within_below_of_error {τ : Type} {part : τ → σ} {replace : τ → σ → τ}
    {target : PatchTarget σ α} {diff : MapDiff α} {whole after : τ} {error : ModelError}
    (h : (Edit.within part replace (diff.apply target)).run whole = .error error after) :
    ∃ key op new reached, diff.get? key = some op ∧ op.new? = some new ∧
      target.put reached key new = .error error ∧
      (Edit.within part replace (MapDiff.apply target (diff.below key))).run whole =
        .ok () after := by
  obtain ⟨reached, hrun, rfl⟩ := Edit.run_within_error_cases h
  obtain ⟨key, op, new, hop, hnew, hput, hbefore⟩ := run_below_of_error hrun
  exact ⟨key, op, new, reached, hop, hnew, hput, Edit.run_within_ok hbefore⟩

end MapDiff

/-! ## All sections -/

namespace EntityDiff

/-- The operations of a difference that are applied before it comes to a place. -/
def before (diff : EntityDiff) (place : Conflict) : EntityDiff :=
  match place.part with
  | .labels => { type := diff.type, labels := diff.labels.below place.key }
  | .descriptions =>
      { type := diff.type, labels := diff.labels,
        descriptions := diff.descriptions.below place.key }
  | .aliases =>
      { type := diff.type, labels := diff.labels, descriptions := diff.descriptions,
        aliases := diff.aliases.below place.key }
  | .claims =>
      { type := diff.type, labels := diff.labels, descriptions := diff.descriptions,
        aliases := diff.aliases, claims := diff.claims.below place.key }
  | .siteLinks => { diff with siteLinks := diff.siteLinks.below place.key }

/-- Whether the operation at a place puts in a term that is too long, with its error. -/
def Refuses (diff : EntityDiff) (place : Conflict) (error : ModelError) : Prop :=
  match place.part with
  | .labels => ∃ op text, diff.labels.get? place.key = some op ∧ op.new? = some text ∧
      maxTermLength < text.length ∧
      error = .lengthExceedsLimit "term" text.length maxTermLength
  | .descriptions => ∃ op text, diff.descriptions.get? place.key = some op ∧
      op.new? = some text ∧ maxTermLength < text.length ∧
      error = .lengthExceedsLimit "term" text.length maxTermLength
  | .aliases => ∃ op group, diff.aliases.get? place.key = some op ∧ op.new? = some group ∧
      ∃ text ∈ group, maxTermLength < text.length ∧
        error = .lengthExceedsLimit "alias" text.length maxTermLength
  | .claims | .siteLinks => False

private theorem long_of_set_error {terms : TermList} {language text : String}
    {error : ModelError} (h : TermList.set terms language text = .error error) :
    maxTermLength < text.length ∧
      error = .lengthExceedsLimit "term" text.length maxTermLength := by
  rcases Nat.lt_or_ge maxTermLength text.length with hlong | hshort
  · rw [TermList.set_of_lt hlong] at h
    cases h
    exact ⟨hlong, rfl⟩
  · rw [TermList.set_of_le hshort] at h
    cases h

private theorem long_of_setAliases_error {groups : AliasGroups} {language : String}
    {group : List String} {error : ModelError}
    (h : AliasGroups.set groups language group = .error error) :
    ∃ text ∈ group, maxTermLength < text.length ∧
      error = .lengthExceedsLimit "alias" text.length maxTermLength := by
  by_cases hlong : ∃ text ∈ group, maxTermLength < text.length
  · obtain ⟨text, member, htext, hset⟩ := AliasGroups.set_of_lt groups language hlong
    rw [hset] at h
    cases h
    exact ⟨text, member, htext, rfl⟩
  · have hshort : ∀ text ∈ group, text.length ≤ maxTermLength := fun text member =>
      Nat.le_of_not_lt fun htext => hlong ⟨text, member, htext⟩
    rw [AliasGroups.set, forM_checkTermLength_of_le hshort] at h
    cases hdistinct : group.eraseDups with
    | nil =>
        simp only [hdistinct] at h
        cases h
    | cons first rest =>
        simp only [hdistinct] at h
        cases h

/-- A failed application of the terms has applied what comes before the refused one. -/
theorem applyTerms_of_error {diff : EntityDiff} {fingerprint after : Fingerprint}
    {error : ModelError} (h : diff.applyTerms.run fingerprint = .error error after) :
    ∃ place, diff.Refuses place error ∧
      (diff.before place).applyTerms.run fingerprint = .ok () after ∧
      (diff.before place).claims = .empty ∧ (diff.before place).siteLinks = .empty := by
  unfold applyTerms at h
  rcases Edit.run_bind_error_cases h with hlabels | ⟨_, labelled, hlabels, h⟩
  · obtain ⟨key, op, text, reached, hop, hnew, hput, hbefore⟩ :=
      MapDiff.run_within_below_of_error hlabels
    refine ⟨⟨.labels, key⟩, ⟨op, text, hop, hnew, long_of_set_error hput⟩, ?_, rfl, rfl⟩
    exact (Edit.run_bind_ok hbefore).trans rfl
  rcases Edit.run_bind_error_cases h with hdescriptions | ⟨_, described, hdescriptions, h⟩
  · obtain ⟨key, op, text, reached, hop, hnew, hput, hbefore⟩ :=
      MapDiff.run_within_below_of_error hdescriptions
    refine ⟨⟨.descriptions, key⟩, ⟨op, text, hop, hnew, long_of_set_error hput⟩, ?_, rfl, rfl⟩
    refine (Edit.run_bind_ok hlabels).trans ?_
    exact (Edit.run_bind_ok hbefore).trans rfl
  · obtain ⟨key, op, group, reached, hop, hnew, hput, hbefore⟩ :=
      MapDiff.run_within_below_of_error h
    refine ⟨⟨.aliases, key⟩, ⟨op, group, hop, hnew, long_of_setAliases_error hput⟩, ?_, rfl,
      rfl⟩
    refine (Edit.run_bind_ok hlabels).trans ?_
    exact (Edit.run_bind_ok hdescriptions).trans hbefore

private theorem applyDiff_empty (list : StatementList) :
    list.applyDiff .empty = list := by
  have hkept (pairs : List (String × Statement)) :
      StatementList.patchPresent .empty pairs = pairs.map (·.2) := by
    induction pairs with
    | nil => rfl
    | cons entry rest ih =>
        rw [List.map_cons, ← ih]
        rfl
  have hadded (keys : List String) : StatementList.absentNew .empty keys = [] := rfl
  unfold StatementList.applyDiff
  simp only [hkept, hadded, StatementList.keyed_map_snd, List.mergeSort_nil, List.map_nil,
    List.append_nil]

private theorem run_applySections_of_terms {diff : EntityDiff} {entity : Entity}
    {after : Fingerprint} (hterms : diff.applyTerms.run entity.fingerprint = .ok () after)
    (hclaims : diff.claims = .empty) (hlinks : diff.siteLinks = .empty) :
    diff.applySections.run entity = .ok () (entity.setFingerprint after) := by
  unfold applySections
  rw [Edit.run_bind_ok (Edit.run_within_ok hterms), Edit.run_bind_ok (Edit.run_modify _ _),
    hclaims, hlinks, applyDiff_empty, Entity.setStatements_self]
  refine (Edit.run_within_ok rfl).trans ?_
  rw [← Entity.siteLinks, Entity.setSiteLinks_self]

/-- An application that fails changes nothing if the types differ. Otherwise a term is too
long: what comes before it is applied, and the rest of the entity is as it was. -/
theorem apply_of_error {diff : EntityDiff} {entity after : Entity} {error : ModelError}
    (h : diff.apply.run entity = .error error after) :
    (diff.type ≠ entity.type ∧ error = .entityTypeMismatch diff.type entity.type ∧
      after = entity) ∨
    ∃ place, diff.Refuses place error ∧
      (diff.before place).apply.run entity = .ok () after ∧
      after.statements = entity.statements ∧ after.siteLinks? = entity.siteLinks? ∧
      after.type = entity.type ∧ after.id? = entity.id? ∧
      after.dataType? = entity.dataType? := by
  by_cases htype : diff.type = entity.type
  swap
  · rw [run_apply_of_ne htype] at h
    cases h
    exact Or.inl ⟨htype, rfl, rfl⟩
  · rw [run_apply htype] at h
    unfold applySections at h
    rcases Edit.run_bind_error_cases h with hterms | ⟨_, termed, -, h⟩
    · obtain ⟨terms, hrun, rfl⟩ := Edit.run_within_error_cases hterms
      obtain ⟨place, hrefuses, hbefore, hclaims, hlinks⟩ := applyTerms_of_error hrun
      have hbeforeType : (diff.before place).type = entity.type := by
        rw [← htype]
        unfold before
        split <;> rfl
      refine Or.inr ⟨place, hrefuses, ?_, by simp, by simp, by simp, by simp, by simp⟩
      rw [run_apply hbeforeType]
      exact run_applySections_of_terms hbefore hclaims hlinks
    rcases Edit.run_bind_error_cases h with hmodify | ⟨_, middle, -, hlinks⟩
    · cases hmodify
    · obtain ⟨key, op, link, reached, -, -, hput, -⟩ :=
        MapDiff.run_within_below_of_error hlinks
      cases hput

/-! ## An application that is not taken back -/

/-- A difference that adds a label and then a description. -/
def labelAndDescription (text : String) : EntityDiff where
  type := .item
  labels := SortedMap.empty.insert "en" (.add "ant")
  descriptions := SortedMap.empty.insert "en" (.add text)

private theorem run_labelAndDescription {text : String} (h : maxTermLength < text.length) :
    (labelAndDescription text).apply.run (.item {}) =
      .error (.lengthExceedsLimit "term" text.length maxTermLength)
        (labelledItem none "ant" []) := by
  have hlabels : ((labelAndDescription text).labels.apply TermList.target).run
      Fingerprint.empty.labels = .ok () (SortedMap.empty.insert "en" "ant") := by rfl
  have hstep : (DiffOp.add text).apply TermList.target "en" SortedMap.empty =
      .error (.lengthExceedsLimit "term" text.length maxTermLength) := by
    exact TermList.set_of_lt h
  have hdescriptions : ((labelAndDescription text).descriptions.apply TermList.target).run
      (labelledItem none "ant" []).fingerprint.descriptions =
        .error (.lengthExceedsLimit "term" text.length maxTermLength) .empty :=
    Edit.run_bind_error (MapDiff.run_runKey_error hstep)
  have hterms : (labelAndDescription text).applyTerms.run Fingerprint.empty =
      .error (.lengthExceedsLimit "term" text.length maxTermLength)
        (labelledItem none "ant" []).fingerprint :=
    (Edit.run_bind_ok (Edit.run_within_ok hlabels)).trans
      (Edit.run_bind_error (Edit.run_within_error hdescriptions))
  rw [run_apply rfl]
  exact Edit.run_bind_error (Edit.run_within_error hterms)

/-- A text with one character more than a term may have. -/
def longText : String := String.ofList (List.replicate (maxTermLength + 1) 'y')

private theorem long_longText : maxTermLength < longText.length := by
  have hlength : longText.length = maxTermLength + 1 := by
    rw [longText, String.length_ofList, List.length_replicate]
  rw [hlength]
  exact Nat.lt_succ_self _

/-- An application is not taken back where it fails: the label stays, although the
difference is one that can be read from its array form. -/
theorem apply_not_atomic :
    ¬∀ (array : Json) (diff : EntityDiff) (entity after : Entity) (error : ModelError),
      (ArrayForm.ofArray array : Except ArrayError EntityDiff) = .ok diff →
      diff.apply.run entity = .error error after → after = entity := by
  intro hatomic
  have hread : (ArrayForm.ofArray (ArrayForm.toArray (labelAndDescription longText)) :
      Except ArrayError EntityDiff) = .ok (labelAndDescription longText) := by rfl
  have hsame := hatomic _ _ _ _ _ hread (run_labelAndDescription long_longText)
  have hlabels := congrArg (fun entity => entity.fingerprint.labels.toList) hsame
  cases hlabels

/-- The refused operation is the one of the description, and the label stays. -/
theorem apply_of_error_label_stays :
    ∃ error after, (labelAndDescription longText).apply.run (.item {}) = .error error after ∧
      after.fingerprint.labels.get? "en" = some "ant" ∧
      ∃ place, (labelAndDescription longText).Refuses place error ∧
        ((labelAndDescription longText).before place).apply.run (.item {}) =
          .ok () after := by
  have hrun := run_labelAndDescription long_longText
  refine ⟨_, _, hrun, rfl, ?_⟩
  rcases apply_of_error hrun with ⟨htype, -⟩ | ⟨place, hrefuses, hbefore, -⟩
  · exact absurd rfl htype
  · exact ⟨place, hrefuses, hbefore⟩

end EntityDiff

end KnowledgeBase
