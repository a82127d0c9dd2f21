import KnowledgeBase.Diff.Merge
import KnowledgeBase.Proofs.ContentEquality
import KnowledgeBase.Proofs.SortedMap
import Mathlib.Data.String.Basic

/-!
What differences of keyed collections do, key by key. `DiffOp.after?` is the effect of an
operation on the value at its key; a computed difference takes the old value to the new one,
and a target that accepts the new values is changed exactly so. Merging joins two
differences if no key has operations in both that differ, and else names the first such key.
-/

namespace KnowledgeBase

variable {α : Type}

namespace DiffOp

/-- The value at a key after the operation on it, if there is one. -/
def after? [BEq α] : Option (DiffOp α) → Option α → Option α
  | none, current => current
  | some (.add new), some current => some (if current == new then current else new)
  | some op, _ => op.new?

theorem after?_some_none [BEq α] (op : DiffOp α) : after? (some op) none = op.new? := by
  cases op <;> rfl

/-- An operation leaves a target as it is, takes the value out or puts its new value in. -/
theorem apply_cases {σ : Type} [BEq α] (op : DiffOp α) (target : PatchTarget σ α)
    (key : String) (state : σ) :
    op.apply target key state = .ok state ∨
      op.apply target key state = .ok (target.take state key) ∨
      ∃ new, op.new? = some new ∧
        op.apply target key state = target.put state key new := by
  cases op with
  | add new =>
      cases hcurrent : target.current state key with
      | none => exact Or.inr (Or.inr ⟨new, rfl, by simp only [apply, hcurrent]⟩)
      | some current =>
          by_cases same : (current == new) = true
          · exact Or.inl (by simp only [apply, hcurrent, if_pos same])
          · exact Or.inr (Or.inr ⟨new, rfl, by simp only [apply, hcurrent, if_neg same]⟩)
  | remove old =>
      cases hcurrent : target.current state key with
      | none => exact Or.inl (by simp only [apply, hcurrent])
      | some current => exact Or.inr (Or.inl (by simp only [apply, hcurrent]))
  | change old new => exact Or.inr (Or.inr ⟨new, rfl, rfl⟩)

theorem between?_self [BEq α] {old new : Option α} (h : (old == new) = true) :
    between? old new = none := by
  cases old <;> cases new <;> simp_all [between?]

theorem beq_of_between?_eq_none [BEq α] {old new : Option α} (h : between? old new = none) :
    (old == new) = true := by
  cases old <;> cases new <;> simp_all [between?]

/-- A computed operation takes the value it starts from, or an equal one, to its target. -/
theorem after?_between? [BEq α] [PartialEquivBEq α] {current old new : Option α}
    (hcurrent : (current == old) = true) (hnew : (new == new) = true) :
    (after? (between? old new) current == new) = true := by
  cases old with
  | none =>
      have hnone : current = none := by cases current <;> simp_all
      subst hnone
      cases new with
      | none => rfl
      | some after => exact hnew
  | some before =>
      obtain ⟨value, rfl⟩ : ∃ value, current = some value := by
        cases current with
        | none => simp at hcurrent
        | some value => exact ⟨value, rfl⟩
      cases new with
      | none => simp [between?, after?, new?]
      | some after =>
          by_cases same : (before == after) = true
          · simp only [between?, same, if_true, after?]
            rw [Option.some_beq_some] at hcurrent ⊢
            exact PartialEquivBEq.trans hcurrent same
          · simpa [between?, same, after?, new?] using hnew

/-- Where a computed operation acts, its outcome is its target and nothing else. -/
theorem after?_of_between? [BEq α] {current old new : Option α} {op : DiffOp α}
    (hcurrent : current.isSome = old.isSome) (h : between? old new = some op) :
    after? (some op) current = new ∧ op.new? = new := by
  cases old with
  | none =>
      have hnone : current = none := by cases current <;> simp_all
      subst hnone
      cases new with
      | none => cases h
      | some after =>
          cases h
          exact ⟨rfl, rfl⟩
  | some before =>
      cases new with
      | none =>
          cases h
          exact ⟨rfl, rfl⟩
      | some after =>
          simp only [between?] at h
          split at h
          · cases h
          · cases h
            exact ⟨rfl, rfl⟩

theorem isSome_after? [BEq α] (op : DiffOp α) (current : Option α) :
    (after? (some op) current).isSome = op.new?.isSome := by
  cases op <;> cases current <;> rfl

/-- A second run of an operation finds its own outcome and keeps it. -/
theorem after?_new? [BEq α] (op : DiffOp α) : after? (some op) op.new? = op.new? := by
  cases op <;> simp [after?, new?]

/-- A second run of an operation, or of none, changes nothing, whatever the first run met. -/
theorem after?_after? [BEq α] (op? : Option (DiffOp α)) (current : Option α) :
    after? op? (after? op? current) = after? op? current := by
  cases op? with
  | none => rfl
  | some op =>
      cases op with
      | add new =>
          cases current with
          | none => exact after?_new? (.add new)
          | some current => by_cases same : (current == new) = true <;> simp [after?, same]
      | remove old => rfl
      | change old new => rfl

/-- Operations are equal when they start from equal values and end in equal ones. -/
theorem beq_eq [BEq α] (first second : DiffOp α) :
    (first == second) = (first.old? == second.old? && first.new? == second.new?) := by
  cases first with
  | add new => cases second <;> rfl
  | change old new =>
      cases second with
      | add _ => rfl
      | remove _ => exact (Bool.and_false _).symm
      | change _ _ => rfl
  | remove old =>
      cases second with
      | remove old' => exact (Bool.and_true _).symm
      | add _ => rfl
      | change _ _ => exact (Bool.and_false _).symm

end DiffOp

namespace MapDiff

/-- A difference holds at each key the operation from the old to the new value. -/
theorem get?_between [BEq α] (old new : List (String × α)) (key : String) :
    (between old new).get? key =
      DiffOp.between? ((SortedMap.ofList old).get? key) ((SortedMap.ofList new).get? key) := by
  unfold between
  simp only
  rw [SortedMap.get?_ofList_filterMap _ fun key =>
    DiffOp.between? ((SortedMap.ofList old).get? key) ((SortedMap.ofList new).get? key)]
  split
  · rfl
  next absent =>
    simp only [List.mem_append, List.mem_filter, SortedMap.mem_keys_iff, SortedMap.contains,
      not_or, not_and, Bool.not_eq_true, Option.isSome_eq_false_iff, Option.isNone_iff_eq_none,
      Bool.not_eq_false'] at absent
    have hold := absent.1
    have hnew : (SortedMap.ofList new).get? key = none := by
      by_contra present
      have := absent.2 (Option.isSome_iff_ne_none.mpr present)
      simp [hold] at this
    rw [hold, hnew]
    rfl

/-! ### Application -/

/-- The step of an application that one operation is. -/
def runKey {σ : Type} [BEq α] (target : PatchTarget σ α) (entry : String × DiffOp α) :
    Edit σ Unit :=
  Edit.ofStep (entry.2.apply target entry.1)

theorem run_runKey_ok {σ : Type} [BEq α] {target : PatchTarget σ α} {key : String}
    {op : DiffOp α} {state after : σ} (h : op.apply target key state = .ok after) :
    (runKey target (key, op)).run state = .ok () after := by
  simp only [runKey, Edit.ofStep, EStateM.run, h]

theorem run_runKey_error {σ : Type} [BEq α] {target : PatchTarget σ α} {key : String}
    {op : DiffOp α} {state : σ} {error : ModelError}
    (h : op.apply target key state = .error error) :
    (runKey target (key, op)).run state = .error error state := by
  simp only [runKey, Edit.ofStep, EStateM.run, h]

theorem apply_of_run_runKey {σ : Type} [BEq α] {target : PatchTarget σ α} {key : String}
    {op : DiffOp α} {state after : σ} (h : (runKey target (key, op)).run state = .ok () after) :
    op.apply target key state = .ok after := by
  cases hop : op.apply target key state with
  | ok found =>
      rw [run_runKey_ok hop] at h
      cases h
      rfl
  | error error =>
      rw [run_runKey_error hop] at h
      cases h

theorem apply_eq_forM {σ : Type} [BEq α] (target : PatchTarget σ α) (diff : MapDiff α) :
    diff.apply target = forM diff.toList (runKey target) := rfl

/-- One operation on a plain map. -/
def patchKey [BEq α] (map : SortedMap String α) (entry : String × DiffOp α) :
    SortedMap String α :=
  match entry.2, map.get? entry.1 with
  | .add new, some current => if current == new then map else map.insert entry.1 new
  | .add new, none => map.insert entry.1 new
  | .remove _, some _ => map.erase entry.1
  | .remove _, none => map
  | .change _ new, _ => map.insert entry.1 new

theorem get?_patchKey [BEq α] (map : SortedMap String α) (entry : String × DiffOp α)
    (key : String) : (patchKey map entry).get? key =
      if key = entry.1 then DiffOp.after? (some entry.2) (map.get? key) else map.get? key := by
  obtain ⟨place, op⟩ := entry
  unfold patchKey
  by_cases same : key = place
  · subst same
    cases op <;> cases hcurrent : map.get? key <;>
      simp [DiffOp.after?, DiffOp.new?, hcurrent, SortedMap.get?_insert, SortedMap.get?_erase]
    next new current =>
      split <;> simp [hcurrent, SortedMap.get?_insert]
  · cases op <;> cases map.get? place <;>
      simp [same, SortedMap.get?_insert, SortedMap.get?_erase]
    next new current =>
      split <;> simp [same, SortedMap.get?_insert]

private theorem get?_foldl_patchKey [BEq α] {ops : List (String × DiffOp α)}
    (h : (ops.map (·.1)).Nodup) (map : SortedMap String α) (key : String) :
    (ops.foldl patchKey map).get? key =
      DiffOp.after? ((SortedMap.ofList ops).get? key) (map.get? key) := by
  induction ops using List.reverseRecOn with
  | nil => rfl
  | append_singleton ops last ih =>
      rw [List.map_append, List.nodup_append] at h
      obtain ⟨hops, -, hfresh⟩ := h
      rw [List.foldl_append, List.foldl_cons, List.foldl_nil, get?_patchKey, ih hops,
        SortedMap.ofList_append_singleton, SortedMap.get?_insert]
      by_cases same : key = last.1
      · have habsent : (SortedMap.ofList ops).get? last.1 = none := by
          rw [Option.eq_none_iff_forall_ne_some]
          intro op hop
          have member := (SortedMap.get?_ofList_eq_some_iff hops).mp hop
          exact hfresh last.1 (List.mem_map.mpr ⟨_, member, rfl⟩) last.1 (by simp) rfl
        subst same
        simp only [habsent, if_true]
        rfl
      · simp [same]

/-- Whether a target that keeps a map puts the new values of operations where plain maps put
them. -/
structure Accepted [BEq α] (target : PatchTarget (SortedMap String α) α)
    (diff : MapDiff α) : Prop where
  current : target.current = SortedMap.get?
  take : target.take = SortedMap.erase
  put : ∀ key op new, diff.get? key = some op → op.new? = some new →
    ∀ map, target.put map key new = .ok (map.insert key new)

private theorem run_forM_runKey [BEq α] {target : PatchTarget (SortedMap String α) α}
    {ops : List (String × DiffOp α)} (hcurrent : target.current = SortedMap.get?)
    (htake : target.take = SortedMap.erase)
    (hput : ∀ entry ∈ ops, ∀ new, entry.2.new? = some new →
      ∀ map, target.put map entry.1 new = .ok (map.insert entry.1 new))
    (map : SortedMap String α) :
    (forM ops (runKey target)).run map = .ok () (ops.foldl patchKey map) := by
  induction ops generalizing map with
  | nil => rfl
  | cons entry rest ih =>
      obtain ⟨key, op⟩ := entry
      have hrest := ih fun later member => hput later (List.mem_cons_of_mem _ member)
      have hentry := hput (key, op) (List.mem_cons_self ..)
      have hstep : op.apply target key map = .ok (patchKey map (key, op)) := by
        simp only [DiffOp.apply, hcurrent, htake, patchKey]
        cases op with
        | add new =>
            cases map.get? key with
            | none => exact hentry new rfl map
            | some current =>
                by_cases same : (current == new) = true
                · simp [same]
                · simpa [same] using hentry new rfl map
        | remove old => cases map.get? key <;> rfl
        | change old new => exact hentry new rfl map
      rw [List.forM_cons, EStateM.run_bind, run_runKey_ok hstep]
      exact hrest _

theorem patch_eq_foldl [BEq α] (diff : MapDiff α) (map : SortedMap String α) :
    diff.patch map = diff.toList.foldl patchKey map := by
  unfold patch Edit.stateAfter
  rw [apply_eq_forM, run_forM_runKey rfl rfl fun _ _ _ _ _ => rfl]

/-- Applied to a plain map, a difference has its effect at every key. -/
theorem get?_patch [BEq α] (diff : MapDiff α) (map : SortedMap String α) (key : String) :
    (diff.patch map).get? key = DiffOp.after? (diff.get? key) (map.get? key) := by
  have hkeys : (diff.toList.map (·.1)).Nodup := SortedMap.nodup_keys diff
  rw [patch_eq_foldl, get?_foldl_patchKey hkeys, SortedMap.ofList_toList]

/-- A plain map is settled after one application. -/
theorem patch_patch [BEq α] (diff : MapDiff α) (map : SortedMap String α) :
    diff.patch (diff.patch map) = diff.patch map := by
  apply SortedMap.ext_get?
  intro key
  rw [get?_patch, get?_patch, DiffOp.after?_after?]

theorem between_self [BEq α] [LawfulBEq α] (map : SortedMap String α) :
    between map.toList map.toList = .empty := by
  apply SortedMap.ext_get?
  intro key
  rw [get?_between, DiffOp.between?_self BEq.rfl, SortedMap.get?_empty]

/-- A difference takes the map it was computed from to the map it was computed for. -/
theorem patch_between [BEq α] [LawfulBEq α] (old new : SortedMap String α) :
    (between old.toList new.toList).patch old = new := by
  apply SortedMap.ext_get?
  intro key
  rw [get?_patch, get?_between, SortedMap.ofList_toList, SortedMap.ofList_toList]
  exact eq_of_beq (DiffOp.after?_between? (BEq.rfl) (BEq.rfl))

theorem patch_between_again [BEq α] [LawfulBEq α] (old new : SortedMap String α) :
    (between old.toList new.toList).patch new = new := by
  apply SortedMap.ext_get?
  intro key
  rw [get?_patch, get?_between, SortedMap.ofList_toList, SortedMap.ofList_toList]
  cases hop : DiffOp.between? (old.get? key) (new.get? key) with
  | none => rfl
  | some op =>
      rw [← (DiffOp.after?_of_between? rfl hop).2]
      exact DiffOp.after?_new? op

/-- A target that accepts the new values is changed like a plain map. -/
theorem Accepted.run_apply [BEq α] {target : PatchTarget (SortedMap String α) α}
    {diff : MapDiff α} (h : diff.Accepted target) (map : SortedMap String α) :
    (diff.apply target).run map = .ok () (diff.patch map) := by
  rw [apply_eq_forM, patch_eq_foldl]
  refine run_forM_runKey h.current h.take ?_ map
  rintro ⟨key, op⟩ member new hnew
  exact h.put key op new (SortedMap.get?_eq_some_iff.mpr member) hnew

/-! ### Merging -/

/-- Whether two differences have operations at a key that are not the same. -/
def Clash [BEq α] (ours theirs : MapDiff α) (key : String) : Prop :=
  ∃ op op', ours.get? key = some op ∧ theirs.get? key = some op' ∧ (op == op') = false

/-- One step of a merge, which `merge` runs for each operation of the other side. -/
private def mergeStep [BEq α] (part : DiffSection) (ours : MapDiff α) (merged : MapDiff α)
    (entry : String × DiffOp α) : Except MergeError (MapDiff α) :=
  match ours.get? entry.1 with
  | none => .ok (merged.insert entry.1 entry.2)
  | some existing =>
      if existing == entry.2 then .ok merged else .error (.conflict ⟨part, entry.1⟩)

private theorem merge_eq_foldlM [BEq α] (part : DiffSection) (ours theirs : MapDiff α) :
    ours.merge part theirs = theirs.toList.foldlM (mergeStep part ours) ours := rfl

private def agrees [BEq α] (ours : MapDiff α) (entry : String × DiffOp α) : Prop :=
  ∀ op, ours.get? entry.1 = some op → (op == entry.2) = true

private theorem foldlM_mergeStep [BEq α] (part : DiffSection) {ours : MapDiff α}
    {ops : List (String × DiffOp α)} (h : ∀ entry ∈ ops, agrees ours entry) :
    ∃ merged, ops.foldlM (mergeStep part ours) ours = .ok merged ∧
      ∀ key, merged.get? key = (ours.get? key).or ((SortedMap.ofList ops).get? key) := by
  induction ops using List.reverseRecOn with
  | nil => exact ⟨ours, rfl, fun key => (Option.or_none).symm⟩
  | append_singleton ops last ih =>
      obtain ⟨merged, hrun, hget⟩ := ih fun entry member => h entry (by simp [member])
      have hlast := h last (by simp)
      rw [List.foldlM_append, hrun]
      cases hours : ours.get? last.1 with
      | none =>
          refine ⟨merged.insert last.1 last.2, ?_, fun key => ?_⟩
          · simp [mergeStep, hours, bind, Except.bind, pure, Except.pure]
          · rw [SortedMap.get?_insert, SortedMap.ofList_append_singleton,
              SortedMap.get?_insert, hget]
            by_cases same : key = last.1
            · simp [same, hours]
            · simp [same]
      | some op =>
          refine ⟨merged, ?_, fun key => ?_⟩
          · simp [mergeStep, hours, hlast op hours, bind, Except.bind, pure, Except.pure]
          · rw [SortedMap.ofList_append_singleton, SortedMap.get?_insert, hget]
            by_cases same : key = last.1
            · simp [same, hours]
            · simp [same]

/-- Without a clash the merged difference has the operations of both sides. -/
theorem merge_of_no_clash [BEq α] (part : DiffSection) {ours theirs : MapDiff α}
    (h : ∀ key, ¬Clash ours theirs key) :
    ∃ merged, ours.merge part theirs = .ok merged ∧
      ∀ key, merged.get? key = (ours.get? key).or (theirs.get? key) := by
  have hagree : ∀ entry ∈ theirs.toList, agrees ours entry := by
    rintro ⟨key, op'⟩ member op hop
    by_contra hdiffer
    exact h key ⟨op, op', hop, SortedMap.get?_eq_some_iff.mpr member, by simpa using hdiffer⟩
  have hmerge := foldlM_mergeStep part hagree
  rwa [SortedMap.ofList_toList] at hmerge

private theorem exists_first_disagreement [BEq α] (ours : MapDiff α)
    (ops : List (String × DiffOp α)) :
    (∀ entry ∈ ops, agrees ours entry) ∨
      ∃ before entry rest, ops = before ++ entry :: rest ∧
        (∀ earlier ∈ before, agrees ours earlier) ∧ ¬agrees ours entry := by
  induction ops with
  | nil => exact Or.inl (by simp)
  | cons head rest ih =>
      by_cases hhead : agrees ours head
      · rcases ih with hall | ⟨before, entry, after, rfl, hbefore, hentry⟩
        · exact Or.inl (List.forall_mem_cons.mpr ⟨hhead, hall⟩)
        · exact Or.inr ⟨head :: before, entry, after, rfl,
            List.forall_mem_cons.mpr ⟨hhead, hbefore⟩, hentry⟩
      · exact Or.inr ⟨[], head, rest, rfl, by simp, hhead⟩

/-- With a clash the merge fails, and the error names the smallest key that has one. -/
theorem merge_of_clash [BEq α] (part : DiffSection) {ours theirs : MapDiff α}
    (h : ∃ key, Clash ours theirs key) :
    ∃ key, ours.merge part theirs = .error (.conflict ⟨part, key⟩) ∧ Clash ours theirs key ∧
      ∀ other, Clash ours theirs other → key ≤ other := by
  rcases exists_first_disagreement ours theirs.toList with
    hall | ⟨before, ⟨key, op'⟩, rest, hsplit, hbefore, hentry⟩
  · obtain ⟨key, op, op', hop, hop', hdiffer⟩ := h
    have hsame := hall (key, op') (SortedMap.get?_eq_some_iff.mp hop') op hop
    rw [hdiffer] at hsame
    cases hsame
  · obtain ⟨op, hop, hdiffer⟩ : ∃ op, ours.get? key = some op ∧ (op == op') = false := by
      simpa [agrees] using hentry
    refine ⟨key, ?_, ?_, ?_⟩
    · obtain ⟨merged, hrun, -⟩ := foldlM_mergeStep part hbefore
      rw [merge_eq_foldlM, hsplit, List.foldlM_append, hrun]
      simp [mergeStep, hop, hdiffer, bind, Except.bind]
    · refine ⟨op, op', hop, ?_, hdiffer⟩
      rw [SortedMap.get?_eq_some_iff, hsplit]
      simp
    · rintro other ⟨left, right, hleft, hright, hother⟩
      have member := SortedMap.get?_eq_some_iff.mp hright
      rw [hsplit] at member
      rcases List.mem_append.mp member with earlier | later
      · have hsame := hbefore _ earlier left hleft
        rw [hother] at hsame
        cases hsame
      · rcases List.mem_cons.mp later with hhead | later
        · exact le_of_eq (congrArg Prod.fst hhead).symm
        · have hlt := (SortedMap.compare_of_split hsplit).2 _ later
          exact le_of_lt (compare_lt_iff_lt.mp hlt)

/-- A merge either joins two differences without clash or names their first clash. -/
theorem merge_cases [BEq α] (part : DiffSection) (ours theirs : MapDiff α) :
    (∃ merged, ours.merge part theirs = .ok merged ∧
      (∀ key, merged.get? key = (ours.get? key).or (theirs.get? key)) ∧
      ∀ key, ¬Clash ours theirs key) ∨
    ∃ key, ours.merge part theirs = .error (.conflict ⟨part, key⟩) ∧
      Clash ours theirs key ∧ ∀ other, Clash ours theirs other → key ≤ other := by
  by_cases h : ∃ key, Clash ours theirs key
  · exact Or.inr (merge_of_clash part h)
  · have hfree : ∀ key, ¬Clash ours theirs key := not_exists.mp h
    obtain ⟨merged, hrun, hget⟩ := merge_of_no_clash part hfree
    exact Or.inl ⟨merged, hrun, hget, hfree⟩

end MapDiff

end KnowledgeBase
