import KnowledgeBase.Proofs.Diff.ThreeWay

/-!
Lists all of whose statements have identifiers. There the identifiers are the keys, a look-up
by identifier is a look-up by key, and a joined difference leads to a list of the same kind.
-/

namespace KnowledgeBase

theorem DiffOp.eq_some_of_after? {α : Type} [BEq α] {op? : Option (DiffOp α)}
    {current : Option α} {value : α} (h : after? op? current = some value) :
    current = some value ∨ ∃ op, op? = some op ∧ op.new? = some value := by
  cases op? with
  | none => exact Or.inl h
  | some op =>
      cases op with
      | add new =>
          cases current with
          | none => exact Or.inr ⟨_, rfl, h⟩
          | some current =>
              simp only [after?, Option.some.injEq] at h
              split at h
              · exact Or.inl (congrArg some h)
              · exact Or.inr ⟨_, rfl, congrArg some h⟩
      | remove old => cases h
      | change old new => exact Or.inr ⟨_, rfl, h⟩

namespace StatementList

/-- A well-kept list in which every statement has an identifier. -/
structure Identified (list : StatementList) : Prop extends list.WellKeyed where
  present : ∀ statement ∈ list, statement.guid?.isSome

namespace Identified

variable {list : StatementList} (h : list.Identified)
include h

theorem guid_of_get?_byKey {guid : String} {statement : Statement}
    (hfound : (byKey list).get? guid = some statement) : statement.guid? = some guid := by
  have hkeyed := (get?_byKey h.nodup_keys).mp hfound
  have hmember := mem_of_get?_byKey hfound
  obtain ⟨found, hguid⟩ := Option.isSome_iff_exists.mp (h.present statement hmember)
  rw [hguid, h.key_eq_guid hkeyed hguid]

theorem get?_byKey_iff {guid : String} {statement : Statement} :
    (byKey list).get? guid = some statement ↔
      statement ∈ list ∧ statement.guid? = some guid := by
  constructor
  · intro hfound
    exact ⟨mem_of_get?_byKey hfound, h.guid_of_get?_byKey hfound⟩
  · rintro ⟨hmember, hguid⟩
    rw [← keyed_map_snd list, List.mem_map] at hmember
    obtain ⟨⟨key, _⟩, hkeyed, rfl⟩ := hmember
    rw [← h.key_eq_guid hkeyed hguid]
    exact (get?_byKey h.nodup_keys).mpr hkeyed

/-- A look-up by identifier finds the statement that has it as its key. -/
theorem get?_eq (guid : String) : list.get? guid = (byKey list).get? guid := by
  cases hfound : list.get? guid with
  | none =>
      rw [get?, List.find?_eq_none] at hfound
      rw [eq_comm, Option.eq_none_iff_forall_ne_some]
      intro statement hkey
      obtain ⟨hmember, hguid⟩ := h.get?_byKey_iff.mp hkey
      exact hfound statement hmember (by simp [hguid])
  | some statement =>
      rw [eq_comm, h.get?_byKey_iff]
      constructor
      · exact List.mem_of_find?_eq_some hfound
      · simpa using List.find?_some hfound

end Identified

section Joined

variable {base current submitted : StatementList} {merged : MapDiff Statement}
  (hmerged : ∀ key, merged.get? key =
    ((diff base submitted).get? key).or ((diff base current).get? key))
  (hbase : base.Identified) (hcurrent : current.Identified) (hsubmitted : submitted.Identified)
include hmerged hbase hcurrent hsubmitted

/-- Each statement of the outcome comes from one of the three lists, with its key. -/
theorem source_of_mem_patched {key : String} {statement : Statement}
    (hmember : (key, statement) ∈ patched merged base) :
    ∃ source : StatementList, (source = base ∨ source = current ∨ source = submitted) ∧
      source.Identified ∧ (byKey source).get? key = some statement := by
  have hvalue := (mem_patched hbase.nodup_keys).mp hmember
  rcases DiffOp.eq_some_of_after? hvalue with hkept | ⟨op, hop, hnew⟩
  · exact ⟨base, Or.inl rfl, hbase, hkept⟩
  · rw [hmerged, get?_diff, get?_diff] at hop
    rcases Option.or_eq_some_iff.mp hop with hop | ⟨-, hop⟩
    · rw [(DiffOp.after?_of_between? rfl hop).2] at hnew
      exact ⟨submitted, Or.inr (Or.inr rfl), hsubmitted, hnew⟩
    · rw [(DiffOp.after?_of_between? rfl hop).2] at hnew
      exact ⟨current, Or.inr (Or.inl rfl), hcurrent, hnew⟩

theorem mem_of_mem_applyDiff {statement : Statement}
    (hmember : statement ∈ base.applyDiff merged) :
    statement ∈ base ∨ statement ∈ current ∨ statement ∈ submitted := by
  rw [applyDiff_eq hbase.nodup_keys, List.mem_map] at hmember
  obtain ⟨⟨key, _⟩, hpatched, rfl⟩ := hmember
  obtain ⟨source, hsource, hidentified, hfound⟩ :=
    source_of_mem_patched hmerged hbase hcurrent hsubmitted hpatched
  have hstatement := mem_of_get?_byKey hfound
  rcases hsource with rfl | rfl | rfl
  · exact Or.inl hstatement
  · exact Or.inr (Or.inl hstatement)
  · exact Or.inr (Or.inr hstatement)

private theorem guid_of_mem_patched {key : String} {statement : Statement}
    (hmember : (key, statement) ∈ patched merged base) :
    statement.guid? = some key ∧ ¬looksHashed key := by
  obtain ⟨source, -, hidentified, hfound⟩ :=
    source_of_mem_patched hmerged hbase hcurrent hsubmitted hmember
  obtain ⟨hstatement, hguid⟩ := hidentified.get?_byKey_iff.mp hfound
  exact ⟨hguid, hidentified.plain key (List.mem_filterMap.mpr ⟨statement, hstatement, hguid⟩)⟩

theorem guids_applyDiff : (base.applyDiff merged).guids = (patched merged base).map (·.1) := by
  rw [applyDiff_eq hbase.nodup_keys, guids, List.filterMap_map, ← List.filterMap_eq_map]
  apply List.filterMap_congr
  intro entry hmember
  exact (guid_of_mem_patched hmerged hbase hcurrent hsubmitted hmember).1

theorem identified_applyDiff : (base.applyDiff merged).Identified := by
  have hguids := guids_applyDiff hmerged hbase hcurrent hsubmitted
  refine ⟨⟨?_, ?_⟩, ?_⟩
  · rw [hguids]
    exact nodup_patched hbase.nodup_keys merged
  · intro guid hmember
    rw [hguids, List.mem_map] at hmember
    obtain ⟨entry, hentry, rfl⟩ := hmember
    exact (guid_of_mem_patched hmerged hbase hcurrent hsubmitted hentry).2
  · intro statement hmember
    rcases mem_of_mem_applyDiff hmerged hbase hcurrent hsubmitted hmember with
      hstatement | hstatement | hstatement
    · exact hbase.present statement hstatement
    · exact hcurrent.present statement hstatement
    · exact hsubmitted.present statement hstatement

/-- A look-up in the outcome finds what the operation makes of the base. -/
theorem get?_applyDiff (guid : String) : (base.applyDiff merged).get? guid =
    DiffOp.after? (merged.get? guid) ((byKey base).get? guid) := by
  have houtcome := identified_applyDiff hmerged hbase hcurrent hsubmitted
  ext statement
  rw [houtcome.get?_eq, houtcome.get?_byKey_iff, ← mem_patched hbase.nodup_keys,
    applyDiff_eq hbase.nodup_keys, List.mem_map]
  constructor
  · rintro ⟨⟨⟨key, _⟩, hentry, rfl⟩, hguid⟩
    have hkey := (guid_of_mem_patched hmerged hbase hcurrent hsubmitted hentry).1
    rw [hkey, Option.some.injEq] at hguid
    rwa [← hguid]
  · intro hentry
    exact ⟨⟨_, hentry, rfl⟩, (guid_of_mem_patched hmerged hbase hcurrent hsubmitted hentry).1⟩

end Joined

end StatementList

end KnowledgeBase
