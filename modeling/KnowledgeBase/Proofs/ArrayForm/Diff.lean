import KnowledgeBase.ArrayForm.Diff
import KnowledgeBase.Proofs.ArrayForm.Entity
import KnowledgeBase.Proofs.Diff.Merge

/-!
The array form of differences. An operation is read back if its values are, a section if its
operations are, and a section that is left out was empty. So nothing of a difference is lost,
old values and the order inside statements included, and what was written can still be undone.
The one difference that cannot be read is that of a property with operations on site links.
-/

namespace KnowledgeBase

open ArrayForm

/-! ## Operations -/

namespace DiffOp

variable {α : Type}

/-- Whether the values of an operation, the old one and the new one, keep a rule. -/
structure All (rule : α → Prop) (op : DiffOp α) : Prop where
  old : ∀ value ∈ op.old?, rule value
  new : ∀ value ∈ op.new?, rule value

theorem All.imp {rule rule' : α → Prop} {op : DiffOp α} (h : op.All rule)
    (himp : ∀ value, rule value → rule' value) : op.All rule' :=
  ⟨fun value hvalue => himp value (h.old value hvalue),
    fun value hvalue => himp value (h.new value hvalue)⟩

theorem All.reverse {rule : α → Prop} {op : DiffOp α} (h : op.All rule) :
    op.reverse.All rule := by
  cases op <;> exact ⟨h.new, h.old⟩

theorem all_of_between? [BEq α] {rule : α → Prop} {old new : Option α} {op : DiffOp α}
    (hold : ∀ value ∈ old, rule value) (hnew : ∀ value ∈ new, rule value)
    (h : between? old new = some op) : op.All rule := by
  cases old with
  | none =>
      cases new with
      | none => cases h
      | some new =>
          cases h
          exact ⟨nofun, hnew⟩
  | some old =>
      cases new with
      | none =>
          cases h
          exact ⟨hold, nofun⟩
      | some new =>
          simp only [between?] at h
          split at h
          · cases h
          · cases h
            exact ⟨hold, hnew⟩

variable [ArrayForm α]

theorem lookup_written (op : DiffOp α) (name : String) :
    op.members.written.lookup name = op.members.lookup name := by
  have hkeys : (op.members.map (·.1)).Nodup := by cases op <;> simp [members, old?, new?]
  exact Members.lookup_written hkeys name

theorem lossless {op : DiffOp α} (h : op.All Lossless) : Lossless op := by
  have hname := Members.text_of_lookup (op.lookup_written "op")
  have hfield (key : String) {value : α} (hvalue : Lossless value)
      (hlookup : op.members.lookup key = some (toArray value)) :
      (op.members.written.field key >>= ofArray) = .ok value := by
    rw [Members.field_of_lookup ((op.lookup_written key).trans hlookup), ok_bind]
    exact hvalue
  change DiffOp.ofMembers op.members.written = _
  rw [DiffOp.ofMembers, hname, ok_bind]
  cases op with
  | add new =>
      have hnew := hfield "new" (h.new new rfl) rfl
      simp only [name, if_true, hnew]
      rfl
  | remove old =>
      have hold := hfield "old" (h.old old rfl) rfl
      simp only [name, String.reduceEq, if_false, if_true, hold]
      rfl
  | change old new =>
      have hold := hfield "old" (h.old old rfl) rfl
      have hnew := hfield "new" (h.new new rfl) rfl
      simp only [name, String.reduceEq, if_false, if_true, hold, hnew]
      rfl

/-- What holds of all values that are read holds of the values of an operation that is read. -/
theorem all_ofMembers {rule : α → Prop}
    (hread : ∀ array value, array.Finite → ofArray array = .ok value → rule value)
    {members : Members} (hfinite : members.Finite) {op : DiffOp α}
    (h : DiffOp.ofMembers members = .ok op) : op.All rule := by
  have hvalue {name : String} {value : α}
      (h : (members.field name >>= ofArray : Except ArrayError α) = .ok value) : rule value := by
    obtain ⟨array, harray, h⟩ := bind_eq_ok.mp h
    exact hread array value (hfinite.of_field harray) h
  unfold DiffOp.ofMembers at h
  obtain ⟨name, -, h⟩ := bind_eq_ok.mp h
  simp only [] at h
  split at h
  next =>
    obtain ⟨new, hnew, h⟩ := bind_eq_ok.mp h
    cases h
    exact ⟨nofun, fun value member => Option.some.inj member ▸ hvalue hnew⟩
  next =>
    split at h
    next =>
      obtain ⟨old, hold, h⟩ := bind_eq_ok.mp h
      cases h
      exact ⟨fun value member => Option.some.inj member ▸ hvalue hold, nofun⟩
    next =>
      split at h
      next =>
        obtain ⟨old, hold, h⟩ := bind_eq_ok.mp h
        obtain ⟨new, hnew, h⟩ := bind_eq_ok.mp h
        cases h
        exact ⟨fun value member => Option.some.inj member ▸ hvalue hold,
          fun value member => Option.some.inj member ▸ hvalue hnew⟩
      next => cases h

end DiffOp

/-! ## Sections -/

namespace MapDiff

variable {α : Type}

/-- Whether all values in the operations of a difference keep a rule. -/
def All (rule : α → Prop) (diff : MapDiff α) : Prop := SortedMap.All (fun _ op => op.All rule) diff

theorem All.empty {rule : α → Prop} : All rule .empty := SortedMap.All.empty

theorem All.imp {rule rule' : α → Prop} {diff : MapDiff α} (h : All rule diff)
    (himp : ∀ value, rule value → rule' value) : All rule' diff :=
  fun key op hop => (h key op hop).imp himp

theorem All.reverse {rule : α → Prop} {diff : MapDiff α} (h : diff.All rule) :
    diff.reverse.All rule := by
  intro key op hop
  obtain ⟨entry, member, hentry⟩ := List.mem_map.mp (SortedMap.get?_eq_some_iff.mp hop)
  cases hentry
  exact (h entry.1 entry.2 (SortedMap.get?_eq_some_iff.mpr member)).reverse

/-- The values of a computed difference are values of the two collections. -/
theorem all_between [BEq α] {rule : α → Prop} {old new : List (String × α)}
    (hold : ∀ entry ∈ old, rule entry.2) (hnew : ∀ entry ∈ new, rule entry.2) :
    (between old new).All rule := by
  intro key op hop
  rw [get?_between] at hop
  refine DiffOp.all_of_between? ?_ ?_ hop
  · intro value hvalue
    exact hold (key, value) (SortedMap.mem_of_get?_ofList hvalue)
  · intro value hvalue
    exact hnew (key, value) (SortedMap.mem_of_get?_ofList hvalue)

/-- A difference with operations of two others keeps a rule that both of them keep. -/
theorem All.of_or {rule : α → Prop} {ours theirs merged : MapDiff α}
    (hjoined : ∀ key, merged.get? key = (ours.get? key).or (theirs.get? key))
    (hours : ours.All rule) (htheirs : theirs.All rule) : merged.All rule := by
  intro key op hop
  rw [hjoined] at hop
  rcases Option.or_eq_some_iff.mp hop with hfirst | ⟨-, hsecond⟩
  · exact hours key op hfirst
  · exact htheirs key op hsecond

variable [ArrayForm α]

/-- The reading of one entry of a section. -/
def entryOfArray (entry : String × Json) : Except ArrayError (String × DiffOp α) := do
  return (entry.1, ← ofArray entry.2)

theorem lossless {diff : MapDiff α} (h : diff.All Lossless) : Lossless diff := by
  have hentries : (diff.toList.map fun entry => (entry.1, toArray entry.2)).mapM entryOfArray =
      .ok diff.toList := by
    refine mapM_eq_ok fun entry member => ?_
    have hop : ofArray (toArray entry.2) = .ok entry.2 :=
      DiffOp.lossless (h entry.1 entry.2 (SortedMap.get?_eq_some_iff.mpr member))
    change (ofArray (toArray entry.2) >>= fun op => .ok (entry.1, op)) = .ok entry
    rw [hop, ok_bind]
  change ((diff.toList.map fun entry => (entry.1, toArray entry.2)).mapM entryOfArray >>=
    fun ops => .ok (SortedMap.ofList ops)) = .ok diff
  rw [hentries, ok_bind, SortedMap.ofList_toList]

theorem all_ofArray {rule : α → Prop}
    (hread : ∀ array value, array.Finite → ofArray array = .ok value → rule value)
    {array : Json} {diff : MapDiff α} (hfinite : array.Finite) (h : ofArray array = .ok diff) :
    diff.All rule := by
  obtain ⟨members, hmembers, h⟩ := bind_eq_ok.mp h
  obtain ⟨ops, hops, h⟩ := bind_eq_ok.mp h
  cases h
  have hmembers := hfinite.of_expectObject hmembers
  have hall : ∀ entry ∈ ops, entry.2.All rule := by
    refine mapM_keeps ?_ hops
    rintro ⟨key, array⟩ member entry hentry
    obtain ⟨op, hop, hentry⟩ := bind_eq_ok.mp hentry
    cases hentry
    obtain ⟨fields, hfields, hop⟩ := bind_eq_ok.mp hop
    exact DiffOp.all_ofMembers hread ((hmembers _ member).of_expectObject hfields) hop
  intro key op hop
  exact hall (key, op) (SortedMap.mem_of_get?_ofList hop)

end MapDiff

theorem lossless_text (text : String) : Lossless text := rfl

theorem lossless_texts (texts : List String) : Lossless texts := aliasesOfArray_texts texts

/-! ## Differences of entities -/

namespace EntityDiff

section Sections

variable {α : Type} [ArrayForm α]

theorem lookup_sectionMembers (part : DiffSection) (ops : MapDiff α) (name : String) :
    (sectionMembers part ops).lookup name =
      if name = part.name ∧ ops.isEmpty = false then some (toArray ops) else none := by
  unfold sectionMembers
  by_cases hname : name = part.name
  · cases ops.isEmpty <;> simp [hname]
  · have hother : (name == part.name) = false := beq_false_of_ne hname
    cases ops.isEmpty <;> simp [hname, hother, List.lookup_cons]

theorem keys_sectionMembers (part : DiffSection) (ops : MapDiff α) :
    ((sectionMembers part ops).map (·.1)).Sublist [part.name] := by
  unfold sectionMembers
  split
  · exact List.nil_sublist _
  · exact List.Sublist.refl _

/-- A section is read back from its form, or from its absence if it is empty. -/
theorem sectionOfMembers_of_lookup {members : Members} {part : DiffSection} {ops : MapDiff α}
    (h : members.lookup part.name = (if ops.isEmpty = false then some (toArray ops) else none))
    (hops : ops.All Lossless) : sectionOfMembers members part = .ok ops := by
  cases hempty : ops.isEmpty with
  | true =>
      have hgiven : members.given? part.name = none := by
        rw [Members.given?, h, hempty]
        rfl
      rw [sectionOfMembers, Members.optionalD, Members.optional, hgiven,
        SortedMap.isEmpty_iff.mp hempty]
      rfl
  | false =>
      rw [hempty, if_pos rfl] at h
      exact (Members.optionalD_of_lookup h rfl).trans (MapDiff.lossless hops)

end Sections

theorem lookup_written (diff : EntityDiff) (name : String) :
    diff.members.written.lookup name = diff.members.lookup name := by
  have hsections : (diff.members.map (·.1)).Sublist
      (["type"] ++ ["labels"] ++ ["descriptions"] ++ ["aliases"] ++ ["claims"] ++ ["links"]) := by
    simp only [members, List.map_append, List.map_cons]
    refine ((((List.Sublist.append ?_ ?_).append ?_).append ?_).append ?_)
    · exact (keys_sectionMembers .labels diff.labels).cons_cons _
    · exact keys_sectionMembers .descriptions diff.descriptions
    · exact keys_sectionMembers .aliases diff.aliases
    · exact keys_sectionMembers .claims diff.claims
    · exact keys_sectionMembers .siteLinks diff.siteLinks
  exact Members.lookup_written (hsections.nodup (by decide)) name

/-- Whether all values in a difference are read back. Terms always are. -/
structure ValuesLossless (diff : EntityDiff) : Prop where
  claims : diff.claims.All Lossless
  siteLinks : diff.siteLinks.All Lossless

theorem typeOfTag?_name (type : EntityType) : typeOfTag? ("diff/" ++ type.name) = some type := by
  cases type <;> rfl

/-- Only differences of items may have links. -/
def LinksFit (diff : EntityDiff) : Prop := diff.type = .item ∨ diff.siteLinks.isEmpty = true

instance (diff : EntityDiff) : Decidable diff.LinksFit := inferInstanceAs (Decidable (_ ∨ _))

/-- A difference whose values are read back is read back itself if its links fit. -/
theorem ValuesLossless.ofArray_toArray {diff : EntityDiff} (h : diff.ValuesLossless) :
    (ofArray (toArray diff) : Except ArrayError EntityDiff) =
      if diff.LinksFit then .ok diff else .error (.invalidField "links" .linksOutsideItem) := by
  have hsection {α : Type} [ArrayForm α] {part : DiffSection} {ops : MapDiff α}
      (hops : ops.All Lossless) (hlookup : diff.members.lookup part.name =
        (if ops.isEmpty = false then some (toArray ops) else none)) :
      sectionOfMembers diff.members.written part = .ok ops :=
    sectionOfMembers_of_lookup ((diff.lookup_written part.name).trans hlookup) hops
  have htexts {ops : MapDiff String} : ops.All Lossless :=
    fun _ _ _ => ⟨fun text _ => lossless_text text, fun text _ => lossless_text text⟩
  have haliasLists {ops : MapDiff (List String)} : ops.All Lossless :=
    fun _ _ _ => ⟨fun texts _ => lossless_texts texts, fun texts _ => lossless_texts texts⟩
  have hlabels : sectionOfMembers diff.members.written .labels = .ok diff.labels :=
    hsection htexts (by simp [members, List.lookup_cons, List.lookup_append,
      lookup_sectionMembers, DiffSection.name])
  have hdescriptions : sectionOfMembers diff.members.written .descriptions =
      .ok diff.descriptions :=
    hsection htexts (by simp [members, List.lookup_cons, List.lookup_append,
      lookup_sectionMembers, DiffSection.name])
  have haliases : sectionOfMembers diff.members.written .aliases = .ok diff.aliases :=
    hsection haliasLists (by simp [members, List.lookup_cons, List.lookup_append,
      lookup_sectionMembers, DiffSection.name])
  have hclaims : sectionOfMembers diff.members.written .claims = .ok diff.claims :=
    hsection h.claims (by simp [members, List.lookup_cons, List.lookup_append,
      lookup_sectionMembers, DiffSection.name])
  have hlinks : sectionOfMembers diff.members.written .siteLinks = .ok diff.siteLinks :=
    hsection h.siteLinks (by simp [members, List.lookup_cons, List.lookup_append,
      lookup_sectionMembers, DiffSection.name])
  have htag := Members.text_of_lookup (diff.lookup_written "type")
  change EntityDiff.ofMembers diff.members.written = _
  rw [EntityDiff.ofMembers, htag, ok_bind]
  simp only [typeOfTag?_name]
  rw [hlabels, ok_bind, hdescriptions, ok_bind, haliases, ok_bind, hclaims, ok_bind, hlinks,
    ok_bind]
  by_cases hfit : diff.LinksFit
  · rw [if_pos hfit, if_neg (by simpa [LinksFit, or_iff_not_imp_left] using hfit)]
    rfl
  · rw [if_neg hfit, if_pos (by simpa [LinksFit, not_or] using hfit)]
    rfl

/-- What is read from a form without infinite numbers can be read back. -/
theorem lossless_ofArray {array : Json} {diff : EntityDiff} (hfinite : array.Finite)
    (h : ofArray array = .ok diff) : Lossless diff := by
  obtain ⟨members, hmembers, h⟩ := bind_eq_ok.mp h
  have hmembers := hfinite.of_expectObject hmembers
  unfold EntityDiff.ofMembers at h
  obtain ⟨tag, -, h⟩ := bind_eq_ok.mp h
  split at h
  next type _ =>
    obtain ⟨labels, -, h⟩ := bind_eq_ok.mp h
    obtain ⟨descriptions, -, h⟩ := bind_eq_ok.mp h
    obtain ⟨aliases, -, h⟩ := bind_eq_ok.mp h
    obtain ⟨claims, hclaims, h⟩ := bind_eq_ok.mp h
    obtain ⟨siteLinks, hlinks, h⟩ := bind_eq_ok.mp h
    simp only [] at h
    split at h
    next => cases h
    next hfit =>
      cases h
      have hvalues : ValuesLossless ⟨type, labels, descriptions, aliases, claims, siteLinks⟩ := by
        constructor
        · exact hmembers.of_optionalD MapDiff.All.empty
            (fun _ _ => MapDiff.all_ofArray fun _ _ => Statement.lossless_ofArray) hclaims
        · refine hmembers.of_optionalD MapDiff.All.empty
            (fun _ _ => MapDiff.all_ofArray fun _ _ _ hlink => ?_) hlinks
          exact SiteLink.lossless (SiteLink.constructed_ofArray hlink)
      rw [Lossless, hvalues.ofArray_toArray, if_pos]
      simpa [LinksFit, or_iff_not_imp_left] using hfit
  next => cases h

end EntityDiff

end KnowledgeBase
