import KnowledgeBase.Proofs.ArrayForm.Construction
import KnowledgeBase.Proofs.Reference.Order
import KnowledgeBase.Reference.Memo

/-!
References that keep their hash against references that do not. No hash outlives a change of
the snaks, so what is told is always the hash of the snaks as they are. A list of references
whose hashes can be trusted is searched and changed as a list of their contents is, and so its
hashes stay different whatever is done at a desk.
-/

namespace KnowledgeBase

namespace MemoReference

/-- Whether the hash that is told is that of the snaks. -/
def Coherent (reference : MemoReference) : Prop := reference.hash = reference.snaks.hash

variable {reference : MemoReference}

theorem coherent_ofSnaks (snaks : SnakList) : (ofSnaks snaks).Coherent := rfl

theorem Coherent.keepHash (h : reference.Coherent) : reference.keepHash.Coherent := h

theorem Coherent.add (h : reference.Coherent) (snak : Snak) : (reference.add snak).Coherent := by
  unfold MemoReference.add
  split
  next => exact h
  next => exact coherent_ofSnaks _

theorem Coherent.remove (h : reference.Coherent) (snak : Snak) :
    (reference.remove snak).Coherent := by
  unfold MemoReference.remove
  split
  next => exact coherent_ofSnaks _
  next => exact h

theorem Coherent.hash_content (h : reference.Coherent) :
    reference.content.hash = reference.hash := h.symm

theorem content_add (reference : MemoReference) (snak : Snak) :
    (reference.add snak).content = reference.content.add snak := by
  unfold MemoReference.add
  split
  next hpresent =>
    rw [Reference.add, SnakList.add]
    exact congrArg Reference.mk (if_pos hpresent).symm
  next => rfl

theorem content_remove (reference : MemoReference) (snak : Snak) :
    (reference.remove snak).content = reference.content.remove snak := by
  unfold MemoReference.remove
  split
  next => rfl
  next habsent =>
    have hnone : reference.snaks.snaks.findIdx? (· == snak) = none := by
      rw [List.findIdx?_eq_none_iff]
      exact SnakList.contains_eq_false_iff.mp (Bool.eq_false_of_not_eq_true habsent)
    simp only [content, Reference.remove, SnakList.remove, hnone]

end MemoReference

namespace MemoReferenceList

/-! ## Looking for a hash -/

theorem seek_place (hash : String) (references : List MemoReference) :
    (seek hash references).2 = references.findIdx? (·.hash == hash) := by
  induction references with
  | nil => rfl
  | cons first others ih =>
      rw [seek, List.findIdx?_cons, ← ih]
      split <;> rfl

theorem seek_contents (hash : String) (references : List MemoReference) :
    (seek hash references).1.map MemoReference.content =
      references.map MemoReference.content := by
  induction references with
  | nil => rfl
  | cons first others ih =>
      rw [seek]
      split
      next => rfl
      next =>
        rw [List.map_cons, List.map_cons, ih]
        rfl

theorem coherent_seek (hash : String) {references : List MemoReference}
    (h : ∀ reference ∈ references, reference.Coherent) :
    ∀ reference ∈ (seek hash references).1, reference.Coherent := by
  induction references with
  | nil => exact h
  | cons first others ih =>
      obtain ⟨hfirst, hothers⟩ := List.forall_mem_cons.mp h
      rw [seek]
      split
      next => exact List.forall_mem_cons.mpr ⟨hfirst.keepHash, hothers⟩
      next => exact List.forall_mem_cons.mpr ⟨hfirst.keepHash, ih hothers⟩

def Coherent (list : MemoReferenceList) : Prop :=
  ∀ reference ∈ list.references, reference.Coherent

section Contents

variable {list : MemoReferenceList} {reference : MemoReference}

theorem Coherent.hashes_content (h : list.Coherent) : list.content.hashes = list.hashes := by
  rw [ReferenceList.hashes, content, List.map_map, hashes, List.map_congr_left]
  exact fun reference hreference => (h reference hreference).hash_content

/-- The place is that among the contents. -/
theorem Coherent.indexOf?_content (h : list.Coherent) (hash : String) :
    list.content.indexOf? hash = (seek hash list.references).2 := by
  have htold : (seek hash list.references).2 = list.hashes.findIdx? (· == hash) := by
    rw [seek_place, hashes, List.findIdx?_map]
    rfl
  rw [htold, ← h.hashes_content, ReferenceList.hashes, List.findIdx?_map]
  rfl

/-- A search leaves the contents as they are and finds what is to be found among them. -/
theorem Coherent.exists_seek (h : list.Coherent) (hash : String) :
    ∃ found : MemoReferenceList, found.Coherent ∧ found.content = list.content ∧
      seek hash list.references = (found.references, list.content.indexOf? hash) := by
  rw [h.indexOf?_content]
  exact ⟨⟨(seek hash list.references).1⟩, coherent_seek hash h,
    congrArg ReferenceList.mk (seek_contents hash list.references), rfl⟩

theorem Coherent.lookUp (h : list.Coherent) (hash : String) :
    (list.lookUp hash).1.Coherent ∧ (list.lookUp hash).1.content = list.content ∧
      (list.lookUp hash).2 = list.content.indexOf? hash := by
  obtain ⟨found, hfound, hcontent, hseek⟩ := h.exists_seek hash
  rw [MemoReferenceList.lookUp, hseek]
  exact ⟨hfound, hcontent, rfl⟩

/-! ## Changes -/

theorem Coherent.add (h : list.Coherent) (hreference : reference.Coherent) :
    (list.add reference).1.Coherent := by
  obtain ⟨found, hfound, -, hseek⟩ := h.exists_seek reference.hash
  rw [MemoReferenceList.add, hseek]
  cases list.content.indexOf? reference.hash with
  | some place => exact hfound
  | none =>
      have hlast : ∀ member ∈ [reference.keepHash], member.Coherent :=
        List.forall_mem_singleton.mpr hreference.keepHash
      exact List.forall_mem_append.mpr ⟨hfound, hlast⟩

theorem Coherent.content_add (h : list.Coherent) (hreference : reference.Coherent) :
    (list.add reference).1.content = list.content.add reference.content ∧
      (list.add reference).2 = !list.content.contains reference.content.hash := by
  obtain ⟨found, -, hcontent, hseek⟩ := h.exists_seek reference.hash
  rw [MemoReferenceList.add, hseek, ReferenceList.add, ReferenceList.contains,
    hreference.hash_content]
  cases list.content.indexOf? reference.hash with
  | some place => exact ⟨hcontent, rfl⟩
  | none =>
      refine ⟨?_, rfl⟩
      rw [← hcontent, content, List.map_append]
      rfl

theorem Coherent.remove (h : list.Coherent) (hash : String) :
    (list.remove hash).1.Coherent ∧ ∀ removed ∈ (list.remove hash).2, removed.Coherent := by
  obtain ⟨found, hfound, -, hseek⟩ := h.exists_seek hash
  rw [MemoReferenceList.remove, hseek]
  cases list.content.indexOf? hash with
  | some place =>
      exact ⟨fun member hmember => hfound member (List.mem_of_mem_eraseIdx hmember),
        fun removed hremoved => hfound removed (List.mem_of_getElem? hremoved)⟩
  | none => exact ⟨hfound, nofun⟩

theorem Coherent.content_remove (h : list.Coherent) (hash : String) :
    (list.remove hash).1.content = list.content.remove hash ∧
      (list.remove hash).2.map MemoReference.content = list.content.get? hash := by
  obtain ⟨found, -, hcontent, hseek⟩ := h.exists_seek hash
  have hget : list.content.get? hash =
      (list.content.indexOf? hash).bind (list.content.references[·]?) :=
    List.find?_eq_bind_findIdx?_getElem?
  rw [MemoReferenceList.remove, hseek, ReferenceList.remove, hget]
  cases list.content.indexOf? hash with
  | some place =>
      rw [← hcontent]
      exact ⟨congrArg ReferenceList.mk (List.eraseIdx_map _ _ _).symm, List.getElem?_map.symm⟩
  | none => exact ⟨hcontent, rfl⟩

/-- To put a reference at a place is to take the one with its hash out first. -/
theorem insertAt_eq (list : MemoReferenceList) (reference : MemoReference) (index : Nat) :
    list.insertAt reference index =
      ⟨(list.remove reference.hash).1.references.insertIdx
        (min index (list.remove reference.hash).1.references.length) reference.keepHash⟩ := by
  unfold MemoReferenceList.insertAt MemoReferenceList.remove
  split <;> rfl

theorem Coherent.insertAt (h : list.Coherent) (hreference : reference.Coherent) (index : Nat) :
    (list.insertAt reference index).Coherent := by
  rw [insertAt_eq]
  intro member hmember
  rcases List.eq_or_mem_of_mem_insertIdx hmember with rfl | hold
  · exact hreference.keepHash
  · exact (h.remove reference.hash).1 member hold

theorem Coherent.content_insertAt (h : list.Coherent) (hreference : reference.Coherent)
    (index : Nat) :
    (list.insertAt reference index).content =
      list.content.insertAt reference.content index := by
  have hremove := (h.content_remove reference.hash).1
  rw [insertAt_eq, ReferenceList.insertAt, hreference.hash_content, ← hremove, content]
  refine congrArg ReferenceList.mk ?_
  rw [List.map_insertIdx, content, List.length_map]
  rfl

/-! ## Reading -/

theorem ofList_append_singleton (references : List MemoReference) (reference : MemoReference) :
    ofList (references ++ [reference]) = ((ofList references).add reference).1 := by
  rw [ofList, List.foldl_append]
  rfl

theorem coherent_ofList {references : List MemoReference}
    (h : ∀ reference ∈ references, reference.Coherent) :
    (ofList references).Coherent ∧
      (ofList references).content = .ofList (references.map MemoReference.content) := by
  induction references using List.reverseRecOn with
  | nil => exact ⟨List.forall_mem_nil _, rfl⟩
  | append_singleton references last ih =>
      obtain ⟨hreferences, hlast⟩ := List.forall_mem_append.mp h
      obtain ⟨hcoherent, hcontent⟩ := ih hreferences
      have hlast := hlast last (List.mem_singleton_self last)
      rw [ofList_append_singleton, List.map_append, List.map_singleton,
        ReferenceList.ofList_append_singleton, ← hcontent]
      exact ⟨hcoherent.add hlast, (hcoherent.content_add hlast).1⟩

theorem coherent_fresh (references : List Reference) :
    ∀ reference ∈ references.map fun reference => MemoReference.ofSnaks reference.snaks,
      reference.Coherent :=
  List.forall_mem_map.mpr fun reference _ => MemoReference.coherent_ofSnaks reference.snaks

/-- An array is read as it is where no hashes are kept. -/
theorem content_ofArray (array : Json) :
    MemoReferenceList.content <$> ofArray array = ArrayForm.ofArray array := by
  rw [ofArray, map_bind]
  refine bind_congr fun parts => ?_
  rw [map_bind]
  refine bind_congr fun references => ?_
  rw [map_pure, (coherent_ofList (coherent_fresh references)).2, List.map_map]
  exact congrArg (pure ∘ ReferenceList.ofList) (List.map_id references)

theorem coherent_ofArray {array : Json} (h : ofArray array = .ok list) : list.Coherent := by
  obtain ⟨parts, -, h⟩ := bind_eq_ok.mp h
  obtain ⟨references, -, h⟩ := bind_eq_ok.mp h
  cases h
  exact (coherent_ofList (coherent_fresh references)).1

end Contents

end MemoReferenceList

/-! ## Work at a desk -/

namespace ReferenceDesk

/-- Whether all hashes can be trusted and those of the list are different. -/
structure Sound (desk : ReferenceDesk) : Prop where
  loose : ∀ reference ∈ desk.loose, reference.Coherent
  list : desk.list.Coherent
  distinct : desk.list.content.hashes.Nodup

variable {desk : ReferenceDesk}

theorem forall_mem_modify {α : Type} {condition : α → Prop} {change : α → α}
    (hchange : ∀ member, condition member → condition (change member)) {members : List α}
    (h : ∀ member ∈ members, condition member) (place : Nat) :
    ∀ member ∈ members.modify place change, condition member := by
  induction members generalizing place with
  | nil => simp
  | cons first members ih =>
      obtain ⟨hfirst, hmembers⟩ := List.forall_mem_cons.mp h
      cases place with
      | zero => exact List.forall_mem_cons.mpr ⟨hchange first hfirst, hmembers⟩
      | succ place => exact List.forall_mem_cons.mpr ⟨hfirst, ih hmembers place⟩

theorem map_modify {α β : Type} (view : α → β) (change : α → α)
    (hview : ∀ member, view (change member) = view member) (members : List α) (place : Nat) :
    (members.modify place change).map view = members.map view := by
  induction members generalizing place with
  | nil => simp
  | cons first members ih =>
      cases place with
      | zero => exact congrArg (· :: members.map view) (hview first)
      | succ place => exact congrArg (view first :: ·) (ih place)

theorem forall_mem_append_toList {α : Type} {condition : α → Prop} {members : List α}
    {member? : Option α} (h : ∀ member ∈ members, condition member)
    (hmember : ∀ member ∈ member?, condition member) :
    ∀ member ∈ members ++ member?.toList, condition member := by
  rw [List.forall_mem_append]
  exact ⟨h, fun member hfound => hmember member (Option.mem_toList.mp hfound)⟩

/-- The list changes as its contents do, and there the hashes stay different. -/
theorem Sound.step (h : desk.Sound) (action : ReferenceAction) : (desk.step action).Sound := by
  obtain ⟨hloose, hlist, hdistinct⟩ := h
  cases action with
  | create snaks =>
      refine ⟨List.forall_mem_append.mpr ⟨hloose, ?_⟩, hlist, hdistinct⟩
      exact List.forall_mem_singleton.mpr (MemoReference.coherent_ofSnaks snaks)
  | addSnak place snak =>
      exact ⟨forall_mem_modify (fun _ hkept => hkept.add snak) hloose place, hlist, hdistinct⟩
  | removeSnak place snak =>
      exact ⟨forall_mem_modify (fun _ hkept => hkept.remove snak) hloose place, hlist, hdistinct⟩
  | tellHash place =>
      exact ⟨forall_mem_modify (fun _ hkept => hkept.keepHash) hloose place, hlist, hdistinct⟩
  | clone place =>
      refine ⟨forall_mem_append_toList hloose ?_, hlist, hdistinct⟩
      exact fun reference hfound => hloose reference (List.mem_of_getElem? hfound)
  | cloneMember index =>
      refine ⟨forall_mem_append_toList hloose ?_, hlist, hdistinct⟩
      exact fun reference hfound => hlist reference (List.mem_of_getElem? hfound)
  | tellMemberHash index =>
      refine ⟨hloose, forall_mem_modify (fun _ hkept => hkept.keepHash) hlist index, ?_⟩
      rw [ReferenceDesk.step, MemoReferenceList.content,
        map_modify MemoReference.content MemoReference.keepHash fun _ => rfl]
      exact hdistinct
  | lookUp hash =>
      obtain ⟨hfound, hcontent, -⟩ := hlist.lookUp hash
      refine ⟨hloose, hfound, ?_⟩
      rw [ReferenceDesk.step, hcontent]
      exact hdistinct
  | addReference place =>
      rw [ReferenceDesk.step]
      split
      next reference hfound =>
        have hreference := hloose reference (List.mem_of_getElem? hfound)
        refine ⟨fun other hother => hloose other (List.mem_of_mem_eraseIdx hother),
          hlist.add hreference, ?_⟩
        rw [(hlist.content_add hreference).1]
        exact ReferenceList.nodup_hashes_add hdistinct _
      next => exact ⟨hloose, hlist, hdistinct⟩
  | insertReference place index =>
      rw [ReferenceDesk.step]
      split
      next reference hfound =>
        have hreference := hloose reference (List.mem_of_getElem? hfound)
        refine ⟨fun other hother => hloose other (List.mem_of_mem_eraseIdx hother),
          hlist.insertAt hreference index, ?_⟩
        rw [hlist.content_insertAt hreference]
        exact ReferenceList.nodup_hashes_insertAt hdistinct _ _
      next => exact ⟨hloose, hlist, hdistinct⟩
  | removeByHash hash =>
      obtain ⟨hremaining, hremoved⟩ := hlist.remove hash
      refine ⟨forall_mem_append_toList hloose hremoved, hremaining, ?_⟩
      rw [ReferenceDesk.step, (hlist.content_remove hash).1, ReferenceList.hashes_remove]
      exact hdistinct.erase hash

theorem Sound.run (h : desk.Sound) (actions : List ReferenceAction) :
    (desk.run actions).Sound := by
  induction actions generalizing desk with
  | nil => exact h
  | cons action actions ih => exact ih (h.step action)

theorem sound_start {list : MemoReferenceList} (h : list.Coherent)
    (hdistinct : list.content.hashes.Nodup) : Sound ⟨[], list⟩ :=
  ⟨List.forall_mem_nil _, h, hdistinct⟩

theorem Reached.sound (h : desk.Reached) : desk.Sound := by
  cases h with
  | ofEmpty actions => exact (sound_start (List.forall_mem_nil _) List.nodup_nil).run actions
  | @ofArray array _ harray actions =>
      have hread := MemoReferenceList.content_ofArray array
      rw [harray] at hread
      have hmade := ReferenceList.constructed_ofArray hread.symm
      have hcoherent := MemoReferenceList.coherent_ofArray harray
      exact (sound_start hcoherent hmade.nodup_hashes).run actions

/-- What can be said of a desk and of the next operation on its list. -/
structure Orderly (desk : ReferenceDesk) : Prop where
  /-- Every hash that is told is that of the snaks as they are. -/
  told : ∀ reference ∈ desk.loose ++ desk.list.references,
    reference.hash = reference.snaks.hash
  distinct : desk.list.hashes.Nodup
  /-- A reference is added at the end exactly if its hash is new. -/
  added : ∀ reference ∈ desk.loose,
    ((desk.list.add reference).2 = true ↔ reference.hash ∉ desk.list.hashes) ∧
      (desk.list.add reference).1.content.references =
        if reference.hash ∈ desk.list.hashes then desk.list.content.references
        else desk.list.content.references ++ [reference.content]
  inserted : ∀ reference ∈ desk.loose, ∀ index,
    ReferenceList.Placed reference.content index desk.list.content.references
      (desk.list.insertAt reference index).content.references
  /-- Only the reference with the hash is taken out, and it is handed over. -/
  removed : ∀ hash,
    (desk.list.remove hash).1.content.references =
        desk.list.content.references.filter (·.hash != hash) ∧
      (desk.list.remove hash).2.map MemoReference.content =
        desk.list.content.references.find? (·.hash == hash)

/-- References are told apart by their hashes and keep their order, whatever has been done with
them and with the list before. -/
theorem reached_orderly (h : desk.Reached) : desk.Orderly := by
  obtain ⟨hloose, hlist, hdistinct⟩ := h.sound
  refine ⟨List.forall_mem_append.mpr ⟨hloose, hlist⟩, ?_, ?_, ?_, ?_⟩
  · rw [← hlist.hashes_content]
    exact hdistinct
  · intro reference hreference
    obtain ⟨hcontent, htold⟩ := hlist.content_add (hloose reference hreference)
    rw [hcontent, htold, ReferenceList.references_add, (hloose reference hreference).hash_content,
      hlist.hashes_content, Bool.not_eq_true', ← Bool.not_eq_true, ReferenceList.contains_iff,
      hlist.hashes_content]
    exact ⟨Iff.rfl, rfl⟩
  · intro reference hreference index
    rw [hlist.content_insertAt (hloose reference hreference)]
    exact ReferenceList.placed_insertAt hdistinct reference.content index
  · intro hash
    obtain ⟨hcontent, hremoved⟩ := hlist.content_remove hash
    rw [hcontent, hremoved, ReferenceList.references_remove_of_nodup hdistinct]
    exact ⟨rfl, rfl⟩

/-- A hash was told before a second snak came in, and a clone is still there. -/
theorem orderly_after_addSnak :
    let first : Snak := .noValue ⟨1, by decide, by decide⟩
    let second : Snak := .someValue ⟨2, by decide, by decide⟩
    let desk := run ⟨[], .empty⟩ [.create ⟨[first]⟩, .tellHash 0, .addSnak 0 second, .clone 0,
      .addReference 0]
    desk.Reached ∧ desk.list.content.references = [⟨⟨[first, second]⟩⟩] ∧
      desk.loose.map MemoReference.content = [⟨⟨[first, second]⟩⟩] ∧ desk.Orderly := by
  intro first second desk
  have hreached : desk.Reached := .ofEmpty _
  exact ⟨hreached, rfl, rfl, reached_orderly hreached⟩

end ReferenceDesk

end KnowledgeBase
