import KnowledgeBase.ArrayForm.Diff
import KnowledgeBase.Proofs.Diff.MergeLaws
import KnowledgeBase.Proofs.Diff.Replay

/-!
Two differences applied in either order. In a sound entity every operation overwrites: at the
place it writes to it leaves the same, whatever was there. So the order counts exactly at places
where both differences write and do not leave the same. A merge compares operations by their
keys. For terms the key is the place, but a link is filed under its own site, and a difference
that is read may have it under any key: then two links for one site can pass the merge.
-/

namespace KnowledgeBase

variable {α : Type}

/-! ## What operations write -/

/-- How a collection files what is put under a key: at which place and in which form, if it
keeps it at all. -/
structure Filing (α : Type) where
  place : String → α → String
  form? : α → Option α

namespace Filing

/-- The place that an operation writes to, with what it leaves there. -/
def write (filing : Filing α) (key : String) (op : DiffOp α) : String × Option α :=
  match op.new? with
  | some new => (filing.place key new, filing.form? new)
  | none => (key, none)

/-- What a difference leaves at each place it writes to. Of several writes the last counts. -/
def writes (filing : Filing α) (diff : MapDiff α) : SortedMap String (Option α) :=
  .ofList (diff.toList.map fun (key, op) => filing.write key op)

/-- Whether two differences leave the same wherever both write. -/
def WriteAlike (filing : Filing α) (first second : MapDiff α) : Prop :=
  ∀ place, ∀ left ∈ (filing.writes first).get? place,
    ∀ right ∈ (filing.writes second).get? place, left = right

/-- What a difference writes is written by one of its operations. -/
theorem exists_write {filing : Filing α} {diff : MapDiff α} {place : String} {left : Option α}
    (h : (filing.writes diff).get? place = some left) :
    ∃ key op, diff.get? key = some op ∧ filing.write key op = (place, left) := by
  have hmember := SortedMap.mem_of_get?_ofList h
  obtain ⟨⟨key, op⟩, hop, hwrite⟩ := List.mem_map.mp hmember
  exact ⟨key, op, SortedMap.get?_eq_some_iff.mpr hop, hwrite⟩

/-- Where every value is filed under its key, differences that do not clash write alike. -/
theorem writeAlike_of_no_clash [BEq α] [LawfulBEq α] {filing : Filing α} {first second : MapDiff α}
    (hfirst : first.NewAll fun key new => filing.place key new = key)
    (hsecond : second.NewAll fun key new => filing.place key new = key)
    (hfree : ∀ key, ¬MapDiff.Clash first second key) : filing.WriteAlike first second := by
  have hplace {diff : MapDiff α} (hdiff : diff.NewAll fun key new => filing.place key new = key)
      {key place : String} {op : DiffOp α} {left : Option α} (hop : diff.get? key = some op)
      (hwrite : filing.write key op = (place, left)) :
      key = place ∧ left = op.new?.bind filing.form? := by
    unfold write at hwrite
    cases hnew : op.new? with
    | none =>
        rw [hnew] at hwrite
        cases hwrite
        exact ⟨rfl, rfl⟩
    | some new =>
        rw [hnew] at hwrite
        cases hwrite
        exact ⟨(hdiff key op new hop hnew).symm, rfl⟩
  intro place left hleft right hright
  obtain ⟨key, op, hop, hwrite⟩ := exists_write hleft
  obtain ⟨key', op', hop', hwrite'⟩ := exists_write hright
  obtain ⟨rfl, rfl⟩ := hplace hfirst hop hwrite
  obtain ⟨rfl, rfl⟩ := hplace hsecond hop' hwrite'
  have hsame : (op == op') = true := by
    by_contra hdiffer
    exact hfree key' ⟨op, op', hop, hop', by simpa using hdiffer⟩
  rw [DiffOp.beq_eq, Bool.and_eq_true] at hsame
  rw [eq_of_beq hsame.2]

end Filing

/-- Whether a target keeps a map of values that obey a rule and files what is put into it. A
value that obeys the rule for its key is filed under this key and as it is. -/
structure PatchTarget.Files (target : PatchTarget (SortedMap String α) α) (filing : Filing α)
    (rule : String → α → Prop) : Prop where
  current : target.current = SortedMap.get?
  take : target.take = SortedMap.erase
  put : ∀ map key new after, target.put map key new = .ok after → ∀ place,
    after.get? place = if place = filing.place key new then filing.form? new else map.get? place
  keeps : ∀ map key new after, map.All rule → target.put map key new = .ok after → after.All rule
  settled : ∀ key value, rule key value →
    filing.place key value = key ∧ filing.form? value = some value

namespace PatchTarget.Files

variable [BEq α] {target : PatchTarget (SortedMap String α) α} {filing : Filing α}
  {rule : String → α → Prop} (h : target.Files filing rule)
include h

/-- An operation overwrites one place, also where it finds its value there already. -/
theorem get?_of_apply [LawfulBEq α] {key : String} {op : DiffOp α} {map after : SortedMap String α}
    (hmap : map.All rule) (hstep : op.apply target key map = .ok after) (place : String) :
    after.get? place =
      if place = (filing.write key op).1 then (filing.write key op).2 else map.get? place := by
  cases op with
  | change old new => exact h.put map key new after hstep place
  | remove old =>
      simp only [DiffOp.apply, h.current, h.take] at hstep
      cases hcurrent : map.get? key with
      | some current =>
          rw [hcurrent] at hstep
          cases hstep
          exact SortedMap.get?_erase map key place
      | none =>
          rw [hcurrent] at hstep
          cases hstep
          by_cases same : place = key
          · simp [Filing.write, DiffOp.new?, same, hcurrent]
          · simp [Filing.write, DiffOp.new?, same]
  | add new =>
      simp only [DiffOp.apply, h.current] at hstep
      cases hcurrent : map.get? key with
      | none =>
          rw [hcurrent] at hstep
          exact h.put map key new after hstep place
      | some current =>
          simp only [hcurrent] at hstep
          split at hstep
          next same =>
            cases hstep
            obtain rfl := eq_of_beq same
            obtain ⟨hplace, hform⟩ := h.settled key current (hmap key current hcurrent)
            simp only [Filing.write, DiffOp.new?, hplace, hform]
            split
            next hkey => rw [hkey, hcurrent]
            next => rfl
          next => exact h.put map key new after hstep place

theorem all_of_apply {key : String} {op : DiffOp α} {map after : SortedMap String α}
    (hmap : map.All rule) (hstep : op.apply target key map = .ok after) : after.All rule := by
  rcases op.apply_cases target key map with hsame | htaken | ⟨new, -, hput⟩
  · rw [hsame] at hstep
    cases hstep
    exact hmap
  · rw [htaken, h.take] at hstep
    cases hstep
    exact hmap.erase key
  · exact h.keeps map key new after hmap (hput.symm.trans hstep)

/-- An application overwrites the places that its difference writes to. -/
theorem get?_of_run [LawfulBEq α] {diff : MapDiff α} {map after : SortedMap String α}
    (hmap : map.All rule) (hrun : (diff.apply target).run map = .ok () after) :
    after.All rule ∧
      ∀ place, after.get? place = ((filing.writes diff).get? place).getD (map.get? place) := by
  rw [MapDiff.apply_eq_forM] at hrun
  unfold Filing.writes
  generalize diff.toList = ops at hrun
  induction ops using List.reverseRecOn generalizing after with
  | nil =>
      cases hrun
      exact ⟨hmap, fun _ => rfl⟩
  | append_singleton ops last ih =>
      obtain ⟨key, op⟩ := last
      obtain ⟨middle, hbefore, hlast⟩ := Edit.run_forM_concat_ok_cases hrun
      obtain ⟨hmiddle, hget⟩ := ih hbefore
      have hstep := MapDiff.apply_of_run_runKey hlast
      refine ⟨h.all_of_apply hmiddle hstep, fun place => ?_⟩
      rw [h.get?_of_apply hmiddle hstep, hget, List.map_append, List.map_cons, List.map_nil,
        SortedMap.ofList_append_singleton, SortedMap.get?_insert]
      split <;> rfl

section TwoRuns

variable {first second : MapDiff α} {map firstDone secondDone there back : SortedMap String α}
  (hmap : map.All rule) (hfirst : (first.apply target).run map = .ok () firstDone)
  (hthere : (second.apply target).run firstDone = .ok () there)
  (hsecond : (second.apply target).run map = .ok () secondDone)
  (hback : (first.apply target).run secondDone = .ok () back)
include hmap hfirst hthere hsecond hback

/-- The order of two applications does not count exactly if they write alike. -/
theorem either_order_iff [LawfulBEq α] : there = back ↔ filing.WriteAlike first second := by
  obtain ⟨hfirstAll, hfirstGet⟩ := h.get?_of_run hmap hfirst
  obtain ⟨hsecondAll, hsecondGet⟩ := h.get?_of_run hmap hsecond
  have hthereGet := (h.get?_of_run hfirstAll hthere).2
  have hbackGet := (h.get?_of_run hsecondAll hback).2
  constructor
  · rintro rfl place left hleft right hright
    have hsame := (hthereGet place).symm.trans (hbackGet place)
    rw [Option.mem_def] at hleft hright
    rw [hfirstGet, hsecondGet, hleft, hright] at hsame
    exact hsame.symm
  · intro halike
    apply SortedMap.ext_get?
    intro place
    rw [hthereGet, hbackGet, hfirstGet, hsecondGet]
    cases hleft : (filing.writes first).get? place with
    | none => cases (filing.writes second).get? place <;> rfl
    | some left =>
        cases hright : (filing.writes second).get? place with
        | none => rfl
        | some right => exact (halike place left hleft right hright).symm

end TwoRuns

end PatchTarget.Files

/-! ## The sections of an entity -/

/-- Terms are filed under their language. -/
def TermList.filing : Filing String := ⟨fun language _ => language, some⟩

/-- Groups of aliases are filed under their language, without repeats, and not if they have no
members. -/
def AliasGroups.filing : Filing (List String) where
  place language _ := language
  form? group := if group.eraseDups = [] then none else some group.eraseDups

/-- Links are filed under their own site. -/
def SiteLinks.filing : Filing SiteLink := ⟨fun _ link => link.site, some⟩

theorem TermList.files : TermList.target.Files TermList.filing TermRule where
  current := rfl
  take := rfl
  put terms language text after hset place := by
    change TermList.set terms language text = .ok after at hset
    obtain ⟨_, -, hset⟩ := bind_eq_ok.mp hset
    cases hset
    exact SortedMap.get?_insert terms language place text
  keeps _ _ _ _ hterms hset := TermList.all_set hterms hset
  settled _ _ _ := ⟨rfl, rfl⟩

theorem AliasGroups.files : AliasGroups.target.Files AliasGroups.filing GroupRule where
  current := rfl
  take := rfl
  put groups language group after hset place := by
    change AliasGroups.set groups language group = .ok after at hset
    obtain ⟨_, -, hset⟩ := bind_eq_ok.mp hset
    cases hdistinct : group.eraseDups with
    | nil =>
        simp only [hdistinct] at hset
        cases hset
        simp only [SortedMap.get?_erase, filing, hdistinct, if_true]
    | cons text rest =>
        simp only [hdistinct] at hset
        cases hset
        simp only [SortedMap.get?_insert, filing, hdistinct, reduceCtorEq, if_false]
  keeps _ _ _ _ hgroups hset := AliasGroups.all_set hgroups hset
  settled language group hrule := by
    refine ⟨rfl, ?_⟩
    simp only [filing, eraseDups_eq_self hrule.2.1, hrule.1, if_false]

theorem SiteLinks.files : SiteLinks.target.Files SiteLinks.filing LinkRule where
  current := rfl
  take := rfl
  put links key link after hset place := by
    cases hset
    exact SortedMap.get?_insert links link.site place link
  keeps links key link after hlinks hset := by
    cases hset
    exact SiteLinks.all_set hlinks link
  settled _ _ hsite := ⟨hsite, rfl⟩

namespace EntityDiff

/-- What an application that has succeeded did to the terms and the links of an item. -/
structure Applied (diff : EntityDiff) (entity after : Entity) : Prop where
  type : after.type = entity.type
  labels : (diff.labels.apply TermList.target).run entity.fingerprint.labels =
    .ok () after.fingerprint.labels
  descriptions : (diff.descriptions.apply TermList.target).run entity.fingerprint.descriptions =
    .ok () after.fingerprint.descriptions
  aliases : (diff.aliases.apply AliasGroups.target).run entity.fingerprint.aliases =
    .ok () after.fingerprint.aliases
  siteLinks : entity.type = .item →
    (diff.siteLinks.apply SiteLinks.target).run entity.siteLinks = .ok () after.siteLinks

theorem applied_of_run {diff : EntityDiff} {entity after : Entity}
    (h : diff.apply.run entity = .ok () after) : diff.Applied entity after := by
  have htype : diff.type = entity.type := by
    by_contra hne
    rw [run_apply_of_ne hne] at h
    cases h
  rw [run_apply htype] at h
  unfold applySections at h
  obtain ⟨_, _, hfirst, hrest⟩ := Edit.run_bind_ok_cases h
  obtain ⟨terms, hterms, rfl⟩ := Edit.run_within_ok_cases hfirst
  obtain ⟨_, _, hstatements, hlast⟩ := Edit.run_bind_ok_cases hrest
  cases hstatements
  obtain ⟨links, hlinks, rfl⟩ := Edit.run_within_ok_cases hlast
  unfold applyTerms at hterms
  obtain ⟨_, _, hfirst, hrest⟩ := Edit.run_bind_ok_cases hterms
  obtain ⟨labels, hlabels, rfl⟩ := Edit.run_within_ok_cases hfirst
  obtain ⟨_, _, hsecond, hlast⟩ := Edit.run_bind_ok_cases hrest
  obtain ⟨descriptions, hdescriptions, rfl⟩ := Edit.run_within_ok_cases hsecond
  obtain ⟨aliases, haliases, rfl⟩ := Edit.run_within_ok_cases hlast
  refine ⟨by simp, ?_, ?_, ?_, ?_⟩
  · simpa using hlabels
  · simpa using hdescriptions
  · simpa using haliases
  · intro hitem
    cases entity with
    | item item => exact hlinks
    | property property => cases hitem

/-- Whether two differences leave the same link, or none, at each site at which both write. -/
def LinksAlike (first second : EntityDiff) : Prop :=
  SiteLinks.filing.WriteAlike first.siteLinks second.siteLinks

/-- Whether two applications in either order come to the same terms, and to the same links
exactly if the differences write these alike. -/
structure SameEitherOrder (first second : EntityDiff) (there back : Entity) : Prop where
  fingerprint : there.fingerprint = back.fingerprint
  siteLinks_iff : there.siteLinks? = back.siteLinks? ↔ LinksAlike first second

theorem run_replay_pair {first second : EntityDiff} {entity after : Entity}
    (h : (replay [first, second]).run entity = .ok () after) :
    ∃ middle, first.apply.run entity = .ok () middle ∧ second.apply.run middle = .ok () after := by
  obtain ⟨middle, hfirst, hsecond⟩ := Edit.run_forM_concat_ok_cases
    (show (forM ([first] ++ [second]) apply : Edit Entity Unit).run entity = .ok () after from h)
  obtain ⟨_, hstart, hfirst⟩ := Edit.run_forM_concat_ok_cases
    (show (forM ([] ++ [first]) apply : Edit Entity Unit).run entity = .ok () middle from hfirst)
  cases hstart
  exact ⟨middle, hfirst, hsecond⟩

section TwoOrders

variable {first second merged : EntityDiff} {entity there back : Entity}

/-- Differences that merge can be applied in either order, but for links: of these two may be
for one site and under different keys. Under their own sites they do not differ either. -/
theorem replay_in_either_order (hsound : entity.Sound) (hitem : entity.type = .item)
    (hmerge : first.merge second = .ok merged)
    (hthere : (replay [first, second]).run entity = .ok () there)
    (hback : (replay [second, first]).run entity = .ok () back) :
    SameEitherOrder first second there back ∧
      (first.siteLinks.NewAll LinkRule → second.siteLinks.NewAll LinkRule →
        LinksAlike first second) := by
  have hfree := (compatible_iff.mp (merge_eq_ok_iff.mp hmerge).1).2
  obtain ⟨firstDone, hfirst, hthere⟩ := run_replay_pair hthere
  obtain ⟨secondDone, hsecond, hback⟩ := run_replay_pair hback
  have hfirst := applied_of_run hfirst
  have hthere := applied_of_run hthere
  have hsecond := applied_of_run hsecond
  have hback := applied_of_run hback
  have hfirstItem := hfirst.type.trans hitem
  have hsecondItem := hsecond.type.trans hitem
  have hplaced {α : Type} (diff : MapDiff α) :
      diff.NewAll fun key _ => key = key := fun _ _ _ _ _ => rfl
  have hlabels : there.fingerprint.labels = back.fingerprint.labels :=
    (TermList.files.either_order_iff hsound.labels hfirst.labels hthere.labels hsecond.labels
      hback.labels).mpr
      (Filing.writeAlike_of_no_clash (hplaced _) (hplaced _) fun key => hfree ⟨.labels, key⟩)
  have hdescriptions : there.fingerprint.descriptions = back.fingerprint.descriptions :=
    (TermList.files.either_order_iff hsound.descriptions hfirst.descriptions
      hthere.descriptions hsecond.descriptions hback.descriptions).mpr
      (Filing.writeAlike_of_no_clash (hplaced _) (hplaced _) fun key =>
        hfree ⟨.descriptions, key⟩)
  have haliases : there.fingerprint.aliases = back.fingerprint.aliases :=
    (AliasGroups.files.either_order_iff hsound.aliases hfirst.aliases hthere.aliases
      hsecond.aliases hback.aliases).mpr
      (Filing.writeAlike_of_no_clash (hplaced _) (hplaced _) fun key => hfree ⟨.aliases, key⟩)
  have hlinks : there.siteLinks = back.siteLinks ↔ LinksAlike first second :=
    SiteLinks.files.either_order_iff hsound.siteLinks (hfirst.siteLinks hitem)
      (hthere.siteLinks hfirstItem) (hsecond.siteLinks hitem) (hback.siteLinks hsecondItem)
  have hsome {outcome : Entity} (h : outcome.type = .item) :
      outcome.siteLinks? = some outcome.siteLinks := by
    cases outcome with
    | item item => rfl
    | property property => cases h
  have hterms {first second : Fingerprint} (hlabels : first.labels = second.labels)
      (hdescriptions : first.descriptions = second.descriptions)
      (haliases : first.aliases = second.aliases) : first = second := by
    cases first
    cases second
    cases hlabels
    cases hdescriptions
    cases haliases
    rfl
  refine ⟨⟨hterms hlabels hdescriptions haliases, ?_⟩, ?_⟩
  · rw [hsome (hthere.type.trans hfirstItem), hsome (hback.type.trans hsecondItem),
      Option.some.injEq]
    exact hlinks
  · intro hfirstRule hsecondRule
    exact Filing.writeAlike_of_no_clash hfirstRule hsecondRule fun key =>
      hfree ⟨.siteLinks, key⟩

end TwoOrders

/-- Adds a link for one site, under whatever key. -/
def addLink (key page : String) : EntityDiff where
  type := .item
  siteLinks := SortedMap.empty.insert key (.add ⟨"enwiki", page, []⟩)

/-- Aliases with a repeat and without members, and one link under two keys. -/
theorem replay_in_either_order_of_misfiled_link :
    let first := { addLink "a" "Ant" with
      aliases := SortedMap.empty.insert "en" (.add ["ant", "ant"]) }
    let second := { addLink "b" "Ant" with
      aliases := SortedMap.empty.insert "de" (.change ["Ameise"] []) }
    let entity := labelledItem none "ant" []
    ∃ merged there back, entity.Sound ∧ entity.type = .item ∧
      first.merge second = .ok merged ∧
      (replay [first, second]).run entity = .ok () there ∧
      (replay [second, first]).run entity = .ok () back ∧
      SameEitherOrder first second there back ∧
      (first.siteLinks.NewAll LinkRule → second.siteLinks.NewAll LinkRule →
        LinksAlike first second) := by
  intro first second entity
  have hsound : entity.Sound := sound_labelledItem none [] (by decide)
  exact ⟨_, _, _, hsound, rfl, rfl, rfl, rfl,
    replay_in_either_order hsound rfl rfl rfl rfl⟩

/-- A merge lets two links for one site pass that are read under different keys, and the last
one applied stays. -/
theorem merge_passes_links_for_one_site :
    let first := addLink "a" "Ant"
    let second := addLink "enwiki" "Bee"
    ∃ firstArray secondArray merged there back,
      ArrayForm.ofArray firstArray = .ok first ∧ ArrayForm.ofArray secondArray = .ok second ∧
      first.merge second = .ok merged ∧
      (replay [first, second]).run (.item {}) = .ok () there ∧
      (replay [second, first]).run (.item {}) = .ok () back ∧
      there.siteLinks? ≠ back.siteLinks? := by
  have hfirst : ArrayForm.ofArray (ArrayForm.toArray (addLink "a" "Ant")) =
      .ok (addLink "a" "Ant") := rfl
  have hsecond : ArrayForm.ofArray (ArrayForm.toArray (addLink "enwiki" "Bee")) =
      .ok (addLink "enwiki" "Bee") := rfl
  exact ⟨_, _, _, _, _, hfirst, hsecond, rfl, rfl, rfl, by decide⟩

end EntityDiff

end KnowledgeBase
