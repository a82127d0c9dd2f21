import KnowledgeBase.Builder
import KnowledgeBase.Proofs.Ownership

/-!
Building an item and changing an empty one give the same. A builder does its work late and part by
part, whereas changes are made in the order of the calls; but a call has to do with one part of the
item only, so each part comes from the calls of its own kind, in their order, on either way.
-/

namespace KnowledgeBase

namespace ItemBuilder

/-- A call on the builder of an item. -/
inductive Call where
  | id (given : ItemId)
  | label (language text : String)
  | description (language text : String)
  | aliased (language text : String)
  | siteLink (site page : String) (badges : List ItemId)
  | statement (mainSnak : Snak) (finish : StatementBuilder → StatementBuilder)
  | pushStatement (ready : Statement)

/-- Kinds of calls; it makes no difference whether a statement is built or ready. -/
inductive Kind where
  | id
  | label
  | description
  | aliased
  | siteLink
  | statement
deriving DecidableEq

namespace Call

def kind : Call → Kind
  | .id _ => .id
  | .label .. => .label
  | .description .. => .description
  | .aliased .. => .aliased
  | .siteLink .. => .siteLink
  | .statement .. => .statement
  | .pushStatement _ => .statement

@[simp] def id? : Call → Option ItemId
  | .id given => some given
  | _ => none

@[simp] def label? : Call → Option (String × String)
  | .label language text => some (language, text)
  | _ => none

@[simp] def description? : Call → Option (String × String)
  | .description language text => some (language, text)
  | _ => none

@[simp] def alias? : Call → Option (String × String)
  | .aliased language text => some (language, text)
  | _ => none

@[simp] def siteLink? : Call → Option (String × String × List ItemId)
  | .siteLink site page badges => some (site, page, badges)
  | _ => none

@[simp] def statement? : Call → Option Statement
  | .statement mainSnak finish => some (finish (.ofSnak mainSnak)).build
  | .pushStatement ready => some ready
  | _ => none

/-- The change of an entity that a call stands for. An id has been given before. -/
def perform (entity : Entity) : Call → Except ModelError Entity
  | .id _ => return entity
  | .label language text => do
      return entity.setFingerprint (← entity.fingerprint.setLabel language text)
  | .description language text => do
      return entity.setFingerprint (← entity.fingerprint.setDescription language text)
  | .aliased language text => do
      return entity.setFingerprint (← entity.fingerprint.addAliases language [text])
  | .siteLink site page badges => do
      return entity.setSiteLinks
        (← SiteLinks.add entity.siteLinks (← SiteLink.create site page badges))
  | .statement mainSnak finish => entity.addStatement (finish (.ofSnak mainSnak)).build
  | .pushStatement ready => entity.addStatement ready

end Call

def collect (builder : ItemBuilder) : Call → ItemBuilder
  | .id given => { builder with id? := some given }
  | .label language text => { builder with parts := builder.parts.addLabel language text }
  | .description language text =>
      { builder with parts := builder.parts.addDescription language text }
  | .aliased language text => { builder with parts := builder.parts.addAlias language text }
  | .siteLink site page badges => builder.addSiteLink site page badges
  | .statement mainSnak finish =>
      { builder with parts := builder.parts.addStatement (finish (.ofSnak mainSnak)).build }
  | .pushStatement ready => { builder with parts := builder.parts.addStatement ready }

/-- A new builder after calls, one after the other. -/
def ofCalls (calls : List Call) : ItemBuilder := calls.foldl collect {}

/-- The id that is given last. -/
def lastId? (calls : List Call) : Option ItemId := (calls.filterMap Call.id?).getLast?

/-- An empty item to which the last id is given first, and which is then changed in the order of
the calls. -/
def mutate (calls : List Call) : Except ModelError Entity := do
  let named ← match lastId? calls with
    | some id => (Entity.item {}).setId (.item id)
    | none => .ok (.item {})
  calls.foldlM Call.perform named

/-! ## Parts -/

def setTerm (terms : TermList) (term : String × String) : Except ModelError TermList :=
  TermList.set terms term.1 term.2

def addToGroup (groups : AliasGroups) (term : String × String) : Except ModelError AliasGroups :=
  AliasGroups.add groups term.1 [term.2]

def addLink (links : SiteLinks) (link : String × String × List ItemId) :
    Except ModelError SiteLinks := do
  SiteLinks.add links (← SiteLink.create link.1 link.2.1 link.2.2)

/-- Each part of an item is changed by the calls of its own kind, one part after the other. -/
def changeParts (before : Item) (calls : List Call) : Except ModelError Item := do
  let labels ← (calls.filterMap Call.label?).foldlM setTerm before.fingerprint.labels
  let descriptions ←
    (calls.filterMap Call.description?).foldlM setTerm before.fingerprint.descriptions
  let aliases ← (calls.filterMap Call.alias?).foldlM addToGroup before.fingerprint.aliases
  (calls.filterMap Call.statement?).forM (Entity.checkOwner (before.id?.map .item))
  let siteLinks ← (calls.filterMap Call.siteLink?).foldlM addLink before.siteLinks
  return {
    id? := before.id?
    fingerprint := { labels, descriptions, aliases }
    statements := before.statements ++ calls.filterMap Call.statement?
    siteLinks }

theorem changeParts_eq_ok_iff {before after : Item} {calls : List Call} :
    changeParts before calls = .ok after ↔
      after.id? = before.id? ∧
      (calls.filterMap Call.label?).foldlM setTerm before.fingerprint.labels =
        .ok after.fingerprint.labels ∧
      (calls.filterMap Call.description?).foldlM setTerm before.fingerprint.descriptions =
        .ok after.fingerprint.descriptions ∧
      (calls.filterMap Call.alias?).foldlM addToGroup before.fingerprint.aliases =
        .ok after.fingerprint.aliases ∧
      (∀ statement ∈ calls.filterMap Call.statement?,
        Entity.checkOwner (before.id?.map .item) statement = .ok ()) ∧
      after.statements = before.statements ++ calls.filterMap Call.statement? ∧
      (calls.filterMap Call.siteLink?).foldlM addLink before.siteLinks = .ok after.siteLinks := by
  rw [← forM_eq_ok_iff, changeParts]
  simp only [bind_eq_ok]
  constructor
  · rintro ⟨labels, hlabels, descriptions, hdescriptions, aliases, haliases, _, howners, links,
      hlinks, hafter⟩
    cases hafter
    exact ⟨rfl, hlabels, hdescriptions, haliases, howners, rfl, hlinks⟩
  · rintro ⟨hid, hlabels, hdescriptions, haliases, howners, hstatements, hlinks⟩
    refine ⟨_, hlabels, _, hdescriptions, _, haliases, (), howners, _, hlinks, ?_⟩
    rw [← hid, ← hstatements]
    rfl

/-- Changes by calls and then by others are changes by all of them. -/
theorem changeParts_append {before after : Item} {first second : List Call} :
    changeParts before (first ++ second) = .ok after ↔
      ∃ middle, changeParts before first = .ok middle ∧ changeParts middle second = .ok after := by
  simp only [changeParts_eq_ok_iff, List.filterMap_append, List.foldlM_append, bind_eq_ok,
    List.forall_mem_append]
  constructor
  · rintro ⟨hid, ⟨labels, hlabels⟩, ⟨descriptions, hdescriptions⟩, ⟨aliases, haliases⟩, howners,
      hstatements, ⟨links, hlinks⟩⟩
    refine ⟨⟨before.id?, ⟨labels, descriptions, aliases⟩,
      before.statements ++ first.filterMap Call.statement?, links⟩, ?_, ?_⟩
    · exact ⟨rfl, hlabels.1, hdescriptions.1, haliases.1, howners.1, rfl, hlinks.1⟩
    · rw [← List.append_assoc] at hstatements
      exact ⟨hid, hlabels.2, hdescriptions.2, haliases.2, howners.2, hstatements, hlinks.2⟩
  · rintro ⟨middle, ⟨hid, hlabels, hdescriptions, haliases, howners, hstatements, hlinks⟩,
      ⟨hid', hlabels', hdescriptions', haliases', howners', hstatements', hlinks'⟩⟩
    rw [hid] at hid' howners'
    rw [hstatements, List.append_assoc] at hstatements'
    exact ⟨hid', ⟨_, hlabels, hlabels'⟩, ⟨_, hdescriptions, hdescriptions'⟩,
      ⟨_, haliases, haliases'⟩, ⟨howners, howners'⟩, hstatements', ⟨_, hlinks, hlinks'⟩⟩

/-- One call changes the part that it has to do with. -/
theorem perform_eq (before : Item) (call : Call) :
    call.perform (.item before) = Entity.item <$> changeParts before [call] := by
  -- The other parts have no calls and stay, so the only step that can fail is the same one.
  cases call with
  | id given => simp [changeParts, Call.perform, List.filterMap_cons]
  | label language text =>
      cases hset : TermList.set before.fingerprint.labels language text <;>
        simp [changeParts, Call.perform, List.filterMap_cons, Entity.fingerprint,
          Entity.setFingerprint, setTerm, Fingerprint.setLabel, hset]
  | description language text =>
      cases hset : TermList.set before.fingerprint.descriptions language text <;>
        simp [changeParts, Call.perform, List.filterMap_cons, Entity.fingerprint,
          Entity.setFingerprint, setTerm, Fingerprint.setDescription, hset]
  | aliased language text =>
      cases hadd : AliasGroups.add before.fingerprint.aliases language [text] <;>
        simp [changeParts, Call.perform, List.filterMap_cons, Entity.fingerprint,
          Entity.setFingerprint, addToGroup, Fingerprint.addAliases, hadd]
  | siteLink site page badges =>
      simp [changeParts, Call.perform, List.filterMap_cons, Entity.siteLinks,
        Entity.siteLinks?, Entity.setSiteLinks, addLink]
  | statement mainSnak finish =>
      cases howner : Entity.checkOwner (before.id?.map .item) (finish (.ofSnak mainSnak)).build <;>
        simp [changeParts, Call.perform, List.filterMap_cons, Entity.addStatement, Entity.id?,
          Entity.statements, Entity.setStatements, howner]
  | pushStatement ready =>
      cases howner : Entity.checkOwner (before.id?.map .item) ready <;>
        simp [changeParts, Call.perform, List.filterMap_cons, Entity.addStatement, Entity.id?,
          Entity.statements, Entity.setStatements, howner]

/-- Changes in the order of the calls come to the same as changes part by part. -/
theorem foldlM_perform {before : Item} {calls : List Call} {entity : Entity} :
    calls.foldlM Call.perform (.item before) = .ok entity ↔
      ∃ after, changeParts before calls = .ok after ∧ .item after = entity := by
  induction calls generalizing before with
  | nil =>
      have hnil : changeParts before [] = .ok before :=
        changeParts_eq_ok_iff.mpr ⟨rfl, rfl, rfl, rfl, List.forall_mem_nil _,
          (List.append_nil _).symm, rfl⟩
      rw [List.foldlM_nil, hnil]
      constructor
      · intro h
        cases h
        exact ⟨before, rfl, rfl⟩
      · rintro ⟨_, hsame, rfl⟩
        cases hsame
        rfl
  | cons call rest ih =>
      -- Part by part, the first call can be set apart although other parts come before its own.
      have hsplit : call :: rest = [call] ++ rest := rfl
      rw [List.foldlM_cons, perform_eq, bind_eq_ok, hsplit]
      simp only [changeParts_append, map_eq_ok]
      constructor
      · rintro ⟨_, ⟨middle, hcall, rfl⟩, hrest⟩
        obtain ⟨after, hafter, rfl⟩ := ih.mp hrest
        exact ⟨after, ⟨middle, hcall, hafter⟩, rfl⟩
      · rintro ⟨after, ⟨middle, hcall, hafter⟩, rfl⟩
        exact ⟨.item middle, ⟨middle, hcall, rfl⟩, ih.mpr ⟨after, hafter, rfl⟩⟩

/-! ## Collected calls -/

theorem ofCalls_eq (calls : List Call) : ofCalls calls =
    { id? := lastId? calls
      parts :=
        { labels := calls.filterMap Call.label?
          descriptions := calls.filterMap Call.description?
          aliases := calls.filterMap Call.alias?
          statements := calls.filterMap Call.statement? }
      siteLinks := calls.filterMap Call.siteLink? } := by
  induction calls using List.reverseRecOn with
  | nil => rfl
  | append_singleton calls last ih =>
      rw [ofCalls, List.foldl_append, ← ofCalls, ih]
      cases last <;>
        simp [collect, lastId?, EntityParts.addLabel, EntityParts.addDescription,
          EntityParts.addAlias, EntityParts.addStatement, addSiteLink]

/-- Labels, descriptions and aliases are filled in without regard to each other. -/
theorem fingerprint_eq (parts : EntityParts) : parts.fingerprint = do
    let labels ← parts.labels.foldlM setTerm .empty
    let descriptions ← parts.descriptions.foldlM setTerm .empty
    let aliases ← parts.aliases.foldlM addToGroup .empty
    return { labels, descriptions, aliases } := by
  have hlabels := foldlM_part Fingerprint.labels (fun f labels => { f with labels })
    (fun f term => f.setLabel term.1 term.2) setTerm (fun _ => rfl) (fun _ _ => rfl)
    (fun _ _ _ => rfl) (by simp [Fingerprint.setLabel, setTerm])
  have hdescriptions := foldlM_part Fingerprint.descriptions
    (fun f descriptions => { f with descriptions }) (fun f term => f.setDescription term.1 term.2)
    setTerm (fun _ => rfl) (fun _ _ => rfl) (fun _ _ _ => rfl)
    (by simp [Fingerprint.setDescription, setTerm])
  have haliases := foldlM_part Fingerprint.aliases (fun f aliases => { f with aliases })
    (fun f term => f.addAliases term.1 [term.2]) addToGroup (fun _ => rfl) (fun _ _ => rfl)
    (fun _ _ _ => rfl) (by simp [Fingerprint.addAliases, addToGroup])
  have hparts : parts.fingerprint = (do
      let labelled ← parts.labels.foldlM (fun f term => f.setLabel term.1 term.2) .empty
      let described ←
        parts.descriptions.foldlM (fun f term => f.setDescription term.1 term.2) labelled
      parts.aliases.foldlM (fun f term => f.addAliases term.1 [term.2]) described) := rfl
  simp [hparts, hlabels, hdescriptions, haliases, Fingerprint.empty]

/-- What is built from collected calls is an empty item with the last id, changed part by part. -/
theorem build_ofCalls (calls : List Call) :
    (ofCalls calls).build = changeParts { id? := lastId? calls } calls := by
  rw [ofCalls_eq, build, fingerprint_eq, changeParts, EntityParts.ownedStatements]
  simp only [bind_assoc, pure_bind, List.nil_append]
  rfl

theorem mutate_eq_ok_iff {calls : List Call} {entity : Entity} : mutate calls = .ok entity ↔
    ∃ item, (ofCalls calls).build = .ok item ∧ .item item = entity := by
  have hmutate : mutate calls = calls.foldlM Call.perform (.item { id? := lastId? calls }) := by
    unfold mutate
    cases lastId? calls <;> rfl
  rw [hmutate, foldlM_perform, build_ofCalls]

theorem toOption_mutate (calls : List Call) :
    (mutate calls).toOption = (ofCalls calls).build.toOption.map .item := by
  cases hbuild : (ofCalls calls).build with
  | ok item =>
      rw [mutate_eq_ok_iff.mpr ⟨item, hbuild, rfl⟩]
      rfl
  | error error =>
      cases hmutate : mutate calls with
      | error _ => rfl
      | ok entity =>
          obtain ⟨item, hitem, -⟩ := mutate_eq_ok_iff.mp hmutate
          rw [hbuild] at hitem
          cases hitem

/-! ## Kinds of calls -/

theorem filterMap_filter_kind {α : Type} {read : Call → Option α} {kind : Kind}
    (hread : ∀ call, call.kind ≠ kind → read call = none) (calls : List Call) :
    (calls.filter (·.kind = kind)).filterMap read = calls.filterMap read := by
  rw [List.filterMap_filter]
  apply List.filterMap_congr
  intro call _
  by_cases hkind : call.kind = kind
  · simp [hkind]
  · simp [hkind, hread call hkind]

/-- Calls that do not differ within any kind are collected alike. -/
theorem ofCalls_congr {first second : List Call}
    (h : ∀ kind, first.filter (·.kind = kind) = second.filter (·.kind = kind)) :
    ofCalls first = ofCalls second := by
  have hpart {α : Type} (read : Call → Option α) (kind : Kind)
      (hread : ∀ call, call.kind ≠ kind → read call = none) :
      first.filterMap read = second.filterMap read := by
    rw [← filterMap_filter_kind hread first, h, filterMap_filter_kind hread]
  rw [ofCalls_eq, ofCalls_eq, lastId?, lastId?, hpart Call.id? .id, hpart Call.label? .label,
    hpart Call.description? .description, hpart Call.alias? .aliased,
    hpart Call.siteLink? .siteLink, hpart Call.statement? .statement]
  all_goals
    intro call hkind
    cases call <;> first | rfl | exact absurd rfl hkind

/-- What can be said of the calls on a builder. -/
structure AgreesWithMutation (calls : List Call) : Prop where
  /-- Building succeeds exactly if every change does, and then both give the same item. -/
  same : (mutate calls).toOption = (ofCalls calls).build.toOption.map .item
  /-- It does not matter how calls of different kinds are interleaved. -/
  interleaved : ∀ others : List Call,
    (∀ kind, others.filter (·.kind = kind) = calls.filter (·.kind = kind)) →
      (ofCalls others).build = (ofCalls calls).build ∧
        (mutate others).toOption = (mutate calls).toOption
  /-- Wherever the id is given, no statement that is built in names another entity. -/
  owned : ∀ item, (ofCalls calls).build = .ok item →
    item.id? = lastId? calls ∧ item.statements = calls.filterMap Call.statement? ∧
      ∀ id, lastId? calls = some id → ∀ statement ∈ item.statements,
        statement.namesOther (.item id) = false

/-- Building is changing an empty item, in whatever order the calls come. -/
theorem build_agreesWithMutation (calls : List Call) : AgreesWithMutation calls where
  same := toOption_mutate calls
  interleaved others h := by
    rw [toOption_mutate, toOption_mutate, ofCalls_congr h]
    exact ⟨rfl, rfl⟩
  owned item h := by
    rw [build_ofCalls, changeParts_eq_ok_iff] at h
    obtain ⟨hid, -, -, -, howners, hstatements, -⟩ := h
    rw [List.nil_append] at hstatements
    refine ⟨hid, hstatements, ?_⟩
    intro id hlast statement member
    rw [hstatements] at member
    have howner := howners statement member
    rw [hlast, Option.map_some, Entity.checkOwner_eq] at howner
    cases hother : statement.namesOther (.item id) with
    | false => rfl
    | true =>
        rw [if_pos hother] at howner
        cases howner

end ItemBuilder

end KnowledgeBase
