import KnowledgeBase.Proofs.Mutation

/-!
The rules that every entity obeys. An entity starts empty, is built from parts or is read from
an array form, and from there on it is changed by edits only. So it is constructed at any time,
and no list in it holds a value twice, no term is too long, every link is where it belongs, and
every id is within bounds. Failures are no exception: what a failed edit leaves is one of the
states of which this is said.
-/

namespace KnowledgeBase

/-! ## The rules -/

/-- The ids in a snak: that of its property and, if its value is an entity, of this one. -/
def Snak.ids (snak : Snak) : List EntityId :=
  .property snak.property ::
    match snak.dataValue? with
    | some (.entityId id) => [id]
    | _ => []

theorem EntityId.bounded (id : EntityId) : 1 ≤ id.number ∧ id.number ≤ maxEntityNumber := by
  cases id with
  | item id => exact ⟨id.positive, id.bounded⟩
  | property id => exact ⟨id.positive, id.bounded⟩

/-- A link under its own site, both of whose texts are within the limit. -/
def ShortLinkRule (site : String) (link : SiteLink) : Prop :=
  link.site = site ∧ site.utf8ByteSize ≤ maxSiteLinkBytes ∧
    link.page.utf8ByteSize ≤ maxSiteLinkBytes

namespace Entity

/-- All ids in an entity: its own, those in its statements and the badges of its links. -/
def ids (entity : Entity) : List EntityId :=
  entity.id?.toList ++ (StatementList.allSnaks entity.statements).flatMap Snak.ids ++
    entity.siteLinks.values.flatMap fun link => link.badges.map .item

structure Legal (entity : Entity) : Prop where
  qualifiers : ∀ statement ∈ entity.statements, statement.qualifiers.Distinct
  references : ∀ statement ∈ entity.statements, statement.references.hashes.Nodup
  referenceSnaks : ∀ statement ∈ entity.statements,
    ∀ reference ∈ statement.references.references, reference.snaks.Distinct
  labels : entity.fingerprint.labels.All TermRule
  descriptions : entity.fingerprint.descriptions.All TermRule
  aliases : entity.fingerprint.aliases.All GroupRule
  siteLinks : entity.siteLinks.All ShortLinkRule
  ownId : ∀ id, entity.id? = some id → id.type = entity.type
  ids : ∀ id ∈ entity.ids, 1 ≤ id.number ∧ id.number ≤ maxEntityNumber

/-- Constructed entities obey all rules. -/
theorem Constructed.legal {entity : Entity} (h : entity.Constructed) : entity.Legal where
  qualifiers statement member := (h.statements statement member).qualifiers.distinct
  references statement member := (h.statements statement member).references.nodup_hashes
  referenceSnaks statement member reference hreference :=
    ((h.statements statement member).references.snaks reference hreference).distinct
  labels := h.sound.labels
  descriptions := h.sound.descriptions
  aliases := h.sound.aliases
  siteLinks site link hfound := by
    obtain ⟨hsite, _, _, _, hlink⟩ := h.siteLinks.all site link hfound
    obtain ⟨hshortSite, hshortPage, rfl⟩ := SiteLink.create_eq_ok_iff.mp hlink
    obtain rfl : _ = site := hsite
    exact ⟨rfl, hshortSite, hshortPage⟩
  ownId id hid := (type_of_id? hid).symm
  ids id _ := id.bounded

/-! ## Where entities come from -/

/-- The ways to get an entity that was not there before. -/
inductive Origin : Entity → Prop
  | emptyItem : Origin (.item {})
  | itemWithId (id : ItemId) : Origin (.item { id? := some id })
  | emptyProperty (dataType : String) : Origin (.property { dataType })
  | builtItem {builder : ItemBuilder} {item : Item}
      (hstatements : ∀ statement ∈ builder.parts.statements, statement.Constructed)
      (h : builder.build = .ok item) : Origin (.item item)
  | builtProperty {builder : PropertyBuilder} {property : Property}
      (hstatements : ∀ statement ∈ builder.parts.statements, statement.Constructed)
      (h : builder.build = .ok property) : Origin (.property property)
  | read {array : Json} {entity : Entity}
      (h : (ArrayForm.ofArray array : Except ArrayError Entity) = .ok entity) : Origin entity

theorem Origin.constructed {entity : Entity} (h : entity.Origin) : entity.Constructed := by
  cases h with
  | emptyItem | itemWithId _ | emptyProperty _ =>
      exact ⟨Fingerprint.constructed_empty, List.forall_mem_nil _, .empty⟩
  | builtItem hstatements h => exact ItemBuilder.constructed_build hstatements h
  | builtProperty hstatements h => exact PropertyBuilder.constructed_build hstatements h
  | read h => exact Entity.constructed_ofArray h

/-- Wherever an entity comes from and whatever is done to it, with success or not, it obeys
all rules, and it keeps its id from the time on when it has one. -/
theorem Origin.legal_afterEdits {origin : Entity} (h : origin.Origin)
    (edits : List EntityEdit) :
    (origin.afterEdits edits).Legal ∧
      ∀ earlier later id, edits = earlier ++ later →
        (origin.afterEdits earlier).id? = some id →
        (origin.afterEdits edits).id? = some id := by
  constructor
  · exact (keeps_afterEdits EntityEdit.keeps_constructed edits h.constructed).legal
  · rintro earlier later id rfl hid
    rw [afterEdits_append]
    exact keeps_afterEdits (fun edit => edit.keeps_id id) later hid

/-- Edits of an empty item, two of which fail: the item has an id already, and a difference
adds a label and then a description that is too long. -/
private def failingEdits : List EntityEdit :=
  [.setId (.item .first),
    .setId (.item ⟨42, by decide, by decide⟩),
    .apply ⟨EntityDiff.labelAndDescription EntityDiff.longText,
      ArrayForm.toArray (EntityDiff.labelAndDescription EntityDiff.longText), rfl⟩,
    .statements (.add ⟨bareStatement none .normal, .empty, .empty⟩),
    .statements (.editAt 0 (.qualifiers (.add (bareStatement none .normal).mainSnak)))]

theorem legal_afterEdits_of_failures :
    Origin (.item {}) ∧ (afterEdits (.item {}) failingEdits).Legal ∧
      (afterEdits (.item {}) failingEdits).id? = some (.item .first) := by
  obtain ⟨hlegal, hid⟩ := Origin.emptyItem.legal_afterEdits failingEdits
  exact ⟨.emptyItem, hlegal, hid (failingEdits.take 1) (failingEdits.drop 1) _ rfl rfl⟩

end Entity

end KnowledgeBase
