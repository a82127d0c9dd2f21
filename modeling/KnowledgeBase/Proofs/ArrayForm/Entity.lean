import KnowledgeBase.Proofs.ArrayForm.Construction
import KnowledgeBase.Proofs.ArrayForm.Statement

/-!
Array forms of entities. Terms, aliases and links that keep the rules for their places are
read back entry by entry, none of them being refused or changed. What is left of an entity's
form is the list of its statements: reading the form of an entity is reading the forms of its
statements, in their order.
-/

namespace KnowledgeBase

open ArrayForm

/-! ## Terms -/

theorem TermList.lossless {terms : TermList} (h : terms.All TermRule) : Lossless terms := by
  change (terms.mapValues Json.text).toList.foldlM _ _ = _
  refine foldlM_toList terms ?_
  intro state language text hfound _
  change (liftM (TermList.set state language text) : Except ArrayError TermList) = _
  rw [TermList.set_of_le (h language text hfound), liftM_ok]

theorem aliasesOfArray_texts (aliases : List String) :
    aliasesOfArray (Json.texts aliases) = .ok aliases :=
  mapM_eq_ok fun _ _ => rfl

theorem AliasGroups.lossless {groups : AliasGroups} (h : groups.All GroupRule) :
    Lossless groups := by
  change (groups.mapValues Json.texts).toList.foldlM _ _ = _
  refine foldlM_toList groups ?_
  intro state language group hfound _
  change (aliasesOfArray (Json.texts group) >>= fun aliases =>
    liftM (AliasGroups.set state language aliases)) = _
  rw [aliasesOfArray_texts, ok_bind, AliasGroups.set_of_rule (h language group hfound), liftM_ok]

/-! ## Site links -/

namespace SiteLink

theorem badgesOfArray_texts (badges : List ItemId) :
    badgesOfArray (Json.texts (badges.map ItemId.text)) = .ok badges := by
  have hread : ∀ badge ∈ badges, (do ItemId.parse (← (Json.text badge.text).expectText "badge") :
      Except ArrayError ItemId) = .ok badge := by
    intro badge _
    change (liftM (ItemId.parse badge.text) : Except ArrayError ItemId) = _
    rw [badge.parse_text, liftM_ok]
  rw [Json.texts, List.map_map]
  exact mapM_eq_ok hread

/-- A link is read from members among which its page and its badges are found. -/
theorem ofPageMembers_of_lookup {link : SiteLink} (h : link.Constructed) {members : Members}
    (htitle : members.lookup "title" = some (.text link.page))
    (hbadges : members.lookup "badges" = some (.texts (link.badges.map ItemId.text))) :
    ofPageMembers link.site members = .ok link := by
  have hbadges : members.optionalD "badges" [] badgesOfArray = .ok link.badges :=
    (Members.optionalD_of_lookup hbadges rfl).trans (badgesOfArray_texts link.badges)
  rw [ofPageMembers, hbadges, ok_bind, Members.text_of_lookup htitle, ok_bind, h.create_self,
    liftM_ok]

theorem ofPageMembers_written {link : SiteLink} (h : link.Constructed) :
    ofPageMembers link.site link.pageMembers.written = .ok link := by
  have hkeys : (link.pageMembers.map (·.1)).Nodup := by simp [pageMembers]
  have hlookup := Members.lookup_written hkeys
  exact ofPageMembers_of_lookup h (hlookup "title") (hlookup "badges")

/-- The form of a link outside a list of links gives its site as well. -/
theorem lossless {link : SiteLink} (h : link.Constructed) : Lossless link := by
  let members : Members := ("site", .text link.site) :: link.pageMembers
  have hkeys : (members.map (·.1)).Nodup := by simp [members, pageMembers]
  have hlookup := Members.lookup_written hkeys
  have hsite := Members.text_of_lookup (hlookup "site")
  change (members.written.text "site" >>= fun site => ofPageMembers site members.written) = _
  rw [hsite, ok_bind]
  exact ofPageMembers_of_lookup h (hlookup "title") (hlookup "badges")

end SiteLink

namespace SiteLinks

/-- The members of the form of site links are their entries. -/
theorem toArray_eq_ofMap {links : SiteLinks} (h : links.All LinkRule) :
    toArray links = Json.ofMap (links.mapValues fun link => .ofMembers link.pageMembers) := by
  have hentries : (links.values.map fun link => (link.site, Json.ofMembers link.pageMembers)) =
      (links.mapValues fun link => Json.ofMembers link.pageMembers).toList := by
    change (links.entries.map (·.2)).map _ = links.entries.map _
    rw [List.map_map, List.map_inj_left]
    intro entry member
    have hsite : entry.2.site = entry.1 := h _ _ (SortedMap.get?_eq_some_iff.mpr member)
    change (entry.2.site, Json.ofMembers entry.2.pageMembers) = _
    rw [hsite]
  change Json.ofMembers _ = _
  rw [hentries, Json.ofMembers, SortedMap.ofList_toList, Json.ofMap]

theorem lossless {links : SiteLinks} (h : links.All MadeLinkRule) : Lossless links := by
  have hsites : links.All LinkRule := fun site link hfound => (h site link hfound).1
  rw [Lossless, toArray_eq_ofMap hsites]
  change (links.mapValues fun link => Json.ofMembers link.pageMembers).toList.foldlM _ _ = _
  refine foldlM_toList links ?_
  intro state site link hfound habsent
  obtain ⟨hsite, hlink⟩ := h site link hfound
  change link.site = site at hsite
  subst hsite
  change (SiteLink.ofPageMembers link.site link.pageMembers.written >>= fun link =>
    liftM (SiteLinks.add state link)) = _
  rw [SiteLink.ofPageMembers_written hlink, ok_bind,
    SiteLinks.add_eq_ok_iff.mpr ⟨habsent, rfl⟩, liftM_ok]

end SiteLinks

/-! ## Entities -/

namespace Entity

/-- The members of an entity's form. -/
def members (entity : Entity) : Members :=
  entity.commonMembers ++
    match entity with
    | .item i => [("sitelinks", toArray i.siteLinks)]
    | .property p => [("datatype", .text p.dataType)]

theorem lookup_written (entity : Entity) (name : String) :
    entity.members.written.lookup name = entity.members.lookup name := by
  have hkeys : (entity.members.map (·.1)).Nodup := by
    cases entity <;> simp [members, commonMembers, Fingerprint.members]
  exact Members.lookup_written hkeys name

theorem fingerprint_ofMembers {entity : Entity} (h : entity.fingerprint.Sound) :
    Fingerprint.ofMembers entity.members.written = .ok entity.fingerprint := by
  have hlookup := entity.lookup_written
  have hlabels : entity.members.written.optionalD "labels" .empty ofArray =
      .ok entity.fingerprint.labels :=
    (Members.optionalD_of_lookup (hlookup "labels") rfl).trans (TermList.lossless h.labels)
  have hdescriptions : entity.members.written.optionalD "descriptions" .empty ofArray =
      .ok entity.fingerprint.descriptions :=
    (Members.optionalD_of_lookup (hlookup "descriptions") rfl).trans
      (TermList.lossless h.descriptions)
  have haliases : entity.members.written.optionalD "aliases" .empty ofArray =
      .ok entity.fingerprint.aliases :=
    (Members.optionalD_of_lookup (hlookup "aliases") rfl).trans (AliasGroups.lossless h.aliases)
  rw [Fingerprint.ofMembers, hlabels, ok_bind, hdescriptions, ok_bind, haliases, ok_bind]
  rfl

theorem statementsOfMembers_written (entity : Entity) :
    statementsOfMembers entity.members.written =
      (entity.statements.map toArray).mapM ofArray :=
  Members.optionalD_of_lookup (entity.lookup_written "claims") rfl

theorem idOfArray_text (id : EntityId) : idOfArray (.text id.text) = .ok id := by
  change (liftM (EntityId.parse id.text) : Except ArrayError EntityId) = _
  rw [id.parse_text, liftM_ok]

/-- The id is read back as that of the entity's type. -/
theorem optional_id_written {α : Type} {entity : Entity} {id? : Option α} {text : α → String}
    {read : Json → Except ArrayError α} (hid : entity.id?.map EntityId.text = id?.map text)
    (hread : ∀ id ∈ id?, read (.text (text id)) = .ok id) :
    entity.members.written.optional "id" read = .ok id? := by
  have hwritten : entity.members.written.lookup "id" =
      some (.ofOption (id?.map fun id => .text (text id))) := by
    have htexts := congrArg (Option.map Json.text) hid
    rw [Option.map_map, Option.map_map] at htexts
    rw [entity.lookup_written]
    exact congrArg (fun written => some (Json.ofOption written)) htexts
  exact Members.optional_of_given (Members.given?_of_lookup_ofOption hwritten fun _ _ => rfl)
    hread

end Entity

theorem Item.idOfArray_text (id : ItemId) : Item.idOfArray (.text id.text) = .ok id := by
  change (Entity.idOfArray (.text (EntityId.item id).text) >>= fun id => _) = _
  rw [Entity.idOfArray_text, ok_bind]
  rfl

theorem Property.idOfArray_text (id : PropertyId) :
    Property.idOfArray (.text id.text) = .ok id := by
  change (Entity.idOfArray (.text (EntityId.property id).text) >>= fun id => _) = _
  rw [Entity.idOfArray_text, ok_bind]
  rfl

/-- An item is read back if its statements are. -/
theorem Item.ofMembers_written {i : Item} (hterms : i.fingerprint.Sound)
    (hlinks : i.siteLinks.All MadeLinkRule) :
    Item.ofMembers (Entity.item i).members.written =
      ((i.statements.map toArray).mapM ofArray >>= fun statements =>
        .ok { i with statements }) := by
  have hlookup := (Entity.item i).lookup_written
  have htexts : (Entity.item i).id?.map EntityId.text = i.id?.map ItemId.text := by
    change (i.id?.map EntityId.item).map EntityId.text = _
    rw [Option.map_map]
    rfl
  have hid := Entity.optional_id_written htexts fun id _ => Item.idOfArray_text id
  have hfingerprint : Fingerprint.ofMembers (Entity.item i).members.written =
      .ok i.fingerprint := Entity.fingerprint_ofMembers hterms
  have hstatements := Entity.statementsOfMembers_written (.item i)
  have hlinks : (Entity.item i).members.written.optionalD "sitelinks" .empty ofArray =
      .ok i.siteLinks :=
    (Members.optionalD_of_lookup (hlookup "sitelinks") rfl).trans (SiteLinks.lossless hlinks)
  rw [Item.ofMembers, hid, ok_bind, hfingerprint, ok_bind, hstatements, hlinks]
  rfl

theorem Property.ofMembers_written {p : Property} (hterms : p.fingerprint.Sound) :
    Property.ofMembers (Entity.property p).members.written =
      ((p.statements.map toArray).mapM ofArray >>= fun statements =>
        .ok { p with statements }) := by
  have hlookup := (Entity.property p).lookup_written
  have htexts : (Entity.property p).id?.map EntityId.text = p.id?.map PropertyId.text := by
    change (p.id?.map EntityId.property).map EntityId.text = _
    rw [Option.map_map]
    rfl
  have hid := Entity.optional_id_written htexts fun id _ => Property.idOfArray_text id
  have hdataType := Members.text_of_lookup (hlookup "datatype")
  have hfingerprint : Fingerprint.ofMembers (Entity.property p).members.written =
      .ok p.fingerprint := Entity.fingerprint_ofMembers hterms
  have hstatements := Entity.statementsOfMembers_written (.property p)
  rw [Property.ofMembers, hdataType, ok_bind, hid, ok_bind, hfingerprint, ok_bind, hstatements]
  rfl

namespace Entity

/-- Reading an entity's own form is reading its statements' forms. -/
theorem ofArray_toArray {entity : Entity} (hterms : entity.fingerprint.Sound)
    (hlinks : entity.siteLinks.All MadeLinkRule) :
    (ofArray (toArray entity) : Except ArrayError Entity) =
      ((entity.statements.map toArray).mapM ofArray >>= fun statements =>
        .ok (entity.setStatements statements)) := by
  have hkind := Members.text_of_lookup (entity.lookup_written "type")
  change (entity.members.written.text "type" >>= fun kind => _) = _
  rw [hkind, ok_bind, EntityType.ofName?_name]
  cases entity with
  | item i =>
      change (Item.ofMembers (Entity.item i).members.written >>= fun i =>
        .ok (Entity.item i)) = _
      rw [Item.ofMembers_written hterms hlinks]
      change _ = ((i.statements.map toArray).mapM ofArray >>= fun statements =>
        .ok (Entity.item { i with statements }))
      cases ((i.statements.map toArray).mapM ofArray : Except ArrayError StatementList) <;> rfl
  | property p =>
      change (Property.ofMembers (Entity.property p).members.written >>= fun p =>
        .ok (Entity.property p)) = _
      rw [Property.ofMembers_written hterms]
      change _ = ((p.statements.map toArray).mapM ofArray >>= fun statements =>
        .ok (Entity.property { p with statements }))
      cases ((p.statements.map toArray).mapM ofArray : Except ArrayError StatementList) <;> rfl

theorem lossless {entity : Entity} (hterms : entity.fingerprint.Sound)
    (hlinks : entity.siteLinks.All MadeLinkRule)
    (hstatements : ∀ statement ∈ entity.statements, Lossless statement) : Lossless entity := by
  rw [Lossless, ofArray_toArray hterms hlinks, mapM_eq_ok hstatements, ok_bind,
    setStatements_self]

theorem statements_ofMembers {members : Members} {statements : StatementList}
    (hfinite : members.Finite) (h : statementsOfMembers members = .ok statements) :
    ∀ statement ∈ statements, Lossless statement := by
  have hread : ∀ array value, array.Finite → statementsOfArray array = .ok value →
      ∀ statement ∈ value, Lossless statement := by
    intro array value harray hread
    obtain ⟨elements, helements, hread⟩ := bind_eq_ok.mp hread
    have helements := harray.of_expectArray helements
    exact mapM_keeps (fun element member statement =>
      Statement.lossless_ofArray (helements element member)) hread
  exact hfinite.of_optionalD (List.forall_mem_nil _) hread h

theorem lossless_ofArray {array : Json} {entity : Entity} (hfinite : array.Finite)
    (h : ofArray array = .ok entity) : Lossless entity := by
  have hmade := constructed_ofArray h
  refine lossless hmade.fingerprint.sound hmade.siteLinks.all ?_
  obtain ⟨members, hmembers, h⟩ := bind_eq_ok.mp h
  obtain ⟨kind, -, h⟩ := bind_eq_ok.mp h
  have hmembers := hfinite.of_expectObject hmembers
  split at h
  next =>
    obtain ⟨i, hitem, h⟩ := bind_eq_ok.mp h
    cases h
    unfold Item.ofMembers at hitem
    obtain ⟨id?, -, hitem⟩ := bind_eq_ok.mp hitem
    obtain ⟨fingerprint, -, hitem⟩ := bind_eq_ok.mp hitem
    obtain ⟨statements, hstatements, hitem⟩ := bind_eq_ok.mp hitem
    obtain ⟨links, -, hitem⟩ := bind_eq_ok.mp hitem
    cases hitem
    exact statements_ofMembers hmembers hstatements
  next =>
    obtain ⟨p, hproperty, h⟩ := bind_eq_ok.mp h
    cases h
    unfold Property.ofMembers at hproperty
    obtain ⟨dataType, -, hproperty⟩ := bind_eq_ok.mp hproperty
    obtain ⟨id?, -, hproperty⟩ := bind_eq_ok.mp hproperty
    obtain ⟨fingerprint, -, hproperty⟩ := bind_eq_ok.mp hproperty
    obtain ⟨statements, hstatements, hproperty⟩ := bind_eq_ok.mp hproperty
    cases hproperty
    exact statements_ofMembers hmembers hstatements
  next => cases h

end Entity

end KnowledgeBase
