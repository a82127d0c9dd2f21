import KnowledgeBase.Proofs.ArrayForm.Entity

/-!
The array form of entities loses nothing but identifiers that are too long. This holds of
every entity that the operations of the model can make from finite coordinates and of every
entity that is read from a form, since a form has no other numbers.
-/

namespace KnowledgeBase.Entity

open ArrayForm

/-- Whether all coordinates in the statements of an entity are finite. -/
def Finite (entity : Entity) : Prop := ∀ statement ∈ entity.statements, statement.Finite

namespace Finite

variable {entity : Entity} (h : entity.Finite) (hmade : entity.Constructed)
include h hmade

theorem lossless (hguids : ∀ statement ∈ entity.statements, statement.GuidFits) :
    Lossless entity := by
  refine Entity.lossless hmade.fingerprint.sound hmade.siteLinks.all ?_
  intro statement member
  exact (h statement member).lossless (hmade.statements statement member)
    (hguids statement member)

/-- The first identifier that is too long decides the error. -/
theorem ofArray_of_long_guid {before after : StatementList} {statement : Statement}
    {guid : String} (hsplit : entity.statements = before ++ statement :: after)
    (hbefore : ∀ earlier ∈ before, earlier.GuidFits) (hguid : statement.guid? = some guid)
    (hlong : maxGuidBytes < guid.utf8ByteSize) :
    (ofArray (toArray entity) : Except ArrayError Entity) =
      .error (.lengthExceedsLimit "g" guid.utf8ByteSize maxGuidBytes) := by
  have hmember : statement ∈ entity.statements := by simp [hsplit]
  have hearlier : ∀ earlier ∈ before, Lossless earlier := by
    intro earlier member
    have hentity : earlier ∈ entity.statements := by simp [hsplit, member]
    exact (h earlier hentity).lossless (hmade.statements earlier hentity) (hbefore earlier member)
  have hfinite := h statement hmember
  have hrefused := Statement.ofArray_of_long_guid hfinite.lossless_mainSnak
    (hfinite.lossless_qualifiers (hmade.statements statement hmember)) hguid hlong
  rw [ofArray_toArray hmade.fingerprint.sound hmade.siteLinks.all, hsplit,
    mapM_eq_error hearlier hrefused, error_bind]

end Finite

/-- An entity that the operations of the model make from finite coordinates is read back from
its array form as it is, so no hash changes. Only an identifier beyond the limit is refused, the
first one in the order of the statements. What is read from any form is read back from its own
form: reading brings a form into order once and for all. -/
theorem arrayForm_lossless :
    (∀ entity : Entity, entity.Constructed → entity.Finite →
      ((∀ statement ∈ entity.statements, statement.GuidFits) →
        ofArray (toArray entity) = .ok entity ∧
          ∀ found : Entity, ofArray (toArray entity) = .ok found →
            found.hash = entity.hash ∧
              found.statements.map Statement.hash = entity.statements.map Statement.hash) ∧
        ∀ before statement after guid, entity.statements = before ++ statement :: after →
          (∀ earlier ∈ before, earlier.GuidFits) → statement.guid? = some guid →
          maxGuidBytes < guid.utf8ByteSize →
          (ofArray (toArray entity) : Except ArrayError Entity) =
            .error (.lengthExceedsLimit "g" guid.utf8ByteSize maxGuidBytes)) ∧
      ∀ (array : Json) (entity : Entity), array.Finite → ofArray array = .ok entity →
        ofArray (toArray entity) = .ok entity := by
  refine ⟨?_, fun array entity => lossless_ofArray⟩
  intro entity hmade hfinite
  constructor
  · intro hguids
    have hlossless : ofArray (toArray entity) = .ok entity := hfinite.lossless hmade hguids
    refine ⟨hlossless, ?_⟩
    intro found hfound
    have hsame : found = entity := Except.ok.inj (hfound.symm.trans hlossless)
    rw [hsame]
    exact ⟨rfl, rfl⟩
  · intro before statement after guid hsplit hbefore hguid hlong
    exact hfinite.ofArray_of_long_guid hmade hsplit hbefore hguid hlong

/-! ## A capital -/

def capitalBadges : List ItemId := [.first, ⟨2, by decide, by decide⟩]

def location : PropertyId := ⟨625, by decide, by decide⟩

/-- A place on the prime meridian, given with a negative zero, with a qualifier that was added
twice. -/
def locatedStatement (guid : String) : Statement :=
  let source : PropertyId := ⟨248, by decide, by decide⟩
  let place : DataValue := .coordinate
    ⟨⟨0x404a43d70a3d70a4⟩, ⟨0x8000000000000000⟩, none, some .zero, earthGlobe⟩
  let qualified := (((StatementBuilder.ofSnak (.value location place)).qualifier
    (.noValue source)).qualifier (.someValue location)).qualifier (.noValue source)
  let referenced := qualified.reference [.someValue source, .noValue location]
  ((referenced.rank .preferred).guid guid).build

/-- An item with two aliases, a link with two badges and a statement for each identifier. -/
def capital (guids : List String) : Entity := .item {
  id? := some ⟨64, by decide, by decide⟩
  fingerprint := {
    labels := (SortedMap.empty.insert "de" "Berlin").insert "en" "Berlin"
    aliases := SortedMap.empty.insert "en" ["Spree-Athen", "Berlin, Germany"] }
  statements := guids.map locatedStatement
  siteLinks := SiteLinks.set .empty ⟨"enwiki", "Berlin", capitalBadges⟩ }

theorem constructed_capital (guids : List String) : (capital guids).Constructed where
  fingerprint := by
    have hshort : "Berlin".length ≤ maxTermLength := by decide
    constructor
    · exact (TermList.Constructed.empty.set (TermList.set_of_le hshort)).set
        (TermList.set_of_le hshort)
    · exact .empty
    · have hset : AliasGroups.set .empty "en" ["Spree-Athen", "Berlin, Germany", "Spree-Athen"] =
          .ok (capital guids).fingerprint.aliases := rfl
      exact AliasGroups.Constructed.empty.set hset
  statements := by
    intro statement member
    obtain ⟨guid, -, rfl⟩ := List.mem_map.mp member
    apply StatementBuilder.constructed_guid
    apply StatementBuilder.constructed_rank
    apply StatementBuilder.constructed_reference
    iterate 3 apply StatementBuilder.constructed_qualifier
    exact StatementBuilder.constructed_ofSnak _
  siteLinks := by
    refine SiteLinks.Constructed.empty.set ?_
    exact ⟨"enwiki", "Berlin", capitalBadges.reverse, rfl⟩

theorem finite_capital (guids : List String) : (capital guids).Finite := by
  intro statement member snak hsnak value hvalue
  obtain ⟨guid, -, rfl⟩ := List.mem_map.mp member
  change snak ∈ [Snak.value _ _, .noValue _, .someValue _, .someValue _, .noValue _] at hsnak
  simp only [List.mem_cons, List.not_mem_nil, or_false] at hsnak
  rcases hsnak with rfl | rfl | rfl | rfl | rfl
  · cases hvalue
    constructor
    · decide
    · decide
    · simp
    · rintro _ ⟨⟩
      decide
  all_goals cases hvalue

/-- An identifier of 256 bytes. -/
def longGuid : String := String.ofList (List.replicate 256 'x')

/-- A form that leaves out sections, gives the latitude as an integer, repeats a qualifier and
writes ids in lower case. -/
def looseForm : Json :=
  let place := Json.object [("type", .text "globecoordinate"), ("value", .object [
    ("latitude", .int 52), ("longitude", .float ⟨0x8000000000000000⟩), ("precision", .null),
    ("globe", .text earthGlobe)])]
  .object [("type", .text "item"), ("labels", .null),
    ("sitelinks", .object [("enwiki", .object [("title", .text "Berlin"),
      ("badges", .array [.text "q2", .text "Q1", .text "Q2"])])]),
    ("claims", .array [.object [("type", .text "claim"),
      ("m", .array [.text "value", .text "p625", place]),
      ("q", .array [.array [.text "novalue", .text "P625"],
        .array [.text "novalue", .text "p625"]])]])]

/-- What the loose form is read as. -/
def looseCapital : Entity := .item {
  statements := [{
    claim := {
      mainSnak := .value location (.coordinate
        ⟨⟨0x404a000000000000⟩, ⟨0x8000000000000000⟩, none, none, earthGlobe⟩)
      qualifiers := ⟨[.noValue location]⟩ } }]
  siteLinks := SiteLinks.set .empty ⟨"enwiki", "Berlin", capitalBadges⟩ }

theorem finite_looseForm : looseForm.Finite := by
  have hzero : (⟨0x8000000000000000⟩ : Binary64).isFinite = true := by decide
  simp [looseForm, hzero]

theorem arrayForm_of_capitals :
    (capital ["Q64$1"]).Constructed ∧ (capital ["Q64$1"]).Finite ∧
      (locatedStatement "Q64$1").GuidFits ∧
      ofArray (toArray (capital ["Q64$1"])) = .ok (capital ["Q64$1"]) ∧
      (capital ["Q64$1", longGuid, longGuid ++ "x"]).Constructed ∧
      (capital ["Q64$1", longGuid, longGuid ++ "x"]).Finite ∧
      (ofArray (toArray (capital ["Q64$1", longGuid, longGuid ++ "x"])) :
        Except ArrayError Entity) = .error (.lengthExceedsLimit "g" 256 255) ∧
      looseForm.Finite ∧ ofArray looseForm = .ok looseCapital ∧
      ofArray (toArray looseCapital) = .ok looseCapital := by
  have hshort : (locatedStatement "Q64$1").GuidFits := by
    rintro _ ⟨⟩
    decide
  have hsize : longGuid.utf8ByteSize = 256 := by decide +kernel
  have hwritten := arrayForm_lossless.1 (capital ["Q64$1"]) (constructed_capital _)
    (finite_capital _)
  have hlong := arrayForm_lossless.1 (capital ["Q64$1", longGuid, longGuid ++ "x"])
    (constructed_capital _) (finite_capital _)
  have hread : ofArray looseForm = .ok looseCapital := by rfl
  have hagain := arrayForm_lossless.2 looseForm looseCapital finite_looseForm hread
  refine ⟨constructed_capital _, finite_capital _, hshort, ?_, constructed_capital _,
    finite_capital _, ?_, finite_looseForm, hread, hagain⟩
  · refine (hwritten.1 ?_).1
    intro statement member
    rw [List.mem_singleton.mp member]
    exact hshort
  · have hrefused := hlong.2 [locatedStatement "Q64$1"] (locatedStatement longGuid)
      [locatedStatement (longGuid ++ "x")] longGuid rfl ?_ rfl ?_
    · rw [hrefused, hsize]
      rfl
    · intro earlier member
      rw [List.mem_singleton.mp member]
      exact hshort
    · rw [hsize]
      decide

end KnowledgeBase.Entity
