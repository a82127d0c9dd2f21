import KnowledgeBase.ArrayForm.Diff
import KnowledgeBase.Proofs.ArrayForm.Diff
import KnowledgeBase.Proofs.Json
import KnowledgeBase.Proofs.Json.Reading

/-!
Array forms survive being written as a text. Their integers fit a word, their objects list the
members in order, and only a few of them are open at once: the form of a statement has six, that
of an entity eight and that of a difference of entities nine. What is left to ask for is that the
doubles in coordinates are read as they are written.
-/

namespace KnowledgeBase

open ArrayForm

/-- Whether the written form of a double is read as the same double. -/
def Binary64.ReadBack (x : Binary64) : Prop :=
  Json.parse? (Json.float x).render = some (.float x)

instance (x : Binary64) : Decidable x.ReadBack :=
  match h : Json.parse? (Json.float x).render with
  | some (.float y) => decidable_of_iff (y = x) (by simp [Binary64.ReadBack, h])
  | none | some .null | some (.bool _) | some (.int _) | some (.text _) | some (.array _)
  | some (.object _) => isFalse (by simp [Binary64.ReadBack, h])

namespace Json

attribute [simp] Readable.null Readable.bool Readable.text

variable {nesting : Nat}

theorem readable_ofMembers {members : Members}
    (h : ∀ member ∈ members, member.2.Readable nesting) :
    (ofMembers members).Readable (nesting + 1) :=
  .object (SortedMap.ofList members) fun member hmember =>
    h member (SortedMap.mem_of_mem_ofList hmember)

theorem readable_ofOption {value : Option Json} (h : ∀ found ∈ value, found.Readable nesting) :
    (ofOption value).Readable nesting := by
  cases value with
  | none => exact .null nesting
  | some found => exact h found rfl

theorem readable_array_map {α : Type} [ArrayForm α] {values : List α}
    (h : ∀ value ∈ values, (toArray value).Readable nesting) :
    (array (values.map toArray)).Readable (nesting + 1) :=
  .array fun _ member => by
    obtain ⟨value, hvalue, rfl⟩ := List.mem_map.mp member
    exact h value hvalue

@[simp] theorem readable_texts (values : List String) :
    (texts values).Readable (nesting + 1) :=
  .array fun _ member => by
    obtain ⟨value, -, rfl⟩ := List.mem_map.mp member
    exact .text nesting value

/-- A number that is small enough for every word. -/
theorem readable_int {value : Int} (hlow : -(2 ^ 31) ≤ value) (hhigh : value < 2 ^ 32) :
    (int value).Readable nesting := by
  have hmin : Int64.minValue.toInt = -(2 ^ 63) := by decide
  have hsize : UInt64.size = 2 ^ 64 := rfl
  exact .int nesting ⟨by omega, by omega⟩

theorem readable_ofBinary64 {x : Binary64} (h : x.ReadBack) :
    (ofBinary64 x).Readable nesting := by
  unfold ofBinary64
  split
  · exact .float nesting h
  · exact .null nesting

end Json

/-! ## Data values -/

def Coordinate.doubles (place : Coordinate) : List Binary64 :=
  [place.latitude, place.longitude] ++ place.altitude.toList ++ place.precision.toList

def DataValue.doubles : DataValue → List Binary64
  | .coordinate place => place.doubles
  | _ => []

section DataValues

variable {nesting : Nat}

theorem Quantity.readable (q : Quantity) :
    ∀ member ∈ q.members, member.2.Readable nesting := by
  obtain ⟨amount, unit, upper?, lower?⟩ := q
  cases upper? <;> cases lower? <;> simp [members]

theorem TimePoint.readable (t : TimePoint) :
    ∀ member ∈ t.members, member.2.Readable nesting := by
  have hnatural {n : Nat} (h : n < 2 ^ 32) : (Json.int n).Readable nesting :=
    Json.readable_int (by omega) (by omega)
  have hzone : (Json.int t.timezone.toInt).Readable nesting := by
    have hlow := t.timezone.le_toInt
    have hhigh := t.timezone.toInt_lt
    exact Json.readable_int (by omega) (by omega)
  have hbefore := hnatural t.before.toNat_lt
  have hafter := hnatural t.after.toNat_lt
  have hprecision := hnatural (Nat.lt_trans t.precision.toNat_lt (by decide))
  simp [members, hzone, hbefore, hafter, hprecision]

theorem Coordinate.readable {place : Coordinate} (h : ∀ x ∈ place.doubles, x.ReadBack) :
    ∀ member ∈ place.members, member.2.Readable nesting := by
  have hoptional {part : Option Binary64} (hpart : ∀ x ∈ part, x.ReadBack) :
      (Json.ofOption (part.map .ofBinary64)).Readable nesting := by
    refine Json.readable_ofOption ?_
    intro value hvalue
    obtain ⟨x, hx, rfl⟩ := Option.map_eq_some_iff.mp hvalue
    exact Json.readable_ofBinary64 (hpart x hx)
  simp only [doubles, List.forall_mem_append, List.forall_mem_cons, Option.mem_toList] at h
  obtain ⟨⟨⟨hlatitude, hlongitude, -⟩, haltitude⟩, hprecision⟩ := h
  simp [members, Json.readable_ofBinary64 hlatitude, Json.readable_ofBinary64 hlongitude,
    hoptional haltitude, hoptional hprecision]

theorem EntityId.readable (id : EntityId) : ∀ member ∈ id.members, member.2.Readable nesting := by
  have hbound : id.number ≤ 2147483647 := id.number_le
  have hnumber : (Json.int id.number).Readable nesting :=
    Json.readable_int (by omega) (by omega)
  simp [members, hnumber]

theorem DataValue.readable_payload {value : DataValue} (h : ∀ x ∈ value.doubles, x.ReadBack) :
    value.payload.Readable (nesting + 1) := by
  cases value with
  | string value => exact .text _ value
  | monolingualText language text => exact Json.readable_ofMembers (by simp)
  | quantity q => exact Json.readable_ofMembers q.readable
  | time t => exact Json.readable_ofMembers t.readable
  | coordinate place => exact Json.readable_ofMembers (Coordinate.readable h)
  | entityId id => exact Json.readable_ofMembers id.readable

theorem DataValue.readable {value : DataValue} (h : ∀ x ∈ value.doubles, x.ReadBack) :
    (toArray value).Readable (nesting + 2) := by
  refine Json.readable_ofMembers ?_
  simpa using readable_payload h

end DataValues

/-! ## Statements -/

/-- Whether the doubles in a snak are read as they are written. -/
def Snak.ReadBack (snak : Snak) : Prop :=
  ∀ value ∈ snak.dataValue?, ∀ x ∈ value.doubles, x.ReadBack

def Statement.ReadBack (statement : Statement) : Prop :=
  ∀ snak ∈ statement.allSnaks, snak.ReadBack

section Statements

variable {nesting : Nat}

theorem Snak.readable {snak : Snak} (h : snak.ReadBack) :
    (toArray snak).Readable (nesting + 3) := by
  refine .array ?_
  intro part hpart
  rcases List.mem_append.mp hpart with htext | hvalue
  · simp only [List.mem_cons, List.not_mem_nil, or_false] at htext
    rcases htext with rfl | rfl <;> exact .text _ _
  · obtain ⟨value, hfound, rfl⟩ := Option.map_eq_some_iff.mp (Option.mem_toList.mp hvalue)
    exact DataValue.readable (h value hfound)

theorem SnakList.readable {list : SnakList} (h : ∀ snak ∈ list.snaks, snak.ReadBack) :
    (toArray list).Readable (nesting + 4) :=
  Json.readable_array_map fun snak member => Snak.readable (h snak member)

theorem ReferenceList.readable {list : ReferenceList}
    (h : ∀ reference ∈ list.references, ∀ snak ∈ reference.snaks.snaks, snak.ReadBack) :
    (toArray list).Readable (nesting + 5) :=
  Json.readable_array_map fun reference member => SnakList.readable (h reference member)

theorem Statement.readable {statement : Statement} (h : statement.ReadBack) :
    (toArray statement).Readable (nesting + 6) := by
  have hmain : (toArray statement.mainSnak).Readable (nesting + 5) :=
    Snak.readable (h _ (List.mem_append_left _ List.mem_cons_self))
  have hqualifiers : (toArray statement.qualifiers).Readable (nesting + 5) :=
    SnakList.readable fun snak member =>
      h snak (List.mem_append_left _ (List.mem_cons_of_mem _ member))
  have hreferences : (toArray statement.references).Readable (nesting + 5) :=
    ReferenceList.readable fun reference hreference snak member =>
      h snak (List.mem_append_right _ (List.mem_flatMap.mpr ⟨reference, hreference, member⟩))
  have hguid : (Json.ofOption (statement.guid?.map .text)).Readable (nesting + 5) := by
    refine Json.readable_ofOption ?_
    intro value hvalue
    obtain ⟨guid, -, rfl⟩ := Option.map_eq_some_iff.mp hvalue
    exact .text _ guid
  have hrank : (Json.int statement.rank.number).Readable (nesting + 5) := by
    cases statement.rank <;> exact Json.readable_int (by decide) (by decide)
  change (Json.ofMembers statement.members).Readable (nesting + 5 + 1)
  refine Json.readable_ofMembers ?_
  simp only [Statement.members, Claim.members, List.forall_mem_append, List.forall_mem_cons]
  exact ⟨⟨.text _ _, hmain, hqualifiers, hguid, List.forall_mem_nil _⟩, hrank, hreferences,
    List.forall_mem_nil _⟩

end Statements

/-! ## Entities -/

section Entities

variable {nesting : Nat}

theorem TermList.readable (terms : TermList) : (toArray terms).Readable (nesting + 1) := by
  refine .object (terms.mapValues .text) ?_
  intro member hmember
  obtain ⟨entry, -, rfl⟩ := List.mem_map.mp hmember
  exact .text _ entry.2

theorem AliasGroups.readable (groups : AliasGroups) :
    (toArray groups).Readable (nesting + 2) := by
  refine .object (groups.mapValues Json.texts) ?_
  intro member hmember
  obtain ⟨entry, -, rfl⟩ := List.mem_map.mp hmember
  exact Json.readable_texts entry.2

theorem SiteLink.readable_pageMembers (link : SiteLink) :
    ∀ member ∈ link.pageMembers, member.2.Readable (nesting + 1) := by
  simp [pageMembers]

theorem SiteLink.readable (link : SiteLink) : (toArray link).Readable (nesting + 2) := by
  refine Json.readable_ofMembers (List.forall_mem_cons.mpr ⟨.text _ _, ?_⟩)
  exact link.readable_pageMembers

theorem SiteLinks.readable (links : SiteLinks) : (toArray links).Readable (nesting + 3) := by
  refine Json.readable_ofMembers ?_
  intro member hmember
  obtain ⟨link, -, rfl⟩ := List.mem_map.mp hmember
  exact Json.readable_ofMembers link.readable_pageMembers

/-- Whether the doubles in an entity are read as they are written. -/
def Entity.ReadBack (entity : Entity) : Prop :=
  ∀ statement ∈ entity.statements, statement.ReadBack

theorem Entity.readable {entity : Entity} (h : entity.ReadBack) :
    (toArray entity).Readable (nesting + 8) := by
  have hid : (Json.ofOption (entity.id?.map fun id => .text id.text)).Readable (nesting + 7) := by
    refine Json.readable_ofOption ?_
    intro value hvalue
    obtain ⟨id, -, rfl⟩ := Option.map_eq_some_iff.mp hvalue
    exact .text _ id.text
  have hclaims : (Json.array (entity.statements.map toArray)).Readable (nesting + 7) :=
    Json.readable_array_map fun statement member => Statement.readable (h statement member)
  refine Json.readable_ofMembers ?_
  simp only [commonMembers, Fingerprint.members, List.forall_mem_append, List.forall_mem_cons]
  refine ⟨⟨⟨TermList.readable _, TermList.readable _, AliasGroups.readable _,
    List.forall_mem_nil _⟩, .text _ _, hid, hclaims, List.forall_mem_nil _⟩, ?_⟩
  cases entity with
  | item i => exact List.forall_mem_singleton.mpr i.siteLinks.readable
  | property p => exact List.forall_mem_singleton.mpr (.text _ p.dataType)

/-- Entities that are written alike have one array form. -/
theorem Entity.toArray_eq_of_render {first second : Entity} (h : first.ReadBack)
    (h' : second.ReadBack) (hrender : (toArray first).render = (toArray second).render) :
    (toArray first : Json) = toArray second := by
  have hread := (Entity.readable h).parse?_render
  rw [hrender, (Entity.readable h').parse?_render] at hread
  exact (Option.some.inj hread).symm

end Entities

/-! ## Differences -/

section Differences

variable {nesting : Nat} {α : Type} [ArrayForm α]

theorem DiffOp.readable {op : DiffOp α}
    (h : op.All fun value => (toArray value).Readable nesting) :
    (toArray op).Readable (nesting + 1) := by
  refine Json.readable_ofMembers ?_
  have hpart {name : String} {value? : Option α}
      (hvalue : ∀ value ∈ value?, (toArray value).Readable nesting) :
      ∀ member ∈ (value?.map fun value => (name, toArray value)).toList,
        member.2.Readable nesting := by
    intro member hmember
    obtain ⟨value, hfound, rfl⟩ := Option.map_eq_some_iff.mp (Option.mem_toList.mp hmember)
    exact hvalue value hfound
  simp only [members, List.forall_mem_append, List.forall_mem_cons, Json.Readable.text, true_and]
  exact ⟨hpart h.old, hpart h.new⟩

theorem MapDiff.readable {diff : MapDiff α}
    (h : diff.All fun value => (toArray value).Readable nesting) :
    (toArray diff).Readable (nesting + 2) := by
  refine .object (diff.mapValues toArray) ?_
  intro member hmember
  obtain ⟨entry, hentry, rfl⟩ := List.mem_map.mp hmember
  exact DiffOp.readable (h entry.1 entry.2 (SortedMap.get?_eq_some_iff.mpr hentry))

theorem EntityDiff.readable_sectionMembers {part : DiffSection} {ops : MapDiff α}
    (h : ops.All fun value => (toArray value).Readable nesting) :
    ∀ member ∈ sectionMembers part ops, member.2.Readable (nesting + 2) := by
  unfold sectionMembers
  split
  · exact List.forall_mem_nil _
  · exact List.forall_mem_singleton.mpr (MapDiff.readable h)

end Differences

/-- Whether the doubles in a difference are read as they are written. -/
def EntityDiff.ReadBack (diff : EntityDiff) : Prop := diff.claims.All Statement.ReadBack

theorem EntityDiff.readable {nesting : Nat} {diff : EntityDiff} (h : diff.ReadBack) :
    (toArray diff).Readable (nesting + 9) := by
  have htexts {ops : MapDiff String} :
      ops.All fun value => (toArray value).Readable (nesting + 6) :=
    fun _ _ _ => ⟨fun text _ => .text _ text, fun text _ => .text _ text⟩
  have haliases : diff.aliases.All fun value => (toArray value).Readable (nesting + 6) :=
    fun _ _ _ =>
    ⟨fun texts _ => Json.readable_texts texts, fun texts _ => Json.readable_texts texts⟩
  have hlinks : diff.siteLinks.All fun value => (toArray value).Readable (nesting + 6) :=
    fun _ _ _ => ⟨fun link _ => link.readable, fun link _ => link.readable⟩
  have hclaims : diff.claims.All fun value => (toArray value).Readable (nesting + 6) :=
    h.imp fun _ => Statement.readable
  refine Json.readable_ofMembers ?_
  simp only [members, List.forall_mem_append, List.forall_mem_cons, Json.Readable.text, true_and]
  exact ⟨⟨⟨⟨readable_sectionMembers htexts, readable_sectionMembers htexts⟩,
    readable_sectionMembers haliases⟩, readable_sectionMembers hclaims⟩,
    readable_sectionMembers hlinks⟩

end KnowledgeBase
