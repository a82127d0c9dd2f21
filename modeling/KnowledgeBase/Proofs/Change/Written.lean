import KnowledgeBase.Change.Written
import KnowledgeBase.Proofs.ArrayForm.Readable

/-!
The written form of a change is read as the change. Its fields come in the order in which they
are written, each of them is read once, and its revision and time are any words at all. So it
is the difference alone that decides whether a change is read back.
-/

namespace KnowledgeBase.Change

open ArrayForm

theorem legible_toJson {change : Change} (h : change.diff.ReadBack) :
    change.toJson.Legible := by
  have hword {n : Int} (hlow : -(2 ^ 63) ≤ n) (hhigh : n < 2 ^ 64) : (Json.int n).Legible := by
    have hmin : Int64.minValue.toInt = -(2 ^ 63) := by decide
    have hsize : UInt64.size = 2 ^ 64 := rfl
    exact .int ⟨by omega, by omega⟩
  have hrevision : (Json.int change.revision.toNat).Legible := by
    have hbound := change.revision.toNat_lt
    exact hword (by omega) (by omega)
  have htimestamp : (Json.int change.timestamp.toInt).Legible := by
    have hlow := change.timestamp.le_toInt
    have hhigh := change.timestamp.toInt_lt
    exact hword (by omega) (by omega)
  have hdiff : (toArray change.diff).Readable 9 := EntityDiff.readable h
  refine .object ?_
  simp only [List.forall_mem_cons]
  exact ⟨.text _, .text _, hrevision, htimestamp, hdiff.legible, List.forall_mem_nil _⟩

section Fields

theorem parsed_entity (source : Source) (id : EntityId) :
    FieldReader.parsed EntityId.parse source (.leaf (some (.text id.text))) = .ok id := by
  change (EntityId.parse id.text).mapError _ = _
  rw [id.parse_text]
  rfl

theorem variant_action (action : ChangeAction) :
    FieldReader.variant actions .text (.leaf (some (.text action.name))) = .ok action := by
  cases action <;> rfl

theorem unsigned64_toNat (source : Source) (n : UInt64) :
    FieldReader.unsigned64 source (.leaf (some (.int n.toNat))) = .ok n := by
  have hbound := n.toNat_lt
  have hsize : (UInt64.size : Int) = 2 ^ 64 := rfl
  have hinteger : FieldReader.integer "u64" 0 (UInt64.size - 1) source
      (.leaf (some (.int n.toNat))) = .ok (n.toNat : Int) := if_pos ⟨by omega, by omega⟩
  unfold FieldReader.unsigned64
  rw [hinteger, ok_bind]
  exact congrArg Except.ok (UInt64.ofNat_toNat)

theorem signed64_toInt (source : Source) (n : Int64) :
    FieldReader.signed64 source (.leaf (some (.int n.toInt))) = .ok n := by
  have hlow : Int64.minValue.toInt ≤ n.toInt := n.minValue_le_toInt
  have hhigh : n.toInt ≤ Int64.maxValue.toInt := n.toInt_le
  have hinteger : FieldReader.integer "i64" Int64.minValue.toInt Int64.maxValue.toInt source
      (.leaf (some (.int n.toInt))) = .ok n.toInt := if_pos ⟨hlow, hhigh⟩
  unfold FieldReader.signed64
  rw [hinteger, ok_bind]
  exact congrArg Except.ok n.ofInt_toInt

theorem array_diff {diff : EntityDiff} (h : diff.ReadBack) :
    FieldReader.array .text (Draft.ofJson (toArray diff)) =
      (ofArray (toArray diff) : Except ArrayError EntityDiff).mapError .array := by
  have hreadable : (toArray diff).Readable 126 := EntityDiff.readable h
  have hvalue : (Draft.ofJson (toArray diff)).toJson? Source.text.nesting =
      some (toArray diff) := hreadable.toJson?_ofJson
  unfold FieldReader.array
  rw [hvalue]

end Fields

/-- A field that was not there before is taken in as it is read. -/
theorem putMember_new {parts : Parts} {name : String} {value : Draft}
    {result : Except ReadError Parts} (hnew : parts.has name = false)
    (hput : parts.put .text name value = some result) :
    shape.putMember .text parts (some name) value = result := by
  have hnew : shape.has parts name = false := hnew
  have hput : shape.put .text parts name value = some result := hput
  simp only [RecordShape.putMember, hnew, hput]
  cases result <;> rfl

theorem putMember_of_read {α : Type} {parts : Parts} {name : String} {value : Draft}
    {reader : FieldReader α} {found : α} (take : α → Parts) (hnew : parts.has name = false)
    (hput : parts.put .text name value =
      some (reader .text value >>= fun found => .ok (take found)))
    (hread : reader .text value = .ok found) :
    shape.putMember .text parts (some name) value = .ok (take found) := by
  rw [hread] at hput
  exact putMember_new hnew hput

/-- A change is read from its own text as its difference is read from its own array form. -/
theorem ofText_render {change : Change} (h : change.diff.ReadBack) :
    ofText change.toJson.render =
      ((ofArray (toArray change.diff) : Except ArrayError EntityDiff).mapError .array).map
        fun diff => { change with diff } := by
  obtain ⟨entity, action, revision, timestamp, diff⟩ := change
  have hrecord : shape.read .text
      (Draft.ofJson (toJson ⟨entity, action, revision, timestamp, diff⟩)) =
      ((ofArray (toArray diff) : Except ArrayError EntityDiff).mapError .array).map
        fun diff => ⟨entity, action, revision, timestamp, diff⟩ := by
    simp only [toJson, Draft.ofJson, Draft.ofMembers, RecordShape.read, List.foldlM_cons]
    rw [putMember_of_read (fun entity => { entity? := some entity }) rfl rfl
      (parsed_entity .text entity), ok_bind]
    rw [putMember_of_read (fun action => { entity? := some entity, action? := some action }) rfl rfl
      (variant_action action), ok_bind]
    rw [putMember_of_read (fun revision => {
        entity? := some entity, action? := some action, revision? := some revision }) rfl rfl
      (unsigned64_toNat .text revision), ok_bind]
    rw [putMember_of_read (fun timestamp => {
        entity? := some entity, action? := some action, revision? := some revision,
        timestamp? := some timestamp }) rfl rfl
      (signed64_toInt .text timestamp), ok_bind]
    rw [putMember_new rfl rfl, array_diff h]
    cases (ofArray (toArray diff) : Except ArrayError EntityDiff) <;> rfl
  change RecordShape.ofText shape (toJson _).render = _
  rw [RecordShape.ofText, Draft.ofText_render (legible_toJson h)]
  simp only [hrecord]
  cases (ofArray (toArray diff) : Except ArrayError EntityDiff) <;> rfl

end KnowledgeBase.Change
