import KnowledgeBase.Proofs.Except
import KnowledgeBase.Proofs.Json
import KnowledgeBase.Record

/-!
What records are put together from. Members of an object and elements of an array are taken in
one after the other, and those of a text have no numbers but finite ones. So a property that
each field keeps holds of all that has been read when the record is finished, whatever the form
and the order in which its fields stood.
-/

namespace KnowledgeBase.RecordShape

variable {σ α : Type} {shape : RecordShape σ α} {source : Source} {property : σ → Prop}

/-- Whether no field that is taken in ends a property of what has been read. -/
def Keeps (shape : RecordShape σ α) (source : Source) (property : σ → Prop) : Prop :=
  ∀ ⦃read name value after⦄, property read → value.Finite →
    shape.put source read name value = some (.ok after) → property after

theorem Keeps.putMember (h : shape.Keeps source property) {read after : σ}
    {name? : Option String} {value : Draft} (hread : property read) (hvalue : value.Finite)
    (hput : shape.putMember source read name? value = .ok after) : property after := by
  cases name? with
  | none => cases hput
  | some name =>
      simp only [RecordShape.putMember] at hput
      by_cases hrepeated : shape.has read name
      · rw [if_pos hrepeated] at hput
        cases hput
      · rw [if_neg hrepeated] at hput
        cases htaken : shape.put source read name value with
        | some result =>
            simp only [htaken] at hput
            exact h hread hvalue (htaken.trans (congrArg some hput))
        | none =>
            -- The member is skipped.
            by_cases hsound : value.sound
            · simp only [htaken, if_pos hsound] at hput
              cases hput
              exact hread
            · simp only [htaken, if_neg hsound] at hput
              cases hput

theorem Keeps.putElement (h : shape.Keeps source property) {read after : σ} {name : String}
    {value : Draft} (hread : property read) (hvalue : value.Finite)
    (hput : shape.putElement source read name value = .ok after) : property after := by
  rw [RecordShape.putElement] at hput
  cases htaken : shape.put source read name value with
  | some result =>
      rw [htaken] at hput
      exact h hread hvalue (htaken.trans (congrArg some hput))
  | none =>
      rw [htaken] at hput
      cases hput
      exact hread

/-- A record that is read is finished from fields of which the property holds. -/
theorem Keeps.read (h : shape.Keeps source property) (hstart : property shape.start)
    {draft : Draft} (hfinite : draft.Finite) {record : α}
    (hread : shape.read source draft = .ok record) :
    ∃ read, property read ∧ shape.finish read = .ok record := by
  cases hfinite with
  | leaf _ => cases hread
  | broken => cases hread
  | object hmembers =>
      obtain ⟨read, hfold, hfinish⟩ := bind_eq_ok.mp hread
      have hkept : property read := by
        refine foldlM_keeps_of_mem ?_ hstart hfold
        rintro before ⟨name?, value⟩ hmember after hbefore hput
        exact h.putMember hbefore (hmembers _ hmember) hput
      split at hfinish
      next => exact ⟨read, hkept, hfinish⟩
      next => cases hfinish
  | array helements =>
      obtain ⟨read, hfold, hfinish⟩ := bind_eq_ok.mp hread
      have hkept : property read := by
        refine foldlM_keeps_of_mem ?_ hstart hfold
        rintro before ⟨name, value⟩ hfield after hbefore hput
        exact h.putElement hbefore (helements value (List.of_mem_zip hfield).2) hput
      dsimp only at hfinish
      -- Too few elements, too many, and as many as there are fields.
      split at hfinish
      next => cases hfinish
      next =>
        split at hfinish
        next => cases hfinish
        next =>
          split at hfinish
          next => exact ⟨read, hkept, hfinish⟩
          next => cases hfinish

theorem Keeps.ofText (h : shape.Keeps .text property) (hstart : property shape.start)
    {text : String} {record : α} (hread : shape.ofText text = .ok record) :
    ∃ read, property read ∧ shape.finish read = .ok record := by
  have hfinite := Draft.finite_ofText text
  rw [RecordShape.ofText] at hread
  generalize Draft.ofText text = drafted at hread hfinite
  obtain ⟨draft, complete⟩ := drafted
  obtain ⟨found, hfound, hcomplete⟩ := bind_eq_ok.mp hread
  cases complete with
  | true =>
      cases hcomplete
      exact h.read hstart hfinite hfound
  | false => cases hcomplete

end KnowledgeBase.RecordShape
