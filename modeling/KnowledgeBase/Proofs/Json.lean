import KnowledgeBase.Json.Draft
import KnowledgeBase.Proofs.SortedMap

/-!
The interchange format has no numbers but finite ones. Rounding gives a finite double or none,
so what is read from a text holds no infinity and nothing that is not a number.
-/

namespace KnowledgeBase

/-! ## Rounding -/

namespace Binary64

theorem isFinite_zero : zero.isFinite = true := rfl

theorem isFinite_ofMagnitude (negative : Bool) {magnitude : Nat} (h : magnitude < infinite) :
    (ofMagnitude negative magnitude).isFinite = true := by
  have hinfinite : infinite < signWeight := by decide
  have hword : signWeight + signWeight = UInt64.size := by decide
  have hbits : (ofMagnitude negative magnitude).bits.toNat =
      if negative then signWeight + magnitude else magnitude := by
    rw [ofMagnitude, UInt64.toNat_ofNat']
    apply Nat.mod_eq_of_lt
    change _ < UInt64.size
    split <;> omega
  have hmagnitude : (ofMagnitude negative magnitude).magnitude = magnitude := by
    rw [Binary64.magnitude, hbits]
    split
    · rw [Nat.add_mod_left]
      exact Nat.mod_eq_of_lt (by omega)
    · exact Nat.mod_eq_of_lt (by omega)
  rw [isFinite, hmagnitude]
  exact decide_eq_true h

theorem isFinite_of_nearest? {negative : Bool} {num den : Nat} {x : Binary64}
    (h : nearest? negative num den = some x) : x.isFinite = true := by
  unfold nearest? at h
  simp only [] at h
  split at h
  next hsmall =>
    cases h
    exact isFinite_ofMagnitude negative hsmall
  next => cases h

theorem isFinite_nearest (negative : Bool) (num den : Nat) :
    ((nearest? negative num den).getD zero).isFinite = true := by
  cases h : nearest? negative num den with
  | none => exact isFinite_zero
  | some x => exact isFinite_of_nearest? h

/-- An integer becomes a finite double, whatever its size. -/
theorem isFinite_ofInt (n : Int) : (ofInt n).isFinite = true := isFinite_nearest ..

theorem isFinite_overPower {x : Binary64} (h : x.isFinite = true) (n : Nat) :
    (x.overPower n).isFinite = true := by
  fun_induction overPower x n with
  | case1 => exact isFinite_nearest ..
  | case2 => exact h
  | case3 x n _ _ ih => exact ih (isFinite_nearest ..)

theorem isFinite_of_ofDecimal? {negative : Bool} {significand : Nat} {exponent : Int}
    {x : Binary64} (h : ofDecimal? negative significand exponent = some x) :
    x.isFinite = true := by
  obtain ⟨y, hy, rfl⟩ := Option.map_eq_some_iff.mp h
  have hfinite : y.isFinite = true := by
    split at hy
    · cases hy
      exact isFinite_overPower (isFinite_ofInt _) _
    · split at hy
      · cases hy
        exact isFinite_ofInt _
      · split at hy
        · cases hy
        · exact isFinite_of_nearest? hy
  exact isFinite_ofMagnitude negative (of_decide_eq_true hfinite)

end Binary64

/-! ## Values -/

/-- Whether all doubles in a value are finite, as they are in everything the format can
express. -/
inductive Json.Finite : Json → Prop
  | null : Finite .null
  | bool (value : Bool) : Finite (.bool value)
  | int (value : Int) : Finite (.int value)
  | float {value : Binary64} (h : value.isFinite = true) : Finite (.float value)
  | text (value : String) : Finite (.text value)
  | array {elements : List Json} (h : ∀ element ∈ elements, Finite element) :
      Finite (.array elements)
  | object {members : Members} (h : ∀ member ∈ members, Finite member.2) :
      Finite (.object members)

namespace Json

attribute [simp] Finite.null Finite.bool Finite.int Finite.text

@[simp] theorem finite_float_iff {value : Binary64} :
    (Json.float value).Finite ↔ value.isFinite = true := by
  constructor
  · rintro ⟨⟩
    assumption
  · exact .float

@[simp] theorem finite_array_iff {elements : List Json} :
    (Json.array elements).Finite ↔ ∀ element ∈ elements, element.Finite := by
  constructor
  · rintro ⟨⟩
    assumption
  · exact .array

@[simp] theorem finite_object_iff {members : List (String × Json)} :
    (Json.object members).Finite ↔ ∀ member ∈ members, member.2.Finite := by
  constructor
  · rintro ⟨⟩
    assumption
  · exact .object

end Json

theorem SortedMap.mem_of_mem_ofList {α : Type} {pairs : List (String × α)}
    {pair : String × α} (h : pair ∈ (SortedMap.ofList pairs).toList) : pair ∈ pairs := by
  rw [← SortedMap.get?_eq_some_iff] at h
  induction pairs using List.reverseRecOn with
  | nil => cases h
  | append_singleton pairs last ih =>
      rw [SortedMap.ofList_append_singleton, SortedMap.get?_insert] at h
      rw [List.mem_append, List.mem_singleton]
      split at h
      next hkey =>
        exact Or.inr (Prod.ext hkey (Option.some.inj h).symm)
      next => exact Or.inl (ih h)

theorem Json.finite_ofMembers {members : List (String × Json)}
    (h : ∀ member ∈ members, member.2.Finite) : (Json.ofMembers members).Finite :=
  .object fun member hmember => h member (SortedMap.mem_of_mem_ofList hmember)

/-! ## Texts -/

inductive Draft.Finite : Draft → Prop
  | leaf {value : Option Json} (h : ∀ found ∈ value, found.Finite) : Finite (.leaf value)
  | array {elements : List Draft} (h : ∀ element ∈ elements, Finite element) (closed : Bool) :
      Finite (.array elements closed)
  | object {members : List (Option String × Draft)} (h : ∀ member ∈ members, Finite member.2)
      (closed : Bool) : Finite (.object members closed)
  | broken : Finite .broken

theorem Json.Numeral.finite_value? (numeral : Numeral) :
    ∀ value ∈ numeral.value?, value.Finite := by
  intro value hvalue
  unfold value? at hvalue
  split at hvalue
  next n _ =>
    cases hvalue
    exact .int n
  next =>
    obtain ⟨x, hx, rfl⟩ := Option.map_eq_some_iff.mp hvalue
    exact .float (Binary64.isFinite_of_ofDecimal? hx)

namespace Draft

theorem finite_readWord (word : List Char) {value : Json} (h : value.Finite)
    (chars : List Char) : (readWord word value chars).1.Finite := by
  unfold readWord
  split
  next =>
    refine .leaf ?_
    rintro _ ⟨⟩
    exact h
  next => exact .broken

theorem finite_readLeaf (chars : List Char) : (readLeaf chars).1.Finite := by
  unfold readLeaf
  split
  next => exact .broken
  next =>
    split
    next content _ _ =>
      refine .leaf ?_
      intro value hvalue
      obtain ⟨text, -, rfl⟩ := Option.map_eq_some_iff.mp hvalue
      exact .text text
    next => exact .broken
  next => exact finite_readWord _ .null _
  next => exact finite_readWord _ (.bool true) _
  next => exact finite_readWord _ (.bool false) _
  next =>
    unfold readNumber
    split
    next numeral _ _ => exact .leaf numeral.finite_value?
    next => exact .broken

/-- By induction on the bound that the three readers share. -/
theorem finite_read (fuel : Nat) :
    (∀ chars, (readValue fuel chars).1.Finite) ∧
      (∀ chars, ∀ element ∈ (readElements fuel chars).1, element.Finite) ∧
      ∀ chars, ∀ member ∈ (readMembers fuel chars).1, member.2.Finite := by
  induction fuel with
  | zero =>
      refine ⟨fun _ => .broken, ?_, ?_⟩
      · simp [readElements]
      · simp [readMembers]
  | succ fuel ih =>
      obtain ⟨hvalue, helements, hmembers⟩ := ih
      refine ⟨?_, ?_, ?_⟩
      · intro chars
        rw [readValue]
        split
        next =>
          split
          next => exact .array (by simp) true
          next rest _ => exact .array (helements _) _
        next =>
          split
          next => exact .object (by simp) true
          next rest _ => exact .object (hmembers _) _
        next => exact finite_readLeaf _
      · intro chars
        have hfirst := hvalue chars
        rw [readElements]
        cases hread : readValue fuel chars with
        | mk first rest =>
            rw [hread] at hfirst
            simp only []
            split
            next =>
              split
              next rest _ => exact List.forall_mem_cons.mpr ⟨hfirst, helements rest⟩
              next => exact List.forall_mem_singleton.mpr hfirst
              next => exact List.forall_mem_singleton.mpr hfirst
            next => exact List.forall_mem_singleton.mpr hfirst
      · intro chars
        rw [readMembers]
        split
        next =>
          split
          next => simp
          next =>
            split
            next rest _ =>
              have hfirst := hvalue rest
              cases hread : readValue fuel rest with
              | mk first rest =>
                  rw [hread] at hfirst
                  simp only []
                  split
                  next =>
                    split
                    next rest _ => exact List.forall_mem_cons.mpr ⟨hfirst, hmembers rest⟩
                    next => exact List.forall_mem_singleton.mpr hfirst
                    next => exact List.forall_mem_singleton.mpr hfirst
                  next => exact List.forall_mem_singleton.mpr hfirst
            next => exact List.forall_mem_singleton.mpr .broken
        next => simp

mutual

theorem finite_of_toJson? {nesting : Nesting} (draft : Draft) (h : draft.Finite) {value : Json}
    (hvalue : draft.toJson? nesting = some value) : value.Finite := by
  cases h with
  | leaf hleaf => exact hleaf value hvalue
  | array helements closed =>
      obtain ⟨inner, -, hvalue⟩ := Option.bind_eq_some_iff.mp hvalue
      split at hvalue
      next =>
        obtain ⟨elements, hread, rfl⟩ := Option.map_eq_some_iff.mp hvalue
        exact .array (finite_of_elementsToJson? _ helements hread)
      next => cases hvalue
  | object hmembers closed =>
      obtain ⟨inner, -, hvalue⟩ := Option.bind_eq_some_iff.mp hvalue
      split at hvalue
      next =>
        obtain ⟨members, hread, rfl⟩ := Option.map_eq_some_iff.mp hvalue
        exact Json.finite_ofMembers (finite_of_membersToJson? _ hmembers hread)
      next => cases hvalue
  | broken => cases hvalue

theorem finite_of_elementsToJson? {nesting : Nesting} (drafts : List Draft)
    (h : ∀ draft ∈ drafts, draft.Finite) {elements : List Json}
    (helements : elementsToJson? nesting drafts = some elements) :
    ∀ element ∈ elements, element.Finite := by
  cases drafts with
  | nil =>
      cases helements
      simp
  | cons first rest =>
      obtain ⟨value, hvalue, helements⟩ := Option.bind_eq_some_iff.mp helements
      obtain ⟨others, hothers, helements⟩ := Option.bind_eq_some_iff.mp helements
      cases helements
      obtain ⟨hfirst, hrest⟩ := List.forall_mem_cons.mp h
      exact List.forall_mem_cons.mpr ⟨finite_of_toJson? first hfirst hvalue,
        finite_of_elementsToJson? rest hrest hothers⟩

theorem finite_of_membersToJson? {nesting : Nesting} (drafts : List (Option String × Draft))
    (h : ∀ draft ∈ drafts, draft.2.Finite) {members : List (String × Json)}
    (hmembers : membersToJson? nesting drafts = some members) :
    ∀ member ∈ members, member.2.Finite := by
  cases drafts with
  | nil =>
      cases hmembers
      simp
  | cons first rest =>
      obtain ⟨name?, draft⟩ := first
      obtain ⟨name, -, hmembers⟩ := Option.bind_eq_some_iff.mp hmembers
      obtain ⟨value, hvalue, hmembers⟩ := Option.bind_eq_some_iff.mp hmembers
      obtain ⟨others, hothers, hmembers⟩ := Option.bind_eq_some_iff.mp hmembers
      cases hmembers
      obtain ⟨hfirst, hrest⟩ := List.forall_mem_cons.mp h
      exact List.forall_mem_cons.mpr ⟨finite_of_toJson? draft hfirst hvalue,
        finite_of_membersToJson? rest hrest hothers⟩

end

end Draft

/-- The draft of every text is finite. -/
theorem Draft.finite_ofText (text : String) : (Draft.ofText text).1.Finite :=
  (Draft.finite_read (2 * text.toList.length + 2)).1 text.toList

end KnowledgeBase
