import KnowledgeBase.Json.Draft
import KnowledgeBase.Proofs.Json.Words
import KnowledgeBase.Proofs.SortedMap

/-!
Written values are read as what was written. Whatever follows a value, reading it leaves just
that, and two steps for each character are enough. This takes integers that fit a word and
doubles whose written forms are read as the same doubles, which not all of them are: a double
is read by rounding twice.

A value is made out of what was read if its nesting is within the bound and its objects list
their members in order.
-/

namespace KnowledgeBase

open Json

/-! ## Values that can be read -/

/-- Whether the numbers in a value are read as they are written. -/
inductive Json.Legible : Json → Prop
  | null : Legible .null
  | bool (value : Bool) : Legible (.bool value)
  | int {value : Int} (h : Numeral.FitsWord value) : Legible (.int value)
  | float {value : Binary64} (h : Json.parse? (Json.float value).render = some (.float value)) :
      Legible (.float value)
  | text (value : String) : Legible (.text value)
  | array {elements : List Json} (h : ∀ element ∈ elements, Legible element) :
      Legible (.array elements)
  | object {members : Members} (h : ∀ member ∈ members, Legible member.2) :
      Legible (.object members)

namespace Draft

theorem ended_ofJson (value : Json) : (ofJson value).ended = true := by
  cases value <;> simp [ofJson, ended]

theorem skipBlank_cons {c : Char} {chars : List Char} (h : isBlank c = false) :
    skipBlank (c :: chars) = c :: chars := by
  simp [skipBlank, h]

theorem skipBlank_of_solid {chars : List Char} (h : ∀ c ∈ chars, isBlank c = false) :
    skipBlank chars = chars := by
  cases chars with
  | nil => rfl
  | cons c others => exact skipBlank_cons (h c List.mem_cons_self)

/-! ## Leaves -/

section Leaves

variable {fuel : Nat} {rest : List Char}

/-- A character that is neither blank nor opens an array or an object begins a leaf. -/
theorem readValue_leaf {c : Char} {others : List Char} (hblank : isBlank c = false)
    (harray : c ≠ '[') (hobject : c ≠ '\x7b') :
    readValue (fuel + 1) (c :: others) = readLeaf (c :: others) := by
  rw [readValue, skipBlank_cons hblank]
  split
  next heq => exact absurd (List.cons.inj heq).1 harray
  next heq => exact absurd (List.cons.inj heq).1 hobject
  next => rfl

/-- A number begins with a digit or a minus. -/
theorem head_of_read? {chars : List Char} {numeral : Numeral}
    (h : Numeral.read? chars = some (numeral, rest)) :
    ∃ c others, chars = c :: others ∧ (c = '-' ∨ c.isDigit = true) := by
  cases chars with
  | nil => cases h
  | cons c others =>
      refine ⟨c, others, rfl, ?_⟩
      by_contra hother
      obtain ⟨hminus, hdigit⟩ := not_or.mp hother
      have hdigits : Numeral.digits? (c :: others) = none := by
        simp [Numeral.digits?, List.span_eq_takeWhile_dropWhile, hdigit]
      simp [Numeral.read?, Numeral.sign, hminus, Numeral.whole?, hdigits] at h

theorem ne_of_number {c other : Char} (h : c = '-' ∨ c.isDigit = true) (hminus : other ≠ '-')
    (hdigit : other.isDigit = false) : c ≠ other := by
  rintro rfl
  rcases h with h | h
  · exact hminus h
  · rw [hdigit] at h
    cases h

theorem isBlank_of_number {c : Char} (h : c = '-' ∨ c.isDigit = true) : isBlank c = false := by
  simp only [isBlank, Bool.or_eq_false_iff, beq_eq_false_iff_ne]
  exact ⟨⟨⟨ne_of_number h (by decide) (by decide), ne_of_number h (by decide) (by decide)⟩,
    ne_of_number h (by decide) (by decide)⟩, ne_of_number h (by decide) (by decide)⟩

theorem readValue_number {chars : List Char} {numeral : Numeral}
    (h : Numeral.read? chars = some (numeral, rest)) :
    readValue (fuel + 1) chars = (.leaf numeral.value?, rest) := by
  obtain ⟨c, others, rfl, hc⟩ := head_of_read? h
  have hother {other : Char} (hminus : other ≠ '-') (hdigit : other.isDigit = false) :
      c ≠ other := ne_of_number hc hminus hdigit
  rw [readValue_leaf (isBlank_of_number hc) (hother (by decide) (by decide))
    (hother (by decide) (by decide))]
  unfold readLeaf
  split
  next heq => cases heq
  next heq => exact absurd (List.cons.inj heq).1 (hother (by decide) (by decide))
  next heq => exact absurd (List.cons.inj heq).1 (hother (by decide) (by decide))
  next heq => exact absurd (List.cons.inj heq).1 (hother (by decide) (by decide))
  next heq => exact absurd (List.cons.inj heq).1 (hother (by decide) (by decide))
  next => rw [readNumber, h]

theorem readValue_int {value : Int} (h : Numeral.FitsWord value) (hrest : EndsNumber rest) :
    readValue (fuel + 1) ((Json.int value).chars ++ rest) =
      (.leaf (some (.int value)), rest) := by
  have hread := Numeral.read?_append (Numeral.read?_int value) hrest
  rw [← Numeral.value?_ofInt h]
  exact readValue_number hread

theorem readValue_text (value : String) :
    readValue (fuel + 1) ((Json.text value).chars ++ rest) =
      (.leaf (some (.text value)), rest) := by
  have hread := readText?_quoted value rest
  have hchars : (Json.text value).chars ++ rest =
      '"' :: (value.toList.flatMap escapedChar ++ '"' :: rest) := by
    simp [chars, quotedChars]
  rw [hchars, readValue_leaf (by decide) (by decide) (by decide)]
  simp [readLeaf, hread]

/-! ### Doubles -/

theorem eq_leaf_of_float {draft : Draft} {nesting : Nesting} {x : Binary64}
    (h : draft.toJson? nesting = some (.float x)) : draft = .leaf (some (.float x)) := by
  cases draft with
  | leaf value => rw [show value = some (.float x) from h]
  | array elements closed =>
      obtain ⟨inner, -, h⟩ := Option.bind_eq_some_iff.mp h
      split at h
      next =>
        obtain ⟨found, -, h⟩ := Option.map_eq_some_iff.mp h
        cases h
      next => cases h
  | object members closed =>
      obtain ⟨inner, -, h⟩ := Option.bind_eq_some_iff.mp h
      split at h
      next =>
        obtain ⟨found, -, h⟩ := Option.map_eq_some_iff.mp h
        cases h
      next => cases h
  | broken => cases h

/-- A leaf that turns out to be a double was read as a number. -/
theorem read?_of_readLeaf {chars : List Char} {x : Binary64}
    (h : readLeaf chars = (.leaf (some (.float x)), rest)) :
    ∃ numeral, Numeral.read? chars = some (numeral, rest) ∧
      numeral.value? = some (.float x) := by
  have hword {word : List Char} {value : Json} (h : readWord word value chars =
      (.leaf (some (.float x)), rest)) : value = .float x := by
    unfold readWord at h
    split at h
    next =>
      cases h
      rfl
    next => cases h
  unfold readLeaf at h
  split at h
  next => cases h
  next =>
    split at h
    next content _ _ => cases content <;> cases h
    next => cases h
  next => cases hword h
  next => cases hword h
  next => cases hword h
  next =>
    unfold readNumber at h
    split at h
    next numeral left hread =>
      obtain ⟨hvalue, rfl⟩ := Prod.mk.inj h
      exact ⟨numeral, hread, Draft.leaf.inj hvalue⟩
    next => cases h

theorem readLeaf_of_float {chars : List Char} {x : Binary64}
    (h : readValue fuel chars = (.leaf (some (.float x)), rest)) :
    readLeaf (skipBlank chars) = (.leaf (some (.float x)), rest) := by
  cases fuel with
  | zero => cases h
  | succ fuel =>
      rw [readValue] at h
      split at h
      next =>
        split at h
        next => cases h
        next => cases h
      next =>
        split at h
        next => cases h
        next => cases h
      next => exact h

/-- A double that is read back was read as a number up to the end of its text, since there
are no blanks in it that could have been passed over. -/
theorem read?_float {x : Binary64}
    (h : Json.parse? (Json.float x).render = some (.float x)) :
    ∃ numeral, Numeral.read? (Json.float x).chars = some (numeral, []) ∧
      numeral.value? = some (.float x) := by
  have hsolid : ∀ c ∈ (Json.float x).chars, isBlank c = false := solid_text x
  unfold Json.parse? Draft.ofText at h
  simp only [render, String.toList_ofList] at h
  split at h
  next draft heq =>
    obtain ⟨hdraft, hend⟩ := Prod.mk.inj heq
    subst hdraft
    have hpair : readValue (2 * (Json.float x).chars.length + 2) (Json.float x).chars =
        (.leaf (some (.float x)), (readValue _ (Json.float x).chars).2) :=
      Prod.ext (eq_leaf_of_float h) rfl
    obtain ⟨numeral, hnumeral, hvalue⟩ := read?_of_readLeaf (readLeaf_of_float hpair)
    rw [skipBlank_of_solid hsolid] at hnumeral
    rw [skipBlank_of_solid fun c hc =>
      hsolid c ((Numeral.suffix_read? hnumeral).subset hc)] at hend
    rw [List.isEmpty_iff.mp hend] at hnumeral
    exact ⟨numeral, hnumeral, hvalue⟩
  next => cases h

theorem readValue_float {x : Binary64}
    (h : Json.parse? (Json.float x).render = some (.float x)) (hrest : EndsNumber rest) :
    readValue (fuel + 1) ((Json.float x).chars ++ rest) = (.leaf (some (.float x)), rest) := by
  obtain ⟨numeral, hread, hvalue⟩ := read?_float h
  rw [← hvalue]
  exact readValue_number (Numeral.read?_append hread hrest)

end Leaves

/-! ## Arrays and objects -/

/-- What a written value begins with: no blank, and nothing that ends an array. -/
theorem head_chars {value : Json} (h : value.Legible) :
    ∃ c others, value.chars = c :: others ∧ isBlank c = false ∧ c ≠ ']' := by
  have hnumber {chars : List Char} {numeral : Numeral}
      (h : Numeral.read? chars = some (numeral, [])) :
      ∃ c others, chars = c :: others ∧ isBlank c = false ∧ c ≠ ']' := by
    obtain ⟨c, others, hchars, hc⟩ := head_of_read? h
    exact ⟨c, others, hchars, isBlank_of_number hc, ne_of_number hc (by decide) (by decide)⟩
  cases h with
  | null => exact ⟨'n', _, rfl, rfl, by decide⟩
  | bool value => cases value <;> exact ⟨_, _, rfl, rfl, by decide⟩
  | int h => exact hnumber (Numeral.read?_int _)
  | float h =>
      obtain ⟨numeral, hread, -⟩ := read?_float h
      exact hnumber hread
  | text value => exact ⟨'"', _, rfl, rfl, by decide⟩
  | array h => exact ⟨'[', _, by rw [chars]; rfl, rfl, by decide⟩
  | object h => exact ⟨'\x7b', _, by rw [chars]; rfl, rfl, by decide⟩

theorem elementChars_cons (first second : Json) (others : List Json) :
    elementChars (first :: second :: others) =
      first.chars ++ ',' :: elementChars (second :: others) := by
  rw [elementChars]
  exact nofun

theorem memberChars_cons (name : String) (value : Json) (second : String × Json)
    (others : Members) :
    memberChars ((name, value) :: second :: others) =
      quotedChars name ++ ':' :: value.chars ++ ',' :: memberChars (second :: others) := by
  rw [memberChars]
  exact nofun

theorem head_elementChars {first : Json} (h : first.Legible) (others : List Json) :
    ∃ c rest, elementChars (first :: others) = c :: rest ∧ isBlank c = false ∧ c ≠ ']' := by
  obtain ⟨c, chars, hchars, hc⟩ := head_chars h
  cases others with
  | nil => exact ⟨c, chars, hchars, hc⟩
  | cons second others =>
      refine ⟨c, chars ++ ',' :: elementChars (second :: others), ?_, hc⟩
      rw [elementChars_cons, hchars, List.cons_append]

theorem head_memberChars (first : String × Json) (others : Members) :
    ∃ rest, memberChars (first :: others) = '"' :: rest := by
  obtain ⟨name, value⟩ := first
  cases others with
  | nil => exact ⟨_, rfl⟩
  | cons second others =>
      rw [memberChars_cons]
      exact ⟨_, rfl⟩

theorem endsNumber_cons {c : Char} {rest : List Char}
    (h : c.isDigit = false ∧ c ≠ '.' ∧ c ≠ 'e' ∧ c ≠ 'E') : EndsNumber (c :: rest) := by
  rintro _ ⟨⟩
  exact h

section Steps

variable {fuel : Nat} {rest : List Char}

theorem readValue_array {first : Json} {others : List Json} {drafts : List Draft}
    (hfirst : first.Legible)
    (hread : readElements fuel (elementChars (first :: others) ++ ']' :: rest) =
      (drafts, true, rest)) :
    readValue (fuel + 1) ((Json.array (first :: others)).chars ++ rest) =
      (.array drafts true, rest) := by
  have hchars : (Json.array (first :: others)).chars ++ rest =
      '[' :: (elementChars (first :: others) ++ ']' :: rest) := by
    simp [chars]
  obtain ⟨c, later, hhead, hblank, hclose⟩ := head_elementChars hfirst others
  have hskip : skipBlank (elementChars (first :: others) ++ ']' :: rest) =
      elementChars (first :: others) ++ ']' :: rest := by
    rw [hhead, List.cons_append, skipBlank_cons hblank]
  rw [hchars, readValue, skipBlank_cons rfl]
  simp only [hskip]
  split
  next heq =>
    rw [hhead] at heq
    exact absurd (List.cons.inj heq).1 hclose
  next => rw [hread]

theorem readValue_object {first : String × Json} {others : Members}
    {drafts : List (Option String × Draft)}
    (hread : readMembers fuel (memberChars (first :: others) ++ '\x7d' :: rest) =
      (drafts, true, rest)) :
    readValue (fuel + 1) ((Json.object (first :: others)).chars ++ rest) =
      (.object drafts true, rest) := by
  have hchars : (Json.object (first :: others)).chars ++ rest =
      '\x7b' :: (memberChars (first :: others) ++ '\x7d' :: rest) := by
    simp [chars]
  obtain ⟨later, hhead⟩ := head_memberChars first others
  have hskip : skipBlank (memberChars (first :: others) ++ '\x7d' :: rest) =
      memberChars (first :: others) ++ '\x7d' :: rest := by
    rw [hhead, List.cons_append, skipBlank_cons rfl]
  rw [hchars, readValue, skipBlank_cons rfl]
  simp only [hskip]
  split
  next heq =>
    rw [hhead] at heq
    cases heq
  next => rw [hread]

/-- The last element is followed by the end of its array, any other one by a comma. -/
theorem readElements_step {first : Json} {drafts : List Draft} {after : List Char}
    (hread : readValue fuel (first.chars ++ after) = (ofJson first, after))
    (hafter : after = ']' :: rest ∧ drafts = [] ∨ ∃ following,
      after = ',' :: following ∧ readElements fuel following = (drafts, true, rest)) :
    readElements (fuel + 1) (first.chars ++ after) = (ofJson first :: drafts, true, rest) := by
  rw [readElements, hread]
  simp only [ended_ofJson, if_true]
  rcases hafter with ⟨rfl, rfl⟩ | ⟨following, rfl, hlater⟩
  · rfl
  · simp only [skipBlank_cons (c := ',') rfl, hlater]

theorem readMembers_step {name : String} {value : Json} {drafts : List (Option String × Draft)}
    {after : List Char}
    (hread : readValue fuel (value.chars ++ after) = (ofJson value, after))
    (hafter : after = '\x7d' :: rest ∧ drafts = [] ∨ ∃ following,
      after = ',' :: following ∧ readMembers fuel following = (drafts, true, rest)) :
    readMembers (fuel + 1) (quotedChars name ++ ':' :: (value.chars ++ after)) =
      ((some name, ofJson value) :: drafts, true, rest) := by
  have hchars : quotedChars name ++ ':' :: (value.chars ++ after) =
      '"' :: (name.toList.flatMap escapedChar ++ '"' :: ':' :: (value.chars ++ after)) := by
    simp [quotedChars]
  rw [hchars, readMembers, skipBlank_cons rfl]
  simp only [readText?_quoted, skipBlank_cons (c := ':') rfl, hread, ended_ofJson, if_true]
  rcases hafter with ⟨rfl, rfl⟩ | ⟨following, rfl, hlater⟩
  · rfl
  · simp only [skipBlank_cons (c := ',') rfl, hlater]

end Steps

/-- By induction on the bound that the three readers share. -/
theorem read_chars (fuel : Nat) :
    (∀ value rest, value.Legible → EndsNumber rest → 2 * value.chars.length ≤ fuel →
      readValue fuel (value.chars ++ rest) = (ofJson value, rest)) ∧
      (∀ first others rest, (∀ element ∈ first :: others, element.Legible) →
        2 * (elementChars (first :: others)).length + 1 ≤ fuel →
        readElements fuel (elementChars (first :: others) ++ ']' :: rest) =
          (ofElements (first :: others), true, rest)) ∧
      ∀ first others rest, (∀ member ∈ first :: others, member.2.Legible) →
        2 * (memberChars (first :: others)).length + 1 ≤ fuel →
        readMembers fuel (memberChars (first :: others) ++ '\x7d' :: rest) =
          (ofMembers (first :: others), true, rest) := by
  induction fuel with
  | zero =>
      refine ⟨?_, ?_, ?_⟩
      · intro value rest hlegible _ hfuel
        obtain ⟨c, others, hchars, -⟩ := head_chars hlegible
        rw [hchars, List.length_cons] at hfuel
        omega
      · intro first others rest _ hfuel
        omega
      · intro first others rest _ hfuel
        omega
  | succ fuel ih =>
      obtain ⟨hvalue, helements, hmembers⟩ := ih
      refine ⟨?_, ?_, ?_⟩
      · intro value rest hlegible hrest hfuel
        cases hlegible with
        | null => rfl
        | bool value => cases value <;> rfl
        | int h => exact readValue_int h hrest
        | float h => exact readValue_float h hrest
        | text value => exact readValue_text value
        | @array elements h =>
            cases elements with
            | nil => rfl
            | cons first others =>
                have hlength : (Json.array (first :: others)).chars.length =
                    (elementChars (first :: others)).length + 2 := by
                  simp [chars]
                exact readValue_array (h first List.mem_cons_self)
                  (helements first others rest h (by omega))
        | @object members h =>
            cases members with
            | nil => rfl
            | cons first others =>
                have hlength : (Json.object (first :: others)).chars.length =
                    (memberChars (first :: others)).length + 2 := by
                  simp [chars]
                exact readValue_object (hmembers first others rest h (by omega))
      · intro first others rest hlegible hfuel
        obtain ⟨hfirst, hothers⟩ := List.forall_mem_cons.mp hlegible
        cases others with
        | nil =>
            rw [elementChars] at hfuel ⊢
            exact readElements_step (hvalue first (']' :: rest) hfirst
              (endsNumber_cons (by decide)) (by omega)) (Or.inl ⟨rfl, rfl⟩)
        | cons second others =>
            rw [elementChars_cons, List.length_append, List.length_cons] at hfuel
            rw [elementChars_cons, List.append_assoc]
            exact readElements_step (hvalue first _ hfirst (endsNumber_cons (by decide)) (by omega))
              (Or.inr ⟨_, rfl, helements second others rest hothers (by omega)⟩)
      · intro first others rest hlegible hfuel
        obtain ⟨hfirst, hothers⟩ := List.forall_mem_cons.mp hlegible
        obtain ⟨name, value⟩ := first
        cases others with
        | nil =>
            rw [memberChars, List.length_append, List.length_cons] at hfuel
            rw [memberChars, List.append_assoc, List.cons_append]
            exact readMembers_step (hvalue value ('\x7d' :: rest) hfirst
              (endsNumber_cons (by decide)) (by omega)) (Or.inl ⟨rfl, rfl⟩)
        | cons second others =>
            rw [memberChars_cons, List.length_append, List.length_append, List.length_cons,
              List.length_cons] at hfuel
            rw [memberChars_cons, List.append_assoc, List.append_assoc, List.cons_append]
            exact readMembers_step (hvalue value _ hfirst (endsNumber_cons (by decide)) (by omega))
              (Or.inr ⟨_, rfl, hmembers second others rest hothers (by omega)⟩)

/-- A written value is the whole of its text. -/
theorem ofText_render {value : Json} (h : value.Legible) :
    ofText value.render = (ofJson value, true) := by
  have hread := (read_chars (2 * value.chars.length + 2)).1 value [] h endsNumber_nil (by omega)
  rw [List.append_nil] at hread
  simp [ofText, render, hread, skipBlank]

end Draft

/-! ## Values made out of what was read -/

/-- Whether a value can be made out of its written form: it is legible, its arrays and objects
are open at most `nesting` at once, and its objects list their members in order. -/
inductive Json.Readable : Nat → Json → Prop
  | null (nesting : Nat) : Readable nesting .null
  | bool (nesting : Nat) (value : Bool) : Readable nesting (.bool value)
  | int (nesting : Nat) {value : Int} (h : Numeral.FitsWord value) : Readable nesting (.int value)
  | float (nesting : Nat) {value : Binary64}
      (h : Json.parse? (Json.float value).render = some (.float value)) :
      Readable nesting (.float value)
  | text (nesting : Nat) (value : String) : Readable nesting (.text value)
  | array {nesting : Nat} {elements : List Json}
      (h : ∀ element ∈ elements, Readable nesting element) :
      Readable (nesting + 1) (.array elements)
  | object {nesting : Nat} (members : SortedMap String Json)
      (h : ∀ member ∈ members.toList, Readable nesting member.2) :
      Readable (nesting + 1) (.object members.toList)

namespace Json.Readable

theorem legible {nesting : Nat} {value : Json} (h : value.Readable nesting) : value.Legible := by
  induction h with
  | null => exact .null
  | bool => exact .bool _
  | int _ h => exact .int h
  | float _ h => exact .float h
  | text => exact .text _
  | array _ ih => exact .array ih
  | object _ _ ih => exact .object ih

theorem elementsToJson?_ofElements {nesting : Draft.Nesting} {elements : List Json}
    (h : ∀ element ∈ elements, (Draft.ofJson element).toJson? nesting = some element) :
    Draft.elementsToJson? nesting (Draft.ofElements elements) = some elements := by
  induction elements with
  | nil => rfl
  | cons first others ih =>
      obtain ⟨hfirst, hothers⟩ := List.forall_mem_cons.mp h
      simp [Draft.ofElements, Draft.elementsToJson?, hfirst, ih hothers]

theorem membersToJson?_ofMembers {nesting : Draft.Nesting} {members : Members}
    (h : ∀ member ∈ members, (Draft.ofJson member.2).toJson? nesting = some member.2) :
    Draft.membersToJson? nesting (Draft.ofMembers members) = some members := by
  induction members with
  | nil => rfl
  | cons first others ih =>
      obtain ⟨hfirst, hothers⟩ := List.forall_mem_cons.mp h
      simp [Draft.ofMembers, Draft.membersToJson?, hfirst, ih hothers]

/-- A readable value is made out of its own draft. -/
theorem toJson?_ofJson {nesting : Nat} {value : Json} (h : value.Readable nesting) :
    (Draft.ofJson value).toJson? (some nesting) = some value := by
  induction h with
  | null => rfl
  | bool => rfl
  | int => rfl
  | float => rfl
  | text => rfl
  | array _ ih =>
      simp [Draft.ofJson, Draft.toJson?, Draft.Nesting.enter?, elementsToJson?_ofElements ih]
  | object members _ ih =>
      simp [Draft.ofJson, Draft.toJson?, Draft.Nesting.enter?, membersToJson?_ofMembers ih,
        Json.ofMembers]

/-- A readable value is read back from its text, within the bound that holds for texts. -/
theorem parse?_render {value : Json} (h : value.Readable maxNesting) :
    Json.parse? value.render = some value := by
  rw [Json.parse?, Draft.ofText_render h.legible]
  exact h.toJson?_ofJson

end Json.Readable

end KnowledgeBase
