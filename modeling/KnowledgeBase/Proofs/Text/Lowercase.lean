import KnowledgeBase.Text.Lowercase
import Mathlib.Data.List.Basic

/-!
The lower case of a text and that of its beginning. A character is lowered alike in both, but
for a capital sigma that ends a word of the beginning and does not end one of the text. So the
lower case of the beginning starts that of the text exactly if the text is not cut behind such
a sigma.
-/

namespace KnowledgeBase.Text

/-- Whether characters are passed over where the end of a word is looked for. -/
def PassedOver (chars : List Char) : Prop := ∀ c ∈ chars, caseIgnorable.contains c = true

theorem startsCased_append_of_passedOver {chars : List Char} (h : PassedOver chars)
    (rest : List Char) : startsCased (chars ++ rest) = startsCased rest := by
  rw [startsCased, List.dropWhile_append_of_pos h, startsCased]

theorem startsCased_of_passedOver {chars : List Char} (h : PassedOver chars) :
    startsCased chars = false := by
  rw [← List.append_nil chars, startsCased_append_of_passedOver h]
  rfl

/-- Whether there is a case is decided by the first character that is not passed over. -/
theorem startsCased_append_of_not_passedOver {chars : List Char} (h : ¬PassedOver chars)
    (rest : List Char) : startsCased (chars ++ rest) = startsCased chars := by
  induction chars with
  | nil => exact absurd (List.forall_mem_nil _) h
  | cons c chars ih =>
      by_cases hc : caseIgnorable.contains c = true
      · have hchars : ¬PassedOver chars := fun hpassed => h (List.forall_mem_cons.mpr ⟨hc, hpassed⟩)
        have hcons (more : List Char) : startsCased (c :: more) = startsCased more := by
          simp only [startsCased, List.dropWhile_cons, hc, if_true]
        rw [List.cons_append, hcons, hcons, ih hchars]
      · simp [startsCased, hc]

/-- What a character is lowered to between what is before it, the nearest first, and the
rest. -/
def lowerIn (before : List Char) (c : Char) (rest : List Char) : List Char :=
  if c = 'Σ' then
    if startsCased before && !startsCased rest then ['ς'] else ['σ']
  else
    lowerChar c

theorem lowerFrom_cons (before : List Char) (c : Char) (rest : List Char) :
    lowerFrom before (c :: rest) = lowerIn before c rest ++ lowerFrom (c :: before) rest := rfl

/-- Whether a character is a sigma that ends a word only if the text ends before `rest`. -/
structure CutBehind (before : List Char) (c : Char) (passed rest : List Char) : Prop where
  sigma : c = 'Σ'
  word : startsCased before = true
  passed : PassedOver passed
  goesOn : startsCased rest = true

variable {before : List Char} {c : Char} {chars rest : List Char}

theorem lowerIn_append (h : ¬CutBehind before c chars rest) :
    lowerIn before c (chars ++ rest) = lowerIn before c chars := by
  by_cases hsigma : c = 'Σ'
  · by_cases hpassed : PassedOver chars
    · have hfree : ¬(startsCased before = true ∧ startsCased rest = true) :=
        fun hcased => h ⟨hsigma, hcased.1, hpassed, hcased.2⟩
      rw [lowerIn, lowerIn, startsCased_append_of_passedOver hpassed,
        startsCased_of_passedOver hpassed]
      cases hbefore : startsCased before <;> cases hrest : startsCased rest <;> simp_all
    · rw [lowerIn, lowerIn, startsCased_append_of_not_passedOver hpassed]
  · rw [lowerIn, lowerIn, if_neg hsigma, if_neg hsigma]

/-- Whether a text is cut, before `rest`, behind a sigma that goes on as a word. -/
def CutsWord (before chars rest : List Char) : Prop :=
  ∃ left c passed, chars = left ++ c :: passed ∧ CutBehind (left.reverse ++ before) c passed rest

theorem cutsWord_cons_iff : CutsWord before (c :: chars) rest ↔
    CutBehind before c chars rest ∨ CutsWord (c :: before) chars rest := by
  constructor
  · rintro ⟨left, sigma, passed, hchars, hcut⟩
    cases left with
    | nil =>
        cases hchars
        exact Or.inl hcut
    | cons first left =>
        cases hchars
        rw [List.reverse_cons, List.append_assoc] at hcut
        exact Or.inr ⟨left, sigma, passed, rfl, hcut⟩
  · rintro (hcut | ⟨left, sigma, passed, rfl, hcut⟩)
    · exact ⟨[], c, chars, rfl, hcut⟩
    · refine ⟨c :: left, sigma, passed, rfl, ?_⟩
      rw [List.reverse_cons, List.append_assoc]
      exact hcut

/-- The lower case of a beginning starts that of the whole unless a word is cut. -/
theorem lowerFrom_prefix_iff (before chars rest : List Char) :
    lowerFrom before chars <+: lowerFrom before (chars ++ rest) ↔ ¬CutsWord before chars rest := by
  induction chars generalizing before with
  | nil =>
      refine iff_of_true List.nil_prefix ?_
      rintro ⟨left, c, passed, hchars, -⟩
      exact List.append_ne_nil_of_right_ne_nil left (List.cons_ne_nil c passed) hchars.symm
  | cons c chars ih =>
      rw [List.cons_append, lowerFrom_cons, lowerFrom_cons, cutsWord_cons_iff]
      by_cases hcut : CutBehind before c chars rest
      · -- here the two lower cases part
        have hfinal : lowerIn before c chars = ['ς'] := by
          rw [lowerIn, if_pos hcut.sigma, hcut.word, startsCased_of_passedOver hcut.passed]
          rfl
        have hmedial : lowerIn before c (chars ++ rest) = ['σ'] := by
          rw [lowerIn, if_pos hcut.sigma, startsCased_append_of_passedOver hcut.passed,
            hcut.goesOn, Bool.not_true, Bool.and_false]
          rfl
        rw [hfinal, hmedial, List.singleton_append, List.singleton_append, List.cons_prefix_cons]
        exact iff_of_false (fun hstarts => absurd hstarts.1 (by decide)) (not_not.mpr (Or.inl hcut))
      · rw [lowerIn_append hcut, List.prefix_append_right_inj, ih, or_iff_right hcut]

/-- Whether a text starts with another one and cuts a word of the other behind a sigma. -/
def CutsSigma (start text : String) : Prop :=
  ∃ rest, text.toList = start.toList ++ rest ∧ CutsWord [] start.toList rest

theorem CutsSigma.sigma_mem {start text : String} (h : CutsSigma start text) :
    'Σ' ∈ start.toList := by
  obtain ⟨rest, -, left, c, passed, hstart, hcut⟩ := h
  rw [hstart, ← hcut.sigma]
  exact List.mem_append_right _ (List.mem_cons_self ..)

theorem lower_prefix_iff {start text : String} (h : start.toList <+: text.toList) :
    (lower start).toList <+: (lower text).toList ↔ ¬CutsSigma start text := by
  obtain ⟨rest, htext⟩ := h
  have hcuts : CutsSigma start text ↔ CutsWord [] start.toList rest := by
    constructor
    · rintro ⟨other, hother, hcut⟩
      obtain rfl : rest = other := List.append_cancel_left (htext.trans hother)
      exact hcut
    · intro hcut
      exact ⟨rest, htext.symm, hcut⟩
  rw [lower, lower, String.toList_ofList, String.toList_ofList, ← htext, hcuts]
  exact lowerFrom_prefix_iff [] start.toList rest

end KnowledgeBase.Text
