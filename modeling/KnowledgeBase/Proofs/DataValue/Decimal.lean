import KnowledgeBase.DataValue.Validity
import KnowledgeBase.Proofs.Guid

/-!
Which texts are amounts. An amount is a sign, the digits of a whole number without a superfluous
zero in front, and then nothing or a point and further digits. No other text is recognised, however
many points it has and wherever they stand. A quantity is acceptable exactly if its amount has this
form, its unit is not empty and its bounds, given both or not at all, have this form too.
-/

namespace KnowledgeBase

/-- Digits of a whole number: a zero alone, or digits of which the first is no zero. -/
inductive WholeDigits : List Char → Prop
  | zero : WholeDigits ['0']
  | leading {first : Char} {rest : List Char} (hfirst : first.isDigit = true)
      (hnonzero : first ≠ '0') (hrest : ∀ c ∈ rest, c.isDigit = true) :
      WholeDigits (first :: rest)

/-- What may follow the whole number: nothing, or a point and at least one digit. -/
inductive FractionDigits : List Char → Prop
  | none : FractionDigits []
  | point {digits : List Char} (hsome : digits ≠ []) (hdigits : ∀ c ∈ digits, c.isDigit = true) :
      FractionDigits ('.' :: digits)

/-- A sign before a whole number and what may follow it. -/
def SignedDecimal (text : String) : Prop :=
  ∃ sign ∈ ['+', '-'], ∃ whole fraction, text.toList = sign :: (whole ++ fraction) ∧
    WholeDigits whole ∧ FractionDigits fraction

/-! ## Digits -/

theorem isDigits_iff {chars : List Char} :
    isDigits chars = true ↔ chars ≠ [] ∧ ∀ c ∈ chars, c.isDigit = true := by
  simp [isDigits]

/-- A whole number is digits, and of several digits the first one is no zero. -/
theorem wholeDigits_iff {chars : List Char} :
    WholeDigits chars ↔
      isDigits chars = true ∧ (chars.length ≤ 1 ∨ chars.head? ≠ some '0') := by
  rw [isDigits_iff]
  constructor
  · intro h
    cases h with
    | zero => simp
    | leading hfirst hnonzero hrest =>
        exact ⟨⟨List.cons_ne_nil _ _, List.forall_mem_cons.mpr ⟨hfirst, hrest⟩⟩,
          .inr (by simpa using hnonzero)⟩
  · rintro ⟨⟨hsome, hdigits⟩, hlead⟩
    obtain ⟨first, rest, rfl⟩ := List.exists_cons_of_ne_nil hsome
    obtain ⟨hfirst, hrest⟩ := List.forall_mem_cons.mp hdigits
    by_cases hzero : first = '0'
    · subst hzero
      have hlone : rest = [] := by simpa using hlead
      rw [hlone]
      exact .zero
    · exact .leading hfirst hzero hrest

theorem WholeDigits.point_not_mem {chars : List Char} (h : WholeDigits chars) : '.' ∉ chars := by
  intro member
  have hdigit := (isDigits_iff.mp (wholeDigits_iff.mp h).1).2 _ member
  contradiction

/-- The first point ends the whole number. -/
theorem WholeDigits.span_append {whole fraction : List Char} (h : WholeDigits whole)
    (hfraction : FractionDigits fraction) :
    (whole ++ fraction).span (· != '.') = (whole, fraction) := by
  cases hfraction with
  | none =>
      have hkept : ∀ c ∈ whole, (c != '.') = true := by
        intro c member
        rw [bne_iff_ne]
        rintro rfl
        exact h.point_not_mem member
      rw [List.append_nil, List.span_eq_takeWhile_dropWhile, List.takeWhile_eq_self_iff.mpr hkept,
        List.dropWhile_eq_nil_iff.mpr hkept]
  | point => exact span_ne_eq_iff.mpr ⟨rfl, h.point_not_mem, rfl⟩

/-! ## Decimals -/

theorem isDecimal_iff {chars : List Char} :
    isDecimal chars = true ↔
      ∃ whole fraction, chars = whole ++ fraction ∧ WholeDigits whole ∧
        FractionDigits fraction := by
  constructor
  · intro h
    unfold isDecimal at h
    cases hspan : chars.span (· != '.') with
    | mk whole rest =>
        have hchars : chars = whole ++ rest := by
          rw [List.span_eq_takeWhile_dropWhile, Prod.mk.injEq] at hspan
          rw [← hspan.1, ← hspan.2, List.takeWhile_append_dropWhile]
        simp only [hspan, Bool.and_eq_true, Bool.or_eq_true, decide_eq_true_eq, bne_iff_ne] at h
        obtain ⟨hwhole, hrest⟩ := h
        refine ⟨whole, rest, hchars, wholeDigits_iff.mpr hwhole, ?_⟩
        cases rest with
        | nil => exact .none
        | cons c digits =>
            obtain ⟨rfl, -, -⟩ := span_ne_eq_iff.mp hspan
            obtain ⟨hsome, hdigits⟩ := isDigits_iff.mp hrest
            exact .point hsome hdigits
  · rintro ⟨whole, fraction, rfl, hwhole, hfraction⟩
    have hform := wholeDigits_iff.mp hwhole
    simp only [isDecimal, hwhole.span_append hfraction, Bool.and_eq_true, Bool.or_eq_true,
      decide_eq_true_eq, bne_iff_ne]
    refine ⟨hform, ?_⟩
    cases hfraction with
    | none => trivial
    | point hsome hdigits => exact isDigits_iff.mpr ⟨hsome, hdigits⟩

theorem isSignedDecimal_iff {text : String} :
    isSignedDecimal text = true ↔ SignedDecimal text := by
  unfold isSignedDecimal SignedDecimal
  split
  next rest htext => simp [htext, isDecimal_iff]
  next rest htext => simp [htext, isDecimal_iff]
  next hplus hminus =>
    constructor
    · intro h
      contradiction
    · rintro ⟨sign, hsign, whole, fraction, htext, -, -⟩
      rcases List.mem_pair.mp hsign with rfl | rfl
      · exact absurd htext (hplus _)
      · exact absurd htext (hminus _)

instance : DecidablePred SignedDecimal := fun _ => decidable_of_iff _ isSignedDecimal_iff

/-! ## Quantities -/

/-- Bounds that are given together or not at all. -/
inductive BoundsFit : Option String → Option String → Prop
  | absent : BoundsFit none none
  | both {upper lower : String} (hupper : SignedDecimal upper) (hlower : SignedDecimal lower) :
      BoundsFit (some upper) (some lower)

theorem boundsFit_iff {upper? lower? : Option String} :
    BoundsFit upper? lower? ↔ upper?.isSome = lower?.isSome ∧
      (upper?.toList ++ lower?.toList).all isSignedDecimal = true := by
  constructor
  · intro h
    cases h with
    | absent => simp
    | both hupper hlower => simp [isSignedDecimal_iff, hupper, hlower]
  · rintro ⟨hpaired, hall⟩
    cases upper? with
    | none =>
        obtain rfl : lower? = none := by simpa using hpaired
        exact .absent
    | some upper =>
        obtain ⟨lower, rfl⟩ := Option.isSome_iff_exists.mp hpaired.symm
        have hboth : SignedDecimal upper ∧ SignedDecimal lower := by
          simpa [isSignedDecimal_iff] using hall
        exact .both hboth.1 hboth.2

structure Quantity.Acceptable (q : Quantity) : Prop where
  amount : SignedDecimal q.amount
  unit : q.unit ≠ ""
  bounds : BoundsFit q.upperBound q.lowerBound

theorem Quantity.fault?_eq_none_iff {q : Quantity} : q.fault? = none ↔ q.Acceptable := by
  constructor
  · intro h
    unfold Quantity.fault? at h
    split_ifs at h with hamount hunit hpaired hbounds
    constructor
    · simpa [isSignedDecimal_iff] using hamount
    · simpa using hunit
    · rw [boundsFit_iff]
      constructor
      · simpa using hpaired
      · simpa only [Bool.not_eq_true', Bool.not_eq_false] using hbounds
  · rintro ⟨hamount, hunit, hbounds⟩
    obtain ⟨hpaired, hall⟩ := boundsFit_iff.mp hbounds
    simp [Quantity.fault?, isSignedDecimal_iff.mpr hamount, hunit, hpaired, hall]

/-- A text is recognised as an amount exactly if it has the form of one, and a quantity is free of
faults exactly if its amount and bounds have this form and it has a unit. -/
theorem amounts_recognised :
    (∀ text, isSignedDecimal text = true ↔ SignedDecimal text) ∧
    ∀ q : Quantity, (DataValue.quantity q).fault? = none ↔ q.Acceptable :=
  ⟨fun _ => isSignedDecimal_iff, fun _ => Quantity.fault?_eq_none_iff⟩

example : SignedDecimal "-0.25" ∧ ¬SignedDecimal "+012" ∧ ¬SignedDecimal "+1.2.3" := by decide

end KnowledgeBase
