import KnowledgeBase.Json.Lexeme
import KnowledgeBase.Json.Printer
import KnowledgeBase.Proofs.EntityId
import Mathlib.Data.List.TakeDrop
import Mathlib.Data.List.TakeWhile

/-!
Written words are read as what was written. A text is read piece by piece, each character from
its own escape or as it is, up to the closing quote. A number has no end of its own: it is read
as far as it goes, so what follows it has to be something else.
-/

namespace KnowledgeBase.Json

/-! ## Texts -/

theorem hexUnit?_digits {n : Nat} (h : n < 32) :
    hexUnit? '0' '0' (Nat.digitChar (n / 16)) (Nat.digitChar (n % 16)) = some n := by
  revert n
  decide

/-- Each character is written so that one piece is read, and the piece joins as the character. -/
theorem exists_piece (c : Char) : ∃ piece : Piece,
    (∀ read rest, pieces? read (escapedChar c ++ rest) = pieces? (piece :: read) rest) ∧
      ∀ read rest, joinPieces? read (piece :: rest) = joinPieces? (c :: read) rest := by
  have hshort {escape c : Char} (hc : shortEscape? escape = some c) (hu : escape ≠ 'u') :
      ∃ piece : Piece,
        (∀ read rest, pieces? read (['\\', escape] ++ rest) = pieces? (piece :: read) rest) ∧
          ∀ read rest, joinPieces? read (piece :: rest) = joinPieces? (c :: read) rest := by
    refine ⟨.char c, ?_, fun _ _ => by rw [joinPieces?]⟩
    intro read rest
    simp [pieces?, hc, hu]
  unfold escapedChar
  split
  case h_8 _ hquote hslash _ _ _ _ _ =>
    split
    next hcontrol =>
      refine ⟨.unit c.toNat, ?_, ?_⟩
      · intro read rest
        simp [pieces?, hexUnit?_digits hcontrol]
      · intro read rest
        have hlow : ¬0xd800 ≤ c.toNat := by omega
        have hhigh : ¬0xdc00 ≤ c.toNat := by omega
        rw [joinPieces?.eq_def]
        simp [hlow, hhigh, Char.ofNat_toNat]
    next hvisible =>
      refine ⟨.char c, ?_, fun _ _ => by rw [joinPieces?]⟩
      intro read rest
      rw [List.singleton_append, pieces?.eq_def]
      split <;> simp_all
  all_goals exact hshort rfl (by decide)

theorem exists_pieces (chars : List Char) : ∃ pieces : List Piece,
    (∀ read rest, pieces? read (chars.flatMap escapedChar ++ '"' :: rest) =
      some (read.reverse ++ pieces, rest)) ∧
      ∀ read, joinPieces? read pieces = some (read.reverse ++ chars) := by
  induction chars with
  | nil => exact ⟨[], fun read rest => by simp [pieces?], fun read => by simp [joinPieces?]⟩
  | cons c chars ih =>
      obtain ⟨piece, hread, hjoin⟩ := exists_piece c
      obtain ⟨pieces, hreads, hjoins⟩ := ih
      refine ⟨piece :: pieces, ?_, ?_⟩
      · intro read rest
        rw [List.flatMap_cons, List.append_assoc, hread, hreads]
        simp
      · intro read
        rw [hjoin, hjoins]
        simp

/-- A written text is read up to its closing quote. -/
theorem readText?_quoted (text : String) (rest : List Char) :
    readText? (text.toList.flatMap escapedChar ++ '"' :: rest) = some (some text, rest) := by
  obtain ⟨pieces, hread, hjoin⟩ := exists_pieces text.toList
  simp [readText?, hread, hjoin]

/-! ## Numbers -/

/-- Whether a number before these characters ends where they begin. -/
def EndsNumber (rest : List Char) : Prop :=
  ∀ c ∈ rest.head?, c.isDigit = false ∧ c ≠ '.' ∧ c ≠ 'e' ∧ c ≠ 'E'

theorem endsNumber_nil : EndsNumber [] := nofun

theorem span_append {p : Char → Bool} {chars found left rest : List Char}
    (h : chars.span p = (found, left)) (hrest : left = [] → ∀ c ∈ rest.head?, p c = false) :
    (chars ++ rest).span p = (found, left ++ rest) := by
  rw [List.span_eq_takeWhile_dropWhile, Prod.mk.injEq] at h ⊢
  obtain ⟨rfl, rfl⟩ := h
  induction chars with
  | nil =>
      cases rest with
      | nil => simp
      | cons c rest => simp [hrest rfl c rfl]
  | cons c chars ih =>
      cases hc : p c with
      | false => simp [hc]
      | true =>
          simp only [List.dropWhile_cons_of_pos hc] at hrest
          obtain ⟨htake, hdrop⟩ := ih hrest
          simp [hc, htake, hdrop]

namespace Numeral

variable {chars left rest : List Char}

theorem sign_append (h : chars ≠ []) :
    sign (chars ++ rest) = ((sign chars).1, (sign chars).2 ++ rest) := by
  obtain ⟨c, chars, rfl⟩ := List.exists_cons_of_ne_nil h
  by_cases hc : c = '-'
  · subst hc
    rfl
  · simp [sign, hc]

theorem digits?_append {digits : List Char} (h : digits? chars = some (digits, left))
    (hrest : left = [] → EndsNumber rest) :
    digits? (chars ++ rest) = some (digits, left ++ rest) := by
  unfold digits? at h ⊢
  cases hspan : chars.span Char.isDigit with
  | mk found after =>
      rw [hspan] at h
      cases found with
      | nil => cases h
      | cons first others =>
          cases h
          have hstop : left = [] → ∀ c ∈ rest.head?, c.isDigit = false :=
            fun hend c hc => (hrest hend c hc).1
          rw [span_append hspan hstop]

theorem whole?_append {digits : List Char} (h : whole? chars = some (digits, left))
    (hrest : left = [] → EndsNumber rest) :
    whole? (chars ++ rest) = some (digits, left ++ rest) := by
  unfold whole? at h ⊢
  split at h
  next => cases h
  next found hzero =>
    rw [digits?_append h hrest]
    split
    next heq =>
      cases heq
      exact absurd h (hzero _ _ _)
    next => rfl

theorem fraction?_of_ne (h : ∀ c ∈ chars.head?, c ≠ '.') : fraction? chars = some ([], chars) := by
  unfold fraction?
  split
  next => exact absurd rfl (h '.' rfl)
  next => rfl

theorem fraction?_append {digits : List Char} (h : fraction? chars = some (digits, left))
    (hrest : left = [] → EndsNumber rest) :
    fraction? (chars ++ rest) = some (digits, left ++ rest) := by
  cases chars with
  | nil =>
      cases h
      exact fraction?_of_ne fun c hc => (hrest rfl c hc).2.1
  | cons c chars =>
      by_cases hc : c = '.'
      · subst hc
        exact digits?_append h hrest
      · have hpoint : ∀ found ∈ (c :: chars).head?, found ≠ '.' := by simpa using hc
        rw [fraction?_of_ne hpoint] at h
        cases h
        exact fraction?_of_ne hpoint

theorem exponentSign_append (h : chars ≠ []) :
    exponentSign (chars ++ rest) = ((exponentSign chars).1, (exponentSign chars).2 ++ rest) := by
  obtain ⟨c, chars, rfl⟩ := List.exists_cons_of_ne_nil h
  by_cases hc : c = '+'
  · subst hc
    rfl
  · have hsign (chars : List Char) : exponentSign (c :: chars) = sign (c :: chars) := by
      simp [exponentSign, hc]
    rw [List.cons_append, hsign, hsign, ← List.cons_append, sign_append h]

theorem exponent?_append {exponent : Int} (h : exponent? chars = some (exponent, left))
    (hrest : left = [] → EndsNumber rest) :
    exponent? (chars ++ rest) = some (exponent, left ++ rest) := by
  obtain ⟨⟨digits, after⟩, hdigits, h⟩ := Option.bind_eq_some_iff.mp h
  cases h
  have hne : chars ≠ [] := by
    rintro rfl
    cases hdigits
  have hdigits : digits? (exponentSign chars).2 = some (digits, left) := hdigits
  unfold exponent?
  rw [exponentSign_append hne]
  simp only [digits?_append hdigits hrest, Option.bind_eq_bind, Option.bind_some]
  rfl

theorem power?_of_ne (h : ∀ c ∈ chars.head?, c ≠ 'e' ∧ c ≠ 'E') :
    power? chars = some (none, chars) := by
  unfold power?
  split
  next => exact absurd rfl (h 'e' rfl).1
  next => exact absurd rfl (h 'E' rfl).2
  next => rfl

theorem power?_append {exponent : Option Int} (h : power? chars = some (exponent, left))
    (hrest : left = [] → EndsNumber rest) :
    power? (chars ++ rest) = some (exponent, left ++ rest) := by
  have hmark {c : Char} (hc : c = 'e' ∨ c = 'E') (body : List Char) :
      power? (c :: body) = (exponent? body).map (Prod.map some id) := by
    rcases hc with rfl | rfl <;> cases hread : exponent? body <;> simp [power?, hread, Prod.map]
  cases chars with
  | nil =>
      cases h
      exact power?_of_ne fun c hc => (hrest rfl c hc).2.2
  | cons c chars =>
      by_cases hc : c = 'e' ∨ c = 'E'
      · rw [hmark hc] at h
        obtain ⟨⟨found, after⟩, hfound, heq⟩ := Option.map_eq_some_iff.mp h
        cases heq
        rw [List.cons_append, hmark hc, exponent?_append hfound hrest]
        rfl
      · have hother : ∀ found ∈ (c :: chars).head?, found ≠ 'e' ∧ found ≠ 'E' := by
          simpa [not_or] using hc
        rw [power?_of_ne hother] at h
        cases h
        exact power?_of_ne hother

/-- A number is read in the same way before anything that does not continue it. -/
theorem read?_append {numeral : Numeral} (h : read? chars = some (numeral, []))
    (hrest : EndsNumber rest) : read? (chars ++ rest) = some (numeral, rest) := by
  obtain ⟨⟨whole, afterWhole⟩, hwhole, h⟩ := Option.bind_eq_some_iff.mp h
  obtain ⟨⟨fraction, afterFraction⟩, hfraction, h⟩ := Option.bind_eq_some_iff.mp h
  obtain ⟨⟨exponent, left⟩, hpower, h⟩ := Option.bind_eq_some_iff.mp h
  cases h
  have hne : chars ≠ [] := by
    rintro rfl
    cases hwhole
  have hend {after : List Char} : after = [] → EndsNumber rest := fun _ => hrest
  have hwhole : whole? (sign chars).2 = some (whole, afterWhole) := hwhole
  unfold read?
  rw [sign_append hne]
  simp only [whole?_append hwhole hend, Option.bind_eq_bind, Option.bind_some,
    fraction?_append hfraction hend, power?_append hpower hend]
  rfl

/-! ### What is left after a number -/

theorem suffix_sign (chars : List Char) : (sign chars).2 <:+ chars := by
  unfold sign
  split
  next => exact List.suffix_cons _ _
  next => exact List.suffix_rfl

theorem suffix_digits? {digits : List Char} (h : digits? chars = some (digits, left)) :
    left <:+ chars := by
  unfold digits? at h
  split at h
  next => cases h
  next =>
    rw [List.span_eq_takeWhile_dropWhile] at h
    cases h
    exact List.dropWhile_suffix _

theorem suffix_whole? {digits : List Char} (h : whole? chars = some (digits, left)) :
    left <:+ chars := by
  unfold whole? at h
  split at h
  next => cases h
  next => exact suffix_digits? h

theorem suffix_fraction? {digits : List Char} (h : fraction? chars = some (digits, left)) :
    left <:+ chars := by
  unfold fraction? at h
  split at h
  next => exact (suffix_digits? h).trans (List.suffix_cons _ _)
  next =>
    cases h
    exact List.suffix_rfl

theorem suffix_exponent? {exponent : Int} (h : exponent? chars = some (exponent, left)) :
    left <:+ chars := by
  obtain ⟨⟨digits, after⟩, hdigits, h⟩ := Option.bind_eq_some_iff.mp h
  cases h
  have hdigits : digits? (exponentSign chars).2 = some (digits, left) := hdigits
  refine (suffix_digits? hdigits).trans ?_
  unfold exponentSign
  split
  next => exact List.suffix_cons _ _
  next => exact suffix_sign _

theorem suffix_power? {exponent : Option Int} (h : power? chars = some (exponent, left)) :
    left <:+ chars := by
  unfold power? at h
  split at h
  next =>
    obtain ⟨⟨found, after⟩, hfound, h⟩ := Option.bind_eq_some_iff.mp h
    cases h
    exact (suffix_exponent? hfound).trans (List.suffix_cons _ _)
  next =>
    obtain ⟨⟨found, after⟩, hfound, h⟩ := Option.bind_eq_some_iff.mp h
    cases h
    exact (suffix_exponent? hfound).trans (List.suffix_cons _ _)
  next =>
    cases h
    exact List.suffix_rfl

theorem suffix_read? {numeral : Numeral} (h : read? chars = some (numeral, left)) :
    left <:+ chars := by
  obtain ⟨⟨whole, afterWhole⟩, hwhole, h⟩ := Option.bind_eq_some_iff.mp h
  obtain ⟨⟨fraction, afterFraction⟩, hfraction, h⟩ := Option.bind_eq_some_iff.mp h
  obtain ⟨⟨exponent, after⟩, hpower, h⟩ := Option.bind_eq_some_iff.mp h
  cases h
  have hwhole : whole? (sign chars).2 = some (whole, afterWhole) := hwhole
  exact (suffix_power? hpower).trans ((suffix_fraction? hfraction).trans
    ((suffix_whole? hwhole).trans (suffix_sign chars)))

/-! ### Integers -/

/-- Whether an integer fits a 64-bit word, signed if it is negative. -/
def FitsWord (n : Int) : Prop := Int64.minValue.toInt ≤ n ∧ n < UInt64.size

theorem isDigit_of_mem_toDigits (n : Nat) : ∀ c ∈ Nat.toDigits 10 n, c.isDigit = true :=
  fun _ => Nat.isDigit_of_mem_toDigits (by decide) (by decide)

theorem span_toDigits (n : Nat) :
    (Nat.toDigits 10 n).span Char.isDigit = (Nat.toDigits 10 n, []) := by
  have hall := isDigit_of_mem_toDigits n
  rw [List.span_eq_takeWhile_dropWhile, List.takeWhile_eq_self_iff.mpr hall,
    List.dropWhile_eq_nil_iff.mpr hall]

theorem whole?_toDigits (n : Nat) : whole? (Nat.toDigits 10 n) = some (Nat.toDigits 10 n, []) := by
  unfold whole? digits?
  rw [span_toDigits]
  rcases Nat.eq_zero_or_pos n with rfl | hpos
  · rfl
  · obtain ⟨first, rest, hdigits, hfirst⟩ := toDigits_eq_cons hpos
    simp [hdigits, hfirst]

theorem sign_toDigits (n : Nat) : sign (Nat.toDigits 10 n) = (false, Nat.toDigits 10 n) := by
  unfold sign
  split
  next rest heq =>
    have hdigit : '-'.isDigit = true :=
      isDigit_of_mem_toDigits n '-' (heq ▸ List.mem_cons_self)
    cases hdigit
  next => rfl

/-- The numeral that an integer is written as. -/
def ofInt (n : Int) : Numeral where
  negative := n < 0
  whole := Nat.toDigits 10 n.natAbs
  fraction := []
  exponent := none

theorem read?_int (n : Int) : read? (toString n).toList = some (ofInt n, []) := by
  have hread {chars : List Char}
      (h : sign chars = (decide (n < 0), Nat.toDigits 10 n.natAbs)) :
      read? chars = some (ofInt n, []) := by
    unfold read?
    rw [h]
    simp only [whole?_toDigits, Option.bind_eq_bind, Option.bind_some]
    rfl
  apply hread
  rw [Int.toString_eq_repr, Int.repr_eq_if]
  split
  next hnonneg =>
    have hnat : n.toNat = n.natAbs := by omega
    rw [hnat, Nat.repr_eq_ofList_toDigits, String.toList_ofList, sign_toDigits]
    simp [hnonneg]
  next hneg =>
    have hnat : (-n).toNat = n.natAbs := by omega
    rw [hnat, Nat.repr_eq_ofList_toDigits, String.toList_append, String.toList_ofList]
    have hless : n < 0 := by omega
    simp [sign, hless]

theorem value?_ofInt {n : Int} (h : FitsWord n) : (ofInt n).value? = some (.int n) := by
  have hbounds : -(2 ^ 63 : Int) ≤ n ∧ n < 2 ^ 64 := h
  have hlength : (Nat.toDigits 10 n.natAbs).length ≤ 20 :=
    (Nat.length_toDigits_le_iff (by decide) (by decide)).mpr (by omega)
  have hinteger : (ofInt n).integer? = some n := by
    unfold integer? ofInt
    simp only [Nat.ofDigitChars_ten_toDigits]
    have hlow : Int64.minValue.toInt.natAbs = 2 ^ 63 := by decide
    have hhigh : UInt64.size = 2 ^ 64 := rfl
    rw [if_neg (by simpa using hlength)]
    by_cases hneg : n < 0
    · rw [if_pos (decide_eq_true hneg), if_pos ⟨by omega, by omega⟩, Option.some.injEq]
      omega
    · rw [if_neg (by simpa using hneg), if_pos (by omega), Option.some.injEq]
      omega
  rw [value?, hinteger]

end Numeral

/-! ### Doubles -/

/-- Whether a text has no blanks. -/
def Solid (text : String) : Prop := ∀ c ∈ text.toList, isBlank c = false

instance (text : String) : Decidable (Solid text) :=
  decidable_of_iff (text.toList.all fun c => !isBlank c) (by simp [Solid])

theorem Solid.append {first second : String} (h : Solid first) (h' : Solid second) :
    Solid (first ++ second) := by
  intro c hc
  rw [String.toList_append] at hc
  exact (List.mem_append.mp hc).elim (h c) (h' c)

theorem solid_ofList {digits : List Char} (h : ∀ c ∈ digits, c.isDigit = true) :
    Solid (String.ofList digits) := by
  intro c hc
  rw [String.toList_ofList] at hc
  have hdigit := h c hc
  refine Bool.eq_false_iff.mpr fun hblank => ?_
  simp only [isBlank, Bool.or_eq_true, beq_iff_eq, or_assoc] at hblank
  rcases hblank with rfl | rfl | rfl | rfl <;> cases hdigit

theorem solid_zeros (n : Nat) : Solid (Binary64.zeros n) := by
  refine solid_ofList ?_
  intro c hc
  rw [List.eq_of_mem_replicate hc]
  rfl

theorem solid_positionalText {digits : List Char} (h : ∀ c ∈ digits, c.isDigit = true)
    (point : Int) : Solid (Binary64.positionalText digits point ".0") := by
  have htake : ∀ c ∈ digits.take point.toNat, c.isDigit = true :=
    fun c hc => h c (List.mem_of_mem_take hc)
  have hdrop : ∀ c ∈ digits.drop point.toNat, c.isDigit = true :=
    fun c hc => h c (List.mem_of_mem_drop hc)
  unfold Binary64.positionalText
  simp only []
  split
  · exact (Solid.append (by decide) (solid_zeros _)).append (solid_ofList h)
  · split
    · exact ((solid_ofList h).append (solid_zeros _)).append (by decide)
    · rw [List.splitAt_eq]
      exact ((solid_ofList htake).append (by decide)).append (solid_ofList hdrop)

theorem solid_exponentText {digits : List Char} (h : ∀ c ∈ digits, c.isDigit = true)
    (leading : Int) : Solid (Binary64.exponentText digits leading) := by
  have hfirst : ∀ c ∈ digits.take 1, c.isDigit = true := fun c hc => h c (List.mem_of_mem_take hc)
  have hrest : ∀ c ∈ digits.drop 1, c.isDigit = true := fun c hc => h c (List.mem_of_mem_drop hc)
  have hleading : Solid (toString leading.natAbs) := by
    rw [Nat.toString_eq_ofList_toDigits]
    exact solid_ofList (Numeral.isDigit_of_mem_toDigits _)
  have hsign : Solid (if leading < 0 then "-" else "+") := by
    split <;> decide
  unfold Binary64.exponentText
  refine ((((solid_ofList hfirst).append ?_).append (by decide)).append hsign).append hleading
  split
  · decide
  · exact Solid.append (by decide) (solid_ofList hrest)

theorem solid_decimal (decimal : Decimal) : Solid (Binary64.Layout.json.decimal decimal) := by
  have hdigits := Numeral.isDigit_of_mem_toDigits decimal.digits
  unfold Binary64.Layout.decimal
  simp only []
  split
  · exact solid_positionalText hdigits _
  · exact solid_exponentText hdigits _

/-- The written form of a double has no blanks. -/
theorem solid_text (x : Binary64) : Solid (Binary64.Layout.json.text x) := by
  have hsign : Solid (if x.isNegative then "-" else "") := by
    split <;> decide
  unfold Binary64.Layout.text
  split
  · decide
  · simp only []
    split
    · exact hsign.append (by decide)
    · split
      · exact (hsign.append (by decide)).append (show Solid ".0" by decide)
      · exact hsign.append (solid_decimal _)

end KnowledgeBase.Json
