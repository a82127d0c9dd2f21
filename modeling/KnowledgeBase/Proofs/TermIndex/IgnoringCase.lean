import KnowledgeBase.Proofs.TermIndex.LabelConflicts
import KnowledgeBase.Proofs.Text.Lowercase

/-!
What a search that ignores case finds of what an exact search finds. Whole texts that are equal
have equal lower cases. The beginning of a text may end with a capital sigma inside a word;
looked for by itself it is lowered as if the word ended there, and then the text is not found.
-/

namespace KnowledgeBase

open Text (CutsSigma lower_prefix_iff)

/-- A text that is accepted as it is is accepted ignoring case unless a sigma is cut off. -/
theorem MatchOptions.matches_ignoring_case_iff {openEnd : Bool} {wanted text : String}
    (h : Matches { caseSensitive := true, openEnd } wanted text) :
    Matches { caseSensitive := false, openEnd } wanted text ↔
      ¬(openEnd = true ∧ CutsSigma wanted text) := by
  cases openEnd with
  | true =>
      have hstarts : wanted.toList <+: text.toList := h
      have hlowered : Matches { caseSensitive := false, openEnd := true } wanted text ↔
          (Text.lower wanted).toList <+: (Text.lower text).toList := Iff.rfl
      rw [hlowered, lower_prefix_iff hstarts, eq_self_iff_true, true_and]
  | false =>
      have hequal : text.toList = wanted.toList := h
      have hsame : text = wanted := String.toList_inj.mp hequal
      simp [Matches, form, hsame]

namespace TermIndex

/-- All entries that a search finds. -/
def found (index : TermIndex) (queries : List TermQuery) (type? : Option TermType)
    (entityType? : Option EntityType) (openEnd caseSensitive : Bool) : List TermEntry :=
  index.search queries type? entityType? { caseSensitive, openEnd }

section Found

variable {index : TermIndex} {queries : List TermQuery} {type? : Option TermType}
  {entityType? : Option EntityType} {openEnd caseSensitive : Bool} {entry : TermEntry}

theorem found_eq : index.found queries type? entityType? openEnd caseSensitive =
    (entries index).filter fun entry =>
      Matching queries type? entityType? { caseSensitive, openEnd } entry :=
  search_eq index queries type? entityType? { caseSensitive, openEnd }

theorem mem_found_iff : entry ∈ index.found queries type? entityType? openEnd caseSensitive ↔
    entry ∈ entries index ∧
      Matching queries type? entityType? { caseSensitive, openEnd } entry := by
  rw [found_eq, List.mem_filter, decide_eq_true_iff]

/-- What matches as it is matches ignoring case unless a query for a beginning cuts a sigma
off. -/
theorem matching_ignoring_case
    (h : Matching queries type? entityType? { caseSensitive := true, openEnd } entry) :
    Matching queries type? entityType? { caseSensitive := false, openEnd } entry ∨
      openEnd = true ∧ ∃ query ∈ queries, CutsSigma query.text entry.text := by
  obtain ⟨hentityType, htype, query, hquery, hlanguage, hmatches⟩ := h
  by_cases hcut : openEnd = true ∧ CutsSigma query.text entry.text
  · exact Or.inr ⟨hcut.1, query, hquery, hcut.2⟩
  · have hignoring := (MatchOptions.matches_ignoring_case_iff hmatches).mpr hcut
    exact Or.inl ⟨hentityType, htype, query, hquery, hlanguage, hignoring⟩

end Found

/-- What a search ignoring case finds of what an exact search finds: everything but what one of
the queries, if they are for beginnings, cuts behind a sigma. For a single query this is what
is not found. -/
structure FoundIgnoringCase (index : TermIndex) (queries : List TermQuery)
    (type? : Option TermType) (entityType? : Option EntityType) (openEnd : Bool) : Prop where
  found_or_cut : ∀ entry ∈ index.found queries type? entityType? openEnd true,
    entry ∈ index.found queries type? entityType? openEnd false ∨
      openEnd = true ∧ ∃ query ∈ queries, CutsSigma query.text entry.text
  one_query_iff : ∀ query, ∀ entry ∈ index.found [query] type? entityType? openEnd true,
    entry ∈ index.found [query] type? entityType? openEnd false ↔
      ¬(openEnd = true ∧ CutsSigma query.text entry.text)
  sublist : (openEnd = true → ∀ query ∈ queries, 'Σ' ∉ query.text.toList) →
    (index.found queries type? entityType? openEnd true).Sublist
      (index.found queries type? entityType? openEnd false)

theorem found_ignoring_case (index : TermIndex) (queries : List TermQuery)
    (type? : Option TermType) (entityType? : Option EntityType) (openEnd : Bool) :
    FoundIgnoringCase index queries type? entityType? openEnd where
  found_or_cut entry member := by
    rw [mem_found_iff] at member ⊢
    rcases matching_ignoring_case member.2 with hmatching | hcut
    · exact Or.inl ⟨member.1, hmatching⟩
    · exact Or.inr hcut
  one_query_iff query entry member := by
    obtain ⟨hentry, hentityType, htype, other, hother, hlanguage, hmatches⟩ :=
      mem_found_iff.mp member
    obtain rfl := List.mem_singleton.mp hother
    rw [← MatchOptions.matches_ignoring_case_iff hmatches, mem_found_iff]
    constructor
    · rintro ⟨-, -, -, again, hagain, -, hignoring⟩
      obtain rfl := List.mem_singleton.mp hagain
      exact hignoring
    · intro hignoring
      exact ⟨hentry, hentityType, htype, other, hother, hlanguage, hignoring⟩
  sublist hplain := by
    rw [found_eq, found_eq]
    apply List.monotone_filter_right
    intro entry hentry
    rw [decide_eq_true_iff] at hentry ⊢
    rcases matching_ignoring_case hentry with hmatching | ⟨hopen, query, hquery, hcut⟩
    · exact hmatching
    · exact absurd hcut.sigma_mem (hplain hopen query hquery)

/-- The beginning of a word up to a sigma is found as it is, but not ignoring case. -/
theorem sigma_lost_ignoring_case :
    ∃ index, save .empty (namedProperty .first (some "ΑΣΑ") none) = .ok index ∧
      index.found [⟨"ΑΣ", none⟩] none none true true =
        [⟨.property .first, .label, "en", "ΑΣΑ"⟩] ∧
      index.found [⟨"ΑΣ", none⟩] none none true false = [] :=
  ⟨_, rfl, rfl, by decide +kernel⟩

end TermIndex

end KnowledgeBase
