import KnowledgeBase.Proofs.Diff.Entity
import KnowledgeBase.Proofs.Except

/-!
Merging differences of entities. The sections are merged in order, so the first clash is the
first by section and, inside a section, the one of the smallest key. Without a clash every
section of the merged difference has the operations of both sides. A resolution applies the
merged difference to the base, so it keeps what no difference changes.
-/

namespace KnowledgeBase

/-- The place of a section in the order in which sections are merged. -/
def DiffSection.position : DiffSection → Nat
  | .labels => 0
  | .descriptions => 1
  | .aliases => 2
  | .claims => 3
  | .siteLinks => 4

/-- Whether a conflict is met before another, or is the same. Keys are ordered by their
characters, which is the order of their bytes. -/
def Conflict.Precedes (first second : Conflict) : Prop :=
  first.part.position < second.part.position ∨
    first.part = second.part ∧ first.key ≤ second.key

namespace EntityDiff

/-- Whether two differences have operations at one place that are not the same. -/
def ClashAt (ours theirs : EntityDiff) (place : Conflict) : Prop :=
  match place.part with
  | .labels => MapDiff.Clash ours.labels theirs.labels place.key
  | .descriptions => MapDiff.Clash ours.descriptions theirs.descriptions place.key
  | .aliases => MapDiff.Clash ours.aliases theirs.aliases place.key
  | .claims => MapDiff.Clash ours.claims theirs.claims place.key
  | .siteLinks => MapDiff.Clash ours.siteLinks theirs.siteLinks place.key

/-- Whether a difference has the operations of two others, and where both have one the first. -/
structure Joins (ours theirs merged : EntityDiff) : Prop where
  type : merged.type = ours.type
  labels : ∀ key,
    merged.labels.get? key = (ours.labels.get? key).or (theirs.labels.get? key)
  descriptions : ∀ key, merged.descriptions.get? key =
    (ours.descriptions.get? key).or (theirs.descriptions.get? key)
  aliases : ∀ key,
    merged.aliases.get? key = (ours.aliases.get? key).or (theirs.aliases.get? key)
  claims : ∀ key,
    merged.claims.get? key = (ours.claims.get? key).or (theirs.claims.get? key)
  siteLinks : ∀ key,
    merged.siteLinks.get? key = (ours.siteLinks.get? key).or (theirs.siteLinks.get? key)

private theorem position_injective {first second : DiffSection}
    (h : first.position = second.position) : first = second := by
  cases first <;> cases second <;> first | rfl | cases h

section Order

variable {ours theirs : EntityDiff}

/-- Whether there is no clash in the first sections of two differences. -/
private def FreeBelow (ours theirs : EntityDiff) (count : Nat) : Prop :=
  ∀ place : Conflict, place.part.position < count → ¬ClashAt ours theirs place

private theorem FreeBelow.succ {part : DiffSection}
    (h : FreeBelow ours theirs part.position) (hpart : ∀ key, ¬ClashAt ours theirs ⟨part, key⟩) :
    FreeBelow ours theirs (part.position + 1) := by
  rintro ⟨other, key⟩ hbelow
  rcases Nat.lt_or_eq_of_le (Nat.le_of_lt_succ hbelow) with earlier | same
  · exact h ⟨other, key⟩ earlier
  · obtain rfl : other = part := position_injective same
    exact hpart key

private theorem FreeBelow.precedes {part : DiffSection} {key : String}
    (h : FreeBelow ours theirs part.position)
    (hleast : ∀ other, ClashAt ours theirs ⟨part, other⟩ → key ≤ other) {other : Conflict}
    (hother : ClashAt ours theirs other) : Conflict.Precedes ⟨part, key⟩ other := by
  rcases Nat.lt_trichotomy other.part.position part.position with earlier | same | later
  · exact absurd hother (h other earlier)
  · obtain rfl : other.part = part := position_injective same
    exact Or.inr ⟨rfl, hleast other.key hother⟩
  · exact Or.inl later

/-- A section ends the merge with its first clash or is left behind without one. -/
private theorem merge_section_cases {α : Type} [BEq α] (part : DiffSection)
    {left right : MapDiff α}
    (hclash : ∀ key, ClashAt ours theirs ⟨part, key⟩ ↔ MapDiff.Clash left right key)
    (hpassed : FreeBelow ours theirs part.position)
    (next : MapDiff α → Except MergeError EntityDiff) :
    (∃ merged, left.merge part right >>= next = next merged ∧
      (∀ key, merged.get? key = (left.get? key).or (right.get? key)) ∧
      FreeBelow ours theirs (part.position + 1)) ∨
    ∃ place, left.merge part right >>= next = .error (.conflict place) ∧
      ClashAt ours theirs place ∧
      ∀ other, ClashAt ours theirs other → place.Precedes other := by
  rcases MapDiff.merge_cases part left right with
    ⟨merged, hrun, hjoined, hfree⟩ | ⟨key, herror, hfirst, hleast⟩
  · refine Or.inl ⟨merged, ?_, hjoined, ?_⟩
    · rw [hrun]
      rfl
    · exact hpassed.succ fun key hkey => hfree key ((hclash key).mp hkey)
  · refine Or.inr ⟨⟨part, key⟩, ?_, (hclash key).mpr hfirst, ?_⟩
    · rw [herror]
      rfl
    · intro other
      exact hpassed.precedes fun later hlater => hleast later ((hclash later).mp hlater)

end Order

/-- A merge either joins two differences without clash or names their first clash. -/
theorem merge_cases {ours theirs : EntityDiff} (htype : ours.type = theirs.type) :
    (∃ merged, ours.merge theirs = .ok merged ∧ Joins ours theirs merged ∧
      ∀ place, ¬ClashAt ours theirs place) ∨
    ∃ place, ours.merge theirs = .error (.conflict place) ∧ ClashAt ours theirs place ∧
      ∀ other, ClashAt ours theirs other → place.Precedes other := by
  have hcheck : ¬ours.type ≠ theirs.type := not_not.mpr htype
  have hnone : FreeBelow ours theirs DiffSection.labels.position :=
    fun _ hbelow => absurd hbelow (Nat.not_lt_zero _)
  unfold merge
  rw [if_neg hcheck]
  rcases merge_section_cases .labels (fun _ => Iff.rfl) hnone _ with
    ⟨labels, hrun, hlabels, hpassed⟩ | hclash
  swap
  · exact Or.inr hclash
  rw [hrun]
  rcases merge_section_cases .descriptions (fun _ => Iff.rfl) hpassed _ with
    ⟨descriptions, hrun, hdescriptions, hpassed⟩ | hclash
  swap
  · exact Or.inr hclash
  rw [hrun]
  rcases merge_section_cases .aliases (fun _ => Iff.rfl) hpassed _ with
    ⟨aliases, hrun, haliases, hpassed⟩ | hclash
  swap
  · exact Or.inr hclash
  rw [hrun]
  rcases merge_section_cases .claims (fun _ => Iff.rfl) hpassed _ with
    ⟨claims, hrun, hclaims, hpassed⟩ | hclash
  swap
  · exact Or.inr hclash
  rw [hrun]
  rcases merge_section_cases .siteLinks (fun _ => Iff.rfl) hpassed _ with
    ⟨siteLinks, hrun, hsiteLinks, hpassed⟩ | hclash
  swap
  · exact Or.inr hclash
  rw [hrun]
  refine Or.inl ⟨_, rfl, ⟨rfl, hlabels, hdescriptions, haliases, hclaims, hsiteLinks⟩, ?_⟩
  intro place
  refine hpassed place ?_
  cases place.part <;> decide

end EntityDiff

/-! ## Resolutions -/

/-- A resolution is what an application makes of the base. -/
theorem applied_of_resolveEdits {base current submitted outcome : Entity}
    (h : resolveEdits base current submitted = .ok outcome) :
    ∃ merged : EntityDiff, merged.apply.stateAfter base = outcome := by
  unfold resolveEdits at h
  obtain ⟨theirs, -, h⟩ := bind_eq_ok.mp h
  obtain ⟨ours, -, h⟩ := bind_eq_ok.mp h
  obtain ⟨merged, -, h⟩ := bind_eq_ok.mp h
  have happly : merged.apply.result base = .ok outcome := eq_ok_of_mapError h
  exact ⟨merged, Edit.stateAfter_of_result happly⟩

theorem id?_of_resolveEdits {base current submitted outcome : Entity}
    (h : resolveEdits base current submitted = .ok outcome) : outcome.id? = base.id? := by
  obtain ⟨merged, rfl⟩ := applied_of_resolveEdits h
  exact merged.stateAfter_id? base

theorem dataType?_of_resolveEdits {base current submitted outcome : Entity}
    (h : resolveEdits base current submitted = .ok outcome) :
    outcome.dataType? = base.dataType? := by
  obtain ⟨merged, rfl⟩ := applied_of_resolveEdits h
  exact merged.stateAfter_dataType? base

end KnowledgeBase
