import KnowledgeBase.Proofs.Distinct
import KnowledgeBase.Proofs.SortedMap
import KnowledgeBase.StatementList

/-!
The statements of an entity by property. Both views are built in one walk over the list: the groups
with a map from properties to the places of their groups, the best statements with the highest rank
met so far for each property. The walk keeps, for the part of the list that it has passed, that the
groups are the properties in the order of their first statements with all statements of each, so
none is lost, doubled or filed under another property.
-/

namespace KnowledgeBase

/-- To file the members of a list by key, with a place for each key, only reorders them. -/
theorem perm_flatMap_filter {α κ : Type} [DecidableEq κ] (key : α → κ) {keys : List κ}
    (hkeys : keys.Nodup) {members : List α} (hfiled : ∀ member ∈ members, key member ∈ keys) :
    (keys.flatMap fun wanted => members.filter (key · == wanted)).Perm members := by
  induction keys generalizing members with
  | nil =>
      have hnone : members = [] :=
        List.eq_nil_iff_forall_not_mem.mpr fun member h => List.not_mem_nil (hfiled member h)
      rw [hnone]
      rfl
  | cons first rest ih =>
      rw [List.nodup_cons] at hkeys
      let others := members.filter fun member => !(key member == first)
      have hothers : ∀ member ∈ others, key member ∈ rest := by
        intro member hmember
        obtain ⟨hmember, hother⟩ := List.mem_filter.mp hmember
        refine (List.mem_cons.mp (hfiled member hmember)).resolve_left ?_
        simpa using hother
      have hrest : (rest.flatMap fun wanted => members.filter (key · == wanted)) =
          rest.flatMap fun wanted => others.filter (key · == wanted) := by
        apply List.flatMap_congr
        intro wanted hwanted
        have hne : wanted ≠ first := fun same => hkeys.1 (same ▸ hwanted)
        rw [List.filter_filter]
        apply List.filter_congr
        intro member _
        by_cases hkey : key member = wanted
        · simp [hkey, hne]
        · simp [hkey]
      rw [List.flatMap_cons, hrest]
      exact ((ih hkeys.2 hothers).append_left _).trans (List.filter_append_perm _ _)

theorem getElem?_concat_eq_some_iff {α : Type} {members : List α} {last member : α} {place : Nat} :
    (members ++ [last])[place]? = some member ↔
      members[place]? = some member ∨ place = members.length ∧ last = member := by
  rw [List.getElem?_append]
  split
  next hearlier => simp [Nat.ne_of_lt hearlier]
  next hlater =>
    have hnone : members[place]? = none := List.getElem?_eq_none (Nat.le_of_not_lt hlater)
    simp only [hnone, List.getElem?_singleton, Option.ite_none_right_eq_some, Option.some.injEq,
      reduceCtorEq, false_or]
    exact and_congr_left' (by omega)

namespace Rank

theorem le_iff {first second : Rank} : first ≤ second ↔ first.number ≤ second.number := Iff.rfl

theorem le_antisymm {first second : Rank} (h : first ≤ second) (h' : second ≤ first) :
    first = second := by
  rw [le_iff] at h h'
  cases first <;> cases second <;> simp_all [number]

theorem le_max_iff {first second rank : Rank} :
    rank ≤ max first second ↔ rank ≤ first ∨ rank ≤ second := by
  change rank ≤ (if first ≤ second then second else first) ↔ _
  split
  next h => simp only [le_iff] at h ⊢; omega
  next h => simp only [le_iff] at h ⊢; omega

theorem max_cases (first second : Rank) :
    max first second = first ∨ max first second = second := by
  change (if first ≤ second then second else first) = first ∨ _
  by_cases h : first ≤ second
  · exact .inr (if_pos h)
  · exact .inl (if_neg h)

theorem max_deprecated (rank : Rank) : max .deprecated rank = rank := by
  cases rank <;> rfl

theorem eq_deprecated_of_le {rank : Rank} (h : rank ≤ .deprecated) : rank = .deprecated :=
  le_antisymm h (Nat.zero_le _)

end Rank

namespace StatementList

/-! ## Properties -/

theorem mem_properties {list : StatementList} {property : PropertyId} :
    property ∈ list.properties ↔ ∃ statement ∈ list, statement.property = property := by
  rw [properties, List.mem_eraseDups, List.mem_map]

theorem properties_concat (list : StatementList) (last : Statement) :
    properties (list ++ [last]) =
      if last.property ∈ list.properties then list.properties
      else list.properties ++ [last.property] := by
  simp only [properties, List.map_append, List.map_singleton, eraseDups_concat, List.mem_eraseDups]

/-- Where a property is first met. -/
def firstPlace (list : StatementList) (property : PropertyId) : Nat :=
  list.findIdx (·.property == property)

theorem firstPlace_lt_iff {list : StatementList} {property : PropertyId} :
    list.firstPlace property < list.length ↔ property ∈ list.properties := by
  rw [firstPlace, List.findIdx_lt_length, mem_properties]
  simp only [beq_iff_eq]

/-- The properties stand in the order in which they are first met, so none stands twice. -/
theorem properties_in_order (list : StatementList) :
    list.properties.Pairwise fun first second =>
      firstPlace list first < firstPlace list second := by
  induction list using List.reverseRecOn with
  | nil => exact .nil
  | append_singleton list last ih =>
      have hkept {property : PropertyId} (h : property ∈ properties list) :
          firstPlace (list ++ [last]) property = firstPlace list property := by
        have hmet := firstPlace_lt_iff.mpr h
        simp only [firstPlace] at hmet ⊢
        rw [List.findIdx_append, if_pos hmet]
      have hbefore : (properties list).Pairwise fun first second =>
          firstPlace (list ++ [last]) first < firstPlace (list ++ [last]) second := by
        refine List.Pairwise.imp_of_mem ?_ ih
        intro first second hfirst hsecond hlt
        rwa [hkept hfirst, hkept hsecond]
      rw [properties_concat]
      split
      next => exact hbefore
      next hnew =>
        rw [List.pairwise_append]
        refine ⟨hbefore, List.pairwise_singleton _ _, ?_⟩
        intro first hfirst second hsecond
        obtain rfl := List.mem_singleton.mp hsecond
        have hlate : list.length ≤ firstPlace list last.property :=
          Nat.le_of_not_lt (mt firstPlace_lt_iff.mp hnew)
        have hplace : list.length ≤ firstPlace (list ++ [last]) last.property := by
          simp only [firstPlace] at hlate ⊢
          rw [List.findIdx_append, if_neg (Nat.not_lt.mpr hlate)]
          omega
        rw [hkept hfirst]
        exact (firstPlace_lt_iff.mpr hfirst).trans_le hplace

theorem nodup_properties (list : StatementList) : list.properties.Nodup :=
  list.properties_in_order.imp fun hlt same => Nat.ne_of_lt hlt (congrArg _ same)

theorem withProperty_concat (list : StatementList) (last : Statement) (property : PropertyId) :
    withProperty (list ++ [last]) property =
      if last.property = property then list.withProperty property ++ [last]
      else list.withProperty property := by
  rw [withProperty, List.filter_append]
  by_cases h : last.property = property
  · simp [withProperty, h]
  · simp [withProperty, h]

theorem withProperty_eq_nil {list : StatementList} {property : PropertyId}
    (h : property ∉ list.properties) : list.withProperty property = [] := by
  rw [withProperty, List.filter_eq_nil_iff]
  intro statement member hproperty
  exact h (mem_properties.mpr ⟨statement, member, beq_iff_eq.mp hproperty⟩)

/-! ## Groups -/

namespace Grouping

variable {grouping : Grouping} {list : StatementList}

/-- Whether there is one group for each of some properties, with all statements of a list about it,
and the groups are found at their places. -/
structure Files (grouping : Grouping) (properties : List PropertyId) (list : StatementList) :
    Prop where
  groups : grouping.groups = properties.map fun property => (property, list.withProperty property)
  places : ∀ property place,
    grouping.places.get? property = some place ↔ properties[place]? = some property

/-- There is a place for the group of the next statement, which is a new one at the end if the
property was not met before. -/
theorem Files.place (h : grouping.Files list.properties list) {next : Statement} {place : Nat}
    {after : Grouping} (hplace : grouping.place next.property = (place, after)) :
    (properties (list ++ [next]))[place]? = some next.property ∧
      after.Files (properties (list ++ [next])) list := by
  rw [properties_concat]
  unfold Grouping.place at hplace
  cases hknown : grouping.places.get? next.property with
  | some known =>
      rw [hknown] at hplace
      cases hplace
      have hfound := (h.places _ _).mp hknown
      rw [if_pos (List.mem_of_getElem? hfound)]
      exact ⟨hfound, h⟩
  | none =>
      have hnew : next.property ∉ list.properties := by
        intro hmember
        obtain ⟨place, hfound⟩ := List.mem_iff_getElem?.mp hmember
        rw [(h.places _ _).mpr hfound] at hknown
        cases hknown
      have hlength : grouping.groups.length = list.properties.length := by
        rw [h.groups, List.length_map]
      simp only [hknown, hlength] at hplace
      cases hplace
      rw [if_neg hnew]
      refine ⟨List.getElem?_concat_length, ?_, ?_⟩
      · rw [h.groups, List.map_append, List.map_singleton, withProperty_eq_nil hnew]
      · intro property place
        rw [SortedMap.get?_insert, getElem?_concat_eq_some_iff, ← h.places]
        by_cases same : property = next.property
        · subst same
          simp [hknown, eq_comm]
        · simp [same, Ne.symm same]

/-- The next statement comes to the end of the group of its property, and no other group is
touched. -/
theorem Files.add (h : grouping.Files list.properties list) (next : Statement) :
    (grouping.add next).Files (properties (list ++ [next])) (list ++ [next]) := by
  obtain ⟨⟨place, after⟩, hplace⟩ : ∃ placed, grouping.place next.property = placed := ⟨_, rfl⟩
  obtain ⟨hfound, hafter⟩ := h.place hplace
  rw [Grouping.add, hplace]
  refine ⟨?_, hafter.places⟩
  apply List.ext_getElem?
  intro index
  rw [List.getElem?_modify, hafter.groups, List.getElem?_map, List.getElem?_map]
  cases hproperty : (properties (list ++ [next]))[index]? with
  | none => rfl
  | some property =>
      have hsame : place = index ↔ next.property = property := by
        constructor
        · rintro rfl
          exact Option.some.inj (hfound.symm.trans hproperty)
        · rintro rfl
          rw [← hafter.places] at hfound hproperty
          exact Option.some.inj (hfound.symm.trans hproperty)
      by_cases same : place = index
      · simp [same, withProperty_concat, hsame.mp same]
      · simp [same, withProperty_concat, mt hsame.mpr same]

end Grouping

theorem files_foldl_add (list : StatementList) :
    (list.foldl Grouping.add {}).Files list.properties list := by
  induction list using List.reverseRecOn with
  | nil => exact ⟨rfl, fun _ _ => by simp [properties]⟩
  | append_singleton list last ih =>
      rw [List.foldl_append]
      exact ih.add last

/-- Each property in turn with its statements. -/
theorem grouped_eq (list : StatementList) :
    list.grouped = list.properties.map fun property => (property, list.withProperty property) :=
  (files_foldl_add list).groups

/-! ## Best statements -/

/-- Whether a rank is the highest one among the statements of a property. -/
structure IsHighest (list : StatementList) (property : PropertyId) (rank : Rank) : Prop where
  reached : ∃ statement ∈ list, statement.property = property ∧ statement.rank = rank
  bound : ∀ statement ∈ list, statement.property = property → statement.rank ≤ rank

/-- Whether a map tells the highest rank for each property that a list has statements of. -/
structure Tracks (ranks : SortedMap PropertyId Rank) (list : StatementList) : Prop where
  unmet : ∀ property, ranks.get? property = none →
    ∀ statement ∈ list, statement.property ≠ property
  highest : ∀ property rank, ranks.get? property = some rank → IsHighest list property rank

section Next

variable {list : StatementList} {property : PropertyId} {rank : Rank} {next : Statement}

theorem IsHighest.concat (h : IsHighest list property rank) (hnext : next.property = property) :
    IsHighest (list ++ [next]) property (max rank next.rank) := by
  constructor
  · rcases Rank.max_cases rank next.rank with hmax | hmax
    · obtain ⟨statement, member, hproperty, hrank⟩ := h.reached
      exact ⟨statement, List.mem_append_left _ member, hproperty, hrank.trans hmax.symm⟩
    · exact ⟨next, by simp, hnext, hmax.symm⟩
  · rw [List.forall_mem_append, List.forall_mem_singleton]
    constructor
    · intro statement member hproperty
      exact Rank.le_max_iff.mpr (.inl (h.bound statement member hproperty))
    · intro _
      exact Rank.le_max_iff.mpr (.inr (Nat.le_refl _))

theorem IsHighest.concat_of_ne (h : IsHighest list property rank)
    (hnext : next.property ≠ property) : IsHighest (list ++ [next]) property rank := by
  obtain ⟨⟨statement, member, hproperty, hrank⟩, hbound⟩ := h
  refine ⟨⟨statement, List.mem_append_left _ member, hproperty, hrank⟩, ?_⟩
  rw [List.forall_mem_append, List.forall_mem_singleton]
  exact ⟨hbound, fun same => absurd same hnext⟩

theorem isHighest_concat_of_unmet (h : ∀ statement ∈ list, statement.property ≠ next.property) :
    IsHighest (list ++ [next]) next.property next.rank := by
  refine ⟨⟨next, by simp, rfl, rfl⟩, ?_⟩
  rw [List.forall_mem_append, List.forall_mem_singleton]
  exact ⟨fun statement member same => absurd same (h statement member), fun _ => Nat.le_refl _⟩

/-- What the next statement changes is the highest rank of its own property. -/
theorem Tracks.concat {ranks : SortedMap PropertyId Rank} (h : Tracks ranks list)
    (next : Statement) :
    let highest := (ranks.get? next.property).getD .deprecated
    Tracks (ranks.insert next.property (max highest next.rank)) (list ++ [next]) := by
  intro highest
  constructor
  · intro property hnone
    rw [SortedMap.get?_insert] at hnone
    split at hnone
    next => cases hnone
    next hother =>
      rw [List.forall_mem_append, List.forall_mem_singleton]
      exact ⟨h.unmet property hnone, Ne.symm hother⟩
  · intro property rank hsome
    rw [SortedMap.get?_insert] at hsome
    split at hsome
    next same =>
      cases hsome
      subst same
      cases hbefore : ranks.get? next.property with
      | some before =>
          simp only [highest, hbefore, Option.getD_some]
          exact (h.highest _ _ hbefore).concat rfl
      | none =>
          simp only [highest, hbefore, Option.getD_none, Rank.max_deprecated]
          exact isHighest_concat_of_unmet (h.unmet _ hbefore)
    next hother => exact (h.highest property rank hsome).concat_of_ne (Ne.symm hother)

end Next

theorem tracks_highestRanks (list : StatementList) : Tracks list.highestRanks list := by
  induction list using List.reverseRecOn with
  | nil => exact ⟨by simp, fun _ _ h => by cases h⟩
  | append_singleton list last ih =>
      rw [highestRanks, List.foldl_append]
      exact ih.concat last

theorem get?_highestRanks_eq_some_iff {list : StatementList} {statement : Statement}
    (member : statement ∈ list) :
    list.highestRanks.get? statement.property = some statement.rank ↔
      ∀ other ∈ list, other.property = statement.property → other.rank ≤ statement.rank := by
  have htracks := list.tracks_highestRanks
  constructor
  · intro h
    exact (htracks.highest _ _ h).bound
  · intro hbound
    cases hfound : list.highestRanks.get? statement.property with
    | none => exact absurd rfl (htracks.unmet _ hfound statement member)
    | some rank =>
        obtain ⟨⟨other, hother, hproperty, rfl⟩, hhighest⟩ := htracks.highest _ _ hfound
        exact congrArg some
          (Rank.le_antisymm (hbound other hother hproperty) (hhighest statement member rfl))

/-- A statement is among the best if it is not deprecated and none of its property ranks higher. -/
theorem best_eq_filter (list : StatementList) :
    list.best = list.filter fun statement => statement.rank ≠ .deprecated ∧
      ∀ other ∈ list, other.property = statement.property → other.rank ≤ statement.rank := by
  unfold best
  apply List.filter_congr
  intro statement member
  rw [Bool.eq_iff_iff]
  simp only [Bool.and_eq_true, bne_iff_ne, beq_iff_eq, decide_eq_true_eq,
    get?_highestRanks_eq_some_iff member]

theorem mem_best_iff {list : StatementList} {statement : Statement} :
    statement ∈ list.best ↔ statement ∈ list ∧ statement.rank ≠ .deprecated ∧
      ∀ other ∈ list, other.property = statement.property → other.rank ≤ statement.rank := by
  rw [best_eq_filter, List.mem_filter, decide_eq_true_iff]

theorem exists_best {list : StatementList} {statement : Statement} (member : statement ∈ list)
    (h : statement.rank ≠ .deprecated) :
    ∃ best ∈ list.best, best.property = statement.property := by
  have htracks := list.tracks_highestRanks
  cases hfound : list.highestRanks.get? statement.property with
  | none => exact absurd rfl (htracks.unmet _ hfound statement member)
  | some rank =>
      obtain ⟨⟨best, hbest, hproperty, rfl⟩, hbound⟩ := htracks.highest _ _ hfound
      refine ⟨best, mem_best_iff.mpr ⟨hbest, ?_, ?_⟩, hproperty⟩
      · intro hdeprecated
        have hle := hbound statement member rfl
        rw [hdeprecated] at hle
        exact h (Rank.eq_deprecated_of_le hle)
      · intro other hother hsame
        exact hbound other hother (hsame.trans hproperty)

theorem best_best (list : StatementList) : list.best.best = list.best := by
  rw [best_eq_filter list.best, List.filter_eq_self]
  intro statement member
  obtain ⟨-, hrank, hbound⟩ := mem_best_iff.mp member
  refine decide_eq_true ⟨hrank, ?_⟩
  intro other hother
  exact hbound other (mem_best_iff.mp hother).1

/-! ## Both views -/

/-- How the groups and the best statements of a list stand to the list. -/
structure ViewedByProperty (list : StatementList) : Prop where
  /-- One group for each property, in the order in which the properties are first met. -/
  groups : list.grouped.map (·.1) = list.properties
  met : ∀ property, property ∈ list.properties ↔
    ∃ statement ∈ list, statement.property = property
  ordered : list.properties.Pairwise fun first second =>
    list.firstPlace first < list.firstPlace second
  distinct : list.properties.Nodup
  members : ∀ property group, (property, group) ∈ list.grouped →
    group = list.withProperty property
  /-- Every statement is in the groups as often as it is in the list. -/
  complete : (list.grouped.flatMap (·.2)).Perm list
  best : list.best = list.filter fun statement => statement.rank ≠ .deprecated ∧
    ∀ other ∈ list, other.property = statement.property → other.rank ≤ statement.rank
  represented : ∀ statement ∈ list, statement.rank ≠ .deprecated →
    ∃ best ∈ list.best, best.property = statement.property
  alike : ∀ first ∈ list.best, ∀ second ∈ list.best, first.property = second.property →
    first.rank = second.rank
  again : list.best.best = list.best

/-- The views by property hold each statement of the list where it belongs. -/
theorem viewedByProperty (list : StatementList) : list.ViewedByProperty where
  groups := by
    rw [grouped_eq, List.map_map]
    exact List.map_id _
  met _ := mem_properties
  ordered := list.properties_in_order
  distinct := list.nodup_properties
  members property group member := by
    rw [grouped_eq, List.mem_map] at member
    obtain ⟨_, -, same⟩ := member
    cases same
    rfl
  complete := by
    rw [grouped_eq, List.flatMap_map]
    exact perm_flatMap_filter Statement.property list.nodup_properties fun statement member =>
      mem_properties.mpr ⟨statement, member, rfl⟩
  best := list.best_eq_filter
  represented _ := exists_best
  alike first hfirst second hsecond same := by
    obtain ⟨hfirst, -, hbound⟩ := mem_best_iff.mp hfirst
    obtain ⟨hsecond, -, hbound'⟩ := mem_best_iff.mp hsecond
    exact Rank.le_antisymm (hbound' first hfirst same) (hbound second hsecond same.symm)
  again := list.best_best

end StatementList

end KnowledgeBase
