import KnowledgeBase.SortedMap
import Mathlib.Data.List.Induction
import Mathlib.Data.List.Sort

/-!
Maps as functions of their keys. Two maps that answer every look-up alike are the same map,
so an operation is known once it is known what is found under each key afterwards.
-/

namespace KnowledgeBase.SortedMap

variable {κ α β : Type} [Ord κ] [Std.LawfulEqOrd κ]

private theorem lt_irrefl (key : κ) : compare key key ≠ .lt := by
  rw [show compare key key = .eq from Std.ReflCmp.compare_self]
  decide

/-- A list is determined by its members if their keys ascend. -/
theorem eq_of_ascending [Std.TransOrd κ] (key : β → κ) {list list' : List β}
    (h : list.Pairwise fun first second => compare (key first) (key second) = .lt)
    (h' : list'.Pairwise fun first second => compare (key first) (key second) = .lt)
    (hmembers : ∀ value, value ∈ list ↔ value ∈ list') : list = list' := by
  have hirrefl : Std.Irrefl fun first second => compare (key first) (key second) = .lt :=
    ⟨fun value => lt_irrefl (key value)⟩
  have htrans : IsTrans β fun first second => compare (key first) (key second) = .lt :=
    ⟨fun _ _ _ => Std.TransCmp.lt_trans⟩
  exact h.eq_of_mem_iff h' hmembers

theorem ext_get? [Std.TransOrd κ] {first second : SortedMap κ α}
    (h : ∀ key, first.get? key = second.get? key) : first = second := by
  have hmember (entry : κ × α) : entry ∈ first.entries ↔ entry ∈ second.entries := by
    obtain ⟨key, value⟩ := entry
    change (key, value) ∈ first.toList ↔ (key, value) ∈ second.toList
    rw [← get?_eq_some_iff, ← get?_eq_some_iff, h]
  have hentries := eq_of_ascending Prod.fst first.ascending second.ascending hmember
  cases first
  cases second
  cases hentries
  rfl

omit [Std.LawfulEqOrd κ] in
theorem eq_of_beq [BEq κ] [LawfulBEq κ] [BEq α] [LawfulBEq α] {first second : SortedMap κ α}
    (h : (first == second) = true) : first = second := by
  obtain ⟨entries, ascending⟩ := first
  obtain ⟨entries', ascending'⟩ := second
  obtain rfl : entries = entries' := LawfulBEq.eq_of_beq h
  rfl

omit [Std.LawfulEqOrd κ] in
theorem isEmpty_iff {map : SortedMap κ α} : map.isEmpty = true ↔ map = .empty := by
  constructor
  · obtain ⟨entries, ascending⟩ := map
    intro h
    obtain rfl : entries = [] := List.isEmpty_iff.mp h
    rfl
  · rintro rfl
    rfl

theorem nodup_keys (map : SortedMap κ α) : map.keys.Nodup := by
  rw [keys, List.Nodup, List.pairwise_map]
  refine map.ascending.imp ?_
  intro left right before same
  exact lt_irrefl right.1 (by rwa [same] at before)

theorem mem_keys_iff {map : SortedMap κ α} {key : κ} :
    key ∈ map.keys ↔ (map.get? key).isSome := by
  rw [Option.isSome_iff_exists, keys, List.mem_map]
  constructor
  · rintro ⟨⟨found, value⟩, member, rfl⟩
    exact ⟨value, get?_eq_some_iff.mpr member⟩
  · rintro ⟨value, hvalue⟩
    exact ⟨(key, value), get?_eq_some_iff.mp hvalue, rfl⟩

section Lookup

variable [BEq κ] [LawfulBEq κ]

omit [Ord κ] [Std.LawfulEqOrd κ] in
/-- With one pair for each key, a look-up in a list finds exactly its pairs. -/
theorem lookup_eq_some_iff_of_nodup {pairs : List (κ × α)} (h : (pairs.map (·.1)).Nodup)
    {key : κ} {value : α} : pairs.lookup key = some value ↔ (key, value) ∈ pairs := by
  induction pairs with
  | nil => simp
  | cons first rest ih =>
      rw [List.map_cons, List.nodup_cons] at h
      rw [List.lookup_cons, List.mem_cons]
      by_cases same : key = first.1
      · have absent : (key, value) ∉ rest := fun later =>
          h.1 (List.mem_map.mpr ⟨_, later, same⟩)
        simp [same, Prod.ext_iff, eq_comm, same ▸ absent]
      · rw [beq_false_of_ne same, Prod.ext_iff]
        simp only [same, false_and, false_or]
        exact ih h.2

theorem lookup_toList (map : SortedMap κ α) (key : κ) : map.toList.lookup key = map.get? key := by
  have hkeys : (map.toList.map (·.1)).Nodup := map.nodup_keys
  ext value
  rw [lookup_eq_some_iff_of_nodup hkeys, get?_eq_some_iff]

end Lookup

variable [Std.TransOrd κ]

theorem ofList_append_singleton (pairs : List (κ × α)) (pair : κ × α) :
    ofList (pairs ++ [pair]) = (ofList pairs).insert pair.1 pair.2 := by
  simp [ofList]

variable [DecidableEq κ]

/-- What is found in a map that was made from pairs is one of them. -/
theorem mem_of_get?_ofList {pairs : List (κ × α)} {key : κ} {value : α}
    (h : (ofList pairs).get? key = some value) : (key, value) ∈ pairs := by
  induction pairs using List.reverseRecOn with
  | nil => cases h
  | append_singleton pairs last ih =>
      rw [ofList_append_singleton, get?_insert] at h
      rw [List.mem_append, List.mem_singleton]
      split at h
      next same =>
        cases h
        exact Or.inr (congrArg (·, last.2) same)
      next => exact Or.inl (ih h)

/-- With one pair for each key, exactly the pairs are found. -/
theorem get?_ofList_eq_some_iff {pairs : List (κ × α)} (h : (pairs.map (·.1)).Nodup)
    {key : κ} {value : α} : (ofList pairs).get? key = some value ↔ (key, value) ∈ pairs := by
  induction pairs using List.reverseRecOn with
  | nil => simp [ofList]
  | append_singleton pairs last ih =>
      rw [List.map_append, List.nodup_append] at h
      obtain ⟨hpairs, -, hfresh⟩ := h
      rw [ofList_append_singleton, get?_insert, List.mem_append, List.mem_singleton]
      by_cases same : key = last.1
      · have absent : (key, value) ∉ pairs := fun member =>
          hfresh key (List.mem_map_of_mem member) last.1 (by simp) same
        simp only [same, if_true, Option.some.injEq, Prod.ext_iff, true_and]
        rw [← same]
        simp [absent, eq_comm]
      · simp [same, ih hpairs, Prod.ext_iff]

/-- A map made by a rule that gives each key its value has these values at the given keys. -/
theorem get?_ofList_filterMap (keys : List κ) (rule : κ → Option α) (key : κ) :
    (ofList (keys.filterMap fun key => (rule key).map fun value => (key, value))).get? key =
      if key ∈ keys then rule key else none := by
  induction keys using List.reverseRecOn with
  | nil => simp [ofList]
  | append_singleton keys last ih =>
      rw [List.filterMap_append]
      cases hrule : rule last with
      | none =>
          simp only [List.filterMap_cons, hrule, Option.map_none, List.filterMap_nil,
            List.append_nil, ih, List.mem_append, List.mem_singleton]
          by_cases same : key = last
          · simp [same, hrule]
          · simp [same]
      | some value =>
          simp only [List.filterMap_cons, hrule, Option.map_some, List.filterMap_nil,
            ofList_append_singleton, get?_insert, ih, List.mem_append, List.mem_singleton]
          by_cases same : key = last
          · simp [same, hrule]
          · simp [same]

@[simp] theorem ofList_toList (map : SortedMap κ α) : ofList map.toList = map := by
  apply ext_get?
  intro key
  ext value
  have hkeys : (map.toList.map (·.1)).Nodup := map.nodup_keys
  rw [get?_ofList_eq_some_iff hkeys, get?_eq_some_iff]

/-! ## Entries before a key -/

/-- The entries that a walk in key order meets before it comes to a key. -/
def below (map : SortedMap κ α) (key : κ) : SortedMap κ α :=
  ⟨map.entries.filter fun entry => compare entry.1 key == .lt, map.ascending.filter _⟩

omit [Std.LawfulEqOrd κ] [Std.TransOrd κ] [DecidableEq κ] in
/-- The entries before and after one have smaller and greater keys. -/
theorem compare_of_split {map : SortedMap κ α} {before rest : List (κ × α)} {key : κ}
    {value : α} (h : map.toList = before ++ (key, value) :: rest) :
    (∀ entry ∈ before, compare entry.1 key = .lt) ∧
      ∀ entry ∈ rest, compare key entry.1 = .lt := by
  have hascending := map.ascending
  rw [show map.entries = map.toList from rfl, h, List.pairwise_append,
    List.pairwise_cons] at hascending
  obtain ⟨-, ⟨hafter, -⟩, hbefore⟩ := hascending
  constructor
  · intro entry member
    exact hbefore entry member _ (List.mem_cons_self ..)
  · exact hafter

omit [DecidableEq κ] in
theorem toList_below {map : SortedMap κ α} {before rest : List (κ × α)} {key : κ} {value : α}
    (h : map.toList = before ++ (key, value) :: rest) : (map.below key).toList = before := by
  obtain ⟨hbefore, hafter⟩ := compare_of_split h
  have hkept : before.filter (fun entry => compare entry.1 key == .lt) = before := by
    rw [List.filter_eq_self]
    intro entry member
    exact beq_iff_eq.mpr (hbefore entry member)
  have hdropped : rest.filter (fun entry => compare entry.1 key == .lt) = [] := by
    rw [List.filter_eq_nil_iff]
    intro entry member
    have hgreater := Std.OrientedCmp.gt_of_lt (hafter entry member)
    simp [hgreater]
  change map.toList.filter (fun entry => compare entry.1 key == .lt) = before
  rw [h, List.filter_append, hkept, List.filter_cons, hdropped]
  simp

/-! ## Values that are fit for their keys -/

/-- Whether each value of a map obeys a rule for its key. -/
def All (rule : κ → α → Prop) (map : SortedMap κ α) : Prop :=
  ∀ key value, map.get? key = some value → rule key value

namespace All

variable {rule : κ → α → Prop} {map : SortedMap κ α}

omit [Std.LawfulEqOrd κ] [Std.TransOrd κ] [DecidableEq κ] in
theorem empty : (SortedMap.empty : SortedMap κ α).All rule := by
  intro key value hvalue
  cases hvalue

theorem insert (h : map.All rule) {key : κ} {value : α} (hvalue : rule key value) :
    (map.insert key value).All rule := by
  intro other found hfound
  rw [get?_insert] at hfound
  by_cases same : other = key
  · rw [if_pos same, Option.some.injEq] at hfound
    rwa [same, ← hfound]
  · rw [if_neg same] at hfound
    exact h other found hfound

theorem erase (h : map.All rule) (key : κ) : (map.erase key).All rule := by
  intro other found hfound
  rw [get?_erase] at hfound
  by_cases same : other = key
  · simp [same] at hfound
  · rw [if_neg same] at hfound
    exact h other found hfound

end All

end KnowledgeBase.SortedMap
