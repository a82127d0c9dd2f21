/-!
Finite maps whose entries are kept in ascending key order. Two maps with the same
entries are equal, so an entity's terms, links and diff sections can be compared as
plain data, and every walk over a map visits the keys in one fixed order.
-/

namespace KnowledgeBase

/-- Entries in strictly ascending key order, hence one entry for each key. -/
structure SortedMap (κ α : Type) [Ord κ] where
  entries : List (κ × α)
  ascending : entries.Pairwise fun first second => compare first.1 second.1 = .lt

namespace SortedMap

variable {κ α β : Type} [Ord κ]

instance [DecidableEq κ] [DecidableEq α] : DecidableEq (SortedMap κ α) := fun left right =>
  if h : left.entries = right.entries then
    isTrue (by cases left; cases right; cases h; rfl)
  else
    isFalse fun same => h (congrArg SortedMap.entries same)

instance [BEq κ] [BEq α] : BEq (SortedMap κ α) := ⟨fun left right => left.entries == right.entries⟩

def empty : SortedMap κ α := ⟨[], .nil⟩

instance : Inhabited (SortedMap κ α) := ⟨empty⟩

private def insertEntry (key : κ) (value : α) : List (κ × α) → List (κ × α)
  | [] => [(key, value)]
  | entry :: rest =>
      match compare key entry.1 with
      | .lt => (key, value) :: entry :: rest
      | .eq => (key, value) :: rest
      | .gt => entry :: insertEntry key value rest

private theorem mem_insertEntry {key : κ} {value : α} {entry : κ × α} {entries : List (κ × α)}
    (h : entry ∈ insertEntry key value entries) : entry = (key, value) ∨ entry ∈ entries := by
  induction entries with
  | nil => simpa [insertEntry] using h
  | cons first rest ih =>
      unfold insertEntry at h
      split at h <;> simp only [List.mem_cons] at h ⊢ <;> grind

private theorem insertEntry_ascending [Std.TransOrd κ] [Std.LawfulEqOrd κ] (key : κ) (value : α)
    {entries : List (κ × α)}
    (h : entries.Pairwise fun first second => compare first.1 second.1 = .lt) :
    (insertEntry key value entries).Pairwise fun first second =>
      compare first.1 second.1 = .lt := by
  induction entries with
  | nil => simp [insertEntry]
  | cons first rest ih =>
      rw [List.pairwise_cons] at h
      unfold insertEntry
      split
      next before =>
        refine List.Pairwise.cons ?_ (List.Pairwise.cons h.1 h.2)
        intro entry member
        rcases List.mem_cons.mp member with rfl | later
        · exact before
        · exact Std.TransCmp.lt_trans before (h.1 entry later)
      next same =>
        have hkey : key = first.1 := Std.LawfulEqCmp.eq_of_compare same
        exact List.Pairwise.cons (fun entry later => hkey ▸ h.1 entry later) h.2
      next after =>
        refine List.Pairwise.cons ?_ (ih h.2)
        intro entry member
        rcases mem_insertEntry member with rfl | later
        · exact Std.OrientedCmp.lt_of_gt after
        · exact h.1 entry later

/-- The map with `value` at `key`, whether or not the key was there before. -/
def insert [Std.TransOrd κ] [Std.LawfulEqOrd κ] (map : SortedMap κ α) (key : κ) (value : α) :
    SortedMap κ α :=
  ⟨insertEntry key value map.entries, insertEntry_ascending key value map.ascending⟩

private def findEntry (key : κ) : List (κ × α) → Option α
  | [] => none
  | entry :: rest => if compare key entry.1 = .eq then some entry.2 else findEntry key rest

def get? (map : SortedMap κ α) (key : κ) : Option α := findEntry key map.entries

def contains (map : SortedMap κ α) (key : κ) : Bool := (map.get? key).isSome

/-- The map without `key`. -/
def erase (map : SortedMap κ α) (key : κ) : SortedMap κ α :=
  ⟨map.entries.filter fun entry => compare key entry.1 != .eq, map.ascending.filter _⟩

/-- Inserts the pairs from left to right, so the last value given for a key stays. -/
def ofList [Std.TransOrd κ] [Std.LawfulEqOrd κ] (pairs : List (κ × α)) : SortedMap κ α :=
  pairs.foldl (fun map pair => map.insert pair.1 pair.2) empty

def toList (map : SortedMap κ α) : List (κ × α) := map.entries

def keys (map : SortedMap κ α) : List κ := map.entries.map (·.1)

def values (map : SortedMap κ α) : List α := map.entries.map (·.2)

def size (map : SortedMap κ α) : Nat := map.entries.length

def isEmpty (map : SortedMap κ α) : Bool := map.entries.isEmpty

/-- Applies `f` to every value and leaves the keys as they are. -/
def mapValues (f : α → β) (map : SortedMap κ α) : SortedMap κ β :=
  ⟨map.entries.map fun entry => (entry.1, f entry.2), by
    rw [List.pairwise_map]
    exact map.ascending⟩

private theorem findEntry_insertEntry [Std.TransOrd κ] [Std.LawfulEqOrd κ] (key other : κ)
    (value : α) (entries : List (κ × α)) :
    findEntry other (insertEntry key value entries) =
      if compare other key = .eq then some value else findEntry other entries := by
  induction entries with
  | nil => rfl
  | cons first rest ih =>
      unfold insertEntry
      split
      next => rfl
      next same =>
        have hkey : key = first.1 := Std.LawfulEqCmp.eq_of_compare same
        by_cases hother : compare other key = .eq
        · simp [findEntry, hother]
        · have hfirst : compare other first.1 ≠ .eq := hkey ▸ hother
          simp [findEntry, hother, hfirst]
      next after =>
        simp only [findEntry, ih]
        by_cases hother : compare other key = .eq
        · have hkey : other = key := Std.LawfulEqCmp.eq_of_compare hother
          have hfirst : compare other first.1 ≠ .eq := by rw [hkey, after]; decide
          simp [hother, hfirst]
        · simp [hother]

/-- An inserted value is found under its key and no other key is affected. -/
theorem get?_insert [Std.TransOrd κ] [Std.LawfulEqOrd κ] [DecidableEq κ] (map : SortedMap κ α)
    (key other : κ) (value : α) :
    (map.insert key value).get? other = if other = key then some value else map.get? other := by
  simp [insert, get?, findEntry_insertEntry]

private theorem findEntry_filter [Std.TransOrd κ] [Std.LawfulEqOrd κ] (key other : κ)
    (entries : List (κ × α)) :
    findEntry other (entries.filter fun entry => compare key entry.1 != .eq) =
      if compare other key = .eq then none else findEntry other entries := by
  induction entries with
  | nil => simp [findEntry]
  | cons first rest ih =>
      by_cases hfirst : compare key first.1 = .eq
      · have hkey : key = first.1 := Std.LawfulEqCmp.eq_of_compare hfirst
        by_cases hother : compare other key = .eq
        · simp [hfirst, ih, hother]
        · have : compare other first.1 ≠ .eq := hkey ▸ hother
          simp [hfirst, ih, hother, findEntry, this]
      · by_cases hother : compare other key = .eq
        · have hkey : other = key := Std.LawfulEqCmp.eq_of_compare hother
          have : compare other first.1 ≠ .eq := by rw [hkey]; exact hfirst
          simp [hfirst, ih, hother, findEntry, this]
        · simp [hfirst, ih, hother, findEntry]

/-- Erasing a key removes it and nothing else. -/
theorem get?_erase [Std.TransOrd κ] [Std.LawfulEqOrd κ] [DecidableEq κ] (map : SortedMap κ α)
    (key other : κ) :
    (map.erase key).get? other = if other = key then none else map.get? other := by
  simp [erase, get?, findEntry_filter]

private theorem findEntry_eq_some_iff [Std.LawfulEqOrd κ] {key : κ} {value : α}
    {entries : List (κ × α)}
    (h : entries.Pairwise fun first second => compare first.1 second.1 = .lt) :
    findEntry key entries = some value ↔ (key, value) ∈ entries := by
  induction entries with
  | nil => simp [findEntry]
  | cons first rest ih =>
      rw [List.pairwise_cons] at h
      simp only [findEntry, List.mem_cons]
      by_cases same : compare key first.1 = .eq
      · have hkey : key = first.1 := Std.LawfulEqCmp.eq_of_compare same
        have absent : (key, value) ∉ rest := fun later => by
          have before : compare first.1 key = .lt := h.1 _ later
          rw [hkey, show compare first.1 first.1 = .eq from Std.ReflCmp.compare_self] at before
          cases before
        simp only [same, if_true, Option.some.injEq, absent, or_false, Prod.ext_iff]
        exact ⟨fun hvalue => ⟨hkey, hvalue.symm⟩, fun both => both.2.symm⟩
      · have other : (key, value) ≠ first := fun hfirst => by
          rw [← hfirst] at same
          exact same Std.ReflCmp.compare_self
        simp only [same, if_false, other, false_or]
        exact ih h.2

/-- What is found under a key is exactly the entry of that key. -/
theorem get?_eq_some_iff [Std.LawfulEqOrd κ] {map : SortedMap κ α} {key : κ} {value : α} :
    map.get? key = some value ↔ (key, value) ∈ map.toList :=
  findEntry_eq_some_iff map.ascending

@[simp] theorem get?_empty (key : κ) : (empty : SortedMap κ α).get? key = none := rfl

end SortedMap

end KnowledgeBase
