import Mathlib.Data.List.Forall2
import Mathlib.Data.List.Sort
import Mathlib.Data.String.Basic

/-!
Sorting by the text of a key. The sort keeps the members of one key in their order, so what it
forgets is how the members of different keys are interleaved, and nothing else.
-/

namespace KnowledgeBase

variable {α : Type}

private theorem key_trans (key : α → String) (first second third : α) :
    decide (key first ≤ key second) = true → decide (key second ≤ key third) = true →
      decide (key first ≤ key third) = true := by
  simp only [decide_eq_true_eq]
  exact String.le_trans

private theorem key_total (key : α → String) (first second : α) :
    (decide (key first ≤ key second) || decide (key second ≤ key first)) = true := by
  simp only [Bool.or_eq_true, decide_eq_true_eq]
  exact String.le_total _ _

theorem sorted_mergeSort (key : α → String) (list : List α) :
    (list.mergeSort fun left right => key left ≤ key right).Pairwise
      fun left right => key left ≤ key right := by
  simpa only [decide_eq_true_eq] using
    List.pairwise_mergeSort (key_trans key) (key_total key) list

/-- Sorting keeps the members of one key in their order. -/
theorem filter_mergeSort (key : α → String) (list : List α) (wanted : String) :
    (list.mergeSort fun left right => key left ≤ key right).filter (key · == wanted) =
      list.filter (key · == wanted) := by
  have hsorted : (list.filter (key · == wanted)).Pairwise
      fun left right => decide (key left ≤ key right) = true := by
    refine List.pairwise_of_forall_mem_list ?_
    intro left hleft right hright
    have hleft : key left = wanted := by simpa using (List.mem_filter.mp hleft).2
    have hright : key right = wanted := by simpa using (List.mem_filter.mp hright).2
    simp [hleft, hright]
  have hsublist :=
    List.sublist_mergeSort (key_trans key) (key_total key) hsorted List.filter_sublist
  have hfiltered := hsublist.filter (key · == wanted)
  rw [List.filter_filter] at hfiltered
  simp only [Bool.and_self] at hfiltered
  refine (hfiltered.eq_of_length ?_).symm
  exact ((List.mergeSort_perm list _).filter _).length_eq.symm

section Related

variable {related : α → α → Prop} {key : α → String} {first second : List α}

/-- Lists with the same keys are related member by member if they are key by key. -/
theorem forall₂_of_filter (hkeys : first.map key = second.map key)
    (h : ∀ wanted, List.Forall₂ related (first.filter (key · == wanted))
      (second.filter (key · == wanted))) : List.Forall₂ related first second := by
  induction first generalizing second with
  | nil =>
      rw [List.map_eq_nil_iff.mp hkeys.symm]
      exact .nil
  | cons left lefts ih =>
      cases second with
      | nil => cases hkeys
      | cons right rights =>
          obtain ⟨hkey, hrest⟩ := List.cons.inj hkeys
          have hhead := h (key left)
          rw [List.filter_cons_of_pos (by simp), List.filter_cons_of_pos (by simp [hkey]),
            List.forall₂_cons] at hhead
          refine .cons hhead.1 (ih hrest fun wanted => ?_)
          by_cases hleft : (key left == wanted) = true
          · obtain rfl := beq_iff_eq.mp hleft
            exact hhead.2
          · have hright : ¬(key right == wanted) = true := hkey ▸ hleft
            simpa [List.filter_cons, hleft, hright] using h wanted

/-- The keys of sorted lists are the same if each key is there equally often. -/
private theorem map_mergeSort_eq
    (h : ∀ wanted, (first.filter (key · == wanted)).length =
      (second.filter (key · == wanted)).length) :
    (first.mergeSort fun left right => key left ≤ key right).map key =
      (second.mergeSort fun left right => key left ≤ key right).map key := by
  have hcount (list : List α) (wanted : String) :
      (list.map key).count wanted = (list.filter (key · == wanted)).length := by
    rw [← List.countP_eq_length_filter, List.count, List.countP_map]
    rfl
  have hperm : (first.map key).Perm (second.map key) := by
    rw [List.perm_iff_count]
    intro wanted
    rw [hcount, hcount, h]
  have hsorted (list : List α) := (List.mergeSort_perm list fun left right =>
    key left ≤ key right).map key
  refine List.Perm.eq_of_pairwise (fun _ _ _ _ => String.le_antisymm)
    (List.pairwise_map.mpr (sorted_mergeSort key first))
    (List.pairwise_map.mpr (sorted_mergeSort key second)) ?_
  exact ((hsorted first).trans hperm).trans (hsorted second).symm

/-- Sorted lists are related member by member exactly if the lists are key by key. -/
theorem forall₂_mergeSort_iff
    (hkey : ∀ left right, related left right → key left = key right) :
    List.Forall₂ related (first.mergeSort fun left right => key left ≤ key right)
        (second.mergeSort fun left right => key left ≤ key right) ↔
      ∀ wanted, List.Forall₂ related (first.filter (key · == wanted))
        (second.filter (key · == wanted)) := by
  constructor
  · intro h wanted
    rw [← filter_mergeSort key first, ← filter_mergeSort key second]
    refine List.rel_filter ?_ h
    intro left right hrelated
    simp only [hkey left right hrelated]
  · intro h
    apply forall₂_of_filter (map_mergeSort_eq fun wanted => (h wanted).length_eq)
    intro wanted
    rw [filter_mergeSort, filter_mergeSort]
    exact h wanted

theorem mergeSort_eq_iff :
    (first.mergeSort fun left right => key left ≤ key right) =
        (second.mergeSort fun left right => key left ≤ key right) ↔
      ∀ wanted, first.filter (key · == wanted) = second.filter (key · == wanted) := by
  have hiff : List.Forall₂ Eq (first.mergeSort fun left right => key left ≤ key right)
        (second.mergeSort fun left right => key left ≤ key right) ↔
      ∀ wanted, List.Forall₂ Eq (first.filter (key · == wanted))
        (second.filter (key · == wanted)) :=
    forall₂_mergeSort_iff fun _ _ h => congrArg key h
  simpa only [List.forall₂_eq_eq_eq] using hiff

/-- A list is known from its sorted members and the order of their keys. -/
theorem eq_of_mergeSort_eq (key : α → String) (hkeys : first.map key = second.map key)
    (h : (first.mergeSort fun left right => key left ≤ key right) =
      second.mergeSort fun left right => key left ≤ key right) : first = second := by
  have hfilters := mergeSort_eq_iff.mp h
  rw [← List.forall₂_eq_eq_eq]
  refine forall₂_of_filter hkeys fun wanted => ?_
  rw [List.forall₂_eq_eq_eq]
  exact hfilters wanted

end Related

end KnowledgeBase
