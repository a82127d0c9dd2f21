import KnowledgeBase.Proofs.Construction
import KnowledgeBase.Proofs.ContentEquality

/-!
Lists of snaks as sets. Which snaks a list has is asked up to equality of contents, so equal
snaks can stand for each other. Adding puts one more snak into the set; removing takes out the
only one that is equal to the given one.
-/

namespace KnowledgeBase.SnakList

variable {list : SnakList} {snak other : Snak}

theorem contains_iff_exists :
    list.contains snak = true ↔ ∃ member ∈ list.snaks, (member == snak) = true :=
  List.any_eq_true

theorem contains_congr (h : (snak == other) = true) :
    list.contains snak = list.contains other := by
  unfold contains
  congr
  funext member
  exact BEq.congr_right h

theorem contains_of_mem (hmember : snak ∈ list.snaks) (h : snak.NaNFree) :
    list.contains snak = true :=
  contains_iff_exists.mpr ⟨snak, hmember, h.beq_self⟩

theorem contains_add (list : SnakList) (snak other : Snak) :
    (list.add snak).contains other = (list.contains other || snak == other) := by
  rw [add]
  split
  next hpresent =>
    cases hsame : snak == other with
    | true => rw [← contains_congr hsame, hpresent, Bool.true_or]
    | false => rw [Bool.or_false]
  next => simp [contains]

theorem contains_foldl_add (added : List Snak) (list : SnakList) (other : Snak) :
    (added.foldl SnakList.add list).contains other =
      (list.contains other || added.any (· == other)) := by
  induction added generalizing list with
  | nil => rw [List.foldl_nil, List.any_nil, Bool.or_false]
  | cons first added ih =>
      rw [List.foldl_cons, ih, contains_add, List.any_cons, Bool.or_assoc]

theorem snaks_remove (list : SnakList) (snak : Snak) :
    (list.remove snak).snaks = list.snaks.eraseP (· == snak) := by
  rw [List.eraseP_eq_eraseIdx, remove]
  cases list.snaks.findIdx? (· == snak) <;> rfl

theorem Distinct.snaks_remove (h : list.Distinct) (snak : Snak) :
    (list.remove snak).snaks = list.snaks.filter (!· == snak) := by
  rw [SnakList.snaks_remove]
  refine eraseP_eq_filter (h.imp fun {first second} hdiffer hfirst => ?_)
  rw [← BEq.congr_right hfirst]
  exact BEq.symm_false hdiffer

theorem Distinct.remove (h : list.Distinct) (snak : Snak) : (list.remove snak).Distinct := by
  rw [Distinct, h.snaks_remove]
  exact h.filter _

theorem Distinct.snaks_foldl_remove (h : list.Distinct) (removed : List Snak) :
    (removed.foldl SnakList.remove list).snaks =
      list.snaks.filter fun member => !removed.any (member == ·) := by
  induction removed generalizing list with
  | nil => exact (List.filter_eq_self.mpr fun _ _ => rfl).symm
  | cons first removed ih =>
      rw [List.foldl_cons, ih (h.remove first), h.snaks_remove, List.filter_filter]
      congr
      funext member
      rw [List.any_cons, Bool.not_or, Bool.and_comm]

end KnowledgeBase.SnakList
