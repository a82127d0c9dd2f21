import Mathlib.Data.List.Induction
import Mathlib.Data.List.Nodup

/-!
Lists from which repetitions are dropped. Of equal members the first one stays, so a member that is
added at the end of a list stays exactly if the list does not have it.
-/

namespace KnowledgeBase

variable {α : Type} [DecidableEq α]

theorem eraseDups_concat (members : List α) (last : α) :
    (members ++ [last]).eraseDups =
      if last ∈ members then members.eraseDups else members.eraseDups ++ [last] := by
  rw [List.eraseDups_append, List.removeAll, List.filter_singleton, List.elem_eq_mem]
  split
  next h => simp [h]
  next h => simp [h, List.eraseDups_cons]

theorem nodup_eraseDups (members : List α) : members.eraseDups.Nodup := by
  induction members using List.reverseRecOn with
  | nil => exact List.nodup_nil
  | append_singleton members last ih =>
      rw [eraseDups_concat]
      split
      next => exact ih
      next hnew =>
        rw [← List.concat_eq_append]
        exact ih.concat (mt List.mem_eraseDups.mp hnew)

theorem eraseDups_eq_self {members : List α} (h : members.Nodup) : members.eraseDups = members := by
  induction members using List.reverseRecOn with
  | nil => rfl
  | append_singleton members last ih =>
      rw [← List.concat_eq_append, List.nodup_concat] at h
      obtain ⟨hnew, hmembers⟩ := h
      rw [eraseDups_concat, if_neg hnew, ih hmembers]

end KnowledgeBase
