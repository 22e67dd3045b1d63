import Mathlib.Data.List.Induction

/-!
Lists without repetitions, each item at its first occurrence.
-/

set_option autoImplicit false

namespace CallAtlas

variable {α : Type} [BEq α] [LawfulBEq α]

theorem eraseDups_snoc (l : List α) (a : α) :
    (l ++ [a]).eraseDups = if a ∈ l then l.eraseDups else l.eraseDups ++ [a] := by
  rw [List.eraseDups_append]
  by_cases ha : a ∈ l
  · simp [List.cons_removeAll, ha]
  · simp [List.cons_removeAll, ha, List.eraseDups_cons]

theorem nodup_eraseDups (l : List α) : l.eraseDups.Nodup := by
  induction l using List.reverseRecOn with
  | nil => exact List.nodup_nil
  | append_singleton l s ih =>
    rw [eraseDups_snoc]
    split
    · exact ih
    · rename_i hs
      rw [List.nodup_append]
      refine ⟨ih, by simp, ?_⟩
      intro a ha b hb heq
      rw [List.mem_singleton.mp hb] at heq
      rw [heq, List.mem_eraseDups] at ha
      exact hs ha

/-- What is left stands in the order of its first occurrences. -/
theorem pairwise_idxOf_eraseDups (l : List α) :
    l.eraseDups.Pairwise (fun a b => l.idxOf a < l.idxOf b) := by
  induction l using List.reverseRecOn with
  | nil => simp
  | append_singleton l s ih =>
    have hearlier : l.eraseDups.Pairwise
        (fun a b => (l ++ [s]).idxOf a < (l ++ [s]).idxOf b) := by
      apply ih.imp_of_mem
      intro a b ha hb hlt
      rwa [List.idxOf_append, List.idxOf_append, if_pos (List.mem_eraseDups.mp ha),
        if_pos (List.mem_eraseDups.mp hb)]
    rw [eraseDups_snoc]
    split
    · exact hearlier
    · rename_i hs
      rw [List.pairwise_append]
      refine ⟨hearlier, by simp, ?_⟩
      intro a ha b hb
      obtain rfl : b = s := List.mem_singleton.mp hb
      have ha := List.mem_eraseDups.mp ha
      have hlt := List.idxOf_lt_length_of_mem ha
      rw [List.idxOf_append, List.idxOf_append, if_pos ha, if_neg hs]
      omega

end CallAtlas
