import Mathlib.Data.List.Basic

/-
  Items of one kind at the end of a history, with nothing but
  items of a second kind between them.
-/

namespace SingboxOps

variable {α : Type}

/- The history ends with `n` counted items or more. -/
def Streak (counts keeps : α → Bool) (n : ℕ) (history : List α) : Prop :=
  ∃ earlier window, history = earlier ++ window ∧ (∀ x ∈ window, counts x = true ∨ keeps x = true) ∧
      n ≤ window.countP counts

namespace Streak

variable {counts keeps : α → Bool} {n : ℕ} {history : List α}

theorem zero (history : List α) : Streak counts keeps 0 history :=
  ⟨history, [], (List.append_nil history).symm, fun _ hx => (List.not_mem_nil hx).elim, Nat.le_refl 0⟩

theorem mono {m : ℕ} (h : Streak counts keeps n history) (hLe : m ≤ n) : Streak counts keeps m history := by
  rcases h with ⟨earlier, window, hSplit, hAll, hCount⟩
  exact ⟨earlier, window, hSplit, hAll, Nat.le_trans hLe hCount⟩

theorem count (h : Streak counts keeps n history) {x : α}
    (hx : counts x = true) : Streak counts keeps (n + 1) (history ++ [x]) := by
  rcases h with ⟨earlier, window, rfl, hAll, hCount⟩
  refine ⟨earlier, window ++ [x], List.append_assoc _ _ _, ?_, ?_⟩
  · intro y hy
    rcases List.mem_append.mp hy with hOld | hNew
    · exact hAll y hOld
    · exact .inl (List.mem_singleton.mp hNew ▸ hx)
  · rw [List.countP_append, List.countP_singleton, if_pos hx]
    exact Nat.add_le_add_right hCount 1

theorem keep (h : Streak counts keeps n history) {x : α}
    (hx : keeps x = true) : Streak counts keeps n (history ++ [x]) := by
  rcases h with ⟨earlier, window, rfl, hAll, hCount⟩
  refine ⟨earlier, window ++ [x], List.append_assoc _ _ _, ?_, ?_⟩
  · intro y hy
    rcases List.mem_append.mp hy with hOld | hNew
    · exact hAll y hOld
    · exact .inr (List.mem_singleton.mp hNew ▸ hx)
  · rw [List.countP_append]
    exact Nat.le_trans hCount (Nat.le_add_right _ _)

end Streak

end SingboxOps
