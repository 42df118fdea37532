import Mathlib.Data.List.Basic
import Mathlib.Logic.Function.Basic
import Mathlib.Order.Nat

/-
  A log kept in numbered segments, the highest one oldest.
-/

namespace SingboxOps

variable {α : Type}

/- The segments `n`, ..., `0` of a log, one after another. -/
def flat (f : ℕ → List α) : ℕ → List α
  | 0 => f 0
  | n + 1 => f (n + 1) ++ flat f n

theorem flat_congr {f g : ℕ → List α} {n : ℕ} (h : ∀ i ≤ n, f i = g i) : flat f n = flat g n := by
  induction n with
  | zero => exact h 0 le_rfl
  | succ n ih => rw [flat, flat, h (n + 1) le_rfl, ih (fun i hi => h i (by omega))]

theorem mem_flat {f : ℕ → List α} {n : ℕ} {x : α} : x ∈ flat f n ↔ ∃ i ≤ n, x ∈ f i := by
  induction n with
  | zero => simp [flat]
  | succ n ih =>
    rw [flat, List.mem_append, ih]
    constructor
    · rintro (hTop | ⟨i, hi, hx⟩)
      · exact ⟨n + 1, le_rfl, hTop⟩
      · exact ⟨i, by omega, hx⟩
    · rintro ⟨i, hi, hx⟩
      rcases Nat.lt_or_eq_of_le hi with hLt | rfl
      · exact Or.inr ⟨i, by omega, hx⟩
      · exact Or.inl hx

theorem flat_append (f : ℕ → List α) (n : ℕ)
    (xs : List α) : flat (Function.update f 0 (f 0 ++ xs)) n = flat f n ++ xs := by
  induction n with
  | zero => simp [flat]
  | succ n ih =>
    rw [flat, flat, ih, Function.update_of_ne (Nat.succ_ne_zero n), List.append_assoc]

theorem flat_filter (p : α → Bool) {f g : ℕ → List α} {n : ℕ} (h : ∀ i ≤ n, (f i).filter p = (g i).filter p) :
    (flat f n).filter p = (flat g n).filter p := by
  induction n with
  | zero => exact h 0 le_rfl
  | succ n ih =>
    rw [flat, flat, List.filter_append, List.filter_append, h (n + 1) le_rfl, ih (fun i hi => h i (by omega))]

end SingboxOps
