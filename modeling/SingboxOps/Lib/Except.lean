import Mathlib.Tactic.TypeStar

/-
  Inversion of computations that may fail.
-/

namespace SingboxOps

variable {ε α β : Type}

theorem except_bind_ok {x : Except ε α} {f : α → Except ε β} {b : β}
    (h : x >>= f = .ok b) : ∃ a, x = .ok a ∧ f a = .ok b := by
  cases x with
  | error e => cases h
  | ok a => exact ⟨a, rfl, h⟩

theorem except_bind_ok_iff {x : Except ε α} {f : α → Except ε β}
    {b : β} : x >>= f = .ok b ↔ ∃ a, x = .ok a ∧ f a = .ok b := by
  constructor
  · exact except_bind_ok
  · rintro ⟨a, rfl, h⟩
    exact h

theorem except_bind_error {x : Except ε α} {f : α → Except ε β} {e : ε}
    (h : x >>= f = .error e) : x = .error e ∨ ∃ a, x = .ok a ∧ f a = .error e := by
  cases x with
  | error e' =>
    left
    cases h
    rfl
  | ok a => exact Or.inr ⟨a, rfl, h⟩

theorem except_bind_of_ok {x : Except ε α} {f : α → Except ε β} {a : α} (h : x = .ok a) : x >>= f = f a := by
  rw [h]
  rfl

theorem except_bind_of_error {x : Except ε α} {f : α → Except ε β} {e : ε}
    (h : x = .error e) : x >>= f = .error e := by
  rw [h]
  rfl

theorem except_guard_ok {p : Prop} [Decidable p] {a b : α} {e : ε}
    (h : (if p then Except.ok a else .error e) = .ok b) : p ∧ a = b := by
  by_cases hp : p
  · rw [if_pos hp] at h
    exact ⟨hp, Except.ok.inj h⟩
  · rw [if_neg hp] at h
    cases h

theorem except_guard_error {p : Prop} [Decidable p] {a : α} {e e' : ε}
    (h : (if p then Except.ok a else .error e) = .error e') : e = e' := by
  by_cases hp : p
  · rw [if_pos hp] at h
    cases h
  · rw [if_neg hp] at h
    exact Except.error.inj h

end SingboxOps
