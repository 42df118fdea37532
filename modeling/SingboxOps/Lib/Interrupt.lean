import Mathlib.Data.List.Basic

/-
  Plans of changes that can be cut short.

  A plan is a list of changes, each of which may be refused by
  the state it meets.  Carrying it out stops at the first
  refusal and after a given number of changes, whether a fault
  or a crash is what stops it there.
-/

namespace SingboxOps

variable {σ : Type}

/- Whether the plan was carried out, and the state it left. -/
def perform : List (σ → Option σ) → ℕ → σ → Bool × σ
  | [], _, s => (true, s)
  | _ :: _, 0, s => (false, s)
  | change :: rest, steps + 1, s =>
    match change s with
    | none => (false, s)
    | some s' => perform rest steps s'

/-
  From `P` the plan leads to `Q` where it is carried out, and
  to `I` wherever it is cut.
-/
structure Carries (I P : σ → Prop) (plan : List (σ → Option σ)) (Q : σ → Prop) : Prop where
  cut : ∀ steps s, P s → I (perform plan steps s).2
  done : ∀ steps s, P s → (perform plan steps s).1 = true → Q (perform plan steps s).2

namespace Carries

variable {I P P' Q R : σ → Prop} {change : σ → Option σ}
variable {plan others : List (σ → Option σ)}

theorem nil (hCut : ∀ s, P s → I s) (hDone : ∀ s, P s → Q s) : Carries I P [] Q :=
  ⟨fun _ s h => hCut s h, fun _ s h _ => hDone s h⟩

theorem cons (hCut : ∀ s, P s → I s) (hChange : ∀ s s', P s → change s = some s' → R s')
    (hRest : Carries I R plan Q) : Carries I P (change :: plan) Q := by
  constructor
  · intro steps s h
    cases steps with
    | zero => exact hCut s h
    | succ steps =>
      rw [perform]
      cases hSome : change s with
      | none => exact hCut s h
      | some s' => exact hRest.cut steps s' (hChange s s' h hSome)
  · intro steps s h hDone
    cases steps with
    | zero => cases hDone
    | succ steps =>
      rw [perform] at hDone ⊢
      cases hSome : change s with
      | none =>
        rw [hSome] at hDone
        cases hDone
      | some s' =>
        rw [hSome] at hDone
        exact hRest.done steps s' (hChange s s' h hSome) hDone

theorem append (h : Carries I P plan R) (h' : Carries I R others Q) : Carries I P (plan ++ others) Q := by
  induction plan generalizing P with
  | nil =>
    constructor
    · intro steps s hP
      exact h'.cut steps s (h.done 0 s hP rfl)
    · intro steps s hP hDone
      exact h'.done steps s (h.done 0 s hP rfl) hDone
  | cons change rest ih =>
    refine cons (R := fun s' => ∃ s, P s ∧ change s = some s') (fun s hP => h.cut 0 s hP)
      (fun s s' hP hSome => ⟨s, hP, hSome⟩) (ih ?_)
    constructor
    · rintro steps s' ⟨s, hP, hSome⟩
      have hCut := h.cut (steps + 1) s hP
      rw [perform, hSome] at hCut
      exact hCut
    · rintro steps s' ⟨s, hP, hSome⟩ hDone
      have hEnd := h.done (steps + 1) s hP
      rw [perform, hSome] at hEnd
      exact hEnd hDone

end Carries

variable {α : Type}

/- The changes that put each value, one after the other. -/
def putting (put : σ → α → σ) (values : List α) : List (σ → Option σ) :=
  values.map (fun value s => some (put s value))

theorem perform_zero (plan : List (σ → Option σ)) (s : σ) : (perform plan 0 s).2 = s := by
  cases plan <;> rfl

section Putting

variable (put : σ → α → σ) (hPut : ∀ s x y, put (put s x) y = put s y)

include hPut

/-
  A value that is put replaces the one before it: cut among
  them a plan leaves the last one it put.
-/
theorem perform_putting (values : List α) (rest : List (σ → Option σ)) (n : ℕ) (s : σ) :
    (n = 0 ∧ (perform (putting put values ++ rest) n s).2 = s) ∨ (∃ k x, n = k + 1 ∧ values[k]? = some x ∧
        (perform (putting put values ++ rest) n s).2 = put s x) ∨
      (∃ k, n = values.length + (k + 1) ∧ perform (putting put values ++ rest) n s =
          perform rest (k + 1) (values.foldl put s)) := by
  induction values generalizing n s with
  | nil =>
    cases n with
    | zero => exact .inl ⟨rfl, perform_zero _ s⟩
    | succ n => exact .inr (.inr ⟨n, (Nat.zero_add _).symm, rfl⟩)
  | cons value values ih =>
    cases n with
    | zero => exact .inl ⟨rfl, rfl⟩
    | succ n =>
      have hNext : perform (putting put (value :: values) ++ rest) (n + 1) s =
            perform (putting put values ++ rest) n (put s value) :=
        rfl
      rw [hNext]
      rcases ih n (put s value) with ⟨rfl, hSame⟩ | ⟨k, x, rfl, hAt, hLast⟩ | ⟨k, rfl, hRest⟩
      · exact .inr (.inl ⟨0, value, rfl, rfl, hSame⟩)
      · exact .inr (.inl ⟨k + 1, x, rfl, hAt, by rw [hLast, hPut]⟩)
      · refine .inr (.inr ⟨k, ?_, hRest⟩)
        rw [List.length_cons]
        omega

theorem foldl_put_concat (values : List α) (value : α)
    (s : σ) : (values ++ [value]).foldl put s = put s value := by
  induction values generalizing s with
  | nil => rfl
  | cons first values ih => rw [List.cons_append, List.foldl_cons, ih, hPut]

omit hPut

variable (drop : σ → σ) (hDrop : ∀ s x, drop (put s x) = drop s)

include hDrop

theorem drop_foldl (values : List α) (s : σ) : drop (values.foldl put s) = drop s := by
  induction values generalizing s with
  | nil => rfl
  | cons value values ih => rw [List.foldl_cons, ih, hDrop]

theorem perform_dropped (values : List α) (s : σ) : perform (putting put values ++ [fun s => some (drop s)])
      (values.length + 1) s = (true, drop s) := by
  induction values generalizing s with
  | nil => rfl
  | cons value values ih =>
    have hNext : perform (putting put (value :: values) ++
          [fun s => some (drop s)]) (values.length + 1 + 1) s =
        perform (putting put values ++ [fun s => some (drop s)]) (values.length + 1) (put s value) := rfl
    rw [List.length_cons, hNext, ih, hDrop]

include hPut

theorem perform_dropping (values : List α) (n : ℕ)
    (s : σ) : (n = 0 ∧ (perform (putting put values ++ [fun s => some (drop s)]) n s).2 = s) ∨
      (∃ k x, n = k + 1 ∧ values[k]? = some x ∧
        (perform (putting put values ++ [fun s => some (drop s)]) n s).2 = put s x) ∨
      (perform (putting put values ++ [fun s => some (drop s)]) n s).2 = drop s := by
  rcases perform_putting put hPut values [fun s => some (drop s)] n s with
    hStart | hCut | ⟨k, -, hRest⟩
  · exact .inl hStart
  · exact .inr (.inl hCut)
  · refine .inr (.inr ?_)
    rw [hRest]
    exact drop_foldl put drop hDrop values s

end Putting

end SingboxOps
