import Mathlib.Data.List.Induction

/-
  Runs of a state machine with inputs and outputs.

  A machine is a function from a state and an input to an
  output and a next state; nondeterminism of the environment
  is part of the input.  A trace is the history of the inputs
  given and the outputs returned.  A guard restricts the
  inputs a state may be given.
-/

namespace SingboxOps

variable {σ ι ο : Type}

/- The state a list of inputs leads to. -/
def finalState (step : σ → ι → ο × σ) : σ → List ι → σ
  | s, [] => s
  | s, i :: rest => finalState step (step s i).2 rest

/- The inputs of a run, each with the output it got. -/
def history (step : σ → ι → ο × σ) : σ → List ι → List (ι × ο)
  | _, [] => []
  | s, i :: rest => (i, (step s i).1) :: history step (step s i).2 rest

/-
  `Trace step guard init h s`: from `init` the guarded inputs
  recorded in `h` were answered as recorded and lead to `s`.
-/
inductive Trace (step : σ → ι → ο × σ) (guard : σ → ι → Prop) (init : σ) : List (ι × ο) → σ → Prop where
  | start : Trace step guard init [] init
  | snoc {h : List (ι × ο)} {s : σ} (i : ι) :
      Trace step guard init h s →
      guard s i →
      Trace step guard init (h ++ [(i, (step s i).1)]) (step s i).2

/- A state some guarded run leads to. -/
def Reachable (step : σ → ι → ο × σ) (guard : σ → ι → Prop) (init s : σ) : Prop :=
  ∃ h, Trace step guard init h s

namespace Trace

variable {step : σ → ι → ο × σ} {guard : σ → ι → Prop} {init : σ}

theorem invariant {I : σ → Prop} (hInit : I init) (hStep : ∀ s i, I s → guard s i → I (step s i).2)
    {h : List (ι × ο)} {s : σ}
    (hTrace : Trace step guard init h s) : I s := by
  induction hTrace with
  | start => exact hInit
  | snoc i _ hGuard ih => exact hStep _ i ih hGuard

theorem history_invariant {I : List (ι × ο) → σ → Prop} (hInit : I [] init)
    (hStep : ∀ h s i, I h s → guard s i → I (h ++ [(i, (step s i).1)]) (step s i).2)
    {h : List (ι × ο)} {s : σ}
    (hTrace : Trace step guard init h s) : I h s := by
  induction hTrace with
  | start => exact hInit
  | snoc i _ hGuard ih => exact hStep _ _ i ih hGuard

end Trace

theorem finalState_append (step : σ → ι → ο × σ) (s : σ) (xs ys : List ι) :
    finalState step s (xs ++ ys) = finalState step (finalState step s xs) ys := by
  induction xs generalizing s with
  | nil => rfl
  | cons x xs ih => exact ih (step s x).2

theorem history_append (step : σ → ι → ο × σ) (s : σ) (xs ys : List ι) : history step s (xs ++ ys) =
      history step s xs ++ history step (finalState step s xs) ys := by
  induction xs generalizing s with
  | nil => rfl
  | cons x xs ih =>
    rw [List.cons_append, history, ih (step s x).2]
    rfl

@[simp] theorem map_fst_history (step : σ → ι → ο × σ) (s : σ)
    (xs : List ι) : (history step s xs).map Prod.fst = xs := by
  induction xs generalizing s with
  | nil => rfl
  | cons x xs ih => rw [history, List.map_cons, ih (step s x).2]

theorem trace_history (step : σ → ι → ο × σ) (s : σ) (xs : List ι) : Trace step (fun _ _ => True) s
      (history step s xs) (finalState step s xs) := by
  induction xs using List.reverseRecOn with
  | nil => exact .start
  | append_singleton xs x ih =>
    rw [history_append, finalState_append]
    exact ih.snoc x trivial

/- Each input of the list may be given where it is given. -/
def Guarded (step : σ → ι → ο × σ) (guard : σ → ι → Prop) : σ → List ι → Prop
  | _, [] => True
  | s, i :: rest => guard s i ∧ Guarded step guard (step s i).2 rest

theorem trace_guarded {step : σ → ι → ο × σ} {guard : σ → ι → Prop} {s : σ} {xs : List ι}
    (h : Guarded step guard s xs) :
    Trace step guard s (history step s xs) (finalState step s xs) := by
  have hFrom : ∀ (before : List (ι × ο)) (mid : σ) (rest : List ι),
        Trace step guard s before mid → Guarded step guard mid rest →
          Trace step guard s (before ++ history step mid rest) (finalState step mid rest) := by
    intro before mid rest hTrace hRest
    induction rest generalizing before mid with
    | nil => exact (List.append_nil before).symm ▸ hTrace
    | cons i rest ih =>
      have hNext := ih _ _ (hTrace.snoc i hRest.1) hRest.2
      rw [List.append_assoc] at hNext
      exact hNext
  exact hFrom [] s xs .start h

namespace Reachable

variable {step : σ → ι → ο × σ} {guard : σ → ι → Prop} {init : σ}

theorem refl : Reachable step guard init init := ⟨[], .start⟩

theorem step_of {s : σ} (hReach : Reachable step guard init s) (i : ι)
    (hGuard : guard s i) : Reachable step guard init (step s i).2 := by
  rcases hReach with ⟨h, hTrace⟩
  exact ⟨_, hTrace.snoc i hGuard⟩

theorem invariant {I : σ → Prop} (hInit : I init) (hStep : ∀ s i, I s → guard s i → I (step s i).2) {s : σ}
    (hReach : Reachable step guard init s) : I s := by
  rcases hReach with ⟨h, hTrace⟩
  exact hTrace.invariant hInit hStep

end Reachable

end SingboxOps
