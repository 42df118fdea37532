import Mathlib.Algebra.Order.Group.Defs
import Mathlib.Algebra.Order.Ring.Nat
import Mathlib.Algebra.BigOperators.Group.List.Basic
import Mathlib.Algebra.Order.BigOperators.Group.List
import Mathlib.Order.Monotone.Basic
import Mathlib.Tactic.Abel

/-
  Sliding windows: rows with times, of which a prefix is
  dropped when it has left the window.

  What is kept mirrors all that was granted, as far as a later
  window can see it; so a bound that is checked on what is kept
  holds in every window of that width, not only in those that
  end at a check.
-/

namespace SingboxOps.SlidingWindow

variable {T R : Type}
variable [LinearOrder T] [AddCommGroup T] [IsOrderedAddMonoid T]
variable (width : T) (time : R → T)

/- The rows from the first one on that is still in the window. -/
def expire (now : T) (rows : List R) : List R := rows.dropWhile (fun r => decide (width ≤ now - time r))

/- A row that has not left the window. -/
def Live (now : T) (r : R) : Prop := now - time r < width

instance (now : T) (r : R) : Decidable (Live width time now r) := by
  unfold Live
  infer_instance

/- From `clock` on, no window tells the two lists apart. -/
def Mirrors (clock : T) (granted rows : List R) : Prop := ∀ now, clock ≤ now →
    granted.filter (fun r => decide (Live width time now r)) =
      rows.filter (fun r => decide (Live width time now r))

/- The weights in the half-open window that starts at `a`. -/
def windowSum (weight : R → ℕ) (a : T) (rows : List R) : ℕ :=
  ((rows.filter (fun r => decide (a ≤ time r ∧ time r < a + width))).map weight).sum

/- No window of this width weighs more. -/
def Within (weight : R → ℕ) (bound : ℕ) (rows : List R) : Prop :=
  ∀ a, windowSum width time weight a rows ≤ bound

variable {width : T} {time : R → T} {clock now later : T}
variable {granted rows : List R}

theorem expire_old {r : R} (hOld : width ≤ now - time r)
    (rows : List R) : expire width time now (r :: rows) = expire width time now rows := by
  simp [expire, hOld]

theorem expire_live {r : R} (hLive : ¬ width ≤ now - time r)
    (rows : List R) : expire width time now (r :: rows) = r :: rows := by
  simp only [expire, List.dropWhile_cons, decide_eq_true_eq]
  exact if_neg hLive

theorem expire_expire (hLater : now ≤ later) (rows : List R) :
    expire width time later (expire width time now rows) = expire width time later rows := by
  induction rows with
  | nil => rfl
  | cons r rows ih =>
    by_cases hOld : width ≤ now - time r
    · rw [expire_old hOld, ih, expire_old (hOld.trans (sub_le_sub_right hLater _))]
    · rw [expire_live hOld]

theorem filter_expire (hLater : now ≤ later) (rows : List R) : (expire width time now rows).filter
        (fun r => decide (Live width time later r)) =
      rows.filter (fun r => decide (Live width time later r)) := by
  induction rows with
  | nil => rfl
  | cons r rows ih =>
    by_cases hOld : width ≤ now - time r
    · have hGone : ¬ Live width time later r := not_lt.mpr (hOld.trans (sub_le_sub_right hLater _))
      rw [expire_old hOld, ih, List.filter_cons, if_neg (by rwa [decide_eq_true_eq])]
    · rw [expire_live hOld]

theorem Mirrors.nil : Mirrors width time clock [] ([] : List R) := fun _ _ => rfl

theorem Mirrors.mono (h : Mirrors width time clock granted rows)
    (hLater : clock ≤ later) : Mirrors width time later granted rows :=
  fun now hNow => h now (hLater.trans hNow)

theorem Mirrors.expire (h : Mirrors width time clock granted rows)
    (hNow : clock ≤ now) : Mirrors width time now granted (SlidingWindow.expire width time now rows) := by
  intro later hLater
  rw [filter_expire hLater]
  exact h later (hNow.trans hLater)

theorem Mirrors.filter (h : Mirrors width time clock granted rows)
    (hNow : clock ≤ now) : Mirrors width time now granted
      (rows.filter (fun r => decide (now - width < time r))) := by
  intro later hLater
  rw [h later (hNow.trans hLater), List.filter_filter]
  congr 1
  funext r
  by_cases hLive : Live width time later r
  · have hKeep : now - width < time r := (sub_le_sub_right hLater _).trans_lt (sub_lt_comm.mp hLive)
    simp [hLive, hKeep]
  · simp [hLive]

theorem Mirrors.snoc (h : Mirrors width time clock granted rows)
    (r : R) : Mirrors width time clock (granted ++ [r]) (rows ++ [r]) := by
  intro now hNow
  rw [List.filter_append, List.filter_append, h now hNow]

theorem windowSum_le (weight : R → ℕ) {a : T} (h : Mirrors width time now granted rows)
    (hNow : now < a + width) :
    windowSum width time weight a granted ≤ (rows.map weight).sum := by
  have hLive : ∀ r : R, a ≤ time r ∧ time r < a + width →
      Live width time now r := by
    intro r hIn
    exact sub_lt_iff_lt_add'.mpr (hNow.trans_le (add_le_add_left hIn.1 width))
  have hSub : (granted.filter (fun r => decide (a ≤ time r ∧ time r < a + width))).Sublist rows := by
    refine List.Sublist.trans ?_ (List.filter_sublist (p := fun r => decide (Live width time now r)))
    rw [← h now le_rfl]
    refine List.monotone_filter_right granted ?_
    intro r hIn
    exact decide_eq_true (hLive r (of_decide_eq_true hIn))
  exact (hSub.map weight).sum_le_sum (fun _ _ => Nat.zero_le _)

/- A grant that fits beside what is kept fits in every window. -/
theorem Within.snoc {weight : R → ℕ} {bound : ℕ} {r : R} (hWithin : Within width time weight bound granted)
    (hMirrors : Mirrors width time (time r) granted rows)
    (hFits : (rows.map weight).sum + weight r ≤ bound) :
    Within width time weight bound (granted ++ [r]) := by
  intro a
  unfold windowSum
  rw [List.filter_append, List.map_append, List.sum_append]
  by_cases hIn : a ≤ time r ∧ time r < a + width
  · rw [List.filter_cons, if_pos (by rwa [decide_eq_true_eq])]
    have hBefore := windowSum_le weight hMirrors hIn.2
    unfold windowSum at hBefore
    simp only [List.filter_nil, List.map_cons, List.map_nil, List.sum_cons, List.sum_nil, Nat.add_zero]
    omega
  · rw [List.filter_cons, if_neg (by rwa [decide_eq_true_eq])]
    exact hWithin a

theorem Within.sublist {weight : R → ℕ} {bound : ℕ} (hWithin : Within width time weight bound rows)
    (hSub : granted.Sublist rows) : Within width time weight bound granted :=
  fun a => (((hSub.filter _).map weight).sum_le_sum (fun _ _ => Nat.zero_le _)).trans (hWithin a)

theorem Within.snoc_zero {weight : R → ℕ} {bound : ℕ} {r : R}
    (hWithin : Within width time weight bound granted)
    (hZero : weight r = 0) : Within width time weight bound (granted ++ [r]) := by
  intro a
  unfold windowSum
  rw [List.filter_append, List.map_append, List.sum_append, List.filter_cons]
  split
  · rw [List.map_cons, List.sum_cons, hZero]
    exact hWithin a
  · exact hWithin a

end SingboxOps.SlidingWindow
