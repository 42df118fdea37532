import Mathlib.Data.Rat.Floor
import Mathlib.Algebra.Order.Field.Rat
import Mathlib.Tactic.Linarith

/-
  Token buckets over exact times, whose clock may go back.

  The reserve of a bucket is what it can give out until a
  moment; taking a token uses it up.
-/

namespace SingboxOps

structure Bucket where
  tokens : ℚ
  updated : ℚ

namespace Bucket

variable (rate burst : ℚ)

/- The tokens at a moment. -/
def level (b : Bucket) (now : ℚ) : ℚ := min burst (b.tokens + max 0 (now - b.updated) * rate)

/- A token is taken where there is one. -/
def take (b : Bucket) (now : ℚ) : Bool × Bucket :=
  if 1 ≤ b.level rate burst now then
    (true, ⟨b.level rate burst now - 1, max now b.updated⟩)
  else (false, ⟨b.level rate burst now, max now b.updated⟩)

/- What the bucket can give out until a moment. -/
def reserve (b : Bucket) (last : ℚ) : ℚ := b.tokens + max 0 (last - b.updated) * rate

/- A token as a number. -/
def count (passed : Bool) : ℚ := if passed then 1 else 0

variable {rate burst} {b : Bucket} {now last first : ℚ}

theorem tokens_take : (b.take rate burst now).2.tokens + count (b.take rate burst now).1 =
      b.level rate burst now := by
  unfold take
  split
  · simp [count]
  · simp [count]

theorem updated_take : (b.take rate burst now).2.updated = max now b.updated := by
  unfold take
  split <;> rfl

theorem tokens_nonneg (hRate : 0 ≤ rate) (hBurst : 0 ≤ burst)
    (hTokens : 0 ≤ b.tokens) : 0 ≤ (b.take rate burst now).2.tokens := by
  have hLevel : 0 ≤ b.level rate burst now := by
    refine le_min hBurst (add_nonneg hTokens ?_)
    exact mul_nonneg (le_max_left _ _) hRate
  unfold take
  split
  · rename_i hOne
    exact sub_nonneg.mpr hOne
  · exact hLevel

theorem take_reserve (rate burst : ℚ) (b : Bucket)
    (hLast : now ≤ last) : (b.take rate burst now).2.reserve rate last + count (b.take rate burst now).1 ≤
      b.reserve rate last := by
  have hTokens := @tokens_take rate burst b now
  have hLevel : b.level rate burst now ≤ b.tokens + max 0 (now - b.updated) * rate := min_le_right _ _
  have hSplit : max 0 (now - b.updated) + max 0 (last - max now b.updated) = max 0 (last - b.updated) := by
    rcases le_total now b.updated with hOld | hNew
    · rw [max_eq_right hOld, max_eq_left (sub_nonpos.mpr hOld), zero_add]
    · rw [max_eq_left hNew, max_eq_right (sub_nonneg.mpr hNew), max_eq_right (sub_nonneg.mpr hLast),
        max_eq_right (by linarith)]
      ring
  unfold reserve
  rw [updated_take, ← hSplit, add_mul]
  linarith

theorem take_reserve_first (rate burst : ℚ) (b : Bucket) (hRate : 0 ≤ rate) (hFirst : first ≤ now)
    (hLast : now ≤ last) : (b.take rate burst now).2.reserve rate last + count (b.take rate burst now).1 ≤
      burst + (last - first) * rate := by
  have hTokens := @tokens_take rate burst b now
  have hLevel : b.level rate burst now ≤ burst := min_le_left _ _
  have hSpan : max 0 (last - max now b.updated) ≤ last - first := by
    refine max_le (by linarith) ?_
    have hUpdated := le_max_left now b.updated
    linarith
  have hRefill := mul_le_mul_of_nonneg_right hSpan hRate
  unfold reserve
  rw [updated_take]
  linarith

/-
  Where a token was missing there is one again after the time
  it takes to refill, counted from the latest reading.
-/
theorem take_after {wait later : ℚ}
    (hRate : 0 < rate) (hBurst : 1 ≤ burst) (hWait : (1 - b.tokens) / rate ≤ wait)
    (hLater : b.updated + wait ≤ later) : (b.take rate burst later).1 = true := by
  have hOne : 1 ≤ b.level rate burst later := by
    refine le_min hBurst ?_
    have hIdle : wait ≤ max 0 (later - b.updated) := le_max_of_le_right (by linarith)
    have hEnough : 1 - b.tokens ≤ wait * rate := (div_le_iff₀ hRate).mp hWait
    have hRefill := mul_le_mul_of_nonneg_right hIdle hRate.le
    linarith
  unfold take
  rw [if_pos hOne]

end Bucket

end SingboxOps
