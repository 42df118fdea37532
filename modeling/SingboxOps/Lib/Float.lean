import Mathlib.Algebra.Order.Round
import Mathlib.Data.Rat.Floor
import SingboxOps.Lib.Decimal
import Mathlib.Tactic.Linarith
import Mathlib.Tactic.Positivity

/-
  Finite floating-point numbers, seen as a discrete grid of
  rationals with rounding to a nearest grid point.

  An arithmetic operation on two floats is the exact rational
  operation followed by `PyFloat.round`.  Nothing else is
  assumed of the format, so every result holds for binary64
  as well as for the small grids used to evaluate examples.
-/

namespace SingboxOps

-- Floating-Point Formats

/- A finite float, an infinity, or not-a-number. -/
inductive ExtFloat (F : Type) where
  | finite (x : F)
  | nan
  | infinite (negative : Bool)
deriving DecidableEq

/-
  The finite floats of a format and their spellings: `numeral`
  is the shortest one, which `repr` prints, and `ofNumeral`
  reads a spelling back.  A format may have two zeros.
-/
class FloatText (F : Type) where
  toRat : F → ℚ
  numeral : F → Numeral
  ofNumeral : Numeral → ExtFloat F
  numeral_wellFormed : ∀ x : F, (numeral x).WellFormed
  ofNumeral_numeral : ∀ x : F, ofNumeral (numeral x) = .finite x

/-
  A floating-point format with arithmetic.  `round` takes a
  rational to a nearest finite float.
-/
class PyFloat (F : Type) extends FloatText F where
  round : ℚ → F
  round_toRat : ∀ x : F, round (toRat x) = x
  nearest : ∀ (q : ℚ) (x : F),
      |toRat (round q) - q| ≤ |toRat x - q|
  toRat_round_zero : toRat (round 0) = 0

namespace PyFloat

export FloatText (toRat numeral ofNumeral numeral_wellFormed ofNumeral_numeral)

variable {F : Type} [PyFloat F]

/- Floating-point addition of an exactly represented constant. -/
def add (x : F) (c : ℚ) : F := round (toRat x + c)

/- Floating-point subtraction of an exactly represented constant. -/
def sub (x : F) (c : ℚ) : F := round (toRat x - c)

theorem toRat_injective : Function.Injective (toRat : F → ℚ) := Function.LeftInverse.injective round_toRat

theorem le_round_of_le {x : F} {q : ℚ} (h : toRat x ≤ q) : toRat x ≤ toRat (round q : F) := by
  by_contra hLt
  rw [not_le] at hLt
  have hNear := nearest q x
  rw [abs_of_neg (by linarith), abs_of_nonpos (by linarith)] at hNear
  linarith

theorem round_le_of_le {x : F} {q : ℚ} (h : q ≤ toRat x) : toRat (round q : F) ≤ toRat x := by
  by_contra hLt
  rw [not_le] at hLt
  have hNear := nearest q x
  rw [abs_of_pos (by linarith), abs_of_nonneg (by linarith)] at hNear
  linarith

theorem round_mono {p q : ℚ} (h : p ≤ q) : toRat (round p : F) ≤ toRat (round q : F) := by
  by_contra hLt
  rw [not_le] at hLt
  have hLow : |toRat (round p : F) - p| ≤ |toRat (round q : F) - p| := nearest p _
  have hHigh : |toRat (round q : F) - q| ≤ |toRat (round p : F) - q| := nearest q _
  -- both are nearest on either side of the midpoint
  have hp : (toRat (round q : F) + toRat (round p : F)) ≤ 2 * p := by
    rcases abs_cases (toRat (round p : F) - p) with h1 | h1 <;>
    rcases abs_cases (toRat (round q : F) - p) with h2 | h2 <;>
    linarith
  have hq : 2 * q ≤ (toRat (round q : F) + toRat (round p : F)) := by
    rcases abs_cases (toRat (round q : F) - q) with h1 | h1 <;>
    rcases abs_cases (toRat (round p : F) - q) with h2 | h2 <;>
    linarith
  have hEq : p = q := by linarith
  rw [hEq] at hLt
  exact lt_irrefl _ hLt

theorem round_nonneg {q : ℚ} (h : 0 ≤ q) : 0 ≤ toRat (round q : F) := by
  rw [← toRat_round_zero (F := F)] at h ⊢
  exact le_round_of_le h

theorem sub_mono {x y : F} {c : ℚ} (h : toRat x ≤ toRat y) : toRat (sub x c) ≤ toRat (sub y c) :=
  round_mono (by linarith)

theorem sub_le_self {x : F} {c : ℚ} (h : 0 ≤ c) : toRat (sub x c) ≤ toRat x := round_le_of_le (by linarith)

theorem lt_of_lt_sub {x y : F} {c : ℚ} (h : toRat x < toRat (sub y c)) : toRat x < toRat y - c := by
  by_contra hLe
  rw [not_lt] at hLe
  exact absurd (round_le_of_le hLe) (not_le.mpr h)

/-
  Two floats further apart than `c + d`, with room `e` on
  top, stay strictly apart after `c` is added to the lower
  and `e` taken from the upper: a common rounded value would
  be nearer to one of the two floats than rounding allows.
-/
theorem add_lt_sub {x y : F} {c d e : ℚ} (hc : 0 ≤ c) (he : 0 ≤ e) (hRoom : 2 * c + 2 * e ≤ d)
    (h : toRat x < toRat y - d) : toRat (add x c) < toRat (sub y e) := by
  have hUp : |toRat (add x c) - (toRat x + c)| ≤ |toRat x - (toRat x + c)| := nearest _ x
  have hDown : |toRat (sub y e) - (toRat y - e)| ≤ |toRat y - (toRat y - e)| := nearest _ y
  rw [sub_add_cancel_left, abs_neg, abs_of_nonneg hc] at hUp
  rw [sub_sub_cancel, abs_of_nonneg he] at hDown
  have h1 := (abs_le.mp hUp).2
  have h2 := (abs_le.mp hDown).1
  linarith

end PyFloat

-- Uniform Grids

/-
  The multiples of a fixed positive step.  `Grid 1` agrees
  with binary64 on the integers up to `2 ^ 53`, and `Grid 2`
  on the ones from there to `2 ^ 54`.
-/
structure Grid (step : ℕ) where
  index : ℤ
deriving DecidableEq

namespace Grid

variable {step : ℕ}

/- The rational number a grid point stands for. -/
def toRat (x : Grid step) : ℚ := (step : ℚ) * x.index

/- The nearest grid point, the upper one of two. -/
def ofRat (q : ℚ) : Grid step := ⟨round (q / step)⟩

instance neZeroOne : NeZero (0 + 1) := ⟨by decide⟩

variable [NeZero step]

private theorem step_pos : (0 : ℚ) < step := by
  exact_mod_cast Nat.pos_of_ne_zero (NeZero.ne step)

@[simp] theorem ofRat_toRat (x : Grid step) : ofRat (toRat x) = x := by
  have hStep : (step : ℚ) ≠ 0 := (@step_pos step _).ne'
  cases x with
  | mk index => simp [ofRat, toRat, mul_div_cancel_left₀ _ hStep]

theorem ofRat_nearest (q : ℚ) (x : Grid step) : |toRat (ofRat q : Grid step) - q| ≤ |toRat x - q| := by
  have hStep : (0 : ℚ) < step := step_pos
  have hScale : ∀ i : ℤ,
        |(step : ℚ) * i - q| = step * |q / step - i| := by
    intro i
    rw [← abs_of_pos hStep, ← abs_mul, abs_of_pos hStep, mul_sub, mul_div_cancel₀ _ hStep.ne', abs_sub_comm]
  simp only [toRat, ofRat]
  rw [hScale, hScale]
  exact mul_le_mul_of_nonneg_left (round_le (q / step) x.index) hStep.le

instance : PyFloat (Grid step) where
  toRat := toRat
  round := ofRat
  numeral x := Numeral.ofInt (step * x.index)
  ofNumeral x := .finite (ofRat x.toRat)
  round_toRat := ofRat_toRat
  nearest := ofRat_nearest
  toRat_round_zero := by simp [ofRat, toRat]
  numeral_wellFormed x := Numeral.ofInt_wellFormed _
  ofNumeral_numeral x := by
    rw [Numeral.toRat_ofInt]
    have hExact : (((step : ℤ) * x.index : ℤ) : ℚ) = toRat x := by
      simp [toRat]
    rw [hExact, ofRat_toRat]

end Grid

end SingboxOps
