import SingboxOps.Lib.Float
import Mathlib.Algebra.Order.Group.MinMax
import Mathlib.Algebra.Order.Archimedean.Basic

/-
  Floating-point formats of bounded range, with the arithmetic
  of their infinities.

  A result whose exact value lies at `limit` or beyond is
  infinite; converting such an integer is an `OverflowError`.
  Integers of up to 53 bits are exact.
-/

namespace SingboxOps

/- A floating-point format with a largest finite number. -/
class BoundedFloat (F : Type) extends PyFloat F where
  limit : ℚ
  toRat_lt_limit : ∀ x : F, |toRat x| < limit
  exact : ∀ n : ℤ, |n| ≤ 2 ^ 53 → toRat (round (n : ℚ)) = n

-- Arithmetic

variable {F : Type} [BoundedFloat F]

/- The float an exact result is rounded to. -/
def ExtFloat.ofRat (q : ℚ) : ExtFloat F :=
  if |q| < BoundedFloat.limit F then .finite (PyFloat.round q)
  else .infinite (decide (q < 0))

/- `float(n)`; `none` is an `OverflowError`. -/
def floatOfInt? (n : ℤ) : Option F :=
  if |(n : ℚ)| < BoundedFloat.limit F then some (PyFloat.round (n : ℚ))
  else none

namespace ExtFloat

/- `-x` -/
def neg : ExtFloat F → ExtFloat F
  | .finite x => ofRat (-PyFloat.toRat x)
  | .nan => .nan
  | .infinite s => .infinite (!s)

/- `x + y` -/
def add : ExtFloat F → ExtFloat F → ExtFloat F
  | .finite x, .finite y => ofRat (PyFloat.toRat x + PyFloat.toRat y)
  | .nan, _ | _, .nan => .nan
  | .infinite s, .infinite t => if s = t then .infinite s else .nan
  | .infinite s, .finite _ => .infinite s
  | .finite _, .infinite s => .infinite s

/- `x - y` -/
def sub (x y : ExtFloat F) : ExtFloat F := add x (neg y)

/- `x * c` for a positive constant the format holds. -/
def scale (x : ExtFloat F) (c : ℚ) : ExtFloat F := match x with
  | .finite x => ofRat (PyFloat.toRat x * c)
  | .nan => .nan
  | .infinite s => .infinite s

/- `x / n` for a positive count the format holds. -/
def divNat (x : ExtFloat F) (n : ℕ) : ExtFloat F := x.scale (1 / (n : ℚ))

/- `x < y`, false where either is not a number. -/
def lt : ExtFloat F → ExtFloat F → Bool
  | .finite x, .finite y => decide (PyFloat.toRat x < PyFloat.toRat y)
  | .nan, _ | _, .nan => false
  | .infinite s, .infinite t => s && !t
  | .infinite s, .finite _ => s
  | .finite _, .infinite t => !t

/- `x <= y`, false where either is not a number. -/
def le : ExtFloat F → ExtFloat F → Bool
  | .finite x, .finite y => decide (PyFloat.toRat x ≤ PyFloat.toRat y)
  | .nan, _ | _, .nan => false
  | .infinite s, .infinite t => s || !t
  | .infinite s, .finite _ => s
  | .finite _, .infinite t => !t

/- `x <= n` for an int, which is compared exactly. -/
def leInt : ExtFloat F → ℤ → Bool
  | .finite x, n => decide (PyFloat.toRat x ≤ n)
  | .nan, _ => false
  | .infinite s, _ => s

end ExtFloat

/- `int(round(x))`: the nearest integer, the even one of two. -/
def roundHalfEven (q : ℚ) : ℤ :=
  let below := ⌊q⌋
  if q - below < 1 / 2 then below
  else if 1 / 2 < q - below then below + 1
  else if below % 2 = 0 then below
  else below + 1

-- The Integers of Bounded Size

/-
  The integers of at most the given size.  `IntGrid (2 ^ 53)`
  agrees with binary64 on the integers it holds.
-/
structure IntGrid (size : ℕ) where
  index : ℤ
  bounded : |index| ≤ size
deriving DecidableEq

namespace IntGrid

variable {size : ℕ}

/- The nearest integer of at most the given size. -/
def ofRat (q : ℚ) : IntGrid size where
  index := max (-(size : ℤ)) (min size (round q))
  bounded := by
    apply abs_le.mpr
    omega

@[simp] theorem index_ofRat_intCast {n : ℤ} (h : |n| ≤ size) : (ofRat (n : ℚ) : IntGrid size).index = n := by
  have hBound := abs_le.mp h
  simp only [ofRat, round_intCast]
  omega

theorem ofRat_nearest (q : ℚ) (x : IntGrid size) :
    |((ofRat q : IntGrid size).index : ℚ) - q| ≤ |(x.index : ℚ) - q| := by
  have hx := abs_le.mp x.bounded
  have hRound : |(round q : ℚ) - q| ≤ |(x.index : ℚ) - q| := by
    rw [abs_sub_comm, abs_sub_comm (x.index : ℚ)]
    exact round_le q x.index
  have hHalf := abs_sub_round q
  simp only [ofRat]
  rcases lt_or_ge (round q) (-(size : ℤ)) with hLow | hLow
  · -- below the range the least integer is nearest
    have hEq : max (-(size : ℤ)) (min size (round q)) = -(size : ℤ) := by omega
    rw [hEq]
    have hq : q ≤ ((-(size : ℤ) : ℤ) : ℚ) := by
      have h1 : (round q : ℚ) ≤ ((-(size : ℤ) - 1 : ℤ) : ℚ) := by
        exact_mod_cast Int.le_sub_one_of_lt hLow
      have h2 := (abs_le.mp hHalf).2
      push_cast at h1 ⊢
      linarith
    have hLe : ((-(size : ℤ) : ℤ) : ℚ) ≤ (x.index : ℚ) := by exact_mod_cast hx.1
    rw [abs_of_nonneg (by linarith), abs_of_nonneg (by linarith)]
    linarith
  · rcases le_or_gt (round q) size with hHigh | hHigh
    · have hEq : max (-(size : ℤ)) (min size (round q)) =
          round q := by omega
      rw [hEq]
      exact hRound
    · have hEq : max (-(size : ℤ)) (min size (round q)) = (size : ℤ) := by omega
      rw [hEq]
      have hq : ((size : ℤ) : ℚ) ≤ q := by
        have h1 : (((size : ℤ) + 1 : ℤ) : ℚ) ≤ (round q : ℚ) := by exact_mod_cast hHigh
        have h2 := (abs_le.mp hHalf).1
        push_cast at h1 ⊢
        linarith
      have hLe : (x.index : ℚ) ≤ ((size : ℤ) : ℚ) := by exact_mod_cast hx.2
      rw [abs_of_nonpos (by linarith), abs_of_nonpos (by linarith)]
      linarith

@[simp] theorem ofRat_index (x : IntGrid size) : ofRat (x.index : ℚ) = x := by
  cases x with
  | mk index bounded =>
    have h : (ofRat (index : ℚ) : IntGrid size).index = index := index_ofRat_intCast bounded
    simp only [ofRat] at h ⊢
    congr 1

instance : PyFloat (IntGrid size) where
  toRat x := x.index
  round := ofRat
  numeral x := Numeral.ofInt x.index
  ofNumeral x :=
    if |x.toRat| < (size : ℚ) + 1 then .finite (ofRat x.toRat)
    else .infinite x.negative
  round_toRat := ofRat_index
  nearest := ofRat_nearest
  toRat_round_zero := by
    have h : (ofRat ((0 : ℤ) : ℚ) : IntGrid size).index = 0 := index_ofRat_intCast (by simp)
    exact_mod_cast h
  numeral_wellFormed x := Numeral.ofInt_wellFormed _
  ofNumeral_numeral x := by
    rw [Numeral.toRat_ofInt]
    have hLt : |(x.index : ℚ)| < (size : ℚ) + 1 := by
      have h : |(x.index : ℚ)| ≤ (size : ℚ) := by exact_mod_cast x.bounded
      linarith
    rw [if_pos hLt, ofRat_index]

/- A grid that holds the integers of 53 bits. -/
instance [h : Fact (2 ^ 53 ≤ size)] :
    BoundedFloat (IntGrid size) where
  limit := (size : ℚ) + 1
  toRat_lt_limit x := by
    have hx : |(x.index : ℚ)| ≤ (size : ℚ) := by exact_mod_cast x.bounded
    change |(x.index : ℚ)| < (size : ℚ) + 1
    linarith
  exact n hn := by
    have hSize : (2 : ℤ) ^ 53 ≤ size := by exact_mod_cast h.out
    have hIndex : (ofRat (n : ℚ) : IntGrid size).index = n := index_ofRat_intCast (hn.trans hSize)
    change ((ofRat (n : ℚ) : IntGrid size).index : ℚ) = n
    rw [hIndex]

instance : Fact (2 ^ 53 ≤ 2 ^ 53) := ⟨le_refl _⟩

end IntGrid

end SingboxOps
