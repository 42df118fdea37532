import SingboxOps.Lib.Float
import Mathlib.Logic.Encodable.Basic
import Mathlib.Data.Rat.Encodable

/-
  The rationals as a format whose arithmetic is exact.
-/

namespace SingboxOps

structure ExactRat where
  value : ℚ
deriving DecidableEq

namespace ExactRat

/- A rational is spelled by its number in an enumeration. -/
instance : PyFloat ExactRat where
  toRat x := x.value
  round q := ⟨q⟩
  numeral x := Numeral.ofInt (Encodable.encode x.value)
  ofNumeral n := match (Encodable.decode n.toRat.num.toNat : Option ℚ) with
    | some q => .finite ⟨q⟩
    | none => .nan
  round_toRat _ := rfl
  nearest q x := by
    rw [sub_self, abs_zero]
    exact abs_nonneg _
  toRat_round_zero := rfl
  numeral_wellFormed x := Numeral.ofInt_wellFormed _
  ofNumeral_numeral x := by
    rw [Numeral.toRat_ofInt]
    simp

theorem round_exact (q : ℚ) : PyFloat.toRat (PyFloat.round q : ExactRat) = q := rfl

end ExactRat

end SingboxOps
