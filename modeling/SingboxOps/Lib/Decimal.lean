import Mathlib.Data.List.Induction
import Mathlib.Data.Nat.Digits.Lemmas
import Mathlib.Data.Rat.Defs
import Mathlib.Algebra.Order.Field.Rat
import Mathlib.Tactic.Linarith
import Mathlib.Tactic.FieldSimp

/-
  Decimal digits and decimal numerals, most significant digit
  first.
-/

namespace SingboxOps

-- Digits

instance neZeroTen : NeZero (9 + 1) := ⟨by decide⟩

/- The number a most-significant-first digit list spells. -/
def digitsValue (ds : List (Fin 10)) : ℕ := ds.foldl (fun n d => 10 * n + d.val) 0

/- The decimal spelling of a natural number. -/
def decimalDigits (n : ℕ) : List (Fin 10) :=
  if n = 0 then [0]
  else (Nat.digits 10 n).reverse.map (Fin.ofNat 10)

@[simp] theorem digitsValue_append_singleton (ds : List (Fin 10))
    (d : Fin 10) : digitsValue (ds ++ [d]) = 10 * digitsValue ds + d.val := by
  simp [digitsValue]

theorem digitsValue_lt (ds : List (Fin 10)) : digitsValue ds < 10 ^ ds.length := by
  induction ds using List.reverseRecOn with
  | nil => decide
  | append_singleton ds d ih =>
    rw [digitsValue_append_singleton, List.length_append, List.length_singleton, pow_succ]
    have hDigit := d.isLt
    omega

theorem digitsValue_reverse_map (ds : List ℕ) (hDigits : ∀ d ∈ ds, d < 10) :
    digitsValue (ds.reverse.map (Fin.ofNat 10)) = Nat.ofDigits 10 ds := by
  induction ds with
  | nil => rfl
  | cons d ds ih =>
    have hd : d < 10 := hDigits d (by simp)
    have hds : ∀ e ∈ ds, e < 10 := fun e he => hDigits e (by simp [he])
    rw [List.reverse_cons, List.map_append, List.map_singleton,
      digitsValue_append_singleton, ih hds, Nat.ofDigits_cons]
    have hVal : (Fin.ofNat 10 d).val = d := by simp [Fin.ofNat, Nat.mod_eq_of_lt hd]
    rw [hVal]
    simp [Nat.add_comm]

@[simp] theorem digitsValue_decimalDigits (n : ℕ) : digitsValue (decimalDigits n) = n := by
  unfold decimalDigits
  by_cases hn : n = 0
  · subst hn
    rfl
  · rw [if_neg hn, digitsValue_reverse_map]
    · exact Nat.ofDigits_digits 10 n
    · intro d hd
      exact Nat.digits_lt_base (by norm_num) hd

theorem decimalDigits_ne_nil (n : ℕ) : decimalDigits n ≠ [] := by
  unfold decimalDigits
  by_cases hn : n = 0
  · simp [hn]
  · simp [hn, Nat.digits_ne_nil_iff_ne_zero]

theorem decimalDigits_head_ne_zero {n : ℕ} (hn : n ≠ 0) : ∃ d ds, decimalDigits n = d :: ds ∧ d ≠ 0 := by
  have hNil : Nat.digits 10 n ≠ [] := Nat.digits_ne_nil_iff_ne_zero.mpr hn
  have hLast := Nat.getLast_digit_ne_zero 10 hn
  have hLt : (Nat.digits 10 n).getLast hNil < 10 := Nat.digits_lt_base (by norm_num) (List.getLast_mem hNil)
  refine ⟨Fin.ofNat 10 ((Nat.digits 10 n).getLast hNil),
    ((Nat.digits 10 n).dropLast.reverse).map (Fin.ofNat 10),
    ?_, ?_⟩
  · rw [decimalDigits, if_neg hn]
    conv_lhs => rw [← List.dropLast_append_getLast hNil]
    simp
  · intro hZero
    apply hLast
    have hVal := congrArg Fin.val hZero
    simpa [Fin.ofNat, Nat.mod_eq_of_lt hLt] using hVal

-- Numerals

/- The sign written in front of a decimal exponent. -/
inductive ExpSign where
  | none
  | plus
  | minus
deriving DecidableEq

/-
  A decimal numeral as it is spelled: the digits before and
  after the point, most significant first, and an exponent.
-/
structure Numeral where
  negative : Bool
  whole : List (Fin 10)
  fraction : Option (List (Fin 10))
  exponent : Option (ExpSign × List (Fin 10))
deriving DecidableEq

namespace Numeral

/- The exponent of ten a numeral scales its digits by. -/
def exponentValue (x : Numeral) : ℤ := match x.exponent with
  | none => 0
  | some (.minus, ds) => -(digitsValue ds : ℤ)
  | some (_, ds) => digitsValue ds

/- The rational number a numeral denotes. -/
def toRat (x : Numeral) : ℚ :=
  let tail := x.fraction.getD []
  let magnitude : ℚ := (digitsValue (x.whole ++ tail) : ℚ) * (10 : ℚ) ^ (x.exponentValue - tail.length)
  if x.negative then -magnitude else magnitude

/-
  The spelling is that of a floating-point literal: no
  superfluous leading zero, and a fraction or an exponent
  that is not empty.
-/
structure WellFormed (x : Numeral) : Prop where
  whole : x.whole = [0] ∨ ∃ d ds, x.whole = d :: ds ∧ d ≠ 0
  fraction : ∀ ds, x.fraction = some ds → ds ≠ []
  exponent : ∀ s ds, x.exponent = some (s, ds) → ds ≠ []
  isFloat : x.fraction ≠ none ∨ x.exponent ≠ none

/- The spelling of an integer as a float: `17` as `17.0`. -/
def ofInt (n : ℤ) : Numeral where
  negative := decide (n < 0)
  whole := decimalDigits n.natAbs
  fraction := some [0]
  exponent := none

theorem ofInt_wellFormed (n : ℤ) : (ofInt n).WellFormed where
  whole := by
    by_cases hn : n.natAbs = 0
    · left
      simp [ofInt, hn, decimalDigits]
    · right
      exact decimalDigits_head_ne_zero hn
  fraction := by
    intro ds hds
    simp only [ofInt, Option.some.injEq] at hds
    simp [← hds]
  exponent := by
    intro s ds hds
    simp [ofInt] at hds
  isFloat := by
    left
    simp [ofInt]

@[simp] theorem toRat_ofInt (n : ℤ) : (ofInt n).toRat = n := by
  have hAbs : (n.natAbs : ℚ) = |(n : ℚ)| := by rw [Nat.cast_natAbs, Int.cast_abs]
  have hMagnitude : (digitsValue (decimalDigits n.natAbs ++ [0]) : ℚ) *
          (10 : ℚ) ^ ((0 : ℤ) - (([0] : List (Fin 10)).length : ℤ)) =
        |(n : ℚ)| := by
    rw [digitsValue_append_singleton, digitsValue_decimalDigits]
    simp only [Nat.cast_add, Nat.cast_mul, hAbs]
    simp
    field_simp
  by_cases hn : n < 0
  · have hq : (n : ℚ) < 0 := by exact_mod_cast hn
    simp only [toRat, ofInt, exponentValue, Option.getD_some, hn, decide_true, if_true]
    rw [hMagnitude, abs_of_neg hq]
    ring
  · have hq : (0 : ℚ) ≤ n := by
      exact_mod_cast not_lt.mp hn
    simp only [toRat, ofInt, exponentValue, Option.getD_some, hn, decide_false]
    rw [hMagnitude, abs_of_nonneg hq]
    simp

end Numeral

end SingboxOps
