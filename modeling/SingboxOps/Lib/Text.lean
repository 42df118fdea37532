import Mathlib.Order.Defs.LinearOrder
import Mathlib.Data.List.Lex

/-
  Byte strings and text.

  A `PyStr` is a sequence of code points; unlike `String` it
  may hold lone surrogates, as a string read from a JSON
  escape can.
-/

namespace SingboxOps

/- A byte string. -/
abbrev Bytes := List UInt8

/- A text string, as its code points. -/
abbrev PyStr := List ℕ

instance lawfulBEqPyStr : LawfulBEq PyStr := List.instLawfulBEq

/- The code points of a literal. -/
def pyStr (s : String) : PyStr := s.toList.map Char.toNat

end SingboxOps
