import SingboxOps.Lib.Text
import Mathlib.Tactic.NormNum

/-
  Base64 with strict alphabet checking.

  The decoder refuses characters outside the alphabet, a
  missing padding and a single left-over character; it does
  not look at the unused bits of the last character.
-/

namespace SingboxOps.Base64

/- The character of a six-bit value. -/
def char (v : ℕ) : ℕ :=
  if v < 26 then 65 + v
  else if v < 52 then 71 + v
  else if v < 62 then v - 4
  else if v = 62 then 43
  else 47

/- The six-bit value of a character. -/
def value? (c : ℕ) : Option ℕ :=
  if 65 ≤ c ∧ c ≤ 90 then some (c - 65)
  else if 97 ≤ c ∧ c ≤ 122 then some (c - 71)
  else if 48 ≤ c ∧ c ≤ 57 then some (c + 4)
  else if c = 43 then some 62
  else if c = 47 then some 63
  else none

/- `base64.b64encode(body).decode("ascii")` -/
def b64encode : Bytes → PyStr
  | a :: b :: c :: rest =>
    char (a.toNat / 4) :: char (a.toNat % 4 * 16 + b.toNat / 16) :: char (b.toNat % 16 * 4 + c.toNat / 64) ::
      char (c.toNat % 64) :: b64encode rest
  | [a, b] =>
    [char (a.toNat / 4), char (a.toNat % 4 * 16 + b.toNat / 16), char (b.toNat % 16 * 4), 61]
  | [a] => [char (a.toNat / 4), char (a.toNat % 4 * 16), 61, 61]
  | [] => []

/- The bytes of six-bit values, with `pads` padding signs. -/
def decodeQuads (pads : ℕ) : List ℕ → Option Bytes
  | a :: b :: c :: d :: rest =>
    (decodeQuads pads rest).map fun bytes =>
      UInt8.ofNat (a * 4 + b / 16) :: UInt8.ofNat (b % 16 * 16 + c / 4) ::
        UInt8.ofNat (c % 4 * 64 + d) :: bytes
  | [a, b, c] =>
    if 1 ≤ pads then
      some [UInt8.ofNat (a * 4 + b / 16), UInt8.ofNat (b % 16 * 16 + c / 4)]
    else none
  | [a, b] =>
    if 2 ≤ pads then some [UInt8.ofNat (a * 4 + b / 16)]
    else none
  | [_] => none
  | [] => some []

/- Six-bit values, then at most two padding signs. -/
def splitPads : PyStr → Option (List ℕ × ℕ)
  | [] => some ([], 0)
  | [61] => some ([], 1)
  | [61, 61] => some ([], 2)
  | c :: rest =>
    match value? c, splitPads rest with
    | some v, some (vs, pads) => some (v :: vs, pads)
    | _, _ => none

/- `base64.b64decode(text, validate=True)` -/
def b64decode (text : PyStr) : Option Bytes := match splitPads text with
  | some (vs, pads) => decodeQuads pads vs
  | none => none

end SingboxOps.Base64
