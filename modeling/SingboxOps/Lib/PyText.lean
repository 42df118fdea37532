import SingboxOps.Lib.Text
import Mathlib.Data.List.Basic

/-
  Predicates of text strings: white space and digits.

  A decimal digit has a value in ten; other digits, such as a
  superscript, are digits of the text all the same, and no
  number is read from them.
-/

namespace SingboxOps

-- White Space

/- `c.isspace()` -/
def isSpaceChar (c : ℕ) : Bool := (decide (9 ≤ c) && decide (c ≤ 13)) ||
    (decide (28 ≤ c) && decide (c ≤ 32)) ||
    (decide (8192 ≤ c) && decide (c ≤ 8202)) ||
    [133, 160, 5760, 8232, 8233, 8239, 8287, 12288].contains c

/- `text.lstrip()` -/
def lstripText (s : PyStr) : PyStr := s.dropWhile isSpaceChar

/- `text.strip()` -/
def stripText (s : PyStr) : PyStr := ((lstripText s).reverse.dropWhile isSpaceChar).reverse

theorem stripText_of_solid {s : PyStr} (h : ∀ c ∈ s, isSpaceChar c = false) : stripText s = s := by
  have hDrop : ∀ t : PyStr, (∀ c ∈ t, isSpaceChar c = false) → t.dropWhile isSpaceChar = t := by
    intro t ht
    cases t with
    | nil => rfl
    | cons c rest =>
      rw [List.dropWhile_cons, ht c List.mem_cons_self]
      rfl
  unfold stripText lstripText
  rw [hDrop s h, hDrop s.reverse, List.reverse_reverse]
  intro c hc
  exact h c (List.mem_reverse.mp hc)

theorem isSpaceChar_of_graphic {c : ℕ} (hLow : 33 ≤ c) (hHigh : c < 127) : isSpaceChar c = false := by
  unfold isSpaceChar
  simp
  omega

-- Digits

/- The zeros of the decimal digits; nine digits follow each. -/
def decimalZeros : List ℕ := [0x30, 0x660, 0x6f0, 0x7c0, 0x966, 0x9e6, 0xa66, 0xae6, 0xb66,
    0xbe6, 0xc66, 0xce6, 0xd66, 0xde6, 0xe50, 0xed0, 0xf20, 0x1040,
    0x1090, 0x17e0, 0x1810, 0x1946, 0x19d0, 0x1a80, 0x1a90, 0x1b50,
    0x1bb0, 0x1c40, 0x1c50, 0xa620, 0xa8d0, 0xa900, 0xa9d0, 0xa9f0,
    0xaa50, 0xabf0, 0xff10, 0x104a0, 0x10d30, 0x11066, 0x110f0,
    0x11136, 0x111d0, 0x112f0, 0x11450, 0x114d0, 0x11650, 0x116c0,
    0x11730, 0x118e0, 0x11950, 0x11c50, 0x11d50, 0x11da0, 0x16a60,
    0x16b50, 0x1d7ce, 0x1d7d8, 0x1d7e2, 0x1d7ec, 0x1d7f6, 0x1e140,
    0x1e2f0, 0x1e950, 0x1fbf0]

/- The digits that are no decimal ones, as ranges. -/
def otherDigits : List (ℕ × ℕ) := [(0xb2, 0xb3), (0xb9, 0xb9), (0x1369, 0x1371), (0x19da, 0x19da),
    (0x2070, 0x2070), (0x2074, 0x2079), (0x2080, 0x2089),
    (0x2460, 0x2468), (0x2474, 0x247c), (0x2488, 0x2490),
    (0x24ea, 0x24ea), (0x24f5, 0x24fd), (0x24ff, 0x24ff),
    (0x2776, 0x277e), (0x2780, 0x2788), (0x278a, 0x2792),
    (0x10a40, 0x10a43), (0x10e60, 0x10e68), (0x11052, 0x1105a),
    (0x1f100, 0x1f10a)]

/- The zero a decimal digit counts from. -/
def zeroOf (c : ℕ) : Option ℕ := decimalZeros.find? (fun first => decide (first ≤ c ∧ c ≤ first + 9))

/- `c.isdecimal()`, and `\d` -/
def isDecimalChar (c : ℕ) : Bool := (zeroOf c).isSome

/- `c.isdigit()` -/
def isDigitChar (c : ℕ) : Bool := isDecimalChar c || otherDigits.any (fun r => decide (r.1 ≤ c ∧ c ≤ r.2))

/- `text.isdigit()` -/
def isDigitText (s : PyStr) : Bool := decide (s ≠ []) && s.all isDigitChar

def decimalValue (c : ℕ) : ℕ := c - (zeroOf c).getD 0

/- The number that decimal digits spell. -/
def numberOf (s : PyStr) : ℕ := s.foldl (fun n c => 10 * n + decimalValue c) 0

/-
  `int(text)` of a text of digits; `none` is `ValueError`, for
  a digit that is no decimal one and for too many digits.
-/
def intOfDigits (s : PyStr) : Option ℕ :=
  if s.all isDecimalChar && decide (s.length ≤ 4300) then
    some (numberOf s)
  else none

theorem isDigitText_of_decimals {s : PyStr} (hNil : s ≠ [])
    (h : s.all isDecimalChar = true) : isDigitText s = true := by
  unfold isDigitText
  rw [Bool.and_eq_true]
  refine ⟨decide_eq_true hNil, ?_⟩
  rw [List.all_eq_true] at h ⊢
  intro c hc
  unfold isDigitChar
  rw [h c hc]
  rfl

-- Splitting

theorem not_mem_of_mem_splitOn {α : Type} [DecidableEq α] {x : α} {xs line : List α}
    (h : line ∈ xs.splitOn x) : x ∉ line := by
  induction xs generalizing line with
  | nil =>
    rw [List.splitOn_nil, List.mem_singleton] at h
    rw [h]
    exact List.not_mem_nil
  | cons y xs ih =>
    rw [List.splitOn_cons_eq_if_modifyHead] at h
    split at h
    · rcases List.mem_cons.mp h with rfl | h
      · exact List.not_mem_nil
      · exact ih h
    · rename_i hNot
      cases hRest : xs.splitOn x with
      | nil => exact (List.splitOn_ne_nil x xs hRest).elim
      | cons first rest =>
        rw [hRest, List.modifyHead_cons] at h
        rw [hRest] at ih
        rcases List.mem_cons.mp h with rfl | h
        · intro hMem
          rcases List.mem_cons.mp hMem with rfl | hMem
          · exact hNot (beq_self_eq_true _)
          · exact ih List.mem_cons_self hMem
        · exact ih (List.mem_cons_of_mem _ h)

end SingboxOps
