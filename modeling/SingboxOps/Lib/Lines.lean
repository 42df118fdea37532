import SingboxOps.Lib.Text
import Mathlib.Data.List.Basic
import Mathlib.Data.List.Induction

/-
  Files of lines.

  `splitLines` is the universal-newline split of a byte
  string; `joinLines` ends each line in a newline.
-/

namespace SingboxOps

-- Splitting

/-
  Split the rest of a text: `line` is what the current line
  holds so far, and `cr` says that it was just begun by a
  carriage return, which takes a newline along.
-/
def splitLinesFrom (cr : Bool) (line : Bytes) : Bytes → List Bytes
  | [] => if line = [] then [] else [line]
  | c :: rest =>
    if c = 10 then
      if cr then splitLinesFrom false [] rest
      else line :: splitLinesFrom false [] rest
    else if c = 13 then line :: splitLinesFrom true [] rest
    else splitLinesFrom false (line ++ [c]) rest

/- `data.splitlines()` -/
def splitLines (data : Bytes) : List Bytes := splitLinesFrom false [] data

/- `b"".join(line + NL for line in lines)` -/
def joinLines (lines : List Bytes) : Bytes := lines.flatMap (fun line => line ++ [10])

/- A line holds no line break. -/
def NoBreak (line : Bytes) : Prop := ∀ c ∈ line, c ≠ 10 ∧ c ≠ 13

instance (line : Bytes) : Decidable (NoBreak line) := by
  unfold NoBreak
  exact List.decidableBAll _ _

@[simp] theorem splitLines_nil : splitLines [] = [] := rfl

@[simp] theorem joinLines_nil : joinLines [] = [] := rfl

@[simp] theorem joinLines_cons (line : Bytes)
    (lines : List Bytes) : joinLines (line :: lines) = line ++ [10] ++ joinLines lines := by
  simp [joinLines]

theorem joinLines_append (xs ys : List Bytes) : joinLines (xs ++ ys) = joinLines xs ++ joinLines ys := by
  simp [joinLines]

theorem splitLinesFrom_append {line : Bytes} (hLine : NoBreak line) (cr : Bool) (start rest : Bytes)
    (hNil : line ≠ []) :
    splitLinesFrom cr start (line ++ rest) = splitLinesFrom false (start ++ line) rest := by
  induction line generalizing cr start with
  | nil => exact absurd rfl hNil
  | cons c line ih =>
    have hc := hLine c (by simp)
    rw [List.cons_append, splitLinesFrom, if_neg hc.1, if_neg hc.2]
    cases line with
    | nil => simp
    | cons d line =>
      rw [ih (fun e he => hLine e (by simp [he])) false _ (by simp)]
      simp

theorem splitLines_line {line : Bytes} (hLine : NoBreak line)
    (rest : Bytes) : splitLines (line ++ [10] ++ rest) = line :: splitLines rest := by
  unfold splitLines
  cases line with
  | nil => rfl
  | cons c line =>
    rw [List.append_assoc, splitLinesFrom_append hLine false [] _ (by simp)]
    rfl

theorem splitLines_fragment {line : Bytes} (hLine : NoBreak line)
    (hNil : line ≠ []) : splitLines line = [line] := by
  have h := splitLinesFrom_append hLine false [] [] hNil
  rw [List.append_nil, List.nil_append] at h
  rw [splitLines, h, splitLinesFrom, if_neg hNil]

theorem splitLines_joinLines_append {lines : List Bytes} (hLines : ∀ line ∈ lines, NoBreak line)
    (rest : Bytes) : splitLines (joinLines lines ++ rest) = lines ++ splitLines rest := by
  induction lines with
  | nil => rfl
  | cons line lines ih =>
    rw [joinLines_cons, List.append_assoc, splitLines_line (hLines line (by simp)),
      ih (fun l hl => hLines l (by simp [hl]))]
    rfl

theorem noBreak_of_mem_splitLinesFrom {cr : Bool} {start data : Bytes} (hStart : NoBreak start) {line : Bytes}
    (hMem : line ∈ splitLinesFrom cr start data) : NoBreak line := by
  have hEmpty : NoBreak [] := fun c hc => by cases hc
  induction data generalizing cr start with
  | nil =>
    rw [splitLinesFrom] at hMem
    split_ifs at hMem with hNil
    · cases hMem
    · rw [List.mem_singleton.mp hMem]
      exact hStart
  | cons c rest ih =>
    rw [splitLinesFrom] at hMem
    split_ifs at hMem with h10 hCr h13
    · exact ih hEmpty hMem
    · rcases List.mem_cons.mp hMem with rfl | hRest
      · exact hStart
      · exact ih hEmpty hRest
    · rcases List.mem_cons.mp hMem with rfl | hRest
      · exact hStart
      · exact ih hEmpty hRest
    · refine ih ?_ hMem
      intro d hd
      rcases List.mem_append.mp hd with hOld | hNew
      · exact hStart d hOld
      · rw [List.mem_singleton.mp hNew]
        exact ⟨h10, h13⟩

theorem noBreak_of_mem_splitLines {data line : Bytes} (hMem : line ∈ splitLines data) : NoBreak line :=
  noBreak_of_mem_splitLinesFrom (fun c hc => by cases hc) hMem

end SingboxOps
