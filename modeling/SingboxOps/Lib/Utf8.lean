import SingboxOps.Lib.Text
import Mathlib.Tactic.NormNum
import Mathlib.Tactic.SplitIfs

/-
  Strict UTF-8: no overlong form, no surrogate and nothing
  beyond U+10FFFF; and the decoder that replaces what the
  strict one refuses.
-/

namespace SingboxOps

/-
  Decode the rest of a text when `need` more bytes of a
  sequence are due; the next one must lie between `low` and
  `high`, and `value` is what the sequence spells so far.
-/
def utf8DecodeFrom (need low high value : ℕ) : Bytes → Option PyStr
  | [] => if need = 0 then some [] else none
  | byte :: rest =>
    let c := byte.toNat
    match need with
    | 0 =>
      if c < 0x80 then (utf8DecodeFrom 0 0 0 0 rest).map (c :: ·)
      else if 0xC2 ≤ c ∧ c ≤ 0xDF then
        utf8DecodeFrom 1 0x80 0xBF (c - 0xC0) rest
      else if c = 0xE0 then utf8DecodeFrom 2 0xA0 0xBF 0 rest
      else if c = 0xED then utf8DecodeFrom 2 0x80 0x9F 0xD rest
      else if 0xE1 ≤ c ∧ c ≤ 0xEF then
        utf8DecodeFrom 2 0x80 0xBF (c - 0xE0) rest
      else if c = 0xF0 then utf8DecodeFrom 3 0x90 0xBF 0 rest
      else if 0xF1 ≤ c ∧ c ≤ 0xF3 then
        utf8DecodeFrom 3 0x80 0xBF (c - 0xF0) rest
      else if c = 0xF4 then utf8DecodeFrom 3 0x80 0x8F 4 rest
      else none
    | more + 1 =>
      if low ≤ c ∧ c ≤ high then
        let value := value * 64 + (c - 0x80)
        if more = 0 then (utf8DecodeFrom 0 0 0 0 rest).map (value :: ·)
        else utf8DecodeFrom more 0x80 0xBF value rest
      else none

/- `line.decode("utf-8")` -/
def utf8Decode (bytes : Bytes) : Option PyStr := utf8DecodeFrom 0 0 0 0 bytes

/-
  What the first byte of a longer sequence asks for: how many
  bytes are due, the range of the next one, and the bits it
  brings itself.
-/
def utf8Lead (c : ℕ) : Option (ℕ × ℕ × ℕ × ℕ) :=
  if 0xC2 ≤ c ∧ c ≤ 0xDF then some (1, 0x80, 0xBF, c - 0xC0)
  else if c = 0xE0 then some (2, 0xA0, 0xBF, 0)
  else if c = 0xED then some (2, 0x80, 0x9F, 0xD)
  else if 0xE1 ≤ c ∧ c ≤ 0xEF then some (2, 0x80, 0xBF, c - 0xE0)
  else if c = 0xF0 then some (3, 0x90, 0xBF, 0)
  else if 0xF1 ≤ c ∧ c ≤ 0xF3 then some (3, 0x80, 0xBF, c - 0xF0)
  else if c = 0xF4 then some (3, 0x80, 0x8F, 4)
  else none

/-
  The same machine where it never gives up: the longest start
  of a sequence that does not go on becomes one U+FFFD, and
  the byte that broke it is read anew.
-/
def utf8ReplaceFrom (need low high value : ℕ) : Bytes → PyStr
  | [] => if need = 0 then [] else [0xFFFD]
  | byte :: rest =>
    let c := byte.toNat
    let start :=
      if c < 0x80 then c :: utf8ReplaceFrom 0 0 0 0 rest
      else
        match utf8Lead c with
        | some (due, low, high, value) => utf8ReplaceFrom due low high value rest
        | none => 0xFFFD :: utf8ReplaceFrom 0 0 0 0 rest
    match need with
    | 0 => start
    | more + 1 =>
      if low ≤ c ∧ c ≤ high then
        let value := value * 64 + (c - 0x80)
        if more = 0 then value :: utf8ReplaceFrom 0 0 0 0 rest
        else utf8ReplaceFrom more 0x80 0xBF value rest
      else 0xFFFD :: start

/- `value.decode("utf-8", errors="replace")` -/
def utf8Replace (bytes : Bytes) : PyStr := utf8ReplaceFrom 0 0 0 0 bytes

theorem utf8DecodeFrom_lead (low high value : ℕ) (byte : UInt8) (rest : Bytes) (hByte : ¬ byte.toNat < 0x80) :
    utf8DecodeFrom 0 low high value (byte :: rest) =
      match utf8Lead byte.toNat with
      | some (due, low, high, value) => utf8DecodeFrom due low high value rest
      | none => none := by
  rw [utf8DecodeFrom]
  simp only [if_neg hByte, utf8Lead]
  split_ifs <;> rfl

theorem utf8ReplaceFrom_of_decode {need low high value : ℕ} {bytes : Bytes} {text : PyStr}
    (h : utf8DecodeFrom need low high value bytes = some text) :
    utf8ReplaceFrom need low high value bytes = text := by
  induction bytes generalizing need low high value text with
  | nil =>
    rw [utf8DecodeFrom] at h
    rw [utf8ReplaceFrom]
    split at h
    · rename_i hNeed
      rw [if_pos hNeed]
      exact Option.some.inj h
    · cases h
  | cons byte rest ih =>
    cases need with
    | zero =>
      by_cases hByte : byte.toNat < 0x80
      · rw [utf8DecodeFrom] at h
        simp only [if_pos hByte, Option.map_eq_some_iff] at h
        rcases h with ⟨tail, hTail, rfl⟩
        rw [utf8ReplaceFrom]
        simp only [if_pos hByte, ih hTail]
      · rw [utf8DecodeFrom_lead low high value byte rest hByte]
          at h
        rw [utf8ReplaceFrom]
        simp only [if_neg hByte]
        cases hLead : utf8Lead byte.toNat with
        | none =>
          rw [hLead] at h
          cases h
        | some lead =>
          rw [hLead] at h
          exact ih h
    | succ more =>
      rw [utf8DecodeFrom] at h
      rw [utf8ReplaceFrom]
      split at h
      · rename_i hRange
        simp only [if_pos hRange]
        dsimp only at h
        split at h
        · rename_i hMore
          rw [if_pos hMore]
          rw [Option.map_eq_some_iff] at h
          rcases h with ⟨tail, hTail, rfl⟩
          rw [ih hTail]
        · rename_i hMore
          rw [if_neg hMore]
          exact ih h
      · cases h

theorem utf8Replace_of_decode {bytes : Bytes} {text : PyStr}
    (h : utf8Decode bytes = some text) : utf8Replace bytes = text :=
  utf8ReplaceFrom_of_decode h

/- The encoding of ASCII text, one byte a character. -/
def asciiEncode (s : PyStr) : Bytes := s.map UInt8.ofNat

theorem toNat_ofNat_ascii {c : ℕ} (hc : c < 128) : (UInt8.ofNat c).toNat = c := by
  apply UInt8.toNat_ofNat_of_lt'
  change c < 256
  omega

@[simp] theorem utf8Decode_asciiEncode {s : PyStr}
    (hs : ∀ c ∈ s, c < 128) : utf8Decode (asciiEncode s) = some s := by
  induction s with
  | nil => rfl
  | cons c rest ih =>
    have hc : c < 128 := hs c (by simp)
    have hRest : utf8DecodeFrom 0 0 0 0 (rest.map UInt8.ofNat) = some rest :=
      ih (fun d hd => hs d (by simp [hd]))
    rw [utf8Decode, asciiEncode, List.map_cons, utf8DecodeFrom]
    simp only [toNat_ofNat_ascii hc]
    rw [if_pos hc, hRest]
    rfl

end SingboxOps
