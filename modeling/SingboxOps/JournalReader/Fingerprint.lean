import SingboxOps.Lib.PyText
import Mathlib.Algebra.Group.Nat.Even
import Mathlib.Data.List.Infix
import Mathlib.Data.List.TakeWhile
import Mathlib.Logic.Relation

/-
  The template of a message that no class takes, of which the
  fingerprint is a keyed hash.
-/

namespace SingboxOps.JournalReader.Fingerprint

-- Templates

/-
  `rx.sub(" ", text)` for a quote, anything else, and the same
  quote: what is held since an open quote stays if none closes.
-/
def removeFrom (q : ℕ) : Option PyStr → PyStr → PyStr
  | none, [] => []
  | some held, [] => held
  | none, c :: rest =>
    if c = q then removeFrom q (some [q]) rest
    else c :: removeFrom q none rest
  | some held, c :: rest =>
    if c = q then 32 :: removeFrom q none rest
    else removeFrom q (some (held ++ [c])) rest

def removeSpans (q : ℕ) (text : PyStr) : PyStr := removeFrom q none text

/- `text.split()` -/
def words (text : PyStr) : List PyStr := (text.splitOnP isSpaceChar).filter (fun word => !word.isEmpty)

def isLower (c : ℕ) : Bool := decide (97 ≤ c ∧ c ≤ 122)

/- `[a-z0-9]` -/
def isPlain (c : ℕ) : Bool := isLower c || decide (48 ≤ c ∧ c ≤ 57)

/- `[a-z0-9._-]` -/
def isHost (c : ℕ) : Bool := isPlain c || [46, 95, 45].contains c

/- `\A[a-z0-9._-]+\.[a-z]{2,}\Z` -/
def hostLike (t : PyStr) : Bool :=
  let ending := t.reverse.takeWhile isLower
  match t.reverse.drop ending.length with
  | 46 :: rest => decide (2 ≤ ending.length ∧ rest ≠ []) && rest.all isHost
  | _ => false

/- `[a-z0-9._-]*\d[a-z0-9._-]*\.[a-z]{2,}` -/
def digitHost (t : PyStr) : Bool := t.tails.any fun
    | d :: rest =>
      isDecimalChar d && (rest.takeWhile isHost).tails.any fun
        | 46 :: a :: b :: _ => isLower a && isLower b
        | _ => false
    | [] => false

/- What follows `\d{1,3}` where no digit does. -/
def afterDigits (t : PyStr) : Option PyStr :=
  let digits := t.takeWhile isDecimalChar
  if 1 ≤ digits.length ∧ digits.length ≤ 3 then
    some (t.drop digits.length)
  else none

/- `\d{1,3}` and as many times `\.\d{1,3}`, to the end -/
def dotted : ℕ → PyStr → Bool
  | 0, t => decide (afterDigits t = some [])
  | n + 1, t =>
    match afterDigits t with
    | some (46 :: rest) => dotted n rest
    | _ => false

/- `\A[0-9a-f:]{2,}\Z` -/
def hexRun (t : PyStr) : Bool :=
  decide (2 ≤ t.length) && t.all (fun c => decide (48 ≤ c ∧ c ≤ 58 ∨ 97 ≤ c ∧ c ≤ 102))

/- `\A[a-z0-9+/=_-]{16,}\Z` -/
def entropyRun (t : PyStr) : Bool :=
  decide (16 ≤ t.length) && t.all (fun c => isPlain c || [43, 47, 61, 95, 45].contains c)

/- `_DROP_TOKEN_RES` -/
def dropped (t : PyStr) : Bool := hostLike t || digitHost t || dotted 3 t || hexRun t ||
    t.contains 47 || t.contains 64 || entropyRun t

/- `_KEPT_RE` -/
def isWord (t : PyStr) : Bool := decide (1 ≤ t.length ∧ t.length ≤ 12) && t.all isLower

def isKept (t : PyStr) : Bool := isWord t && !dropped t

def maxTemplateTokens : ℕ := 24

def unquoted (text : PyStr) : PyStr := removeSpans 39 (removeSpans 34 text)

def keptWords (text : PyStr) : List PyStr := (words text).filter isKept

def buildTemplate (text : PyStr) : PyStr :=
  [32].intercalate ((keptWords (unquoted text)).take maxTemplateTokens)

def residualUnsafe (template : PyStr) : Bool := dropped template

/- `fingerprint`, of a template that is all ASCII. -/
def fingerprint {K : Type} (hexDigest : K → PyStr → PyStr) (key : K) (template : PyStr) : PyStr :=
  (hexDigest key template).take 16

-- Messages

abbrev QuoteFree (x : PyStr) : Prop := 34 ∉ x ∧ 39 ∉ x

/- A token that is not a word, and holds no quote. -/
structure Foreign (t : PyStr) : Prop where
  some : t ≠ []
  solid : ∀ c ∈ t, isSpaceChar c = false
  free : QuoteFree t
  other : isWord t = false

/- A text that is empty or ends in white space. -/
def Ended (a : PyStr) : Prop := ∀ c ∈ a.getLast?, isSpaceChar c = true

/- A text that is empty or begins with white space. -/
def Begun (b : PyStr) : Prop := ∀ c ∈ b.head?, isSpaceChar c = true

/- What is left of the text after what is not removed. -/
def left (q : ℕ) (a b : PyStr) : PyStr := if Even (a.count q) then removeSpans q b else b

theorem removeFrom_append (q : ℕ) (state : Option PyStr) (a : PyStr) :
    ∃ done state', (∀ y, removeFrom q state (a ++ y) = done ++ removeFrom q state' y) ∧
      (state'.isSome ↔ (Even (a.count q) ↔ state.isSome)) := by
  induction a generalizing state with
  | nil => exact ⟨[], state, fun _ => rfl, by simp⟩
  | cons c a ih =>
    have hFlip {P : Prop} (h : P ↔ (Even (a.count q) ↔ ¬ state.isSome)) :
        P ↔ (Even ((q :: a).count q) ↔ state.isSome) := by
      rw [List.count_cons_self, Nat.even_add_one]
      tauto
    cases state with
    | none =>
      by_cases hQuote : c = q
      · obtain ⟨done, next, hDone, hNext⟩ := ih (some [q])
        subst hQuote
        refine ⟨done, next, fun y => ?_, hFlip (by simpa using hNext)⟩
        rw [List.cons_append, removeFrom, if_pos rfl, hDone]
      · obtain ⟨done, next, hDone, hNext⟩ := ih none
        refine ⟨c :: done, next, fun y => ?_, ?_⟩
        · rw [List.cons_append, removeFrom, if_neg hQuote, hDone]
          rfl
        · rwa [List.count_cons_of_ne hQuote]
    | some held =>
      by_cases hQuote : c = q
      · obtain ⟨done, next, hDone, hNext⟩ := ih none
        subst hQuote
        refine ⟨32 :: done, next, fun y => ?_, hFlip (by simpa using hNext)⟩
        rw [List.cons_append, removeFrom, if_pos rfl, hDone]
        rfl
      · obtain ⟨done, next, hDone, hNext⟩ := ih (some (held ++ [c]))
        refine ⟨done, next, fun y => ?_, ?_⟩
        · rw [List.cons_append, removeFrom, if_neg hQuote, hDone]
        · rwa [List.count_cons_of_ne hQuote]

theorem Begun.removeFrom {q : ℕ} (hq : isSpaceChar q = false) {b : PyStr}
    (hBegun : Begun b) : Begun (removeSpans q b) := by
  cases b with
  | nil => exact hBegun
  | cons c b =>
    have hSpace := hBegun c rfl
    have hNe : c ≠ q := fun h => by
      rw [h, hq] at hSpace
      cases hSpace
    unfold removeSpans
    rw [Fingerprint.removeFrom, if_neg hNe]
    exact fun d hd => by
      cases hd
      exact hSpace

theorem Begun.left {q : ℕ} (hq : isSpaceChar q = false) (a : PyStr) {b : PyStr}
    (hBegun : Begun b) : Begun (left q a b) := by
  unfold Fingerprint.left
  split
  · exact hBegun.removeFrom hq
  · exact hBegun

theorem removeSpans_snoc {q c : ℕ} (hNe : c ≠ q)
    (a : PyStr) : ∃ front, removeSpans q (a ++ [c]) = front ++ [c] := by
  obtain ⟨done, state, hDone, _⟩ := removeFrom_append q none a
  unfold removeSpans
  rw [hDone]
  cases state with
  | none => exact ⟨done, by rw [removeFrom, if_neg hNe, removeFrom]⟩
  | some held =>
    exact ⟨done ++ held, by rw [removeFrom, if_neg hNe, removeFrom, List.append_assoc]⟩

theorem Ended.removeSpans {q : ℕ} (hq : isSpaceChar q = false) {a : PyStr}
    (hEnded : Ended a) : Ended (removeSpans q a) := by
  rcases List.eq_nil_or_concat a with rfl | ⟨front, c, rfl⟩
  · exact hEnded
  · rw [List.concat_eq_append] at hEnded ⊢
    have hSpace := hEnded c (by simp)
    have hNe : c ≠ q := fun h => by
      rw [h, hq] at hSpace
      cases hSpace
    obtain ⟨rest, hRest⟩ := removeSpans_snoc hNe front
    intro d hd
    rw [hRest, List.getLast?_concat] at hd
    cases hd
    exact hSpace

end SingboxOps.JournalReader.Fingerprint
