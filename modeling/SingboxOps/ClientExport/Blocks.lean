import Mathlib.Tactic.FinCases
import SingboxOps.Lib.Except
import SingboxOps.ClientExport.Parser

/-
  What the parser takes for the two proxies.

  The lines of a block are those of its specification, filled
  with values that pass their checkers.  The parser raises a
  `ValueError` just where it comes to a port it cannot read.
-/

namespace SingboxOps.ClientExport

theorem expect_ok_iff {c : Prop} [Decidable c] {u : Unit} : expect c = .ok u ↔ c := by
  unfold expect
  split
  · rename_i hc
    exact ⟨fun _ => hc, fun _ => rfl⟩
  · rename_i hc
    exact ⟨(fun h => nomatch h), (fun h => (hc h).elim)⟩

theorem expect_of {c : Prop} [Decidable c] (h : c) : expect c = .ok () := expect_ok_iff.mpr h

theorem expect_not_valueError {c : Prop} [Decidable c] : expect c ≠ .error .valueError := by
  unfold expect
  split <;> exact fun h => nomatch h

-- Blocks

/- A value that stands alone at the end of its line. -/
def Canonical (value : PyStr) : Prop := value ≠ [] ∧ value = stripText value

/- The lines of a specification with these values. -/
def fill : List Entry → List PyStr → List PyStr
  | [], _ => []
  | .literal expected :: spec, values => expected :: fill spec values
  | .value key _ _ :: spec, value :: values => (key ++ value) :: fill spec values
  | .value _ _ _ :: _, [] => []

/- Each value passes the checker of its line. -/
def Passes : List Entry → List PyStr → Prop
  | [], values => values = []
  | .literal _ :: spec, values => Passes spec values
  | .value _ checker _ :: spec, value :: values =>
    Canonical value ∧ checker value = some true ∧ Passes spec values
  | .value _ _ _ :: _, [] => False

def setAll : List Entry → List PyStr → Fields → Fields
  | [], _, fields => fields
  | .literal _ :: spec, values, fields => setAll spec values fields
  | .value _ _ name :: spec, value :: values, fields =>
    setAll spec values (fields.set name value)
  | .value _ _ _ :: _, [], fields => fields

/- The lines meet a specification until a checker raises. -/
def Halts : List Entry → List PyStr → Prop
  | [], _ => False
  | _ :: _, [] => False
  | .literal expected :: spec, line :: rest => line = expected ∧ Halts spec rest
  | .value key checker _ :: spec, line :: rest =>
    ∃ value, line = key ++ value ∧ Canonical value ∧
      (checker value = none ∨ (checker value = some true ∧ Halts spec rest))

theorem checked_ok_iff {line key : PyStr} {checker : Checker} {value : PyStr} :
    checked line key checker = .ok value ↔
      line = key ++ value ∧ Canonical value ∧ checker value = some true := by
  unfold checked
  cases hValue : fieldValue line key with
  | none =>
    constructor
    · intro h
      cases h
    · rintro ⟨hLine, hCanonical, -⟩
      rw [fieldValue_eq_some_iff.mpr ⟨hLine, hCanonical.1, hCanonical.2⟩] at hValue
      cases hValue
  | some found =>
    have hFound := fieldValue_eq_some_iff.mp hValue
    dsimp only
    constructor
    · intro h
      split at h
      · cases h
      · cases h
      · rename_i hTrue
        cases h
        exact ⟨hFound.1, hFound.2, hTrue⟩
    · rintro ⟨hLine, -, hTrue⟩
      cases List.append_cancel_left (hFound.1.symm.trans hLine)
      rw [hTrue]

theorem checked_raises_iff {line key : PyStr} {checker : Checker} :
    checked line key checker = .error .valueError ↔
      ∃ value, line = key ++ value ∧ Canonical value ∧ checker value = none := by
  unfold checked
  cases hValue : fieldValue line key with
  | none =>
    constructor
    · intro h
      cases h
    · rintro ⟨value, hLine, hCanonical, -⟩
      rw [fieldValue_eq_some_iff.mpr ⟨hLine, hCanonical.1, hCanonical.2⟩] at hValue
      cases hValue
  | some found =>
    have hFound := fieldValue_eq_some_iff.mp hValue
    dsimp only
    constructor
    · intro h
      split at h
      · rename_i hNone
        exact ⟨found, hFound.1, hFound.2, hNone⟩
      · cases h
      · cases h
    · rintro ⟨value, hLine, -, hNone⟩
      cases List.append_cancel_left (hFound.1.symm.trans hLine)
      rw [hNone]

theorem getElem?_at (before rest : List PyStr) : (before ++ rest)[before.length]? = rest.head? := by
  rw [List.getElem?_append_right le_rfl, Nat.sub_self, List.head?_eq_getElem?]

theorem getElem?_next (before rest : List PyStr) : (before ++ rest)[before.length + 1]? = rest[1]? := by
  rw [List.getElem?_append_right (by omega), Nat.add_sub_cancel_left]

/- By induction on the specification. -/
theorem runSpec_ok_iff (spec : List Entry) (before rest : List PyStr) (fields : Fields) (index : ℕ)
    (fields' : Fields) :
    runSpec (before ++ rest) before.length spec fields = .ok (index, fields') ↔
      ∃ values rest', rest = fill spec values ++ rest' ∧ Passes spec values ∧
        index = (before ++ fill spec values).length ∧
        fields' = setAll spec values fields := by
  induction spec generalizing before rest fields with
  | nil =>
    rw [runSpec]
    constructor
    · intro h
      cases h
      exact ⟨[], rest, rfl, rfl, by rw [fill, List.append_nil], rfl⟩
    · rintro ⟨values, rest', -, -, rfl, rfl⟩
      rw [fill, List.append_nil]
  | cons entry spec ih =>
    rw [runSpec, getElem?_at]
    cases rest with
    | nil =>
      constructor
      · intro h
        cases h
      · rintro ⟨values, rest', hRest, hPasses, -⟩
        cases entry with
        | literal expected => cases hRest
        | value key checker name =>
          cases values with
          | nil => exact hPasses.elim
          | cons value values => cases hRest
    | cons line rest =>
      have hStep := ih (before ++ [line]) rest
      rw [List.append_assoc, List.singleton_append, List.length_append, List.length_singleton] at hStep
      dsimp only [List.head?_cons]
      cases entry with
      | literal expected =>
        dsimp only
        split
        · rename_i hLine
          subst hLine
          rw [hStep]
          constructor
          · rintro ⟨values, rest', rfl, hPasses, rfl, rfl⟩
            refine ⟨values, rest', rfl, hPasses, ?_, rfl⟩
            rw [fill, List.append_assoc, List.singleton_append]
          · rintro ⟨values, rest', hRest, hPasses, rfl, rfl⟩
            rw [fill, List.cons_append] at hRest
            cases hRest
            refine ⟨values, rest', rfl, hPasses, ?_, rfl⟩
            rw [fill, List.append_assoc, List.singleton_append]
        · rename_i hLine
          constructor
          · intro h
            cases h
          · rintro ⟨values, rest', hRest, -⟩
            rw [fill, List.cons_append] at hRest
            cases hRest
            exact (hLine rfl).elim
      | value key checker name =>
        dsimp only
        cases hChecked : checked line key checker with
        | error e =>
          constructor
          · intro h
            cases h
          · rintro ⟨values, rest', hRest, hPasses, -⟩
            cases values with
            | nil => exact hPasses.elim
            | cons value values =>
              rw [fill, List.cons_append] at hRest
              cases hRest
              rw [checked_ok_iff.mpr ⟨rfl, hPasses.1, hPasses.2.1⟩] at hChecked
              cases hChecked
        | ok found =>
          have hFound := checked_ok_iff.mp hChecked
          dsimp only
          rw [hStep]
          constructor
          · rintro ⟨values, rest', rfl, hPasses, rfl, rfl⟩
            refine ⟨found :: values, rest', ?_, ⟨hFound.2.1, hFound.2.2, hPasses⟩, ?_, rfl⟩
            · rw [fill, ← hFound.1]
              rfl
            · rw [fill, ← hFound.1, List.append_assoc, List.singleton_append]
          · rintro ⟨values, rest', hRest, hPasses, rfl, rfl⟩
            cases values with
            | nil => exact hPasses.elim
            | cons value values =>
              rw [fill, List.cons_append] at hRest
              injection hRest with hLine hRest
              have hSame : found = value := List.append_cancel_left (hFound.1.symm.trans hLine)
              subst hSame
              refine ⟨values, rest', hRest, hPasses.2.2, ?_, rfl⟩
              rw [fill, hLine, List.append_assoc, List.singleton_append]

/- By induction on the specification. -/
theorem runSpec_raises_iff (spec : List Entry) (before rest : List PyStr) (fields : Fields) :
    runSpec (before ++ rest) before.length spec fields = .error .valueError ↔
      Halts spec rest := by
  induction spec generalizing before rest fields with
  | nil =>
    rw [runSpec, Halts]
    exact ⟨(fun h => nomatch h), False.elim⟩
  | cons entry spec ih =>
    rw [runSpec, getElem?_at]
    cases rest with
    | nil =>
      rw [Halts]
      exact ⟨(fun h => nomatch h), False.elim⟩
    | cons line rest =>
      have hStep := ih (before ++ [line]) rest
      rw [List.append_assoc, List.singleton_append, List.length_append, List.length_singleton] at hStep
      dsimp only [List.head?_cons]
      cases entry with
      | literal expected =>
        dsimp only
        rw [Halts]
        split
        · rename_i hLine
          rw [hStep]
          exact ⟨fun h => ⟨hLine, h⟩, And.right⟩
        · rename_i hLine
          exact ⟨(fun h => nomatch h), (fun h => (hLine h.1).elim)⟩
      | value key checker name =>
        dsimp only
        rw [Halts]
        cases hChecked : checked line key checker with
        | error e =>
          dsimp only
          constructor
          · intro h
            cases h
            rcases checked_raises_iff.mp hChecked with ⟨value, hLine, hCanonical, hNone⟩
            exact ⟨value, hLine, hCanonical, .inl hNone⟩
          · rintro ⟨value, hLine, hCanonical, hNone | hOk⟩
            · rw [checked_raises_iff.mpr ⟨value, hLine, hCanonical, hNone⟩] at hChecked
              cases hChecked
              rfl
            · rw [checked_ok_iff.mpr ⟨hLine, hCanonical, hOk.1⟩] at hChecked
              cases hChecked
        | ok found =>
          have hFound := checked_ok_iff.mp hChecked
          dsimp only
          rw [hStep]
          constructor
          · intro h
            exact ⟨found, hFound.1, hFound.2.1, .inr ⟨hFound.2.2, h⟩⟩
          · rintro ⟨value, hLine, hCanonical, hNone | hOk⟩
            · rw [checked_raises_iff.mpr ⟨value, hLine, hCanonical, hNone⟩] at hChecked
              cases hChecked
            · exact hOk.2

-- The Hop Pair

def hopText (first last : PyStr) : PyStr := first ++ 45 :: last

/- The pair of bounds that the parser takes. -/
structure HopOk (first last : PyStr) : Prop where
  canonical : Canonical (hopText first last)
  range : hopRange (hopText first last) = some (first, last)
  firstPort : isPort first = some true
  lastPort : isPort last = some true
  order : numberOf first ≤ numberOf last

theorem hopRange_text {value first last : PyStr} (h : hopRange value = some (first, last)) :
    value = hopText first last ∧ first.all isDecimalChar = true ∧ last.all isDecimalChar = true ∧
      first.length ≤ 5 ∧ last.length ≤ 5 := by
  unfold hopRange at h
  split at h
  · rename_i low high hSplit
    split at h
    · rename_i hShape
      cases h
      simp only [Bool.and_eq_true, decide_eq_true_eq] at hShape
      refine ⟨?_, hShape.1.1.1.1.1, hShape.1.1.1.1.2, hShape.1.1.2, hShape.2⟩
      have hJoin : [45].intercalate (value.splitOn 45) = value := List.intercalate_splitOn 45
      rw [hSplit] at hJoin
      rw [← hJoin]
      simp [hopText, List.intercalate]
    · cases h
  · cases h

theorem isPort_of_decimals {s : PyStr} (h : s.all isDecimalChar = true)
    (hLength : s.length ≤ 5) : isPort s ≠ none := by
  intro hNone
  have hRefused := ((isPort_eq_none_iff s).mp hNone).2
  unfold intOfDigits at hRefused
  rw [h, decide_eq_true (show s.length ≤ 4300 by omega)] at hRefused
  cases hRefused

/- The lines of a hop pair. -/
def hopLines (hop : Option (PyStr × PyStr)) : List PyStr := match hop with
  | none => []
  | some (first, last) =>
    [pyStr "    ports: " ++ hopText first last, pyStr "    hop-interval: 30"]

def hopFields (hop : Option (PyStr × PyStr)) (fields : Fields) : Fields := match hop with
  | none => fields
  | some (first, last) => fields.set (pyStr "ports") (hopText first last)

def HopPasses (hop : Option (PyStr × PyStr)) : Prop := match hop with
  | none => True
  | some (first, last) => HopOk first last

theorem starts_ports (value : PyStr) : (pyStr "    ports:").isPrefixOf
      (pyStr "    ports: " ++ value) = true := by
  rw [List.isPrefixOf_iff_prefix]
  exact ⟨32 :: value, rfl⟩

theorem parseHop_some (before rest : List PyStr) (fields : Fields) {first last : PyStr}
    (h : HopOk first last) : parseHop (before ++ (hopLines (some (first, last)) ++ rest))
        before.length fields =
      .ok ((before ++ hopLines (some (first, last))).length, hopFields (some (first, last)) fields) := by
  have hValue : fieldValue (pyStr "    ports: " ++ hopText first last) (pyStr "    ports: ") =
        some (hopText first last) :=
    fieldValue_eq_some_iff.mpr ⟨rfl, h.canonical.1, h.canonical.2⟩
  have hNext : (before ++ (hopLines (some (first, last)) ++ rest))[ before.length + 1]? =
        some (pyStr "    hop-interval: 30") := by
    rw [getElem?_next]
    rfl
  unfold parseHop
  rw [hNext, getElem?_at]
  dsimp only [hopLines, List.cons_append, List.head?_cons]
  rw [if_pos (starts_ports _), hValue]
  dsimp only
  rw [h.range]
  dsimp only
  rw [h.firstPort, h.lastPort]
  dsimp only
  rw [if_neg (Nat.not_lt.mpr h.order), if_pos rfl, List.length_append]
  rfl

theorem parseHop_none (before rest : List PyStr) (fields : Fields)
    (h : ∀ line, rest.head? = some line → (pyStr "    ports:").isPrefixOf line = false) :
    parseHop (before ++ rest) before.length fields = .ok (before.length, fields) := by
  unfold parseHop
  rw [getElem?_at]
  cases hHead : rest.head? with
  | none => rfl
  | some line =>
    dsimp only
    rw [h line hHead]
    rfl

theorem parseHop_ok {before rest : List PyStr} {fields fields' : Fields} {index : ℕ}
    (h : parseHop (before ++ rest) before.length fields = .ok (index, fields')) :
    ∃ hop rest', rest = hopLines hop ++ rest' ∧ HopPasses hop ∧ index = (before ++ hopLines hop).length ∧
      fields' = hopFields hop fields := by
  unfold parseHop at h
  rw [getElem?_at] at h
  cases rest with
  | nil =>
    cases h
    exact ⟨none, [], rfl, trivial, by rw [hopLines, List.append_nil],
      rfl⟩
  | cons line rest =>
    dsimp only [List.head?_cons] at h
    split at h
    · cases hValue : fieldValue line (pyStr "    ports: ") with
      | none =>
        rw [hValue] at h
        cases h
      | some value =>
        have hLine := fieldValue_eq_some_iff.mp hValue
        rw [hValue] at h
        dsimp only at h
        cases hRange : hopRange value with
        | none =>
          rw [hRange] at h
          cases h
        | some pair =>
          rcases pair with ⟨first, last⟩
          rw [hRange] at h
          dsimp only at h
          rcases hopRange_text hRange with ⟨rfl, -⟩
          split at h
          · cases h
          · cases h
          · cases h
          · cases h
          rename_i hFirst hLast
          split at h
          · cases h
          rename_i hOrder
          split at h
          · rename_i hInterval
            cases h
            cases rest with
            | nil =>
              rw [getElem?_next] at hInterval
              cases hInterval
            | cons next rest =>
              rw [getElem?_next] at hInterval
              cases hInterval
              refine ⟨some (first, last), rest, ?_, ⟨hLine.2, hRange, hFirst, hLast,
                  Nat.not_lt.mp hOrder⟩, ?_, rfl⟩
              · rw [hLine.1]
                rfl
              · rw [List.length_append]
                rfl
          · cases h
    · cases h
      exact ⟨none, line :: rest, rfl, trivial, by rw [hopLines, List.append_nil], rfl⟩

theorem parseHop_raises_not (lines : List PyStr) (index : ℕ)
    (fields : Fields) : parseHop lines index fields ≠ .error .valueError := by
  intro h
  unfold parseHop at h
  split at h
  · cases h
  · split at h
    · split at h
      · cases h
      · split at h
        · cases h
        · rename_i value _ first last hRange
          rcases hopRange_text hRange with ⟨-, hFirst, hLast, hFirstLength, hLastLength⟩
          split at h
          · rename_i hNone
            exact isPort_of_decimals hFirst hFirstLength hNone
          · cases h
          · rename_i hNone
            exact isPort_of_decimals hLast hLastLength hNone
          · cases h
          · split at h
            · cases h
            · split at h <;> cases h
    · cases h

-- The Bandwidth Lines

def bandwidthLines (legacy : Bool) : List PyStr :=
  if legacy then LEGACY_BANDWIDTH_LINES else []

theorem slice_at (before rest : List PyStr)
    (n : ℕ) : slice (before ++ rest) before.length (before.length + n) = rest.take n := by
  unfold slice
  rw [List.take_length_add_append, List.drop_left]

theorem parseBandwidth_legacy (before rest : List PyStr) :
    parseBandwidth (before ++ (bandwidthLines true ++ rest)) before.length =
      .ok (before ++ bandwidthLines true).length := by
  have hUp : (pyStr "    up:").isPrefixOf (pyStr "    up: \"300 Mbps\"") = true := by
    decide
  unfold parseBandwidth
  rw [getElem?_at, slice_at, List.length_append]
  exact if_pos hUp

theorem parseBandwidth_plain (before rest : List PyStr) {line : PyStr} (hHead : rest.head? = some line)
    (hUp : (pyStr "    up:").isPrefixOf line = false) :
    parseBandwidth (before ++ rest) before.length = .ok before.length := by
  unfold parseBandwidth
  rw [getElem?_at, hHead]
  dsimp only
  rw [hUp]
  rfl

theorem parseBandwidth_ok {before rest : List PyStr} {index : ℕ}
    (h : parseBandwidth (before ++ rest) before.length = .ok index) :
    ∃ legacy rest', rest = bandwidthLines legacy ++ rest' ∧
      index = (before ++ bandwidthLines legacy).length := by
  unfold parseBandwidth at h
  rw [getElem?_at] at h
  split at h
  · cases h
  · split at h
    · rw [slice_at] at h
      split at h
      · rename_i hTwo
        cases h
        refine ⟨true, rest.drop 2, ?_, ?_⟩
        · have hJoin := List.take_append_drop 2 rest
          rw [hTwo] at hJoin
          exact hJoin.symm
        · rw [List.length_append]
          rfl
      · cases h
    · cases h
      exact ⟨false, rest, rfl, by
        rw [bandwidthLines, if_neg Bool.false_ne_true, List.append_nil]⟩

theorem parseBandwidth_raises_not (lines : List PyStr)
    (index : ℕ) : parseBandwidth lines index ≠ .error .valueError := by
  intro h
  unfold parseBandwidth at h
  split at h
  · cases h
  · split at h
    · split at h <;> cases h
    · cases h

-- The Proxies

/- The values of an export. -/
structure Export where
  server : PyStr
  port : PyStr
  uuid : PyStr
  servername : PyStr
  publicKey : PyStr
  shortId : PyStr
  hysteriaServer : PyStr
  hysteriaPort : PyStr
  hop : Option (PyStr × PyStr)
  password : PyStr
  legacy : Bool
  sni : PyStr
deriving DecidableEq

namespace Export

variable (e : Export)

def realityValues : List PyStr := [e.server, e.port, e.uuid, e.servername, e.publicKey, e.shortId]

def headValues : List PyStr := [e.hysteriaServer, e.hysteriaPort]

def realityFields : Fields := setAll REALITY_SPEC e.realityValues []

def hysteriaFields : Fields := setAll HISTERIA2_TAIL [e.sni] (setAll PASSWORD_SPEC [e.password]
      (hopFields e.hop (setAll HISTERIA2_HEAD e.headValues [])))

/- The lines of the two proxies. -/
def proxies : List PyStr := fill REALITY_SPEC e.realityValues ++ ([] ::
    (fill HISTERIA2_HEAD e.headValues ++ (hopLines e.hop ++
      (fill PASSWORD_SPEC [e.password] ++ (bandwidthLines e.legacy ++ fill HISTERIA2_TAIL [e.sni])))))

def realityLines : List PyStr := fill REALITY_SPEC e.realityValues

def hysteriaLines : List PyStr := fill HISTERIA2_HEAD e.headValues ++ (hopLines e.hop ++
    (fill PASSWORD_SPEC [e.password] ++ (bandwidthLines e.legacy ++ fill HISTERIA2_TAIL [e.sni])))

theorem proxies_eq : e.proxies = e.realityLines ++ [] :: e.hysteriaLines := rfl

/- The blocks of two proxies that begin at a line. -/
def blocksAt (start : ℕ) : Blocks where
  reality := e.realityFields
  reality_at := start
  reality_len := e.realityLines.length
  hysteria := e.hysteriaFields
  hysteria_at := start + e.realityLines.length + 1
  hysteria_len := e.hysteriaLines.length

end Export

/- Each value of the export passes its checker. -/
structure Accepted (e : Export) : Prop where
  reality : Passes REALITY_SPEC e.realityValues
  head : Passes HISTERIA2_HEAD e.headValues
  hop : HopPasses e.hop
  password : Passes PASSWORD_SPEC [e.password]
  tail : Passes HISTERIA2_TAIL [e.sni]

theorem passes_reality {values : List PyStr}
    (h : Passes REALITY_SPEC values) : ∃ a b c d e f, values = [a, b, c, d, e, f] := by
  rcases values with _ | ⟨a, values⟩
  · exact h.elim
  have h := h.2.2
  rcases values with _ | ⟨b, values⟩
  · exact h.elim
  have h := h.2.2
  rcases values with _ | ⟨c, values⟩
  · exact h.elim
  have h := h.2.2
  rcases values with _ | ⟨d, values⟩
  · exact h.elim
  have h := h.2.2
  rcases values with _ | ⟨e, values⟩
  · exact h.elim
  have h := h.2.2
  rcases values with _ | ⟨f, values⟩
  · exact h.elim
  have h := h.2.2
  cases h
  exact ⟨a, b, c, d, e, f, rfl⟩

theorem passes_head {values : List PyStr} (h : Passes HISTERIA2_HEAD values) : ∃ a b, values = [a, b] := by
  rcases values with _ | ⟨a, values⟩
  · exact h.elim
  have h := h.2.2
  rcases values with _ | ⟨b, values⟩
  · exact h.elim
  have h := h.2.2
  cases h
  exact ⟨a, b, rfl⟩

theorem passes_password {values : List PyStr} (h : Passes PASSWORD_SPEC values) : ∃ a, values = [a] := by
  rcases values with _ | ⟨a, values⟩
  · exact h.elim
  have h := h.2.2
  cases h
  exact ⟨a, rfl⟩

theorem passes_tail {values : List PyStr} (h : Passes HISTERIA2_TAIL values) : ∃ a, values = [a] := by
  rcases values with _ | ⟨a, values⟩
  · exact h.elim
  have h := h.2.2
  cases h
  exact ⟨a, rfl⟩

theorem slice_last (before rest : List PyStr) (high : ℕ) :
    slice (before ++ rest) before.length high = rest.take (high - before.length) := by
  rcases Nat.le_total before.length high with hLe | hLe
  · have hHigh : high = before.length + (high - before.length) := by
      omega
    conv_lhs => rw [hHigh]
    exact slice_at before rest _
  · unfold slice
    rw [Nat.sub_eq_zero_of_le hLe, List.take_zero, List.drop_eq_nil_iff, List.length_take]
    omega

theorem take_eq_singleton {α : Type} {x y : α} {rest : List α} {n : ℕ} (hTake : (y :: rest).take n = [x])
    (hLength : n ≤ rest.length) : y = x ∧ n = 1 := by
  cases n with
  | zero => cases hTake
  | succ n =>
    rw [List.take_succ_cons] at hTake
    injection hTake with hHead hTail
    have hNone := congrArg List.length hTail
    rw [List.length_take, List.length_nil] at hNone
    exact ⟨hHead, by omega⟩

/- What the parser takes for the two proxies. -/
theorem parseProxies_ok {before rest : List PyStr} {sections : Sections} {blocks : Blocks}
    (hAt : before.length = sections.proxies_at + 1)
    (hGroups : sections.groups_at < (before ++ rest).length)
    (h : parseProxies (before ++ rest) sections = .ok blocks) :
    ∃ e rest', rest = e.proxies ++ [] :: rest' ∧ Accepted e ∧ blocks.reality = e.realityFields ∧
      blocks.hysteria = e.hysteriaFields ∧
      sections.groups_at = (before ++ e.proxies).length + 1 := by
  unfold parseProxies at h
  rw [← hAt] at h
  rcases except_bind_ok h with ⟨⟨index, reality⟩, hReality, h⟩
  rcases (runSpec_ok_iff _ _ _ _ _ _).mp hReality with ⟨values, rest, rfl, hRealityOk, rfl, rfl⟩
  rcases passes_reality hRealityOk with ⟨a, b, c, d, e, f, rfl⟩
  dsimp only at h
  rcases except_bind_ok h with ⟨_, hBlank, h⟩
  have hBlank := expect_ok_iff.mp hBlank
  rw [← List.append_assoc, getElem?_at] at hBlank
  rcases rest with _ | ⟨blank, rest⟩
  · cases hBlank
  cases hBlank
  have hSplit : ∀ block : List PyStr,
        before ++ (block ++ [] :: rest) = (before ++ block ++ [[]]) ++ rest := by
    intro block
    simp
  have hLength : ∀ block : List PyStr, (before ++ block).length + 1 = (before ++ block ++ [[]]).length := by
    intro block
    simp [Nat.add_assoc]
  rw [hSplit] at h
  rw [hLength] at h
  rcases except_bind_ok h with ⟨⟨index, fields⟩, hHead, h⟩
  rcases (runSpec_ok_iff _ _ _ _ _ _).mp hHead with ⟨values, rest, rfl, hHeadOk, rfl, rfl⟩
  rcases passes_head hHeadOk with ⟨g, i, rfl⟩
  dsimp only at h
  rw [← List.append_assoc] at h
  rcases except_bind_ok h with ⟨⟨index, fields⟩, hHop, h⟩
  rcases parseHop_ok hHop with ⟨hop, rest, rfl, hHopOk, rfl, rfl⟩
  dsimp only at h
  rw [← List.append_assoc] at h
  rcases except_bind_ok h with ⟨⟨index, fields⟩, hPassword, h⟩
  rcases (runSpec_ok_iff _ _ _ _ _ _).mp hPassword with ⟨values, rest, rfl, hPasswordOk, rfl, rfl⟩
  rcases passes_password hPasswordOk with ⟨j, rfl⟩
  dsimp only at h
  rw [← List.append_assoc] at h
  rcases except_bind_ok h with ⟨index, hBandwidth, h⟩
  rcases parseBandwidth_ok hBandwidth with ⟨legacy, rest, rfl, rfl⟩
  rw [← List.append_assoc] at h
  rcases except_bind_ok h with ⟨⟨index, fields⟩, hTail, h⟩
  rcases (runSpec_ok_iff _ _ _ _ _ _).mp hTail with ⟨values, rest, rfl, hTailOk, rfl, rfl⟩
  rcases passes_tail hTailOk with ⟨k, rfl⟩
  dsimp only at h
  rw [← List.append_assoc] at h
  rcases except_bind_ok h with ⟨_, hEnd, h⟩
  have hEnd := expect_ok_iff.mp hEnd
  rw [slice_last] at hEnd
  cases h
  rcases rest with _ | ⟨blank, rest⟩
  · rw [List.take_nil] at hEnd
    cases hEnd
  simp only [List.length_append, List.length_cons, List.length_nil]
    at hEnd hGroups
  rcases take_eq_singleton hEnd (by omega) with ⟨rfl, hOne⟩
  refine ⟨⟨a, b, c, d, e, f, g, i, hop, j, legacy, k⟩, rest,
    ?_, ⟨hRealityOk, hHeadOk, hHopOk, hPasswordOk, hTailOk⟩,
    rfl, rfl, ?_⟩
  · simp [Export.proxies, Export.realityValues, Export.headValues]
  · simp only [Export.proxies, Export.realityValues, Export.headValues, List.length_append, List.length_cons]
    omega

theorem parseProxies_at {before rest : List PyStr} {sections : Sections} {e : Export}
    (hAccepted : Accepted e) (hAt : before.length = sections.proxies_at + 1)
    (hGroups : sections.groups_at = (before ++ e.proxies).length + 1) :
    parseProxies (before ++ (e.proxies ++ [] :: rest)) sections = .ok (e.blocksAt before.length) := by
  let b1 := before ++ fill REALITY_SPEC e.realityValues ++ [[]]
  let b2 := b1 ++ fill HISTERIA2_HEAD e.headValues
  let b3 := b2 ++ hopLines e.hop
  let b4 := b3 ++ fill PASSWORD_SPEC [e.password]
  let b5 := b4 ++ bandwidthLines e.legacy
  let b6 := b5 ++ fill HISTERIA2_TAIL [e.sni]
  let r5 := fill HISTERIA2_TAIL [e.sni] ++ [] :: rest
  let r4 := bandwidthLines e.legacy ++ r5
  let r3 := fill PASSWORD_SPEC [e.password] ++ r4
  let r2 := hopLines e.hop ++ r3
  let r1 := fill HISTERIA2_HEAD e.headValues ++ r2
  let r0 := fill REALITY_SPEC e.realityValues ++ [] :: r1
  have hLines : before ++ (e.proxies ++ [] :: rest) = before ++ r0 := by
    simp [r0, r1, r2, r3, r4, r5, Export.proxies]
  have h0 : before ++ r0 = b1 ++ r1 := by simp [r0, b1]
  have h1 : b1 ++ r1 = b2 ++ r2 := by simp [r1, b2]
  have h2 : b2 ++ r2 = b3 ++ r3 := by simp [r2, b3]
  have h3 : b3 ++ r3 = b4 ++ r4 := by simp [r3, b4]
  have h4 : b4 ++ r4 = b5 ++ r5 := by simp [r4, b5]
  have h5 : b5 ++ r5 = b6 ++ [] :: rest := by simp [r5, b6]
  have hReality : runSpec (before ++ r0) before.length REALITY_SPEC [] =
        .ok ((before ++ fill REALITY_SPEC e.realityValues).length, e.realityFields) :=
    (runSpec_ok_iff _ _ _ _ _ _).mpr ⟨_, _, rfl, hAccepted.reality, rfl, rfl⟩
  have hBlank : (before ++ r0)[ (before ++ fill REALITY_SPEC e.realityValues).length]? = some [] := by
    rw [← List.append_assoc, getElem?_at]
    rfl
  have hIndex : (before ++ fill REALITY_SPEC e.realityValues).length + 1 = b1.length := by
    simp [b1, Nat.add_assoc]
  have hHead : runSpec (before ++ r0) ((before ++ fill REALITY_SPEC e.realityValues).length + 1)
          HISTERIA2_HEAD [] =
        .ok (b2.length, setAll HISTERIA2_HEAD e.headValues []) := by
    rw [hIndex, h0]
    exact (runSpec_ok_iff _ _ _ _ _ _).mpr ⟨_, _, rfl, hAccepted.head, rfl, rfl⟩
  have hHop : parseHop (before ++ r0) b2.length (setAll HISTERIA2_HEAD e.headValues []) =
        .ok (b3.length, hopFields e.hop (setAll HISTERIA2_HEAD e.headValues [])) := by
    rw [h0, h1]
    cases hPair : e.hop with
    | none =>
      have hSame : b3 = b2 := by simp [b3, hPair, hopLines]
      rw [hSame]
      refine parseHop_none _ _ _ ?_
      intro line hLine
      have hFirst : line = pyStr "    password: " ++ e.password := by
        simp only [r2, hPair, hopLines, r3] at hLine
        cases hLine
        rfl
      rw [hFirst]
      rfl
    | some pair =>
      rcases pair with ⟨first, last⟩
      have hOk := hAccepted.hop
      rw [hPair] at hOk
      have hTwo := parseHop_some b2 r3 (setAll HISTERIA2_HEAD e.headValues []) hOk
      rw [← hPair] at hTwo ⊢
      exact hTwo
  have hPassword : runSpec (before ++ r0) b3.length PASSWORD_SPEC
          (hopFields e.hop (setAll HISTERIA2_HEAD e.headValues [])) =
        .ok (b4.length, setAll PASSWORD_SPEC [e.password] (hopFields e.hop
            (setAll HISTERIA2_HEAD e.headValues []))) := by
    rw [h0, h1, h2]
    exact (runSpec_ok_iff _ _ _ _ _ _).mpr ⟨_, _, rfl, hAccepted.password, rfl, rfl⟩
  have hBandwidth : parseBandwidth (before ++ r0) b4.length = .ok b5.length := by
    rw [h0, h1, h2, h3]
    cases hLegacy : e.legacy with
    | true =>
      have hTwo := parseBandwidth_legacy b4 r5
      rw [← hLegacy] at hTwo
      exact hTwo
    | false =>
      have hSame : b5 = b4 := by simp [b5, hLegacy, bandwidthLines]
      have hFirst : r4.head? = some (pyStr "    sni: " ++ e.sni) := by
        simp only [r4, hLegacy, bandwidthLines]
        rfl
      rw [hSame]
      exact parseBandwidth_plain _ _ hFirst rfl
  have hTail : runSpec (before ++ r0) b5.length HISTERIA2_TAIL (setAll PASSWORD_SPEC [e.password]
            (hopFields e.hop (setAll HISTERIA2_HEAD e.headValues []))) =
        .ok (b6.length, e.hysteriaFields) := by
    rw [h0, h1, h2, h3, h4]
    exact (runSpec_ok_iff _ _ _ _ _ _).mpr ⟨_, _, rfl, hAccepted.tail, rfl, rfl⟩
  have hEnd : slice (before ++ r0) b6.length sections.groups_at = PROXY_GROUP_BLANKS := by
    have hGroupsAt : sections.groups_at = b6.length + 1 := by
      rw [hGroups]
      simp [b6, b5, b4, b3, b2, b1, Export.proxies, Nat.add_assoc, Nat.add_comm, Nat.add_left_comm]
    rw [h0, h1, h2, h3, h4, h5, hGroupsAt, slice_at]
    rfl
  rw [hLines]
  unfold parseProxies
  rw [← hAt]
  refine except_bind_ok_iff.mpr ⟨_, hReality, except_bind_ok_iff.mpr ⟨_, expect_of hBlank,
      except_bind_ok_iff.mpr ⟨_, hHead, except_bind_ok_iff.mpr ⟨_, hHop,
          except_bind_ok_iff.mpr ⟨_, hPassword, except_bind_ok_iff.mpr ⟨_, hBandwidth,
              except_bind_ok_iff.mpr ⟨_, hTail, except_bind_ok_iff.mpr ⟨_, expect_of hEnd, ?_⟩⟩⟩⟩⟩⟩⟩⟩
  refine congrArg Except.ok ?_
  unfold Export.blocksAt Export.realityLines Export.hysteriaLines
  congr 1
  · rw [List.length_append]
    omega
  · rw [List.length_append]
  · simp only [b6, b5, b4, b3, b2, b1, List.length_append, List.length_singleton]
    omega

theorem parseProxies_of {before rest : List PyStr} {sections : Sections} {e : Export}
    (hAccepted : Accepted e) (hAt : before.length = sections.proxies_at + 1)
    (hGroups : sections.groups_at = (before ++ e.proxies).length + 1) : ∃ blocks,
      parseProxies (before ++ (e.proxies ++ [] :: rest)) sections = .ok blocks ∧
        blocks.reality = e.realityFields ∧
        blocks.hysteria = e.hysteriaFields :=
  ⟨_, parseProxies_at hAccepted hAt hGroups, rfl, rfl⟩

/- No checker of the specification raises. -/
def TotalSpec (spec : List Entry) : Prop := ∀ entry ∈ spec,
    match entry with
    | .literal _ => True
    | .value _ checker _ => ∀ value, checker value ≠ none

theorem TotalSpec.not_halts {spec : List Entry} (h : TotalSpec spec)
    (rest : List PyStr) : ¬ Halts spec rest := by
  induction spec generalizing rest with
  | nil => exact id
  | cons entry spec ih =>
    have hHere := h entry List.mem_cons_self
    have hSpec : TotalSpec spec := fun e he => h e (List.mem_cons_of_mem _ he)
    cases rest with
    | nil => exact id
    | cons line rest =>
      cases entry with
      | literal expected =>
        rintro ⟨-, hRest⟩
        exact ih hSpec rest hRest
      | value key checker name =>
        rintro ⟨value, -, -, hNone | ⟨-, hRest⟩⟩
        · exact hHere value hNone
        · exact ih hSpec rest hRest

theorem total_ne_none (f : PyStr → Bool) (s : PyStr) : total f s ≠ none := fun h => nomatch h

theorem halts_password_not {rest : List PyStr} : ¬ Halts PASSWORD_SPEC rest := by
  refine TotalSpec.not_halts ?_ rest
  intro entry hEntry
  fin_cases hEntry
  exact total_ne_none _

theorem halts_tail_not {rest : List PyStr} : ¬ Halts HISTERIA2_TAIL rest := by
  refine TotalSpec.not_halts ?_ rest
  intro entry hEntry
  fin_cases hEntry
  · exact total_ne_none _
  all_goals trivial

/- The block comes to a port that `int` refuses. -/
def PortRefused (name kind : String) (rest : List PyStr) : Prop := ∃ server port rest',
    rest = [pyStr name, pyStr kind, pyStr "    server: " ++ server, pyStr "    port: " ++ port] ++ rest' ∧
      Canonical server ∧ isServer server = true ∧
      Canonical port ∧ Unreadable port

theorem halts_port_iff {name kind : String} {spec : List Entry} (hSpec : TotalSpec spec)
    (rest : List PyStr) : Halts (literal name :: literal kind ::
        field "    server: " (total isServer) "server" ::
        field "    port: " isPort "port" :: spec) rest ↔
      PortRefused name kind rest := by
  constructor
  · intro h
    rcases rest with _ | ⟨first, rest⟩
    · exact h.elim
    rcases h with ⟨rfl, h⟩
    rcases rest with _ | ⟨second, rest⟩
    · exact h.elim
    rcases h with ⟨rfl, h⟩
    rcases rest with _ | ⟨third, rest⟩
    · exact h.elim
    rcases h with ⟨server, rfl, hCanonical, hNone | ⟨hServer, h⟩⟩
    · cases hNone
    rcases rest with _ | ⟨fourth, rest⟩
    · exact h.elim
    rcases h with ⟨port, rfl, hPort, hNone | ⟨-, h⟩⟩
    · exact ⟨server, port, rest, rfl, hCanonical, Option.some.inj hServer, hPort,
        (isPort_eq_none_iff port).mp hNone⟩
    · exact (hSpec.not_halts rest h).elim
  · rintro ⟨server, port, rest, rfl, hCanonical, hServer, hPort, hRefused⟩
    exact ⟨rfl, rfl, server, rfl, hCanonical, .inr ⟨congrArg some hServer, port, rfl, hPort,
        .inl ((isPort_eq_none_iff port).mpr hRefused)⟩⟩

/- The parser comes to a port of the proxies it cannot read. -/
def ProxiesHalt (rest : List PyStr) : Prop := PortRefused "  - name: Reality" "    type: vless" rest ∨
    ∃ values rest', rest = fill REALITY_SPEC values ++ [] :: rest' ∧ Passes REALITY_SPEC values ∧
      PortRefused "  - name: Hysteria2" "    type: hysteria2" rest'

theorem halts_reality_iff (rest : List PyStr) : Halts REALITY_SPEC rest ↔
      PortRefused "  - name: Reality" "    type: vless" rest := by
  refine halts_port_iff ?_ rest
  intro entry hEntry
  fin_cases hEntry
  all_goals
    first
      | trivial
      | exact total_ne_none _

theorem halts_head_iff (rest : List PyStr) : Halts HISTERIA2_HEAD rest ↔
      PortRefused "  - name: Hysteria2" "    type: hysteria2" rest := by
  refine halts_port_iff ?_ rest
  intro entry hEntry
  cases hEntry

theorem parseProxies_raises_iff {before rest : List PyStr} {sections : Sections}
    (hAt : before.length = sections.proxies_at + 1) :
    parseProxies (before ++ rest) sections = .error .valueError ↔ ProxiesHalt rest := by
  have hSplit : ∀ block rest : List PyStr,
        before ++ (block ++ [] :: rest) = (before ++ block ++ [[]]) ++ rest := by
    intro block rest
    simp
  have hLength : ∀ block : List PyStr, (before ++ block).length + 1 = (before ++ block ++ [[]]).length := by
    intro block
    simp [Nat.add_assoc]
  unfold parseProxies
  rw [← hAt]
  constructor
  · intro h
    rcases except_bind_error h with hReality | ⟨⟨index, _⟩, hReality, h⟩
    · exact .inl ((halts_reality_iff _).mp ((runSpec_raises_iff _ _ _ _).mp hReality))
    rcases (runSpec_ok_iff _ _ _ _ _ _).mp hReality with ⟨values, rest, rfl, hPasses, rfl, rfl⟩
    rcases except_bind_error h with hNo | ⟨_, hBlank, h⟩
    · exact (expect_not_valueError hNo).elim
    have hBlank := expect_ok_iff.mp hBlank
    rw [← List.append_assoc, getElem?_at] at hBlank
    rcases rest with _ | ⟨blank, rest⟩
    · cases hBlank
    cases hBlank
    rw [hSplit] at h
    rw [hLength] at h
    rcases except_bind_error h with hHead | ⟨⟨index, _⟩, hHead, h⟩
    · exact .inr ⟨values, rest, rfl, hPasses, (halts_head_iff _).mp ((runSpec_raises_iff _ _ _ _).mp hHead)⟩
    rcases (runSpec_ok_iff _ _ _ _ _ _).mp hHead with ⟨_, rest, rfl, -, rfl, rfl⟩
    dsimp only at h
    rw [← List.append_assoc] at h
    rcases except_bind_error h with hNo | ⟨⟨index, _⟩, hHop, h⟩
    · exact (parseHop_raises_not _ _ _ hNo).elim
    rcases parseHop_ok hHop with ⟨_, rest, rfl, -, rfl, rfl⟩
    dsimp only at h
    rw [← List.append_assoc] at h
    rcases except_bind_error h with hNo | ⟨⟨index, _⟩, hPassword, h⟩
    · exact (halts_password_not ((runSpec_raises_iff _ _ _ _).mp hNo)).elim
    rcases (runSpec_ok_iff _ _ _ _ _ _).mp hPassword with ⟨_, rest, rfl, -, rfl, rfl⟩
    dsimp only at h
    rw [← List.append_assoc] at h
    rcases except_bind_error h with hNo | ⟨index, hBandwidth, h⟩
    · exact (parseBandwidth_raises_not _ _ hNo).elim
    rcases parseBandwidth_ok hBandwidth with ⟨_, rest, rfl, rfl⟩
    rw [← List.append_assoc] at h
    rcases except_bind_error h with hNo | ⟨⟨index, _⟩, -, h⟩
    · exact (halts_tail_not ((runSpec_raises_iff _ _ _ _).mp hNo)).elim
    rcases except_bind_error h with hNo | ⟨_, -, h⟩
    · exact (expect_not_valueError hNo).elim
    · cases h
  · rintro (hReality | ⟨values, rest, rfl, hPasses, hHead⟩)
    · exact except_bind_of_error ((runSpec_raises_iff _ _ _ _).mpr ((halts_reality_iff _).mpr hReality))
    · have hReality : runSpec (before ++ (fill REALITY_SPEC values ++ [] :: rest))
              before.length REALITY_SPEC [] =
            .ok ((before ++ fill REALITY_SPEC values).length, setAll REALITY_SPEC values []) :=
        (runSpec_ok_iff _ _ _ _ _ _).mpr ⟨values, [] :: rest, rfl, hPasses, rfl, rfl⟩
      have hBlank : (before ++ (fill REALITY_SPEC values ++ [] :: rest))[
              (before ++ fill REALITY_SPEC values).length]? =
            some [] := by
        rw [← List.append_assoc, getElem?_at]
        rfl
      have hRaises : runSpec (before ++ (fill REALITY_SPEC values ++ [] :: rest))
              ((before ++ fill REALITY_SPEC values).length + 1)
              HISTERIA2_HEAD [] =
            .error .valueError := by
        rw [hSplit, hLength]
        exact (runSpec_raises_iff _ _ _ _).mpr ((halts_head_iff _).mpr hHead)
      exact (except_bind_of_ok hReality).trans
        ((except_bind_of_ok (expect_of hBlank)).trans (except_bind_of_error hRaises))

end SingboxOps.ClientExport
