import SingboxOps.JournalReader.Agreement

/-
  One cycle of the reader over the output of a poll.

  Every line is decoded, classified and absorbed, and the batch
  is written unless the source failed.  A conversion that
  raises escapes the cycle, and as no state has moved the next
  poll meets the same line again.  So does the `NameError` of a
  failed write in the output directory.
-/

namespace SingboxOps.JournalReader

open JournalIngest (field)

variable {F : Type} [BoundedFloat F]

-- Cycles

/-
  The writing of a file in the output directory.  It is refused
  where there is no such directory, and broken by any `OSError`:
  the handler calls `_unlink_quiet`, which is defined nowhere.
-/
inductive Written where
  | done
  | refused
  | broken
deriving DecidableEq

/-
  What a cycle meets besides the lines: the room for nested
  containers, the exit status of the poll, whether the
  fingerprint key is read, and what becomes of each write.
-/
structure World where
  isSpace : ℕ → Bool
  room : ℕ
  exit : ℤ
  keyLoads : Bool
  pending : Bool
  exchange : Written
  commits : Bool
  heartbeat : Written
  retention : Bool

/- Every write works. -/
def World.storage (w : World) : Bool :=
  w.pending && decide (w.exchange = .done) && w.commits && decide (w.heartbeat = .done) && w.retention

inductive CycleOutcome where
  | committed
  | empty
  | failure
  | escaped
deriving DecidableEq

/- What follows a write. -/
def Written.andThen (x : Written) (next : CycleOutcome) : CycleOutcome := match x with
  | .done => next
  | .refused => .failure
  | .broken => .escaped

/- `ReaderFailure`, or any other exception. -/
inductive Raised where
  | failure
  | escaped
deriving DecidableEq

/- `BACKLOG_CAP` -/
def backlogCap : ℕ := 50000

/- `line.strip()` -/
def strip (w : World) (line : PyStr) : PyStr :=
  ((line.dropWhile w.isSpace).reverse.dropWhile w.isSpace).reverse

/- `validate_cursor` -/
def validateCursor : Json F → Bool
  | .str s =>
    let size := (s.map JournalIngest.utf8Size).sum
    s.all (fun c => c < 55296 || 57344 ≤ c) && (1 ≤ size && size ≤ 4096) &&
      s.all (fun c => 33 ≤ c && !(127 ≤ c && c ≤ 159))
  | _ => false

/- The fields of an entry that are read. -/
def entryOf (members : List (PyStr × Json F)) : Entry F where
  message := field members "MESSAGE"
  priority := field members "PRIORITY"
  realtime := field members "__REALTIME_TIMESTAMP"
  sourceRealtime := field members "_SOURCE_REALTIME_TIMESTAMP"

/- The entry has a message and a timestamp. -/
def absorbs (r : TextRules F) (e : Entry F) : Bool := match entryTs r.unicode e with
  | some (some _) => !isNull e.message
  | _ => false

/- The template of the entry is hashed, which takes the key. -/
def hashes (r : TextRules F) (e : Entry F) : Bool := match assess r e.message e.priority with
  | some (.eligible x) => x.cls.isNone && !r.residualUnsafe (r.buildTemplate x.text)
  | _ => false

structure Consumed (F : Type) where
  batch : Batch F
  processed : ℕ
  cursorInvalid : Bool
  truncated : Bool

/- After a line there are more, or the loop is left. -/
inductive Read (F : Type) where
  | more (c : Consumed F)
  | done (c : Consumed F)

/- A decoded line with a usable cursor. -/
def consumeMembers (r : TextRules F) (w : World) (c : Consumed F) (e : Entry F) : Except Raised (Read F) :=
  match consumeEntry r c.batch e with
  | none => .error .escaped
  | some batch =>
    let next : Consumed F := { c with batch := batch, processed := c.processed + 1 }
    if !absorbs r e then .ok (.more next)
    else if hashes r e && !w.keyLoads then .error .failure
    else if backlogCap ≤ next.processed then
      .ok (.done { next with truncated := true })
    else .ok (.more next)

/- One line of the output. -/
def consumeLine (r : TextRules F) (w : World) (c : Consumed F) (line : PyStr) : Except Raised (Read F) :=
  if strip w line = [] then .ok (.more c)
  else
    match (Json.loads w.room (strip w line) : Except Json.ParseError (Json F)) with
    | .error .recursion => .error .escaped
    | .ok (.obj members) =>
      if validateCursor (field members "__CURSOR") then
        consumeMembers r w c (entryOf members)
      else .ok (.done { c with cursorInvalid := true })
    | _ => .ok (.done { c with cursorInvalid := true })

def consumeLines (r : TextRules F) (w : World) : Consumed F → List PyStr → Except Raised (Consumed F)
  | c, [] => .ok c
  | c, line :: rest =>
    match consumeLine r w c line with
    | .error raised => .error raised
    | .ok (.done c) => .ok c
    | .ok (.more c) => consumeLines r w c rest

/- `_commit_batch` -/
def commitBatch (w : World) (b : Batch F) (p : Position) : CycleOutcome :=
  if !w.pending then .failure
  else
    match exchangeBody b p with
    | none => .failure
    | some _ =>
      w.exchange.andThen (if w.commits then w.heartbeat.andThen (if w.retention then .committed else .failure)
        else .failure)

/- `_finish_cycle` -/
def finishCycle (w : World) (c : Consumed F) (p : Position) : CycleOutcome :=
  if c.cursorInvalid then .failure
  else if c.processed = 0 then
    if c.truncated || w.exit ≠ 0 then .failure
    else w.heartbeat.andThen .empty
  else if w.exit ≠ 0 && !c.truncated then .failure
  else commitBatch w c.batch p

def Consumed.start : Consumed F := ⟨Batch.empty, 0, false, false⟩

/- `run_cycle`, with the poll started. -/
def runCycle (r : TextRules F) (w : World) (lines : List PyStr) (p : Position) : CycleOutcome :=
  match consumeLines r w Consumed.start lines with
  | .error .failure => .failure
  | .error .escaped => .escaped
  | .ok c => finishCycle w c p

-- Conversions

/- A timestamp that is taken for a number converts to one. -/
def TsConverts (u : Unicode) (raw : Json F) : Prop := match raw with
  | .str s => isDigits u s = true → ∃ n, pyInt? u s = some n ∧ (n : ℚ) < BoundedFloat.limit F
  | .int n => 0 < n → (n : ℚ) < BoundedFloat.limit F
  | _ => True

/- The second timestamp only counts where the first is unusable. -/
def EntryTsConverts (u : Unicode) (e : Entry F) : Prop :=
  TsConverts u e.realtime ∧ (fieldTs u e.realtime = some none → TsConverts u e.sourceRealtime)

/- A port that is taken for a number converts to one. -/
def TokenConverts (u : Unicode) (token : PyStr) : Prop :=
  ∀ digits, afterColon (stripPunctuation token) = some digits →
    isDigits u digits = true → pyInt? u digits ≠ none

/- Every address up to the first that has a port. -/
def PortsConvert (u : Unicode) : List PyStr → Prop
  | [] => True
  | token :: rest =>
    TokenConverts u token ∧ (portOf u token = some none → PortsConvert u rest)

/- A priority that is taken for a digit converts to one. -/
def PriorityConverts (u : Unicode) (raw : Json F) : Prop :=
  ∀ s, raw = .str s → isDigits u s = true → s.length = 1 → pyInt? u s ≠ none

/- What is converted depends on the level of the message. -/
def MessageConverts (r : TextRules F) (message priority : Json F) : Prop :=
  let text := (r.normalizeMessage message).1
  match (r.normalizeMessage message).2 with
  | some .info | some .debug => True
  | some .error | some .warn => PortsConvert r.unicode (r.dialAddresses text)
  | none =>
    PortsConvert r.unicode (r.dialAddresses text) ∧
      (classifyFailure r text = none → PriorityConverts r.unicode priority)

def EntryConverts (r : TextRules F) (e : Entry F) : Prop :=
  EntryTsConverts r.unicode e ∧ (absorbs r e = true → MessageConverts r e.message e.priority)

theorem seconds?_isSome_iff
    {n : ℕ} : (∃ ts, (seconds? n : Option F) = some ts) ↔ (n : ℚ) < BoundedFloat.limit F := by
  have hAbs : |((n : ℤ) : ℚ)| = (n : ℚ) := by simp
  unfold seconds? floatOfInt?
  rw [hAbs]
  split
  · rename_i hFits
    simp [hFits]
  · rename_i hLarge
    simp [hLarge]

theorem fieldTs_isSome_iff {u : Unicode}
    {raw : Json F} : (∃ ts, fieldTs u raw = some ts) ↔ TsConverts u raw := by
  unfold fieldTs TsConverts
  cases raw with
  | str s =>
    simp only
    split
    · rename_i hDigits
      rw [forall_prop_of_true hDigits]
      constructor
      · rintro ⟨ts, h⟩
        rcases Option.map_eq_some_iff.mp h with ⟨x, hx, _⟩
        rcases Option.bind_eq_some_iff.mp hx with ⟨n, hn, hSec⟩
        exact ⟨n, hn, seconds?_isSome_iff.mp ⟨x, hSec⟩⟩
      · rintro ⟨n, hn, hFits⟩
        rcases seconds?_isSome_iff.mpr hFits with ⟨x, hx⟩
        refine ⟨some x, ?_⟩
        rw [hn, Option.bind_some, hx]
        rfl
    · rename_i hDigits
      exact ⟨fun _ h => absurd h hDigits, fun _ => ⟨none, rfl⟩⟩
  | int n =>
    simp only
    split
    · rename_i hPos
      have hNat : ((n.toNat : ℕ) : ℚ) = (n : ℚ) := by
        have hInt : ((n.toNat : ℕ) : ℤ) = n := Int.toNat_of_nonneg hPos.le
        exact_mod_cast congrArg (Int.cast : ℤ → ℚ) hInt
      rw [forall_prop_of_true hPos, ← hNat, ← seconds?_isSome_iff]
      constructor
      · rintro ⟨ts, h⟩
        rcases Option.map_eq_some_iff.mp h with ⟨x, hx, _⟩
        exact ⟨x, hx⟩
      · rintro ⟨x, hx⟩
        exact ⟨some x, by rw [hx]; rfl⟩
    · rename_i hPos
      exact ⟨fun _ h => absurd h hPos, fun _ => ⟨none, rfl⟩⟩
  | null => exact ⟨fun _ => True.intro, fun _ => ⟨none, rfl⟩⟩
  | bool b => exact ⟨fun _ => True.intro, fun _ => ⟨none, rfl⟩⟩
  | float x => exact ⟨fun _ => True.intro, fun _ => ⟨none, rfl⟩⟩
  | arr xs => exact ⟨fun _ => True.intro, fun _ => ⟨none, rfl⟩⟩
  | obj ms => exact ⟨fun _ => True.intro, fun _ => ⟨none, rfl⟩⟩

theorem entryTs_isSome_iff {u : Unicode}
    {e : Entry F} : (∃ ts, entryTs u e = some ts) ↔ EntryTsConverts u e := by
  unfold EntryTsConverts
  rw [← fieldTs_isSome_iff, ← fieldTs_isSome_iff]
  unfold entryTs
  split
  · rename_i hNone
    rw [hNone]
    simp
  · rename_i ts hSome
    rw [hSome]
    simp
  · rename_i hUnusable
    rw [hUnusable]
    simp

theorem portOf_isSome_iff {u : Unicode}
    {token : PyStr} : (∃ port, portOf u token = some port) ↔ TokenConverts u token := by
  unfold portOf TokenConverts
  cases hColon : afterColon (stripPunctuation token) with
  | none => simp
  | some digits =>
    simp only [Option.some.injEq, forall_eq']
    split
    · rename_i hDigits
      rw [forall_prop_of_true hDigits]
      cases pyInt? u digits with
      | none => simp
      | some n => simp
    · rename_i hDigits
      simp [hDigits]

theorem firstPort_isSome_iff {u : Unicode} {tokens : List PyStr} :
    (∃ port, firstPort u tokens = some port) ↔ PortsConvert u tokens := by
  induction tokens with
  | nil => exact ⟨fun _ => True.intro, fun _ => ⟨none, rfl⟩⟩
  | cons token rest ih =>
    rw [PortsConvert, ← portOf_isSome_iff, ← ih, firstPort]
    cases portOf u token with
    | none => simp
    | some port =>
      cases port with
      | none => simp
      | some n => simp

omit [BoundedFloat F] in
theorem priorityInt_isSome_iff {u : Unicode}
    {raw : Json F} : (∃ n, priorityInt u raw = some n) ↔ PriorityConverts u raw := by
  unfold priorityInt PriorityConverts
  cases raw with
  | str s =>
    simp only [Json.str.injEq, forall_eq']
    split
    · rename_i hDigit
      rw [Bool.and_eq_true, beq_iff_eq] at hDigit
      rw [forall_prop_of_true hDigit.1, forall_prop_of_true hDigit.2]
      cases pyInt? u s with
      | none => simp
      | some n => simp
    · rename_i hDigit
      rw [Bool.and_eq_true, beq_iff_eq, not_and] at hDigit
      refine ⟨fun _ h1 h2 => absurd h2 (hDigit h1), fun _ => ⟨none, rfl⟩⟩
  | null => simp
  | bool b => simp
  | int n => simp
  | float x => simp
  | arr xs => simp
  | obj ms => simp

omit [BoundedFloat F] in
theorem classifyEntry_isSome_iff {r : TextRules F} {text : PyStr} :
    (∃ e, classifyEntry r text = some e) ↔ PortsConvert r.unicode (r.dialAddresses text) := by
  rw [← firstPort_isSome_iff]
  unfold classifyEntry extractPort
  cases firstPort r.unicode (r.dialAddresses text) with
  | none => simp
  | some port => simp

omit [BoundedFloat F] in
theorem classifyEntry_cls {r : TextRules F} {text : PyStr} {e : Eligible}
    (h : classifyEntry r text = some e) : e.cls = classifyFailure r text := by
  rcases Option.map_eq_some_iff.mp h with ⟨port, _, rfl⟩
  rfl

theorem assess_isSome_iff {r : TextRules F} {message priority : Json F} :
    (∃ d, assess r message priority = some d) ↔ MessageConverts r message priority := by
  unfold assess MessageConverts
  rcases r.normalizeMessage message with ⟨text, level⟩
  have hClassified : (∃ d, (classifyEntry r text).map Decision.eligible = some d) ↔
        PortsConvert r.unicode (r.dialAddresses text) := by
    rw [← classifyEntry_isSome_iff]
    cases classifyEntry r text with
    | none => simp
    | some e => simp
  cases level with
  | some level =>
    cases level with
    | error => exact hClassified
    | warn => exact hClassified
    | info => exact ⟨fun _ => True.intro, fun _ => ⟨_, rfl⟩⟩
    | debug => exact ⟨fun _ => True.intro, fun _ => ⟨_, rfl⟩⟩
  | none =>
    simp only
    rw [← classifyEntry_isSome_iff, ← priorityInt_isSome_iff]
    cases hEntry : classifyEntry r text with
    | none => simp
    | some e =>
      have hCls := classifyEntry_cls hEntry
      rw [← hCls]
      cases hClass : e.cls with
      | some cls => simp [hClass]
      | none =>
        cases hPriority : priorityInt r.unicode priority with
        | none => simp [hClass]
        | some n =>
          have hSome : ∃ d, (if n.any (fun n => decide (n ≤ 4)) then
                  some (Decision.eligible e)
                else
                  some (.dropNomatch (!isNull priority && !r.blank priority && n.isNone))) = some d := by
            split
            · exact ⟨_, rfl⟩
            · exact ⟨_, rfl⟩
          simpa [hClass] using hSome

theorem consumeEntry_isSome_iff {r : TextRules F} {b : Batch F}
    {e : Entry F} : (∃ b', consumeEntry r b e = some b') ↔ EntryConverts r e := by
  unfold EntryConverts absorbs
  rw [← entryTs_isSome_iff, ← assess_isSome_iff]
  unfold consumeEntry
  cases entryTs r.unicode e with
  | none => simp
  | some ts =>
    cases ts with
    | none => cases isNull e.message <;> simp
    | some ts =>
      cases isNull e.message with
      | true => simp
      | false =>
        cases assess r e.message e.priority with
        | none => simp
        | some d => simp

-- Lines

/- What a line is as far as the loop is concerned. -/
inductive LineKind (F : Type) where
  | blank
  | deep
  | unusable
  | entry (e : Entry F)

def lineKind (w : World) (line : PyStr) : LineKind F :=
  if strip w line = [] then .blank
  else
    match (Json.loads w.room (strip w line) : Except Json.ParseError (Json F)) with
    | .error .recursion => .deep
    | .ok (.obj members) =>
      if validateCursor (field members "__CURSOR") then
        .entry (entryOf members)
      else .unusable
    | _ => .unusable

/- The loop sees a line by its kind. -/
theorem consumeLine_eq (r : TextRules F) (w : World) (c : Consumed F) (line : PyStr) :
    consumeLine r w c line =
      match (lineKind w line : LineKind F) with
      | .blank => .ok (.more c)
      | .deep => .error .escaped
      | .unusable => .ok (.done { c with cursorInvalid := true })
      | .entry e => consumeMembers r w c e := by
  unfold consumeLine lineKind
  split
  · rfl
  · split
    · rfl
    · split
      · rfl
      · rfl
    · rfl

/- A line nests no deeper than there is room, and converts. -/
def LineConverts (r : TextRules F) (w : World) (line : PyStr) : Prop :=
  match (lineKind w line : LineKind F) with
  | .deep => False
  | .entry e => EntryConverts r e
  | _ => True

/- The entries processed after a line that the loop goes on from. -/
def goesOn (r : TextRules F) (w : World) (processed : ℕ) (line : PyStr) : Option ℕ :=
  match (lineKind w line : LineKind F) with
  | .blank => some processed
  | .entry e =>
    if absorbs r e &&
        ((hashes r e && !w.keyLoads) || backlogCap ≤ processed + 1) then
      none
    else some (processed + 1)
  | _ => none

/- Every line that is read converts. -/
def AllConvert (r : TextRules F) (w : World) : ℕ → List PyStr → Prop
  | _, [] => True
  | processed, line :: rest =>
    LineConverts r w line ∧ ∀ next, goesOn r w processed line = some next → AllConvert r w next rest

variable {r : TextRules F} {w : World} {c : Consumed F}

theorem consumeLine_escaped_iff {line : PyStr} :
    consumeLine r w c line = .error .escaped ↔ ¬ LineConverts r w line := by
  rw [consumeLine_eq]
  unfold LineConverts
  cases (lineKind w line : LineKind F) with
  | blank => simp
  | deep => simp
  | unusable => simp
  | entry e =>
    simp only
    rw [← @consumeEntry_isSome_iff F _ r c.batch e]
    unfold consumeMembers
    cases consumeEntry r c.batch e with
    | none => simp
    | some batch =>
      simp only [Option.some.injEq, exists_eq', not_true_eq_false, iff_false]
      split_ifs <;> simp

theorem consumeLine_more_iff {line : PyStr} (h : LineConverts r w line) (next : ℕ) :
    goesOn r w c.processed line = some next ↔
      ∃ c', consumeLine r w c line = .ok (.more c') ∧ c'.processed = next := by
  rw [consumeLine_eq]
  unfold LineConverts at h
  unfold goesOn
  cases hKind : (lineKind w line : LineKind F) with
  | blank => simp
  | deep =>
    rw [hKind] at h
    exact False.elim h
  | unusable => simp
  | entry e =>
    rw [hKind] at h
    rcases (@consumeEntry_isSome_iff F _ r c.batch e).mpr h with ⟨batch, hBatch⟩
    simp only
    unfold consumeMembers
    rw [hBatch]
    simp only
    cases absorbs r e with
    | false => simp
    | true =>
      by_cases hKey : (hashes r e && !w.keyLoads) = true
      · simp [hKey]
      · by_cases hCap : backlogCap ≤ c.processed + 1
        · simp [hKey, hCap]
        · simp [hKey, hCap]

theorem consumeLines_escaped_iff {lines : List PyStr} :
    consumeLines r w c lines = .error .escaped ↔ ¬ AllConvert r w c.processed lines := by
  induction lines generalizing c with
  | nil => simp [consumeLines, AllConvert]
  | cons line rest ih =>
    have hEscaped := @consumeLine_escaped_iff F _ r w c line
    have hMore := @consumeLine_more_iff F _ r w c line
    rw [consumeLines, AllConvert]
    by_cases hLine : LineConverts r w line
    · have hMore := hMore hLine
      cases hStep : consumeLine r w c line with
      | error raised =>
        cases raised with
        | escaped => exact absurd hLine (hEscaped.mp hStep)
        | failure =>
          rw [hStep] at hMore
          simp [hLine, hMore]
      | ok read =>
        rw [hStep] at hMore
        cases read with
        | done c' => simp [hLine, hMore]
        | more c' =>
          simp only
          rw [ih]
          simp [hLine, hMore]
    · rw [hEscaped.mpr hLine]
      simp [hLine]

-- Entries Only

/- Every line is blank or an entry with a usable cursor. -/
def OnlyEntries (F : Type) [BoundedFloat F] (w : World) (lines : List PyStr) : Prop := ∀ line ∈ lines,
    (lineKind w line : LineKind F) = .blank ∨ ∃ e, (lineKind w line : LineKind F) = .entry e

def LineKind.toList : LineKind F → List (Entry F)
  | .entry e => [e]
  | _ => []

/- The entries that are read. -/
def entriesRead (r : TextRules F) (w : World) : ℕ → List PyStr → List (Entry F)
  | _, [] => []
  | processed, line :: rest =>
    (lineKind w line : LineKind F).toList ++
      match goesOn r w processed line with
      | none => []
      | some next => entriesRead r w next rest

/- How the loop over the lines is left. -/
inductive Ending where
  | ended
  | full
  | noKey
  | unusable
deriving DecidableEq

/- The first line that the loop does not go on from tells. -/
def ending (r : TextRules F) (w : World) : ℕ → List PyStr → Ending
  | _, [] => .ended
  | processed, line :: rest =>
    match goesOn r w processed line with
    | some next => ending r w next rest
    | none =>
      match (lineKind w line : LineKind F) with
      | .entry e => if hashes r e && !w.keyLoads then .noKey else .full
      | _ => .unusable

/- What the loop over lines that convert has consumed. -/
def Ends (r : TextRules F) (w : World) (c : Consumed F) (lines : List PyStr) : Ending → Prop
  | .noKey => consumeLines r w c lines = .error .failure
  | .unusable => ∃ c', consumeLines r w c lines = .ok c' ∧ c'.cursorInvalid = true
  | e => ∃ c', consumeLines r w c lines = .ok c' ∧ c'.cursorInvalid = c.cursorInvalid ∧
      c'.processed = c.processed + (entriesRead r w c.processed lines).length ∧
      (c'.truncated = (c.truncated || decide (e = .full))) ∧
      (e = .full → 0 < c'.processed) ∧
      (entriesRead r w c.processed lines).foldlM (consumeEntry r) c.batch = some c'.batch

theorem ends_blank {line : PyStr} {rest : List PyStr}
    (hKind : (lineKind w line : LineKind F) = .blank) {e : Ending} (h : Ends r w c rest e) :
    Ends r w c (line :: rest) e := by
  have hRun : consumeLines r w c (line :: rest) = consumeLines r w c rest := by
    rw [consumeLines, consumeLine_eq, hKind]
  have hRead : entriesRead r w c.processed (line :: rest) = entriesRead r w c.processed rest := by
    rw [entriesRead, goesOn, hKind]
    rfl
  cases e <;> simpa only [Ends, hRun, hRead] using h

/- And from an entry with the entry in the batch. -/
theorem ends_entry {line : PyStr} {rest : List PyStr} {e : Entry F} {c' : Consumed F}
    (hKind : (lineKind w line : LineKind F) = .entry e)
    (hGoes : goesOn r w c.processed line = some (c.processed + 1))
    (hLine : consumeLine r w c line = .ok (.more c'))
    (hBatch : consumeEntry r c.batch e = some c'.batch) (hCount : c'.processed = c.processed + 1)
    (hCursor : c'.cursorInvalid = c.cursorInvalid) (hTruncated : c'.truncated = c.truncated)
    {x : Ending} (h : Ends r w c' rest x) : Ends r w c (line :: rest) x := by
  have hRun : consumeLines r w c (line :: rest) = consumeLines r w c' rest := by
    rw [consumeLines, hLine]
  have hRead : entriesRead r w c.processed (line :: rest) = e :: entriesRead r w c'.processed rest := by
    rw [entriesRead, hGoes, hKind, hCount]
    rfl
  have hFold : (e :: entriesRead r w c'.processed rest).foldlM (consumeEntry r) c.batch =
      (entriesRead r w c'.processed rest).foldlM (consumeEntry r) c'.batch := by
    rw [List.foldlM_cons, hBatch]
    rfl
  cases x with
  | noKey => exact hRun.trans h
  | unusable =>
    rcases h with ⟨d, hd, hInvalid⟩
    exact ⟨d, hRun.trans hd, hInvalid⟩
  | ended | full =>
    rcases h with ⟨d, hd, hInvalid, hProcessed, hWhole, hPos, hBatches⟩
    refine ⟨d, hRun.trans hd, hInvalid.trans hCursor, ?_, ?_, hPos, ?_⟩
    · rw [hProcessed, hRead, List.length_cons]
      omega
    · rw [hWhole, hTruncated]
    · rw [hRead, hFold]
      exact hBatches

theorem consumeLines_ends {lines : List PyStr} (hConvert : AllConvert r w c.processed lines) :
    Ends r w c lines (ending r w c.processed lines) := by
  induction lines generalizing c with
  | nil =>
    change Ends r w c [] .ended
    exact ⟨c, rfl, rfl, rfl, by simp, Ending.noConfusion, rfl⟩
  | cons line rest ih =>
    rcases hConvert with ⟨hLine, hRest⟩
    unfold LineConverts at hLine
    rw [ending]
    cases hKind : (lineKind w line : LineKind F) with
    | blank =>
      have hGoes : goesOn r w c.processed line = some c.processed := by
        rw [goesOn, hKind]
      rw [hGoes]
      exact ends_blank hKind (ih (hRest _ hGoes))
    | deep =>
      rw [hKind] at hLine
      exact hLine.elim
    | unusable =>
      have hGoes : goesOn r w c.processed line = none := by
        rw [goesOn, hKind]
      rw [hGoes]
      refine ⟨{ c with cursorInvalid := true }, ?_, rfl⟩
      rw [consumeLines, consumeLine_eq, hKind]
    | entry e =>
      rw [hKind] at hLine
      rcases (@consumeEntry_isSome_iff F _ r c.batch e).mpr hLine with ⟨batch, hBatch⟩
      have hRead := consumeLine_eq r w c line
      rw [hKind] at hRead
      simp only [consumeMembers, hBatch] at hRead
      cases hAbsorbs : absorbs r e with
      | false =>
        have hGoes : goesOn r w c.processed line = some (c.processed + 1) := by
          simp [goesOn, hKind, hAbsorbs]
        rw [hGoes]
        rw [hAbsorbs] at hRead
        exact ends_entry hKind hGoes hRead hBatch rfl rfl rfl (ih (hRest _ hGoes))
      | true =>
        by_cases hKey : (hashes r e && !w.keyLoads) = true
        · have hGoes : goesOn r w c.processed line = none := by
            simp [goesOn, hKind, hAbsorbs, hKey]
          rw [hGoes]
          simp only [hKey, if_true]
          rw [hAbsorbs, hKey] at hRead
          change consumeLines r w c (line :: rest) = .error .failure
          rw [consumeLines, hRead]
          rfl
        · by_cases hCap : backlogCap ≤ c.processed + 1
          · have hGoes : goesOn r w c.processed line = none := by
              simp [goesOn, hKind, hAbsorbs, hCap]
            rw [hGoes]
            simp only [hKey]
            rw [hAbsorbs] at hRead
            simp only [Bool.not_true, Bool.false_eq_true, if_false, hKey, hCap, if_true] at hRead
            refine ⟨{ c with
              batch := batch
              processed := c.processed + 1
              truncated := true }, ?_, rfl, ?_, by simp, fun _ => Nat.succ_pos _, ?_⟩
            · rw [consumeLines, hRead]
            · rw [entriesRead, hGoes, hKind]
              rfl
            · rw [entriesRead, hGoes, hKind]
              simp [LineKind.toList, hBatch]
          · have hGoes : goesOn r w c.processed line = some (c.processed + 1) := by
              simp [goesOn, hKind, hAbsorbs, hKey, hCap]
            rw [hGoes]
            rw [hAbsorbs] at hRead
            simp only [Bool.not_true, Bool.false_eq_true, if_false, hKey, hCap] at hRead
            exact ends_entry hKind hGoes hRead hBatch rfl rfl rfl (ih (hRest _ hGoes))

theorem ending_entries {processed : ℕ} {lines : List PyStr} (hKey : w.keyLoads = true)
    (hOnly : OnlyEntries F w lines) :
    ending r w processed lines = .ended ∨ ending r w processed lines = .full := by
  induction lines generalizing processed with
  | nil => exact Or.inl rfl
  | cons line rest ih =>
    have hRest : OnlyEntries F w rest := fun l hl => hOnly l (List.mem_cons_of_mem _ hl)
    rw [ending]
    split
    · exact ih hRest
    · rename_i hStops
      rcases hOnly line List.mem_cons_self with hBlank | ⟨e, hEntry⟩
      · rw [goesOn, hBlank] at hStops
        exact nomatch hStops
      · rw [hEntry]
        simp [hKey]

-- Wedges

variable {lines : List PyStr} {p : Position}

/-
  A cycle commits, is empty or fails; over entries only it
  does not fail where the poll and the storage work.
-/
def Unwedged (r : TextRules F) (w : World) (lines : List PyStr) (p : Position) : Prop :=
  runCycle r w lines p ≠ .escaped ∧ (OnlyEntries F w lines → w.exit = 0 → w.keyLoads = true →
      w.storage = true → runCycle r w lines p = .committed ∨ runCycle r w lines p = .empty)

/- The entries that are read make a batch that can be written. -/
def Exportable (r : TextRules F) (w : World) (lines : List PyStr) (p : Position) : Prop :=
  entriesRead r w 0 lines ≠ [] → ∀ b, consume r (entriesRead r w 0 lines) = some b → Dated b ∧ Writable b p

/-
  No write that the cycle comes to is broken: the heartbeat
  after an empty window, and after a batch the exchange file
  and, where that is committed, the heartbeat.
-/
def WritesHold (r : TextRules F) (w : World) (lines : List PyStr) (p : Position) : Prop :=
  (ending r w 0 lines = .ended → entriesRead r w 0 lines = [] → w.exit = 0 → w.heartbeat ≠ .broken) ∧
    (ending r w 0 lines = .ended ∧ w.exit = 0 ∨ ending r w 0 lines = .full →
      entriesRead r w 0 lines ≠ [] → w.pending = true → Exportable r w lines p → w.exchange ≠ .broken ∧
          (w.exchange = .done → w.commits = true → w.heartbeat ≠ .broken))

theorem runCycle_of_not_convert (h : ¬ AllConvert r w 0 lines) : runCycle r w lines p = .escaped := by
  have hLines := @consumeLines_escaped_iff F _ r w Consumed.start lines
  unfold runCycle
  rw [hLines.mpr h]

theorem runCycle_of_stop (hConvert : AllConvert r w 0 lines)
    (hEnd : ending r w 0 lines = .noKey ∨ ending r w 0 lines = .unusable) :
    runCycle r w lines p = .failure := by
  have hEnds : Ends r w Consumed.start lines (ending r w 0 lines) := consumeLines_ends hConvert
  unfold runCycle
  rcases hEnd with hKey | hUnusable
  · rw [hKey] at hEnds
    rw [hEnds]
  · rw [hUnusable] at hEnds
    rcases hEnds with ⟨c, hRun, hInvalid⟩
    rw [hRun]
    simp [finishCycle, hInvalid]

/- A loop that is left at an end is followed by the writes. -/
theorem runCycle_of_end (hConvert : AllConvert r w 0 lines)
    (hEnd : ending r w 0 lines = .ended ∨ ending r w 0 lines = .full) : ∃ b,
      consume r (entriesRead r w 0 lines) = some b ∧
      (entriesRead r w 0 lines = [] → ending r w 0 lines = .ended) ∧
      runCycle r w lines p =
        if entriesRead r w 0 lines = [] then
          if w.exit ≠ 0 then .failure else w.heartbeat.andThen .empty
        else if w.exit ≠ 0 ∧ ending r w 0 lines = .ended then .failure
        else commitBatch w b p := by
  have hEnds : Ends r w Consumed.start lines (ending r w 0 lines) := consumeLines_ends hConvert
  have hState : ∃ c : Consumed F, consumeLines r w Consumed.start lines = .ok c ∧
      c.cursorInvalid = false ∧ c.processed = (entriesRead r w 0 lines).length ∧
      c.truncated = decide (ending r w 0 lines = .full) ∧
      (ending r w 0 lines = .full → 0 < c.processed) ∧
      consume r (entriesRead r w 0 lines) = some c.batch := by
    rcases hEnd with hOver | hFull
    · rw [hOver] at hEnds ⊢
      rcases hEnds with ⟨c, hRun, hInvalid, hCount, hWhole, hPos, hFold⟩
      exact ⟨c, hRun, hInvalid, hCount.trans (Nat.zero_add _), hWhole, hPos, hFold⟩
    · rw [hFull] at hEnds ⊢
      rcases hEnds with ⟨c, hRun, hInvalid, hCount, hWhole, hPos, hFold⟩
      exact ⟨c, hRun, hInvalid, hCount.trans (Nat.zero_add _), hWhole, hPos, hFold⟩
  rcases hState with ⟨c, hRun, hInvalid, hCount, hWhole, hPos, hFold⟩
  have hNil : entriesRead r w 0 lines = [] ↔ c.processed = 0 := by
    rw [hCount, List.length_eq_zero_iff]
  have hOver : entriesRead r w 0 lines = [] → ending r w 0 lines = .ended := by
    intro hNone
    refine hEnd.resolve_right ?_
    intro hFull
    exact (hPos hFull).ne' (hNil.mp hNone)
  refine ⟨c.batch, hFold, hOver, ?_⟩
  unfold runCycle
  rw [hRun]
  simp only [finishCycle, hInvalid, Bool.false_eq_true, if_false]
  by_cases hNone : entriesRead r w 0 lines = []
  · have hEmpty : c.truncated = false := by
      rw [hWhole, hOver hNone]
      rfl
    rw [if_pos (hNil.mp hNone), if_pos hNone]
    simp [hEmpty]
  · rw [if_neg (fun h => hNone (hNil.mpr h)), if_neg hNone]
    rcases hEnd with hEnd | hEnd
    · simp [hWhole, hEnd]
    · simp [hWhole, hEnd]

theorem exchangeBody_isSome_iff {es : List (Entry F)} {b : Batch F} (h : consume r es = some b) :
    (exchangeBody b p).isSome = true ↔ Dated b ∧ Writable b p := by
  have hTally := tally_consume h
  constructor
  · intro hSome
    rcases Option.isSome_iff_exists.mp hSome with ⟨text, hText⟩
    exact dated_of_exchangeBody hTally hText
  · intro hReady
    rw [(exchangeBody_eq hTally hReady.1 hReady.2).1]
    rfl

theorem commitBatch_escaped_iff {b : Batch F} : commitBatch w b p = .escaped ↔
    w.pending = true ∧ (exchangeBody b p).isSome = true ∧
      (w.exchange = .broken ∨ w.exchange = .done ∧ w.commits = true ∧ w.heartbeat = .broken) := by
  unfold commitBatch
  cases w.pending with
  | false => simp
  | true =>
    cases exchangeBody b p with
    | none => simp
    | some text =>
      cases w.exchange <;> cases w.commits <;> cases w.heartbeat <;> cases w.retention <;>
        simp [Written.andThen]

theorem commitBatch_committed_iff {b : Batch F} (hStorage : w.storage = true) :
    (commitBatch w b p = .committed ∨ commitBatch w b p = .empty) ↔ (exchangeBody b p).isSome = true := by
  simp only [World.storage, Bool.and_eq_true, decide_eq_true_eq] at hStorage
  rcases hStorage with ⟨⟨⟨⟨hPending, hExchange⟩, hCommits⟩, hHeartbeat⟩, hRetention⟩
  unfold commitBatch
  rw [hPending, hExchange, hCommits, hHeartbeat, hRetention]
  cases exchangeBody b p with
  | none => simp
  | some text => simp [Written.andThen]

theorem runCycle_escaped_iff (hConvert : AllConvert r w 0 lines) :
    runCycle r w lines p ≠ .escaped ↔ WritesHold r w lines p := by
  unfold WritesHold
  by_cases hEnd : ending r w 0 lines = .ended ∨ ending r w 0 lines = .full
  · rcases runCycle_of_end (p := p) hConvert hEnd with ⟨b, hFold, hOver, hRun⟩
    have hBody : Exportable r w lines p ↔
        (entriesRead r w 0 lines ≠ [] → (exchangeBody b p).isSome = true) := by
      unfold Exportable
      rw [hFold, exchangeBody_isSome_iff hFold]
      simp
    rw [hRun, hBody]
    by_cases hNone : entriesRead r w 0 lines = []
    · rw [if_pos hNone]
      by_cases hExit : w.exit = 0
      · cases hBeat : w.heartbeat <;> simp [hNone, hOver hNone, hExit, Written.andThen]
      · simp [hNone, hExit]
    · rw [if_neg hNone]
      by_cases hFailed : w.exit ≠ 0 ∧ ending r w 0 lines = .ended
      · simp [hFailed]
      · rw [if_neg hFailed]
        have hWhole : ending r w 0 lines = .ended ∧ w.exit = 0 ∨ ending r w 0 lines = .full := by
          rcases hEnd with hOver | hFull
          · exact Or.inl ⟨hOver, by_contra fun hExit => hFailed ⟨hExit, hOver⟩⟩
          · exact Or.inr hFull
        rw [Ne, commitBatch_escaped_iff]
        simp only [hNone, hWhole, false_implies, implies_true, true_and, not_false_eq_true, ne_eq,
          forall_const, not_and, not_or]
  · have hStop : ending r w 0 lines = .noKey ∨ ending r w 0 lines = .unusable := by
      cases hCase : ending r w 0 lines with
      | ended => exact (hEnd (Or.inl hCase)).elim
      | full => exact (hEnd (Or.inr hCase)).elim
      | noKey => exact Or.inl rfl
      | unusable => exact Or.inr rfl
    rw [runCycle_of_stop hConvert hStop]
    rcases hStop with hStop | hStop <;> simp [hStop]

/- Entries that convert are committed if they can be written. -/
theorem runCycle_entries (hOnly : OnlyEntries F w lines)
    (hExit : w.exit = 0) (hKey : w.keyLoads = true) (hStorage : w.storage = true)
    (hConvert : AllConvert r w 0 lines) :
    (runCycle r w lines p = .committed ∨ runCycle r w lines p = .empty) ↔
      Exportable r w lines p := by
  rcases runCycle_of_end (p := p) hConvert (ending_entries hKey hOnly) with ⟨b, hFold, -, hRun⟩
  unfold Exportable
  rw [hRun, hFold]
  by_cases hNone : entriesRead r w 0 lines = []
  · have hBeat : w.heartbeat = .done := by
      simp only [World.storage, Bool.and_eq_true, decide_eq_true_eq] at hStorage
      exact hStorage.1.2
    simp [hNone, hExit, hBeat, Written.andThen]
  · simp only [hNone, hExit, ne_eq, not_true_eq_false, false_and, if_false, not_false_eq_true,
      forall_const, Option.some.injEq, forall_eq']
    rw [commitBatch_committed_iff hStorage, exchangeBody_isSome_iff hFold]

/-
  No output wedges the reader exactly if every line that is
  read converts, no write that is come to is broken and the
  entries of a good poll can be written.
-/
theorem unwedged_iff (r : TextRules F) (w : World) (lines : List PyStr) (p : Position) :
    Unwedged r w lines p ↔ AllConvert r w 0 lines ∧ WritesHold r w lines p ∧
        (OnlyEntries F w lines → w.exit = 0 →
          w.keyLoads = true → w.storage = true → Exportable r w lines p) := by
  unfold Unwedged
  by_cases hConvert : AllConvert r w 0 lines
  · rw [runCycle_escaped_iff hConvert]
    simp only [hConvert, true_and]
    apply and_congr_right
    intro _
    constructor
    · intro h hOnly hExit hKey hStorage
      exact (runCycle_entries hOnly hExit hKey hStorage hConvert).mp (h hOnly hExit hKey hStorage)
    · intro h hOnly hExit hKey hStorage
      exact (runCycle_entries hOnly hExit hKey hStorage hConvert).mpr (h hOnly hExit hKey hStorage)
  · constructor
    · exact fun h => (h.1 (runCycle_of_not_convert hConvert)).elim
    · exact fun h => (hConvert h.1).elim

/- `str.isdigit` also holds of the superscript two. -/
def superscriptRules : TextRules (IntGrid (2 ^ 64)) :=
  { plainRules with
    unicode :=
      { plainRules.unicode with
        isDigit := fun c => (48 ≤ c && c ≤ 57) || c == 178 } }

def quietWorld : World where
  isSpace := fun c => c == 32 || (9 ≤ c && c ≤ 13)
  room := 900
  exit := 0
  keyLoads := true
  pending := true
  exchange := .done
  commits := true
  heartbeat := .done
  retention := true

/- An entry whose priority is a superscript two. -/
def superscriptLine : PyStr := dumps ([(pyStr "MESSAGE", .str (pyStr "started")),
    (pyStr "PRIORITY", .str [178]),
    (pyStr "__CURSOR", .str (pyStr "s=1")),
    (pyStr "__REALTIME_TIMESTAMP", .str (pyStr "1700000000000000"))] :
    List (PyStr × Json (IntGrid (2 ^ 64))))

theorem superscript_wedges : ¬ Unwedged superscriptRules quietWorld [superscriptLine]
      firstPosition := by
  intro h
  apply h.1
  decide +kernel

end SingboxOps.JournalReader
