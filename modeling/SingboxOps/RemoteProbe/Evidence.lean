import SingboxOps.RemoteProbe.Probes
import SingboxOps.Lib.PyText

/-
  The evidence of a cycle: what the controller answers, the
  entries of active tests and of its cache, and their merge.
-/

namespace SingboxOps.RemoteProbe.Collect

open PyFloat

variable {F : Type} [PyFloat F]

-- The Controller

inductive Role where
  | reality
  | hy2
deriving DecidableEq

def Role.text : Role → String
  | .reality => "reality"
  | .hy2 => "hy2"

/- `ROLES` -/
def Role.all : List Role := [.reality, .hy2]

inductive Outcome where
  | ok
  | timeout
  | unavailable
  | invalid
deriving DecidableEq

def Outcome.text : Outcome → String
  | .ok => "ok"
  | .timeout => "timeout"
  | .unavailable => "unavailable"
  | .invalid => "invalid"

/- What leaves `collect_sample` in place of a sample. -/
inductive CycleError where
  | runtime
  | recursion
  | overflow
  | other
deriving DecidableEq

/-
  What `get` of the transport comes back with: an error that its
  callers catch, another one, or an answer.
-/
inductive Transport where
  | unreachable
  | raised
  | answered (status : ℤ) (body : Bytes)

/- `_get_json` -/
def getJson (room : ℕ) : Transport → Except CycleError (Outcome × Option (Json F))
  | .unreachable => .ok (.unavailable, none)
  | .raised => .error .other
  | .answered status body =>
    if status ≠ 200 then .ok (.unavailable, none)
    else
      match loadsBytes room body with
      | .ok payload => .ok (.ok, some payload)
      | .error .recursion => .error .recursion
      | .error _ => .ok (.invalid, none)

/- The answers to a delay test that are not a status of 200. -/
def delayStatus (status : ℤ) : Outcome :=
  if status = 404 ∨ status = 401 ∨ status = 403 ∨ status = 400 then
    .invalid
  else if status = 408 ∨ status = 504 then .timeout
  else if 500 ≤ status ∧ status < 600 then .unavailable
  else .invalid

/- A delay in the budget of its test. -/
def delayOf (ceiling : ℤ) : Option (Json F) → Outcome × Option ℤ
  | some (.int delay) =>
    if delay < 0 ∨ ceiling < delay then (.invalid, none)
    else if delay = 0 then (.unavailable, none)
    else (.ok, some delay)
  | _ => (.invalid, none)

/- `_classify_delay` -/
def classifyDelay (F : Type) [PyFloat F] (room : ℕ) (ceiling : ℤ) (status : ℤ)
    (body : Bytes) : Except CycleError (Outcome × Option ℤ) :=
  if status = 200 then
    match (loadsBytes room body : Except PyError (Json F)) with
    | .ok (.obj members) => .ok (delayOf ceiling (Json.getItem members (pyStr "delay")))
    | .ok _ => .ok (.invalid, none)
    | .error .recursion => .error .recursion
    | .error _ => .ok (.invalid, none)
  else .ok (delayStatus status, none)

/- `delay` of a node that is configured. -/
def delayAnswer (F : Type) [PyFloat F] (room : ℕ)
    (ceiling : ℤ) : Transport → Except CycleError (Outcome × Option ℤ)
  | .unreachable => .ok (.unavailable, none)
  | .raised => .error .other
  | .answered status body => classifyDelay F room ceiling status body

/- A member of a dict, of anything else nothing. -/
def memberOf (value : Option (Json F)) (key : PyStr) : Option (Json F) := match value with
  | some (.obj members) => Json.getItem members key
  | _ => none

def isDict : Option (Json F) → Bool
  | some (.obj _) => true
  | _ => false

/- `node_present` -/
def nodePresent (payload : Option (Json F)) (node : PyStr) : Bool :=
  isDict (memberOf (memberOf payload (pyStr "proxies")) node)

-- The Cached Delay

/- `int(text)` of digits, with single underscores in between. -/
def unsignedOf (text : PyStr) : Option ℕ :=
  let groups := text.splitOn 95
  if groups.all (fun g => !g.isEmpty) then intOfDigits groups.flatten
  else none

/- `int(text)`; `none` is `ValueError`. -/
def intOfText (text : PyStr) : Option ℤ := match stripText text with
  | 43 :: rest => (unsignedOf rest).map (fun n => (n : ℤ))
  | 45 :: rest => (unsignedOf rest).map (fun n => -(n : ℤ))
  | rest => (unsignedOf rest).map (fun n => (n : ℤ))

/- `int(x)` of a float. -/
def truncate (x : ℚ) : ℤ := if x < 0 then ⌈x⌉ else ⌊x⌋

/-
  `int(value)`; `none` is a `TypeError` or `ValueError`, and an
  infinity is an `OverflowError`.
-/
def pyIntOf : Option (Json F) → Except CycleError (Option ℤ)
  | some (.int n) => .ok (some n)
  | some (.bool b) => .ok (some (if b then 1 else 0))
  | some (.float (.finite x)) => .ok (some (truncate (toRat x)))
  | some (.float (.infinite _)) => .error .overflow
  | some (.str text) => .ok (intOfText text)
  | _ => .ok none

/- `parse_selected_delay` -/
def parseSelectedDelay (history : Option (Json F)) : Except CycleError (Option ℤ) := match history with
  | some (.arr items) =>
    match items.getLast? with
    | some (.obj members) => do
        let delay ← pyIntOf (Json.getItem members (pyStr "delay"))
        return delay.filter (fun n => decide (0 < n))
    | _ => .ok none
  | _ => .ok none

/- `selected_node`, of the group that is watched. -/
def selectedNode (watchedGroup : Option PyStr)
    (payload : Option (Json F)) : Except CycleError (Option PyStr × Option ℤ) :=
  match watchedGroup with
  | none => .ok (none, none)
  | some group =>
    let proxies := memberOf payload (pyStr "proxies")
    match memberOf (memberOf proxies group) (pyStr "now") with
    | some (.str now) =>
      if (stripText now).isEmpty then .ok (none, none)
      else
        let selected := stripText now
        let node := memberOf proxies selected
        match node with
        | some (.obj _) => do
            let delay ← parseSelectedDelay (memberOf node (pyStr "history"))
            return (some selected, delay)
        | _ => .ok (some selected, none)
    | _ => .ok (none, none)

-- Entries

inductive Source where
  | activeDelay
  | passiveCache
deriving DecidableEq

def Source.text : Source → String
  | .activeDelay => "active_delay"
  | .passiveCache => "passive_cache"

/- `P6_DIAGNOSTIC_ID` -/
def diagnosticId : String := "p6-dedicated"

structure Entry where
  role : Role
  source : Source
  outcome : Outcome
  delayMs : Option ℤ
  testId : String
  independent : Bool
deriving DecidableEq

/- `active_entry` -/
def activeEntry (role : Role) (outcome : Outcome) (delay : Option ℤ) : Entry :=
  ⟨role, .activeDelay, outcome, delay, diagnosticId, true⟩

/- `passive_entry` -/
def passiveEntry (role : Role) (outcome : Outcome) (delay : Option ℤ) : Entry :=
  ⟨role, .passiveCache, outcome, delay, diagnosticId, true⟩

/- The entries, the sources among them and the echoes. -/
structure Merged where
  entries : List Entry
  corroboration : ℕ
  dropped : ℕ
deriving DecidableEq

/- `merge_evidence` -/
def mergeEvidence (active passive : List Entry) : Merged :=
  let keys := active.map (fun e => (e.role, e.testId))
  let isEcho := fun e : Entry => keys.contains (e.role, e.testId)
  { entries :=
      active.map (fun e => { e with independent := true }) ++
        passive.map (fun e => { e with independent := !isEcho e })
    corroboration := active.length + (passive.filter (fun e => !isEcho e)).length
    dropped := (passive.filter isEcho).length }

def Entry.json (e : Entry) : Json F := .obj [(pyStr "role", token e.role.text),
      (pyStr "source", token e.source.text),
      (pyStr "outcome", token e.outcome.text),
      (pyStr "delay_ms", intOrNone e.delayMs),
      (pyStr "test_id", token e.testId),
      (pyStr "independent", .bool e.independent)]

-- The Schema of the Entries

/- An entry as its builders make it. -/
structure Entry.Sound (e : Entry) : Prop where
  measured : e.outcome = .ok → ∃ n, e.delayMs = some n ∧ 0 < n
  unmeasured : e.outcome ≠ .ok → e.delayMs = none
  own : e.source = .activeDelay → e.independent = true
  testId : e.testId = diagnosticId

def Entry.pair (e : Entry) : Role × Source := (e.role, e.source)

/- The pairs that the entries before have shown. -/
def seenOf (before : List Entry) : SeenPairs F := (before.map (fun e =>
    ((token e.role.text : Json F), (token e.source.text : Json F)))).reverse

theorem seen_any (before : List Entry) (e : Entry) : (seenOf before : SeenPairs F).any (fun p =>
        sameScalar p.1 (token e.role.text) && sameScalar p.2 (token e.source.text)) =
      decide (e.pair ∈ before.map Entry.pair) := by
  rw [Bool.eq_iff_iff, List.any_eq_true, decide_eq_true_eq]
  simp only [seenOf, List.mem_reverse, List.mem_map]
  have hPair : ∀ d : Entry, (sameScalar (token d.role.text : Json F) (token e.role.text) &&
            sameScalar (token d.source.text : Json F) (token e.source.text)) = true ↔ d.pair = e.pair := by
    rintro ⟨role, source, -, -, -, -⟩
    obtain ⟨role', source', -, -, -, -⟩ := e
    cases role <;> cases role' <;> cases source <;> cases source' <;>
      simp [sameScalar, token, Entry.pair, Role.text, Source.text] <;>
      decide
  constructor
  · rintro ⟨p, ⟨d, hd, rfl⟩, hSame⟩
    exact ⟨d, hd, (hPair d).mp hSame⟩
  · rintro ⟨d, hd, hSame⟩
    exact ⟨_, ⟨d, hd, rfl⟩, (hPair d).mpr hSame⟩

theorem entry_valid {before : List Entry} {e : Entry} (hSound : e.Sound)
    (hNew : e.pair ∉ before.map Entry.pair) :
    entryViolations (seenOf before) (e.json : Json F) = .ok ([], seenOf (before ++ [e])) := by
  have hSeen := seen_any (F := F) before e
  rw [decide_eq_false hNew] at hSeen
  have hNext : (seenOf (before ++ [e]) : SeenPairs F) =
        (token e.role.text, token e.source.text) :: seenOf before := by
    simp [seenOf]
  rw [hNext]
  obtain ⟨role, source, outcome, delay, testId, independent⟩ := e
  obtain ⟨hMeasured, hUnmeasured, hOwn, hId⟩ := hSound
  change testId = diagnosticId at hId
  subst hId
  have hForm : entryViolations (seenOf before)
          (Entry.json ⟨role, source, outcome, delay, diagnosticId, independent⟩ : Json F) =
        .ok (problem (!isOneOf (token role.text : Json F) roles || (seenOf before : SeenPairs F).any (fun p =>
                sameScalar p.1 (token role.text) && sameScalar p.2 (token source.text))) "active: role" ++
            (if !isOneOf (token source.text : Json F) evSources then
              ["active: source"]
            else
              problem (isText (token source.text : Json F) "active_delay" &&
                !independent) "active: active-not-independent") ++
            problem (!isOneOf (token outcome.text : Json F) activeOutcomes) "active: outcome" ++
            problem (!isNullOrAtLeast 1 (intOrNone delay : Json F)) "active: delay_ms" ++
            problem (isText (token outcome.text : Json F) "ok" && isNull (intOrNone delay : Json F))
              "active: ok-without-delay" ++
            problem (!isText (token outcome.text : Json F) "ok" && !isNull (intOrNone delay : Json F))
              "active: delay-without-ok" ++
            problem ((pyStr diagnosticId).isEmpty || maxTestIdLen < (pyStr diagnosticId).length)
              "active: test_id" ++
            problem (!isBool (.bool independent : Json F)) "active: independent",
          (token role.text, token source.text) :: seenOf before) :=
    rfl
  have hRole : isOneOf (token role.text : Json F) roles = true := by
    cases role <;> rfl
  have hSource : isOneOf (token source.text : Json F) evSources = true := by
    cases source <;> rfl
  have hOutcome : isOneOf (token outcome.text : Json F) activeOutcomes = true := by
    cases outcome <;> rfl
  have hIndependent : (isText (token source.text : Json F) "active_delay" && !independent) = false := by
    cases source with
    | activeDelay =>
      have hTrue : independent = true := hOwn rfl
      rw [hTrue]
      rfl
    | passiveCache => rfl
  have hId : problem ((pyStr diagnosticId).isEmpty ||
        maxTestIdLen < (pyStr diagnosticId).length) "active: test_id" =
        [] := by
    decide
  rw [hForm, hSeen, hRole, hSource, hOutcome, hId]
  simp only [Bool.not_true, Bool.or_self, Bool.false_eq_true, if_false, hIndependent]
  cases outcome with
  | ok =>
    obtain ⟨n, hSome, hPositive⟩ := hMeasured rfl
    change delay = some n at hSome
    subst hSome
    have hLeast : isNullOrAtLeast 1 (.int n : Json F) = true := decide_eq_true hPositive
    simp only [intOrNone, hLeast]
    rfl
  | timeout =>
    have hNone : delay = none := hUnmeasured (fun h => (by cases h))
    rw [hNone]
    rfl
  | unavailable =>
    have hNone : delay = none := hUnmeasured (fun h => (by cases h))
    rw [hNone]
    rfl
  | invalid =>
    have hNone : delay = none := hUnmeasured (fun h => (by cases h))
    rw [hNone]
    rfl

theorem entries_valid (before : List Entry) {entries : List Entry} (hSound : ∀ e ∈ entries, e.Sound)
    (hPairs : ((before ++ entries).map Entry.pair).Nodup) :
    entriesViolations (seenOf before) (entries.map (fun e => (e.json : Json F))) = .ok [] := by
  induction entries generalizing before with
  | nil => rfl
  | cons e rest ih =>
    have hNew : e.pair ∉ before.map Entry.pair := by
      rw [List.map_append, List.nodup_append] at hPairs
      intro hMem
      exact hPairs.2.2 _ hMem _ (List.mem_map_of_mem List.mem_cons_self)
        rfl
    have hFirst := entry_valid (F := F) (hSound e List.mem_cons_self) hNew
    have hRest := ih (before ++ [e]) (fun d hd => hSound d (List.mem_cons_of_mem _ hd))
        (by rwa [List.append_assoc])
    rw [List.map_cons, entriesViolations, hFirst, ok_bind]
    simp only [hRest]
    rfl

theorem active_valid {entries : List Entry}
    (hFew : entries.length ≤ maxActiveEntries) (hSound : ∀ e ∈ entries, e.Sound)
    (hPairs : (entries.map Entry.pair).Nodup) : activeViolations
      (.arr (entries.map (fun e => (e.json : Json F)))) = .ok [] := by
  have hLength : ¬ maxActiveEntries < (entries.map (fun e => (e.json : Json F))).length := by
    rw [List.length_map]
    exact not_lt.mpr hFew
  simp only [activeViolations, if_neg hLength]
  exact entries_valid (F := F) [] hSound hPairs


end SingboxOps.RemoteProbe.Collect
