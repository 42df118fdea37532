import SingboxOps.Lib.Dict
import SingboxOps.Lib.Json.Value
import Mathlib.Data.List.Dedup
import Mathlib.Data.List.Sort
import Mathlib.Order.Defs.LinearOrder
import Mathlib.Data.List.Lex

/-
  The verdict of the lifecycle gate over snapshots of the
  collector.

  A snapshot is what its JSON text reads back as.  The totals
  are of any type with a sum and a comparison: nothing is
  assumed of how a sum is rounded.
-/

namespace SingboxOps.LifecycleGate

-- Snapshots

/- `ALLOWED_INBOUNDS` -/
def allowedInbounds : List PyStr := [pyStr "vless-in", pyStr "hy2-in"]

/- What a snapshot shows of one inbound of a device. -/
structure Protocol (N : Type) where
  activeConnections : ℕ
  uplinkTotal : N
  downlinkTotal : N

structure ClosedRow where
  id : PyStr
  inbound : Option PyStr
deriving DecidableEq

structure RecentRow extends ClosedRow where
  source : PyStr
deriving DecidableEq

inductive DeviceStatus where
  | active
  | recentActivity
  | idle
deriving DecidableEq

structure Device (N : Type) where
  status : DeviceStatus
  protocols : Dict PyStr (Protocol N)
  activeConnections : ℕ
  uplinkTotal : N
  downlinkTotal : N
  recentSources : List PyStr
  recentConnections : List RecentRow
  closedIds : List ClosedRow

/- A snapshot; `stale` is none where the field is missing. -/
structure Snapshot (N : Type) where
  stale : Option Bool
  lastError : Option PyStr
  identityConflicts : ℕ
  recentlyClosed : ℕ
  devices : Dict PyStr (Device N)

/- The gates that are set; an empty text sets none. -/
structure Settings where
  expectUser : PyStr
  expectInbound : PyStr
  requireClosed : Bool
deriving DecidableEq

-- Scoped Readers

variable {N : Type} [Zero N] [Add N]

/- `_scoped_devices` -/
def scopedDevices (snap : Snapshot N) (st : Settings) : List (Device N) :=
  if st.expectUser = [] then snap.devices.map Prod.snd
  else (snap.devices.get st.expectUser).toList

/- The totals one device counts with. -/
def Device.totals (dev : Device N) (inbound : PyStr) : N × N :=
  if inbound = [] then (dev.uplinkTotal, dev.downlinkTotal)
  else
    match dev.protocols.get inbound with
    | some p => (p.uplinkTotal, p.downlinkTotal)
    | none => (0, 0)

/- `scope_totals` -/
def scopeTotals (snap : Snapshot N) (st : Settings) : N × N := (scopedDevices snap st).foldl (fun acc dev =>
      let t := dev.totals st.expectInbound
      (acc.1 + t.1, acc.2 + t.2))
    (0, 0)

/- A row that the inbound gate lets count. -/
def ClosedRow.carried (inbound : PyStr) (row : ClosedRow) : Bool :=
  inbound = [] || row.inbound == some inbound

/- The closed ids of one device, of both its projections. -/
def Device.scopedIds (dev : Device N) (inbound : PyStr) : List PyStr :=
  let rows := dev.recentConnections.map RecentRow.toClosedRow ++ dev.closedIds
  (rows.filter (fun row => row.id ≠ [] && row.carried inbound)).map ClosedRow.id

/- `scope_recent_ids` -/
def scopeRecentIds (snap : Snapshot N) (st : Settings) : List PyStr :=
  ((scopedDevices snap st).flatMap (fun dev => dev.scopedIds st.expectInbound)).dedup

/- The live connections one device counts with. -/
def Device.liveIn (dev : Device N) (inbound : PyStr) : ℕ :=
  if inbound = [] then dev.activeConnections
  else
    match dev.protocols.get inbound with
    | some p => p.activeConnections
    | none => 0

/- `_scope_active` -/
def scopeActive (snap : Snapshot N) (st : Settings) : Bool := (scopedDevices snap st).any
    (fun dev => 0 < dev.liveIn st.expectInbound)

/- `_scope_protocols` -/
def scopeProtocols (snap : Snapshot N) (st : Settings) : List PyStr :=
  ((scopedDevices snap st).flatMap (fun dev => dev.protocols.keys)).dedup

/- The closed ids of a snapshot that its baseline lacks. -/
def newClosedIds (baseline snap : Snapshot N) (st : Settings) : List PyStr :=
  (scopeRecentIds snap st).filter (fun id => id ∉ scopeRecentIds baseline st)

-- Lines

inductive Mark where
  | pass
  | fail
  | info
deriving DecidableEq

abbrev Line := Mark × PyStr

inductive Verdict where
  | pass
  | fail
  | inconclusive
deriving DecidableEq

/- What `_finish` makes, less the exit code. -/
structure Outcome where
  verdict : Verdict
  reason : PyStr
  lines : List Line
  graceEligible : Bool
deriving DecidableEq

/- `ok(good)` or `bad(wrong)` -/
def check (holds : Bool) (good wrong : PyStr) : Line :=
  if holds then (.pass, good) else (.fail, wrong)

/- `failed` -/
def failures (lines : List Line) : List PyStr := (lines.filter (fun l => l.1 = .fail)).map Prod.snd

/- `CLOSED_FAIL_REASON` -/
def closedFailReason : PyStr := pyStr "no CLOSED/finalize evidence observed"

def isClosedFailure (l : Line) : Bool := l.1 = .fail && closedFailReason.isPrefixOf l.2

/- `", ".join(sorted(names))` -/
def joinSorted (names : List PyStr) : PyStr :=
  ((names.insertionSort (· ≤ ·)).intersperse (pyStr ", ")).flatten

/- `text or default` -/
def orText (text : PyStr) (default : String) : PyStr :=
  if text = [] then pyStr default else text

variable [LT N] [DecidableLT N] (fmt : N → PyStr)

/- `traffic_delta` -/
def trafficDelta (baseline final : Snapshot N) (st : Settings) : Bool :=
  (scopeTotals baseline st).1 < (scopeTotals final st).1 ||
    (scopeTotals baseline st).2 < (scopeTotals final st).2

/- `unexpected` -/
def unexpectedInbounds (final : Snapshot N) (st : Settings) : List PyStr :=
  (scopeProtocols final st).filter (fun tag => tag ∉ allowedInbounds)

/- `source_present` -/
def sourcePresent (final : Snapshot N) (st : Settings) : Bool := (scopedDevices final st).any (fun dev =>
      dev.recentConnections.any (fun row =>
        row.carried st.expectInbound && row.source ≠ [])) ||
    (st.expectInbound = [] && (scopedDevices final st).any (fun dev => dev.recentSources ≠ []))

/- `lifecycle` -/
def lifecycleSeen (baseline final : Snapshot N) (st : Settings) : Bool :=
  newClosedIds baseline final st ≠ [] || scopeActive final st || (st.expectInbound = [] &&
      (scopedDevices final st).any (fun dev =>
        dev.status = .active || dev.status = .recentActivity))

/- The line on the user; a named one has been seen already. -/
def userLine (final : Snapshot N) (st : Settings) : Line :=
  check (st.expectUser ≠ [] || final.devices ≠ []) (if st.expectUser ≠ [] then
      pyStr "USER=" ++ st.expectUser ++ pyStr " observed"
    else pyStr "device observed: " ++ joinSorted final.devices.keys)
    (pyStr "no device observed in this window (strict gates cannot be verified without any device)")

def inboundLines (final : Snapshot N) (st : Settings) : List Line :=
  if st.expectInbound = [] then []
  else
    [check (st.expectInbound ∈ scopeProtocols final st)
      (pyStr "INBOUND=" ++ st.expectInbound ++ pyStr " observed")
      (pyStr "expected INBOUND was not observed (EXPECT_INBOUND=" ++ st.expectInbound ++ pyStr "; seen: " ++
        orText (joinSorted (scopeProtocols final st)) "none" ++
        pyStr ")")]

def allowLine (final : Snapshot N) (st : Settings) : Line :=
  check (unexpectedInbounds final st = []) (pyStr "INBOUND values stay within vless-in / hy2-in")
    (pyStr "INBOUND values stay within vless-in / hy2-in (unexpected: " ++
      joinSorted (unexpectedInbounds final st) ++ pyStr ")")

/- `(uplink a->b, downlink c->d)` -/
def deltaText (baseline final : Snapshot N) (st : Settings) : PyStr :=
  let b := scopeTotals baseline st
  let f := scopeTotals final st
  pyStr "(uplink " ++ fmt b.1 ++ pyStr "->" ++ fmt f.1 ++
    pyStr ", downlink " ++ fmt b.2 ++ pyStr "->" ++ fmt f.2 ++
    pyStr ")"

def trafficLine (baseline final : Snapshot N) (st : Settings) : Line := check (trafficDelta baseline final st)
    (pyStr "traffic delta observed " ++ deltaText fmt baseline final st)
    (pyStr "no traffic delta beyond baseline " ++ deltaText fmt baseline final st)

def sourceLine (final : Snapshot N) (st : Settings) : Line := (.info, pyStr "SOURCE_PRESENT=" ++
    pyStr (if sourcePresent final st then "true" else "false") ++
    pyStr " (raw source is never printed)")

def lifecycleLine (baseline final : Snapshot N) (st : Settings) : Line :=
  check (lifecycleSeen baseline final st)
    (pyStr "new lifecycle observed") (pyStr "no lifecycle evidence observed")

/- The failure of the CLOSED gate. -/
def closedMissing : PyStr := closedFailReason ++ pyStr " (no new recent-closed ids beyond baseline)"

def closedLine (baseline final : Snapshot N) (st : Settings) : Line :=
  let ids := newClosedIds baseline final st
  let seen := pyStr "new CLOSED/finalize observed (" ++ Json.natText ids.length ++
    pyStr " new id(s) beyond baseline)"
  if st.requireClosed then check (ids ≠ []) seen closedMissing
  else if ids ≠ [] then (.info, seen)
  else
    (.info, pyStr "no new CLOSED in this window (REQUIRE_CLOSED=0; close the client and/or set REQUIRE_CLOSED=1 to enforce)")

def staleLine (final : Snapshot N) : Line := check (final.stale = some false) (pyStr "stale=false")
    (pyStr "stale=false (final snapshot stale: " ++ orText (final.lastError.getD []) "unknown" ++ pyStr ")")

/- The lines before the CLOSED gate. -/
def openLines (baseline final : Snapshot N) (st : Settings) : List Line :=
  userLine final st :: inboundLines final st ++ [allowLine final st, trafficLine fmt baseline final st,
      sourceLine final st, lifecycleLine baseline final st]

def gateLines (baseline final : Snapshot N) (st : Settings) : List Line :=
  openLines fmt baseline final st ++ [closedLine baseline final st, staleLine final]

-- Verdicts

/- The line of the CLOSED gate replaced, where it failed. -/
def settleClosed (line : Line) : List Line → List Line
  | [] => []
  | l :: rest =>
    if isClosedFailure l then line :: rest
    else l :: settleClosed line rest

/- What the grace window makes of a missing closure. -/
def graceOutcome (baseline graceFinal : Snapshot N) (st : Settings) (lines : List Line) : Outcome :=
  if graceFinal.stale ≠ some false then
    ⟨.fail, pyStr "grace window snapshot is stale",
      lines ++ [(.fail, pyStr "grace window snapshot is stale; closure evidence is not trustworthy (CLOSE_GRACE)")],
      false⟩
  else if graceFinal.identityConflicts ≠ 0 then
    ⟨.fail, pyStr "identity gate failure during grace window", lines ++ [(.fail,
        pyStr "identity gate failure during the grace window (identity_conflicts=" ++
          Json.natText graceFinal.identityConflicts ++
          pyStr ")")],
      false⟩
  else
    let ids := newClosedIds baseline graceFinal st
    if ids ≠ [] then
      ⟨.pass, [], settleClosed (.pass, pyStr "new CLOSED/finalize observed during the CLOSE_GRACE window (" ++
            Json.natText ids.length ++
            pyStr " new id(s) beyond the ORIGINAL baseline)") lines,
        false⟩
    else
      ⟨.fail, pyStr "CLOSE_GRACE window timed out without a new CLOSED/finalize", settleClosed (.fail,
          pyStr "CLOSE_GRACE window timed out without a new CLOSED/finalize (no new recent-closed ids beyond the ORIGINAL baseline)")
          lines,
        false⟩

/- The verdict that the lines decide. -/
def judge (baseline : Snapshot N) (st : Settings) (graceFinal : Option (Snapshot N))
    (lines : List Line) : Outcome :=
  match failures lines, graceFinal with
  | [], none => ⟨.pass, [], lines, false⟩
  | reason :: rest, none =>
    ⟨.fail, reason, lines, st.requireClosed && lines.any isClosedFailure && rest = []⟩
  | [], some _ =>
    ⟨.pass, [], lines ++ [(.info, pyStr "CLOSE_GRACE window not needed (primary window already PASS)")],
      false⟩
  | reason :: rest, some g =>
    if rest ≠ [] ∨ lines.any isClosedFailure = false then
      ⟨.fail, reason, lines ++ [(.info, pyStr "CLOSE_GRACE window NOT entered: the primary window has failure(s) other than the CLOSED gate; grace never rescues traffic/USER/INBOUND/lifecycle failures")],
        false⟩
    else graceOutcome baseline g st lines

/- What a run without any gate reports on an idle window. -/
def inconclusive? (baseline final : Snapshot N) (st : Settings) : Option (PyStr × PyStr) :=
  if st.expectUser = [] ∧ st.expectInbound = [] ∧
      st.requireClosed = false then
    if final.devices = [] ∧ final.recentlyClosed = 0 then
      some (pyStr "INCONCLUSIVE: no client traffic observed in this window; drive a Reality/HY2 connection (stable client) and re-run",
        pyStr "no client lifecycle observed")
    else if trafficDelta baseline final st = false ∧
        newClosedIds baseline final st = [] then
      some (pyStr "INCONCLUSIVE: devices present are historical replay (no traffic delta and no new closed ids in this window)",
        pyStr "no client lifecycle observed in window")
    else none
  else none

/- `evaluate` -/
def evaluate (baseline final : Snapshot N) (st : Settings) (graceFinal : Option (Snapshot N)) : Outcome :=
  if baseline.stale ≠ some false then
    ⟨.fail, pyStr "baseline snapshot is stale",
      [(.fail, pyStr "baseline snapshot is stale; baseline->final deltas are not trustworthy")],
      false⟩
  else
    match inconclusive? baseline final st with
    | some (text, reason) => ⟨.inconclusive, reason, [(.info, text)], false⟩
    | none =>
      if st.expectUser ≠ [] ∧
          st.expectUser ∉ final.devices.keys then
        ⟨.fail, pyStr "EXPECT_USER " ++ st.expectUser ++ pyStr " not observed", [(.fail,
            pyStr "expected USER was not observed (EXPECT_USER=" ++ st.expectUser ++ pyStr "; devices: " ++
              orText (joinSorted final.devices.keys) "none" ++
              pyStr ")")],
          false⟩
      else
        judge baseline st graceFinal (gateLines fmt baseline final st)

-- Failures

@[simp] theorem failures_append (a b : List Line) : failures (a ++ b) = failures a ++ failures b := by
  simp [failures]

@[simp] theorem failures_nil : failures [] = [] := rfl

theorem failures_cons (l : Line) (rest : List Line) : failures (l :: rest) = failures [l] ++ failures rest :=
  failures_append [l] rest

@[simp] theorem failures_check (holds : Bool) (good wrong : PyStr) :
    failures [check holds good wrong] = if holds then [] else [wrong] := by
  cases holds <;> rfl

@[simp] theorem failures_info (text : PyStr) : failures [(.info, text)] = [] := rfl

theorem failures_check_eq_nil {holds : Bool}
    {good wrong : PyStr} : failures [check holds good wrong] = [] ↔ holds = true := by
  cases holds <;> simp

/- The gates other than CLOSED, on a final snapshot. -/
structure Green (baseline final : Snapshot N) (st : Settings) : Prop where
  user : st.expectUser ≠ [] ∨ final.devices ≠ []
  inbound : st.expectInbound ≠ [] → st.expectInbound ∈ scopeProtocols final st
  allowed : ∀ tag ∈ scopeProtocols final st, tag ∈ allowedInbounds
  traffic : trafficDelta baseline final st = true
  lifecycle : lifecycleSeen baseline final st = true
  fresh : final.stale = some false

/- The CLOSED gate on a final snapshot. -/
def ClosedSeen (baseline final : Snapshot N) (st : Settings) : Prop :=
  st.requireClosed = true → newClosedIds baseline final st ≠ []

theorem failures_inboundLines (final : Snapshot N) (st : Settings) : failures (inboundLines final st) = [] ↔
      (st.expectInbound ≠ [] → st.expectInbound ∈ scopeProtocols final st) := by
  unfold inboundLines
  by_cases hInbound : st.expectInbound = []
  · rw [if_pos hInbound]
    exact iff_of_true rfl (fun h => absurd hInbound h)
  · rw [if_neg hInbound, failures_check_eq_nil, decide_eq_true_iff]
    exact ⟨fun h _ => h, fun h => h hInbound⟩

theorem unexpectedInbounds_eq_nil {final : Snapshot N} {st : Settings} :
    unexpectedInbounds final st = [] ↔ ∀ tag ∈ scopeProtocols final st, tag ∈ allowedInbounds := by
  unfold unexpectedInbounds
  rw [List.filter_eq_nil_iff]
  refine forall₂_congr (fun tag _ => ?_)
  rw [decide_eq_true_iff, not_not]

theorem failures_closedLine (baseline final : Snapshot N) (st : Settings) :
    failures [closedLine baseline final st] =
      if st.requireClosed ∧ newClosedIds baseline final st = []
      then [closedMissing] else [] := by
  unfold closedLine
  dsimp only
  cases st.requireClosed with
  | false => by_cases hIds : newClosedIds baseline final st = [] <;> simp [hIds]
  | true => by_cases hIds : newClosedIds baseline final st = [] <;> simp [hIds]

theorem failures_gateLines (baseline final : Snapshot N) (st : Settings) :
    failures (gateLines fmt baseline final st) = failures (openLines fmt baseline final st) ++
        (failures [closedLine baseline final st] ++ failures [staleLine final]) := by
  rw [gateLines, failures_append, failures_cons (closedLine baseline final st)]

theorem green_iff (baseline final : Snapshot N) (st : Settings) :
    failures (openLines fmt baseline final st) = [] ∧ failures [staleLine final] = [] ↔
      Green baseline final st := by
  have hOpen : failures (openLines fmt baseline final st) =
        failures [userLine final st] ++ (failures (inboundLines final st) ++
            (failures [allowLine final st] ++ (failures [trafficLine fmt baseline final st] ++
                failures [lifecycleLine baseline final st]))) := by
    unfold openLines
    rw [failures_append, failures_cons, List.append_assoc, failures_cons (allowLine final st),
      failures_cons (trafficLine fmt baseline final st),
      failures_cons (sourceLine final st)]
    rfl
  rw [hOpen]
  simp only [List.append_eq_nil_iff, failures_inboundLines]
  unfold userLine allowLine trafficLine lifecycleLine staleLine
  simp only [failures_check_eq_nil, Bool.or_eq_true, decide_eq_true_iff, unexpectedInbounds_eq_nil]
  constructor
  · rintro ⟨⟨hUser, hInbound, hAllowed, hTraffic, hLife⟩, hFresh⟩
    exact ⟨hUser, hInbound, hAllowed, hTraffic, hLife, hFresh⟩
  · intro h
    exact ⟨⟨h.user, h.inbound, h.allowed, h.traffic, h.lifecycle⟩, h.fresh⟩

theorem failures_gateLines_eq_nil (baseline final : Snapshot N) (st : Settings) :
    failures (gateLines fmt baseline final st) = [] ↔
      Green baseline final st ∧ ClosedSeen baseline final st := by
  rw [failures_gateLines, ← green_iff fmt, failures_closedLine]
  unfold ClosedSeen
  by_cases hMissing : st.requireClosed = true ∧ newClosedIds baseline final st = []
  · rw [if_pos hMissing]
    simp [hMissing.1, hMissing.2]
  · rw [if_neg hMissing]
    simp only [List.append_eq_nil_iff, true_and]
    exact ⟨fun h => ⟨h, fun hSet hNone => hMissing ⟨hSet, hNone⟩⟩, fun h => h.1⟩

-- The CLOSED Failure

theorem isClosedFailure_check {holds : Bool} {good wrong : PyStr}
    (h : closedFailReason.isPrefixOf wrong = false) :
    isClosedFailure (check holds good wrong) = false := by
  cases holds with
  | true => rfl
  | false => exact h

theorem any_openLines (baseline final : Snapshot N)
    (st : Settings) : (openLines fmt baseline final st).any isClosedFailure = false := by
  have hInbound : (inboundLines final st).any isClosedFailure = false := by
    unfold inboundLines
    by_cases h : st.expectInbound = []
    · rw [if_pos h]
      rfl
    · rw [if_neg h, List.any_cons, isClosedFailure_check rfl]
      rfl
  unfold openLines userLine allowLine trafficLine lifecycleLine
  simp only [List.cons_append, List.any_cons, List.any_append, List.any_nil, hInbound]
  rw [isClosedFailure_check rfl, isClosedFailure_check rfl,
    isClosedFailure_check rfl, isClosedFailure_check rfl]
  rfl

theorem any_gateLines (baseline final : Snapshot N) (st : Settings) :
    (gateLines fmt baseline final st).any isClosedFailure =
      isClosedFailure (closedLine baseline final st) := by
  unfold gateLines staleLine
  rw [List.any_append, any_openLines, List.any_cons, List.any_cons, isClosedFailure_check rfl]
  simp

theorem isClosedFailure_closedLine (baseline final : Snapshot N) (st : Settings) :
    isClosedFailure (closedLine baseline final st) = true ↔
      st.requireClosed = true ∧ newClosedIds baseline final st = [] := by
  unfold closedLine
  dsimp only
  cases st.requireClosed with
  | false =>
    by_cases hIds : newClosedIds baseline final st = [] <;>
      simp [hIds, isClosedFailure]
  | true =>
    by_cases hIds : newClosedIds baseline final st = []
    · simp only [hIds, ne_eq, not_true_eq_false, decide_false, and_self, iff_true]
      rfl
    · simp [hIds, isClosedFailure, check]

/-
  The CLOSED gate is the only failure exactly when the others
  are green and it is not.
-/
theorem sole_failure_iff (baseline final : Snapshot N) (st : Settings) {reason : PyStr} {rest : List PyStr}
    (h : failures (gateLines fmt baseline final st) = reason :: rest) :
    ¬ (rest ≠ [] ∨ (gateLines fmt baseline final st).any isClosedFailure = false) ↔
      Green baseline final st ∧ ¬ ClosedSeen baseline final st := by
  rw [any_gateLines, not_or, not_not, Bool.not_eq_false, isClosedFailure_closedLine]
  rw [failures_gateLines, failures_closedLine] at h
  rw [← green_iff fmt]
  unfold ClosedSeen
  rw [Classical.not_imp, not_not]
  by_cases hMissing : st.requireClosed = true ∧ newClosedIds baseline final st = []
  · rw [if_pos hMissing] at h
    refine and_congr_left (fun _ => ?_)
    have hLength := congrArg List.length h
    simp only [List.length_append, List.length_cons, List.length_nil] at hLength
    rw [← List.length_eq_zero_iff, ← List.length_eq_zero_iff, ← List.length_eq_zero_iff]
    omega
  · exact iff_of_false (fun h => hMissing h.2) (fun h => hMissing h.2)

end SingboxOps.LifecycleGate
