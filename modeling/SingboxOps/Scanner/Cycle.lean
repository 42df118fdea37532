import SingboxOps.EvidenceStore.Bundle
import SingboxOps.IncidentHistory.Invariant
import SingboxOps.Lib.Op

/-
  The incident scanner: activation and the scan cycle.

  A cycle reads the runtime state, derives the continuity of
  the reader, classifies one window, settles the verdict in
  the store and marks how far it got.  Any stage can abort it.
  What the cycles observed, asked for and settled is kept in a
  log beside the store.

  The status surface's counters and cached gates decide
  nothing and are left out.  A read or a write the store
  refuses and one that raises end a cycle alike.
-/

namespace SingboxOps.Scanner

open Classifier EvidenceStore
open IncidentHistory (Env Call Store RuntimeState WindowRow
  SnapshotArgs Outcome call freshStore)

variable {F : Type} [BoundedFloat F]

-- Constants

def bucketGraceSeconds : ℚ := 15
def discoveryBuckets : ℕ := 5
def closeCleanBuckets : ℕ := 3
def maxAnalysisBuckets : ℤ := maxBuckets

/- The four error codes. -/
inductive ErrorCode where
  | evidenceReadFailed
  | classifyFailed
  | persistFailed
  | runtimeStateCorrupt
deriving DecidableEq

-- The Environment

/-
  A reading of `time.time()`, a 64-bit count of nanoseconds in
  seconds.
-/
structure Moment (F : Type) [BoundedFloat F] where
  reading : F
  bounded : |PyFloat.toRat reading| ≤ 2 ^ 34

/- What `journal_status` says of the reader, or its exception. -/
inductive Heartbeat where
  | unreadable
  | token (status : Option PyStr)
deriving DecidableEq

/-
  What a cycle meets: whether the state can be read, the
  heartbeat and the clock at that moment, the clock when the
  grid is asked for, the evidence tables, and the store at the
  write and at the mark.
-/
structure CycleEnv (F : Type) [BoundedFloat F] where
  readable : Bool
  heartbeat : Heartbeat
  stamp : Moment F
  now : Moment F
  read : F → F → Option (EvidenceRows F)
  write : Env F
  mark : Env F

/- What an activation meets. -/
structure StartEnv (F : Type) [BoundedFloat F] where
  now : Moment F
  activate : Env F
  readable : Bool
  heartbeat : Heartbeat
  mark : Env F

-- The Machine

/- A clean close: the row it closed, and what it settled. -/
structure CleanClose (F : Type) where
  row : WindowRow F
  evidence : Members F
  detection : Detection F
  lastSignal : F
  lastEnd : F
  count : ℤ

/-
  What the cycles did: a heartbeat observed, a bundle asked
  for, a row opened under the runtime state in force, a row
  closed, with the evaluated end where the window limit closed
  it, an evaluated end marked, and the gate re-armed.
-/
inductive Event (F : Type) where
  | observed (moment : F) (fresh : Bool)
  | projected (start : F) (fresh : Bool)
  | opened (st : RuntimeState F) (analysisStart : F)
  | closedClean (close : CleanClose F)
  | closedLimit (evaluatedEnd : F)
  | marked (evaluatedEnd : F)
  | rearmed

/- The store, whether the scan thread runs, and the log. -/
structure Machine (F : Type) where
  store : Store F
  enabled : Bool
  log : List (Event F)

/- A stage of a cycle. -/
abbrev Scan (F α : Type) : Type := Op ErrorCode (Machine F) α

/- Keep an event. -/
def note (event : Event F) : Scan F Unit := Op.change (fun m => { m with log := m.log ++ [event] })

/- A call of the store, with the event of a call that landed. -/
def storeCall (env : Env F) (c : Call F) (event : Store F → List (Event F)) : Scan F Outcome :=
  Op.act (fun m =>
    let answer := call env c m.store
    (answer.1,
      { m with
        store := answer.2
        log := m.log ++
          match answer.1 with
          | .landed _ => event m.store
          | _ => [] }))

/- A call whose refusal ends the cycle. -/
def persist (env : Env F) (c : Call F) (event : Store F → List (Event F)) : Scan F Unit := do
  let outcome ← storeCall env c event
  match outcome with
  | .landed _ => pure ()
  | _ => Op.fail .persistFailed

-- Values

/- `_epoch` of a REAL column. -/
def epochOf (value : F) : Option F := if PyFloat.toRat value < 0 then none else some value

/- `_epoch` of a REAL column that may be NULL. -/
def epochOf? (value : Option F) : Option F := value.bind epochOf

/- `_rearm_flag` -/
def rearmFlag (value : ℤ) : Option Bool :=
  if value = 0 then some false
  else if value = 1 then some true
  else none

/- `n * BUCKET_SECONDS` for an int. -/
def bucketsLong (n : ℤ) : F := PyFloat.round (PyFloat.toRat (PyFloat.round (n : ℚ) : F) * bucketSeconds)

/- `math.ceil(now / BUCKET_SECONDS) * BUCKET_SECONDS` -/
def activationFloor (now : F) : F := bucketsLong ⌈PyFloat.toRat
    (PyFloat.round (PyFloat.toRat now / bucketSeconds) : F)⌉

/- `_last_complete_end` -/
def lastCompleteEnd (floor now : F) : Option F :=
  let elapsed : F := PyFloat.round
    (PyFloat.toRat (PyFloat.sub now bucketGraceSeconds : F) - PyFloat.toRat floor)
  let complete : ℤ := ⌊PyFloat.toRat (PyFloat.round (PyFloat.toRat elapsed / bucketSeconds) : F)⌋
  let latest : F := PyFloat.add floor (PyFloat.toRat (bucketsLong complete : F))
  if PyFloat.toRat latest < PyFloat.toRat (PyFloat.add floor bucketSeconds : F) then none
  else some latest

/- The start of the discovery window. -/
def discoveryStart (lastEnd : F) : F := PyFloat.sub lastEnd (discoveryBuckets * bucketSeconds)

/- `_warming`, once the grid has a complete bucket. -/
def warming (gate lastEnd : F) : Prop := PyFloat.toRat (discoveryStart lastEnd) < PyFloat.toRat gate

instance (gate lastEnd : F) : Decidable (warming gate lastEnd) := by
  unfold warming
  infer_instance

def real (value : F) : Json F := .float (.finite value)

/- The arguments of a window write. -/
def snapshotArgs (category : PyStr) (lastSignal classifiedEnd : F)
    (buckets evidenceBits unknownBits : ℤ) : SnapshotArgs F where
  category := .str category
  lastSignalEpoch := real lastSignal
  lastClassifiedEndEpoch := real classifiedEnd
  buckets := .int buckets
  evidenceBits := .int evidenceBits
  unknownBits := .int unknownBits

/- The arguments a detection is settled with. -/
def verdictArgs (detection : Detection F) (lastSignal lastEnd : F) (count : ℤ) : SnapshotArgs F :=
  snapshotArgs detection.classification.category.token lastSignal lastEnd count
    (evidenceToBits detection.classification.evidence)
    (unknownToBits detection.classification.unknowns)

-- Stages

/- `_read_snapshot`: the state, and the row it points at. -/
def readSnapshot (readable : Bool) : Scan F (RuntimeState F × Option (WindowRow F)) := do
  let m ← Op.get
  if !readable then Op.fail .runtimeStateCorrupt
  else
    match m.store.tables.state with
    | none => Op.fail .runtimeStateCorrupt
    | some st =>
      pure (st, st.openIncidentId.bind (fun id =>
        m.store.tables.windows.find? (fun w => w.incidentId = id)))

/- `_discovery_gate`; `none` is the re-arm gate. -/
def discoveryGate (st : RuntimeState F) : Scan F (Option F) :=
  match rearmFlag st.rearmRequired, epochOf? st.discoveryFloorEpoch with
  | none, _ => Op.fail .runtimeStateCorrupt
  | some true, _ => pure none
  | some false, none => Op.fail .runtimeStateCorrupt
  | some false, some floor => pure (some floor)

/- `token == "fresh"` -/
def isFresh (token : Option PyStr) : Bool := token = some (pyStr "fresh")

/- `_reader_hb` -/
def readerHb (heartbeat : Heartbeat) : Scan F (Option PyStr) := match heartbeat with
  | .unreadable => Op.fail .evidenceReadFailed
  | .token status => pure status

/-
  The continuity a heartbeat leaves: broken, begun at this
  moment, or kept.
-/
def continuity (fresh : Bool) (stamp : F) (persisted : Option F) : Option F :=
  if !fresh then none
  else
    match epochOf? persisted with
    | none => some stamp
    | some existing => some existing

/- `_derive_rfs` -/
def deriveRfs (heartbeat : Heartbeat) (stamp : F) (persisted : Option F) : Scan F (Option F) := do
  let token ← readerHb heartbeat
  note (.observed stamp (isFresh token))
  pure (continuity (isFresh token) stamp persisted)

/- The reader status a window is classified with. -/
def projection (rfs : Option F) (windowStart : F) : ReaderStatus := match rfs with
  | some since =>
    if PyFloat.toRat since ≤ PyFloat.toRat windowStart then .fresh
    else .stale
  | none => .stale

/- `_detect`, with the evidence it judged. -/
def detectWindow (env : CycleEnv F) (windowStart windowEnd : F)
    (rfs : Option F) : Scan F (Members F × Detection F) := do
  let status := projection rfs windowStart
  note (.projected windowStart (status = .fresh))
  match classifierBundle env.read windowStart windowEnd status with
  | none => Op.fail .evidenceReadFailed
  | some bundle =>
    match detect (.obj bundle) with
    | .error _ => Op.fail .classifyFailed
    | .ok detection => pure (bundle, detection)

/- The runtime state in force when a row is opened. -/
def openedEvent (analysisStart : F) (store : Store F) : List (Event F) := match store.tables.state with
  | some st => [.opened st analysisStart]
  | none => []

/- `_discovery_cycle` -/
def discoveryCycle (env : CycleEnv F) (gate lastEnd : F) (rfs : Option F) : Scan F (Option F) := do
  let windowStart := discoveryStart lastEnd
  if warming gate lastEnd then pure none
  else do
    let judged ← detectWindow env windowStart lastEnd rfs
    let detection := judged.2
    if detection.classification.status ≠ .incident then
      pure (some lastEnd)
    else
      match detection.firstSignal, detection.lastSignal with
      | some firstSignal, some lastSignal => do
          let analysisStart : F := PyFloat.sub firstSignal (minBaselineBuckets * bucketSeconds)
          persist env.write (.openWindow (real analysisStart) (real firstSignal)
              (verdictArgs detection lastSignal lastEnd discoveryBuckets))
            (openedEvent analysisStart)
          pure (some lastEnd)
      | _, _ => Op.fail .runtimeStateCorrupt

/- `_advance_last_signal` -/
def advanceLastSignal (row : WindowRow F) (detection : Detection F) : Scan F F :=
  match epochOf row.lastSignalEpoch with
  | none => Op.fail .runtimeStateCorrupt
  | some persisted =>
    if detection.indices = [] then pure persisted
    else
      match epochOf? detection.lastSignal with
      | none => Op.fail .classifyFailed
      | some advanced =>
        if PyFloat.toRat persisted < PyFloat.toRat advanced then
          pure advanced
        else pure persisted

/- No anomalous bucket among the last three. -/
def cleanTail (detection : Detection F) (count : ℤ) : Prop :=
  ∀ i ∈ detection.indices, (i : ℤ) < count - closeCleanBuckets

instance (detection : Detection F) (count : ℤ) :
    Decidable (cleanTail detection count) := by
  unfold cleanTail
  infer_instance

/- `_unchanged` -/
def unchanged (row : WindowRow F) (detection : Detection F) (lastSignal lastEnd : F) (count : ℤ) : Prop :=
  count = row.buckets ∧ PyFloat.toRat lastEnd = PyFloat.toRat row.lastClassifiedEndEpoch ∧
    detection.classification.category.token = row.category ∧
    PyFloat.toRat lastSignal = PyFloat.toRat row.lastSignalEpoch ∧
    (evidenceToBits detection.classification.evidence : ℤ) = row.evidenceBits ∧
    (unknownToBits detection.classification.unknowns : ℤ) = row.unknownBits

instance
    (row : WindowRow F) (detection : Detection F) (lastSignal lastEnd : F)
    (count : ℤ) : Decidable (unchanged row detection lastSignal lastEnd count) := by
  unfold unchanged
  infer_instance

/- `_close_clean` -/
def closeClean (env : CycleEnv F) (close : CleanClose F) : Scan F Unit :=
  persist env.write (.closeWindow (.int close.row.incidentId)
      (verdictArgs close.detection close.lastSignal close.lastEnd close.count)
      (.str (IncidentHistory.incidentClosureCleanBuckets)))
    (fun _ => [.closedClean close])

/- The evaluated end in force when the window limit closes. -/
def limitEvent (store : Store F) : List (Event F) := match store.tables.state with
  | some st => [.closedLimit st.lastEvaluatedEndEpoch]
  | none => []

/- `_close_window_limit` -/
def closeWindowLimit (env : CycleEnv F) (row : WindowRow F) : Scan F Unit :=
  match epochOf row.lastSignalEpoch,
      epochOf row.lastClassifiedEndEpoch with
  | some lastSignal, some classifiedEnd =>
    persist env.write (.closeWindow (.int row.incidentId) (snapshotArgs row.category lastSignal classifiedEnd
          row.buckets row.evidenceBits row.unknownBits)
        (.str (IncidentHistory.incidentClosureWindowLimit)))
      limitEvent
  | _, _ => Op.fail .runtimeStateCorrupt

/- Settle the verdict of an open row's window. -/
def settleVerdict (env : CycleEnv F)
    (row : WindowRow F) (evidence : Members F) (detection : Detection F) (lastEnd : F)
    (count : ℤ) : Scan F (Option F) := do
  let lastSignal ← advanceLastSignal row detection
  if cleanTail detection count then do
    closeClean env ⟨row, evidence, detection, lastSignal, lastEnd, count⟩
    pure (some lastEnd)
  else if unchanged row detection lastSignal lastEnd count then
    pure (some lastEnd)
  else do
    persist env.write (.updateWindow (.int row.incidentId) (verdictArgs detection lastSignal lastEnd count))
      (fun _ => [])
    pure (some lastEnd)

/- `_open_cycle` -/
def openCycle (env : CycleEnv F) (row : WindowRow F) (lastEnd : F) (rfs : Option F) : Scan F (Option F) :=
  match epochOf row.analysisStartEpoch with
  | none => Op.fail .runtimeStateCorrupt
  | some windowStart =>
    let count := bucketsBetween windowStart lastEnd
    if count < 1 then Op.fail .runtimeStateCorrupt
    else if maxAnalysisBuckets < count then do
      closeWindowLimit env row
      pure none
    else do
      let judged ← detectWindow env windowStart lastEnd rfs
      settleVerdict env row judged.1 judged.2 lastEnd count

/- `_mark` -/
def mark (env : CycleEnv F) (evaluated : Option F) (rfs : Option F) (st : RuntimeState F) : Scan F Unit :=
  match epochOf st.lastEvaluatedEndEpoch with
  | none => Op.fail .runtimeStateCorrupt
  | some persisted =>
    let stop := evaluated.getD persisted
    persist env.mark (.runtimeMark (real stop) (match rfs with
          | some since => real since
          | none => .null))
      (fun _ => [.marked stop])

/- What a cycle evaluates, by the open row and the gate. -/
def evaluate (env : CycleEnv F) (openRow : Option (WindowRow F)) (gate : Option F) (lastEnd : F)
    (rfs : Option F) : Scan F (Option F) :=
  match openRow, gate with
  | some row, _ => openCycle env row lastEnd rfs
  | none, none => pure none
  | none, some gate => discoveryCycle env gate lastEnd rfs

/- `_run_one_cycle` -/
def runOneCycle (env : CycleEnv F) : Scan F Unit := do
  let snapshot ← readSnapshot env.readable
  let st := snapshot.1
  match epochOf st.activationFloorEpoch with
  | none => pure ()
  | some floor =>
    if PyFloat.toRat floor ≤ 0 then pure ()
    else do
      let gate ← discoveryGate st
      let rfs ← deriveRfs env.heartbeat env.stamp.reading st.readerFreshSinceEpoch
      match lastCompleteEnd floor env.now.reading with
      | none => mark env none rfs st
      | some lastEnd => do
          let evaluated ← evaluate env snapshot.2 gate lastEnd rfs
          mark env evaluated rfs st

/- `run_once`: an abort ends the cycle, and nothing more. -/
def runOnce (env : CycleEnv F) : Scan F Unit := do
  let m ← Op.get
  if !m.enabled then pure ()
  else Op.recover (runOneCycle env) (fun _ => pure ())

/- The gates an activation reads, once its mark has landed. -/
def gatesRead (st : RuntimeState F) : Bool :=
  match rearmFlag st.rearmRequired, epochOf st.activationFloorEpoch with
  | some rearm, some floor =>
    decide (0 < PyFloat.toRat floor) && (rearm || (epochOf? st.discoveryFloorEpoch).isSome)
  | _, _ => false

/- `_activate`; a scanner that fails it stays dark. -/
def activate (env : StartEnv F) : Scan F Unit := do
  let floor := activationFloor env.now.reading
  persist env.activate (.activate (real floor)) (fun _ => [])
  let snapshot ← readSnapshot env.readable
  let token ← readerHb env.heartbeat
  persist env.mark (.runtimeMark (real snapshot.1.lastEvaluatedEndEpoch)
      (if isFresh token then real floor else .null))
    (fun _ => [.marked snapshot.1.lastEvaluatedEndEpoch])
  if gatesRead snapshot.1 then
    Op.change (fun m => { m with enabled := true })
  else pure ()

/- `start` -/
def start (env : StartEnv F) : Scan F Unit := do
  let m ← Op.get
  if m.enabled then pure ()
  else Op.recover (activate env) (fun _ => pure ())

-- Runs

/- The process is gone; the store and the log are not. -/
def died (m : Machine F) : Machine F := { m with enabled := false }

/- A stage, or the part of it before the process dies. -/
def outcomeOf (x : Scan F Unit) (cut : Option ℕ) (m : Machine F) : Machine F := match cut with
  | none => x.final m
  | some n => died (((x.seen m)[n]?).getD m)

/-
  What can happen: a start and a cycle, each of which a crash
  can cut short, the end of the process, and the calls of the
  operator and of retention between the cycles.
-/
inductive Input (F : Type) [BoundedFloat F] where
  | start (env : StartEnv F) (cut : Option ℕ)
  | cycle (env : CycleEnv F) (cut : Option ℕ)
  | exit
  | rearm (env : Env F)
  | cleanup (env : Env F)

/- One step of a run. -/
def step (m : Machine F) (input : Input F) : Unit × Machine F := ((), match input with
    | .start env cut => outcomeOf (start env) cut m
    | .cycle env cut => outcomeOf (runOnce env) cut m
    | .exit => died m
    | .rearm env => (storeCall env .rearm (fun _ => [.rearmed])).final m
    | .cleanup env => (storeCall env .cleanup (fun _ => [])).final m)

/- A machine over a freshly created store. -/
def freshMachine : Machine F where
  store := freshStore
  enabled := false
  log := []

end SingboxOps.Scanner
