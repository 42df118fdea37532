import SingboxOps.IncidentHistory.Windows
import Mathlib.Data.Rat.Floor

/-
  The calls of the incident plane: activation, the three
  window writes, the runtime mark, the operator re-arm and the
  retention cleanup, each one transaction.

  An argument is any Python value.  A call never raises: it
  answers, refuses, or fails, and the plane's counters say
  which.
-/

namespace SingboxOps.IncidentHistory

variable {F : Type} [BoundedFloat F]

/- A statement of an incident transaction. -/
abbrev Work (F α : Type) : Type := Tx Failure (Tables F) α

/- Execute a statement; its storage failure is `sqlite3.Error`. -/
def execute {α : Type} (statement : Tables F → Except Failure (α × Tables F)) : Work F α :=
  Tx.execute .storage statement

/- `self._conn.commit()` -/
def commit : Work F Unit := Tx.commit .storage

-- Argument Gates

/-
  A finite, non-negative int or float; `none` otherwise.  An
  integer no float is near raises `OverflowError`.
-/
def incidentEpoch (value : Json F) : Except Failure (Option F) := match value with
  | .int n =>
    match floatOfInt? n with
    | none => .error .overflow
    | some x => .ok (if n < 0 then none else some x)
  | .float (.finite x) => .ok (if PyFloat.toRat x < 0 then none else some x)
  | _ => .ok none

/- A non-negative int within the frozen width. -/
def encodeIncidentBits (tokens : Json F) (maximum : ℤ) : Option ℤ := match tokens with
  | .int n => if n < 0 ∨ n > maximum then none else some n
  | _ => none

/- The six columns one classification writes. -/
structure Snapshot (F : Type) where
  category : PyStr
  lastSignal : F
  classifiedEnd : F
  buckets : ℤ
  evidence : ℤ
  unknown : ℤ
deriving DecidableEq

/- The arguments the six columns are written from. -/
structure SnapshotArgs (F : Type) where
  category : Json F
  lastSignalEpoch : Json F
  lastClassifiedEndEpoch : Json F
  buckets : Json F
  evidenceBits : Json F
  unknownBits : Json F

/- A text of a closed vocabulary. -/
def memberOf (value : Json F) (vocabulary : List PyStr) : Option PyStr := match value with
  | .str s => if s ∈ vocabulary then some s else none
  | _ => none

/- An int between 1 and the bucket bound. -/
def bucketCount (value : Json F) : Option ℤ := match value with
  | .int n => if n < 1 ∨ n > incidentBudgetMax then none else some n
  | _ => none

/- The shared validation of every window write. -/
def incidentValues (args : SnapshotArgs F) : Except Failure (Option (Snapshot F)) :=
  match memberOf args.category incidentWindowCategories with
  | none => .ok none
  | some category => do
      let lastSignal ← incidentEpoch args.lastSignalEpoch
      let classifiedEnd ← incidentEpoch args.lastClassifiedEndEpoch
      match lastSignal, classifiedEnd with
      | some lastSignal, some classifiedEnd =>
        if ¬ realLe lastSignal classifiedEnd then .ok none
        else
          match bucketCount args.buckets,
              encodeIncidentBits args.evidenceBits incidentEvidenceBitsMax,
              encodeIncidentBits args.unknownBits incidentUnknownBitsMax with
          | some buckets, some evidence, some unknown =>
            .ok (some ⟨category, lastSignal, classifiedEnd, buckets, evidence, unknown⟩)
          | _, _, _ => .ok none
      | _, _ => .ok none

/- An incident id: an int of at least 1 that a column can hold. -/
def incidentIdOf (value : Json F) : Option ℤ := match value with
  | .int n => if n < 1 then none else some n
  | _ => none

/- Binding an integer of more than 64 bits is an `OverflowError`. -/
def bindInt (n : ℤ) : Except Failure ℤ :=
  if -int64Limit ≤ n ∧ n < int64Limit then .ok n
  else .error .overflow

/- A value a gate let through, or a refusal. -/
def accepted {α : Type} (value : Option α) : Except Failure α := match value with
  | none => .error .refused
  | some a => .ok a

-- The Locked Calls

/- A missing continuity row is never recreated. -/
def incidentRuntimeRowPresentLocked : Work F (RuntimeState F) := do
  let state ← Tx.query .storage (fun t : Tables F => t.state)
  match state with
  | none => Tx.fail .schema
  | some st => pure st

/- The first activation wins; later ones change nothing. -/
def incidentActivateLocked (activationFloorEpoch : Json F) : Work F Unit := do
  let floor ← Tx.ofExcept (incidentEpoch activationFloorEpoch)
  let floor ← Tx.ofExcept (accepted floor)
  let _ ← incidentRuntimeRowPresentLocked
  let st ← incidentRuntimeRowPresentLocked
  if 0 < PyFloat.toRat st.activationFloorEpoch then pure ()
  else do
    let _ ← execute (updateState (fun st => PyFloat.toRat st.activationFloorEpoch = 0) (fun st =>
        { st with
          activationFloorEpoch := floor
          discoveryFloorEpoch := some floor
          rearmRequired := 0 }))
    commit

/- The row an open inserts; its id is the database's to give. -/
def openedRow (analysisStart firstSignal : F) (values : Snapshot F) (now : F) : WindowRow F where
  incidentId := 0
  classifierVersion := incidentClassifierVersion
  state := .opened
  category := values.category
  analysisStartEpoch := analysisStart
  firstSignalEpoch := firstSignal
  lastSignalEpoch := values.lastSignal
  lastClassifiedEndEpoch := values.classifiedEnd
  closedEpoch := none
  closureReason := none
  buckets := values.buckets
  evidenceBits := values.evidence
  unknownBits := values.unknown
  createdEpoch := now
  updatedEpoch := now

/- Open a window and point the runtime state at it. -/
def incidentOpenWindowLocked (analysisStartEpoch firstSignalEpoch : Json F)
    (args : SnapshotArgs F) (now : Json F)
    (pick : ℤ) : Work F ℤ := do
  let analysisStart ← Tx.ofExcept (incidentEpoch analysisStartEpoch)
  let firstSignal ← Tx.ofExcept (incidentEpoch firstSignalEpoch)
  let values ← Tx.ofExcept (incidentValues args)
  let now ← Tx.ofExcept (incidentEpoch now)
  let analysisStart ← Tx.ofExcept (accepted analysisStart)
  let firstSignal ← Tx.ofExcept (accepted firstSignal)
  let now ← Tx.ofExcept (accepted now)
  if ¬ realLe analysisStart firstSignal then Tx.fail .refused
  else do
    let values ← Tx.ofExcept (accepted values)
    let _ ← incidentRuntimeRowPresentLocked
    let incidentId ← execute (insertWindow pick (openedRow analysisStart firstSignal values now))
    -- the pointer rides the same transaction
    let _ ← execute (updateState (fun _ => true) (fun st => { st with openIncidentId := some incidentId }))
    commit
    pure incidentId

/- `WHERE incident_id = ? AND state = 'open'` -/
def isOpenRow (incidentId : ℤ) (w : WindowRow F) : Bool := w.incidentId = incidentId ∧ w.state = .opened

/- The columns an update writes. -/
def updatedRow (values : Snapshot F) (now : F) (w : WindowRow F) : WindowRow F :=
  { w with
    category := values.category
    lastSignalEpoch := values.lastSignal
    lastClassifiedEndEpoch := values.classifiedEnd
    buckets := values.buckets
    evidenceBits := values.evidence
    unknownBits := values.unknown
    updatedEpoch := now }

/- Refresh the open row in place. -/
def incidentUpdateWindowLocked (incidentId : Json F) (args : SnapshotArgs F)
    (now : Json F) : Work F Unit := do
  let incidentId ← Tx.ofExcept (accepted (incidentIdOf incidentId))
  let values ← Tx.ofExcept (incidentValues args)
  let now ← Tx.ofExcept (incidentEpoch now)
  let values ← Tx.ofExcept (accepted values)
  let now ← Tx.ofExcept (accepted now)
  let incidentId ← Tx.ofExcept (bindInt incidentId)
  let rowcount ← execute (updateWindows (isOpenRow incidentId) (updatedRow values now))
  if rowcount ≠ 1 then Tx.fail .refused else commit

/- The columns a close writes. -/
def closedRow (values : Snapshot F) (closureReason : PyStr) (now : F) (w : WindowRow F) : WindowRow F :=
  { updatedRow values now w with
    state := .closed
    closedEpoch := some now
    closureReason := some closureReason }

/- The gate a close moves, in the transaction of the close. -/
def closedGate (closureReason : PyStr) (lastSignal : F) (st : RuntimeState F) : RuntimeState F :=
  if closureReason = incidentClosureCleanBuckets then
    { st with
      openIncidentId := none
      discoveryFloorEpoch := some lastSignal
      rearmRequired := 0 }
  else
    { st with
      openIncidentId := none
      discoveryFloorEpoch := none
      rearmRequired := 1 }

/- Close the open row and move the gate. -/
def incidentCloseWindowLocked (incidentId : Json F) (args : SnapshotArgs F) (closureReason : Json F)
    (now : Json F) : Work F Unit := do
  let incidentId ← Tx.ofExcept (accepted (incidentIdOf incidentId))
  let closureReason ← Tx.ofExcept (accepted (memberOf closureReason incidentClosureReasons))
  let values ← Tx.ofExcept (incidentValues args)
  let now ← Tx.ofExcept (incidentEpoch now)
  let values ← Tx.ofExcept (accepted values)
  let now ← Tx.ofExcept (accepted now)
  if ¬ realLe values.lastSignal now then Tx.fail .refused
  else do
    let incidentId ← Tx.ofExcept (bindInt incidentId)
    let rowcount ← execute (updateWindows (isOpenRow incidentId) (closedRow values closureReason now))
    if rowcount ≠ 1 then Tx.fail .refused
    else do
      let _ ← execute (updateState (fun _ => true) (closedGate closureReason values.lastSignal))
      commit

/- Advance the evaluated end and the reader continuity. -/
def incidentRuntimeMarkLocked (lastEvaluatedEndEpoch readerFreshSinceEpoch : Json F) : Work F Unit := do
  let evaluated ← Tx.ofExcept (incidentEpoch lastEvaluatedEndEpoch)
  let fresh ← Tx.ofExcept (
    match readerFreshSinceEpoch with
    | .null => .ok (some none)
    | value => (incidentEpoch value).map (Option.map some))
  let fresh ← Tx.ofExcept (accepted fresh)
  let evaluated ← Tx.ofExcept (accepted evaluated)
  let _ ← incidentRuntimeRowPresentLocked
  let _ ← execute (updateState (fun _ => true) (fun st =>
      { st with
        lastEvaluatedEndEpoch := evaluated
        readerFreshSinceEpoch := fresh }))
  commit

/- The next whole minute at or after a moment, as an int. -/
def nextMinute (current : F) : ℤ := ⌈PyFloat.toRat (PyFloat.round
      (PyFloat.toRat current / incidentBucketSeconds) : F)⌉ *
    incidentBucketSeconds

/- Lower the re-arm gate, where it is raised. -/
def incidentRearmLocked (now : Json F) : Work F Unit := do
  let current ← Tx.ofExcept (incidentEpoch now)
  let current ← Tx.ofExcept (accepted current)
  let _ ← incidentRuntimeRowPresentLocked
  let floor ← Tx.ofExcept (bindInt (nextMinute current))
  let rowcount ← execute (updateState (fun st =>
      0 < PyFloat.toRat st.activationFloorEpoch ∧ st.openIncidentId = none ∧
        st.discoveryFloorEpoch = none ∧ st.rearmRequired = 1)
    (fun st =>
      { st with
        rearmRequired := 0
        discoveryFloorEpoch := some (PyFloat.round (floor : ℚ)) }))
  if rowcount ≠ 1 then Tx.fail .refused else commit

/-
  The retention transaction, as far as it touches the incident
  tables: closed windows age out, open ones never do.  Size
  pruning follows the commit and touches neither table.
-/
def cleanupWindows (horizon : ExtFloat F) : Work F Unit := do
  let _ ← execute (deleteWindows
    (fun w => w.state = .closed ∧ (ExtFloat.finite w.lastSignalEpoch).lt horizon))
  commit

-- Calls

/- The calls, with any values as arguments. -/
inductive Call (F : Type) where
  | activate (activationFloorEpoch : Json F)
  | openWindow
      (analysisStartEpoch firstSignalEpoch : Json F)
      (args : SnapshotArgs F)
  | updateWindow (incidentId : Json F) (args : SnapshotArgs F)
  | closeWindow
      (incidentId : Json F)
      (args : SnapshotArgs F)
      (closureReason : Json F)
  | runtimeMark (lastEvaluatedEndEpoch readerFreshSinceEpoch : Json F)
  | rearm
  | cleanup

/-
  What a call finds around it: whether the store is enabled,
  the clock, the retention horizon's length, the storage's
  answers, and the rowid a random pick would find.
-/
structure Env (F : Type) where
  enabled : Bool
  clock : ExtFloat F
  retention : F
  faults : List Bool
  pick : ℤ

/- How a call went. -/
inductive Outcome where
  | landed (incidentId : Option ℤ)
  | refused
  | failed
deriving DecidableEq

/- The bookkeeping of the incident plane. -/
structure Plane where
  persistedTotal : ℕ := 0
  rejectedTotal : ℕ := 0
  failureCount : ℕ := 0
  degraded : Bool := false
  lastErrorCode : Option PyStr := none
deriving DecidableEq

def codeHistoryIncidentPersistFailed : PyStr := pyStr "history_incident_persist_failed"

/- `_record_incident_failure` -/
def Plane.recordIncidentFailure (plane : Plane) : Plane :=
  { plane with
    failureCount := plane.failureCount + 1
    degraded := true
    lastErrorCode := some codeHistoryIncidentPersistFailed }

/- A write that landed clears the plane's degradation. -/
def Plane.persisted (plane : Plane) : Plane :=
  { plane with
    persistedTotal := plane.persistedTotal + 1
    degraded := false
    lastErrorCode := none }

/- The store: its tables and its incident plane. -/
structure Store (F : Type) where
  tables : Tables F
  plane : Plane

/- Run the transaction of a call and settle its outcome. -/
def settle {α : Type} (store : Store F) (work : Work F α) (faults : List Bool) (answer : α → Option ℤ)
    (counted : Bool) : Outcome × Store F :=
  match transact work faults store.tables with
  | (.ok a, tables) =>
    (.landed (answer a), ⟨tables,
      if counted then store.plane.persisted else store.plane⟩)
  | (.error .refused, tables) =>
    (.refused, ⟨tables,
      { store.plane with rejectedTotal := store.plane.rejectedTotal + 1
      }.recordIncidentFailure⟩)
  | (.error _, tables) => (.failed, ⟨tables, store.plane.recordIncidentFailure⟩)

/-
  One call.  A disabled store does nothing, and a failed
  cleanup is no failure of the incident plane.
-/
def call (env : Env F) (c : Call F) (store : Store F) : Outcome × Store F :=
  let now : Json F := .float env.clock
  if !env.enabled then (.failed, store)
  else
    match c with
    | .activate floor =>
      settle store (incidentActivateLocked floor) env.faults (fun _ => none) false
    | .openWindow analysisStart firstSignal args =>
      settle store (incidentOpenWindowLocked analysisStart firstSignal args now env.pick) env.faults some true
    | .updateWindow incidentId args =>
      settle store (incidentUpdateWindowLocked incidentId args now) env.faults (fun _ => none) true
    | .closeWindow incidentId args closureReason =>
      settle store (incidentCloseWindowLocked incidentId args closureReason now)
        env.faults (fun _ => none) true
    | .runtimeMark evaluated fresh =>
      settle store (incidentRuntimeMarkLocked evaluated fresh) env.faults (fun _ => none) true
    | .rearm =>
      settle store (incidentRearmLocked now) env.faults (fun _ => none) true
    | .cleanup =>
      match transact
          (cleanupWindows (env.clock.sub (.finite env.retention)))
          env.faults store.tables with
      | (.ok _, tables) => (.landed none, { store with tables })
      | (.error _, tables) => (.failed, { store with tables })

/- The state row the schema is created with. -/
def createIncidentStateRow : RuntimeState F where
  runtimeVersion := 1
  activationFloorEpoch := zeroReal
  lastEvaluatedEndEpoch := zeroReal
  readerFreshSinceEpoch := none
  openIncidentId := none
  discoveryFloorEpoch := none
  rearmRequired := 0

/- A freshly created store. -/
def freshStore : Store F where
  tables := { windows := [], state := some createIncidentStateRow }
  plane := {}

end SingboxOps.IncidentHistory
