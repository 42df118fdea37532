import SingboxOps.RemoteProbe.Record
import SingboxOps.Lib.Op

/-
  The office-side spool: a chain of record files, a state
  file, and the object that owns them.

  The file `0` is `spool.jsonl` and the file `i` is
  `spool.jsonl.i`.  The temporary files are not kept: each is
  truncated before it is used and only ever renamed over its
  target.  Whether a file operation succeeds is an argument
  of the operation that performs it.
-/

namespace SingboxOps.RemoteProbe

variable {F : Type} [PyFloat F]

-- Constants

def maxTotalBytes : ℕ := 32 * 1024 * 1024
def maxFilesDefault : ℕ := 4
def fileBytesDefault : ℕ := maxTotalBytes / maxFilesDefault - maxBodyBytes * 2
def spoolMaxAgeSeconds : ℚ := 7 * 86400
def stateMaxBytes : ℕ := 512 * 1024

/-
  The bounds a spool object is made with, and how many nested
  containers the interpreter's recursion limit leaves room
  for.  A file read covers four times the rotation bound.
-/
structure Config where
  maxAge : ℚ := spoolMaxAgeSeconds
  maxBytes : ℤ := maxTotalBytes
  maxFiles : ℕ := maxFilesDefault
  fileBytes : ℕ := fileBytesDefault
  room : ℕ
  maxFiles_pos : 1 ≤ maxFiles := by decide
  window : recordMaxBytes ≤ 4 * fileBytes := by decide
  room_pos : 3 ≤ room

/- The refusals of a spool. -/
inductive SpoolError where
  | notOpen
  | bodyBounds
  | recordBound
  | shortWrite
  | stateUnreadable
  | stateMalformed
  | stateField (key : String)
  | stateOversized
  | corruptWithoutId
  | duplicateId (id : ℕ)
  | nonMonotonicId (id : ℕ)
  | blocked (id : ℕ)
  | attemptNotDurable
  | recordId
  | byteBudget
deriving DecidableEq

/- `SpoolError`, `OSError`, or an exception of the language. -/
inductive Failure where
  | spool (e : SpoolError)
  | os
  | python (e : PyError)
deriving DecidableEq

/- How a state save ends: the last one renamed, then failed. -/
inductive SaveOutcome where
  | saved
  | failed
  | replaced
deriving DecidableEq

-- State

/- The directory: the record chain and the state file. -/
structure Disk where
  file : ℕ → Option Bytes
  state : Option Bytes

/- The dict `_state`. -/
structure SpoolState (F : Type) where
  nextRecordId : ℕ := 1
  resolvedThrough : ℕ := 0
  acknowledgedTotal : ℕ := 0
  quarantinedTotal : ℕ := 0
  expiredTotal : ℕ := 0
  budgetDroppedTotal : ℕ := 0
  corruptTotal : ℕ := 0
  stateSaveFailures : ℕ := 0
  reconciledIds : ℕ := 0
  retryAttempts : List (PyStr × ℕ) := []
  quarantine : List (List (PyStr × Json F)) := []

/-
  The spool object with its directory.  `rotatedOut` is not
  part of the program: it collects the ids of the lines whose
  file a rotation destroyed.
-/
structure Spool (F : Type) where
  disk : Disk
  state : SpoolState F
  opened : Bool
  idCeiling : ℕ
  blockedId : ℕ
  rotatedOut : List ℕ

/- Replace, create or remove one file of the chain. -/
def Spool.setFile (i : ℕ) (content : Option Bytes) (s : Spool F) : Spool F :=
  { s with
    disk := { s.disk with
      file := Function.update s.disk.file i content } }

/- Change the dict `_state`. -/
def Spool.setState (f : SpoolState F → SpoolState F) (s : Spool F) : Spool F := { s with state := f s.state }

variable (F) in
/- The operations of a spool. -/
abbrev SpoolOp (α : Type) := Op Failure (Spool F) α

/- Only refusals and I/O errors are handled by the spool. -/
def handled : Failure → Bool
  | .spool _ => true
  | .os => true
  | .python _ => false

-- The State File

/- The dict `_state` as a JSON value. -/
def stateJson (st : SpoolState F) : Json F := .obj [(pyStr "next_record_id", .int st.nextRecordId),
    (pyStr "resolved_through", .int st.resolvedThrough),
    (pyStr "acknowledged_total", .int st.acknowledgedTotal),
    (pyStr "quarantined_total", .int st.quarantinedTotal),
    (pyStr "expired_total", .int st.expiredTotal),
    (pyStr "budget_dropped_total", .int st.budgetDroppedTotal),
    (pyStr "corrupt_total", .int st.corruptTotal),
    (pyStr "state_save_failures", .int st.stateSaveFailures),
    (pyStr "reconciled_ids", .int st.reconciledIds),
    (pyStr "retry_attempts", .obj (st.retryAttempts.map (fun p => (p.1, (.int p.2 : Json F))))),
    (pyStr "quarantine", .arr (st.quarantine.map .obj))]

/- `_save_state` -/
def saveState (outcome : SaveOutcome) : SpoolOp F Unit := do
  let s ← Op.get
  let payload ← Op.ofExcept ((canonicalBytes (stateJson s.state)).mapError .python)
  if stateMaxBytes < payload.length then
    Op.fail (.spool .stateOversized)
  else
    match outcome with
    | .failed => Op.fail .os
    | .saved => Op.change fun s => { s with disk := { s.disk with state := some payload } }
    | .replaced => do
        Op.change fun s => { s with disk := { s.disk with state := some payload } }
        Op.fail .os

/- A failed save is counted. -/
def failedOnce (s : Spool F) : Spool F :=
  s.setState fun st => { st with stateSaveFailures := st.stateSaveFailures + 1 }

/- `_save_state_soft`: a failure is counted, never fatal. -/
def saveStateSoft (outcome : SaveOutcome) : SpoolOp F Unit := Op.recover (saveState outcome) fun e =>
    if handled e then Op.change failedOnce else Op.fail e

-- The Record Chain

/- `_record_paths`: rotated files, oldest first, then `0`. -/
def recordPaths (cfg : Config) (disk : Disk) : List ℕ :=
  ((List.range cfg.maxFiles).map (· + 1)).reverse.filter (fun i => (disk.file i).isSome) ++ [0]

/- `_read_chain_member`: an absent file reads as empty. -/
def readChainMember (cfg : Config) (disk : Disk) (i : ℕ) : Bytes :=
  ((disk.file i).getD []).take (cfg.fileBytes * 4)

/- What a scan has found so far. -/
structure Scan (F : Type) where
  found : List (Record F) := []
  seen : List ℕ := []
  last : ℕ := 0
  blocked : ℕ := 0

/- The id gate: neither a duplicate nor out of order. -/
def Scan.claim (id : ℕ) (sc : Scan F) : Except Failure (Scan F) :=
  if id ∈ sc.seen then .error (.spool (.duplicateId id))
  else if id ≤ sc.last then .error (.spool (.nonMonotonicId id))
  else .ok { sc with seen := id :: sc.seen, last := id }

/- One line of a scan. -/
def scanLine (cfg : Config) (resolved : ℕ) (sc : Scan F) (line : Bytes) : Except Failure (Scan F) :=
  if line = [] then .ok sc
  else
    match decodeRecord cfg.room line with
    | .error e => .error (.python e)
    | .ok (some r) => (sc.claim r.recordId).map fun sc => { sc with found := sc.found ++ [r] }
    | .ok none =>
      match recoverRecordId F cfg.room line with
      | .error e => .error (.python e)
      | .ok none => .error (.spool .corruptWithoutId)
      | .ok (some reserved) =>
        (sc.claim reserved).map fun sc =>
          if resolved < reserved then
            { sc with
              blocked :=
                if sc.blocked = 0 then reserved
                else min sc.blocked reserved }
          else sc

/- The lines of some files, one file after another. -/
def scanPaths (cfg : Config) (disk : Disk) (resolved : ℕ) (paths : List ℕ) : Except Failure (Scan F) :=
  paths.foldlM (fun sc i =>
      (splitLines (readChainMember cfg disk i)).foldlM (scanLine cfg resolved) sc) {}

/- `_scan_records` -/
def scanRecords (cfg : Config) : SpoolOp F (List (Record F)) := do
  let s ← Op.get
  let sc ← Op.ofExcept (scanPaths cfg s.disk s.state.resolvedThrough (recordPaths cfg s.disk))
  Op.change fun s => { s with idCeiling := sc.last, blockedId := sc.blocked }
  return sc.found

-- Reading

/- The records before the blocker and past the cursor. -/
def deliverable (resolved blocked : ℕ) (records : List (Record F)) : List (Record F) :=
  (records.takeWhile fun r =>
    decide (blocked = 0 ∨ r.recordId < blocked)).filter fun r => decide (resolved < r.recordId)

/- `pending` -/
def pending (cfg : Config) : SpoolOp F (List (Record F)) := do
  let records ← scanRecords cfg
  let s ← Op.get
  let resolved := s.state.resolvedThrough
  let ready := deliverable resolved s.blockedId records
  if s.blockedId ≠ 0 ∧ resolved < s.blockedId ∧ ready = [] then
    Op.fail (.spool (.blocked s.blockedId))
  else return ready

-- Bounds

/- `_physical_chain_bytes` -/
def physicalChainBytes (cfg : Config) (disk : Disk) : ℕ := ((recordPaths cfg disk).map
    (fun i => ((disk.file i).getD []).length)).sum

/- `now - epoch > max_age`, in floating point. -/
def olderThan (maxAge : ℚ) (now epoch : ExtFloat F) : Bool := match now, epoch with
  | .finite a, .finite b => decide (maxAge < PyFloat.toRat (PyFloat.sub a (PyFloat.toRat b)))
  | .infinite false, .finite _ => true
  | .infinite false, .infinite true => true
  | .finite _, .infinite true => true
  | _, _ => false

/- The lines a compaction keeps. -/
def keepLines (cfg : Config) (resolved : ℕ) : List Bytes → Except Failure (List Bytes)
  | [] => .ok []
  | line :: rest =>
    if line = [] then keepLines cfg resolved rest
    else
      match decodeRecord (F := F) cfg.room line with
      | .error e => .error (.python e)
      | .ok (some r) =>
        if r.recordId ≤ resolved then keepLines cfg resolved rest
        else (keepLines cfg resolved rest).map (line :: ·)
      | .ok none =>
        match recoverRecordId F cfg.room line with
        | .error e => .error (.python e)
        | .ok none => .error (.spool .corruptWithoutId)
        | .ok (some reserved) =>
          if reserved ≤ resolved then keepLines cfg resolved rest
          else (keepLines cfg resolved rest).map (line :: ·)

/- Rewrite some files without their resolved lines. -/
def compactPaths (cfg : Config) : List ℕ → SpoolOp F Unit
  | [] => return ()
  | i :: rest => do
      let s ← Op.get
      if (s.disk.file i).isNone then compactPaths cfg rest
      else do
        let keep ← Op.ofExcept (keepLines (F := F) cfg s.state.resolvedThrough
            (splitLines (readChainMember cfg s.disk i)))
        if keep = [] ∧ i ≠ 0 then Op.change (Spool.setFile i none)
        else Op.change (Spool.setFile i (some (joinLines keep)))
        compactPaths cfg rest

/- `_compact_resolved` -/
def compactResolved (cfg : Config) : SpoolOp F Unit := do
  let s ← Op.get
  compactPaths cfg (recordPaths cfg s.disk)

/- The age pass over the records of one scan. -/
def expireRecords (cfg : Config) (resolved blocked : ℕ) (now : ExtFloat F) : List (Record F) → SpoolOp F Unit
  | [] => return ()
  | r :: rest =>
    if r.recordId ≤ resolved then
      expireRecords cfg resolved blocked now rest
    else if blocked ≠ 0 ∧ blocked ≤ r.recordId then return ()
    else if olderThan cfg.maxAge now r.queuedEpoch then do
      Op.change (Spool.setState fun st =>
        { st with
          resolvedThrough := r.recordId
          expiredTotal := st.expiredTotal + 1 })
      expireRecords cfg resolved blocked now rest
    else expireRecords cfg resolved blocked now rest

/- The live records before the blocker, oldest first. -/
def liveRecords (s : Spool F) (records : List (Record F)) : List (Record F) := records.filter fun r =>
    decide (s.state.resolvedThrough < r.recordId) && !decide (s.blockedId ≠ 0 ∧ s.blockedId ≤ r.recordId)

/-
  The byte pass.  A round that goes on has freed a byte, so
  one round per byte is enough.
-/
def dropRecords (cfg : Config) (save : SaveOutcome) : ℕ → ℕ → SpoolOp F Unit
  | 0, _ => return ()
  | rounds + 1, physical =>
    if (physical : ℤ) ≤ cfg.maxBytes then return ()
    else do
      let records ← scanRecords cfg
      let s ← Op.get
      match liveRecords s records with
      | [] => do
          saveStateSoft save
          Op.fail (.spool .byteBudget)
      | r :: _ => do
          Op.change (Spool.setState fun st =>
            { st with
              resolvedThrough := r.recordId
              budgetDroppedTotal := st.budgetDroppedTotal + 1 })
          compactResolved cfg
          let s ← Op.get
          let reduced := physicalChainBytes cfg s.disk
          if physical ≤ reduced then do
            saveStateSoft save
            Op.fail (.spool .byteBudget)
          else dropRecords cfg save rounds reduced

/- The closed local status. -/
structure Status (F : Type) where
  pending : ℕ
  pendingBytes : ℕ
  oldestQueuedEpoch : Option (ExtFloat F)
  resolvedThrough : ℕ
  acknowledgedTotal : ℕ
  quarantinedTotal : ℕ
  expiredTotal : ℕ
  budgetDroppedTotal : ℕ
  corruptTotal : ℕ
  stateSaveFailures : ℕ
  reconciledIds : ℕ
  trackedAttempts : ℕ
  queueBlocked : Bool

/- `x < y`, in floating point. -/
def floatLess (x y : ExtFloat F) : Bool := match x, y with
  | .finite a, .finite b => decide (PyFloat.toRat a < PyFloat.toRat b)
  | .finite _, .infinite negative => !negative
  | .infinite negative, .finite _ => negative
  | .infinite a, .infinite b => a && !b
  | _, _ => false

/- `min(xs, default=None)` -/
def smallest : List (ExtFloat F) → Option (ExtFloat F)
  | [] => none
  | x :: rest =>
    some (rest.foldl (fun least y => if floatLess y least then y else least) x)

/- `status`: a refused queue is reported as blocked. -/
def status (cfg : Config) : SpoolOp F (Status F) := do
  let queue ← Op.recover (do
      let ready ← pending cfg
      return some ready)
    fun e => if handled e then return none else Op.fail e
  let s ← Op.get
  let ready := queue.getD []
  return {
    pending := ready.length
    pendingBytes := (ready.map fun r => r.body.length).sum
    oldestQueuedEpoch := smallest (ready.map Record.queuedEpoch)
    resolvedThrough := s.state.resolvedThrough
    acknowledgedTotal := s.state.acknowledgedTotal
    quarantinedTotal := s.state.quarantinedTotal
    expiredTotal := s.state.expiredTotal
    budgetDroppedTotal := s.state.budgetDroppedTotal
    corruptTotal := s.state.corruptTotal
    stateSaveFailures := s.state.stateSaveFailures
    reconciledIds := s.state.reconciledIds
    trackedAttempts := s.state.retryAttempts.length
    queueBlocked := queue.isNone }

/- `enforce_bounds` -/
def enforceBounds (cfg : Config) (now : ExtFloat F) (save : SaveOutcome) : SpoolOp F (Status F) := do
  compactResolved cfg
  let records ← scanRecords cfg
  let s ← Op.get
  expireRecords cfg s.state.resolvedThrough s.blockedId now records
  let s ← Op.get
  let physical := physicalChainBytes cfg s.disk
  dropRecords cfg save (physical + 1) physical
  saveStateSoft save
  compactResolved cfg
  status cfg

end SingboxOps.RemoteProbe
