import SingboxOps.RemoteStore.Tables

/-
  Acceptance and retention of the remote plane.

  A transaction either runs to its COMMIT or is rolled back
  whole by the database engine; which of the two happens, and
  what the page and directory measurements say, is part of
  the call's environment.
-/

namespace SingboxOps.RemoteStore

open PyFloat

variable {F H : Type} [PyFloat F]

-- Retention

/-
  The budget loop of a prune: batches of the oldest samples
  go until the soft budget holds.  A batch removes a sample
  or ends the loop, so one round per sample is enough.
-/
def pruneToSoft (lim : Limits) (prospective : ℤ) : ℕ → List (SampleRow F H) → ℕ → List (SampleRow F H) × ℕ
  | 0, samples, pruned => (samples, pruned)
  | rounds + 1, samples, pruned =>
    if sampleBytes samples + prospective ≤
        lim.softBudget then
      (samples, pruned)
    else
      let kept := deleteOldest lim.pruneBatch samples
      let removed := samples.length - kept.length
      if removed = 0 then (samples, pruned)
      else pruneToSoft lim prospective rounds kept (pruned + removed)

/-
  Expire inactive runs, age out samples and apply the byte
  budget; returns how many samples the budget removed.
-/
def prune (lim : Limits) (now : F) (prospective : ℤ) (t : Tables F H) : Tables F H × ℕ :=
  let t := deleteRuns (fun r => toRat r.lastActivityEpoch < toRat (sub now runLifetimeSeconds)) t
  let samples := t.samples.filter (fun s => !decide (toRat s.sampleEpoch < toRat (sub now maxAgeSeconds)))
  if sampleBytes samples + prospective > lim.hardBudget then
    let rest := pruneToSoft lim prospective samples.length samples 0
    ({ t with samples := rest.1 }, rest.2)
  else ({ t with samples := samples }, 0)

/- `MAX(a, b)` over a REAL column. -/
def maxReal (a b : F) : F := if toRat a < toRat b then b else a

/- Refresh the last activity of one run. -/
def activity (probeId run : PyStr) (now : F) (t : Tables F H) : Tables F H :=
  { t with
    runs := t.runs.map (fun r =>
      if r.key = (probeId, run) then
        { r with lastActivityEpoch := maxReal r.lastActivityEpoch now }
      else r) }

-- Capacity

/- The logical capacity check of one admission. -/
def capacity (lim : Limits) (probeId : PyStr) (newRun : Bool) (t : Tables F H) : Option StoreError :=
  let runs : ℤ := t.runs.length
  let probeRuns : ℤ := (t.runs.filter (fun r => r.probeId == probeId)).length
  let receipts : ℤ := t.receipts.length
  let probeReceipts : ℤ := (t.receipts.filter (fun p => p.probeId == probeId)).length
  if newRun ∧ (probeRuns ≥ lim.maxRunsPerProbe ∨
      runs ≥ lim.maxRunsGlobal ∨
      (runs + 1) * runRowCharge > lim.runBudget) then
    some .runCapacity
  else if probeReceipts ≥ lim.maxReceiptsPerProbe ∨
      receipts ≥ lim.maxReceiptsGlobal ∨
      (receipts + 1) * receiptRowCharge > lim.receiptBudget then
    some .receiptCapacity
  else none

/-
  What the page pragmas and a scan of the store directory
  report at one moment.
-/
structure Measurement where
  pageSize : ℕ
  pageCount : ℕ
  freePages : ℕ
  foreignObject : Bool
  footprint : ℕ
  dbSize : ℕ
  journalBytes : ℕ
  diskFree : ℕ

/- Main file, rollback journal and vacuum copy must fit. -/
def reserveWorkingSpace (lim : Limits) (m : Measurement) : Except StoreError Unit :=
  let overhead : ℤ := 8 * 1024 * 1024
  let other : ℤ := max 0 ((m.footprint : ℤ) - m.dbSize - m.journalBytes)
  if m.foreignObject then .error .unavailable
  else if 3 * lim.dbBudget + overhead + other >
        lim.workingBudget ∨
      (m.footprint : ℤ) > lim.workingBudget ∨
      (m.journalBytes : ℤ) > lim.dbBudget + overhead ∨
      (m.diskFree : ℤ) < max 0 (2 * lim.dbBudget + overhead - m.journalBytes) then
    .error .storageCapacity
  else .ok ()

/- The physical admission check around an insertion. -/
def physicalAdmission (lim : Limits) (m : Measurement) : Except StoreError Unit :=
  let live : ℤ := ((m.pageCount : ℤ) - m.freePages) * m.pageSize
  let allocated : ℤ := (m.pageCount : ℤ) * m.pageSize
  if live > lim.dbBudget ∨ allocated > lim.dbBudget then
    .error .storageCapacity
  else reserveWorkingSpace lim m

-- Transactions

/-
  An engine failure of a transaction: the database is full,
  or any other driver or I/O error.
-/
inductive Fault where
  | full
  | other
deriving DecidableEq

/-
  Run a body between BEGIN and COMMIT.  An engine fault or an
  exception of the body leaves the tables as they were.
-/
def transaction {α : Type} (fault : Option Fault) (body : Tables F H → Except StoreError (α × Tables F H))
    (t : Tables F H) : Except StoreError α × Tables F H :=
  match fault with
  | some .full => (.error .storageCapacity, t)
  | some .other => (.error .unavailable, t)
  | none =>
    match body t with
    | .ok (a, t') => (.ok a, t')
    | .error e => (.error e, t)

-- Acceptance

/- The arguments of one `accept` call. -/
structure Attempt (F : Type) where
  probeId : PyStr
  run : PyStr
  seq : ℤ
  sampleEpoch : SampleEpoch F
  body : Bytes
  now : F

/- What the database engine and the disk do during a call. -/
structure Engine where
  fault : Option Fault := none
  first : Measurement
  second : Measurement
  repairFault : Option Fault := none

/-
  The sample window around `now`: neither far ahead nor too
  old to be new.
-/
def InWindow (now : F) (epoch : ℚ) : Prop :=
  epoch ≤ toRat (add now futureSkewSeconds) ∧ toRat (sub now newSampleMaxAge) ≤ epoch

instance (now : F) (epoch : ℚ) :
    Decidable (InWindow now epoch) := by
  unfold InWindow
  infer_instance

/- The run row of the first sample a run is accepted with. -/
def admitRun (a : Attempt F) (newRun : Bool) (t : Tables F H) : Except StoreError (Tables F H) :=
  if newRun then do
    let epoch ← a.sampleEpoch.bindReal
    insertRun ⟨a.probeId, a.run, a.seq, epoch, a.now, a.now⟩ t
  else .ok t

/- The body of the admission savepoint. -/
def savepoint (lim : Limits) (sha256 : Bytes → H) (engine : Engine) (a : Attempt F) (newRun : Bool)
    (t : Tables F H) : Except StoreError (ℕ × Tables F H) := do
  -- prospective pressure is pruned before the insertion
  let first := prune lim a.now (a.body.length + sampleRowCharge) t
  physicalAdmission lim engine.first
  let t ← admitRun a newRun first.1
  let t ← insertReceipt ⟨a.probeId, a.run, a.seq, sha256 a.body, a.now⟩ t
  let epoch ← a.sampleEpoch.bindReal
  let t ← insertSample ⟨a.probeId, a.run, a.seq, epoch, a.now, sha256 a.body, a.body⟩ t
  let t := { t with
    runs := t.runs.map (fun r =>
      if r.key = (a.probeId, a.run) then
        { r with
          maxSeq := a.seq
          maxSampleEpoch := epoch
          lastActivityEpoch := maxReal r.lastActivityEpoch a.now }
      else r) }
  let second := prune lim a.now 0 t
  physicalAdmission lim engine.second
  return (first.2 + second.2, second.1)

/-
  The outcome of a committed attempt: a verdict, or the
  capacity error to raise after the commit.
-/
abbrev Outcome := Except StoreError Verdict

/-
  A new tuple that passed the window: logical capacity, then
  the savepoint, whose storage failure is rolled back to.
-/
def admitNew (lim : Limits) (sha256 : Bytes → H) (engine : Engine) (a : Attempt F)
    (state : Option (RunRow F)) (pruned : ℕ)
    (t : Tables F H) : Except StoreError ((Outcome × ℕ) × Tables F H) :=
  let refuse (e : StoreError) := ((Except.error e, pruned),
      if state.isSome then activity a.probeId a.run a.now t
      else t)
  match capacity lim a.probeId state.isNone t with
  | some e => .ok (refuse e)
  | none =>
    match savepoint lim sha256 engine a state.isNone t with
    | .ok (more, t') => .ok ((.ok .accepted, pruned + more), t')
    | .error .storageCapacity => .ok (refuse .storageCapacity)
    | .error e => .error e

/- The body of the acceptance transaction. -/
def acceptBody [DecidableEq H] (lim : Limits) (sha256 : Bytes → H) (engine : Engine) (a : Attempt F)
    (t : Tables F H) : Except StoreError ((Outcome × ℕ) × Tables F H) :=
  let first := prune lim a.now 0 t
  let t := first.1
  let answer (v : Verdict) (t : Tables F H) : Except StoreError ((Outcome × ℕ) × Tables F H) :=
    .ok ((.ok v, first.2), t)
  if ¬ SqlInteger a.seq then .error .overflow
  else
    match t.receipts.find?
        (fun p => p.key == (a.probeId, a.run, a.seq)) with
    | some receipt =>
      if receipt.bodyHash = sha256 a.body then
        answer .duplicate (activity a.probeId a.run a.now t)
      else answer .equivocation t
    | none =>
      let state := t.runs.find? (fun r => r.key == (a.probeId, a.run))
      match a.sampleEpoch.value? with
      | none => answer .sampleEpochOutOfRange t
      | some epoch =>
        if a.sampleEpoch.overflows then .error .overflow
        else if epoch < 0 then answer .sampleEpochOutOfRange t
        else if state.any
            (fun r => decide (a.seq ≤ r.maxSeq)) then
          answer .sequenceNotIncreasing t
        else if state.any
            (fun r => decide (epoch ≤ toRat r.maxSampleEpoch)) then
          answer .sampleEpochNotIncreasing t
        else if ¬ InWindow a.now epoch then
          answer .sampleEpochOutOfRange t
        else admitNew lim sha256 engine a state first.2 t

/-
  The second transaction of a storage-capacity failure: only
  the activity of a live, progression-valid run is refreshed.
-/
def repair (a : Attempt F) (t : Tables F H) : Tables F H :=
  match t.runs.find?
      (fun r => r.key == (a.probeId, a.run)),
      a.sampleEpoch.value? with
  | some r, some epoch =>
    if toRat (sub a.now runLifetimeSeconds) ≤
          toRat r.lastActivityEpoch ∧
        r.maxSeq < a.seq ∧
        toRat r.maxSampleEpoch < epoch ∧
        InWindow a.now epoch then
      activity a.probeId a.run a.now t
    else t
  | _, _ => t

-- The Store Object

/- An open store: the database and the pruning counters. -/
structure Store (F H : Type) where
  tables : Tables F H
  budgetPruned : Bool
  budgetPrunedTotal : ℕ

/- A store just opened on a fresh database. -/
def Store.empty : Store F H := ⟨.empty, false, 0⟩

/- Count a call that pruned under budget pressure. -/
def notePruned (count : ℕ) (s : Store F H) : Store F H :=
  if count = 0 then s
  else
    { s with
      budgetPruned := true
      budgetPrunedTotal := s.budgetPrunedTotal + 1 }

/- `_accept_locked`: one transaction, then the outcome. -/
def acceptLocked [DecidableEq H] (lim : Limits) (sha256 : Bytes → H) (engine : Engine) (a : Attempt F)
    (s : Store F H) : Outcome × Store F H :=
  match transaction engine.fault
      (acceptBody lim sha256 engine a) s.tables with
  | (.ok (outcome, pruned), t) => (outcome, notePruned pruned { s with tables := t })
  | (.error e, t) => (.error e, { s with tables := t })

/-
  The repair transaction of a storage-capacity failure, which
  is raised again after it.
-/
def acceptRepair (engine : Engine) (a : Attempt F) (s : Store F H) : Outcome × Store F H :=
  match transaction engine.repairFault
      (fun t => .ok ((), repair a t)) s.tables with
  | (.ok (), t) => (.error .storageCapacity, { s with tables := t })
  | (.error e, t) => (.error e, { s with tables := t })

/- `accept`: a storage-capacity failure runs the repair. -/
def accept [DecidableEq H] (lim : Limits) (sha256 : Bytes → H) (engine : Engine) (a : Attempt F)
    (s : Store F H) : Outcome × Store F H :=
  match acceptLocked lim sha256 engine a s with
  | (.error .storageCapacity, s) => acceptRepair engine a s
  | result => result

/- `enforce_retention`: one pruning transaction. -/
def enforceRetention (lim : Limits) (fault : Option Fault) (now : F)
    (s : Store F H) : Except StoreError Unit × Store F H :=
  match transaction fault
      (fun t =>
        let pruned := prune lim now 0 t
        .ok (pruned.2, pruned.1)) s.tables with
  | (.ok pruned, t) => (.ok (), notePruned pruned { s with tables := t })
  | (.error e, t) => (.error e, { s with tables := t })

-- Runs

/- One call on a store, with what the engine does during it. -/
inductive Call (F : Type) where
  | accept (a : Attempt F) (engine : Engine)
  | enforceRetention (now : F) (fault : Option Fault)

/- The clock value a call was made with. -/
def Call.now : Call F → F
  | .accept a _ => a.now
  | .enforceRetention now _ => now

/- The answer to a call; retention returns no verdict. -/
abbrev Answer := Except StoreError (Option Verdict)

/- Run one call. -/
def step [DecidableEq H] (lim : Limits) (sha256 : Bytes → H) (s : Store F H) : Call F → Answer × Store F H
  | .accept a engine =>
    let result := accept lim sha256 engine a s
    (result.1.map some, result.2)
  | .enforceRetention now fault =>
    let result := enforceRetention lim fault now s
    (result.1.map (fun _ => none), result.2)

/- A small database on an empty disk, before and after. -/
def idleEngine : Engine :=
  let small : Measurement :=
    { pageSize := 4096
      pageCount := 10
      freePages := 0
      foreignObject := false
      footprint := 40960
      dbSize := 40960
      journalBytes := 0
      diskFree := 10 ^ 10 }
  { first := small, second := small }

end SingboxOps.RemoteStore
