import SingboxOps.JournalIngest.Exchange
import SingboxOps.Lib.Transaction

/-
  The journal tables of the history store and the three
  settlements of a sequence number, each one transaction that
  carries the advance of the terminal with it.
-/

namespace SingboxOps.JournalIngest

-- Failures

/-
  The exceptions of a pass: `sqlite3.Error` or `OSError` from
  a statement, an integer of more than 64 bits, a list that
  does not fit in memory, nesting beyond the interpreter's
  room, a missing continuity row, and a directory that cannot
  be listed.
-/
inductive IngestError where
  | storage
  | overflow
  | memory
  | recursion
  | schema
  | exchangeUnreadable
deriving DecidableEq

/- The least integer no INTEGER column holds. -/
def int64Limit : ℤ := 2 ^ 63

/- Every integer of a list can be bound to a statement. -/
def bindable (ns : List ℤ) : Bool := ns.all (fun n => -int64Limit ≤ n && n < int64Limit)

-- Rows

/- A row of `journal_runs`. -/
structure JournalRun (F : Type) where
  seq : ℤ
  run : PyStr
  sourceEpoch : ℤ
  boundary : Boundary
  lines : ℤ
  eligible : ℤ
  infoDropped : ℤ
  nomatchDropped : ℤ
  priorityUnusable : ℤ
  pfail : ℤ
  limited : ℤ
  firstTs : Option F
  lastTs : Option F
  recordCount : ℤ
  eventCount : ℤ
  ingestedEpoch : F
deriving DecidableEq

/- A row of `journal_events`; no `dcls` is the text 'NONE'. -/
structure JournalEvent (F : Type) where
  seq : ℤ
  ts : F
  cls : JournalClass
  proto : JournalProto
  port : ℤ
  dcls : Option JournalDcls
  fp : Option PyStr
  n : ℤ
deriving DecidableEq

/- `kind IN ('gap','rejected')` -/
inductive AuditKind where
  | gap
  | rejected
deriving DecidableEq

/- A row of `journal_ingest_audit`. -/
structure AuditRow (F : Type) where
  epoch : F
  kind : AuditKind
  seq : ℤ
  code : AuditCode
deriving DecidableEq

/- The row of `journal_ingest_state`. -/
structure IngestState (F : Type) where
  terminalSeq : ℤ
  lastConsumedSeq : Option ℤ
  gapsTotal : ℤ
  rejectedTotal : ℤ
  updatedEpoch : F
deriving DecidableEq

/- The journal tables. -/
structure Ledger (F : Type) where
  runs : List (JournalRun F)
  events : List (JournalEvent F)
  audit : List (AuditRow F)
  state : Option (IngestState F)

variable {F : Type} [PyFloat F]

-- Constraints

/- The CHECK constraints of `journal_runs`. -/
def JournalRun.Checked (r : JournalRun F) : Prop := r.run.length = 32 ∧ 1 ≤ r.sourceEpoch ∧ 0 ≤ r.lines ∧
    0 ≤ r.eligible ∧ 0 ≤ r.infoDropped ∧ 0 ≤ r.nomatchDropped ∧
    0 ≤ r.priorityUnusable ∧ 0 ≤ r.pfail ∧ 0 ≤ r.limited ∧
    0 ≤ r.recordCount ∧ 0 ≤ r.eventCount

instance (r : JournalRun F) : Decidable r.Checked := by
  unfold JournalRun.Checked
  infer_instance

/- `length(fp) = 16 AND fp NOT GLOB '*[^0-9a-f]*'` -/
def fingerprintShaped (fp : PyStr) : Bool := fp.length = 16 &&
    fp.all (fun c => (48 ≤ c && c ≤ 57) || (97 ≤ c && c ≤ 102))

/- The CHECK constraints of `journal_events`. -/
def JournalEvent.Checked (e : JournalEvent F) : Prop := 0 ≤ PyFloat.toRat e.ts ∧
    (0 ≤ e.port ∧ e.port ≤ 65535) ∧
    (∀ fp ∈ e.fp, fingerprintShaped fp = true) ∧
    1 ≤ e.n ∧
    (e.fp = none ∨ e.cls = .other) ∧
    (e.dcls = none ∨ 0 < e.port)

instance (e : JournalEvent F) : Decidable e.Checked := by
  unfold JournalEvent.Checked
  infer_instance

/- The CHECK constraints of `journal_ingest_state`. -/
def IngestState.Checked (st : IngestState F) : Prop :=
  0 ≤ st.terminalSeq ∧ 0 ≤ st.gapsTotal ∧ 0 ≤ st.rejectedTotal

instance (st : IngestState F) : Decidable st.Checked := by
  unfold IngestState.Checked
  infer_instance

-- Statements

/- A statement on the ledger. -/
abbrev Statement (F : Type) : Type := Ledger F → Except IngestError (Unit × Ledger F)

/- The integers a run binds. -/
def JournalRun.integers (r : JournalRun F) : List ℤ :=
  [r.seq, r.sourceEpoch, r.lines, r.eligible, r.infoDropped,
    r.nomatchDropped, r.priorityUnusable, r.pfail, r.limited,
    r.recordCount, r.eventCount]

/- `INSERT INTO journal_runs`; `seq` is the primary key. -/
def insertRun (r : JournalRun F) : Statement F := fun t =>
  if bindable r.integers then
    if r.Checked ∧ r.seq ∉ t.runs.map JournalRun.seq then
      .ok ((), { t with runs := t.runs ++ [r] })
    else .error .storage
  else .error .overflow

/- `INSERT INTO journal_events`, for every row of a list. -/
def insertEvents (es : List (JournalEvent F)) : Statement F := fun t =>
    if es.all (fun e => bindable [e.seq, e.port, e.n]) then
      if ∀ e ∈ es, e.Checked then
        .ok ((), { t with events := t.events ++ es })
      else .error .storage
    else .error .overflow

/- `INSERT INTO journal_ingest_audit`, for every row of a list. -/
def insertAudit (rows : List (AuditRow F)) : Statement F := fun t =>
    if rows.all (fun r => bindable [r.seq]) then
      .ok ((), { t with audit := t.audit ++ rows })
    else .error .overflow

/- `UPDATE journal_ingest_state SET .. WHERE id = 1` -/
def updateIngestState (bound : List ℤ) (f : IngestState F → IngestState F) : Statement F := fun t =>
  if bindable bound then
    match t.state with
    | none => .ok ((), t)
    | some st =>
      if (f st).Checked then .ok ((), { t with state := some (f st) })
      else .error .storage
  else .error .overflow

-- Settlements

/- A statement of an ingest transaction. -/
abbrev Work (F α : Type) : Type := Tx IngestError (Ledger F) α

/- Execute a statement; its storage failure is `sqlite3.Error`. -/
def execute (statement : Statement F) : Work F Unit := Tx.execute .storage statement

/- `self._conn.commit()` -/
def commit : Work F Unit := Tx.commit .storage

/-
  The audit rows of a gap are built as one list, which has to
  fit in memory.
-/
def gapRows (memory : ℕ) (seq nxt : ℕ) (now : F) : Except IngestError (List (AuditRow F)) :=
  if nxt - seq ≤ memory then
    .ok ((List.range' seq (nxt - seq)).map (fun skipped : ℕ => ⟨now, .gap, skipped, .sequenceGap⟩))
  else .error .memory

/- Count a skipped interval once and move the terminal past it. -/
def journalSettleGap (memory : ℕ) (seq nxt : ℕ) (now : F) : Work F Unit := do
  let rows ← Tx.ofExcept (gapRows memory seq nxt now)
  execute (insertAudit rows)
  execute (updateIngestState [(nxt : ℤ) - 1, (nxt : ℤ) - seq] (fun st =>
      { st with
        terminalSeq := (nxt : ℤ) - 1
        gapsTotal := st.gapsTotal + ((nxt : ℤ) - seq)
        updatedEpoch := now }))
  commit

/- Settle a terminally rejected file. -/
def journalSettleRejected (seq : ℕ) (code : AuditCode) (now : F) : Work F Unit := do
  execute (insertAudit [⟨now, .rejected, seq, code⟩])
  execute (updateIngestState [(seq : ℤ)] (fun st =>
      { st with
        terminalSeq := seq
        rejectedTotal := st.rejectedTotal + 1
        updatedEpoch := now }))
  commit

/- The value a number has in a REAL column. -/
def Num.real (x : Num F) : F := PyFloat.round x.toRat

/- `min(timestamps)`, the first of the least ones. -/
def minTs : List (Num F) → Option (Num F)
  | [] => none
  | x :: rest =>
    some (rest.foldl (fun least y => if y.toRat < least.toRat then y else least) x)

/- `max(timestamps)`, the first of the greatest ones. -/
def maxTs : List (Num F) → Option (Num F)
  | [] => none
  | x :: rest =>
    some (rest.foldl (fun most y => if most.toRat < y.toRat then y else most) x)

/- The run row of an accepted file. -/
def runRow (header : Header) (records : List (Event F)) (seq : ℕ) (now : F) : JournalRun F where
  seq := seq
  run := header.run
  sourceEpoch := header.epoch
  boundary := header.boundary
  lines := header.lines
  eligible := header.eligible
  infoDropped := header.infoDropped
  nomatchDropped := header.nomatchDropped
  priorityUnusable := header.priorityUnusable
  pfail := header.pfail
  limited := header.limited
  firstTs := (minTs (records.map Event.ts)).map Num.real
  lastTs := (maxTs (records.map Event.ts)).map Num.real
  recordCount := records.length
  eventCount := (records.map Event.n).sum
  ingestedEpoch := now

/- The event row of a record, with the sentinels of wire nulls. -/
def eventRow (seq : ℕ) (e : Event F) : JournalEvent F where
  seq := seq
  ts := e.ts.real
  cls := e.cls
  proto := e.proto
  port := e.port.getD 0
  dcls := e.dcls
  fp := e.fp
  n := e.n

/- Event rows and the terminal's advance commit together. -/
def journalApplyLocked (header : Header) (records : List (Event F)) (seq : ℕ) (now : F) : Work F Unit := do
  execute (insertRun (runRow header records seq now))
  execute (insertEvents (records.map (eventRow seq)))
  execute (updateIngestState [(seq : ℤ)] (fun st =>
      { st with
        terminalSeq := seq
        lastConsumedSeq := some (seq : ℤ)
        updatedEpoch := now }))
  commit

/- The ledger the schema is created with. -/
def freshLedger (now : F) : Ledger F where
  runs := []
  events := []
  audit := []
  state := some ⟨0, none, 0, 0, now⟩

end SingboxOps.JournalIngest
