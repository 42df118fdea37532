import SingboxOps.JournalIngest.Ledger

/-
  The ingest pass: every file above the terminal, in ascending
  order, is applied or rejected, and every number skipped on
  the way is counted as a gap.

  The gates around the pass decide whether it is due and
  contain its exceptions.  A pass also records which numbers
  its transactions settled; the store keeps no such list.
-/

namespace SingboxOps.JournalIngest

/- What a number can be settled as. -/
inductive Disposition where
  | applied
  | rejected
  | gap
deriving DecidableEq

/- One number's disposition. -/
structure Settlement where
  seq : ℕ
  disposition : Disposition
deriving DecidableEq

/- The result a pass reports. -/
structure PassResult where
  consumed : ℕ := 0
  gaps : ℕ := 0
  rejected : ℕ := 0
  blockedAt : Option ℕ := none
deriving DecidableEq

/-
  How far a pass has come: the number to settle next, its
  result, the storage's answers for the transactions to come,
  and what was settled.
-/
structure Progress (F : Type) where
  ledger : Ledger F
  seq : ℕ
  result : PassResult
  faults : List (List Bool)
  settled : List Settlement

/- The loop was left, or an exception left the pass. -/
inductive Stop where
  | blocked
  | raised (e : IngestError)
deriving DecidableEq

/- The interpreter's room for nesting and for one list. -/
structure Host where
  room : ℕ
  memory : ℕ

variable {F : Type} [PyFloat F]

/- A stage of a pass, which may stop it. -/
abbrev Stage (F : Type) : Type := Except (Stop × Progress F) (Progress F)

/-
  Run the transaction of a settlement: a storage failure
  blocks the pass here, another exception leaves it.
-/
def settle (work : Work F Unit) (landed : Progress F → Progress F) (p : Progress F) : Stage F :=
  match transact work (p.faults.headD []) p.ledger with
  | (.ok _, ledger) => .ok (landed { p with ledger, faults := p.faults.tail })
  | (.error .storage, _) =>
    .error (.blocked, { p with result := { p.result with blockedAt := some p.seq } })
  | (.error e, _) => .error (.raised e, p)

/- Settle the numbers skipped before the next file. -/
def settleGap (host : Host) (now : F) (nxt : ℕ) (p : Progress F) : Stage F :=
  if nxt ≤ p.seq then .ok p
  else
    settle (journalSettleGap host.memory p.seq nxt now) (fun q =>
        { q with
          seq := nxt
          result := { q.result with
            gaps := q.result.gaps + (nxt - p.seq) }
          settled := q.settled ++
            (List.range' p.seq (nxt - p.seq)).map
              (fun s => ⟨s, .gap⟩) })
      p

/- Settle the file of the number to settle next. -/
def settleFile (host : Host) (now : F) (name : PyStr) (file : ExchangeFile) (p : Progress F) : Stage F :=
  match
      (readAndValidate host.room name p.seq file : Checked (Header × List (Event F))) with
  | .error _ => .error (.raised .recursion, p)
  | .ok (.error code) =>
    settle (journalSettleRejected p.seq code now) (fun q =>
        { q with
          seq := p.seq + 1
          result := { q.result with rejected := q.result.rejected + 1 }
          settled := q.settled ++ [⟨p.seq, .rejected⟩] })
      p
  | .ok (.ok (header, records)) =>
    settle (journalApplyLocked header records p.seq now) (fun q =>
        { q with
          seq := p.seq + 1
          result := { q.result with consumed := q.result.consumed + 1 }
          settled := q.settled ++ [⟨p.seq, .applied⟩] })
      p

/-
  `while seq in files or any(s > seq for s in files)`, along
  the files from the terminal on, in ascending order.
-/
def passLoop (host : Host) (now : F) (file : PyStr → ExchangeFile) : List (ℕ × PyStr) → Progress F → Stage F
  | [], p => .ok p
  | (nxt, name) :: rest, p =>
    (settleGap host now nxt p).bind fun q =>
      (settleFile host now name (file name) q).bind fun q' => passLoop host now file rest q'

/- The files above a number, in ascending order. -/
def pendingFiles (terminal : ℕ) (names : List PyStr) : List (ℕ × PyStr) :=
  ((scanExchangeDir names).filter (fun f => terminal < f.1)).insertionSort (fun a b => a.1 ≤ b.1)

/-
  `_journal_ingest_pass`.  The first storage answer is for
  reading the continuity row.
-/
def journalIngestPass (host : Host) (dir : Directory) (now : F) (faults : List (List Bool))
    (ledger : Ledger F) : Stage F :=
  let start : Progress F := ⟨ledger, 0, {}, faults.tail, []⟩
  if (faults.headD []).headD false then .error (.raised .storage, start)
  else
    match ledger.state with
    | none => .error (.raised .schema, start)
    | some st =>
      match dir.names with
      | none => .error (.raised .exchangeUnreadable, start)
      | some names =>
        let terminal := st.terminalSeq.toNat
        passLoop host now dir.file (pendingFiles terminal names) { start with seq := terminal + 1 }

-- Gates

/- The sanitized codes of the journal plane. -/
inductive JournalCode where
  | ingestApplyFailed
  | schemaUnsupported
  | exchangeUnreadable
deriving DecidableEq

/- The journal plane of a store object. -/
structure Plane (F : Type) where
  failureCount : ℕ := 0
  degraded : Bool := false
  lastErrorCode : Option JournalCode := none
  blockedAt : Option ℕ := none
  lastIngestTs : Option F := none

/- `_record_journal_failure` -/
def Plane.recordJournalFailure (plane : Plane F) (code : JournalCode) : Plane F :=
  { plane with
    failureCount := plane.failureCount + 1
    degraded := true
    lastErrorCode := some code }

/- The store: its journal tables and its journal plane. -/
structure Store (F : Type) where
  ledger : Ledger F
  plane : Plane F

/- What a publication finds: host, directory, clock, storage. -/
structure Publication (F : Type) where
  host : Host
  provisioned : Bool
  interval : F
  dir : Directory
  now : F
  faults : List (List Bool)

/- Is a pass due by the cadence? -/
def passDue (pub : Publication F) (plane : Plane F) : Bool := match plane.lastIngestTs with
  | none => true
  | some last =>
    decide (PyFloat.toRat pub.interval ≤ PyFloat.toRat (PyFloat.round
        (PyFloat.toRat pub.now - PyFloat.toRat last) : F))

/- What is left of a pass, and what it reported. -/
structure PassReport where
  result : Option PassResult
  raised : Option IngestError
  settled : List Settlement
deriving DecidableEq

/- No pass was run. -/
def PassReport.skipped : PassReport := ⟨none, none, []⟩

/-
  The plane after a pass: a pass that completed clears the
  degradation, one that was left records it.
-/
def settlePlane (plane : Plane F) (result : PassResult) (raised : Option IngestError) : Plane F :=
  let plane := { plane with blockedAt := result.blockedAt }
  match raised, result.blockedAt with
  | some .schema, _ => plane.recordJournalFailure .schemaUnsupported
  | some .exchangeUnreadable, _ => plane.recordJournalFailure .exchangeUnreadable
  | some _, _ => plane.recordJournalFailure .ingestApplyFailed
  | none, some _ => plane.recordJournalFailure .ingestApplyFailed
  | none, none => { plane with degraded := false, lastErrorCode := none }

/-
  The publication's ingest: `_journal_ingest_publish_gate`
  around `_journal_ingest_gate`.  Whatever leaves the pass is
  contained here, and the transaction it left rolled back.
-/
def journalIngestPublishGate (pub : Publication F) (store : Store F) : PassReport × Store F :=
  if !pub.provisioned || !passDue pub store.plane then (.skipped, store)
  else
    let plane := { store.plane with lastIngestTs := some pub.now }
    match journalIngestPass pub.host pub.dir pub.now pub.faults
        store.ledger with
    | .ok p =>
      (⟨some p.result, none, p.settled⟩, ⟨p.ledger, settlePlane plane p.result none⟩)
    | .error (.blocked, p) =>
      (⟨some p.result, none, p.settled⟩, ⟨p.ledger, settlePlane plane p.result none⟩)
    | .error (.raised e, p) =>
      (⟨none, some e, p.settled⟩, ⟨p.ledger, settlePlane plane p.result (some e)⟩)

-- Runs

/-
  What happens to a store: a publication ingests; a crash cuts
  a publication short at the first answer the storage refuses,
  and a restart forgets the plane; retention removes runs with
  their events and audit rows, as it chooses.
-/
inductive Input (F : Type) where
  | publish (pub : Publication F)
  | crash (pub : Publication F)
  | retain
      (keepRun : JournalRun F → Bool)
      (keepAudit : AuditRow F → Bool)

/- `DELETE FROM journal_runs ..`, which cascades to the events. -/
def retainRows (keepRun : JournalRun F → Bool) (keepAudit : AuditRow F → Bool) (t : Ledger F) : Ledger F :=
  let runs := t.runs.filter keepRun
  { t with
    runs := runs
    events := t.events.filter (fun e => e.seq ∈ runs.map JournalRun.seq)
    audit := t.audit.filter keepAudit }

/- One step of a run. -/
def step (store : Store F) (i : Input F) : PassReport × Store F := match i with
  | .publish pub => journalIngestPublishGate pub store
  | .crash pub =>
    let r := journalIngestPublishGate pub store
    (r.1, ⟨r.2.ledger, {}⟩)
  | .retain keepRun keepAudit =>
    (.skipped, { store with
      ledger := retainRows keepRun keepAudit store.ledger })

/- A store whose tables were just created. -/
def freshStore (now : F) : Store F := ⟨freshLedger now, {}⟩

end SingboxOps.JournalIngest
