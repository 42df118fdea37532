import SingboxOps.EvidenceStore.Acceptance
import SingboxOps.EvidenceStore.Publish
import SingboxOps.JournalIngest.Settlement
import SingboxOps.Lib.Trace

/-
  What the evidence store persists.

  Counts are lengths, codes and statuses come from closed
  vocabularies, and the tables check the rest, so every row
  passes the classifier's gate but one kind: a journal row
  with a port and no destination class.
-/

namespace SingboxOps.EvidenceHistory

open Classifier EvidenceStore
open JournalIngest (Ledger JournalEvent Work Progress Stage Host
  Publication ExchangeFile Directory Disposition IngestState
  insertEvents insertAudit insertRun updateIngestState
  journalSettleGap journalSettleRejected journalApplyLocked
  settle settleGap settleFile passLoop journalIngestPass
  journalIngestPublishGate publishedProgress progress retainRows)

variable {F : Type}

-- The Journal

section Journal

variable [PyFloat F]

/- Every event row meets its constraints. -/
def EventsChecked (t : Ledger F) : Prop := ∀ e ∈ t.events, e.Checked

theorem insertEvents_checked {es : List (JournalEvent F)} {t t' : Ledger F} (h : EventsChecked t)
    (hRun : insertEvents es t = .ok ((), t')) : EventsChecked t' := by
  unfold insertEvents at hRun
  split at hRun
  · split at hRun
    · rename_i hChecked
      cases hRun
      intro e he
      rcases List.mem_append.mp he with hOld | hNew
      · exact h e hOld
      · exact hChecked e hNew
    · cases hRun
  · cases hRun

theorem updateIngestState_events {bound : List ℤ} {f : IngestState F → IngestState F} {t t' : Ledger F}
    (hRun : updateIngestState bound f t = .ok ((), t')) : t'.events = t.events := by
  unfold updateIngestState at hRun
  split at hRun
  · split at hRun
    · cases hRun
      rfl
    · split at hRun
      · cases hRun
        rfl
      · cases hRun
  · cases hRun

/- A statement that leaves the events alone, then the commit. -/
theorem settled_checked {bound : List ℤ} {f : IngestState F → IngestState F} {t : Ledger F}
    (h : EventsChecked t) : Returns t (do
        JournalIngest.execute (updateIngestState bound f)
        JournalIngest.commit)
      (fun _ t' => EventsChecked t') := by
  apply Returns.bind_execute
  intro _ t' hState
  apply Returns.commit
  intro e he
  rw [updateIngestState_events hState] at he
  exact h e he

theorem journalSettleGap_checked {t : Ledger F} (h : EventsChecked t) (memory seq nxt : ℕ)
    (now : F) : Returns t (journalSettleGap memory seq nxt now) (fun _ t' => EventsChecked t') := by
  apply Returns.bind_ofExcept
  intro rows _
  apply Returns.bind_execute
  intro _ t1 hAudit
  cases JournalIngest.insertAudit_ok hAudit
  exact settled_checked h

theorem journalSettleRejected_checked {t : Ledger F}
    (h : EventsChecked t) (seq : ℕ) (code : JournalIngest.AuditCode)
    (now : F) : Returns t (journalSettleRejected seq code now) (fun _ t' => EventsChecked t') := by
  apply Returns.bind_execute
  intro _ t1 hAudit
  cases JournalIngest.insertAudit_ok hAudit
  exact settled_checked h

theorem journalApply_checked {t : Ledger F} (h : EventsChecked t) (header : JournalIngest.Header)
    (records : List (JournalIngest.Event F)) (seq : ℕ)
    (now : F) : Returns t (journalApplyLocked header records seq now) (fun _ t' => EventsChecked t') := by
  apply Returns.bind_execute
  intro _ t1 hRun
  have hSame := JournalIngest.insertRun_ok hRun
  have hRuns : EventsChecked t1 := by
    rw [hSame]
    exact h
  apply Returns.bind_execute
  intro _ t2 hEvents
  exact settled_checked (insertEvents_checked hRuns hEvents)

/- Wherever a stage ends, the events are checked. -/
def StageChecked (stage : Stage F) : Prop := EventsChecked (progress stage).ledger

theorem settle_checked {p : Progress F} (h : EventsChecked p.ledger)
    {work : Work F Unit} {landed : Progress F → Progress F}
    (hLanded : ∀ q, (landed q).ledger = q.ledger)
    (hWork : Returns p.ledger work (fun _ t' => EventsChecked t')) :
    StageChecked (settle work landed p) := by
  unfold settle
  cases hRun : transact work (p.faults.headD []) p.ledger with
  | mk result ledger =>
    cases result with
    | ok a =>
      have hDone := transact_ok hWork (congrArg Prod.fst hRun)
      rw [hRun] at hDone
      unfold StageChecked progress
      dsimp only
      rw [hLanded]
      exact hDone
    | error e => cases e <;> exact h

theorem StageChecked.bind {x : Stage F} {f : Progress F → Stage F} (hx : StageChecked x)
    (hf : ∀ p, EventsChecked p.ledger → StageChecked (f p)) : StageChecked (x.bind f) := by
  cases x with
  | ok p => exact hf p hx
  | error e => exact hx

theorem passLoop_checked (host : Host)
    (now : F) (file : PyStr → ExchangeFile) (files : List (ℕ × PyStr)) {p : Progress F}
    (h : EventsChecked p.ledger) : StageChecked (passLoop host now file files p) := by
  induction files generalizing p with
  | nil => exact h
  | cons f rest ih =>
    rcases f with ⟨nxt, name⟩
    rw [passLoop]
    have hGap : StageChecked (settleGap host now nxt p) := by
      unfold settleGap
      split
      · exact h
      · exact settle_checked h (fun _ => rfl) (journalSettleGap_checked h _ _ _ now)
    apply hGap.bind
    intro q hq
    have hFile : StageChecked (settleFile host now name (file name) q) := by
      unfold settleFile
      split
      · exact hq
      · exact settle_checked hq (fun _ => rfl) (journalSettleRejected_checked hq _ _ now)
      · exact settle_checked hq (fun _ => rfl) (journalApply_checked hq _ _ _ now)
    apply hFile.bind
    intro q' hq'
    exact ih hq'

theorem journalIngestPass_checked {t : Ledger F}
    (h : EventsChecked t) (host : Host) (dir : Directory) (now : F)
    (faults : List (List Bool)) : StageChecked (journalIngestPass host dir now faults t) := by
  unfold journalIngestPass
  dsimp only
  split
  · exact h
  · split
    · exact h
    · split
      · exact h
      · exact passLoop_checked host now dir.file _ h

theorem publishGate_checked {store : JournalIngest.Store F} (h : EventsChecked store.ledger)
    (pub : Publication F) : EventsChecked (journalIngestPublishGate pub store).2.ledger := by
  rcases JournalIngest.journalIngestPublishGate_eq pub store with
    hSkipped | ⟨_, hLedger⟩
  · rw [hSkipped]
    exact h
  · rw [hLedger]
    exact journalIngestPass_checked h pub.host pub.dir pub.now pub.faults

theorem retainRows_checked {t : Ledger F} (h : EventsChecked t) (keepRun : JournalIngest.JournalRun F → Bool)
    (keepAudit : JournalIngest.AuditRow F → Bool) :
    EventsChecked (retainRows keepRun keepAudit t) := by
  intro e he
  exact h e (List.mem_of_mem_filter he)

end Journal

-- The Invariant

variable [BoundedFloat F]

/- The rows of the tables are the store's. -/
def Persisted (store : Store F) : Prop := store.evidence.Sound

variable {store : Store F}

theorem projectSample_sound (snapshot : Snapshot) (now : F)
    (unread : PyStr → Json F) : (projectSample snapshot now unread).Sound := by
  refine ⟨?_, ?_, ?_, ?_, ?_, ?_⟩
  · unfold projectSample
    dsimp only
    split
    · exact Or.inr rfl
    · exact Or.inl rfl
  · intro text hText
    refine ⟨snapshot.apiStatus, ?_⟩
    exact (Option.mem_some_iff.mp hText).symm
  · unfold projectSample
    dsimp only
    split
    · exact Int.natCast_nonneg _
    · exact Int.natCast_nonneg _
  · exact Int.natCast_nonneg _
  · exact Int.natCast_nonneg _
  · exact Int.natCast_nonneg _

/- The rows a write adds to the timeline. -/
structure TimelineSound (t : Timeline F) : Prop where
  samples : ∀ row ∈ t.samples, row.Sound
  devices : ∀ row ∈ t.devices, row.Sound

theorem writeRows_sound {t : Timeline F} (h : TimelineSound t)
    {sample : Option (SampleRecord F)} {rows : List (DeviceRecord F)}
    (hSample : ∀ row ∈ sample, row.Sound)
    (hRows : ∀ row ∈ rows, row.Sound) : Returns t (writeRows sample rows) (fun _ t' => TimelineSound t') := by
  have hDevices : ∀ t1 : Timeline F, TimelineSound t1 → Returns t1 (do
            if rows ≠ [] then
              Tx.execute WriteError.storage (insertDevices rows)
            else pure ()
            Tx.commit .storage)
          (fun _ t' => TimelineSound t') := by
    intro t1 h1
    split
    · apply Returns.bind_execute
      intro _ t2 hInsert
      apply Returns.commit
      unfold insertDevices at hInsert
      split at hInsert
      · cases hInsert
        refine ⟨h1.samples, ?_⟩
        intro row hRow
        rcases List.mem_append.mp hRow with hOld | hNew
        · exact h1.devices row hOld
        · exact hRows row hNew
      · cases hInsert
    · exact Returns.commit h1
  unfold writeRows
  cases sample with
  | none => exact hDevices t h
  | some row =>
    apply Returns.bind_execute
    intro _ t1 hInsert
    apply hDevices
    unfold insertSample at hInsert
    split at hInsert
    · cases hInsert
      refine ⟨?_, h.devices⟩
      intro row' hRow
      rcases List.mem_append.mp hRow with hOld | hNew
      · exact h.samples row' hOld
      · rw [List.mem_singleton.mp hNew]
        exact hSample row rfl
    · cases hInsert

theorem publish_persisted (h : Persisted store) (p : Publish F) : Persisted (publish p store) := by
  have hEvents : EventsChecked store.journal.ledger := h.events
  have hJournal := publishGate_checked hEvents p.journal
  have hTimeline : TimelineSound store.timeline := ⟨h.samples, h.devices⟩
  unfold publish
  dsimp only
  split
  · exact ⟨h.samples, h.devices, hJournal⟩
  · split
    · rename_i timeline hRun
      have hWritten := transact_ok (writeRows_sound hTimeline (by
            intro row hRow
            split at hRow
            · rw [← Option.mem_some_iff.mp hRow]
              exact projectSample_sound _ _ _
            · cases hRow)
          (by
            intro row hRow
            rcases List.mem_map.mp hRow with ⟨c, _, rfl⟩
            exact Int.natCast_nonneg _))
        (congrArg Prod.fst hRun)
      rw [hRun] at hWritten
      exact ⟨hWritten.samples, hWritten.devices, hJournal⟩
    · exact ⟨h.samples, h.devices, hJournal⟩
    · exact ⟨h.samples, h.devices, hJournal⟩

theorem recordProbe_persisted (h : Persisted store)
    (call : ProbeCall F) : Persisted (recordProbe call store) := by
  unfold recordProbe
  split
  · exact ⟨h.samples, h.devices, h.events⟩
  · exact ⟨h.samples, h.devices, h.events⟩
  · split
    · exact ⟨h.samples, h.devices, h.events⟩
    · exact ⟨h.samples, h.devices, h.events⟩

theorem step_persisted (h : Persisted store) (input : Input F) : Persisted (step store input).2 := by
  cases input with
  | publish p => exact publish_persisted h p
  | probe call => exact recordProbe_persisted h call
  | retain keepSample keepDevice keepProbe keepRun keepAudit =>
    refine ⟨?_, ?_, ?_⟩
    · intro row hRow
      exact h.samples row (List.mem_of_mem_filter hRow)
    · intro row hRow
      exact h.devices row (List.mem_of_mem_filter hRow)
    · exact retainRows_checked h.events keepRun keepAudit
  | fail code => exact ⟨h.samples, h.devices, h.events⟩
  | reopen => exact ⟨h.samples, h.devices, h.events⟩

theorem freshStore_persisted (now : F) : Persisted (freshStore now) := by
  refine ⟨?_, ?_, ?_⟩
  · intro row hRow
    cases hRow
  · intro row hRow
    cases hRow
  · intro row hRow
    cases hRow

theorem finalState_persisted (now : F)
    (inputs : List (Input F)) : Persisted (finalState step (freshStore now) inputs) :=
  (trace_history step (freshStore now) inputs).invariant
    (freshStore_persisted now) (fun _ input h _ => step_persisted h input)

-- The Row Gate

/- Every stored row of a window passes the classifier's gate. -/
structure RowsPass (tables : EvidenceTables F) (start stop : F) : Prop where
  samples : ∀ row ∈ tables.samples, InWindow start stop row.epoch →
      ∃ r, readSample start stop (sampleJson row) = .ok r
  devices : ∀ row ∈ tables.devices, InWindow start stop row.epoch →
      ∃ r, readDevice start stop (deviceJson row) = .ok r
  probes : ∀ row ∈ tables.probes, InWindow start stop row.epoch →
      ∃ r, readProbe start stop (probeJson row) = .ok r
  events : ∀ row ∈ tables.events, InWindow start stop row.ts →
      ∃ r, readJournal start stop (eventJson row) = .ok r
  audit : ∀ row ∈ tables.audit, InWindow start stop row.epoch →
      ∃ r, readAudit start stop (auditJson row) = .ok r

theorem rowsPass_iff {tables : EvidenceTables F} (h : tables.Sound) (start stop : F) :
    RowsPass tables start stop ↔ ∀ row ∈ tables.events, InWindow start stop row.ts → Paired row := by
  constructor
  · intro hPass row hRow hIn
    rcases hPass.events row hRow hIn with ⟨r, hRead⟩
    rw [readJournal_eq (h.events row hRow) hIn] at hRead
    by_contra hUnpaired
    rw [if_neg hUnpaired] at hRead
    cases hRead
  · intro hPaired
    refine ⟨?_, ?_, ?_, ?_, ?_⟩
    · intro row hRow hIn
      rcases readSample_ok (h.samples row hRow) hIn with ⟨api, hRead⟩
      exact ⟨_, hRead⟩
    · intro row hRow hIn
      exact ⟨_, readDevice_ok (h.devices row hRow) hIn⟩
    · intro row hRow hIn
      exact ⟨_, readProbe_ok hIn⟩
    · intro row hRow hIn
      rw [readJournal_eq (h.events row hRow) hIn, if_pos (hPaired row hRow hIn)]
      exact ⟨_, rfl⟩
    · intro row hRow hIn
      exact ⟨_, readAudit_ok hIn⟩

/- The bundle of a window of an open store. -/
def storeBundle (store : Store F) (start stop : F) (status : ReaderStatus) : Option (Members F) :=
  classifierBundle (fun start stop => some (storeEvidence store start stop)) start stop status

theorem storeBundle_some {start stop : F} {status : ReaderStatus} {bundle : Members F}
    (h : storeBundle store start stop status = some bundle) :
    (storeEvidence store start stop).WithinBudget ∧
      bundle = bundleOf start stop status (storeEvidence store start stop) := by
  rcases classifierBundle_some h with ⟨_, _, rows, hRows, hBudget, hBundle⟩
  cases hRows
  exact ⟨hBudget, hBundle⟩

/-
  After any run of the store, for every aligned window of at
  most sixty buckets within the row budget: every stored row of
  the window passes the gate and the bundle is not refused, if
  and only if no journal row of the window names a port without
  a destination class.
-/
theorem store_rows_pass_iff (created : F) (inputs : List (Input F))
    {start stop : F} {status : ReaderStatus} {bundle : Members F}
    (hWindow : AlignedWindow start stop)
    (hBundle : storeBundle (finalState step (freshStore created) inputs) start stop status = some bundle) :
    (RowsPass (finalState step (freshStore created) inputs).evidence start stop ∧
      refusals (.obj bundle) = .ok ∅) ↔
      ∀ row ∈ (finalState step (freshStore created) inputs).journal.ledger.events,
        InWindow start stop row.ts → Paired row := by
  have hSound := finalState_persisted created inputs
  rcases storeBundle_some hBundle with ⟨hBudget, rfl⟩
  have hRows := rowsPass_iff hSound start stop
  constructor
  · intro hPass
    exact hRows.mp hPass.1
  · intro hPaired
    refine ⟨hRows.mpr hPaired, ?_⟩
    unfold storeEvidence
    rw [refusals_evidence hSound hWindow hBudget, if_pos]
    intro row hRow
    rcases mem_selectRows.mp hRow with ⟨hMem, hIn⟩
    exact hPaired row hMem hIn

-- A Port Without a Class

/- A line of an exchange file. -/
def lineOf (fields : List (String × Json (IntGrid (2 ^ 53)))) : Json (IntGrid (2 ^ 53)) :=
  .obj (fields.map (fun m => (pyStr m.1, m.2)))

/- The header line of a file of one event. -/
def headerLine : Json (IntGrid (2 ^ 53)) := lineOf [("t", .str (pyStr "h")), ("v", .int 1), ("cv", .int 1),
      ("seq", .int 1), ("run", .str (List.replicate 32 48)),
      ("epoch", .int 1), ("boundary", .str (pyStr "NONE")),
      ("lines", .int 1), ("eligible", .int 1),
      ("info_dropped", .int 0), ("nomatch_dropped", .int 0),
      ("priority_unusable", .int 0), ("pfail", .int 0),
      ("limited", .int 0)]

/- An event line with a port and no destination class. -/
def eventLine (ts : ℕ) (port : Json (IntGrid (2 ^ 53))) : Json (IntGrid (2 ^ 53)) :=
  lineOf [("t", .str (pyStr "e")), ("ts", .int ts), ("cls", .str (pyStr "reset")),
      ("proto", .str (pyStr "Reality")), ("port", port),
      ("dcls", .null), ("fp", .null), ("n", .int 1)]

/- The exchange file of these lines. -/
def fileOf (lines : List (Json (IntGrid (2 ^ 53)))) : ExchangeFile :=
  let text := lines.flatMap (fun line => Json.render line ++ [10])
  .regular text.length (some (text.map UInt8.ofNat))

/- A float that holds a whole second. -/
def wholeSecond (n : ℕ) : IntGrid (2 ^ 53) := PyFloat.round (n : ℚ)

/- A publication at 700 that finds the file. -/
def publishFile (file : ExchangeFile) : Input (IntGrid (2 ^ 53)) := .publish
    { journal :=
        ⟨⟨1000, 2 ^ 60⟩, true, wholeSecond 10,
          ⟨some [pyStr "ev-1.jsonl"], fun _ => file⟩,
          wholeSecond 700, []⟩
      snapshot := ⟨[⟨pyStr "phone", pyStr "ACTIVE",
        [⟨pyStr "vless-in", 2⟩]⟩], false, 2⟩
      sampleInterval := wholeSecond 5
      heartbeatInterval := wholeSecond 60
      unread := fun _ => .null
      faults := [] }

/- The store after one publication. -/
def storeAfter (port : Json (IntGrid (2 ^ 53))) : Store (IntGrid (2 ^ 53)) :=
  finalState step (freshStore (wholeSecond 0)) [publishFile (fileOf [headerLine, eventLine 690 port])]

theorem alignedWindow_fiveMinutes : AlignedWindow (wholeSecond 600) (wholeSecond 900) := by
  refine ⟨?_, ?_, ?_, ?_, ?_⟩ <;> decide +kernel

/- An event without a port passes, with the other rows. -/
theorem store_rows_pass_of_unported : ∃ bundle, storeBundle (storeAfter .null) (wholeSecond 600)
          (wholeSecond 900) .fresh = some bundle ∧
        RowsPass (storeAfter .null).evidence (wholeSecond 600) (wholeSecond 900) ∧
        refusals (.obj bundle) = .ok ∅ := by
  have hSome : (storeBundle (storeAfter .null) (wholeSecond 600) (wholeSecond 900) .fresh).isSome = true := by
    decide +kernel
  have hPaired : ∀ row ∈ (storeAfter .null).journal.ledger.events,
        InWindow (wholeSecond 600) (wholeSecond 900) row.ts → Paired row := by
    decide +kernel
  rcases Option.isSome_iff_exists.mp hSome with ⟨bundle, hBundle⟩
  unfold storeAfter at hBundle hPaired ⊢
  exact ⟨bundle, hBundle, (store_rows_pass_iff (wholeSecond 0) _
      alignedWindow_fiveMinutes hBundle).mpr hPaired⟩

/- An event with a port and no class has its bundle refused. -/
theorem ported_event_refused : ∃ bundle, storeBundle (storeAfter (.int 443)) (wholeSecond 600)
          (wholeSecond 900) .fresh = some bundle ∧
        refusals (.obj bundle) ≠ .ok ∅ := by
  have hRefused : (storeBundle (storeAfter (.int 443)) (wholeSecond 600)
        (wholeSecond 900) .fresh).map (fun bundle => decide ((refusals (.obj bundle)).toOption =
            some ∅)) = some false := by
    decide +kernel
  rcases Option.map_eq_some_iff.mp hRefused with ⟨bundle, hBundle, hDecided⟩
  refine ⟨bundle, hBundle, ?_⟩
  intro hEmpty
  rw [hEmpty] at hDecided
  exact absurd hDecided (by decide)

end SingboxOps.EvidenceHistory
