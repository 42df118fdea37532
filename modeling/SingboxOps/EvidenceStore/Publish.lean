import SingboxOps.EvidenceStore.Rows
import SingboxOps.JournalIngest.Pass

/-
  The writers of the evidence tables: a publication ingests
  the journal and writes a sample and the device rows that are
  due, a probe cycle is checked at the boundary and written.

  A published snapshot is the collector's: its counts are
  lengths of lists.  A write either lands whole or leaves the
  tables as they were, and a crash is a write the storage
  refused, followed by a reopening.
-/

namespace SingboxOps.EvidenceHistory

open Classifier EvidenceStore
open JournalIngest (Publication JournalCode Ledger JournalRun
  journalIngestPublishGate bindable field hasExactly hexText?
  tokenOf? retainRows freshLedger)

variable {F : Type} [BoundedFloat F]

-- Snapshots

/- A protocol of a published device. -/
structure PublishedProtocol where
  inbound : PyStr
  activeConnections : ℕ

structure PublishedDevice where
  name : PyStr
  status : PyStr
  protocols : List PublishedProtocol

/- A published snapshot, as far as it is projected. -/
structure Snapshot where
  devices : List PublishedDevice
  stale : Bool
  activeConnections : ℕ

inductive ProtocolClass where
  | reality
  | hysteria2
  | other
deriving DecidableEq

/-
  `classify_protocol` of an inbound tag.  The collector
  publishes no `inbound_type`, so no other tag is known.
-/
def classifyProtocol (inbound : PyStr) : ProtocolClass :=
  if inbound = pyStr "vless-in" then .reality
  else if inbound = pyStr "hy2-in" then .hysteria2
  else .other

/- `api_status`, as the broker decorates the snapshot. -/
def Snapshot.apiStatus (snapshot : Snapshot) : ApiStatus :=
  if snapshot.stale then .stale else .connected

def Snapshot.protocols (snapshot : Snapshot) : List PublishedProtocol :=
  snapshot.devices.flatMap PublishedDevice.protocols

/- The connections of one class. -/
def Snapshot.countOf (snapshot : Snapshot) (cls : ProtocolClass) : ℕ :=
  ((snapshot.protocols.filter (fun p => classifyProtocol p.inbound = cls)).map
      PublishedProtocol.activeConnections).sum

/- The connections of all protocols. -/
def Snapshot.total (snapshot : Snapshot) : ℕ :=
  (snapshot.protocols.map PublishedProtocol.activeConnections).sum

/- `project_sample` -/
def projectSample (snapshot : Snapshot) (now : F) (unread : PyStr → Json F) : SampleRecord F where
  epoch := now
  collectorStale := if snapshot.stale then 1 else 0
  apiStatus := some snapshot.apiStatus.token
  total :=
    if snapshot.activeConnections = 0 then snapshot.total
    else snapshot.activeConnections
  reality := snapshot.countOf .reality
  hysteria2 := snapshot.countOf .hysteria2
  other := snapshot.countOf .other
  unread := unread

/- A row of `project_device_rows`, which has no reason yet. -/
structure ProjectedDevice where
  device : PyStr
  inbound : PyStr
  activeConnections : ℕ
  deviceStatus : PyStr

/- `project_device_rows` -/
def projectDeviceRows (snapshot : Snapshot) : List ProjectedDevice := snapshot.devices.flatMap (fun device =>
    device.protocols.map (fun p =>
      ⟨device.name, p.inbound, p.activeConnections, device.status⟩))

-- Device Rows That Are Due

/- What was last written of a device and an inbound. -/
structure DeviceState (F : Type) where
  active : ℕ
  status : PyStr
  writtenAt : F

/- `_device_state` -/
abbrev DeviceStates (F : Type) : Type := PyStr × PyStr → Option (DeviceState F)

/- `now - then >= interval` -/
def elapsed (interval now since : F) : Prop := PyFloat.toRat interval ≤
    PyFloat.toRat (PyFloat.round (PyFloat.toRat now - PyFloat.toRat since) : F)

instance (interval now since : F) :
    Decidable (elapsed interval now since) := by
  unfold elapsed
  infer_instance

/- Why a device row is written, if it is. -/
def reasonOf (states : DeviceStates F) (heartbeat now : F) (row : ProjectedDevice) : Option DeviceReason :=
  match states (row.device, row.inbound) with
  | none => some .change
  | some state =>
    if state.active ≠ row.activeConnections ∨
        state.status ≠ row.deviceStatus then some .change
    else if elapsed heartbeat now state.writtenAt then some .heartbeat
    else none

/- The row that is written, with its reason. -/
def deviceRecord (now : F) (unread : PyStr → Json F) (row : ProjectedDevice)
    (reason : DeviceReason) : DeviceRecord F where
  epoch := now
  device := row.device
  inbound := row.inbound
  activeConnections := row.activeConnections
  deviceStatus := some row.deviceStatus
  reason := reason
  unread := unread

/- The projected rows that are due, with their reasons. -/
def changedRows (states : DeviceStates F) (heartbeat now : F)
    (snapshot : Snapshot) : List (ProjectedDevice × DeviceReason) :=
  (projectDeviceRows snapshot).filterMap (fun row =>
    (reasonOf states heartbeat now row).map (fun r => (row, r)))

/- The states once the rows are written. -/
def writtenStates (now : F) (rows : List ProjectedDevice) (states : DeviceStates F) : DeviceStates F :=
  rows.foldl (fun states row =>
      Function.update states (row.device, row.inbound) (some ⟨row.activeConnections, row.deviceStatus, now⟩))
    states

-- The Timeline

/- The tables of a publication's own rows. -/
structure Timeline (F : Type) where
  samples : List (SampleRecord F)
  devices : List (DeviceRecord F)

/- `sqlite3.Error`, or an integer of more than 64 bits. -/
inductive WriteError where
  | storage
  | overflow
deriving DecidableEq

/- `INSERT INTO timeline_samples` -/
def insertSample (row : SampleRecord F) (t : Timeline F) : Except WriteError (Unit × Timeline F) :=
  if bindable [row.collectorStale, row.total, row.reality,
      row.hysteria2, row.other] then
    .ok ((), { t with samples := t.samples ++ [row] })
  else .error .overflow

/- `INSERT INTO device_protocol_states`, for every row. -/
def insertDevices (rows : List (DeviceRecord F)) (t : Timeline F) : Except WriteError (Unit × Timeline F) :=
  if bindable (rows.map DeviceRecord.activeConnections) then
    .ok ((), { t with devices := t.devices ++ rows })
  else .error .overflow

/- `_write` -/
def writeRows (sample : Option (SampleRecord F))
    (rows : List (DeviceRecord F)) : Tx WriteError (Timeline F) Unit := do
  match sample with
  | some row => Tx.execute .storage (insertSample row)
  | none => pure ()
  if rows ≠ [] then Tx.execute .storage (insertDevices rows)
  else pure ()
  Tx.commit .storage

-- The Store

/- A plane of the store's health. -/
structure Plane where
  degraded : Bool := false
  lastErrorCode : Option HistoryCode := none

/- A plane with a failure recorded on it. -/
def Plane.failed (code : HistoryCode) : Plane := ⟨true, some code⟩

/-
  An open store: its tables, the health of its planes, and
  what it remembers of the last writes.
-/
structure Store (F : Type) where
  timeline : Timeline F
  probes : List (ProbeRecord F)
  journal : JournalIngest.Store F
  write : Plane := {}
  probe : Plane := {}
  lastSampleTs : Option F := none
  deviceStates : DeviceStates F := fun _ => none

/- What a publication brings: `journal.now` is the clock. -/
structure Publish (F : Type) where
  journal : Publication F
  snapshot : Snapshot
  sampleInterval : F
  heartbeatInterval : F
  unread : PyStr → Json F
  faults : List Bool

/- Is a sample due? -/
def sampleDue (interval now : F) (last : Option F) : Bool := match last with
  | none => true
  | some since => decide (elapsed interval now since)

/- `_on_publish_locked`, with what contains its exceptions. -/
def publish (p : Publish F) (store : Store F) : Store F :=
  let now := p.journal.now
  let store :=
    { store with
      journal := (journalIngestPublishGate p.journal store.journal).2 }
  let due := sampleDue p.sampleInterval now store.lastSampleTs
  let changed := changedRows store.deviceStates p.heartbeatInterval now p.snapshot
  if !due && changed.isEmpty then store
  else
    let sample :=
      if due then some (projectSample p.snapshot now p.unread)
      else none
    let rows := changed.map (fun c => deviceRecord now p.unread c.1 c.2)
    match transact (writeRows sample rows) p.faults store.timeline with
    | (.ok _, timeline) =>
      { store with
        timeline := timeline
        write := {}
        deviceStates := writtenStates now (changed.map Prod.fst)
          store.deviceStates
        lastSampleTs := if due then some now
          else store.lastSampleTs }
    | (.error .storage, _) => { store with write := .failed .writeFailed }
    | (.error .overflow, _) => store

-- The Probe Boundary

def probeLatencyMaxMs : ℤ := 120000
def probeCycleFreshnessSeconds : ℚ := 30

def probeResultKeys : List PyStr := ["v", "epoch", "cycle_id", "dns", "https", "udp", "egress"].map pyStr

def probeCycleKeys : List PyStr := ["status", "latency_ms", "error_code"].map pyStr

def probeEgressKeys : List PyStr := ["status", "latency_ms", "error_code", "ip"].map pyStr

/- `_closed_code_slot` -/
def closedCodeSlot (raw : Members F) : Option SlotRecord := do
  let status ← tokenOf? ProbeStatus.all ProbeStatus.token (field raw "status")
  let code ← tokenOf? ProbeCode.all ProbeCode.token (field raw "error_code")
  match status, field raw "latency_ms" with
  | .ok, .int n =>
    if h : code = .none then
      if 0 ≤ n ∧ n ≤ probeLatencyMaxMs then
        some ⟨⟨.ok, code, by simp [h]⟩, some n⟩
      else none
    else none
  | .failed, .null =>
    if h : code = .none then none
    else some ⟨⟨.failed, code, by simp [h]⟩, none⟩
  | _, _ => none

/- A slot whose dict has exactly the keys of its kind. -/
def slotOf (keys : List PyStr) (value : Json F) : Option SlotRecord := match value with
  | .obj raw => if hasExactly raw keys then closedCodeSlot raw else none
  | _ => none

/-
  The address of an egress slot.  `canonical` stands for
  `_canonical_global_ip`, which parses an address.
-/
def egressIpOf (canonical : PyStr → Option PyStr) (egress : SlotRecord)
    (value : Json F) : Option (Option PyStr) :=
  match value with
  | .obj raw =>
    match egress.status, field raw "ip" with
    | .ok, .str text =>
      if canonical text = some text then some (some text)
      else none
    | .failed, .null => some none
    | _, _ => none
  | _ => none

/- `_last_persisted_egress_ip_locked` -/
def lastPersistedEgressIp (canonical : PyStr → Option PyStr) (horizon : F)
    (probes : List (ProbeRecord F)) : Option PyStr :=
  let known := probes.filter (fun row =>
    row.egress.status = .ok ∧ row.egressIp.isSome ∧ PyFloat.toRat horizon ≤ PyFloat.toRat row.epoch)
  let latest : Option (ProbeRecord F) := known.foldl (fun best row =>
      match best with
      | none => some row
      | some b =>
        if PyFloat.toRat b.epoch ≤ PyFloat.toRat row.epoch then some row
        else some b)
    none
  latest.bind (fun row => row.egressIp.bind canonical)

/- `_derive_egress_change` -/
def deriveEgressChange (canonical : PyStr → Option PyStr) (previous current : Option PyStr) : EgressChange :=
  match previous.bind canonical, current.bind canonical with
  | some before, some after => if before ≠ after then .changed else .unchanged
  | _, _ => .unknown

/-
  A probe result handed to the store: what the producer claims
  of the egress, the clock, the start of the baseline window,
  and the parser of addresses.
-/
structure ProbeCall (F : Type) where
  result : Json F
  change : Json F
  now : F
  horizon : F
  canonical : PyStr → Option PyStr
  unread : PyStr → Json F
  faults : List Bool

/- The row of a closed result whose epoch is a real number. -/
def probeRow (call : ProbeCall F) (probes : List (ProbeRecord F)) (result : Members F)
    (epoch : Stamp F) : Option (ProbeRecord F) := do
  if epoch.exact < 0 ∨ probeCycleFreshnessSeconds <
      |PyFloat.toRat (PyFloat.round
        (PyFloat.toRat call.now - PyFloat.toRat epoch.float) : F)|
  then none
  else do
    let cycleId ← hexText? 32 (field result "cycle_id")
    if cycleId ∈ probes.map ProbeRecord.cycleId then none
    else do
      let dns ← slotOf probeCycleKeys (field result "dns")
      let https ← slotOf probeCycleKeys (field result "https")
      let udp ← slotOf probeCycleKeys (field result "udp")
      let egress ← slotOf probeEgressKeys (field result "egress")
      let ip ← egressIpOf call.canonical egress (field result "egress")
      let change ← tokenOf? EgressChange.all EgressChange.token call.change
      if change = deriveEgressChange call.canonical
          (lastPersistedEgressIp call.canonical call.horizon probes)
          ip then
        some ⟨epoch.float, cycleId, dns, https, udp, egress, ip,
          change, call.unread⟩
      else none

/- `_probe_boundary_validate_locked` -/
def probeBoundaryValidate (call : ProbeCall F)
    (probes : List (ProbeRecord F)) : Except Raised (Option (ProbeRecord F)) :=
  match call.result with
  | .obj result =>
    if !hasExactly result probeResultKeys then .ok none
    else
      match field result "v" with
      | .int v =>
        if v ≠ 1 then .ok none
        else do
          let stamp ← isReal (field result "epoch")
          match stamp with
          | none => .ok none
          | some epoch => .ok (probeRow call probes result epoch)
      | _ => .ok none
  | _ => .ok none

/- `egress_ip NOT GLOB '*[^0-9a-fA-F.:]*'` -/
def addressShaped (text : PyStr) : Bool := text.all (fun c =>
    (48 ≤ c && c ≤ 57) || (97 ≤ c && c ≤ 102) || (65 ≤ c && c ≤ 70) || c = 46 || c = 58)

/- The CHECK constraints a probe row does not carry itself. -/
def ProbeChecked (row : ProbeRecord F) : Prop := (∀ ip ∈ row.egressIp, addressShaped ip = true) ∧
    (row.egressChange ≠ .unknown → row.egress.status = .ok ∧ row.egressIp ≠ none) ∧
    (row.egress.status = .failed → row.egressIp = none)

omit [BoundedFloat F] in
instance (row : ProbeRecord F) : Decidable (ProbeChecked row) := by
  unfold ProbeChecked
  infer_instance

/- `INSERT INTO network_probe_samples`; the cycle is unique. -/
def insertProbe (row : ProbeRecord F)
    (probes : List (ProbeRecord F)) : Except WriteError (Unit × List (ProbeRecord F)) :=
  if ProbeChecked row ∧ row.cycleId ∉ probes.map ProbeRecord.cycleId then
    .ok ((), probes ++ [row])
  else .error .storage

/- `record_probe_result` -/
def recordProbe (call : ProbeCall F) (store : Store F) : Store F :=
  match probeBoundaryValidate call store.probes with
  | .error _ => { store with probe := .failed .probePersistFailed }
  | .ok none => { store with probe := .failed .probeResultRejected }
  | .ok (some row) =>
    match transact (do
        Tx.execute .storage (insertProbe row)
        Tx.commit .storage) call.faults store.probes with
    | (.ok _, probes) => { store with probes := probes, probe := {} }
    | (.error _, _) => { store with probe := .failed .probePersistFailed }

-- Evidence

/- The journal plane's codes, as the store's. -/
def journalCode : JournalCode → HistoryCode
  | .ingestApplyFailed => .ingestApplyFailed
  | .schemaUnsupported => .schemaUnsupported
  | .exchangeUnreadable => .exchangeUnreadable

/- `_evidence_health_locked` -/
def evidenceHealth (store : Store F) : Bool × Option HistoryCode :=
  let plane := store.journal.plane
  let degraded := store.write.degraded || plane.degraded || store.probe.degraded
  let code := store.write.lastErrorCode
  let code :=
    if code = none ∧ plane.degraded then
      plane.lastErrorCode.map journalCode
    else code
  let code :=
    if code = none ∧ store.probe.degraded then store.probe.lastErrorCode
    else code
  (degraded, code)

/- The tables a bundle is read from. -/
def Store.evidence (store : Store F) : EvidenceTables F where
  samples := store.timeline.samples
  devices := store.timeline.devices
  probes := store.probes
  events := store.journal.ledger.events
  audit := store.journal.ledger.audit

/- What the store answers for a window. -/
def storeEvidence (store : Store F) (start stop : F) : EvidenceRows F :=
  let health := evidenceHealth store
  evidenceRows store.evidence health.1 health.2 start stop

-- Runs

/-
  What happens to a store: a publication, a probe result,
  retention of whatever rows it keeps, a read or a clean-up
  that fails, and a reopening.
-/
inductive Input (F : Type) where
  | publish (p : Publish F)
  | probe (call : ProbeCall F)
  | retain
      (keepSample : SampleRecord F → Bool)
      (keepDevice : DeviceRecord F → Bool)
      (keepProbe : ProbeRecord F → Bool)
      (keepRun : JournalRun F → Bool)
      (keepAudit : JournalIngest.AuditRow F → Bool)
  | fail (code : HistoryCode)
  | reopen

/- One step of a run. -/
def step (store : Store F) (input : Input F) : Unit × Store F := ((), match input with
    | .publish p => publish p store
    | .probe call => recordProbe call store
    | .retain keepSample keepDevice keepProbe keepRun keepAudit =>
      { store with
        timeline :=
          ⟨store.timeline.samples.filter keepSample,
            store.timeline.devices.filter keepDevice⟩
        probes := store.probes.filter keepProbe
        journal := { store.journal with
          ledger := retainRows keepRun keepAudit
            store.journal.ledger } }
    | .fail code => { store with write := .failed code }
    | .reopen =>
      { timeline := store.timeline
        probes := store.probes
        journal := ⟨store.journal.ledger, {}⟩ })

/- A store whose tables were just created. -/
def freshStore (now : F) : Store F where
  timeline := ⟨[], []⟩
  probes := []
  journal := JournalIngest.freshStore now

end SingboxOps.EvidenceHistory
