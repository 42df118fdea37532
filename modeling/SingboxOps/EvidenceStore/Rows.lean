import Mathlib.Data.List.Sort
import SingboxOps.EvidenceStore.Bundle
import SingboxOps.JournalIngest.Ledger

/-
  The rows of the evidence tables, and what the bundle's
  queries make of them.

  A row is projected column by column, in the order of the
  store's column lists.  A column that neither the store nor
  the classifier reads can hold anything.
-/

namespace SingboxOps.EvidenceStore

open Classifier
open JournalIngest (JournalEvent JournalClass JournalProto
  JournalDcls AuditCode)

variable {F : Type}

-- Columns

/- `SAMPLE_COLUMNS` -/
def sampleColumns : List PyStr := ["epoch", "iso_utc", "run_id", "monitor_uptime_seconds",
    "snapshot_version", "snapshot_generated_at",
    "last_success_at", "collector_stale", "api_status",
    "total_active_connections", "reality_active_connections",
    "hysteria2_active_connections", "other_active_connections",
    "uplink_rate", "downlink_rate", "skipped_events",
    "duplicate_events", "identity_conflicts",
    "abandoned_on_reset"].map pyStr

/- `DEVICE_STATE_COLUMNS` -/
def deviceStateColumns : List PyStr := ["epoch", "iso_utc", "run_id", "device", "inbound",
    "active_connections", "device_status", "uplink_rate",
    "downlink_rate", "uplink_total", "downlink_total",
    "reason"].map pyStr

/- `PROBE_COLUMNS` -/
def probeColumns : List PyStr := ["epoch", "iso_utc", "run_id", "cycle_id", "result_version",
    "dns_status", "dns_latency_ms", "dns_error_code",
    "https_status", "https_latency_ms", "https_error_code",
    "udp_status", "udp_latency_ms", "udp_error_code",
    "egress_status", "egress_latency_ms", "egress_error_code",
    "egress_ip", "egress_change"].map pyStr

/- The columns the bundle selects of `journal_events`. -/
def journalEventColumns : List PyStr := ["seq", "ts", "cls", "proto", "port", "dcls", "fp", "n"].map pyStr

/- The columns the bundle selects of `journal_ingest_audit`. -/
def journalAuditColumns : List PyStr := ["epoch", "kind", "seq", "code"].map pyStr

-- Records

/- A row of `timeline_samples`. -/
structure SampleRecord (F : Type) where
  epoch : F
  collectorStale : ℤ
  apiStatus : Option PyStr
  total : ℤ
  reality : ℤ
  hysteria2 : ℤ
  other : ℤ
  unread : PyStr → Json F

/- A row of `device_protocol_states`. -/
structure DeviceRecord (F : Type) where
  epoch : F
  device : PyStr
  inbound : PyStr
  activeConnections : ℤ
  deviceStatus : Option PyStr
  reason : DeviceReason
  unread : PyStr → Json F

/- A slot of a probe row: `ok` exactly without an error code. -/
structure SlotRecord extends SlotAnswer where
  latencyMs : Option ℤ

/- A row of `network_probe_samples`. -/
structure ProbeRecord (F : Type) where
  epoch : F
  cycleId : PyStr
  dns : SlotRecord
  https : SlotRecord
  udp : SlotRecord
  egress : SlotRecord
  egressIp : Option PyStr
  egressChange : EgressChange
  unread : PyStr → Json F

-- Projections

/- A REAL column. -/
def realColumn (value : F) : Json F := .float (.finite value)

/- An INTEGER column that may be NULL. -/
def intOrNull (value : Option ℤ) : Json F := match value with
  | some n => .int n
  | none => .null

/- `_project_rows` -/
def projectRow (columns : List PyStr) (column : PyStr → Json F) : Json F :=
  .obj (columns.map (fun name => (name, column name)))

def SampleRecord.column (row : SampleRecord F) (name : PyStr) : Json F :=
  if name = pyStr "epoch" then realColumn row.epoch
  else if name = pyStr "collector_stale" then .int row.collectorStale
  else if name = pyStr "api_status" then textOrNull row.apiStatus
  else if name = pyStr "total_active_connections" then .int row.total
  else if name = pyStr "reality_active_connections" then
    .int row.reality
  else if name = pyStr "hysteria2_active_connections" then
    .int row.hysteria2
  else if name = pyStr "other_active_connections" then .int row.other
  else row.unread name

def DeviceRecord.column (row : DeviceRecord F) (name : PyStr) : Json F :=
  if name = pyStr "epoch" then realColumn row.epoch
  else if name = pyStr "device" then .str row.device
  else if name = pyStr "inbound" then .str row.inbound
  else if name = pyStr "active_connections" then
    .int row.activeConnections
  else if name = pyStr "device_status" then textOrNull row.deviceStatus
  else if name = pyStr "reason" then .str row.reason.token
  else row.unread name

def ProbeRecord.column (row : ProbeRecord F) (name : PyStr) : Json F :=
  if name = pyStr "epoch" then realColumn row.epoch
  else if name = pyStr "cycle_id" then .str row.cycleId
  else if name = pyStr "dns_status" then .str row.dns.status.token
  else if name = pyStr "dns_latency_ms" then intOrNull row.dns.latencyMs
  else if name = pyStr "dns_error_code" then .str row.dns.code.token
  else if name = pyStr "https_status" then .str row.https.status.token
  else if name = pyStr "https_latency_ms" then
    intOrNull row.https.latencyMs
  else if name = pyStr "https_error_code" then .str row.https.code.token
  else if name = pyStr "udp_status" then .str row.udp.status.token
  else if name = pyStr "udp_latency_ms" then intOrNull row.udp.latencyMs
  else if name = pyStr "udp_error_code" then .str row.udp.code.token
  else if name = pyStr "egress_status" then .str row.egress.status.token
  else if name = pyStr "egress_latency_ms" then
    intOrNull row.egress.latencyMs
  else if name = pyStr "egress_error_code" then
    .str row.egress.code.token
  else if name = pyStr "egress_ip" then textOrNull row.egressIp
  else if name = pyStr "egress_change" then .str row.egressChange.token
  else row.unread name

/- The text of a destination class: 'NONE' for a wire null. -/
def dclsText (dcls : Option JournalDcls) : PyStr := match dcls with
  | none => pyStr "NONE"
  | some d => d.token

/- A column of `journal_events`. -/
def eventColumn (row : JournalEvent F) (name : PyStr) : Json F :=
  if name = pyStr "seq" then .int row.seq
  else if name = pyStr "ts" then realColumn row.ts
  else if name = pyStr "cls" then .str row.cls.token
  else if name = pyStr "proto" then .str row.proto.token
  else if name = pyStr "port" then .int row.port
  else if name = pyStr "dcls" then .str (dclsText row.dcls)
  else if name = pyStr "fp" then textOrNull row.fp
  else .int row.n

/- A column of `journal_ingest_audit`. -/
def auditColumn (row : JournalIngest.AuditRow F) (name : PyStr) : Json F :=
  if name = pyStr "epoch" then realColumn row.epoch
  else if name = pyStr "kind" then .str (auditKindToken row.kind)
  else if name = pyStr "seq" then .int row.seq
  else .str row.code.token

def sampleJson (row : SampleRecord F) : Json F := projectRow sampleColumns row.column

def deviceJson (row : DeviceRecord F) : Json F := projectRow deviceStateColumns row.column

def probeJson (row : ProbeRecord F) : Json F := projectRow probeColumns row.column

def eventJson (row : JournalEvent F) : Json F := projectRow journalEventColumns (eventColumn row)

def auditJson (row : JournalIngest.AuditRow F) : Json F := projectRow journalAuditColumns (auditColumn row)

-- Queries

variable [BoundedFloat F]

/- `WHERE epoch >= ? AND epoch < ?` -/
def InWindow (start stop epoch : F) : Prop :=
  PyFloat.toRat start ≤ PyFloat.toRat epoch ∧ PyFloat.toRat epoch < PyFloat.toRat stop

instance (start stop epoch : F) :
    Decidable (InWindow start stop epoch) := by
  unfold InWindow
  infer_instance

/- The rows of a window, in ascending order. -/
def selectRows {α : Type} (epoch : α → F) (start stop : F) (rows : List α) : List α :=
  (rows.filter (fun row => InWindow start stop (epoch row))).insertionSort
    (fun a b => PyFloat.toRat (epoch a) ≤ PyFloat.toRat (epoch b))

/- The five tables a bundle is read from. -/
structure EvidenceTables (F : Type) where
  samples : List (SampleRecord F)
  devices : List (DeviceRecord F)
  probes : List (ProbeRecord F)
  events : List (JournalEvent F)
  audit : List (JournalIngest.AuditRow F)

/- What the tables answer for a window, under a health. -/
def evidenceRows (tables : EvidenceTables F) (degraded : Bool) (lastErrorCode : Option HistoryCode)
    (start stop : F) : EvidenceRows F where
  degraded := degraded
  lastErrorCode := lastErrorCode
  samples := (selectRows SampleRecord.epoch start stop tables.samples).map sampleJson
  deviceStates := (selectRows DeviceRecord.epoch start stop tables.devices).map deviceJson
  probeRows := (selectRows ProbeRecord.epoch start stop tables.probes).map probeJson
  journalEvents := (selectRows JournalEvent.ts start stop tables.events).map eventJson
  audit := (selectRows JournalIngest.AuditRow.epoch start stop tables.audit).map auditJson

theorem mem_selectRows {α : Type} {epoch : α → F} {start stop : F} {rows : List α} {row : α} :
    row ∈ selectRows epoch start stop rows ↔ row ∈ rows ∧ InWindow start stop (epoch row) := by
  unfold selectRows
  rw [List.mem_insertionSort, List.mem_filter, decide_eq_true_eq]

end SingboxOps.EvidenceStore
