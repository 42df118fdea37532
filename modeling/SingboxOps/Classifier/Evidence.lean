import SingboxOps.Classifier.Vocabulary
import SingboxOps.Lib.BoundedFloat

/-
  The evidence gate of the incident classifier.

  Evidence is any JSON value.  The gate answers with refusal
  tokens; where there are none, the rows can be read as the
  records the analysis works on.  Two exceptions can escape:
  `float(n)` of an int no float is near, and the hash of a
  list or an object.

  A numeric field is compared exactly where the source
  compares the value itself, and as a float where it calls
  `float(value)` first; a `Stamp` holds both.
-/

namespace SingboxOps.Classifier

open JournalIngest (JournalClass JournalProto JournalDcls
  AuditKind AuditCode field hasExactly tokenOf?)

-- Constants

def bucketSeconds : ℚ := 60
def maxBuckets : ℕ := 60
def maxRecordsPerSection : ℕ := 2000

def sampleRowColumns : List PyStr := ["epoch", "iso_utc", "run_id", "monitor_uptime_seconds",
    "snapshot_version", "snapshot_generated_at",
    "last_success_at", "collector_stale", "api_status",
    "total_active_connections", "reality_active_connections",
    "hysteria2_active_connections", "other_active_connections",
    "uplink_rate", "downlink_rate", "skipped_events",
    "duplicate_events", "identity_conflicts",
    "abandoned_on_reset"].map pyStr

def deviceRowColumns : List PyStr := ["epoch", "iso_utc", "run_id", "device", "inbound",
    "active_connections", "device_status", "uplink_rate",
    "downlink_rate", "uplink_total", "downlink_total",
    "reason"].map pyStr

def probeRowColumns : List PyStr := ["epoch", "iso_utc", "run_id", "cycle_id", "result_version",
    "dns_status", "dns_latency_ms", "dns_error_code",
    "https_status", "https_latency_ms", "https_error_code",
    "udp_status", "udp_latency_ms", "udp_error_code",
    "egress_status", "egress_latency_ms", "egress_error_code",
    "egress_ip", "egress_change"].map pyStr

def journalEventRowColumns : List PyStr := ["seq", "ts", "cls", "proto", "port", "dcls", "fp", "n"].map pyStr

def auditRowColumns : List PyStr := ["epoch", "kind", "seq", "code"].map pyStr

def sampleFields : List PyStr := ["epoch", "collector_stale", "api_status",
    "total_active_connections", "reality_active_connections",
    "hysteria2_active_connections",
    "other_active_connections"].map pyStr

def deviceFields : List PyStr := ["epoch", "device", "inbound", "active_connections", "reason"].map pyStr

def probeFields : List PyStr := ["epoch", "dns_status", "dns_error_code", "https_status",
    "https_error_code", "udp_status", "udp_error_code",
    "egress_status", "egress_error_code",
    "egress_change"].map pyStr

def journalFields : List PyStr := ["ts", "cls", "proto", "port", "dcls", "n"].map pyStr

def auditFields : List PyStr := ["epoch", "kind", "code"].map pyStr

def healthFields : List PyStr := ["enabled", "degraded", "last_error_code"].map pyStr

def readerFields : List PyStr := ["status"].map pyStr

def windowFields : List PyStr := ["start_epoch", "end_epoch"].map pyStr

def evidenceSections : List PyStr := Section.all.map Section.token

-- Records

/- The exceptions `detect` can let escape. -/
inductive Raised where
  | overflow
  | unhashable
deriving DecidableEq

/- How the gate leaves a row: refused, or with an exception. -/
inductive Stop where
  | shape
  | outside
  | raised (e : Raised)
deriving DecidableEq

/- A check of a row. -/
abbrev Gate (α : Type) : Type := Except Stop α

/- A number with its exact value and its float. -/
structure Stamp (F : Type) where
  exact : ℚ
  float : F

/- A row of `samples`, as far as it is read. -/
structure SampleRow (F : Type) where
  epoch : Stamp F
  collectorStale : Bool
  total : ℕ
  reality : ℕ
  hysteria2 : ℕ
  other : ℕ
  apiStatus : Option ApiStatus

/- A row of `device_states`; the names are counting keys. -/
structure DeviceRow (F : Type) where
  epoch : Stamp F
  device : Json F
  inbound : Json F
  activeConnections : ℕ

/- One slot of a probe row: ok exactly without an error code. -/
structure SlotAnswer where
  status : ProbeStatus
  code : ProbeCode
  paired : status = .ok ↔ code = .none

/- A row of `probe_rows`. -/
structure ProbeRow (F : Type) where
  epoch : Stamp F
  dns : SlotAnswer
  https : SlotAnswer
  udp : SlotAnswer
  egress : SlotAnswer
  change : EgressChange

/- A row of `journal_events`; no `dcls` is the text 'NONE'. -/
structure JournalRow (F : Type) where
  ts : Stamp F
  cls : JournalClass
  proto : JournalProto
  port : ℕ
  dcls : Option JournalDcls
  n : ℕ

/- A row of `audit`. -/
structure AuditRow (F : Type) where
  epoch : Stamp F
  kind : AuditKind
  code : AuditCode

def SampleRow.count {F : Type} (row : SampleRow F) : CountField → ℕ
  | .total => row.total
  | .reality => row.reality
  | .hysteria2 => row.hysteria2
  | .other => row.other

-- Field Checks

variable {F : Type} [BoundedFloat F]

/- A row or an object of named fields. -/
abbrev Members (F : Type) : Type := List (PyStr × Json F)

/- `_is_real`: a finite int or float, and no bool. -/
def isReal (value : Json F) : Except Raised (Option (Stamp F)) := match value with
  | .int n =>
    match floatOfInt? n with
    | none => .error .overflow
    | some x => .ok (some ⟨n, x⟩)
  | .float (.finite x) => .ok (some ⟨PyFloat.toRat x, x⟩)
  | _ => .ok none

/- `_row_keys` -/
def rowKeys (row : Members F) (fullColumns needed : List PyStr) : Gate Unit :=
  if !row.all (fun m => m.1 ∈ fullColumns) then .error .shape
  else if !needed.all (fun k => (Json.getItem row k).isSome) then
    .error .shape
  else .ok ()

/- `_row_time` -/
def rowTime (row : Members F) (key : String) (start stop : F) : Gate (Stamp F) :=
  match isReal (field row key) with
  | .error e => .error (.raised e)
  | .ok none => .error .shape
  | .ok (some stamp) =>
    if PyFloat.toRat stamp.float < PyFloat.toRat start ∨
        PyFloat.toRat stop ≤ PyFloat.toRat stamp.float then
      .error .outside
    else .ok stamp

/- `_row_flags` of one key. -/
def rowFlag (row : Members F) (key : String) : Gate Bool := match field row key with
  | .int n =>
    if n = 0 then .ok false
    else if n = 1 then .ok true
    else .error .shape
  | _ => .error .shape

/- `_row_counts` of one key. -/
def rowCount (row : Members F) (key : String) : Gate ℕ := match field row key with
  | .int n => if n < 0 then .error .shape else .ok n.toNat
  | _ => .error .shape

/- `_row_one_of` -/
def rowOneOf {α : Type} (row : Members F) (key : String) (all : List α) (token : α → PyStr) : Gate α :=
  match tokenOf? all token (field row key) with
  | none => .error .shape
  | some a => .ok a

/- `_row_api` -/
def rowApi (row : Members F) : Gate (Option ApiStatus) := match field row "api_status" with
  | .null => .ok none
  | status =>
    match tokenOf? ApiStatus.all ApiStatus.token status with
    | none => .error .shape
    | some s => .ok (some s)

/- One slot of `_row_probes`. -/
def rowProbe (row : Members F) (statusKey codeKey : String) : Gate SlotAnswer := do
  let status ← rowOneOf row statusKey ProbeStatus.all ProbeStatus.token
  let code ← rowOneOf row codeKey ProbeCode.all ProbeCode.token
  if h : status = .ok ↔ code = .none then .ok ⟨status, code, h⟩
  else .error .shape

/- The destination class: 'NONE', or one of the wire's. -/
def rowDcls (row : Members F) : Gate (Option JournalDcls) := match field row "dcls" with
  | .str s =>
    if s = pyStr "NONE" then .ok none
    else
      match tokenOf? JournalDcls.all JournalDcls.token
          (.str s : Json F) with
      | none => .error .shape
      | some d => .ok (some d)
  | _ => .error .shape

/- A port number, or 0 for none. -/
def rowPort (row : Members F) : Gate ℕ := match field row "port" with
  | .int n => if 0 ≤ n ∧ n ≤ 65535 then .ok n.toNat else .error .shape
  | _ => .error .shape

/- A count of at least one. -/
def rowEvents (row : Members F) : Gate ℕ := match field row "n" with
  | .int n => if n < 1 then .error .shape else .ok n.toNat
  | _ => .error .shape

-- Row Checks

/- `_row_reason` of `samples`, with the row it lets through. -/
def readSample (start stop : F) (value : Json F) : Gate (SampleRow F) := match value with
  | .obj row => do
      rowKeys row sampleRowColumns sampleFields
      let epoch ← rowTime row "epoch" start stop
      let collectorStale ← rowFlag row "collector_stale"
      let total ← rowCount row "total_active_connections"
      let reality ← rowCount row "reality_active_connections"
      let hysteria2 ← rowCount row "hysteria2_active_connections"
      let other ← rowCount row "other_active_connections"
      let apiStatus ← rowApi row
      pure { epoch, collectorStale, total, reality, hysteria2,
             other, apiStatus }
  | _ => .error .shape

/- `_row_reason` of `device_states`. -/
def readDevice (start stop : F) (value : Json F) : Gate (DeviceRow F) := match value with
  | .obj row => do
      rowKeys row deviceRowColumns deviceFields
      let epoch ← rowTime row "epoch" start stop
      let activeConnections ← rowCount row "active_connections"
      let _ ← rowOneOf row "reason" DeviceReason.all DeviceReason.token
      pure { epoch
             device := field row "device"
             inbound := field row "inbound"
             activeConnections }
  | _ => .error .shape

/- `_row_reason` of `probe_rows`. -/
def readProbe (start stop : F) (value : Json F) : Gate (ProbeRow F) := match value with
  | .obj row => do
      rowKeys row probeRowColumns probeFields
      let epoch ← rowTime row "epoch" start stop
      let dns ← rowProbe row "dns_status" "dns_error_code"
      let https ← rowProbe row "https_status" "https_error_code"
      let udp ← rowProbe row "udp_status" "udp_error_code"
      let egress ← rowProbe row "egress_status" "egress_error_code"
      let change ← rowOneOf row "egress_change" EgressChange.all EgressChange.token
      pure { epoch, dns, https, udp, egress, change }
  | _ => .error .shape

/- `_row_journal` -/
def rowJournal (row : Members F) (ts : Stamp F) : Gate (JournalRow F) := do
  let port ← rowPort row
  let cls ← rowOneOf row "cls" JournalClass.all JournalClass.token
  let proto ← rowOneOf row "proto" JournalProto.all JournalProto.token
  let dcls ← rowDcls row
  -- 'NONE' carries no port, a destination class needs one
  if dcls = none ∧ port ≠ 0 then .error .shape
  else if dcls ≠ none ∧ port < 1 then .error .shape
  else do
    let n ← rowEvents row
    pure { ts, cls, proto, port, dcls, n }

/- `_row_reason` of `journal_events`. -/
def readJournal (start stop : F) (value : Json F) : Gate (JournalRow F) := match value with
  | .obj row => do
      rowKeys row journalEventRowColumns journalFields
      let ts ← rowTime row "ts" start stop
      rowJournal row ts
  | _ => .error .shape

def auditKinds : List AuditKind := [.gap, .rejected]

def auditKindToken : AuditKind → PyStr
  | .gap => pyStr "gap"
  | .rejected => pyStr "rejected"

/- `_row_reason` of `audit`. -/
def readAudit (start stop : F) (value : Json F) : Gate (AuditRow F) := match value with
  | .obj row => do
      rowKeys row auditRowColumns auditFields
      let epoch ← rowTime row "epoch" start stop
      let kind ← rowOneOf row "kind" auditKinds auditKindToken
      let code ← rowOneOf row "code" AuditCode.all AuditCode.token
      pure { epoch, kind, code }
  | _ => .error .shape

-- The Window

/- `value % 60.0 == 0.0` -/
def aligned (x : F) : Prop := (PyFloat.toRat x / bucketSeconds).den = 1

instance (x : F) : Decidable (aligned x) := by
  unfold aligned
  infer_instance

/- `float(end) - float(start)` -/
def spanOf (start stop : F) : F := PyFloat.round (PyFloat.toRat stop - PyFloat.toRat start)

/- A valid window: aligned, and of one to sixty buckets. -/
structure Window (F : Type) [BoundedFloat F] where
  start : F
  stop : F
  nonneg : 0 ≤ PyFloat.toRat start
  startAligned : aligned start
  stopAligned : aligned stop
  spanLow : bucketSeconds ≤ PyFloat.toRat (spanOf start stop)
  spanHigh : PyFloat.toRat (spanOf start stop) ≤ maxBuckets * bucketSeconds

/- The last tests of `_valid_window`, on the two floats. -/
def windowOf (start stop : F) : Option (Window F) :=
  if hNonneg : 0 ≤ PyFloat.toRat start then
    if hStart : aligned start then
      if hStop : aligned stop then
        if hLow : bucketSeconds ≤
            PyFloat.toRat (spanOf start stop) then
          if hHigh : PyFloat.toRat (spanOf start stop) ≤
              maxBuckets * bucketSeconds then
            some ⟨start, stop, hNonneg, hStart, hStop, hLow, hHigh⟩
          else none
        else none
      else none
    else none
  else none

/- `_valid_window`, with the window it lets through. -/
def validWindow (window : Json F) : Except Raised (Option (Window F)) := match window with
  | .obj members =>
    if !hasExactly members windowFields then .ok none
    else do
      let start ← isReal (field members "start_epoch")
      match start with
      | none => .ok none
      | some start => do
          let stop ← isReal (field members "end_epoch")
          match stop with
          | none => .ok none
          | some stop =>
            if start.exact < 0 ∨ stop.exact ≤ start.exact then .ok none
            else .ok (windowOf start.float stop.float)
  | _ => .ok none

/- `int(round((end - start) / 60.0))` -/
def bucketsBetween (start stop : F) : ℤ := roundHalfEven (PyFloat.toRat (PyFloat.round
    (PyFloat.toRat (spanOf start stop) / bucketSeconds) : F))

/- The number of buckets of a window. -/
def Window.buckets (w : Window F) : ℕ := (bucketsBetween w.start w.stop).toNat

-- Refusals

/- `_valid_dict_section` of `health`, with `degraded`. -/
def readHealth (health : Json F) : Option Bool := match health with
  | .obj obj =>
    if !hasExactly obj healthFields then none
    else
      match field obj "enabled", field obj "degraded",
          field obj "last_error_code" with
      | .bool _, .bool degraded, .null => some degraded
      | .bool _, .bool degraded, code =>
        (tokenOf? HistoryCode.all HistoryCode.token code).map (fun _ => degraded)
      | _, _, _ => none
  | _ => none

/- `_valid_dict_section` of `reader`, with its status. -/
def readReader (reader : Json F) : Option ReaderStatus := match reader with
  | .obj obj =>
    if !hasExactly obj readerFields then none
    else
      tokenOf? ReaderStatus.all ReaderStatus.token (field obj "status")
  | _ => none

/- The first row a section's scan stops at says why. -/
def scanRows {α : Type} (sec : Section)
    (read : Json F → Gate α) : List (Json F) → Except Raised (Finset UnknownToken)
  | [] => .ok ∅
  | row :: rows =>
    match read row with
    | .ok _ => scanRows sec read rows
    | .error .shape => .ok {.evidenceRejected sec}
    | .error .outside => .ok {.evidenceOutsideWindow, .evidenceRejected sec}
    | .error (.raised e) => .error e

/- The refusals of one list section. -/
def sectionRefusals {α : Type} (sec : Section) (read : Json F → Gate α)
    (value : Json F) : Except Raised (Finset UnknownToken) :=
  match value with
  | .arr rows =>
    if maxRecordsPerSection < rows.length then
      .ok {.evidenceRejected sec}
    else scanRows sec read rows
  | _ => .ok {.evidenceRejected sec}

/- `evidence[section]` -/
def sectionOf (evidence : Members F) (sec : Section) : Json F := (Json.getItem evidence sec.token).getD .null

/- The refusals of the sections, measured by a valid window. -/
def rowRefusals (evidence : Members F) (w : Window F) : Except Raised (Finset UnknownToken) := do
  let health :=
    if (readHealth (sectionOf evidence .health)).isSome then ∅
    else {UnknownToken.evidenceRejected .health}
  let reader :=
    if (readReader (sectionOf evidence .reader)).isSome then ∅
    else {UnknownToken.evidenceRejected .reader}
  let samples ← sectionRefusals .samples (readSample w.start w.stop) (sectionOf evidence .samples)
  let devices ← sectionRefusals .deviceStates (readDevice w.start w.stop) (sectionOf evidence .deviceStates)
  let probes ← sectionRefusals .probeRows (readProbe w.start w.stop) (sectionOf evidence .probeRows)
  let journal ← sectionRefusals .journalEvents
    (readJournal w.start w.stop) (sectionOf evidence .journalEvents)
  let audit ← sectionRefusals .audit (readAudit w.start w.stop) (sectionOf evidence .audit)
  pure (health ∪ reader ∪ samples ∪ devices ∪ probes ∪ journal ∪ audit)

/- `_refusals`; an unusable window refuses the rest unread. -/
def refusals (evidence : Json F) : Except Raised (Finset UnknownToken) := match evidence with
  | .obj members =>
    if !members.all (fun m => m.1 ∈ evidenceSections) then
      .ok {.evidenceShapeRejected}
    else do
      let window ← validWindow (sectionOf members .window)
      match window with
      | none => .ok {.evidenceRejected .window}
      | some w => rowRefusals members w
  | _ => .ok {.evidenceShapeRejected}

-- The Accepted Bundle

/- The records the analysis reads. -/
structure Bundle (F : Type) [BoundedFloat F] where
  window : Window F
  degraded : Bool
  reader : ReaderStatus
  samples : List (SampleRow F)
  deviceStates : List (DeviceRow F)
  probeRows : List (ProbeRow F)
  journalEvents : List (JournalRow F)
  audit : List (AuditRow F)

/- The rows of a section the gate lets through. -/
def rowsOf {α : Type} (read : Json F → Gate α) (value : Json F) : List α := match value with
  | .arr rows => rows.filterMap (fun row => (read row).toOption)
  | _ => []

/- The records of evidence that was not refused. -/
def readBundle (evidence : Members F) (w : Window F) : Bundle F where
  window := w
  degraded := (readHealth (sectionOf evidence .health)).getD false
  reader := (readReader (sectionOf evidence .reader)).getD .disabled
  samples := rowsOf (readSample w.start w.stop) (sectionOf evidence .samples)
  deviceStates := rowsOf (readDevice w.start w.stop) (sectionOf evidence .deviceStates)
  probeRows := rowsOf (readProbe w.start w.stop) (sectionOf evidence .probeRows)
  journalEvents := rowsOf (readJournal w.start w.stop) (sectionOf evidence .journalEvents)
  audit := rowsOf (readAudit w.start w.stop) (sectionOf evidence .audit)

/- `_echo_window`: the start, the end and the bucket count. -/
def echoWindow (evidence : Json F) : Except Raised (F × F × ℕ) := match evidence with
  | .obj members => do
      let window ← validWindow (sectionOf members .window)
      match window with
      | none => .ok (PyFloat.round 0, PyFloat.round 0, 0)
      | some w => .ok (w.start, w.stop, w.buckets)
  | _ => .ok (PyFloat.round 0, PyFloat.round 0, 0)

end SingboxOps.Classifier
