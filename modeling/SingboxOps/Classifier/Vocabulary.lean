import SingboxOps.JournalIngest.Ledger
import Mathlib.Data.Finset.Basic

/-
  The closed vocabularies of the incident classifier: what an
  accepted row may say, the statuses and categories of a
  verdict, and the evidence and unknown tokens it may carry.

  The verdict's token tuples are sorted sets.  A persisted
  bitset has one bit for each token, at its place in the
  sorted vocabulary.
-/

namespace SingboxOps.Classifier

open JournalIngest (JournalClass AuditCode)

-- Row Vocabularies

/- `SAMPLE_COUNT_FIELDS` -/
inductive CountField where
  | total
  | reality
  | hysteria2
  | other
deriving DecidableEq

/- `PROBE_SLOTS` -/
inductive ProbeSlot where
  | dns
  | https
  | udp
  | egress
deriving DecidableEq

/- `PROBE_STATUSES` -/
inductive ProbeStatus where
  | ok
  | failed
deriving DecidableEq

/- `PROBE_ERROR_CODES` -/
inductive ProbeCode where
  | none
  | timeout
  | dnsFailed
  | connectFailed
  | tlsFailed
  | badResponse
  | protocolFailed
  | parseFailed
  | unavailable
deriving DecidableEq

/- `PROBE_CHANGE_VALUES` -/
inductive EgressChange where
  | unchanged
  | changed
  | unknown
deriving DecidableEq

/- `READER_STATUSES` -/
inductive ReaderStatus where
  | disabled
  | absent
  | unreadable
  | invalid
  | stale
  | fresh
deriving DecidableEq

/- `API_STATUSES` -/
inductive ApiStatus where
  | connected
  | stale
deriving DecidableEq

/- `DEVICE_REASONS` -/
inductive DeviceReason where
  | change
  | heartbeat
deriving DecidableEq

/- `HISTORY_ERROR_CODES` -/
inductive HistoryCode where
  | dirUnsafe
  | dbUnsafe
  | openFailed
  | schemaUnsupported
  | writeFailed
  | retentionFailed
  | readFailed
  | ingestApplyFailed
  | probePersistFailed
  | probeResultRejected
  | exchangeUnreadable
  | incidentPersistFailed
deriving DecidableEq

/- `EVIDENCE_SECTIONS` -/
inductive Section where
  | samples
  | deviceStates
  | probeRows
  | journalEvents
  | audit
  | window
  | health
  | reader
deriving DecidableEq

def CountField.all : List CountField := [.total, .reality, .hysteria2, .other]

def ProbeSlot.all : List ProbeSlot := [.dns, .https, .udp, .egress]

/- `GENERIC_PROBE_SLOTS` -/
def ProbeSlot.generic : List ProbeSlot := [.dns, .https, .egress]

def ProbeStatus.all : List ProbeStatus := [.ok, .failed]

def ProbeStatus.token : ProbeStatus → PyStr
  | .ok => pyStr "ok"
  | .failed => pyStr "failed"

def ProbeCode.all : List ProbeCode := [.none, .timeout, .dnsFailed, .connectFailed, .tlsFailed,
    .badResponse, .protocolFailed, .parseFailed, .unavailable]

def ProbeCode.token : ProbeCode → PyStr
  | .none => pyStr "NONE"
  | .timeout => pyStr "timeout"
  | .dnsFailed => pyStr "dns_failed"
  | .connectFailed => pyStr "connect_failed"
  | .tlsFailed => pyStr "tls_failed"
  | .badResponse => pyStr "bad_response"
  | .protocolFailed => pyStr "protocol_failed"
  | .parseFailed => pyStr "parse_failed"
  | .unavailable => pyStr "unavailable"

/- `PROBE_NETWORK_CODES` -/
def ProbeCode.network : List ProbeCode := [.timeout, .dnsFailed, .connectFailed]

def EgressChange.all : List EgressChange := [.unchanged, .changed, .unknown]

def EgressChange.token : EgressChange → PyStr
  | .unchanged => pyStr "unchanged"
  | .changed => pyStr "changed"
  | .unknown => pyStr "unknown"

def ReaderStatus.all : List ReaderStatus := [.disabled, .absent, .unreadable, .invalid, .stale, .fresh]

def ReaderStatus.token : ReaderStatus → PyStr
  | .disabled => pyStr "disabled"
  | .absent => pyStr "absent"
  | .unreadable => pyStr "unreadable"
  | .invalid => pyStr "invalid"
  | .stale => pyStr "stale"
  | .fresh => pyStr "fresh"

def ApiStatus.all : List ApiStatus := [.connected, .stale]

def ApiStatus.token : ApiStatus → PyStr
  | .connected => pyStr "CONNECTED"
  | .stale => pyStr "STALE"

def DeviceReason.all : List DeviceReason := [.change, .heartbeat]

def DeviceReason.token : DeviceReason → PyStr
  | .change => pyStr "change"
  | .heartbeat => pyStr "heartbeat"

def HistoryCode.all : List HistoryCode := [.dirUnsafe, .dbUnsafe, .openFailed, .schemaUnsupported,
    .writeFailed, .retentionFailed, .readFailed,
    .ingestApplyFailed, .probePersistFailed,
    .probeResultRejected, .exchangeUnreadable,
    .incidentPersistFailed]

def HistoryCode.token : HistoryCode → PyStr
  | .dirUnsafe => pyStr "history_dir_unsafe"
  | .dbUnsafe => pyStr "history_db_unsafe"
  | .openFailed => pyStr "history_open_failed"
  | .schemaUnsupported => pyStr "history_schema_unsupported"
  | .writeFailed => pyStr "history_write_failed"
  | .retentionFailed => pyStr "history_retention_failed"
  | .readFailed => pyStr "history_read_failed"
  | .ingestApplyFailed => pyStr "history_ingest_apply_failed"
  | .probePersistFailed => pyStr "history_probe_persist_failed"
  | .probeResultRejected => pyStr "history_probe_result_rejected"
  | .exchangeUnreadable => pyStr "history_journal_exchange_unreadable"
  | .incidentPersistFailed => pyStr "history_incident_persist_failed"

def AuditCode.all : List AuditCode := [.sequenceGap, .badJson, .badName, .badShape, .empty,
    .eventInvalid, .headerInvalid, .headerPosition, .noHeader,
    .notRegular, .seqMismatch, .tooLarge, .unreadable]

def Section.token : Section → PyStr
  | .samples => pyStr "samples"
  | .deviceStates => pyStr "device_states"
  | .probeRows => pyStr "probe_rows"
  | .journalEvents => pyStr "journal_events"
  | .audit => pyStr "audit"
  | .window => pyStr "window"
  | .health => pyStr "health"
  | .reader => pyStr "reader"

/- `EVIDENCE_SECTIONS` -/
def Section.all : List Section :=
  [.samples, .deviceStates, .probeRows, .journalEvents, .audit, .window, .health, .reader]

-- Verdict Vocabularies

/- `STATUSES` -/
inductive Status where
  | incident
  | noIncident
  | indeterminate
deriving DecidableEq

/- `CATEGORIES`, and the sentinel 'NONE' of no attribution. -/
inductive Category where
  | vpsProcess
  | vpsOutbound
  | realityTcp
  | hy2Udp
  | commonInbound
  | destination
  | insufficient
  | none
deriving DecidableEq

def Category.token : Category → PyStr
  | .vpsProcess => pyStr "vps_process_or_api"
  | .vpsOutbound => pyStr "vps_outbound"
  | .realityTcp => pyStr "reality_tcp_path"
  | .hy2Udp => pyStr "hysteria2_udp_path"
  | .commonInbound => pyStr "common_inbound_client_office"
  | .destination => pyStr "destination_specific"
  | .insufficient => pyStr "insufficient_evidence"
  | .none => pyStr "NONE"

/- `EMITTABLE_CATEGORIES`: all but the destination. -/
def Category.emittable : List Category :=
  [.vpsProcess, .vpsOutbound, .realityTcp, .hy2Udp, .commonInbound, .insufficient]

/- What the place of a journal burst says. -/
inductive BurstPlace where
  | reality
  | hysteria2
  | generic
  | destination
  | unattributed
deriving DecidableEq

/- `EVIDENCE_TOKENS` -/
inductive EvidenceToken where
  | noAnomaly
  | countDrop (name : CountField)
  | allDevicesQuiet
  | journalBurst (place : BurstPlace)
  | probeFailed (slot : ProbeSlot)
  | probeSourceUnavailable
  | probeGenericTcpHealthy
  | egressIpChanged
  | apiStale
  | collectorStale
  | sampleCoverageGap
  | historyDegraded
  | journalContinuityGap
  | journalRejectedBatch
  | journalCls (cls : JournalClass)
  | journalAudit (code : AuditCode)
deriving DecidableEq

/- `UNKNOWN_TOKENS` -/
inductive UnknownToken where
  | noCorroboration
  | countDropOnly
  | attributionAmbiguous
  | baselineEvidenceAbsent
  | transportNegativesUnproven
  | contemporaneousNegativesUnproven
  | probeEvidenceAbsent
  | probeEvidenceUnusable
  | probeEndpointConfounded
  | multipleAnomalyClusters
  | journalEvidenceAbsent
  | journalEvidenceIncomplete
  | noTargetSpecificProof
  | multipleDestinations
  | processAndNetworkEvidenceConflict
  | deviceStatesAreChangeOnly
  | unattributedEvidencePresent
  | evidenceShapeRejected
  | evidenceOutsideWindow
  | rootCauseNotEstablished
  | evidenceRejected (sec : Section)
deriving DecidableEq

-- Persistence Bitsets

/- `_EVIDENCE_BIT_ORDER` -/
def evidenceBitOrder : List EvidenceToken :=
  [.allDevicesQuiet, .apiStale, .collectorStale, .countDrop .hysteria2, .countDrop .other,
    .countDrop .reality, .countDrop .total, .egressIpChanged,
    .historyDegraded, .journalAudit .badJson,
    .journalAudit .badName, .journalAudit .badShape,
    .journalAudit .empty, .journalAudit .eventInvalid,
    .journalAudit .headerInvalid, .journalAudit .headerPosition,
    .journalAudit .noHeader, .journalAudit .notRegular,
    .journalAudit .seqMismatch, .journalAudit .tooLarge,
    .journalAudit .unreadable, .journalAudit .sequenceGap,
    .journalBurst .destination, .journalBurst .hysteria2,
    .journalBurst .generic, .journalBurst .reality,
    .journalBurst .unattributed, .journalCls .dialTimeout,
    .journalCls .dns, .journalCls .eofCancel,
    .journalCls .netUnreachable, .journalCls .other,
    .journalCls .quicError, .journalCls .reset,
    .journalCls .tlsHandshake, .journalContinuityGap,
    .journalRejectedBatch, .noAnomaly, .probeFailed .dns,
    .probeFailed .egress, .probeFailed .https,
    .probeFailed .udp, .probeGenericTcpHealthy,
    .probeSourceUnavailable, .sampleCoverageGap]

/- `_UNKNOWN_BIT_ORDER` -/
def unknownBitOrder : List UnknownToken := [.attributionAmbiguous, .baselineEvidenceAbsent,
    .contemporaneousNegativesUnproven, .countDropOnly,
    .deviceStatesAreChangeOnly, .evidenceOutsideWindow,
    .evidenceRejected .audit, .evidenceRejected .deviceStates,
    .evidenceRejected .health, .evidenceRejected .journalEvents,
    .evidenceRejected .probeRows, .evidenceRejected .reader,
    .evidenceRejected .samples, .evidenceRejected .window,
    .evidenceShapeRejected, .journalEvidenceAbsent,
    .journalEvidenceIncomplete, .multipleAnomalyClusters,
    .multipleDestinations, .noCorroboration,
    .noTargetSpecificProof, .probeEndpointConfounded,
    .probeEvidenceAbsent, .probeEvidenceUnusable,
    .processAndNetworkEvidenceConflict, .rootCauseNotEstablished,
    .transportNegativesUnproven, .unattributedEvidencePresent]

/- Bit `i` says whether the token at position `i` is there. -/
def tokensToBits {α : Type} [DecidableEq α] : List α → Finset α → ℕ
  | [], _ => 0
  | t :: order, tokens => (if t ∈ tokens then 1 else 0) + 2 * tokensToBits order tokens

/- `evidence_to_bits` -/
def evidenceToBits (tokens : Finset EvidenceToken) : ℕ := tokensToBits evidenceBitOrder tokens

/- `unknown_to_bits` -/
def unknownToBits (tokens : Finset UnknownToken) : ℕ := tokensToBits unknownBitOrder tokens

end SingboxOps.Classifier
