import SingboxOps.EvidenceStore.Rows

/-
  Which stored rows the classifier's row gate lets through.

  A sample or device row passes with counts that are not
  negative, a probe row and an audit row always, a journal row
  unless it names a port and no destination class.
-/

namespace SingboxOps.EvidenceStore

open Classifier
open JournalIngest (JournalEvent JournalClass JournalProto
  JournalDcls AuditCode AuditKind field ofToken? tokenOf?)

variable {F : Type}

-- Fields of a Projected Row

theorem getItem_projectRow {columns : List PyStr} {column : PyStr → Json F} {name : PyStr}
    (h : name ∈ columns) :
    Json.getItem (columns.map (fun c => (c, column c))) name = some (column name) := by
  induction columns with
  | nil => cases h
  | cons first rest ih =>
    rw [List.map_cons, Json.getItem]
    by_cases hSame : first = name
    · rw [if_pos hSame, hSame]
    · rw [if_neg hSame]
      rcases List.mem_cons.mp h with hHead | hRest
      · exact absurd hHead.symm hSame
      · exact ih hRest

theorem field_projectRow {columns : List PyStr} {column : PyStr → Json F} (key : String)
    (h : pyStr key ∈ columns) :
    field (columns.map (fun c => (c, column c))) key = column (pyStr key) := by
  unfold field
  rw [getItem_projectRow h]
  rfl

theorem rowKeys_projectRow {columns fullColumns needed : List PyStr} {column : PyStr → Json F}
    (hFull : columns ⊆ fullColumns)
    (hNeeded : needed ⊆ columns) :
    rowKeys (columns.map (fun c => (c, column c))) fullColumns needed = .ok () := by
  have hAll : (columns.map (fun c => (c, column c))).all (fun m => m.1 ∈ fullColumns) = true := by
    rw [List.all_eq_true]
    intro m hm
    rcases List.mem_map.mp hm with ⟨c, hc, rfl⟩
    exact decide_eq_true (hFull hc)
  have hSome : needed.all (fun k => (Json.getItem
        (columns.map (fun c => (c, column c))) k).isSome) = true := by
    rw [List.all_eq_true]
    intro k hk
    rw [getItem_projectRow (hNeeded hk)]
    rfl
  unfold rowKeys
  rw [hAll, hSome]
  rfl

-- Field Gates

section Gates

variable {row : Members F} {key : String}

theorem rowTime_real [BoundedFloat F] {start stop epoch : F} (hField : field row key = realColumn epoch)
    (h : InWindow start stop epoch) :
    rowTime row key start stop = .ok ⟨PyFloat.toRat epoch, epoch⟩ := by
  unfold rowTime
  rw [hField]
  change (if PyFloat.toRat epoch < PyFloat.toRat start ∨ PyFloat.toRat stop ≤ PyFloat.toRat epoch then
    Except.error Stop.outside else _) = _
  rw [if_neg]
  rw [not_or, not_lt, not_le]
  exact h

theorem rowCount_nonneg {n : ℤ} (hField : field row key = .int n)
    (h : 0 ≤ n) : rowCount row key = .ok n.toNat := by
  unfold rowCount
  rw [hField]
  dsimp only
  rw [if_neg (not_lt.mpr h)]

theorem rowFlag_bit {n : ℤ} (hField : field row key = .int n)
    (h : n = 0 ∨ n = 1) : rowFlag row key = .ok (n = 1) := by
  unfold rowFlag
  rw [hField]
  rcases h with rfl | rfl <;> rfl

theorem rowOneOf_token {α : Type} {all : List α} {token : α → PyStr} {a : α}
    (hToken : ofToken? all token (token a) = some a)
    (hField : field row key = .str (token a)) : rowOneOf row key all token = .ok a := by
  unfold rowOneOf tokenOf?
  rw [hField]
  dsimp only
  rw [hToken]

end Gates

-- Vocabularies

theorem deviceReason_token (a : DeviceReason) :
    ofToken? DeviceReason.all DeviceReason.token a.token = some a := by
  cases a <;> rfl

theorem probeStatus_token (a : ProbeStatus) :
    ofToken? ProbeStatus.all ProbeStatus.token a.token = some a := by
  cases a <;> rfl

theorem probeCode_token (a : ProbeCode) : ofToken? ProbeCode.all ProbeCode.token a.token = some a := by
  cases a <;> rfl

theorem egressChange_token (a : EgressChange) :
    ofToken? EgressChange.all EgressChange.token a.token = some a := by
  cases a <;> rfl

theorem apiStatus_token (a : ApiStatus) : ofToken? ApiStatus.all ApiStatus.token a.token = some a := by
  cases a <;> rfl

theorem journalClass_token (a : JournalClass) :
    ofToken? JournalClass.all JournalClass.token a.token = some a := by
  cases a <;> rfl

theorem journalProto_token (a : JournalProto) :
    ofToken? JournalProto.all JournalProto.token a.token = some a := by
  cases a <;> rfl

theorem journalDcls_token (a : JournalDcls) :
    ofToken? JournalDcls.all JournalDcls.token a.token = some a ∧ a.token ≠ pyStr "NONE" := by
  cases a <;> exact ⟨rfl, by decide⟩

theorem auditKind_token (a : AuditKind) : ofToken? auditKinds auditKindToken (auditKindToken a) = some a := by
  cases a <;> rfl

theorem auditCode_token (a : AuditCode) : ofToken? AuditCode.all AuditCode.token a.token = some a := by
  cases a <;> rfl

-- Row Gates

/- A sample row as the store projects it. -/
structure SampleRecord.Sound (row : SampleRecord F) : Prop where
  stale : row.collectorStale = 0 ∨ row.collectorStale = 1
  api : ∀ text ∈ row.apiStatus, ∃ a : ApiStatus, text = a.token
  total : 0 ≤ row.total
  reality : 0 ≤ row.reality
  hysteria2 : 0 ≤ row.hysteria2
  other : 0 ≤ row.other

def DeviceRecord.Sound (row : DeviceRecord F) : Prop := 0 ≤ row.activeConnections

variable [BoundedFloat F] {start stop : F}

/- A finite float as the gate reads it. -/
def stampOf (epoch : F) : Stamp F := ⟨PyFloat.toRat epoch, epoch⟩

/- The members of a projected row. -/
abbrev membersOf (columns : List PyStr) (column : PyStr → Json F) : Members F :=
  columns.map (fun name => (name, column name))

omit [BoundedFloat F] in
theorem rowApi_ok {row : Members F} {api : Option PyStr} (hField : field row "api_status" = textOrNull api)
    (h : ∀ text ∈ api, ∃ a : ApiStatus, text = a.token) : ∃ a, rowApi row = .ok a := by
  unfold rowApi
  rw [hField]
  cases api with
  | none => exact ⟨none, rfl⟩
  | some text =>
    rcases h text rfl with ⟨a, rfl⟩
    refine ⟨some a, ?_⟩
    unfold textOrNull tokenOf?
    dsimp only
    rw [apiStatus_token]

theorem readSample_ok {row : SampleRecord F} (h : row.Sound)
    (hWindow : InWindow start stop row.epoch) : ∃ api, readSample start stop (sampleJson row) =
        .ok ⟨stampOf row.epoch, row.collectorStale = 1, row.total.toNat, row.reality.toNat,
          row.hysteria2.toNat, row.other.toNat, api⟩ := by
  have hField : ∀ key, pyStr key ∈ sampleColumns →
        field (membersOf sampleColumns row.column) key = row.column (pyStr key) :=
    fun key hKey => field_projectRow key hKey
  have hKeys : rowKeys (membersOf sampleColumns row.column) sampleRowColumns sampleFields = .ok () :=
    rowKeys_projectRow (by decide) (by decide)
  have hEpoch := rowTime_real (hField "epoch" (by decide)) hWindow
  have hStale := rowFlag_bit (hField "collector_stale" (by decide)) h.stale
  have hTotal := rowCount_nonneg (hField "total_active_connections" (by decide)) h.total
  have hReality := rowCount_nonneg (hField "reality_active_connections" (by decide)) h.reality
  have hHysteria2 := rowCount_nonneg (hField "hysteria2_active_connections" (by decide)) h.hysteria2
  have hOther := rowCount_nonneg (hField "other_active_connections" (by decide)) h.other
  rcases rowApi_ok (hField "api_status" (by decide)) h.api with ⟨api, hApi⟩
  refine ⟨api, ?_⟩
  unfold readSample sampleJson projectRow
  dsimp only
  rw [hKeys, hEpoch, hStale, hTotal, hReality, hHysteria2, hOther, hApi]
  rfl

theorem readDevice_ok {row : DeviceRecord F} (h : row.Sound) (hWindow : InWindow start stop row.epoch) :
    readDevice start stop (deviceJson row) =
      .ok ⟨stampOf row.epoch, .str row.device, .str row.inbound, row.activeConnections.toNat⟩ := by
  have hField : ∀ key, pyStr key ∈ deviceStateColumns →
        field (membersOf deviceStateColumns row.column) key = row.column (pyStr key) :=
    fun key hKey => field_projectRow key hKey
  have hKeys : rowKeys (membersOf deviceStateColumns row.column) deviceRowColumns deviceFields = .ok () :=
    rowKeys_projectRow (by decide) (by decide)
  have hEpoch := rowTime_real (hField "epoch" (by decide)) hWindow
  have hActive := rowCount_nonneg (hField "active_connections" (by decide)) h
  have hReason := rowOneOf_token (deviceReason_token row.reason) (hField "reason" (by decide))
  unfold readDevice deviceJson projectRow
  dsimp only
  rw [hKeys, hEpoch, hActive, hReason, hField "device" (by decide), hField "inbound" (by decide)]
  rfl

omit [BoundedFloat F] in
theorem rowProbe_slot {row : Members F} {statusKey codeKey : String} {slot : SlotRecord}
    (hStatus : field row statusKey = .str slot.status.token)
    (hCode : field row codeKey = .str slot.code.token) :
    rowProbe row statusKey codeKey = .ok slot.toSlotAnswer := by
  unfold rowProbe
  rw [rowOneOf_token (probeStatus_token _) hStatus, rowOneOf_token (probeCode_token _) hCode]
  change (if h : slot.status = .ok ↔ slot.code = .none then
    Except.ok (⟨slot.status, slot.code, h⟩ : SlotAnswer)
    else Except.error Stop.shape) = _
  rw [dif_pos slot.paired]

theorem readProbe_ok {row : ProbeRecord F} (hWindow : InWindow start stop row.epoch) :
    readProbe start stop (probeJson row) = .ok ⟨stampOf row.epoch, row.dns.toSlotAnswer,
        row.https.toSlotAnswer, row.udp.toSlotAnswer,
        row.egress.toSlotAnswer, row.egressChange⟩ := by
  have hField : ∀ key, pyStr key ∈ probeColumns →
        field (membersOf probeColumns row.column) key = row.column (pyStr key) :=
    fun key hKey => field_projectRow key hKey
  have hKeys : rowKeys (membersOf probeColumns row.column) probeRowColumns probeFields = .ok () :=
    rowKeys_projectRow (by decide) (by decide)
  have hEpoch := rowTime_real (hField "epoch" (by decide)) hWindow
  have hDns := rowProbe_slot (hField "dns_status" (by decide))
    (hField "dns_error_code" (by decide))
  have hHttps := rowProbe_slot (hField "https_status" (by decide))
    (hField "https_error_code" (by decide))
  have hUdp := rowProbe_slot (hField "udp_status" (by decide))
    (hField "udp_error_code" (by decide))
  have hEgress := rowProbe_slot (hField "egress_status" (by decide))
    (hField "egress_error_code" (by decide))
  have hChange := rowOneOf_token (egressChange_token row.egressChange) (hField "egress_change" (by decide))
  unfold readProbe probeJson projectRow
  dsimp only
  rw [hKeys, hEpoch, hDns, hHttps, hUdp, hEgress, hChange]
  rfl

theorem readAudit_ok {row : JournalIngest.AuditRow F} (hWindow : InWindow start stop row.epoch) :
    readAudit start stop (auditJson row) = .ok ⟨stampOf row.epoch, row.kind, row.code⟩ := by
  have hField : ∀ key, pyStr key ∈ journalAuditColumns →
        field (membersOf journalAuditColumns (auditColumn row)) key = auditColumn row (pyStr key) :=
    fun key hKey => field_projectRow key hKey
  have hKeys : rowKeys (membersOf journalAuditColumns (auditColumn row))
        auditRowColumns auditFields = .ok () :=
    rowKeys_projectRow (by decide) (by decide)
  have hEpoch := rowTime_real (hField "epoch" (by decide)) hWindow
  have hKind := rowOneOf_token (auditKind_token row.kind) (hField "kind" (by decide))
  have hCode := rowOneOf_token (auditCode_token row.code) (hField "code" (by decide))
  unfold readAudit auditJson projectRow
  dsimp only
  rw [hKeys, hEpoch, hKind, hCode]
  rfl

-- The Journal Gate

/- A row without a destination class names no port. -/
def Paired (row : JournalEvent F) : Prop := row.dcls = none → row.port = 0

instance (row : JournalEvent F) : Decidable (Paired row) := by
  unfold Paired
  infer_instance

omit [BoundedFloat F] in
theorem rowDcls_text {row : Members F} {dcls : Option JournalDcls}
    (hField : field row "dcls" = .str (dclsText dcls)) : rowDcls row = .ok dcls := by
  unfold rowDcls
  rw [hField]
  cases dcls with
  | none => rfl
  | some d =>
    have hToken := journalDcls_token d
    unfold dclsText
    dsimp only
    rw [if_neg hToken.2]
    unfold tokenOf?
    dsimp only
    rw [hToken.1]

omit [BoundedFloat F] in
theorem rowPort_range {row : Members F} {port : ℤ} (hField : field row "port" = .int port)
    (h : 0 ≤ port ∧ port ≤ 65535) : rowPort row = .ok port.toNat := by
  unfold rowPort
  rw [hField]
  dsimp only
  rw [if_pos h]

omit [BoundedFloat F] in
theorem rowEvents_pos {row : Members F} {n : ℤ} (hField : field row "n" = .int n)
    (h : 1 ≤ n) : rowEvents row = .ok n.toNat := by
  unfold rowEvents
  rw [hField]
  dsimp only
  rw [if_neg (not_lt.mpr h)]

/- The record of a journal row that passes. -/
def passedRow (row : JournalEvent F) : JournalRow F :=
  ⟨stampOf row.ts, row.cls, row.proto, row.port.toNat, row.dcls, row.n.toNat⟩

theorem readJournal_eq {row : JournalEvent F} (h : row.Checked) (hWindow : InWindow start stop row.ts) :
    readJournal start stop (eventJson row) =
      if Paired row then .ok (passedRow row)
      else .error .shape := by
  rcases h with ⟨_, hPort, _, hCount, _, hDcls⟩
  have hField : ∀ key, pyStr key ∈ journalEventColumns →
        field (membersOf journalEventColumns (eventColumn row)) key = eventColumn row (pyStr key) :=
    fun key hKey => field_projectRow key hKey
  have hKeys : rowKeys (membersOf journalEventColumns (eventColumn row))
        journalEventRowColumns journalFields = .ok () :=
    rowKeys_projectRow (by decide) (by decide)
  have hTs := rowTime_real (hField "ts" (by decide)) hWindow
  have hPortGate := rowPort_range (hField "port" (by decide)) hPort
  have hCls := rowOneOf_token (journalClass_token row.cls) (hField "cls" (by decide))
  have hProto := rowOneOf_token (journalProto_token row.proto) (hField "proto" (by decide))
  have hDclsGate := rowDcls_text (hField "dcls" (by decide))
  have hEvents := rowEvents_pos (hField "n" (by decide)) hCount
  unfold readJournal eventJson projectRow
  dsimp only
  rw [hKeys, hTs]
  change rowJournal (membersOf journalEventColumns (eventColumn row)) _ = _
  unfold rowJournal
  rw [hPortGate, hCls, hProto, hDclsGate]
  change (if row.dcls = none ∧ row.port.toNat ≠ 0 then
    Except.error Stop.shape
    else if row.dcls ≠ none ∧ row.port.toNat < 1 then
      Except.error Stop.shape
    else _) = _
  -- the table's own check leaves the second branch unreachable
  have hNamed : ¬ (row.dcls ≠ none ∧ row.port.toNat < 1) := by
    rintro ⟨hSome, hZero⟩
    rcases hDcls with hNone | hPositive
    · exact hSome hNone
    · omega
  rw [if_neg hNamed]
  by_cases hPaired : Paired row
  · rw [if_pos hPaired, if_neg, hEvents]
    · rfl
    · rintro ⟨hNone, hSome⟩
      have hZero := hPaired hNone
      omega
  · rw [if_neg hPaired, if_pos]
    unfold Paired at hPaired
    push Not at hPaired
    exact ⟨hPaired.1, by omega⟩

-- The Bundle

omit [BoundedFloat F] in
theorem scanRows_ok {α : Type} {sec : Section} {read : Json F → Gate α} {rows : List (Json F)}
    (h : ∀ row ∈ rows, ∃ a, read row = .ok a) : scanRows sec read rows = .ok ∅ := by
  induction rows with
  | nil => rfl
  | cons row rows ih =>
    rcases h row List.mem_cons_self with ⟨a, hRow⟩
    unfold scanRows
    rw [hRow]
    exact ih (fun r hr => h r (List.mem_cons_of_mem row hr))

omit [BoundedFloat F] in
theorem scanRows_shape {α : Type} {sec : Section} {read : Json F → Gate α} {rows : List (Json F)}
    (h : ∀ row ∈ rows, (∃ a, read row = .ok a) ∨ read row = .error .shape)
    (hStop : ∃ row ∈ rows, read row = .error .shape) :
    scanRows sec read rows = .ok {.evidenceRejected sec} := by
  induction rows with
  | nil =>
    rcases hStop with ⟨row, hMem, _⟩
    cases hMem
  | cons row rows ih =>
    unfold scanRows
    rcases h row List.mem_cons_self with ⟨a, hRow⟩ | hRow
    · rw [hRow]
      apply ih (fun r hr => h r (List.mem_cons_of_mem row hr))
      rcases hStop with ⟨bad, hMem, hBad⟩
      rcases List.mem_cons.mp hMem with rfl | hRest
      · rw [hRow] at hBad
        cases hBad
      · exact ⟨bad, hRest, hBad⟩
    · rw [hRow]

/- An aligned window of one to sixty buckets. -/
structure AlignedWindow (start stop : F) : Prop where
  nonneg : 0 ≤ PyFloat.toRat start
  startAligned : aligned start
  stopAligned : aligned stop
  low : PyFloat.toRat start + bucketSeconds ≤ PyFloat.toRat stop
  high : PyFloat.toRat stop ≤ PyFloat.toRat start + maxBuckets * bucketSeconds

theorem windowOf_aligned (h : AlignedWindow start stop) :
    ∃ w : Window F, windowOf start stop = some w ∧ w.start = start ∧ w.stop = stop := by
  have hSixty := BoundedFloat.exact (F := F) 60 (by norm_num)
  have hHour := BoundedFloat.exact (F := F) 3600 (by norm_num)
  have hLow : bucketSeconds ≤ PyFloat.toRat (spanOf start stop) := by
    have hSpan := h.low
    unfold spanOf bucketSeconds at *
    have hMono := PyFloat.round_mono (F := F) (show ((60 : ℤ) : ℚ) ≤
        PyFloat.toRat stop - PyFloat.toRat start by
          push_cast
          linarith)
    rw [hSixty] at hMono
    exact_mod_cast hMono
  have hHigh : PyFloat.toRat (spanOf start stop) ≤ maxBuckets * bucketSeconds := by
    have hSpan := h.high
    unfold spanOf maxBuckets bucketSeconds at *
    have hMono := PyFloat.round_mono (F := F)
      (show PyFloat.toRat stop - PyFloat.toRat start ≤ ((3600 : ℤ) : ℚ) by
          push_cast at hSpan ⊢
          linarith)
    rw [hHour] at hMono
    push_cast at hMono ⊢
    linarith
  refine ⟨⟨start, stop, h.nonneg, h.startAligned, h.stopAligned, hLow, hHigh⟩, ?_, rfl, rfl⟩
  unfold windowOf
  rw [dif_pos h.nonneg, dif_pos h.startAligned, dif_pos h.stopAligned, dif_pos hLow, dif_pos hHigh]

/- The rows of the tables are those the store persists. -/
structure EvidenceTables.Sound (tables : EvidenceTables F) :
    Prop where
  samples : ∀ row ∈ tables.samples, row.Sound
  devices : ∀ row ∈ tables.devices, row.Sound
  events : ∀ row ∈ tables.events, row.Checked

section Evidence

variable {tables : EvidenceTables F} {degraded : Bool}
variable {code : Option HistoryCode} {status : ReaderStatus}

omit [BoundedFloat F] in
theorem readHealth_evidence (rows : EvidenceRows F) :
    readHealth (.obj (healthSection rows)) = some rows.degraded := by
  unfold healthSection
  cases rows.lastErrorCode with
  | none => rfl
  | some code => cases code <;> rfl

omit [BoundedFloat F] in
theorem readReader_evidence (status : ReaderStatus) :
    readReader (F := F) (.obj (readerSection status)) = some status := by
  cases status <;> rfl

theorem sectionRefusals_ok {α β : Type} {sec : Section} {read : Json F → Gate α}
    {rows : List β} {json : β → Json F}
    (hBudget : (rows.map json).length ≤ classifierBundleRowBudget)
    (h : ∀ row ∈ rows, ∃ a, read (json row) = .ok a) :
    sectionRefusals sec read (.arr (rows.map json)) = .ok ∅ := by
  have hWithin : ¬ maxRecordsPerSection < (rows.map json).length := not_lt.mpr hBudget
  unfold sectionRefusals
  dsimp only
  rw [if_neg hWithin]
  apply scanRows_ok
  intro row hMem
  rcases List.mem_map.mp hMem with ⟨record, hRecord, rfl⟩
  exact h record hRecord

/- The journal section passes exactly if its rows are paired. -/
theorem journalRefusals_eq {rows : List (JournalEvent F)}
    (hBudget : (rows.map eventJson).length ≤ classifierBundleRowBudget)
    (hChecked : ∀ row ∈ rows, row.Checked)
    (hWindow : ∀ row ∈ rows, InWindow start stop row.ts) :
    sectionRefusals .journalEvents (readJournal start stop) (.arr (rows.map eventJson)) =
      if ∀ row ∈ rows, Paired row then .ok ∅
      else .ok {.evidenceRejected .journalEvents} := by
  have hRead : ∀ row ∈ rows, readJournal start stop (eventJson row) =
        if Paired row then .ok (passedRow row)
        else .error .shape :=
    fun row hRow => readJournal_eq (hChecked row hRow) (hWindow row hRow)
  split
  · rename_i hPaired
    apply sectionRefusals_ok hBudget
    intro row hRow
    rw [hRead row hRow, if_pos (hPaired row hRow)]
    exact ⟨_, rfl⟩
  · rename_i hUnpaired
    push Not at hUnpaired
    rcases hUnpaired with ⟨bad, hBad, hShape⟩
    have hWithin : ¬ maxRecordsPerSection < (rows.map eventJson).length := not_lt.mpr hBudget
    unfold sectionRefusals
    dsimp only
    rw [if_neg hWithin]
    apply scanRows_shape
    · intro row hMem
      rcases List.mem_map.mp hMem with ⟨record, hRecord, rfl⟩
      rw [hRead record hRecord]
      split
      · exact Or.inl ⟨_, rfl⟩
      · exact Or.inr rfl
    · refine ⟨eventJson bad, List.mem_map_of_mem hBad, ?_⟩
      rw [hRead bad hBad, if_neg hShape]

/-
  What the gate makes of the bundle of an aligned window of
  the tables: nothing is refused, or the journal section is.
-/
theorem refusals_evidence (hSound : tables.Sound) (hWindow : AlignedWindow start stop)
    (hBudget : (evidenceRows tables degraded code start stop).WithinBudget) :
    refusals (.obj (bundleOf start stop status (evidenceRows tables degraded code start stop))) =
      if ∀ row ∈ selectRows JournalEvent.ts start stop tables.events,
          Paired row then .ok ∅
      else .ok {.evidenceRejected .journalEvents} := by
  rcases windowOf_aligned hWindow with ⟨w, hw, rfl, rfl⟩
  have hOrder : PyFloat.toRat w.start < PyFloat.toRat w.stop := by
    have hLow := hWindow.low
    unfold bucketSeconds at hLow
    linarith
  rcases hBudget with ⟨hSamples, hDevices, hProbes, hEvents, hAudit⟩
  have hSampleRows : sectionRefusals .samples (readSample w.start w.stop)
        (.arr ((selectRows SampleRecord.epoch w.start w.stop tables.samples).map sampleJson)) = .ok ∅ := by
    apply sectionRefusals_ok hSamples
    intro row hRow
    rcases mem_selectRows.mp hRow with ⟨hMem, hIn⟩
    rcases readSample_ok (hSound.samples row hMem) hIn with ⟨api, hRead⟩
    exact ⟨_, hRead⟩
  have hDeviceRows : sectionRefusals .deviceStates (readDevice w.start w.stop)
        (.arr ((selectRows DeviceRecord.epoch w.start w.stop tables.devices).map deviceJson)) = .ok ∅ := by
    apply sectionRefusals_ok hDevices
    intro row hRow
    rcases mem_selectRows.mp hRow with ⟨hMem, hIn⟩
    exact ⟨_, readDevice_ok (hSound.devices row hMem) hIn⟩
  have hProbeRows : sectionRefusals .probeRows (readProbe w.start w.stop)
        (.arr ((selectRows ProbeRecord.epoch w.start w.stop tables.probes).map probeJson)) = .ok ∅ := by
    apply sectionRefusals_ok hProbes
    intro row hRow
    exact ⟨_, readProbe_ok (mem_selectRows.mp hRow).2⟩
  have hAuditRows : sectionRefusals .audit (readAudit w.start w.stop)
        (.arr ((selectRows JournalIngest.AuditRow.epoch w.start
          w.stop tables.audit).map auditJson)) = .ok ∅ := by
    apply sectionRefusals_ok hAudit
    intro row hRow
    exact ⟨_, readAudit_ok (mem_selectRows.mp hRow).2⟩
  have hJournalRows := journalRefusals_eq hEvents
    (fun row hRow => hSound.events row (mem_selectRows.mp hRow).1)
    (fun row hRow => (mem_selectRows.mp hRow).2)
  unfold refusals
  dsimp only
  rw [knownKeys_bundleOf, validWindow_bundleOf hWindow.nonneg hOrder, hw]
  change rowRefusals _ w = _
  unfold rowRefusals
  change (do
    let samples ← sectionRefusals .samples (readSample w.start w.stop) (.arr _)
    let devices ← sectionRefusals .deviceStates (readDevice w.start w.stop) (.arr _)
    let probes ← sectionRefusals .probeRows (readProbe w.start w.stop) (.arr _)
    let journal ← sectionRefusals .journalEvents (readJournal w.start w.stop) (.arr _)
    let audit ← sectionRefusals .audit (readAudit w.start w.stop) (.arr _)
    pure ((if (readHealth (.obj (healthSection _))).isSome then ∅
        else {UnknownToken.evidenceRejected .health}) ∪
      (if (readReader (F := F) (.obj (readerSection status))).isSome then ∅
        else {UnknownToken.evidenceRejected .reader}) ∪
      samples ∪ devices ∪ probes ∪ journal ∪ audit)) = _
  rw [readHealth_evidence, readReader_evidence]
  unfold evidenceRows
  dsimp only
  rw [hSampleRows, hDeviceRows, hProbeRows, hJournalRows, hAuditRows]
  split
  · rfl
  · rfl

end Evidence

end SingboxOps.EvidenceStore
