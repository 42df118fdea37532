import SingboxOps.Classifier.Aggregate
import Mathlib.Data.Finset.Image

/-
  The verdict of the incident classifier: the anomaly of each
  candidate bucket, what the window shows besides, and the
  decision list over both.
-/

namespace SingboxOps.Classifier

open JournalIngest (JournalDcls AuditCode)

variable {F : Type} [BoundedFloat F]

-- The Window's Statistics

/- The per-bucket statistics the analysis judges. -/
structure Facts (F : Type) where
  samples : List (SampleStats F)
  devices : List DeviceStats
  probes : List ProbeStats
  journal : List JournalStats
  audit : AuditView

/- A bucket of no rows. -/
def SampleStats.empty : SampleStats F :=
  ⟨0, PyFloat.round 0, PyFloat.round 0, PyFloat.round 0, PyFloat.round 0, 0, 0⟩

def Facts.sampleAt (facts : Facts F) (index : ℕ) : SampleStats F := facts.samples.getD index SampleStats.empty

def Facts.deviceAt (facts : Facts F) (index : ℕ) : DeviceStats := facts.devices.getD index ⟨0, false⟩

def Facts.probeAt (facts : Facts F) (index : ℕ) : ProbeStats :=
  facts.probes.getD index (probeStats ([] : List (ProbeRow F)))

def Facts.journalAt (facts : Facts F) (index : ℕ) : JournalStats :=
  facts.journal.getD index (journalStats ([] : List (JournalRow F)))

/- Every statistic of a bundle, bucket by bucket. -/
def gather (b : Bundle F) : Except Raised (Facts F) := do
  let start := b.window.start
  let buckets := b.window.buckets
  let samples ← forBuckets (fun i =>
    sampleStats (bucketed SampleRow.epoch start b.samples i))
    buckets
  let pairs ← forBuckets (fun i =>
    pairRows (bucketed DeviceRow.epoch start b.deviceStates i))
    buckets
  let pairsKnown := pairsSeen pairs.flatten
  pure { samples
         devices := pairs.map (deviceStats pairsKnown)
         probes := (List.range buckets).map (fun i =>
           probeStats (bucketed ProbeRow.epoch start b.probeRows i))
         journal := (List.range buckets).map (fun i =>
           journalStats
             (bucketed JournalRow.ts start b.journalEvents i))
         audit := auditView ((List.range buckets).flatMap
           (bucketed AuditRow.epoch start b.audit)) }

-- Anomalies

/- The planes an anomaly can show on. -/
inductive Family where
  | connections
  | journal
  | probe
  | process
deriving DecidableEq

/- `CORROBORATING_FAMILIES` -/
def Family.corroborating : Finset Family := {.journal, .probe, .process}

/- What one bucket, or several together, show. -/
structure Marks where
  connections : Finset CountField
  device : Bool
  journal : Finset JournalKey
  probe : Finset ProbeSlot
  process : Finset EvidenceToken

def Marks.families (m : Marks) : Finset Family := (if m.process = ∅ then ∅ else {.process}) ∪
    (if m.connections = ∅ ∧ m.device = false then ∅
      else {.connections}) ∪
    (if m.journal = ∅ then ∅ else {.journal}) ∪
    (if m.probe = ∅ then ∅ else {.probe})

/- `max(1, int(rows * 0.5))` -/
def staleFloor (rows : ℕ) : ℕ := max 1 (rows / 2)

/- The process marks of a bucket. -/
def processMarks (windowHasSamples : Bool) (stats : SampleStats F) : Finset EvidenceToken :=
  (if windowHasSamples ∧ stats.rows < minSamplesPerBucket then
      {.sampleCoverageGap} else ∅) ∪
    (if stats.rows ≠ 0 ∧ staleFloor stats.rows ≤ stats.stale then
      {.apiStale} else ∅) ∪
    (if stats.rows ≠ 0 ∧ staleFloor stats.rows ≤ stats.collectorStale then
      {.collectorStale} else ∅)

/-
  A count that fell by three clients and to half of a baseline
  of at least five.
-/
def countDropped (base : ExtFloat F) (value : F) : Bool := (ExtFloat.ofRat 5).le base &&
    (ExtFloat.ofRat 3).le (base.sub (.finite value)) &&
    (ExtFloat.finite value).le (base.scale (1 / 2))

/- Whether a count dropped against the baseline's mean. -/
def connectionMark (reference : Reference F) (stats : SampleStats F) (name : CountField) : Bool :=
  match reference.mean name with
  | none => false
  | some base => countDropped base (stats.mean name)

/- The count drops of a bucket with enough samples. -/
def connectionMarks (reference : Reference F) (stats : SampleStats F) : Finset CountField :=
  if reference.usable ∧ minSamplesPerBucket ≤ stats.rows then
    CountField.all.toFinset.filter (fun name => connectionMark reference stats name)
  else ∅

/- The keys that burst in a bucket. -/
def journalMarks (reference : Reference F) (stats : JournalStats) : Finset JournalKey :=
  stats.keys.filter (fun key => (reference.threshold key).leInt (stats.count key))

/- The slots whose run of failures covers a bucket. -/
def probeMarks (probes : List ProbeStats) (index : ℕ) : Finset ProbeSlot :=
  ProbeSlot.all.toFinset.filter (fun slot => index ∈ probeFailures probes slot)

/- Whether the window holds a sample at all. -/
def Facts.hasSamples (facts : Facts F) : Bool := facts.samples.any (fun stats => stats.rows ≠ 0)

/- The marks of `_bucket_anomaly`. -/
def bucketMarks (facts : Facts F) (reference : Reference F) (index : ℕ) : Marks where
  connections := connectionMarks reference (facts.sampleAt index)
  device := (facts.deviceAt index).allQuiet
  journal := journalMarks reference (facts.journalAt index)
  probe := probeMarks facts.probes index
  process := processMarks facts.hasSamples (facts.sampleAt index)

/- The buckets after the baseline that show anything. -/
def candidates (facts : Facts F) (reference : Reference F) (buckets : ℕ) : List ℕ :=
  (List.range' minBaselineBuckets (buckets - minBaselineBuckets)).filter
    (fun i => (bucketMarks facts reference i).families ≠ ∅)

-- Health

/- All generic slots answered, and none of them failed. -/
def bucketTcpHealthy (stats : ProbeStats) : Bool := ProbeSlot.generic.all (fun slot =>
    0 < (stats.slot slot).ok && (stats.slot slot).network = 0 && (stats.slot slot).unusable = 0)

/- `_generic_tcp_healthy` -/
def genericTcpHealthy (facts : Facts F) (indices : List ℕ) : Bool :=
  probeHealthMinBuckets ≤ indices.countP (fun i => bucketTcpHealthy (facts.probeAt i))

/- `_api_healthy` -/
def apiHealthy (facts : Facts F) (indices : List ℕ) : Bool := !indices.isEmpty && indices.all (fun i =>
      (facts.sampleAt i).rows ≠ 0 && (facts.sampleAt i).stale = 0 && (facts.sampleAt i).collectorStale = 0)

/- What the journal can prove by silence. -/
inductive JournalView where
  | complete
  | incomplete
  | absent
deriving DecidableEq

/- `_journal_view_state` -/
def journalViewState (reader : ReaderStatus) (audit : AuditView) : JournalView :=
  if audit.gap ∨ audit.rejected then .incomplete
  else
    match reader with
    | .fresh => .complete
    | .stale | .invalid | .unreadable => .incomplete
    | .disabled | .absent => .absent

-- Observations

/- The evidence and unknown tokens gathered so far. -/
structure Notes where
  seen : Finset EvidenceToken
  unknown : Finset UnknownToken

def Notes.see (notes : Notes) (p : Bool) (t : EvidenceToken) : Notes :=
  if p then { notes with seen := insert t notes.seen } else notes

def Notes.lack (notes : Notes) (p : Bool) (t : UnknownToken) : Notes :=
  if p then { notes with unknown := insert t notes.unknown }
  else notes

/- `_observations` -/
def observations (facts : Facts F) (degraded : Bool) : Notes :=
  let classes := facts.journal.foldr (fun j cs => j.classes ∪ cs) ∅
  let unusable := facts.probes.any (fun stats =>
    ProbeSlot.all.any (fun slot => (stats.slot slot).unusable ≠ 0))
  let notes : Notes :=
    { seen := classes.image .journalCls ∪
        facts.audit.codes.image .journalAudit
      unknown := ∅ }
  notes
    |>.see facts.audit.gap .journalContinuityGap
    |>.see facts.audit.rejected .journalRejectedBatch
    |>.see (facts.samples.any
        (fun stats => stats.rows ≠ 0 && stats.stale ≠ 0)) .apiStale
    |>.see (facts.probes.any (fun stats => stats.changed ≠ 0))
        .egressIpChanged
    |>.see degraded .historyDegraded
    |>.see unusable .probeSourceUnavailable
    |>.lack unusable .probeEvidenceUnusable
    |>.lack (!facts.hasSamples) .baselineEvidenceAbsent
    |>.lack (!facts.probes.any (fun stats => stats.rows ≠ 0))
        .probeEvidenceAbsent

/- What the journal's view adds to the unknowns. -/
def Notes.viewed (notes : Notes) (view : JournalView) : Notes := match view with
  | .complete => notes
  | .incomplete => notes.lack true .journalEvidenceIncomplete
  | .absent => notes.lack true .journalEvidenceAbsent

-- Collecting

/- Where a burst points, by its protocol and destination. -/
def JournalKey.place (key : JournalKey) : BurstPlace := match key.proto with
  | .reality => .reality
  | .hysteria2 => .hysteria2
  | .other =>
    match key.dcls with
    | some .https443 | some .http80 => .generic
    | some _ => .destination
    | none => .unattributed

/- The marks of some buckets together. -/
def mergedMarks (facts : Facts F) (reference : Reference F) (indices : List ℕ) : Marks :=
  indices.foldr (fun i m =>
      let marks := bucketMarks facts reference i
      { connections := marks.connections ∪ m.connections
        device := marks.device || m.device
        journal := marks.journal ∪ m.journal
        probe := marks.probe ∪ m.probe
        process := marks.process ∪ m.process })
    ⟨∅, false, ∅, ∅, ∅⟩

/- The attribution facts. -/
structure Flags where
  reality : Bool
  hy2 : Bool
  genericJournal : Bool
  genericProbe : Bool
  process : Bool
  unattributed : Bool
  realityImpact : Bool
  hy2Impact : Bool
  destination : Finset (Option JournalDcls × ℕ)

/- Whether a burst of the marks points to a place. -/
def Marks.points (m : Marks) (place : BurstPlace) : Bool :=
  decide (∃ key ∈ m.journal, key.place = place)

/- The facts `_collect` folds the marks into. -/
def Marks.flags (m : Marks) : Flags where
  reality := m.points .reality
  hy2 := m.points .hysteria2
  genericJournal := m.points .generic
  genericProbe := decide (∃ slot ∈ m.probe, slot ∈ ProbeSlot.generic)
  process := decide (m.process ≠ ∅)
  unattributed := m.points .unattributed
  realityImpact := decide (.reality ∈ m.connections)
  hy2Impact := decide (.hysteria2 ∈ m.connections)
  destination := (m.journal.filter (fun key => key.place = .destination)).image
      (fun key => (key.dcls, key.port))

/- The tokens `_collect` records of the marks. -/
def Notes.collected (notes : Notes) (m : Marks) : Notes :=
  let notes : Notes :=
    { seen :=
        notes.seen ∪ m.connections.image .countDrop ∪
          m.process ∪ m.probe.image .probeFailed ∪
          m.journal.image (fun key => .journalBurst key.place)
      unknown := notes.unknown }
  notes
    |>.see m.device .allDevicesQuiet
    |>.lack m.device .deviceStatesAreChangeOnly

-- Attribution

/- `_guarded`: a path only where its negatives are provable. -/
def guarded (category : Category) (unattributed negativesProvable probeSeen : Bool)
    (notes : Notes) : Category × Notes :=
  let notes := notes.lack unattributed .unattributedEvidencePresent
  if !negativesProvable then
    (.insufficient, notes.lack true .transportNegativesUnproven)
  else (category, notes.lack (!probeSeen) .probeEvidenceAbsent)

/- Both transports lost clients in the buckets judged. -/
def Flags.sharedImpact (flags : Flags) : Bool := flags.realityImpact && flags.hy2Impact

/- Evidence on the network's side. -/
def Flags.network (flags : Flags) : Bool := flags.reality || flags.hy2 || flags.genericJournal ||
    flags.genericProbe || flags.destination ≠ ∅ ||
    flags.sharedImpact

/- `_attribute`: the category of an incident. -/
def attributed (flags : Flags) (probeSeen negativesProvable genericHealthy apiHealthy : Bool)
    (notes : Notes) : Category × Notes :=
  if flags.process && flags.network then
    (.insufficient, notes.lack true .processAndNetworkEvidenceConflict)
  else if flags.process then (.vpsProcess, notes)
  else
    let notes := notes.lack (flags.destination ≠ ∅) .noTargetSpecificProof
    let notes := notes.lack (1 < flags.destination.card) .multipleDestinations
    if flags.destination ≠ ∅ ∧
        !(flags.reality || flags.hy2 || flags.genericJournal || flags.genericProbe || flags.sharedImpact) then
      (.insufficient, notes)
    else if flags.genericJournal || flags.genericProbe then
      if flags.genericProbe && !flags.genericJournal &&
          !(flags.reality || flags.hy2 || flags.realityImpact || flags.hy2Impact) then
        (.insufficient, notes.lack true .probeEndpointConfounded)
      else (.vpsOutbound, notes)
    else if flags.sharedImpact || (flags.reality && flags.hy2) then
      if !flags.sharedImpact then
        (.insufficient, notes.lack true .attributionAmbiguous)
      else if !(genericHealthy && apiHealthy) then
        (.insufficient, notes.lack true .contemporaneousNegativesUnproven)
      else
        guarded .commonInbound flags.unattributed negativesProvable probeSeen notes
    else if flags.reality && !flags.hy2 then
      guarded .realityTcp flags.unattributed negativesProvable probeSeen notes
    else if flags.hy2 && !flags.reality then
      guarded .hy2Udp flags.unattributed negativesProvable probeSeen notes
    else (.insufficient, notes.lack true .attributionAmbiguous)

-- The Verdict

/- A verdict; its token tuples are sorted sets. -/
structure Classification (F : Type) where
  version : ℕ
  status : Status
  category : Category
  windowStart : F
  windowEnd : F
  buckets : ℕ
  evidence : Finset EvidenceToken
  unknowns : Finset UnknownToken

/- The window a verdict names. -/
structure Echo (F : Type) where
  start : F
  stop : F
  buckets : ℕ

/-
  `_seal`: the pairing of status and category is enforced.  A
  token outside the vocabularies cannot be written here.
-/
def sealed (status : Status) (category : Category) (echo : Echo F) (notes : Notes) : Classification F :=
  if (status = .noIncident ∧ category = .none) ∨
      (status ≠ .noIncident ∧ category ∈ Category.emittable) then
    { version := 1
      status := status
      category := category
      windowStart := echo.start
      windowEnd := echo.stop
      buckets := echo.buckets
      evidence := notes.seen
      unknowns :=
        if status = .incident then
          insert .rootCauseNotEstablished notes.unknown
        else notes.unknown }
  else
    { version := 1
      status := .indeterminate
      category := .insufficient
      windowStart := echo.start
      windowEnd := echo.stop
      buckets := echo.buckets
      evidence := ∅
      unknowns := {.attributionAmbiguous} }

/- `start + n * 60.0` -/
def bucketStart (start : F) (n : ℕ) : F := PyFloat.add start (n * bucketSeconds)

/- The window an analysis names. -/
def Window.echo (w : Window F) : Echo F := ⟨w.start, bucketStart w.start w.buckets, w.buckets⟩

/- `note_health` -/
def Notes.health (notes : Notes) (facts : Facts F) (indices : List ℕ) : Notes :=
  notes.see (genericTcpHealthy facts indices) .probeGenericTcpHealthy

/- Rows a no-anomaly verdict needs to have looked at. -/
def Bundle.looked (b : Bundle F) (reference : Reference F) : Bool :=
  reference.usable && (!b.probeRows.isEmpty || !b.journalEvents.isEmpty)

/- The verdict of a window that holds a candidate bucket. -/
def judge (b : Bundle F) (facts : Facts F) (reference : Reference F)
    (notes : Notes) : Classification F × List ℕ :=
  let buckets := b.window.buckets
  let echo := b.window.echo
  let view := journalViewState b.reader facts.audit
  let notes := notes.lack (!reference.usable) .baselineEvidenceAbsent
  let notes := notes.viewed view
  let indices := candidates facts reference buckets
  let probeSeen := !b.probeRows.isEmpty
  if indices = [] then
    let notes := notes.health facts (List.range buckets)
    if b.looked reference then
      (sealed .noIncident .none echo (notes.see true .noAnomaly), [])
    else (sealed .indeterminate .insufficient echo notes, [])
  else
    let marks := mergedMarks facts reference indices
    let notes := notes.collected marks
    if marks.families ∩ Family.corroborating = ∅ then
      let notes := notes.health facts (List.range buckets)
      (sealed .noIncident .none echo ((notes.lack true .countDropOnly).lack true .noCorroboration), [])
    else if 1 < (clusters indices).length then
      let notes := notes.health facts (List.range buckets)
      (sealed .incident .insufficient echo (notes.lack true .multipleAnomalyClusters), indices)
    else
      let generic := genericTcpHealthy facts indices
      let verdict := attributed marks.flags probeSeen (view = .complete || generic) generic
        (apiHealthy facts indices) (notes.health facts indices)
      (sealed .incident verdict.1 echo verdict.2, indices)

/- `_analyse_with_meta` -/
def analyse (b : Bundle F) : Except Raised (Classification F × List ℕ) := do
  let facts ← gather b
  let notes := observations facts b.degraded
  if b.window.buckets ≤ minBaselineBuckets then
    pure (sealed .indeterminate .insufficient b.window.echo (notes.lack true .baselineEvidenceAbsent), [])
  else do
    let reference ← baseline facts.samples facts.journal
    pure (judge b facts reference notes)

/- The verdict, with where its anomalous buckets sat. -/
structure Detection (F : Type) where
  classification : Classification F
  indices : List ℕ
  firstSignal : Option F
  lastSignal : Option F

/- The detection of an analysis. -/
def detectionOf (start : F) (verdict : Classification F × List ℕ) : Detection F :=
  match verdict.2.head?, verdict.2.getLast? with
  | some first, some last =>
    ⟨verdict.1, verdict.2, some (bucketStart start first), some (bucketStart start (last + 1))⟩
  | _, _ => ⟨verdict.1, [], none, none⟩

/- The detection of refused evidence. -/
def refusedDetection (evidence : Json F) (tokens : Finset UnknownToken) : Except Raised (Detection F) := do
  let (start, stop, count) ← echoWindow evidence
  pure ⟨sealed .indeterminate .insufficient ⟨start, stop, count⟩ ⟨∅, tokens⟩, [], none, none⟩

/- The window of evidence that was not refused. -/
def windowIn (evidence : Members F) : Option (Window F) :=
  match validWindow (sectionOf evidence .window) with
  | .ok window => window
  | .error _ => none

/- `detect` -/
def detect (evidence : Json F) : Except Raised (Detection F) := do
  let tokens ← refusals evidence
  if tokens ≠ ∅ then refusedDetection evidence tokens
  else
    match evidence with
    | .obj members =>
      match windowIn members with
      | some w => do
          let verdict ← analyse (readBundle members w)
          pure (detectionOf w.start verdict)
      | none => refusedDetection evidence tokens
    | _ => refusedDetection evidence tokens

end SingboxOps.Classifier
