import SingboxOps.Classifier.Evidence
import Mathlib.Data.Finset.Union
import Mathlib.Data.Prod.Lex
import Mathlib.Order.WithBot

/-
  The per-bucket statistics of an accepted bundle, the
  baseline they are judged against, and the runs of failing
  probe buckets.

  A Python set is a `Finset`; a dictionary that counts is its
  set of keys with a counting function.
-/

namespace SingboxOps.Classifier

open JournalIngest (JournalClass JournalProto JournalDcls
  AuditKind AuditCode)

variable {F : Type} [BoundedFloat F]

-- Constants

def minBaselineBuckets : ℕ := 3
def minSamplesPerBucket : ℕ := 6
def allDevicesQuietMin : ℕ := 2
def journalBurstMinCount : ℕ := 5
def journalBurstMultiplier : ℚ := 3
def probeFailMinBuckets : ℕ := 2
def probeHealthMinBuckets : ℕ := 2
def clusterAdjacencyBuckets : ℕ := 1

-- Buckets

/- `int((float(row[key]) - start) // 60.0)` -/
def bucketIndex (start stamp : F) : ℤ := ⌊PyFloat.toRat (spanOf start stamp) / bucketSeconds⌋

/- The rows of one bucket. -/
def bucketed {α : Type} (stamp : α → Stamp F) (start : F) (rows : List α) (index : ℕ) : List α :=
  rows.filter (fun row => bucketIndex start (stamp row).float = (index : ℤ))

/- A computation for each of the first buckets, in order. -/
def forBuckets {ε α : Type} (f : ℕ → Except ε α) : ℕ → Except ε (List α)
  | 0 => .ok []
  | n + 1 => do
      let done ← forBuckets f n
      let last ← f n
      pure (done ++ [last])

-- Means

/- `_mean` of ints: `float(sum(values)) / float(len(values))`. -/
def meanOfCounts (values : List ℕ) : Except Raised F :=
  if values.isEmpty then .ok (PyFloat.round 0)
  else
    match (floatOfInt? (values.sum : ℤ) : Option F) with
    | none => .error .overflow
    | some s => .ok (PyFloat.round (PyFloat.toRat s / values.length))

/- `_mean` of floats, added up from left to right. -/
def meanOfFloats (values : List F) : ExtFloat F :=
  if values.isEmpty then .finite (PyFloat.round 0)
  else
    (values.foldl (fun (s : ExtFloat F) (x : F) => s.add (.finite x))
      (ExtFloat.finite (PyFloat.round 0))).divNat values.length

/- `_median` of ints. -/
def median (values : List ℕ) : Except Raised (ExtFloat F) :=
  if values.isEmpty then .ok (.finite (PyFloat.round 0))
  else
    let ordered := values.insertionSort (· ≤ ·)
    let mid := ordered.length / 2
    if ordered.length % 2 = 1 then
      match (floatOfInt? (ordered.getD mid 0 : ℤ) : Option F) with
      | none => .error .overflow
      | some x => .ok (.finite x)
    else
      match (floatOfInt? (ordered.getD (mid - 1) 0 : ℤ) :
          Option F),
        (floatOfInt? (ordered.getD mid 0 : ℤ) : Option F) with
      | some x, some y => .ok (((ExtFloat.finite x).add (.finite y)).divNat 2)
      | _, _ => .error .overflow

-- Samples

/- `_sample_stats` -/
structure SampleStats (F : Type) where
  rows : ℕ
  meanTotal : F
  meanReality : F
  meanHysteria2 : F
  meanOther : F
  stale : ℕ
  collectorStale : ℕ

def SampleStats.mean (stats : SampleStats F) : CountField → F
  | .total => stats.meanTotal
  | .reality => stats.meanReality
  | .hysteria2 => stats.meanHysteria2
  | .other => stats.meanOther

def sampleStats (rows : List (SampleRow F)) : Except Raised (SampleStats F) := do
  let meanTotal ← meanOfCounts (rows.map SampleRow.total)
  let meanReality ← meanOfCounts (rows.map SampleRow.reality)
  let meanHysteria2 ← meanOfCounts (rows.map SampleRow.hysteria2)
  let meanOther ← meanOfCounts (rows.map SampleRow.other)
  pure { rows := rows.length
         meanTotal, meanReality, meanHysteria2, meanOther
         stale := rows.countP (fun row => row.apiStatus = some .stale)
         collectorStale := rows.countP (fun row => row.collectorStale) }

-- Devices

/-
  A value as a set member: numbers of one value are one
  member, and so is not-a-number, which a decoder makes one
  object.
-/
inductive Key where
  | none
  | number (q : ℚ)
  | nan
  | infinite (negative : Bool)
  | text (s : PyStr)
deriving DecidableEq

/- `hash(value)`; a list or an object has none. -/
def hashKey (value : Json F) : Except Raised Key := match value with
  | .null => .ok .none
  | .bool b => .ok (.number (if b then 1 else 0))
  | .int n => .ok (.number n)
  | .float (.finite x) => .ok (.number (PyFloat.toRat x))
  | .float .nan => .ok .nan
  | .float (.infinite negative) => .ok (.infinite negative)
  | .str s => .ok (.text s)
  | .arr _ | .obj _ => .error .unhashable

/- A device row under its (device, inbound) pair. -/
structure PairRow where
  pair : Key × Key
  epoch : ℚ
  active : ℕ

/- `(row["device"], row["inbound"])` -/
def pairRow (row : DeviceRow F) : Except Raised PairRow := do
  let device ← hashKey row.device
  let inbound ← hashKey row.inbound
  pure ⟨(device, inbound), row.epoch.exact, row.activeConnections⟩

/- The pair of every row. -/
def pairRows (rows : List (DeviceRow F)) : Except Raised (List PairRow) := rows.mapM pairRow

/- `(row["epoch"], row["active_connections"])` -/
def PairRow.rank (row : PairRow) : ℚ ×ₗ ℕ := toLex (row.epoch, row.active)

/- The latest row of a pair, the larger count on a tie. -/
def latest (rows : List PairRow) (pair : Key × Key) : WithBot (ℚ ×ₗ ℕ) :=
  (rows.filter (fun row => row.pair = pair)).foldl
    (fun current row => max current (row.rank : WithBot (ℚ ×ₗ ℕ)))
    ⊥

/- The pairs a bucket reported. -/
def pairsSeen (rows : List PairRow) : Finset (Key × Key) := (rows.map PairRow.pair).toFinset

/- Whether the latest row of a pair says zero. -/
def quietPair (rows : List PairRow) (pair : Key × Key) : Bool := match latest rows pair with
  | none => false
  | some row => (ofLex row).2 = 0

/- `_device_stats` -/
structure DeviceStats where
  seen : ℕ
  allQuiet : Bool
deriving DecidableEq

def deviceStats (pairsKnown : Finset (Key × Key)) (rows : List PairRow) : DeviceStats where
  seen := (pairsSeen rows).card
  allQuiet := allDevicesQuietMin ≤ (pairsSeen rows).card && pairsSeen rows = pairsKnown &&
      (pairsSeen rows).filter (fun pair => quietPair rows pair) = pairsSeen rows

-- Probes

/- What one slot answered in a bucket. -/
structure SlotStats where
  ok : ℕ
  network : ℕ
  unusable : ℕ
deriving DecidableEq

/- `_probe_stats` -/
structure ProbeStats where
  rows : ℕ
  dns : SlotStats
  https : SlotStats
  udp : SlotStats
  egress : SlotStats
  changed : ℕ
deriving DecidableEq

def ProbeStats.slot (stats : ProbeStats) : ProbeSlot → SlotStats
  | .dns => stats.dns
  | .https => stats.https
  | .udp => stats.udp
  | .egress => stats.egress

/- The tally of one slot: ok, refused by the network, unusable. -/
def slotStats (answers : List SlotAnswer) : SlotStats where
  ok := answers.countP (fun a => a.status = .ok)
  network := answers.countP (fun a => a.status ≠ .ok ∧ a.code ∈ ProbeCode.network)
  unusable := answers.countP (fun a => a.status ≠ .ok ∧ a.code ∉ ProbeCode.network)

def probeStats (rows : List (ProbeRow F)) : ProbeStats where
  rows := rows.length
  dns := slotStats (rows.map ProbeRow.dns)
  https := slotStats (rows.map ProbeRow.https)
  udp := slotStats (rows.map ProbeRow.udp)
  egress := slotStats (rows.map ProbeRow.egress)
  changed := rows.countP (fun row => row.change = .changed)

-- The Journal

/- `(cls, proto, dcls, port)` -/
structure JournalKey where
  cls : JournalClass
  proto : JournalProto
  dcls : Option JournalDcls
  port : ℕ
deriving DecidableEq

def JournalRow.key (row : JournalRow F) : JournalKey := ⟨row.cls, row.proto, row.dcls, row.port⟩

/- `_journal_stats` -/
structure JournalStats where
  keys : Finset JournalKey
  count : JournalKey → ℕ
  classes : Finset JournalClass

def journalStats (rows : List (JournalRow F)) : JournalStats where
  keys := (rows.map JournalRow.key).toFinset
  count key := ((rows.filter (fun row => row.key = key)).map JournalRow.n).sum
  classes := (rows.map JournalRow.cls).toFinset

/- `_audit_view` -/
structure AuditView where
  gap : Bool
  rejected : Bool
  codes : Finset AuditCode

def auditView (rows : List (AuditRow F)) : AuditView where
  gap := rows.any (fun row => row.kind = .gap)
  rejected := rows.any (fun row => row.kind ≠ .gap)
  codes := (rows.map AuditRow.code).toFinset

-- The Baseline

/- The reference a candidate bucket is judged against. -/
structure Reference (F : Type) where
  usable : Bool
  mean : CountField → Option (ExtFloat F)
  threshold : JournalKey → ExtFloat F

/- The baseline buckets with enough samples. -/
def baselineSamples (samples : List (SampleStats F)) : List (SampleStats F) :=
  (samples.take minBaselineBuckets).filter (fun stats => minSamplesPerBucket ≤ stats.rows)

/- The mean of a count over the baseline buckets. -/
def baselineMean (samples : List (SampleStats F)) (name : CountField) : Option (ExtFloat F) :=
  if (baselineSamples samples).isEmpty then none
  else
    some (meanOfFloats ((baselineSamples samples).map (fun s => s.mean name)))

/- The counts of a key in the baseline buckets. -/
def baselineCounts (journal : List JournalStats) (key : JournalKey) : List ℕ :=
  (journal.take minBaselineBuckets).map (fun j => j.count key)

/- `max(5, 3.0 * median)` -/
def burstThreshold (median : ExtFloat F) : ExtFloat F :=
  let tripled := median.scale journalBurstMultiplier
  if tripled.leInt journalBurstMinCount then
    ExtFloat.ofRat journalBurstMinCount
  else tripled

/- The journal keys of the whole window. -/
def journalKeys (journal : List JournalStats) : Finset JournalKey :=
  journal.foldr (fun j keys => j.keys ∪ keys) ∅

/- Whether `_median` of a key's history returns. -/
def medianReturns (F : Type) [BoundedFloat F] (counts : List ℕ) : Bool :=
  match (median counts : Except Raised (ExtFloat F)) with
  | .ok _ => true
  | .error _ => false

/- The threshold of a key whose median returns. -/
def thresholdOf (journal : List JournalStats) (key : JournalKey) : ExtFloat F :=
  match (median (baselineCounts journal key) : Except Raised (ExtFloat F)) with
  | .ok m => burstThreshold m
  | .error _ => .nan

/- `_baseline` -/
def baseline (samples : List (SampleStats F)) (journal : List JournalStats) : Except Raised (Reference F) :=
  if ∀ key ∈ journalKeys journal,
      medianReturns F (baselineCounts journal key) = true then
    .ok
      { usable :=
          minBaselineBuckets ≤ (baselineSamples samples).length
        mean := baselineMean samples
        threshold := thresholdOf journal }
  else .error .overflow

-- Runs

/- A bucket in which a slot failed for the network. -/
def slotFailed (probes : List ProbeStats) (slot : ProbeSlot) (index : ℕ) : Bool :=
  match probes[index]? with
  | none => false
  | some stats => 0 < (stats.slot slot).network && (stats.slot slot).ok = 0

/- The marks of a run that ends: it needs two buckets. -/
def flushRun (run : List ℕ) (marks : Finset ℕ) : Finset ℕ :=
  if probeFailMinBuckets ≤ run.length then marks ∪ run.toFinset
  else marks

/- The loop over the buckets: the open run, and the marks. -/
def probeRuns (failed : ℕ → Bool) : ℕ → List ℕ × Finset ℕ
  | 0 => ([], ∅)
  | n + 1 =>
    let state := probeRuns failed n
    if failed n then (state.1 ++ [n], state.2)
    else ([], flushRun state.1 state.2)

/- `_probe_failures`: the marked buckets of a slot. -/
def probeFailures (probes : List ProbeStats) (slot : ProbeSlot) : Finset ℕ :=
  let state := probeRuns (slotFailed probes slot) probes.length
  flushRun state.1 state.2

/- `_clusters`: maximal runs of adjacent indices. -/
def clusters : List ℕ → List (List ℕ)
  | [] => []
  | index :: rest =>
    match clusters rest with
    | (next :: run) :: runs =>
      if next = index + clusterAdjacencyBuckets then
        (index :: next :: run) :: runs
      else [index] :: (next :: run) :: runs
    | runs => [index] :: runs

end SingboxOps.Classifier
