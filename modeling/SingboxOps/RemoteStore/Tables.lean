import SingboxOps.Lib.Float
import SingboxOps.Lib.Text
import Mathlib.Data.List.Sort
import Mathlib.Data.Prod.Lex

/-
  The three tables of the remote plane and the statements the
  store runs over them.

  Rows are kept in lists; a table has no order of its own.
  Text columns are code-point lists, REAL columns hold floats
  and INTEGER columns 64-bit integers.  The digest type `H`
  and the hash itself are parameters.
-/

namespace SingboxOps.RemoteStore

-- Constants

def maxAgeSeconds : ℚ := 7 * 86400
def newSampleMaxAge : ℚ := maxAgeSeconds + 12 * 3600
def runLifetimeSeconds : ℚ := 30 * 86400
def futureSkewSeconds : ℚ := 300
def sampleRowCharge : ℤ := 256
def receiptRowCharge : ℤ := 256
def runRowCharge : ℤ := 1024

/-
  The injectable bounds of a store object, with the values
  its constructor sets.
-/
structure Limits where
  hardBudget : ℤ := 24 * 1024 * 1024
  softBudget : ℤ := 16 * 1024 * 1024
  pruneBatch : ℤ := 256
  maxRunsPerProbe : ℤ := 64
  maxRunsGlobal : ℤ := 4096
  maxReceiptsPerProbe : ℤ := 131072
  maxReceiptsGlobal : ℤ := 1048576
  receiptBudget : ℤ := 256 * 1024 * 1024
  runBudget : ℤ := 4 * 1024 * 1024
  dbBudget : ℤ := 320 * 1024 * 1024
  workingBudget : ℤ := 1024 * 1024 * 1024

-- Verdicts and Failures

/- The closed verdicts of an acceptance. -/
inductive Verdict where
  | accepted
  | duplicate
  | equivocation
  | sampleEpochOutOfRange
  | sequenceNotIncreasing
  | sampleEpochNotIncreasing
deriving DecidableEq

/-
  The exceptions a call can end with: the sanitized store
  failure, the three typed capacity errors, and the
  `OverflowError` of binding an integer beyond 64 bits.
-/
inductive StoreError where
  | unavailable
  | runCapacity
  | receiptCapacity
  | storageCapacity
  | overflow
deriving DecidableEq

/- The sanitized code of a store failure. -/
def StoreError.code : StoreError → Option String
  | .unavailable => some "remote_store_unavailable"
  | .runCapacity => some "remote_run_capacity"
  | .receiptCapacity => some "remote_receipt_capacity"
  | .storageCapacity => some "remote_storage_capacity"
  | .overflow => none

/- One of the three typed capacity errors. -/
def StoreError.IsCapacity (e : StoreError) : Prop :=
  e = .runCapacity ∨ e = .receiptCapacity ∨ e = .storageCapacity

-- Rows

/- A row of `remote_probe_runs`. -/
structure RunRow (F : Type) where
  probeId : PyStr
  run : PyStr
  maxSeq : ℤ
  maxSampleEpoch : F
  createdEpoch : F
  lastActivityEpoch : F
deriving DecidableEq

/- A row of `remote_probe_receipts`. -/
structure ReceiptRow (F H : Type) where
  probeId : PyStr
  run : PyStr
  seq : ℤ
  bodyHash : H
  acceptedEpoch : F
deriving DecidableEq

/- A row of `remote_probe_samples`. -/
structure SampleRow (F H : Type) where
  probeId : PyStr
  run : PyStr
  seq : ℤ
  sampleEpoch : F
  receivedEpoch : F
  bodyHash : H
  body : Bytes
deriving DecidableEq

/- The primary key of a run, `(probe_id, run)`. -/
def RunRow.key {F : Type} (r : RunRow F) : PyStr × PyStr := (r.probeId, r.run)

/- The run a receipt references. -/
def ReceiptRow.runKey {F H : Type} (p : ReceiptRow F H) : PyStr × PyStr := (p.probeId, p.run)

/- The primary key of a receipt. -/
def ReceiptRow.key {F H : Type} (p : ReceiptRow F H) : PyStr × PyStr × ℤ := (p.probeId, p.run, p.seq)

/- The run a sample belongs to. -/
def SampleRow.runKey {F H : Type} (s : SampleRow F H) : PyStr × PyStr := (s.probeId, s.run)

/- The primary key of a sample. -/
def SampleRow.key {F H : Type} (s : SampleRow F H) : PyStr × PyStr × ℤ := (s.probeId, s.run, s.seq)

/- The content of the database. -/
structure Tables (F H : Type) where
  runs : List (RunRow F)
  receipts : List (ReceiptRow F H)
  samples : List (SampleRow F H)
deriving DecidableEq

/- A database right after its schema was created. -/
def Tables.empty {F H : Type} : Tables F H := ⟨[], [], []⟩

-- Deletions

variable {F H : Type} [PyFloat F]

/-
  `DELETE FROM remote_probe_runs WHERE p`: the receipts of a
  deleted run go with it, and the samples of a deleted
  receipt.
-/
def deleteRuns (p : RunRow F → Bool) (t : Tables F H) : Tables F H :=
  let gone := t.runs.filter p
  let dropped := t.receipts.filter (fun q => gone.any (fun r => r.key == q.runKey))
  { runs := t.runs.filter (fun r => !p r)
    receipts := t.receipts.filter
      (fun q => !gone.any (fun r => r.key == q.runKey))
    samples := t.samples.filter
      (fun s => !dropped.any (fun q => q.key == s.key)) }

/- The order `sample_epoch, probe_id, run, seq`. -/
def sampleOrder (a b : SampleRow F H) : Prop := toLex (PyFloat.toRat a.sampleEpoch,
      toLex (a.probeId, toLex (a.run, a.seq))) ≤
    toLex (PyFloat.toRat b.sampleEpoch, toLex (b.probeId, toLex (b.run, b.seq)))

instance (a b : SampleRow F H) :
    Decidable (sampleOrder a b) := by
  unfold sampleOrder
  infer_instance

/- `LIMIT n` over `rows` rows; a negative limit is none. -/
def limitRows (n : ℤ) (rows : ℕ) : ℕ := if n < 0 then rows else n.toNat

/- Delete the first `batch` samples in the sample order. -/
def deleteOldest (batch : ℤ) (samples : List (SampleRow F H)) : List (SampleRow F H) :=
  (samples.insertionSort sampleOrder).drop (limitRows batch samples.length)

/- `SUM(length(body) + 256)` over the samples. -/
def sampleBytes (samples : List (SampleRow F H)) : ℤ :=
  (samples.map (fun s => (s.body.length : ℤ) + sampleRowCharge)).sum

-- Insertions

/- The integers a statement parameter can be bound to. -/
def SqlInteger (n : ℤ) : Prop := -(2 ^ 63) ≤ n ∧ n < 2 ^ 63

instance (n : ℤ) : Decidable (SqlInteger n) := by
  unfold SqlInteger
  infer_instance

/-
  The `sample_epoch` argument of a call: an integer, a finite
  float, or something the shape test refuses (a boolean, a
  NaN, an infinity, no number at all).
-/
inductive SampleEpoch (F : Type) where
  | int (n : ℤ)
  | float (x : F)
  | invalid
deriving DecidableEq

namespace SampleEpoch

/- The number an epoch argument is. -/
def value? : SampleEpoch F → Option ℚ
  | .int n => some n
  | .float x => some (PyFloat.toRat x)
  | .invalid => none

/- `math.isfinite` raises on an integer beyond every float. -/
def overflows : SampleEpoch F → Bool
  | .int n => decide (2 ^ 1024 - 2 ^ 970 ≤ |n|)
  | _ => false

/-
  The float a REAL column stores for the argument.  Binding
  an integer beyond 64 bits raises instead.
-/
def bindReal : SampleEpoch F → Except StoreError F
  | .int n =>
    if SqlInteger n then .ok (PyFloat.round n)
    else .error .overflow
  | .float x => .ok x
  | .invalid => .error .unavailable

end SampleEpoch

/- `INSERT INTO remote_probe_runs`, with its constraints. -/
def insertRun (row : RunRow F) (t : Tables F H) : Except StoreError (Tables F H) :=
  if 1 ≤ row.maxSeq ∧ 0 ≤ PyFloat.toRat row.maxSampleEpoch ∧
      ∀ r ∈ t.runs, r.key ≠ row.key then
    .ok { t with runs := t.runs ++ [row] }
  else .error .unavailable

/-
  `INSERT INTO remote_probe_receipts`, with its constraints;
  a digest has the 32 bytes the length check asks for.
-/
def insertReceipt (row : ReceiptRow F H) (t : Tables F H) : Except StoreError (Tables F H) :=
  if 1 ≤ row.seq ∧ (∀ p ∈ t.receipts, p.key ≠ row.key) ∧
      ∃ r ∈ t.runs, r.key = row.runKey then
    .ok { t with receipts := t.receipts ++ [row] }
  else .error .unavailable

/- `INSERT INTO remote_probe_samples`, with its constraints. -/
def insertSample (row : SampleRow F H) (t : Tables F H) : Except StoreError (Tables F H) :=
  if 0 ≤ PyFloat.toRat row.sampleEpoch ∧
      1 ≤ row.body.length ∧ row.body.length ≤ 16384 ∧
      (∀ s ∈ t.samples, s.key ≠ row.key) ∧
      ∃ p ∈ t.receipts, p.key = row.key then
    .ok { t with samples := t.samples ++ [row] }
  else .error .unavailable

end SingboxOps.RemoteStore
