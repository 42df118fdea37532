import SingboxOps.Lib.BoundedFloat
import SingboxOps.Lib.Transaction
import SingboxOps.Lib.Json.Value

/-
  The two incident tables of the history store: the incident
  windows, and the single runtime-state row with the CHECK
  constraints both are created with.

  REAL columns hold finite floats and INTEGER columns 64-bit
  integers.  The window table also carries the partial unique
  index that allows one open row.
-/

namespace SingboxOps.IncidentHistory

-- Constants

def incidentClassifierVersion : ℤ := 1
def incidentEvidenceBitsMax : ℤ := 35184372088831
def incidentUnknownBitsMax : ℤ := 268435455
def incidentBudgetMax : ℤ := 60
def incidentBucketSeconds : ℤ := 60

/- The six categories the classifier can emit. -/
def incidentWindowCategories : List PyStr := [pyStr "common_inbound_client_office",
    pyStr "hysteria2_udp_path",
    pyStr "insufficient_evidence",
    pyStr "reality_tcp_path",
    pyStr "vps_outbound",
    pyStr "vps_process_or_api"]

def incidentClosureCleanBuckets : PyStr := pyStr "clean_buckets"
def incidentClosureWindowLimit : PyStr := pyStr "window_limit"

def incidentClosureReasons : List PyStr := [incidentClosureCleanBuckets, incidentClosureWindowLimit]

/- The least integer no INTEGER column holds. -/
def int64Limit : ℤ := 2 ^ 63

-- Failures

/-
  How a call can end without its answer: it refuses its
  arguments or its target, the storage fails, a constraint is
  violated, an integer has more than 64 bits or no float near
  it, or the continuity row is missing.
-/
inductive Failure where
  | refused
  | storage
  | constraint
  | overflow
  | schema
deriving DecidableEq

-- Rows

/- `state IN ('open','closed')` -/
inductive WindowState where
  | opened
  | closed
deriving DecidableEq

/- A row of `incident_windows`. -/
structure WindowRow (F : Type) where
  incidentId : ℤ
  classifierVersion : ℤ
  state : WindowState
  category : PyStr
  analysisStartEpoch : F
  firstSignalEpoch : F
  lastSignalEpoch : F
  lastClassifiedEndEpoch : F
  closedEpoch : Option F
  closureReason : Option PyStr
  buckets : ℤ
  evidenceBits : ℤ
  unknownBits : ℤ
  createdEpoch : F
  updatedEpoch : F
deriving DecidableEq

/- The row of `incident_runtime_state`. -/
structure RuntimeState (F : Type) where
  runtimeVersion : ℤ
  activationFloorEpoch : F
  lastEvaluatedEndEpoch : F
  readerFreshSinceEpoch : Option F
  openIncidentId : Option ℤ
  discoveryFloorEpoch : Option F
  rearmRequired : ℤ
deriving DecidableEq

/- The two tables. -/
structure Tables (F : Type) where
  windows : List (WindowRow F)
  state : Option (RuntimeState F)

variable {F : Type} [BoundedFloat F]

/- `x <= y` of two REAL values. -/
def realLe (x y : F) : Prop := PyFloat.toRat x ≤ PyFloat.toRat y

instance (x y : F) : Decidable (realLe x y) := by
  unfold realLe
  infer_instance

/- The float `0.0`. -/
def zeroReal : F := PyFloat.round 0

-- Constraints

/- The CHECK constraints of `incident_windows`. -/
structure WindowRow.Checked (w : WindowRow F) : Prop where
  version : w.classifierVersion = 1
  category : w.category ∈ incidentWindowCategories
  start : realLe zeroReal w.analysisStartEpoch
  first : realLe w.analysisStartEpoch w.firstSignalEpoch
  last : realLe w.firstSignalEpoch w.lastSignalEpoch
  classified : realLe w.firstSignalEpoch w.lastClassifiedEndEpoch
  closed : ∀ e ∈ w.closedEpoch, realLe w.lastSignalEpoch e
  reason : ∀ r ∈ w.closureReason, r ∈ incidentClosureReasons
  buckets : 1 ≤ w.buckets ∧ w.buckets ≤ 60
  evidence : 0 ≤ w.evidenceBits ∧ w.evidenceBits ≤ incidentEvidenceBitsMax
  unknown : 0 ≤ w.unknownBits ∧ w.unknownBits ≤ incidentUnknownBitsMax
  updated : realLe w.createdEpoch w.updatedEpoch
  pairing :
    (w.state = .opened ∧ w.closedEpoch = none ∧ w.closureReason = none) ∨
      (w.state = .closed ∧ w.closedEpoch ≠ none ∧ w.closureReason ≠ none)

/- The same constraints as one conjunction. -/
theorem WindowRow.checked_iff (w : WindowRow F) : w.Checked ↔ w.classifierVersion = 1 ∧
      w.category ∈ incidentWindowCategories ∧
      realLe zeroReal w.analysisStartEpoch ∧
      realLe w.analysisStartEpoch w.firstSignalEpoch ∧
      realLe w.firstSignalEpoch w.lastSignalEpoch ∧
      realLe w.firstSignalEpoch w.lastClassifiedEndEpoch ∧
      (∀ e ∈ w.closedEpoch, realLe w.lastSignalEpoch e) ∧
      (∀ r ∈ w.closureReason, r ∈ incidentClosureReasons) ∧
      (1 ≤ w.buckets ∧ w.buckets ≤ 60) ∧
      (0 ≤ w.evidenceBits ∧ w.evidenceBits ≤ incidentEvidenceBitsMax) ∧
      (0 ≤ w.unknownBits ∧ w.unknownBits ≤ incidentUnknownBitsMax) ∧
      realLe w.createdEpoch w.updatedEpoch ∧
      ((w.state = .opened ∧ w.closedEpoch = none ∧ w.closureReason = none) ∨
        (w.state = .closed ∧ w.closedEpoch ≠ none ∧ w.closureReason ≠ none)) := by
  constructor
  · rintro ⟨h1, h2, h3, h4, h5, h6, h7, h8, h9, h10, h11, h12, h13⟩
    exact ⟨h1, h2, h3, h4, h5, h6, h7, h8, h9, h10, h11, h12, h13⟩
  · rintro ⟨h1, h2, h3, h4, h5, h6, h7, h8, h9, h10, h11, h12, h13⟩
    exact ⟨h1, h2, h3, h4, h5, h6, h7, h8, h9, h10, h11, h12, h13⟩

instance (w : WindowRow F) : Decidable w.Checked := decidable_of_iff' _ w.checked_iff

/- The CHECK constraints of `incident_runtime_state`. -/
structure RuntimeState.Checked (st : RuntimeState F) : Prop where
  version : st.runtimeVersion = 1
  activation : realLe zeroReal st.activationFloorEpoch
  evaluated : realLe zeroReal st.lastEvaluatedEndEpoch
  fresh : ∀ e ∈ st.readerFreshSinceEpoch, realLe zeroReal e
  pointer : ∀ id ∈ st.openIncidentId, 1 ≤ id
  discovery : ∀ e ∈ st.discoveryFloorEpoch, realLe st.activationFloorEpoch e
  flag : st.rearmRequired = 0 ∨ st.rearmRequired = 1
  rearmed : st.rearmRequired = 0 ∨ (st.openIncidentId = none ∧ st.discoveryFloorEpoch = none)
  activated :
    realLe st.activationFloorEpoch zeroReal ∨ st.rearmRequired = 1 ∨ st.discoveryFloorEpoch ≠ none

theorem RuntimeState.checked_iff (st : RuntimeState F) : st.Checked ↔ st.runtimeVersion = 1 ∧
      realLe zeroReal st.activationFloorEpoch ∧
      realLe zeroReal st.lastEvaluatedEndEpoch ∧
      (∀ e ∈ st.readerFreshSinceEpoch, realLe zeroReal e) ∧
      (∀ id ∈ st.openIncidentId, 1 ≤ id) ∧
      (∀ e ∈ st.discoveryFloorEpoch, realLe st.activationFloorEpoch e) ∧
      (st.rearmRequired = 0 ∨ st.rearmRequired = 1) ∧
      (st.rearmRequired = 0 ∨ (st.openIncidentId = none ∧ st.discoveryFloorEpoch = none)) ∧
      (realLe st.activationFloorEpoch zeroReal ∨ st.rearmRequired = 1 ∨ st.discoveryFloorEpoch ≠ none) := by
  constructor
  · rintro ⟨h1, h2, h3, h4, h5, h6, h7, h8, h9⟩
    exact ⟨h1, h2, h3, h4, h5, h6, h7, h8, h9⟩
  · rintro ⟨h1, h2, h3, h4, h5, h6, h7, h8, h9⟩
    exact ⟨h1, h2, h3, h4, h5, h6, h7, h8, h9⟩

instance (st : RuntimeState F) : Decidable st.Checked := decidable_of_iff' _ st.checked_iff

/- The rows in state 'open'. -/
def openRows (windows : List (WindowRow F)) : List (WindowRow F) :=
  windows.filter (fun w => w.state = .opened)

/-
  What the schema demands of the window table: the primary
  key, the partial unique index on the open rows, and the
  CHECK constraints of each row.
-/
def WindowsChecked (windows : List (WindowRow F)) : Prop :=
  (windows.map WindowRow.incidentId).Nodup ∧ (openRows windows).length ≤ 1 ∧ ∀ w ∈ windows, w.Checked

instance (windows : List (WindowRow F)) :
    Decidable (WindowsChecked windows) := by
  unfold WindowsChecked
  infer_instance

-- Statements

/-
  The rowid an INSERT without one gets: one above the largest,
  or, where that is the largest there is, an unused one the
  database picks at random, if it finds one.
-/
def newRowid (ids : List ℤ) (pick : ℤ) : Option ℤ :=
  let largest := ids.foldr max 0
  if largest + 1 < int64Limit then some (largest + 1)
  else if 1 ≤ pick ∧ pick < int64Limit ∧ pick ∉ ids then some pick
  else none

/-
  `INSERT INTO incident_windows`; the row's own id is the one
  the database gives it, and is the answer.
-/
def insertWindow (pick : ℤ) (row : WindowRow F) (t : Tables F) : Except Failure (ℤ × Tables F) :=
  match newRowid (t.windows.map WindowRow.incidentId) pick with
  | none => .error .storage
  | some id =>
    let windows := t.windows ++ [{ row with incidentId := id }]
    if WindowsChecked windows then
      .ok (id, { t with windows := windows })
    else .error .constraint

/- `UPDATE incident_windows SET .. WHERE ..`, with its rowcount. -/
def updateWindows (p : WindowRow F → Bool) (f : WindowRow F → WindowRow F)
    (t : Tables F) : Except Failure (ℕ × Tables F) :=
  let windows := t.windows.map (fun w => if p w then f w else w)
  if WindowsChecked windows then
    .ok (t.windows.countP p, { t with windows := windows })
  else .error .constraint

/- `DELETE FROM incident_windows WHERE ..` -/
def deleteWindows (p : WindowRow F → Bool) (t : Tables F) : Except Failure (Unit × Tables F) :=
  .ok ((), { t with windows := t.windows.filter (fun w => !p w) })

/-
  `UPDATE incident_runtime_state SET .. WHERE id = 1 AND ..`,
  with its rowcount.
-/
def updateState (p : RuntimeState F → Bool) (f : RuntimeState F → RuntimeState F)
    (t : Tables F) : Except Failure (ℕ × Tables F) :=
  match t.state with
  | none => .ok (0, t)
  | some st =>
    if p st then
      if (f st).Checked then .ok (1, { t with state := some (f st) })
      else .error .constraint
    else .ok (0, t)

end SingboxOps.IncidentHistory
