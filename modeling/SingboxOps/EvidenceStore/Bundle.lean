import SingboxOps.Classifier.Verdict

/-
  The evidence read the scanner gets from the history store:
  the rows of five tables in a window, with the window, the
  store's health and the reader status it was asked for.

  A section beyond the row budget refuses the whole bundle.
-/

namespace SingboxOps.EvidenceStore

open Classifier

variable {F : Type} [BoundedFloat F]

def classifierBundleRowBudget : ℕ := 2000

-- The Bundle

/- What the tables answer for a window. -/
structure EvidenceRows (F : Type) where
  degraded : Bool
  lastErrorCode : Option HistoryCode
  samples : List (Json F)
  deviceStates : List (Json F)
  probeRows : List (Json F)
  journalEvents : List (Json F)
  audit : List (Json F)

/- A text, or null. -/
def textOrNull (value : Option PyStr) : Json F := match value with
  | some text => .str text
  | none => .null

def windowSection (start stop : F) : Members F := [(pyStr "start_epoch", .float (.finite start)),
    (pyStr "end_epoch", .float (.finite stop))]

def healthSection (rows : EvidenceRows F) : Members F := [(pyStr "enabled", .bool true),
    (pyStr "degraded", .bool rows.degraded),
    (pyStr "last_error_code", textOrNull (rows.lastErrorCode.map HistoryCode.token))]

def readerSection (status : ReaderStatus) : Members F := [(pyStr "status", .str status.token)]

/- The bundle of a window. -/
def bundleOf (start stop : F) (status : ReaderStatus) (rows : EvidenceRows F) : Members F :=
  [(Section.window.token, .obj (windowSection start stop)), (Section.health.token, .obj (healthSection rows)),
    (Section.reader.token, .obj (readerSection status)),
    (Section.samples.token, .arr rows.samples),
    (Section.deviceStates.token, .arr rows.deviceStates),
    (Section.probeRows.token, .arr rows.probeRows),
    (Section.journalEvents.token, .arr rows.journalEvents),
    (Section.audit.token, .arr rows.audit)]

/- No section exceeds the row budget. -/
def EvidenceRows.WithinBudget (rows : EvidenceRows F) : Prop :=
  rows.samples.length ≤ classifierBundleRowBudget ∧ rows.deviceStates.length ≤ classifierBundleRowBudget ∧
    rows.probeRows.length ≤ classifierBundleRowBudget ∧
    rows.journalEvents.length ≤ classifierBundleRowBudget ∧
    rows.audit.length ≤ classifierBundleRowBudget

instance (rows : EvidenceRows F) :
    Decidable rows.WithinBudget := by
  unfold EvidenceRows.WithinBudget
  infer_instance

/-
  `classifier_bundle`.  `read` answers the queries of a window,
  unless the storage fails or the store is disabled.
-/
def classifierBundle (read : F → F → Option (EvidenceRows F)) (start stop : F)
    (status : ReaderStatus) : Option (Members F) :=
  if PyFloat.toRat start < 0 ∨ PyFloat.toRat stop ≤ PyFloat.toRat start then none
  else
    match read start stop with
    | none => none
    | some rows =>
      if rows.WithinBudget then some (bundleOf start stop status rows)
      else none

-- Its Sections

section Sections

variable (start stop : F) (status : ReaderStatus)
variable (rows : EvidenceRows F)

omit [BoundedFloat F] in
theorem sectionOf_window : sectionOf (bundleOf start stop status rows) .window =
      .obj (windowSection start stop) := by
  rfl

omit [BoundedFloat F] in
theorem knownKeys_bundleOf : (bundleOf start stop status rows).all
      (fun m => m.1 ∈ evidenceSections) = true := by
  rfl

end Sections

theorem validWindow_bundleOf {start stop : F} {status : ReaderStatus} {rows : EvidenceRows F}
    (hStart : 0 ≤ PyFloat.toRat start)
    (hStop : PyFloat.toRat start < PyFloat.toRat stop) : validWindow
        (sectionOf (bundleOf start stop status rows) .window) =
      .ok (windowOf start stop) := by
  rw [sectionOf_window]
  have hOrder : ¬ (PyFloat.toRat start < 0 ∨ PyFloat.toRat stop ≤ PyFloat.toRat start) := by
    rw [not_or]
    exact ⟨not_lt.mpr hStart, not_le.mpr hStop⟩
  change (if PyFloat.toRat start < 0 ∨ PyFloat.toRat stop ≤ PyFloat.toRat start then
    Except.ok none else Except.ok (windowOf start stop)) = _
  rw [if_neg hOrder]

theorem classifierBundle_some {read : F → F → Option (EvidenceRows F)} {start stop : F}
    {status : ReaderStatus} {bundle : Members F}
    (h : classifierBundle read start stop status = some bundle) :
    0 ≤ PyFloat.toRat start ∧ PyFloat.toRat start < PyFloat.toRat stop ∧
      ∃ rows, read start stop = some rows ∧ rows.WithinBudget ∧ bundle = bundleOf start stop status rows := by
  unfold classifierBundle at h
  split at h
  · cases h
  · rename_i hOrder
    rw [not_or, not_lt, not_le] at hOrder
    refine ⟨hOrder.1, hOrder.2, ?_⟩
    split at h
    · cases h
    · rename_i rows hRead
      split at h
      · rename_i hBudget
        cases h
        exact ⟨rows, hRead, hBudget, rfl⟩
      · cases h

end SingboxOps.EvidenceStore
