import SingboxOps.Scanner.Gates

/-
  What every stored row keeps beyond its constraints: its
  window starts on a whole minute, its last signal lies within
  the window it was last classified on, and its id fits a
  column.
-/

namespace SingboxOps.Scanner

open Classifier EvidenceStore
open IncidentHistory (Env Call Store RuntimeState WindowRow
  SnapshotArgs Outcome call freshStore Consistent Effect
  int64Limit)

variable {F : Type} [BoundedFloat F]

structure RowKept (w : WindowRow F) : Prop where
  start : OnMinute 35 w.analysisStartEpoch
  signal : PyFloat.toRat w.lastSignalEpoch ≤ PyFloat.toRat w.lastClassifiedEndEpoch
  id : 1 ≤ w.incidentId ∧ w.incidentId < int64Limit

/- The gates and the rows are kept. -/
structure Recorded (m : Machine F) : Prop where
  gated : Gated m
  rows : ∀ w ∈ m.store.tables.windows, RowKept w

variable {m : Machine F}

-- Calls

theorem newRowid_range {ids : List ℤ} {pick id : ℤ}
    (h : IncidentHistory.newRowid ids pick = some id) : 1 ≤ id ∧ id < int64Limit := by
  have hLargest : ∀ l : List ℤ, 0 ≤ l.foldr max 0 := by
    intro l
    induction l with
    | nil => exact le_refl 0
    | cons a l ih => exact le_max_of_le_right ih
  unfold IncidentHistory.newRowid at h
  dsimp only at h
  split at h
  · rename_i hRoom
    cases h
    have hNonneg := hLargest ids
    exact ⟨by omega, hRoom⟩
  · split at h
    · rename_i hPick
      cases h
      exact ⟨hPick.1, hPick.2.1⟩
    · cases h

theorem values_ordered {args : SnapshotArgs F} {values : IncidentHistory.Snapshot F}
    (h : IncidentHistory.incidentValues args = .ok (some values)) :
    PyFloat.toRat values.lastSignal ≤ PyFloat.toRat values.classifiedEnd := by
  unfold IncidentHistory.incidentValues at h
  split at h
  · cases h
  · rcases except_bind_ok h with ⟨signal, _, h⟩
    rcases except_bind_ok h with ⟨stop, _, h⟩
    split at h
    · split at h
      · cases h
      · rename_i hOrder
        rw [not_not] at hOrder
        split at h
        · cases h
          exact hOrder
        · cases h
    · cases h

/- An effect keeps the rows, and opens one on a whole minute. -/
theorem effect_rows {st st' : RuntimeState F} {windows windows' : List (WindowRow F)}
    {c : Call F} (hRows : ∀ w ∈ windows, RowKept w)
    (hOpen : ∀ startArg firstArg args, c = .openWindow startArg firstArg args →
          ∀ s, IncidentHistory.incidentEpoch startArg = .ok (some s) → OnMinute 35 s)
    (h : Effect st windows c st' windows') : ∀ w ∈ windows', RowKept w := by
  intro w hw
  cases h with
  | kept => exact hRows w hw
  | activated => exact hRows w hw
  | marked => exact hRows w hw
  | rearmed => exact hRows w hw
  | cleaned => exact hRows w (List.mem_of_mem_filter hw)
  | opened startArg firstArg args analysisStart firstSignal values
      pick id now hStart hFirst hValues hId =>
      rcases List.mem_append.mp hw with hOld | hNew
      · exact hRows w hOld
      · rw [List.mem_singleton.mp hNew]
        exact ⟨hOpen _ _ _ rfl analysisStart hStart, values_ordered hValues, newRowid_range hId⟩
  | updated idArg args values id now hValues =>
    rcases List.mem_map.mp hw with ⟨v, hv, rfl⟩
    have hKept := hRows v hv
    split
    · exact ⟨hKept.start, values_ordered hValues, hKept.id⟩
    · exact hKept
  | closed idArg args reasonArg values reason id now hValues =>
    rcases List.mem_map.mp hw with ⟨v, hv, rfl⟩
    have hKept := hRows v hv
    split
    · exact ⟨hKept.start, values_ordered hValues, hKept.id⟩
    · exact hKept

theorem rows_called (hConsistent : Consistent m.store.tables)
    (hRows : ∀ w ∈ m.store.tables.windows, RowKept w)
    {env : Env F} {c : Call F} {event : Store F → List (Event F)}
    (hOpen : ∀ startArg firstArg args, c = .openWindow startArg firstArg args →
          ∀ s, IncidentHistory.incidentEpoch startArg = .ok (some s) → OnMinute 35 s) :
    ∀ w ∈ (m.called env c event).store.tables.windows, RowKept w := by
  rcases hConsistent.state with ⟨st, hState, _⟩
  rcases state_called hState env c event with ⟨_, st', _, hEffect⟩ | ⟨_, hSame⟩
  · exact effect_rows hRows hOpen hEffect
  · rw [hSame]
    exact hRows

theorem rows_called_other (hConsistent : Consistent m.store.tables)
    (hRows : ∀ w ∈ m.store.tables.windows, RowKept w)
    {env : Env F} {c : Call F} {event : Store F → List (Event F)}
    (hOther : ∀ startArg firstArg args, c ≠ .openWindow startArg firstArg args) :
    ∀ w ∈ (m.called env c event).store.tables.windows, RowKept w := by
  apply rows_called hConsistent hRows
  intro startArg firstArg args hSame
  exact absurd hSame (hOther _ _ _)

-- Steps

theorem rows_evaluate {env : CycleEnv F} {openRow : Option (WindowRow F)}
    {gate : Option F} {lastEnd : F} {rfs : Option F}
    {r : Except ErrorCode (Option F)} {m' : Machine F} (h : Recorded m)
    (hEnd : OnMinute 32 lastEnd)
    (hEnds : EvaluateEnds env openRow gate lastEnd rfs m r m') :
    ∀ w ∈ m'.store.tables.windows, RowKept w := by
  have hConsistent := h.gated.consistent
  cases hEnds with
  | limit =>
    apply rows_called_other hConsistent h.rows
    intro _ _ _ hSame
    cases hSame
  | opened floor evidence detection firstSignal lastSignal hNone
      hSome hWarm hJudged hStatus hFirst hLast =>
      apply rows_called (m := m.asked rfs (discoveryStart lastEnd)) hConsistent h.rows
      intro startArg firstArg args hSame s hStart
      cases hSame
      have hValue := incidentEpoch_real hStart
      subst hValue
      exact (opened_start hEnd hJudged hStatus hFirst).1
  | closed close windowStart =>
    apply rows_called_other (m := m.asked rfs windowStart) hConsistent h.rows
    intro _ _ _ hSame
    cases hSame
  | updated row windowStart =>
    apply rows_called_other (m := m.asked rfs windowStart) hConsistent h.rows
    intro _ _ _ hSame
    cases hSame
  | _ => exact h.rows

theorem rows_mark {env : CycleEnv F} {st : RuntimeState F} {evaluated rfs : Option F}
    {r : Except ErrorCode Unit} {m' : Machine F} (hConsistent : Consistent m.store.tables)
    (hRows : ∀ w ∈ m.store.tables.windows, RowKept w)
    (hEnds : MarkEnds env st evaluated rfs m r m') :
    ∀ w ∈ m'.store.tables.windows, RowKept w := by
  cases hEnds with
  | corrupt => exact hRows
  | called stop =>
    apply rows_called_other hConsistent hRows
    intro _ _ _ hSame
    cases hSame

theorem recorded_observed (h : Recorded m) (env : CycleEnv F)
    (fresh : Bool) : Recorded (m.observed env fresh) :=
  ⟨gated_observed h.gated env fresh, h.rows⟩

/- The machine an evaluation of a cycle ends in. -/
theorem recorded_evaluate {env : CycleEnv F} {st : RuntimeState F} {gate : Option F}
    {fresh : Bool} {rfs : Option F} {lastEnd : F}
    {r : Except ErrorCode (Option F)} {m' : Machine F} (h : Recorded m)
    (hObserved : Observed env m st gate fresh rfs)
    (hGrid : lastCompleteEnd st.activationFloorEpoch env.now.reading = some lastEnd)
    (hEval : EvaluateEnds env (openRowOf m.store st) gate lastEnd rfs (m.observed env fresh) r m') :
    Recorded m' ∧ GatedEval st r m' := by
  have hSeen := recorded_observed h env fresh
  have hEnd := (lastCompleteEnd_onMinute (h.gated.floor st hObserved.state) hGrid).1
  have hEvaluated := gated_evaluate hSeen.gated hObserved.state hObserved.active hObserved.gate hEnd hEval
  exact ⟨⟨hEvaluated.gated, rows_evaluate hSeen hEnd hEval⟩, hEvaluated⟩

theorem recorded_cycle {env : CycleEnv F} {r : Except ErrorCode Unit} {m' : Machine F} (h : Recorded m)
    (hEnds : CycleEnds env m r m') : Recorded m' := by
  have hGated := gated_cycle h.gated hEnds
  cases hEnds with
  | unread => exact h
  | early st gate fresh rfs r m' hObserved hGrid hMark =>
    have hSeen := recorded_observed h env fresh
    exact ⟨hGated, rows_mark hSeen.gated.consistent hSeen.rows hMark⟩
  | aborted st gate fresh rfs lastEnd e m' hObserved hGrid hEval =>
    exact (recorded_evaluate h hObserved hGrid hEval).1
  | evaluated st gate fresh rfs lastEnd stop r m1 m' hObserved
      hGrid hEval hMark =>
      have hDone := (recorded_evaluate h hObserved hGrid hEval).1
      exact ⟨hGated, rows_mark hDone.gated.consistent hDone.rows hMark⟩

theorem recorded_passes {env : CycleEnv F} {m' : Machine F} (h : Recorded m)
    (hPasses : CyclePasses env m m') : Recorded m' := by
  have hGated := gated_passes h.gated hPasses
  cases hPasses with
  | observed st gate fresh => exact recorded_observed h env fresh
  | evaluating st gate fresh rfs lastEnd m' hObserved hGrid hEval =>
    cases hEval with
    | asked windowStart => exact ⟨hGated, h.rows⟩
    | ends r _ hEnds => exact (recorded_evaluate h hObserved hGrid hEnds).1
  | ends r _ hEnds => exact recorded_cycle h hEnds

theorem recorded_start {env : StartEnv F} {m' : Machine F} (h : Recorded m)
    (hEnds : StartEnds env m m') : Recorded m' := by
  have hGated := gated_start h.gated hEnds
  have hActivated : ∀ w ∈ (m.activated env).store.tables.windows, RowKept w := by
    apply rows_called_other h.gated.consistent h.rows
    intro _ _ _ hSame
    cases hSame
  have hBroken : ∀ st fresh, ∀ w ∈ (m.broken env st fresh).store.tables.windows,
          RowKept w := by
    intro st fresh
    apply rows_called_other (gated_activated h.gated env).consistent hActivated
    intro _ _ _ hSame
    cases hSame
  cases hEnds with
  | dark => exact ⟨hGated, hActivated⟩
  | broken st fresh => exact ⟨hGated, hBroken st fresh⟩
  | running st fresh => exact ⟨hGated, hBroken st fresh⟩

theorem recorded_died (h : Recorded m) : Recorded (died m) := ⟨gated_died h.gated, h.rows⟩

theorem step_recorded (h : Recorded m) (input : Input F) : Recorded (step m input).2 := by
  have hEnds := step_ends m input
  revert hEnds
  generalize (step m input).2 = m'
  intro hEnds
  cases hEnds with
  | still => exact h
  | died => exact recorded_died h
  | started env _ hIdle hStart => exact recorded_start h hStart
  | startCut env n m' hIdle hStart => exact recorded_died (recorded_start h hStart)
  | scanned env r _ hRunning hAnswer hCycle => exact recorded_cycle h hCycle
  | scanCut env n m' hRunning hPasses => exact recorded_died (recorded_passes h hPasses)
  | rearm env =>
    refine ⟨gated_rearm h.gated env, ?_⟩
    apply rows_called_other h.gated.consistent h.rows
    intro _ _ _ hSame
    cases hSame
  | cleanup env =>
    refine ⟨gated_cleanup h.gated env, ?_⟩
    apply rows_called_other h.gated.consistent h.rows
    intro _ _ _ hSame
    cases hSame

theorem recorded_freshMachine : Recorded (freshMachine : Machine F) := by
  refine ⟨gated_freshMachine, ?_⟩
  intro w hw
  cases hw

end SingboxOps.Scanner
