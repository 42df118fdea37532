import SingboxOps.Scanner.Grid

/-
  The gates of discovery.

  A clean close moves the discovery floor to its last signal,
  a close at the window limit raises the re-arm gate, and only
  the operator lowers that.  What the log says last of the
  gates is what the store holds, so every row is opened behind
  the gate in force.
-/

namespace SingboxOps.Scanner

open Classifier EvidenceStore
open IncidentHistory (Env Call Store RuntimeState WindowRow
  SnapshotArgs Outcome call freshStore Consistent Effect)

variable {F : Type} [BoundedFloat F]

-- What the Log Says of the Gates

/-
  The last word on the gates: a first discovery or a re-armed
  one, a clean close with its last signal, or a close at the
  window limit with the evaluated end it left.
-/
inductive Hold (F : Type) where
  | free
  | clean (lastSignal : F)
  | limit (evaluatedEnd : F)

def Hold.next (hold : Hold F) (event : Event F) : Hold F := match event with
  | .closedClean close => .clean close.lastSignal
  | .closedLimit evaluatedEnd => .limit evaluatedEnd
  | .rearmed => .free
  | _ => hold

def holdOf (log : List (Event F)) : Hold F := log.foldl Hold.next .free

/- The runtime state bears out the last word. -/
def Holds (hold : Hold F) (st : RuntimeState F) : Prop := match hold with
  | .free => st.rearmRequired = 0
  | .clean lastSignal =>
    st.rearmRequired = 0 ∧ st.discoveryFloorEpoch = some lastSignal ∧
      0 < PyFloat.toRat st.activationFloorEpoch
  | .limit evaluatedEnd =>
    st.rearmRequired = 1 ∧ st.lastEvaluatedEndEpoch = evaluatedEnd ∧ 0 < PyFloat.toRat st.activationFloorEpoch

/- An event the gates allow. -/
def Lawful (hold : Hold F) (event : Event F) : Prop := match event with
  | .opened st analysisStart =>
    (∀ e, hold ≠ .limit e) ∧ (∀ s, hold = .clean s → PyFloat.toRat s ≤ PyFloat.toRat analysisStart) ∧
      PyFloat.toRat st.activationFloorEpoch ≤ PyFloat.toRat analysisStart ∧
      ∃ floor, st.discoveryFloorEpoch = some floor ∧ PyFloat.toRat floor ≤ PyFloat.toRat analysisStart
  | .closedClean _ => ∀ e, hold ≠ .limit e
  | .closedLimit _ => ∀ e, hold ≠ .limit e
  | .marked evaluatedEnd => ∀ e, hold = .limit e → evaluatedEnd = e
  | .rearmed => ∃ e, hold = .limit e
  | _ => True

def LawfulFrom : Hold F → List (Event F) → Prop
  | _, [] => True
  | hold, event :: rest => Lawful hold event ∧ LawfulFrom (hold.next event) rest

omit [BoundedFloat F] in
theorem holdOf_append (log events : List (Event F)) :
    holdOf (log ++ events) = events.foldl Hold.next (holdOf log) :=
  List.foldl_append

theorem lawfulFrom_append {hold : Hold F} {log events : List (Event F)} : LawfulFrom hold (log ++ events) ↔
      LawfulFrom hold log ∧ LawfulFrom (log.foldl Hold.next hold) events := by
  induction log generalizing hold with
  | nil => simp [LawfulFrom]
  | cons event log ih =>
    simp only [List.cons_append, LawfulFrom, List.foldl_cons, ih, and_assoc]

-- The Invariant

/-
  The tables keep their constraints, the log is lawful and the
  store bears out its last word; the activation floor is a
  whole minute.
-/
structure Gated (m : Machine F) : Prop where
  consistent : Consistent m.store.tables
  lawful : LawfulFrom .free m.log
  holds : ∀ st, m.store.tables.state = some st → Holds (holdOf m.log) st
  floor : ∀ st, m.store.tables.state = some st → OnMinute 29 st.activationFloorEpoch

variable {m : Machine F}

theorem gated_noted (h : Gated m) {event : Event F} (hLawful : Lawful (holdOf m.log) event)
    (hNext : (holdOf m.log).next event = holdOf m.log) : Gated (m.noted event) := by
  refine ⟨h.consistent, ?_, ?_, h.floor⟩
  · unfold Machine.noted
    rw [lawfulFrom_append]
    exact ⟨h.lawful, hLawful, True.intro⟩
  · intro st hState
    have hHold : holdOf (m.noted event).log = holdOf m.log := by
      unfold Machine.noted
      rw [holdOf_append]
      exact hNext
    rw [hHold]
    exact h.holds st hState

/- A call whose effect and event the gates allow. -/
theorem gated_called (h : Gated m) {env : Env F} {c : Call F} {event : Store F → List (Event F)}
    (hEffect : ∀ st st' windows', m.store.tables.state = some st →
        Effect st m.store.tables.windows c st' windows' → LawfulFrom (holdOf m.log) (event m.store) ∧
            Holds ((event m.store).foldl Hold.next (holdOf m.log)) st' ∧
            OnMinute 29 st'.activationFloorEpoch) :
    Gated (m.called env c event) := by
  rcases h.consistent.state with ⟨st, hState, _⟩
  rcases state_called hState env c event with ⟨⟨id, hLanded⟩, st', hState', hLeaves⟩ | ⟨hNot, hSame⟩
  · have hAllowed := hEffect st st' _ hState hLeaves
    have hLog : (m.called env c event).log = m.log ++ event m.store := by
      rcases log_called m env c event with ⟨_, hLog⟩ | ⟨hNot, _⟩
      · exact hLog
      · exact absurd hLanded (hNot id)
    refine ⟨consistent_called h.consistent env c event, ?_, ?_, ?_⟩
    · rw [hLog, lawfulFrom_append]
      exact ⟨h.lawful, hAllowed.1⟩
    · intro st'' hState''
      rw [hState'] at hState''
      cases hState''
      rw [hLog, holdOf_append]
      exact hAllowed.2.1
    · intro st'' hState''
      rw [hState'] at hState''
      cases hState''
      exact hAllowed.2.2
  · have hLog : (m.called env c event).log = m.log := by
      rcases log_called m env c event with ⟨⟨id, hLanded⟩, _⟩ | ⟨_, hLog⟩
      · exact absurd hLanded (hNot id)
      · exact hLog
    refine ⟨consistent_called h.consistent env c event, ?_, ?_, ?_⟩
    · rw [hLog]
      exact h.lawful
    · intro st' hState'
      rw [hSame] at hState'
      rw [hLog]
      exact h.holds st' hState'
    · intro st' hState'
      rw [hSame] at hState'
      exact h.floor st' hState'

theorem holds_congr {hold : Hold F} {st st' : RuntimeState F}
    (h : Holds hold st) (hRearm : st'.rearmRequired = st.rearmRequired)
    (hDiscovery : st'.discoveryFloorEpoch = st.discoveryFloorEpoch)
    (hEvaluated : ∀ e, hold = .limit e → st'.lastEvaluatedEndEpoch = e)
    (hFloor : st'.activationFloorEpoch = st.activationFloorEpoch) : Holds hold st' := by
  cases hold with
  | free => exact hRearm.trans h
  | clean lastSignal =>
    refine ⟨hRearm.trans h.1, hDiscovery.trans h.2.1, ?_⟩
    rw [hFloor]
    exact h.2.2
  | limit evaluatedEnd =>
    refine ⟨hRearm.trans h.1, hEvaluated _ rfl, ?_⟩
    rw [hFloor]
    exact h.2.2

theorem holds_evaluated {hold : Hold F} {st : RuntimeState F} (h : Holds hold st) {e : F}
    (hLimit : hold = .limit e) : st.lastEvaluatedEndEpoch = e := by
  subst hLimit
  exact h.2.1

theorem not_limit_of_rearm {hold : Hold F} {st : RuntimeState F} (h : Holds hold st)
    (hRearm : st.rearmRequired = 0) : ∀ e, hold ≠ .limit e := by
  intro e hLimit
  subst hLimit
  have hOne := h.1
  omega

-- The Evaluation

theorem holdOf_asked (m : Machine F) (rfs : Option F)
    (windowStart : F) : holdOf (m.asked rfs windowStart).log = holdOf m.log := by
  unfold Machine.asked Machine.noted
  rw [holdOf_append]
  rfl

theorem gated_asked (h : Gated m) (rfs : Option F) (windowStart : F) : Gated (m.asked rfs windowStart) :=
  gated_noted h True.intro rfl

/- What the values of a verdict say of its last signal. -/
theorem values_lastSignal {detection : Detection F} {lastSignal lastEnd : F} {count : ℤ}
    {values : IncidentHistory.Snapshot F}
    (h : IncidentHistory.incidentValues
      (verdictArgs detection lastSignal lastEnd count) = .ok (some values)) :
    values.lastSignal = lastSignal ∧
      detection.classification.category.token ∈ IncidentHistory.incidentWindowCategories ∧
      PyFloat.toRat lastSignal ≤ PyFloat.toRat lastEnd := by
  unfold IncidentHistory.incidentValues at h
  split at h
  · cases h
  · rename_i category hCategory
    have hMember : detection.classification.category.token ∈
          IncidentHistory.incidentWindowCategories := by
      change (if detection.classification.category.token ∈
          IncidentHistory.incidentWindowCategories then some _
        else none) = _ at hCategory
      split at hCategory
      · assumption
      · cases hCategory
    rcases except_bind_ok h with ⟨signal, hSignal, h⟩
    rcases except_bind_ok h with ⟨stop, hStop, h⟩
    split at h
    · rename_i signal stop
      have hSame := incidentEpoch_real hSignal
      have hSame' := incidentEpoch_real hStop
      subst hSame hSame'
      split at h
      · cases h
      · rename_i hOrder
        rw [not_not] at hOrder
        split at h
        · cases h
          exact ⟨rfl, hMember, hOrder⟩
        · cases h
    · cases h

theorem effect_closed {st st' : RuntimeState F} {windows windows' : List (WindowRow F)}
    {idArg : Json F} {args : SnapshotArgs F} {reason : PyStr}
    (h : Effect st windows (.closeWindow idArg args (.str reason)) st' windows') :
    ∃ values, IncidentHistory.incidentValues args = .ok (some values) ∧
      st' = IncidentHistory.closedGate reason values.lastSignal st := by
  cases h with
  | closed _ _ _ values reason' id now hValues hReason =>
    refine ⟨values, hValues, ?_⟩
    change (if reason ∈ IncidentHistory.incidentClosureReasons
      then some reason else none) = _ at hReason
    split at hReason
    · cases hReason
      rfl
    · cases hReason

omit [BoundedFloat F] in
theorem limit_ne_clean : IncidentHistory.incidentClosureWindowLimit ≠
      IncidentHistory.incidentClosureCleanBuckets := by
  decide

/- An evaluation the gates allow, and what its mark may write. -/
structure GatedEval (st : RuntimeState F) (r : Except ErrorCode (Option F))
    (m' : Machine F) : Prop where
  gated : Gated m'
  mark : ∀ stop, r = .ok stop → ∀ e, holdOf m'.log = .limit e → stop.getD st.lastEvaluatedEndEpoch = e

theorem noRow_of_rearm (h : Gated m) {st : RuntimeState F} (hState : m.store.tables.state = some st)
    (hRearm : st.rearmRequired = 1) : openRowOf m.store st = none := by
  rcases h.consistent.state with ⟨st', hState', hChecked, _⟩
  rw [hState] at hState'
  cases hState'
  unfold openRowOf
  rcases hChecked.rearmed with hZero | ⟨hNone, _⟩
  · omega
  · rw [hNone]
    rfl

theorem gatedEval_asked (h : Gated m)
    {st : RuntimeState F} {rfs : Option F} {windowStart : F} {r : Except ErrorCode (Option F)}
    (hHold : ∀ e, holdOf m.log ≠ .limit e) : GatedEval st r (m.asked rfs windowStart) := by
  refine ⟨gated_asked h rfs windowStart, ?_⟩
  intro stop _ e hLimit
  rw [holdOf_asked] at hLimit
  exact absurd hLimit (hHold e)

/- A window call the gates allow, where no limit holds. -/
theorem gatedEval_called (h : Gated m) {env : Env F} {c : Call F} {event : Store F → List (Event F)}
    {st : RuntimeState F} {r : Except ErrorCode (Option F)}
    (hHold : ∀ e, holdOf m.log ≠ .limit e)
    (hEvent : ∀ e, (event m.store).foldl Hold.next (holdOf m.log) ≠ .limit e)
    (hEffect : ∀ st st' windows', m.store.tables.state = some st →
        Effect st m.store.tables.windows c st' windows' → LawfulFrom (holdOf m.log) (event m.store) ∧
            Holds ((event m.store).foldl Hold.next (holdOf m.log)) st' ∧
            OnMinute 29 st'.activationFloorEpoch) :
    GatedEval st r (m.called env c event) := by
  refine ⟨gated_called h hEffect, ?_⟩
  intro stop _ e hLimit
  exfalso
  rcases log_called m env c event with ⟨_, hLog⟩ | ⟨_, hLog⟩
  · rw [hLog, holdOf_append] at hLimit
    exact hEvent e hLimit
  · rw [hLog] at hLimit
    exact hHold e hLimit

theorem gated_evaluate {env : CycleEnv F} {st : RuntimeState F} {gate : Option F}
    {lastEnd : F} {rfs : Option F} {r : Except ErrorCode (Option F)}
    {m' : Machine F} (h : Gated m) (hState : m.store.tables.state = some st)
    (hActive : 0 < PyFloat.toRat st.activationFloorEpoch)
    (hGate : GateOf st gate) (hEnd : OnMinute 32 lastEnd)
    (hEnds : EvaluateEnds env (openRowOf m.store st) gate lastEnd rfs m r m') :
    GatedEval st r m' := by
  have hHolds := h.holds st hState
  have hMinute := h.floor st hState
  -- where the limit holds, the cycle is idle
  have hFree : openRowOf m.store st ≠ none ∨ gate ≠ none → ∀ e, holdOf m.log ≠ .limit e := by
    intro hBusy
    apply not_limit_of_rearm hHolds
    rcases hGate with ⟨hRearm, hNone⟩ | ⟨hRearm, _⟩
    · rcases hBusy with hRow | hSome
      · exact absurd (noRow_of_rearm h hState hRearm) hRow
      · exact absurd hNone hSome
    · exact hRearm
  have hRow : ∀ {row windowStart}, OpenWindow (openRowOf m.store st) row windowStart lastEnd →
          ∀ e, holdOf m.log ≠ .limit e := by
    intro row windowStart hWindow
    apply hFree
    left
    rw [hWindow.isOpen]
    simp
  cases hEnds with
  | idle =>
    refine ⟨h, ?_⟩
    intro stop hStop e hLimit
    cases hStop
    exact holds_evaluated hHolds hLimit
  | corrupt =>
    refine ⟨h, ?_⟩
    intro stop hStop
    cases hStop
  | limit row lastSignal classifiedEnd hOpen =>
    have hHold := hFree (Or.inl (by rw [hOpen]; simp))
    have hEvent : limitEvent m.store = [.closedLimit st.lastEvaluatedEndEpoch] := by
      unfold limitEvent
      rw [hState]
    refine ⟨gated_called h ?_, ?_⟩
    · intro st1 st' windows' hState1 hEffect
      rw [hState] at hState1
      cases hState1
      rcases effect_closed hEffect with ⟨values, _, rfl⟩
      rw [hEvent]
      unfold IncidentHistory.closedGate
      rw [if_neg limit_ne_clean]
      exact ⟨⟨hHold, True.intro⟩, ⟨rfl, rfl, hActive⟩, hMinute⟩
    · intro stop hStop e hLimit
      rcases answered_ok hStop with ⟨_, rfl⟩
      rcases log_called m env.write (limitCall row lastSignal classifiedEnd) limitEvent with
        ⟨_, hLog⟩ | ⟨_, hLog⟩
      · rw [hLog, hEvent, holdOf_append] at hLimit
        cases hLimit
        rfl
      · rw [hLog] at hLimit
        exact absurd hLimit (hHold e)
  | unjudged windowStart e hNone =>
    refine ⟨gated_asked h rfs windowStart, ?_⟩
    intro stop hStop
    cases hStop
  | quiet floor evidence detection hNone hSome =>
    apply gatedEval_asked h
    apply hFree
    right
    rw [hSome]
    simp
  | signalless windowStart evidence detection e hJudged =>
    refine ⟨gated_asked h rfs windowStart, ?_⟩
    intro stop hStop
    cases hStop
  | opened floor evidence detection firstSignal lastSignal hNone
      hSome hWarm hJudged hStatus hFirst hLast =>
      have hHold := hFree (Or.inr (by rw [hSome]; simp))
      have hOpened := opened_start hEnd hJudged hStatus hFirst
      have hEvent : openedEvent (PyFloat.sub firstSignal (minBaselineBuckets * bucketSeconds) : F)
            (m.asked rfs (discoveryStart lastEnd)).store =
          [.opened st (PyFloat.sub firstSignal (minBaselineBuckets * bucketSeconds))] := by
        unfold openedEvent Machine.asked Machine.noted
        rw [hState]
      have hAsked := gated_asked h rfs (discoveryStart lastEnd)
      have hSameHold := holdOf_asked m rfs (discoveryStart lastEnd)
      apply gatedEval_called hAsked
      · rw [hSameHold]
        exact hHold
      · rw [hEvent, hSameHold]
        exact hHold
      · intro st1 st' windows' hState1 hEffect
        have hSame : st1 = st := by
          have hAgain : m.store.tables.state = some st1 := hState1
          rw [hState] at hAgain
          exact (Option.some.inj hAgain).symm
        subst hSame
        rw [hEvent, hSameHold]
        -- the gate in force is the discovery floor of the store
        have hFloor : st1.discoveryFloorEpoch = some floor ∧ st1.rearmRequired = 0 := by
          rcases hGate with ⟨_, hGateNone⟩ | ⟨hRearm, f, hf, hGateF⟩
          · rw [hSome] at hGateNone
            cases hGateNone
          · rw [hSome] at hGateF
            cases hGateF
            exact ⟨hf, hRearm⟩
        unfold warming at hWarm
        rw [not_lt] at hWarm
        have hBehind := hWarm.trans hOpened.2
        have hActivation : PyFloat.toRat st1.activationFloorEpoch ≤ PyFloat.toRat floor := by
          rcases h.consistent.state with ⟨st2, hState2, hChecked, _⟩
          rw [hState] at hState2
          cases hState2
          exact hChecked.discovery floor hFloor.1
        refine ⟨⟨⟨hHold, ?_, hActivation.trans hBehind, floor, hFloor.1, hBehind⟩, True.intro⟩, ?_, ?_⟩
        · intro s hClean
          rw [hClean] at hHolds
          have hSignal := hHolds.2.1
          rw [hFloor.1] at hSignal
          cases hSignal
          exact hBehind
        · cases hEffect with
          | opened =>
            exact holds_congr hHolds rfl rfl (fun e hLimit => absurd hLimit (hHold e)) rfl
        · cases hEffect with
          | opened => exact hMinute
  | closed close windowStart hWindow hLastEnd hCount hJudged hSignal
      hClean =>
      have hHold := hRow hWindow
      have hAsked := gated_asked h rfs windowStart
      have hSameHold := holdOf_asked m rfs windowStart
      apply gatedEval_called hAsked
      · rw [hSameHold]
        exact hHold
      · intro e hLimit
        cases hLimit
      · intro st1 st' windows' hState1 hEffect
        have hSame : st1 = st := by
          have hAgain : m.store.tables.state = some st1 := hState1
          rw [hState] at hAgain
          exact (Option.some.inj hAgain).symm
        subst hSame
        rcases effect_closed hEffect with ⟨values, hValues, rfl⟩
        rw [(values_lastSignal hValues).1, hSameHold]
        unfold IncidentHistory.closedGate
        rw [if_pos rfl]
        exact ⟨⟨hHold, True.intro⟩, ⟨rfl, rfl, hActive⟩, hMinute⟩
  | unchanged row windowStart evidence detection lastSignal
      hWindow =>
      exact gatedEval_asked h (hRow hWindow)
  | updated row windowStart evidence detection lastSignal
      hWindow =>
      have hHold := hRow hWindow
      have hAsked := gated_asked h rfs windowStart
      have hSameHold := holdOf_asked m rfs windowStart
      apply gatedEval_called hAsked
      · rw [hSameHold]
        exact hHold
      · rw [hSameHold]
        exact hHold
      · intro st1 st' windows' hState1 hEffect
        rw [hSameHold]
        cases hEffect with
        | updated =>
          have hSame : st1 = st := by
            have hAgain : m.store.tables.state = some st1 := hState1
            rw [hState] at hAgain
            exact (Option.some.inj hAgain).symm
          subst hSame
          exact ⟨True.intro, hHolds, hMinute⟩

-- Steps

theorem gated_markCall (h : Gated m) {env : Env F} {stop : F} {rfs : Option F}
    (hStop : ∀ e, holdOf m.log = .limit e → stop = e) :
    Gated (m.called env (markCall stop rfs) (fun _ => [.marked stop])) := by
  apply gated_called h
  intro st st' windows' hState hEffect
  rcases IncidentHistory.effect_marked hEffect with ⟨evaluated, fresh, hEvaluated, _, _, rfl⟩
  have hSame := incidentEpoch_real hEvaluated
  subst hSame
  refine ⟨⟨hStop, True.intro⟩, ?_, h.floor st hState⟩
  change Holds (holdOf m.log) _
  apply holds_congr (h.holds st hState)
  · rfl
  · rfl
  · intro e hLimit
    exact hStop e hLimit
  · rfl

theorem gated_mark (h : Gated m) {env : CycleEnv F} {st : RuntimeState F} {evaluated rfs : Option F}
    {r : Except ErrorCode Unit} {m' : Machine F}
    (hMark : ∀ e, holdOf m.log = .limit e → evaluated.getD st.lastEvaluatedEndEpoch = e)
    (hEnds : MarkEnds env st evaluated rfs m r m') : Gated m' := by
  cases hEnds with
  | corrupt => exact h
  | called stop hStop =>
    apply gated_markCall h
    intro e hLimit
    rw [hStop]
    exact hMark e hLimit

theorem gated_observed (h : Gated m) (env : CycleEnv F) (fresh : Bool) : Gated (m.observed env fresh) :=
  gated_noted h True.intro rfl

theorem gated_cycle {env : CycleEnv F} {r : Except ErrorCode Unit} {m' : Machine F} (h : Gated m)
    (hEnds : CycleEnds env m r m') : Gated m' := by
  cases hEnds with
  | unread => exact h
  | early st gate fresh rfs r m' hObserved hGrid hMark =>
    have hSeen := gated_observed h env fresh
    apply gated_mark hSeen _ hMark
    intro e hLimit
    exact holds_evaluated (hSeen.holds st hObserved.state) hLimit
  | aborted st gate fresh rfs lastEnd e m' hObserved hGrid hEval =>
    have hFloor := h.floor st hObserved.state
    exact (gated_evaluate (gated_observed h env fresh) hObserved.state hObserved.active hObserved.gate
      (lastCompleteEnd_onMinute hFloor hGrid).1 hEval).gated
  | evaluated st gate fresh rfs lastEnd stop r m1 m' hObserved
      hGrid hEval hMark =>
      have hFloor := h.floor st hObserved.state
      have hDone := gated_evaluate (gated_observed h env fresh)
        hObserved.state hObserved.active hObserved.gate
        (lastCompleteEnd_onMinute hFloor hGrid).1 hEval
      exact gated_mark hDone.gated (hDone.mark stop rfl) hMark

theorem gated_passes {env : CycleEnv F} {m' : Machine F} (h : Gated m)
    (hPasses : CyclePasses env m m') : Gated m' := by
  cases hPasses with
  | observed st gate fresh => exact gated_observed h env fresh
  | evaluating st gate fresh rfs lastEnd m' hObserved hGrid hEval =>
    have hSeen := gated_observed h env fresh
    have hFloor := h.floor st hObserved.state
    cases hEval with
    | asked windowStart => exact gated_asked hSeen rfs windowStart
    | ends r _ hEnds =>
      exact (gated_evaluate hSeen hObserved.state hObserved.active hObserved.gate
        (lastCompleteEnd_onMinute hFloor hGrid).1 hEnds).gated
  | ends r _ hEnds => exact gated_cycle h hEnds

theorem gated_activated (h : Gated m) (env : StartEnv F) : Gated (m.activated env) := by
  apply gated_called h
  intro st st' windows' hState hEffect
  cases hEffect with
  | kept => exact ⟨True.intro, h.holds st hState, h.floor st hState⟩
  | activated _ f hZero hFloor =>
    have hSame := incidentEpoch_real hFloor
    subst hSame
    refine ⟨True.intro, ?_, onMinute_activationFloor env.now⟩
    have hHolds := h.holds st hState
    change Holds (holdOf m.log) _
    -- no row was ever closed before the first activation
    cases hHold : holdOf m.log with
    | free => rfl
    | clean s =>
      rw [hHold] at hHolds
      exact absurd hHolds.2.2 (by rw [hZero]; exact lt_irrefl 0)
    | limit e =>
      rw [hHold] at hHolds
      exact absurd hHolds.2.2 (by rw [hZero]; exact lt_irrefl 0)

theorem gated_start {env : StartEnv F} {m' : Machine F} (h : Gated m)
    (hEnds : StartEnds env m m') : Gated m' := by
  have hActivated := gated_activated h env
  have hBroken : ∀ st fresh,
        (m.activated env).store.tables.state = some st → Gated (m.broken env st fresh) := by
    intro st fresh hState
    have hCall : breakCall env st fresh = markCall st.lastEvaluatedEndEpoch
            (if fresh then some env.floor else none) := by
      cases fresh <;> rfl
    unfold Machine.broken
    rw [hCall]
    apply gated_markCall hActivated
    intro e hLimit
    exact holds_evaluated (hActivated.holds st hState) hLimit
  cases hEnds with
  | dark => exact hActivated
  | broken st fresh hState => exact hBroken st fresh hState
  | running st fresh id hState hLanded hGates =>
    have hKept := hBroken st fresh hState
    exact ⟨hKept.consistent, hKept.lawful, hKept.holds, hKept.floor⟩

theorem gated_died (h : Gated m) : Gated (died m) := ⟨h.consistent, h.lawful, h.holds, h.floor⟩

theorem gated_rearm (h : Gated m) (env : Env F) : Gated (m.called env .rearm (fun _ => [.rearmed])) := by
  apply gated_called h
  intro st st' windows' hState hEffect
  have hHolds := h.holds st hState
  cases hEffect with
  | rearmed floor hRearm =>
    refine ⟨⟨?_, True.intro⟩, rfl, h.floor st hState⟩
    cases hHold : holdOf m.log with
    | free =>
      rw [hHold] at hHolds
      change st.rearmRequired = 0 at hHolds
      omega
    | clean s =>
      rw [hHold] at hHolds
      have hZero := hHolds.1
      omega
    | limit e => exact ⟨e, rfl⟩

theorem gated_cleanup (h : Gated m) (env : Env F) : Gated (m.called env .cleanup (fun _ => [])) := by
  apply gated_called h
  intro st st' windows' hState hEffect
  cases hEffect with
  | cleaned => exact ⟨True.intro, h.holds st hState, h.floor st hState⟩

theorem step_gated (h : Gated m) (input : Input F) : Gated (step m input).2 := by
  have hEnds := step_ends m input
  revert hEnds
  generalize (step m input).2 = m'
  intro hEnds
  cases hEnds with
  | still => exact h
  | died => exact gated_died h
  | started env _ hIdle hStart => exact gated_start h hStart
  | startCut env n m' hIdle hStart => exact gated_died (gated_start h hStart)
  | scanned env r _ hRunning hAnswer hCycle => exact gated_cycle h hCycle
  | scanCut env n m' hRunning hPasses => exact gated_died (gated_passes h hPasses)
  | rearm env => exact gated_rearm h env
  | cleanup env => exact gated_cleanup h env

theorem gated_freshMachine : Gated (freshMachine : Machine F) := by
  refine ⟨IncidentHistory.freshStore_consistent, True.intro, ?_, ?_⟩
  · intro st hState
    cases hState
    rfl
  · intro st hState
    cases hState
    refine ⟨0, ?_, by simp⟩
    rw [Int.cast_zero, mul_zero]
    exact PyFloat.toRat_round_zero

theorem finalState_gated (inputs : List (Input F)) : Gated (finalState step freshMachine inputs) :=
  (trace_history step freshMachine inputs).invariant gated_freshMachine
    (fun _ input h _ => step_gated h input)

-- Successive Incidents

/- A row was closed. -/
def Event.IsClose (event : Event F) : Prop :=
  (∃ close, event = .closedClean close) ∨ ∃ evaluatedEnd, event = .closedLimit evaluatedEnd

theorem clean_stays {lastSignal : F} {events : List (Event F)}
    (hLawful : LawfulFrom (.clean lastSignal) events)
    (hNone : ∀ e ∈ events, ¬ e.IsClose) :
    events.foldl Hold.next (.clean lastSignal) = .clean lastSignal := by
  induction events with
  | nil => rfl
  | cons event rest ih =>
    have hRest : ∀ e ∈ rest, ¬ e.IsClose := fun e he => hNone e (List.mem_cons_of_mem event he)
    have hHead := hNone event List.mem_cons_self
    cases event with
    | closedClean close => exact absurd (Or.inl ⟨_, rfl⟩) hHead
    | closedLimit e => exact absurd (Or.inr ⟨_, rfl⟩) hHead
    | rearmed =>
      rcases hLawful.1 with ⟨e, hLimit⟩
      cases hLimit
    | observed => exact ih hLawful.2 hRest
    | projected => exact ih hLawful.2 hRest
    | opened => exact ih hLawful.2 hRest
    | marked => exact ih hLawful.2 hRest

/- At the window limit nothing moves until the re-arm. -/
theorem limit_stays {evaluatedEnd : F} {events : List (Event F)}
    (hLawful : LawfulFrom (.limit evaluatedEnd) events)
    (hNone : .rearmed ∉ events) :
    events.foldl Hold.next (.limit evaluatedEnd) = .limit evaluatedEnd ∧
      (∀ st analysisStart, .opened st analysisStart ∉ events) ∧
      ∀ stop, .marked stop ∈ events → stop = evaluatedEnd := by
  induction events with
  | nil =>
    refine ⟨rfl, ?_, ?_⟩
    · intro st analysisStart hMem
      cases hMem
    · intro stop hMem
      cases hMem
  | cons event rest ih =>
    rw [List.mem_cons, not_or] at hNone
    have hStep : (Hold.limit evaluatedEnd).next event = .limit evaluatedEnd ∧
          (∀ st analysisStart, event ≠ .opened st analysisStart) ∧
          ∀ stop, event = .marked stop → stop = evaluatedEnd := by
      cases event with
      | closedClean close => exact absurd rfl (hLawful.1 _)
      | closedLimit e => exact absurd rfl (hLawful.1 _)
      | opened st analysisStart => exact absurd rfl (hLawful.1.1 _)
      | rearmed => exact absurd rfl hNone.1
      | observed => simp [Hold.next]
      | projected => simp [Hold.next]
      | marked stop =>
        have hSame := hLawful.1 evaluatedEnd rfl
        refine ⟨rfl, by simp, ?_⟩
        intro stop' hStop
        cases hStop
        exact hSame
    have hTail := ih (by rw [← hStep.1]; exact hLawful.2) hNone.2
    refine ⟨?_, ?_, ?_⟩
    · rw [List.foldl_cons, hStep.1]
      exact hTail.1
    · intro st analysisStart hMem
      rcases List.mem_cons.mp hMem with hHead | hRest
      · exact hStep.2.1 st analysisStart hHead.symm
      · exact hTail.2.1 st analysisStart hRest
    · intro stop hMem
      rcases List.mem_cons.mp hMem with hHead | hRest
      · exact hStep.2.2 stop hHead.symm
      · exact hTail.2.2 stop hRest

theorem lawful_of_split {log before after : List (Event F)} {event : Event F} (h : LawfulFrom .free log)
    (hSplit : log = before ++ event :: after) : Lawful (holdOf before) event := by
  rw [hSplit, lawfulFrom_append] at h
  exact h.2.1

/-
  In every run, with any clock, evidence, crashes and storage
  failures: a row opened after a clean close, with no other
  close between, starts no earlier than the last signal that
  closed; every row starts behind the activation floor and the
  discovery floor in force when it was opened; and from a close
  at the window limit until the operator re-arms, no row is
  opened and the evaluated end stays where it was.
-/
theorem incidents_do_not_overlap (inputs : List (Input F)) :
    let m := finalState step freshMachine inputs
    (∀ before middle after close st analysisStart,
      m.log = before ++ .closedClean close :: (middle ++ .opened st analysisStart :: after) →
      (∀ e ∈ middle, ¬ e.IsClose) → PyFloat.toRat close.lastSignal ≤ PyFloat.toRat analysisStart) ∧
    (∀ st analysisStart, .opened st analysisStart ∈ m.log →
      PyFloat.toRat st.activationFloorEpoch ≤ PyFloat.toRat analysisStart ∧
        ∃ floor, st.discoveryFloorEpoch = some floor ∧ PyFloat.toRat floor ≤ PyFloat.toRat analysisStart) ∧
    ∀ before after evaluatedEnd, m.log = before ++ .closedLimit evaluatedEnd :: after →
      .rearmed ∉ after → (∀ st analysisStart, .opened st analysisStart ∉ after) ∧
        (∀ stop, .marked stop ∈ after → stop = evaluatedEnd) ∧
        ∃ st, m.store.tables.state = some st ∧ st.rearmRequired = 1 ∧
          st.lastEvaluatedEndEpoch = evaluatedEnd := by
  intro m
  have h : Gated m := finalState_gated inputs
  refine ⟨?_, ?_, ?_⟩
  · intro before middle after close st analysisStart hSplit hNone
    have hLog := h.lawful
    rw [hSplit, lawfulFrom_append] at hLog
    have hMiddle := lawfulFrom_append.mp hLog.2.2
    have hHold : (Hold.clean close.lastSignal) = middle.foldl Hold.next (.clean close.lastSignal) :=
      (clean_stays hMiddle.1 hNone).symm
    have hOpened := hMiddle.2.1
    exact hOpened.2.1 close.lastSignal hHold.symm
  · intro st analysisStart hMem
    rcases List.append_of_mem hMem with ⟨before, after, hSplit⟩
    exact (lawful_of_split h.lawful hSplit).2.2
  · intro before after evaluatedEnd hSplit hNone
    have hLog := h.lawful
    rw [hSplit, lawfulFrom_append] at hLog
    have hStays := limit_stays hLog.2.2 hNone
    refine ⟨hStays.2.1, hStays.2.2, ?_⟩
    rcases h.consistent.state with ⟨st, hState, _⟩
    have hHolds := h.holds st hState
    have hHold : holdOf m.log = .limit evaluatedEnd := by
      rw [hSplit, holdOf_append]
      exact hStays.1
    rw [hHold] at hHolds
    exact ⟨st, hState, hHolds.1, hHolds.2.1⟩

end SingboxOps.Scanner
