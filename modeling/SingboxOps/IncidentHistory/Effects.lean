import SingboxOps.IncidentHistory.Invariant

/-
  What a call that lands does to the two tables.

  Every later fact about a run of calls is read off this one
  case analysis, not off the transactions.
-/

namespace SingboxOps.IncidentHistory

variable {F : Type} [BoundedFloat F]

/- The continuity argument of a mark, which may be None. -/
def freshSince (value : Json F) : Except Failure (Option (Option F)) := match value with
  | .null => .ok (some none)
  | value => (incidentEpoch value).map (Option.map some)

/-
  A call lands on a state row and a window table, and leaves
  these.
-/
inductive Effect (st : RuntimeState F) (windows : List (WindowRow F)) :
    Call F → RuntimeState F → List (WindowRow F) → Prop where
  | kept (floor : Json F) : Effect st windows (.activate floor) st windows
  | activated (floor : Json F) (f : F) :
      PyFloat.toRat st.activationFloorEpoch = 0 →
      incidentEpoch floor = .ok (some f) →
      Effect st windows (.activate floor)
        { st with
          activationFloorEpoch := f
          discoveryFloorEpoch := some f
          rearmRequired := 0 }
        windows
  | opened
      (startArg firstArg : Json F)
      (args : SnapshotArgs F)
      (analysisStart firstSignal : F)
      (values : Snapshot F)
      (pick id : ℤ)
      (now : F) :
      incidentEpoch startArg = .ok (some analysisStart) →
      incidentEpoch firstArg = .ok (some firstSignal) →
      incidentValues args = .ok (some values) →
      newRowid (windows.map WindowRow.incidentId) pick = some id →
      Effect st windows (.openWindow startArg firstArg args) { st with openIncidentId := some id }
        (windows ++
          [{ openedRow analysisStart firstSignal values now with
              incidentId := id }])
  | updated
      (idArg : Json F)
      (args : SnapshotArgs F)
      (values : Snapshot F)
      (id : ℤ)
      (now : F) :
      incidentValues args = .ok (some values) →
      Effect st windows (.updateWindow idArg args) st
        (windows.map (fun w => if isOpenRow id w then updatedRow values now w else w))
  | closed
      (idArg : Json F)
      (args : SnapshotArgs F)
      (reasonArg : Json F)
      (values : Snapshot F)
      (reason : PyStr)
      (id : ℤ)
      (now : F) :
      incidentValues args = .ok (some values) →
      memberOf reasonArg incidentClosureReasons = some reason →
      Effect st windows (.closeWindow idArg args reasonArg) (closedGate reason values.lastSignal st)
        (windows.map (fun w =>
          if isOpenRow id w then closedRow values reason now w
          else w))
  | marked
      (evaluatedArg freshArg : Json F)
      (evaluated : F)
      (fresh : Option F) :
      incidentEpoch evaluatedArg = .ok (some evaluated) →
      freshSince freshArg = .ok (some fresh) →
      Effect st windows (.runtimeMark evaluatedArg freshArg)
        { st with
          lastEvaluatedEndEpoch := evaluated
          readerFreshSinceEpoch := fresh }
        windows
  | rearmed (floor : F) :
      st.rearmRequired = 1 →
      Effect st windows .rearm
        { st with
          rearmRequired := 0
          discoveryFloorEpoch := some floor }
        windows
  | cleaned (horizon : ExtFloat F) :
      Effect st windows .cleanup st (windows.filter (fun w =>
          !(decide (w.state = .closed ∧ (ExtFloat.finite w.lastSignalEpoch).lt horizon))))

/- The tables are those an effect leaves. -/
def Leaves (c : Call F) (st : RuntimeState F) (t t' : Tables F) : Prop :=
  ∃ st', t'.state = some st' ∧ Effect st t.windows c st' t'.windows

-- The Transactions

variable {t : Tables F} {st : RuntimeState F}

omit [BoundedFloat F] in
theorem accepted_ok {α : Type} {value : Option α} {a : α} (h : accepted value = .ok a) : value = some a := by
  cases value with
  | none => cases h
  | some b => cases h; rfl

theorem incidentActivate_effect (hState : t.state = some st)
    (floor : Json F) : Returns t (incidentActivateLocked floor)
      (fun _ t' => Leaves (.activate floor) st t t') := by
  apply Returns.bind_ofExcept
  intro value hValue
  apply Returns.bind_ofExcept
  intro f hAccepted
  have hSome := accepted_ok hAccepted
  subst hSome
  apply Returns.bind _ (rowPresent_returns hState)
  rintro _ _ ⟨rfl, rfl⟩
  apply Returns.bind _ (rowPresent_returns hState)
  rintro _ _ ⟨rfl, rfl⟩
  split
  · exact Returns.pure ⟨st, hState, .kept floor⟩
  · apply Returns.bind_execute
    intro n t' hRun
    apply Returns.commit
    rcases updateState_ok hRun hState with ⟨_, _, rfl⟩ | ⟨hZero, _, _, rfl⟩
    · exact ⟨st, hState, .kept floor⟩
    · rw [decide_eq_true_eq] at hZero
      exact ⟨_, rfl, .activated floor f hZero hValue⟩

theorem incidentOpenWindow_effect (hState : t.state = some st)
    (startArg firstArg : Json F) (args : SnapshotArgs F) (now : Json F)
    (pick : ℤ) : Returns t (incidentOpenWindowLocked startArg firstArg args now pick)
      (fun _ t' => Leaves (.openWindow startArg firstArg args) st t t') := by
  apply Returns.bind_ofExcept
  intro analysisStart hStart
  apply Returns.bind_ofExcept
  intro firstSignal hFirst
  apply Returns.bind_ofExcept
  intro values hValues
  apply Returns.bind_ofExcept
  intro now' hNow
  apply Returns.bind_ofExcept
  intro analysisStart' hStart'
  apply Returns.bind_ofExcept
  intro firstSignal' hFirst'
  apply Returns.bind_ofExcept
  intro now'' hNow'
  split
  · exact Returns.fail
  · apply Returns.bind_ofExcept
    intro values' hValues'
    have hSome := accepted_ok hStart'
    subst hSome
    have hSome := accepted_ok hFirst'
    subst hSome
    have hSome := accepted_ok hValues'
    subst hSome
    apply Returns.bind _ (rowPresent_returns hState)
    rintro _ _ ⟨rfl, rfl⟩
    apply Returns.bind_execute
    intro id t' hRun
    have hId : newRowid (t.windows.map WindowRow.incidentId) pick = some id := by
      rw [insertWindow] at hRun
      split at hRun
      · cases hRun
      · rename_i id' hNew
        dsimp only at hRun
        split at hRun
        · cases hRun
          exact hNew
        · cases hRun
    rcases insertWindow_ok hRun with ⟨_, rfl⟩
    apply Returns.bind_execute
    intro m t'' hPointer
    rcases updateState_ok hPointer hState with ⟨hp, _, _⟩ | ⟨_, _, _, rfl⟩
    · cases hp
    · apply Returns.bind (fun _ t' => Leaves (.openWindow startArg firstArg args) st t t')
      · apply Returns.commit
        exact ⟨_, rfl, .opened startArg firstArg args analysisStart' firstSignal' values' pick id now'' hStart
          hFirst hValues hId⟩
      · intro _ t' hLeaves
        exact Returns.pure hLeaves

theorem incidentUpdateWindow_effect (hState : t.state = some st) (idArg : Json F) (args : SnapshotArgs F)
    (now : Json F) : Returns t (incidentUpdateWindowLocked idArg args now)
      (fun _ t' => Leaves (.updateWindow idArg args) st t t') := by
  apply Returns.bind_ofExcept
  intro id hId
  apply Returns.bind_ofExcept
  intro values hValues
  apply Returns.bind_ofExcept
  intro now' hNow
  apply Returns.bind_ofExcept
  intro values' hValues'
  apply Returns.bind_ofExcept
  intro now'' hNow'
  apply Returns.bind_ofExcept
  intro id' hId'
  have hSome := accepted_ok hValues'
  subst hSome
  apply Returns.bind_execute
  intro n t' hRun
  split
  · exact Returns.fail
  · apply Returns.commit
    rcases updateWindows_ok hRun with ⟨_, _, rfl⟩
    exact ⟨st, hState, .updated idArg args values' id' now'' hValues⟩

theorem incidentCloseWindow_effect (hState : t.state = some st) (idArg : Json F) (args : SnapshotArgs F)
    (reasonArg now : Json F) :
    Returns t (incidentCloseWindowLocked idArg args reasonArg now)
      (fun _ t' => Leaves (.closeWindow idArg args reasonArg) st t t') := by
  apply Returns.bind_ofExcept
  intro id hId
  apply Returns.bind_ofExcept
  intro reason hReason
  apply Returns.bind_ofExcept
  intro values hValues
  apply Returns.bind_ofExcept
  intro now' hNow
  apply Returns.bind_ofExcept
  intro values' hValues'
  apply Returns.bind_ofExcept
  intro now'' hNow'
  have hSome := accepted_ok hValues'
  subst hSome
  have hMember := accepted_ok hReason
  split
  · exact Returns.fail
  · apply Returns.bind_ofExcept
    intro id' hId'
    apply Returns.bind_execute
    intro n t' hRun
    rcases updateWindows_ok hRun with ⟨_, _, rfl⟩
    split
    · exact Returns.fail
    · apply Returns.bind_execute
      intro m t'' hGate
      apply Returns.commit
      rcases updateState_ok hGate hState with ⟨hp, _, _⟩ | ⟨_, _, _, rfl⟩
      · cases hp
      · exact ⟨_, rfl, .closed idArg args reasonArg values' reason id' now'' hValues hMember⟩

theorem incidentRuntimeMark_effect (hState : t.state = some st) (evaluatedArg freshArg : Json F) :
    Returns t (incidentRuntimeMarkLocked evaluatedArg freshArg)
      (fun _ t' => Leaves (.runtimeMark evaluatedArg freshArg) st t t') := by
  apply Returns.bind_ofExcept
  intro evaluated hEvaluated
  apply Returns.bind_ofExcept
  intro fresh hFresh
  apply Returns.bind_ofExcept
  intro fresh' hFresh'
  apply Returns.bind_ofExcept
  intro evaluated' hEvaluated'
  have hSome := accepted_ok hFresh'
  subst hSome
  have hSome := accepted_ok hEvaluated'
  subst hSome
  apply Returns.bind _ (rowPresent_returns hState)
  rintro _ _ ⟨rfl, rfl⟩
  apply Returns.bind_execute
  intro n t' hRun
  apply Returns.commit
  rcases updateState_ok hRun hState with ⟨hp, _, _⟩ | ⟨_, _, _, rfl⟩
  · cases hp
  · exact ⟨_, rfl, .marked evaluatedArg freshArg evaluated' fresh' hEvaluated hFresh⟩

theorem incidentRearm_effect (hState : t.state = some st)
    (now : Json F) : Returns t (incidentRearmLocked now) (fun _ t' => Leaves .rearm st t t') := by
  apply Returns.bind_ofExcept
  intro current hCurrent
  apply Returns.bind_ofExcept
  intro current' hCurrent'
  apply Returns.bind _ (rowPresent_returns hState)
  rintro _ _ ⟨rfl, rfl⟩
  apply Returns.bind_ofExcept
  intro floor hFloor
  apply Returns.bind_execute
  intro n t' hRun
  rcases updateState_ok hRun hState with ⟨_, rfl, rfl⟩ | ⟨hGate, rfl, _, rfl⟩
  · exact Returns.fail
  · rw [if_neg (by omega)]
    apply Returns.commit
    rw [decide_eq_true_eq] at hGate
    exact ⟨_, rfl, .rearmed _ hGate.2.2.2⟩

theorem cleanupWindows_effect (hState : t.state = some st)
    (horizon : ExtFloat F) : Returns t (cleanupWindows horizon) (fun _ t' => Leaves .cleanup st t t') := by
  apply Returns.bind_execute
  intro _ t' hRun
  cases hRun
  apply Returns.commit
  exact ⟨st, hState, .cleaned horizon⟩

-- Calls

omit [BoundedFloat F] in
theorem settle_landed {α : Type} {store : Store F} {work : Work F α} {faults : List Bool}
    {answer : α → Option ℤ} {counted : Bool} {id : Option ℤ} {Q : Tables F → Prop}
    (hReturns : Returns store.tables work (fun _ t' => Q t'))
    (h : (settle store work faults answer counted).1 = .landed id) :
    Q (settle store work faults answer counted).2.tables := by
  rw [settle_tables]
  cases hRun : (transact work faults store.tables).1 with
  | ok a => exact transact_ok hReturns hRun
  | error e =>
    exfalso
    unfold settle at h
    cases hPair : transact work faults store.tables with
    | mk result tables =>
      rw [hPair] at h hRun
      dsimp only at hRun
      subst hRun
      cases e <;> cases h

theorem call_effect {env : Env F} {c : Call F} {store : Store F} {st : RuntimeState F}
    {id : Option ℤ} (hState : store.tables.state = some st)
    (h : (call env c store).1 = .landed id) :
    Leaves c st store.tables (call env c store).2.tables := by
  unfold call at h ⊢
  dsimp only at h ⊢
  split
  · rename_i hDisabled
    rw [if_pos hDisabled] at h
    cases h
  · rename_i hEnabled
    rw [if_neg hEnabled] at h
    cases c with
    | activate floor => exact settle_landed (incidentActivate_effect hState _) h
    | openWindow analysisStart firstSignal args =>
      exact settle_landed (incidentOpenWindow_effect hState _ _ _ _ _) h
    | updateWindow incidentId args =>
      exact settle_landed (incidentUpdateWindow_effect hState _ _ _) h
    | closeWindow incidentId args closureReason =>
      exact settle_landed (incidentCloseWindow_effect hState _ _ _ _) h
    | runtimeMark evaluated fresh =>
      exact settle_landed (incidentRuntimeMark_effect hState _ _) h
    | rearm => exact settle_landed (incidentRearm_effect hState _) h
    | cleanup =>
      dsimp only at h ⊢
      have hReturns := cleanupWindows_effect hState (env.clock.sub (.finite env.retention))
      have hDone : (transact (cleanupWindows (env.clock.sub (.finite env.retention)))
              env.faults store.tables).1 = .ok () → _ :=
        transact_ok hReturns
      cases hRun : transact (cleanupWindows (env.clock.sub (.finite env.retention)))
          env.faults store.tables with
      | mk result tables =>
        rw [hRun] at h hDone
        cases result with
        | ok a => exact hDone rfl
        | error e => cases h

/- What a mark that landed left. -/
theorem effect_marked {st st' : RuntimeState F} {windows windows' : List (WindowRow F)}
    {evaluatedArg freshArg : Json F}
    (h : Effect st windows (.runtimeMark evaluatedArg freshArg) st' windows') :
    ∃ evaluated fresh, incidentEpoch evaluatedArg = .ok (some evaluated) ∧
      freshSince freshArg = .ok (some fresh) ∧
      windows' = windows ∧
      st' = { st with
        lastEvaluatedEndEpoch := evaluated
        readerFreshSinceEpoch := fresh } := by
  cases h with
  | marked _ _ evaluated fresh hEvaluated hFresh =>
    exact ⟨evaluated, fresh, hEvaluated, hFresh, rfl, rfl⟩

end SingboxOps.IncidentHistory
