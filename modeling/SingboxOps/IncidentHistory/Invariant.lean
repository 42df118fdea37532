import SingboxOps.IncidentHistory.Calls
import SingboxOps.Lib.Trace

/-
  The incident store's invariant.

  Six calls and the retention cleanup keep one fact between
  the two tables: the state row points at the open row, where
  there is one, and at nothing otherwise.  The rest is what
  the CHECK constraints of the row that is there say.
-/

namespace SingboxOps.IncidentHistory

variable {F : Type} [BoundedFloat F]

/-
  Both tables meet their constraints, and the state row's
  pointer names exactly the open rows.
-/
structure Consistent (t : Tables F) : Prop where
  windows : WindowsChecked t.windows
  state : ∃ st, t.state = some st ∧ st.Checked ∧
      (openRows t.windows).map WindowRow.incidentId = st.openIncidentId.toList

/- A positive activation floor stays. -/
def FloorKept (t t' : Tables F) : Prop := ∀ st ∈ t.state, 0 < PyFloat.toRat st.activationFloorEpoch →
    ∃ st' ∈ t'.state, st'.activationFloorEpoch = st.activationFloorEpoch

/- What every transaction of the incident plane leaves. -/
def Kept (t t' : Tables F) : Prop := Consistent t' ∧ FloorKept t t'

omit [BoundedFloat F] in
/- Rows changed elsewhere than in id and state stay open rows. -/
theorem map_openRows {f : WindowRow F → WindowRow F}
    (hId : ∀ w, (f w).incidentId = w.incidentId) (hState : ∀ w, (f w).state = w.state)
    (windows : List (WindowRow F)) :
    (openRows (windows.map f)).map WindowRow.incidentId = (openRows windows).map WindowRow.incidentId := by
  induction windows with
  | nil => rfl
  | cons w windows ih =>
    simp only [openRows, List.map_cons, List.filter_cons, hState] at ih ⊢
    split
    · rw [List.map_cons, List.map_cons, ih, hId]
    · exact ih

omit [BoundedFloat F] in
theorem openRows_of_countP {windows : List (WindowRow F)} {p : WindowRow F → Bool}
    (hOpen : ∀ w, p w = true → w.state = .opened) (hCount : windows.countP p = 1)
    (hOne : (openRows windows).length ≤ 1) :
    ∀ w ∈ windows, w.state = .opened → p w = true := by
  intro w hMem hState
  have hSame : (openRows windows).countP p = 1 := by
    rw [openRows, List.countP_filter]
    rw [← hCount]
    apply List.countP_congr
    intro v _
    have h := hOpen v
    constructor
    · intro hv
      simp only [Bool.and_eq_true] at hv
      exact hv.1
    · intro hv
      simp only [Bool.and_eq_true, decide_eq_true_eq]
      exact ⟨hv, h hv⟩
  have hLength : (openRows windows).countP p = (openRows windows).length := by
    have hLe := List.countP_le_length (p := p) (l := openRows windows)
    omega
  apply (List.countP_eq_length.mp hLength) w
  rw [openRows, List.mem_filter]
  exact ⟨hMem, by simpa using hState⟩

-- What a Statement Does

theorem updateState_ok {p : RuntimeState F → Bool} {f : RuntimeState F → RuntimeState F}
    {t t' : Tables F} {st : RuntimeState F} {n : ℕ} (h : updateState p f t = .ok (n, t'))
    (hState : t.state = some st) :
    (p st = false ∧ n = 0 ∧ t' = t) ∨
      (p st = true ∧ n = 1 ∧ (f st).Checked ∧ t' = { t with state := some (f st) }) := by
  rw [updateState, hState] at h
  dsimp only at h
  cases hp : p st with
  | false =>
    rw [hp, if_neg Bool.false_ne_true] at h
    cases h
    exact Or.inl ⟨rfl, rfl, rfl⟩
  | true =>
    rw [hp, if_pos rfl] at h
    split at h
    · rename_i hChecked
      cases h
      exact Or.inr ⟨rfl, rfl, hChecked, rfl⟩
    · cases h

theorem updateWindows_ok {p : WindowRow F → Bool} {f : WindowRow F → WindowRow F} {t t' : Tables F} {n : ℕ}
    (h : updateWindows p f t = .ok (n, t')) :
    n = t.windows.countP p ∧ WindowsChecked t'.windows ∧
      t' = { t with
        windows := t.windows.map (fun w => if p w then f w else w) } := by
  rw [updateWindows] at h
  split at h
  · rename_i hChecked
    cases h
    exact ⟨rfl, hChecked, rfl⟩
  · cases h

theorem insertWindow_ok {pick : ℤ} {row : WindowRow F} {t t' : Tables F} {id : ℤ}
    (h : insertWindow pick row t = .ok (id, t')) :
    WindowsChecked t'.windows ∧
      t' = { t with
        windows := t.windows ++ [{ row with incidentId := id }] } := by
  rw [insertWindow] at h
  split at h
  · cases h
  · dsimp only at h
    split at h
    · rename_i hChecked
      cases h
      exact ⟨hChecked, rfl⟩
    · cases h

omit [BoundedFloat F] in
theorem rowPresent_returns {t : Tables F} {st : RuntimeState F}
    (hState : t.state = some st) : Returns t (incidentRuntimeRowPresentLocked (F := F))
      (fun a t' => st = a ∧ t = t') := by
  apply Returns.bind (fun a t' => some st = a ∧ t = t')
  · exact Returns.query ⟨hState.symm, rfl⟩
  · rintro a t' ⟨rfl, rfl⟩
    exact Returns.pure ⟨rfl, rfl⟩

-- What a Call Leaves

variable {t : Tables F}

theorem Consistent.setState (h : Consistent t) {st : RuntimeState F} (hChecked : st.Checked)
    (hPointer : (openRows t.windows).map WindowRow.incidentId = st.openIncidentId.toList) :
    Consistent { t with state := some st } :=
  ⟨h.windows, st, rfl, hChecked, hPointer⟩

theorem floorKept_of_state {t' : Tables F} {st st' : RuntimeState F}
    (hState : t.state = some st) (hState' : t'.state = some st')
    (hFloor : 0 < PyFloat.toRat st.activationFloorEpoch →
        st'.activationFloorEpoch = st.activationFloorEpoch) :
    FloorKept t t' := by
  intro st'' hst'' hPositive
  rw [hState] at hst''
  cases hst''
  exact ⟨st', hState', hFloor hPositive⟩

theorem FloorKept.refl (t : Tables F) : FloorKept t t := fun st hst _ => ⟨st, hst, rfl⟩

/-
  A transaction that rewrites the state row alone, keeping the
  pointer and a positive floor.
-/
theorem updateState_kept (h : Consistent t) {p : RuntimeState F → Bool} {f : RuntimeState F → RuntimeState F}
    (hPointer : ∀ st, (f st).openIncidentId = st.openIncidentId)
    (hFloor : ∀ st, p st = true → 0 < PyFloat.toRat st.activationFloorEpoch →
          (f st).activationFloorEpoch = st.activationFloorEpoch)
    {n : ℕ} {t' : Tables F}
    (hRun : updateState p f t = .ok (n, t')) : Kept t t' := by
  rcases h.state with ⟨st, hState, hChecked, hOpen⟩
  rcases updateState_ok hRun hState with ⟨hp, hn, rfl⟩ | ⟨hp, hn, hChecked', rfl⟩
  · exact ⟨h, FloorKept.refl _⟩
  · constructor
    · apply h.setState hChecked'
      rw [hPointer]
      exact hOpen
    · exact floorKept_of_state hState rfl (hFloor st hp)

theorem incidentActivate_kept (h : Consistent t) (activationFloorEpoch : Json F) :
    Returns t (incidentActivateLocked activationFloorEpoch) (fun _ t' => Kept t t') := by
  rcases h.state with ⟨st, hState, hChecked, hOpen⟩
  apply Returns.bind_ofExcept
  intro floor hFloor
  apply Returns.bind_ofExcept
  intro floor hAccepted
  apply Returns.bind _ (rowPresent_returns hState)
  rintro _ _ ⟨rfl, rfl⟩
  apply Returns.bind _ (rowPresent_returns hState)
  rintro _ _ ⟨rfl, rfl⟩
  by_cases hPositive : 0 < PyFloat.toRat st.activationFloorEpoch
  · rw [if_pos hPositive]
    exact Returns.pure ⟨h, FloorKept.refl _⟩
  · rw [if_neg hPositive]
    apply Returns.bind_execute
    intro n t' hRun
    apply Returns.commit
    apply updateState_kept h _ _ hRun
    · intro st
      rfl
    · intro st hZero hst
      -- the statement's own guard excludes a positive floor
      rw [decide_eq_true_eq] at hZero
      rw [hZero] at hst
      exact absurd hst (lt_irrefl 0)

theorem incidentRuntimeMark_kept (h : Consistent t)
    (lastEvaluatedEndEpoch readerFreshSinceEpoch : Json F) : Returns t
      (incidentRuntimeMarkLocked lastEvaluatedEndEpoch readerFreshSinceEpoch)
      (fun _ t' => Kept t t') := by
  rcases h.state with ⟨st, hState, hChecked, hOpen⟩
  apply Returns.bind_ofExcept
  intro evaluated hEvaluated
  apply Returns.bind_ofExcept
  intro fresh hFresh
  apply Returns.bind_ofExcept
  intro fresh' hFresh'
  apply Returns.bind_ofExcept
  intro evaluated' hEvaluated'
  apply Returns.bind _ (rowPresent_returns hState)
  rintro _ _ ⟨rfl, rfl⟩
  apply Returns.bind_execute
  intro n t' hRun
  apply Returns.commit
  apply updateState_kept h _ _ hRun
  · intro st
    rfl
  · intro st _ _
    rfl

theorem incidentRearm_kept (h : Consistent t)
    (now : Json F) : Returns t (incidentRearmLocked now) (fun _ t' => Kept t t') := by
  rcases h.state with ⟨st, hState, hChecked, hOpen⟩
  apply Returns.bind_ofExcept
  intro current hCurrent
  apply Returns.bind_ofExcept
  intro current' hCurrent'
  apply Returns.bind _ (rowPresent_returns hState)
  rintro _ _ ⟨rfl, rfl⟩
  apply Returns.bind_ofExcept
  intro floor hFloor
  apply Returns.bind_execute
  intro n t' hRun
  split
  · exact Returns.fail
  · apply Returns.commit
    apply updateState_kept h _ _ hRun
    · intro st
      rfl
    · intro st _ _
      rfl

theorem incidentUpdateWindow_kept (h : Consistent t) (incidentId : Json F) (args : SnapshotArgs F)
    (now : Json F) : Returns t (incidentUpdateWindowLocked incidentId args now) (fun _ t' => Kept t t') := by
  rcases h.state with ⟨st, hState, hChecked, hOpen⟩
  apply Returns.bind_ofExcept
  intro id hId
  apply Returns.bind_ofExcept
  intro values hValues
  apply Returns.bind_ofExcept
  intro now' hNow
  apply Returns.bind_ofExcept
  intro values' hValues'
  apply Returns.bind_ofExcept
  intro now'' hNow'
  apply Returns.bind_ofExcept
  intro id' hId'
  apply Returns.bind_execute
  intro n t' hRun
  split
  · exact Returns.fail
  · apply Returns.commit
    rcases updateWindows_ok hRun with ⟨_, hWindows, rfl⟩
    constructor
    · refine ⟨hWindows, st, hState, hChecked, ?_⟩
      rw [← hOpen]
      apply map_openRows
      · intro w
        split <;> rfl
      · intro w
        split <;> rfl
    · exact floorKept_of_state hState hState (fun _ => rfl)

theorem incidentCloseWindow_kept (h : Consistent t) (incidentId : Json F) (args : SnapshotArgs F)
    (closureReason now : Json F) : Returns t (incidentCloseWindowLocked incidentId args closureReason now)
      (fun _ t' => Kept t t') := by
  rcases h.state with ⟨st, hState, hChecked, hOpen⟩
  apply Returns.bind_ofExcept
  intro id hId
  apply Returns.bind_ofExcept
  intro reason hReason
  apply Returns.bind_ofExcept
  intro values hValues
  apply Returns.bind_ofExcept
  intro now' hNow
  apply Returns.bind_ofExcept
  intro values' hValues'
  apply Returns.bind_ofExcept
  intro now'' hNow'
  split
  · exact Returns.fail
  · apply Returns.bind_ofExcept
    intro id' hId'
    apply Returns.bind_execute
    intro n t' hRun
    rcases updateWindows_ok hRun with ⟨hCount, hWindows, rfl⟩
    split
    · exact Returns.fail
    · rename_i hOne
      rw [not_not] at hOne
      apply Returns.bind_execute
      intro m t'' hGate
      apply Returns.commit
      -- the row the statement closed was the only open one
      have hClosed : openRows (t.windows.map (fun w =>
            if isOpenRow id' w then closedRow values' reason now'' w
            else w)) = [] := by
        rw [openRows, List.filter_eq_nil_iff]
        intro v hv
        rcases List.mem_map.mp hv with ⟨w, hw, rfl⟩
        have hFound := openRows_of_countP (p := isOpenRow id') (fun w hp => by
            rw [isOpenRow, decide_eq_true_eq] at hp
            exact hp.2)
          (hCount.symm.trans hOne) h.windows.2.1 w hw
        by_cases hState : w.state = .opened
        · rw [if_pos (hFound hState)]
          simp [closedRow]
        · rw [if_neg]
          · simpa using hState
          · intro hp
            rw [isOpenRow, decide_eq_true_eq] at hp
            exact hState hp.2
      rcases updateState_ok hGate hState with ⟨hp, _, _⟩ | ⟨_, _, hChecked', rfl⟩
      · cases hp
      · constructor
        · refine ⟨hWindows, _, rfl, hChecked', ?_⟩
          dsimp only
          rw [hClosed]
          unfold closedGate
          split <;> rfl
        · apply floorKept_of_state hState rfl
          intro _
          unfold closedGate
          split <;> rfl

theorem incidentOpenWindow_kept (h : Consistent t) (analysisStartEpoch firstSignalEpoch : Json F)
    (args : SnapshotArgs F) (now : Json F)
    (pick : ℤ) : Returns t (incidentOpenWindowLocked analysisStartEpoch firstSignalEpoch args now pick)
      (fun _ t' => Kept t t') := by
  rcases h.state with ⟨st, hState, hChecked, hOpen⟩
  apply Returns.bind_ofExcept
  intro analysisStart hStart
  apply Returns.bind_ofExcept
  intro firstSignal hFirst
  apply Returns.bind_ofExcept
  intro values hValues
  apply Returns.bind_ofExcept
  intro now' hNow
  apply Returns.bind_ofExcept
  intro analysisStart' hStart'
  apply Returns.bind_ofExcept
  intro firstSignal' hFirst'
  apply Returns.bind_ofExcept
  intro now'' hNow'
  split
  · exact Returns.fail
  · apply Returns.bind_ofExcept
    intro values' hValues'
    apply Returns.bind _ (rowPresent_returns hState)
    rintro _ _ ⟨rfl, rfl⟩
    apply Returns.bind_execute
    intro id t' hRun
    rcases insertWindow_ok hRun with ⟨hWindows, rfl⟩
    apply Returns.bind_execute
    intro m t'' hPointer
    apply Returns.bind (fun _ t' => Kept _ t')
    · apply Returns.commit
      -- the unique index leaves room for the new row only
      have hAlone := hWindows.2.1
      dsimp only at hAlone
      rw [openRows, List.filter_append, List.length_append] at hAlone
      have hNew :
          ([{ openedRow analysisStart' firstSignal' values' now''
              with incidentId := id }].filter
            (fun w => w.state = .opened)).length = 1 := rfl
      rw [hNew] at hAlone
      have hNone : openRows t.windows = [] := List.eq_nil_of_length_eq_zero (by rw [openRows]; omega)
      rcases updateState_ok hPointer hState with ⟨hp, _, _⟩ | ⟨_, _, hChecked', rfl⟩
      · cases hp
      · constructor
        · refine ⟨hWindows, _, rfl, hChecked', ?_⟩
          dsimp only
          rw [openRows] at hNone ⊢
          rw [List.filter_append, hNone]
          simp [openedRow]
        · exact floorKept_of_state hState rfl (fun _ => rfl)
    · intro _ t' hKept
      exact Returns.pure hKept

theorem cleanupWindows_kept (h : Consistent t)
    (horizon : ExtFloat F) : Returns t (cleanupWindows horizon) (fun _ t' => Kept t t') := by
  rcases h.state with ⟨st, hState, hChecked, hOpen⟩
  apply Returns.bind_execute
  intro _ t' hRun
  cases hRun
  apply Returns.commit
  -- no open row is deleted
  have hSame : openRows (t.windows.filter (fun w =>
        !decide (w.state = .closed ∧
          (ExtFloat.finite w.lastSignalEpoch).lt horizon = true))) = openRows t.windows := by
    rw [openRows, openRows, List.filter_filter]
    apply List.filter_congr
    intro w _
    cases hw : w.state <;> simp
  constructor
  · refine ⟨⟨?_, ?_, ?_⟩, st, hState, hChecked, ?_⟩
    · exact h.windows.1.sublist (List.Sublist.map _ List.filter_sublist)
    · dsimp only
      rw [hSame]
      exact h.windows.2.1
    · intro w hw
      exact h.windows.2.2 w (List.mem_of_mem_filter hw)
    · dsimp only
      rw [hSame]
      exact hOpen
  · exact floorKept_of_state hState hState (fun _ => rfl)

-- Runs

theorem Kept.refl (h : Consistent t) : Kept t t := ⟨h, FloorKept.refl t⟩

theorem transact_kept {α : Type} {work : Work F α}
    (h : Consistent t) (hReturns : Returns t work (fun _ t' => Kept t t'))
    (faults : List Bool) : Kept t (transact work faults t).2 := by
  cases hRun : (transact work faults t).1 with
  | ok a => exact transact_ok hReturns hRun
  | error e =>
    rw [transact_error hRun]
    exact Kept.refl h

omit [BoundedFloat F] in
theorem settle_tables {α : Type}
    (store : Store F) (work : Work F α) (faults : List Bool) (answer : α → Option ℤ)
    (counted : Bool) :
    (settle store work faults answer counted).2.tables = (transact work faults store.tables).2 := by
  unfold settle
  cases transact work faults store.tables with
  | mk result tables =>
    cases result with
    | ok a => rfl
    | error e => cases e <;> rfl

omit [BoundedFloat F] in
theorem settle_not_landed {α : Type} {store : Store F} {work : Work F α} {faults : List Bool}
    {answer : α → Option ℤ} {counted : Bool}
    (h : ∀ id, (settle store work faults answer counted).1 ≠ .landed id) :
    (settle store work faults answer counted).2.tables = store.tables := by
  rw [settle_tables]
  cases hRun : (transact work faults store.tables).1 with
  | error e => exact transact_error hRun
  | ok a =>
    exfalso
    apply h (answer a)
    unfold settle
    cases hPair : transact work faults store.tables with
    | mk result tables =>
      rw [hPair] at hRun
      subst hRun
      rfl

/- Every call keeps the invariant and a positive floor. -/
theorem call_kept {store : Store F} (h : Consistent store.tables) (env : Env F)
    (c : Call F) : Kept store.tables (call env c store).2.tables := by
  unfold call
  dsimp only
  split
  · exact Kept.refl h
  · cases c with
    | activate floor =>
      rw [settle_tables]
      exact transact_kept h (incidentActivate_kept h _) _
    | openWindow analysisStart firstSignal args =>
      rw [settle_tables]
      exact transact_kept h (incidentOpenWindow_kept h _ _ _ _ _) _
    | updateWindow incidentId args =>
      rw [settle_tables]
      exact transact_kept h (incidentUpdateWindow_kept h _ _ _) _
    | closeWindow incidentId args closureReason =>
      rw [settle_tables]
      exact transact_kept h (incidentCloseWindow_kept h _ _ _ _) _
    | runtimeMark evaluated fresh =>
      rw [settle_tables]
      exact transact_kept h (incidentRuntimeMark_kept h _ _) _
    | rearm =>
      rw [settle_tables]
      exact transact_kept h (incidentRearm_kept h _) _
    | cleanup =>
      have hKept := transact_kept h (cleanupWindows_kept h (env.clock.sub (.finite env.retention))) env.faults
      dsimp only
      revert hKept
      cases transact (cleanupWindows (env.clock.sub (.finite env.retention))) env.faults store.tables with
      | mk result tables =>
        intro hKept
        cases result <;> exact hKept

theorem call_not_landed {store : Store F} {env : Env F} {c : Call F}
    (h : ∀ id, (call env c store).1 ≠ .landed id) :
    (call env c store).2.tables = store.tables := by
  unfold call at h ⊢
  dsimp only at h ⊢
  split
  · rfl
  · rename_i hEnabled
    rw [if_neg hEnabled] at h
    cases c with
    | cleanup =>
      dsimp only at h ⊢
      cases hRun : transact (cleanupWindows (env.clock.sub (.finite env.retention)))
          env.faults store.tables with
      | mk result tables =>
        rw [hRun] at h
        cases result with
        | ok a => exact absurd rfl (h none)
        | error e =>
          have hSame := transact_error (congrArg Prod.fst hRun)
          rw [hRun] at hSame
          exact hSame
    | activate floor => exact settle_not_landed h
    | openWindow analysisStart firstSignal args => exact settle_not_landed h
    | updateWindow incidentId args => exact settle_not_landed h
    | closeWindow incidentId args closureReason => exact settle_not_landed h
    | runtimeMark evaluated fresh => exact settle_not_landed h
    | rearm => exact settle_not_landed h

/- The step of a run: a call in what it finds around it. -/
def step (store : Store F) (i : Env F × Call F) : Outcome × Store F := call i.1 i.2 store

theorem createIncidentStateRow_checked : (createIncidentStateRow : RuntimeState F).Checked := by
  have hLe : realLe (zeroReal : F) zeroReal := le_refl _
  refine ⟨rfl, hLe, hLe, ?_, ?_, ?_, Or.inl rfl, Or.inl rfl, Or.inl hLe⟩
  · rintro e ⟨⟩
  · rintro id ⟨⟩
  · rintro e ⟨⟩

theorem freshStore_consistent : Consistent (freshStore : Store F).tables := by
  refine ⟨⟨List.nodup_nil, Nat.zero_le 1, ?_⟩, _, rfl, createIncidentStateRow_checked, rfl⟩
  intro w hw
  cases hw

/- Every run from a fresh store keeps the invariant. -/
theorem finalState_consistent (calls : List (Env F × Call F)) :
    Consistent (finalState step (freshStore (F := F)) calls).tables :=
  (trace_history step freshStore calls).invariant (I := fun store => Consistent store.tables)
    freshStore_consistent
    (fun _ i h _ => (call_kept h i.1 i.2).1)

/-
  After any run of calls from a fresh store: the pointer names
  exactly the open rows, of which there is at most one; a
  raised re-arm gate has no open row and no discovery floor;
  an activated store without it has a discovery floor.  And
  whatever call comes next, a positive activation floor stays,
  and a call that is refused or fails changes neither table.
-/
theorem incident_store_invariant (calls : List (Env F × Call F)) :
    let store := finalState step (freshStore (F := F)) calls
    ∃ st, store.tables.state = some st ∧
      (openRows store.tables.windows).map WindowRow.incidentId = st.openIncidentId.toList ∧
      (openRows store.tables.windows).length ≤ 1 ∧
      (st.rearmRequired = 1 → openRows store.tables.windows = [] ∧ st.discoveryFloorEpoch = none) ∧
      (0 < PyFloat.toRat st.activationFloorEpoch → st.rearmRequired = 0 → st.discoveryFloorEpoch ≠ none) ∧
      ∀ (env : Env F) (c : Call F), (0 < PyFloat.toRat st.activationFloorEpoch →
          ∃ st' ∈ (call env c store).2.tables.state, st'.activationFloorEpoch = st.activationFloorEpoch) ∧
        ((call env c store).1 = .refused ∨ (call env c store).1 = .failed →
          (call env c store).2.tables = store.tables) := by
  intro store
  have h : Consistent store.tables := finalState_consistent calls
  rcases h.state with ⟨st, hState, hChecked, hOpen⟩
  refine ⟨st, hState, hOpen, h.windows.2.1, ?_, ?_, ?_⟩
  · intro hRearm
    rcases hChecked.rearmed with hZero | ⟨hNone, hFloor⟩
    · omega
    · refine ⟨?_, hFloor⟩
      rw [hNone] at hOpen
      exact List.map_eq_nil_iff.mp hOpen
  · intro hPositive hRearm
    rcases hChecked.activated with hInert | hGate | hFloor
    · unfold realLe at hInert
      have hZero : PyFloat.toRat (zeroReal : F) = 0 := PyFloat.toRat_round_zero
      rw [hZero] at hInert
      exact absurd hPositive (not_lt.mpr hInert)
    · omega
    · exact hFloor
  · intro env c
    constructor
    · intro hPositive
      exact (call_kept h env c).2 st hState hPositive
    · intro hOutcome
      apply call_not_landed
      intro id hLanded
      rw [hLanded] at hOutcome
      rcases hOutcome with hOutcome | hOutcome
      · cases hOutcome
      · cases hOutcome

end SingboxOps.IncidentHistory
