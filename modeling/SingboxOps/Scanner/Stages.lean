import SingboxOps.IncidentHistory.Effects
import SingboxOps.Scanner.Cycle

/-
  What a scan cycle can do.

  A cycle observes the heartbeat, asks for at most one window,
  makes at most one window call, and marks.  The two
  inductives list how its evaluation and the cycle itself can
  end, with the machine each end leaves; every law of the
  scanner is a case analysis of them.
-/

namespace SingboxOps.Scanner

open Classifier EvidenceStore
open IncidentHistory (Env Call Store RuntimeState WindowRow
  SnapshotArgs Outcome call freshStore Consistent Effect
  call_kept call_effect call_not_landed)

variable {F : Type} [BoundedFloat F]

-- Single Stages

/- The machine after an event. -/
def Machine.noted (m : Machine F) (event : Event F) : Machine F := { m with log := m.log ++ [event] }

/- The machine after a call of the store. -/
def Machine.called (m : Machine F) (env : Env F) (c : Call F)
    (event : Store F → List (Event F)) : Machine F :=
  { m with
    store := (call env c m.store).2
    log := m.log ++
      match (call env c m.store).1 with
      | .landed _ => event m.store
      | _ => [] }

/- The answer of a stage that needs its call to land. -/
def answered {α : Type} (outcome : Outcome) (a : α) : Except ErrorCode α := match outcome with
  | .landed _ => .ok a
  | _ => .error .persistFailed

variable {m : Machine F}

theorem note_triple {J : Machine F → Prop} {event : Event F}
    {Q : Except ErrorCode Unit → Machine F → Prop} (hSeen : J (m.noted event))
    (h : Q (.ok ()) (m.noted event)) : Triple J m (note event) Q :=
  Triple.change hSeen h

theorem persist_triple {α : Type} {J : Machine F → Prop} {env : Env F} {c : Call F}
    {event : Store F → List (Event F)} {a : α}
    {Q : Except ErrorCode α → Machine F → Prop} (hSeen : J (m.called env c event))
    (h : Q (answered (call env c m.store).1 a) (m.called env c event)) :
    Triple J m (do persist env c event; pure a) Q := by
  have hFirst : Triple J m (persist env c event)
        (fun r m' => m' = m.called env c event ∧ r = answered (call env c m.store).1 ()) := by
    unfold persist storeCall
    apply Triple.bind (Q := fun r m' => m' = m.called env c event ∧ r = .ok (call env c m.store).1)
    · exact Triple.act hSeen ⟨rfl, rfl⟩
    · intro outcome m' hEnd
      rcases hEnd with ⟨rfl, hOutcome⟩
      rw [Except.ok.injEq] at hOutcome
      rw [← hOutcome]
      cases outcome with
      | landed id => exact Triple.pure ⟨rfl, rfl⟩
      | refused => exact Triple.fail ⟨rfl, rfl⟩
      | failed => exact Triple.fail ⟨rfl, rfl⟩
    · intro e m' hEnd
      cases hEnd.2
  apply Triple.bind hFirst
  · intro _ m' hEnd
    rcases hEnd with ⟨rfl, hAnswer⟩
    apply Triple.pure
    cases hOutcome : (call env c m.store).1 with
    | landed id =>
      rw [hOutcome] at h
      exact h
    | refused =>
      rw [hOutcome] at hAnswer
      cases hAnswer
    | failed =>
      rw [hOutcome] at hAnswer
      cases hAnswer
  · intro e m' hEnd
    rcases hEnd with ⟨rfl, hAnswer⟩
    cases hOutcome : (call env c m.store).1 with
    | landed id =>
      rw [hOutcome] at hAnswer
      cases hAnswer
    | refused =>
      rw [hOutcome] at h hAnswer
      cases hAnswer
      exact h
    | failed =>
      rw [hOutcome] at h hAnswer
      cases hAnswer
      exact h

theorem persist_unit_triple {J : Machine F → Prop} {env : Env F} {c : Call F}
    {event : Store F → List (Event F)} {Q : Except ErrorCode Unit → Machine F → Prop}
    (hSeen : J (m.called env c event))
    (h : Q (answered (call env c m.store).1 ()) (m.called env c event)) :
    Triple J m (persist env c event) Q := by
  have hTriple := persist_triple (a := ()) hSeen h
  have hSame : (do persist env c event; pure () : Scan F Unit) = persist env c event := by
    funext s
    simp only [Bind.bind, Pure.pure]
    rcases persist env c event s with ⟨r, s', seen⟩
    cases r with
    | ok a => simp
    | error e => rfl
  rw [hSame] at hTriple
  exact hTriple

-- The Evaluation

/- A window's bundle and what the classifier makes of it. -/
structure Judged (env : CycleEnv F) (windowStart lastEnd : F) (rfs : Option F) (evidence : Members F)
    (detection : Detection F) : Prop where
  bundle :
    classifierBundle env.read windowStart lastEnd (projection rfs windowStart) = some evidence
  detected : detect (.obj evidence) = .ok detection

/- The machine once a window has been asked for. -/
def Machine.asked (m : Machine F) (rfs : Option F) (windowStart : F) : Machine F :=
  m.noted (.projected windowStart (projection rfs windowStart = .fresh))

/- The last signal a verdict is settled with. -/
def SignalOf (row : WindowRow F) (detection : Detection F) (lastSignal : F) : Prop :=
  (lastSignal = row.lastSignalEpoch ∧ (detection.indices ≠ [] →
        ∃ advanced, detection.lastSignal = some advanced ∧
          PyFloat.toRat advanced ≤ PyFloat.toRat lastSignal)) ∨
    (detection.indices ≠ [] ∧ detection.lastSignal = some lastSignal ∧
      PyFloat.toRat row.lastSignalEpoch < PyFloat.toRat lastSignal)

/- An open row's window, of one to sixty buckets. -/
structure OpenWindow (openRow : Option (WindowRow F)) (row : WindowRow F)
    (windowStart lastEnd : F) : Prop where
  isOpen : openRow = some row
  start : epochOf row.analysisStartEpoch = some windowStart
  low : 1 ≤ bucketsBetween windowStart lastEnd
  high : bucketsBetween windowStart lastEnd ≤ maxAnalysisBuckets

/- The call that closes a row over the window limit. -/
def limitCall (row : WindowRow F) (lastSignal classifiedEnd : F) : Call F :=
  .closeWindow (.int row.incidentId) (snapshotArgs row.category lastSignal classifiedEnd row.buckets
      row.evidenceBits row.unknownBits)
    (.str IncidentHistory.incidentClosureWindowLimit)

/- The call that closes a row on a clean tail. -/
def cleanCall (close : CleanClose F) : Call F := .closeWindow (.int close.row.incidentId)
    (verdictArgs close.detection close.lastSignal close.lastEnd close.count)
    (.str IncidentHistory.incidentClosureCleanBuckets)

/- The call that opens a row. -/
def openCall (detection : Detection F) (analysisStart firstSignal lastSignal lastEnd : F) : Call F :=
  .openWindow (real analysisStart) (real firstSignal)
    (verdictArgs detection lastSignal lastEnd discoveryBuckets)

/- The call that refreshes a row. -/
def updateCall (row : WindowRow F) (detection : Detection F) (lastSignal lastEnd : F) (count : ℤ) : Call F :=
  .updateWindow (.int row.incidentId) (verdictArgs detection lastSignal lastEnd count)

/- How the evaluation of a cycle can end. -/
inductive EvaluateEnds (env : CycleEnv F) (openRow : Option (WindowRow F))
    (gate : Option F) (lastEnd : F) (rfs : Option F)
    (m : Machine F) : Except ErrorCode (Option F) → Machine F → Prop where
  | idle :
      openRow = none →
      EvaluateEnds env openRow gate lastEnd rfs m (.ok none) m
  | corrupt (row : WindowRow F) :
      openRow = some row →
      (∀ windowStart, ¬ OpenWindow openRow row windowStart lastEnd) →
      EvaluateEnds env openRow gate lastEnd rfs m (.error .runtimeStateCorrupt) m
  | limit (row : WindowRow F) (lastSignal classifiedEnd : F) :
      openRow = some row →
      epochOf row.lastSignalEpoch = some lastSignal →
      epochOf row.lastClassifiedEndEpoch = some classifiedEnd →
      EvaluateEnds env openRow gate lastEnd rfs m (answered (call env.write
          (limitCall row lastSignal classifiedEnd) m.store).1 none)
        (m.called env.write (limitCall row lastSignal classifiedEnd) limitEvent)
  | unjudged (windowStart : F) (e : ErrorCode) :
      (∀ evidence detection, ¬ Judged env windowStart lastEnd rfs evidence detection) →
      EvaluateEnds env openRow gate lastEnd rfs m (.error e) (m.asked rfs windowStart)
  | quiet (floor : F) (evidence : Members F)
      (detection : Detection F) :
      openRow = none →
      gate = some floor →
      ¬ warming floor lastEnd →
      EvaluateEnds env openRow gate lastEnd rfs m (.ok (some lastEnd)) (m.asked rfs (discoveryStart lastEnd))
  | signalless (windowStart : F) (evidence : Members F)
      (detection : Detection F) (e : ErrorCode) :
      Judged env windowStart lastEnd rfs evidence detection →
      EvaluateEnds env openRow gate lastEnd rfs m (.error e) (m.asked rfs windowStart)
  | opened (floor : F) (evidence : Members F)
      (detection : Detection F) (firstSignal lastSignal : F) :
      openRow = none →
      gate = some floor →
      ¬ warming floor lastEnd →
      Judged env (discoveryStart lastEnd) lastEnd rfs evidence detection →
      detection.classification.status = .incident →
      detection.firstSignal = some firstSignal →
      detection.lastSignal = some lastSignal →
      EvaluateEnds env openRow gate lastEnd rfs m (answered (call env.write
          (openCall detection (PyFloat.sub firstSignal (minBaselineBuckets * bucketSeconds))
            firstSignal lastSignal lastEnd) m.store).1
          (some lastEnd))
        ((m.asked rfs (discoveryStart lastEnd)).called env.write (openCall detection
            (PyFloat.sub firstSignal (minBaselineBuckets * bucketSeconds))
            firstSignal lastSignal lastEnd)
          (openedEvent (PyFloat.sub firstSignal (minBaselineBuckets * bucketSeconds))))
  | closed (close : CleanClose F) (windowStart : F) :
      OpenWindow openRow close.row windowStart lastEnd →
      close.lastEnd = lastEnd →
      close.count = bucketsBetween windowStart lastEnd →
      Judged env windowStart lastEnd rfs close.evidence close.detection →
      SignalOf close.row close.detection close.lastSignal →
      cleanTail close.detection close.count →
      EvaluateEnds env openRow gate lastEnd rfs m
        (answered (call env.write (cleanCall close) m.store).1 (some lastEnd))
        ((m.asked rfs windowStart).called env.write (cleanCall close) (fun _ => [.closedClean close]))
  | unchanged (row : WindowRow F) (windowStart : F)
      (evidence : Members F) (detection : Detection F)
      (lastSignal : F) :
      OpenWindow openRow row windowStart lastEnd →
      Judged env windowStart lastEnd rfs evidence detection →
      SignalOf row detection lastSignal →
      ¬ cleanTail detection (bucketsBetween windowStart lastEnd) →
      Scanner.unchanged row detection lastSignal lastEnd (bucketsBetween windowStart lastEnd) →
      EvaluateEnds env openRow gate lastEnd rfs m (.ok (some lastEnd)) (m.asked rfs windowStart)
  | updated (row : WindowRow F) (windowStart : F)
      (evidence : Members F) (detection : Detection F)
      (lastSignal : F) :
      OpenWindow openRow row windowStart lastEnd →
      Judged env windowStart lastEnd rfs evidence detection →
      SignalOf row detection lastSignal →
      ¬ cleanTail detection (bucketsBetween windowStart lastEnd) →
      EvaluateEnds env openRow gate lastEnd rfs m (answered (call env.write
          (updateCall row detection lastSignal lastEnd (bucketsBetween windowStart lastEnd)) m.store).1
          (some lastEnd))
        ((m.asked rfs windowStart).called env.write (updateCall row detection lastSignal lastEnd
            (bucketsBetween windowStart lastEnd))
          (fun _ => []))

/- The machines an evaluation passes through. -/
inductive EvaluatePasses (env : CycleEnv F) (openRow : Option (WindowRow F))
    (gate : Option F) (lastEnd : F) (rfs : Option F)
    (m : Machine F) : Machine F → Prop where
  | asked (windowStart : F) :
      EvaluatePasses env openRow gate lastEnd rfs m (m.asked rfs windowStart)
  | ends (r : Except ErrorCode (Option F)) (m' : Machine F) :
      EvaluateEnds env openRow gate lastEnd rfs m r m' →
      EvaluatePasses env openRow gate lastEnd rfs m m'

theorem epochOf_some {value x : F} (h : epochOf value = some x) : x = value ∧ 0 ≤ PyFloat.toRat value := by
  unfold epochOf at h
  split at h
  · cases h
  · rename_i hNonneg
    exact ⟨(Option.some.inj h).symm, not_lt.mp hNonneg⟩

theorem advanceLastSignal_triple {J : Machine F → Prop} {row : WindowRow F} {detection : Detection F}
    {Q : Except ErrorCode F → Machine F → Prop}
    (hOk : ∀ lastSignal, SignalOf row detection lastSignal → Q (.ok lastSignal) m)
    (hError : ∀ e, Q (.error e) m) : Triple J m (advanceLastSignal row detection) Q := by
  unfold advanceLastSignal
  split
  · exact Triple.fail (hError _)
  · rename_i persisted hPersisted
    rcases epochOf_some hPersisted with ⟨rfl, _⟩
    split
    · rename_i hNone
      apply Triple.pure
      apply hOk
      exact Or.inl ⟨rfl, fun hSome => absurd hNone hSome⟩
    · rename_i hSome
      split
      · exact Triple.fail (hError _)
      · rename_i advanced hAdvanced
        unfold epochOf? at hAdvanced
        rcases Option.bind_eq_some_iff.mp hAdvanced with ⟨signal, hSignal, hEpoch⟩
        rcases epochOf_some hEpoch with ⟨rfl, _⟩
        split
        · rename_i hLater
          apply Triple.pure
          apply hOk
          exact Or.inr ⟨hSome, hSignal, hLater⟩
        · rename_i hLater
          apply Triple.pure
          apply hOk
          exact Or.inl ⟨rfl, fun _ => ⟨_, hSignal, not_lt.mp hLater⟩⟩

/- A window is asked for, and judged or not. -/
theorem detectWindow_triple
    {J : Machine F → Prop} {env : CycleEnv F} {windowStart lastEnd : F} {rfs : Option F}
    {Q : Except ErrorCode (Members F × Detection F) → Machine F → Prop}
    (hSeen : J (m.asked rfs windowStart))
    (hOk : ∀ evidence detection, Judged env windowStart lastEnd rfs evidence detection →
        Q (.ok (evidence, detection)) (m.asked rfs windowStart))
    (hError : ∀ e, (∀ evidence detection, ¬ Judged env windowStart lastEnd rfs evidence detection) →
        Q (.error e) (m.asked rfs windowStart)) :
    Triple J m (detectWindow env windowStart lastEnd rfs) Q := by
  unfold detectWindow
  apply Triple.bind (Q := fun r m' => r = .ok () ∧ m' = m.asked rfs windowStart)
  · exact note_triple hSeen ⟨rfl, rfl⟩
  · intro _ m' hEnd
    rcases hEnd with ⟨_, rfl⟩
    split
    · rename_i hNone
      apply Triple.fail
      apply hError
      intro evidence detection hJudged
      rw [hJudged.bundle] at hNone
      cases hNone
    · rename_i bundle hBundle
      split
      · rename_i e hRaised
        apply Triple.fail
        apply hError
        intro evidence detection hJudged
        have hSame := hJudged.bundle
        rw [hBundle] at hSame
        cases hSame
        rw [hJudged.detected] at hRaised
        cases hRaised
      · rename_i detection hDetected
        exact Triple.pure (hOk _ _ ⟨hBundle, hDetected⟩)
  · intro e m' hEnd
    cases hEnd.1

theorem discoveryCycle_ends {env : CycleEnv F} {gate lastEnd : F}
    {rfs : Option F} : Triple (EvaluatePasses env none (some gate) lastEnd rfs m) m
      (discoveryCycle env gate lastEnd rfs)
      (EvaluateEnds env none (some gate) lastEnd rfs m) := by
  unfold discoveryCycle
  dsimp only
  split
  · exact Triple.pure (.idle rfl)
  · rename_i hWarm
    apply Triple.bind (Q := fun r m' =>
        m' = m.asked rfs (discoveryStart lastEnd) ∧
          match r with
          | .ok judged =>
            Judged env (discoveryStart lastEnd) lastEnd rfs judged.1 judged.2
          | .error _ => ∀ evidence detection,
              ¬ Judged env (discoveryStart lastEnd) lastEnd rfs evidence detection)
    · exact detectWindow_triple (.asked _) (fun evidence detection hJudged => ⟨rfl, hJudged⟩)
        (fun e hNone => ⟨rfl, hNone⟩)
    · intro judged m' hEnd
      rcases hEnd with ⟨rfl, hJudged⟩
      dsimp only at hJudged
      split
      · rename_i hStatus
        exact Triple.pure (.quiet gate judged.1 judged.2 rfl rfl hWarm)
      · rename_i hStatus
        rw [not_not] at hStatus
        split
        · rename_i firstSignal lastSignal hFirst hLast
          have hEnds : EvaluateEnds env none (some gate) lastEnd rfs m _ _ :=
            .opened gate judged.1 judged.2 firstSignal lastSignal
              rfl rfl hWarm hJudged hStatus hFirst hLast
          exact persist_triple (.ends _ _ hEnds) hEnds
        · exact Triple.fail (.signalless _ _ _ _ hJudged)
    · intro e m' hEnd
      rcases hEnd with ⟨rfl, hNone⟩
      exact .unjudged _ e hNone

theorem settleVerdict_ends {env : CycleEnv F} {openRow : Option (WindowRow F)}
    {gate : Option F} {row : WindowRow F} {windowStart lastEnd : F}
    {rfs : Option F} {evidence : Members F} {detection : Detection F}
    (hWindow : OpenWindow openRow row windowStart lastEnd)
    (hJudged : Judged env windowStart lastEnd rfs evidence detection) :
    Triple (EvaluatePasses env openRow gate lastEnd rfs m) (m.asked rfs windowStart)
      (settleVerdict env row evidence detection lastEnd (bucketsBetween windowStart lastEnd))
      (EvaluateEnds env openRow gate lastEnd rfs m) := by
  unfold settleVerdict
  apply Triple.bind (Q := fun r m' => m' = m.asked rfs windowStart ∧
      ∀ lastSignal, r = .ok lastSignal → SignalOf row detection lastSignal)
  · apply advanceLastSignal_triple
    · intro lastSignal hSignal
      refine ⟨rfl, ?_⟩
      intro lastSignal' hSame
      cases hSame
      exact hSignal
    · intro e
      refine ⟨rfl, ?_⟩
      intro lastSignal hSame
      cases hSame
  · intro lastSignal m' hEnd
    rcases hEnd with ⟨rfl, hSignal⟩
    have hSignal := hSignal lastSignal rfl
    split
    · rename_i hClean
      have hEnds :
          EvaluateEnds env openRow gate lastEnd rfs m _ _ :=
        .closed ⟨row, evidence, detection, lastSignal, lastEnd, bucketsBetween windowStart lastEnd⟩
          windowStart hWindow rfl rfl hJudged hSignal hClean
      exact persist_triple (.ends _ _ hEnds) hEnds
    · rename_i hClean
      split
      · rename_i hSame
        exact Triple.pure (.unchanged row windowStart evidence
          detection lastSignal hWindow hJudged hSignal hClean hSame)
      · have hEnds :
            EvaluateEnds env openRow gate lastEnd rfs m _ _ :=
          .updated row windowStart evidence detection lastSignal hWindow hJudged hSignal hClean
        exact persist_triple (.ends _ _ hEnds) hEnds
  · intro e m' hEnd
    rcases hEnd with ⟨rfl, _⟩
    exact .signalless windowStart evidence detection e hJudged

theorem openCycle_ends {env : CycleEnv F} {gate : Option F} {row : WindowRow F} {lastEnd : F}
    {rfs : Option F} : Triple (EvaluatePasses env (some row) gate lastEnd rfs m) m
      (openCycle env row lastEnd rfs)
      (EvaluateEnds env (some row) gate lastEnd rfs m) := by
  unfold openCycle
  split
  · rename_i hStart
    apply Triple.fail
    apply EvaluateEnds.corrupt row rfl
    intro windowStart hWindow
    rw [hWindow.start] at hStart
    cases hStart
  · rename_i windowStart hStart
    dsimp only
    split
    · rename_i hLow
      apply Triple.fail
      apply EvaluateEnds.corrupt row rfl
      intro windowStart' hWindow
      have hSame := hWindow.start
      rw [hStart] at hSame
      cases hSame
      exact absurd hWindow.low (not_le.mpr hLow)
    · rename_i hLow
      split
      · rename_i hHigh
        unfold closeWindowLimit
        split
        · rename_i lastSignal classifiedEnd hSignal hEnd
          have hEnds : EvaluateEnds env (some row) gate lastEnd rfs m _ _ :=
            .limit row lastSignal classifiedEnd rfl hSignal hEnd
          exact persist_triple (.ends _ _ hEnds) hEnds
        · apply Triple.bind (Q := fun r m' => r = .error .runtimeStateCorrupt ∧ m' = m)
          · exact Triple.fail ⟨rfl, rfl⟩
          · intro _ m' hEnd
            cases hEnd.1
          · intro e m' hEnd
            rcases hEnd with ⟨hCode, rfl⟩
            cases hCode
            apply EvaluateEnds.corrupt row rfl
            intro windowStart' hWindow
            have hSame := hWindow.start
            rw [hStart] at hSame
            cases hSame
            exact absurd hWindow.high (not_le.mpr hHigh)
      · rename_i hHigh
        have hWindow : OpenWindow (some row) row windowStart lastEnd :=
          ⟨rfl, hStart, not_lt.mp hLow, not_lt.mp hHigh⟩
        apply Triple.bind (Q := fun r m' => m' = m.asked rfs windowStart ∧
            match r with
            | .ok judged => Judged env windowStart lastEnd rfs judged.1 judged.2
            | .error _ => ∀ evidence detection,
                ¬ Judged env windowStart lastEnd rfs evidence detection)
        · exact detectWindow_triple (.asked _) (fun evidence detection hJudged => ⟨rfl, hJudged⟩)
            (fun e hNone => ⟨rfl, hNone⟩)
        · intro judged m' hEnd
          rcases hEnd with ⟨rfl, hJudged⟩
          exact settleVerdict_ends hWindow hJudged
        · intro e m' hEnd
          rcases hEnd with ⟨rfl, hNone⟩
          exact .unjudged _ e hNone

theorem evaluate_ends {env : CycleEnv F} {openRow : Option (WindowRow F)} {gate : Option F} {lastEnd : F}
    {rfs : Option F} : Triple (EvaluatePasses env openRow gate lastEnd rfs m) m
      (evaluate env openRow gate lastEnd rfs)
      (EvaluateEnds env openRow gate lastEnd rfs m) := by
  unfold evaluate
  cases openRow with
  | some row => exact openCycle_ends
  | none =>
    cases gate with
    | none => exact Triple.pure (.idle rfl)
    | some gate => exact discoveryCycle_ends

-- The Cycle

/- The row a runtime state points at. -/
def openRowOf (store : Store F) (st : RuntimeState F) : Option (WindowRow F) :=
  st.openIncidentId.bind (fun id => store.tables.windows.find? (fun w => w.incidentId = id))

/- The gate of a state: none where it is to be re-armed. -/
def GateOf (st : RuntimeState F) (gate : Option F) : Prop := (st.rearmRequired = 1 ∧ gate = none) ∨
    (st.rearmRequired = 0 ∧ ∃ floor, st.discoveryFloorEpoch = some floor ∧ gate = some floor)

/- The continuity a cycle derives. -/
def ContinuityOf (fresh : Bool) (stamp : F) (st : RuntimeState F) (rfs : Option F) : Prop :=
  (fresh = false ∧ rfs = none) ∨ (fresh = true ∧ rfs = some stamp) ∨
    (fresh = true ∧ rfs = st.readerFreshSinceEpoch ∧ rfs ≠ none)

/- What a cycle has read by the time it looks at the grid. -/
structure Observed (env : CycleEnv F) (m : Machine F) (st : RuntimeState F)
    (gate : Option F) (fresh : Bool)
    (rfs : Option F) : Prop where
  state : m.store.tables.state = some st
  active : 0 < PyFloat.toRat st.activationFloorEpoch
  gate : GateOf st gate
  heartbeat : ∃ token, env.heartbeat = .token token ∧ isFresh token = fresh
  continuity : ContinuityOf fresh env.stamp.reading st rfs

/- The machine once the heartbeat has been observed. -/
def Machine.observed (m : Machine F) (env : CycleEnv F) (fresh : Bool) : Machine F :=
  m.noted (.observed env.stamp.reading fresh)

/- The call that marks a cycle. -/
def markCall (stop : F) (rfs : Option F) : Call F := .runtimeMark (real stop) (match rfs with
      | some since => real since
      | none => .null)

/- How a mark can end. -/
inductive MarkEnds (env : CycleEnv F) (st : RuntimeState F) (evaluated : Option F) (rfs : Option F)
    (m : Machine F) : Except ErrorCode Unit → Machine F → Prop where
  | corrupt (e : ErrorCode) : MarkEnds env st evaluated rfs m (.error e) m
  | called (stop : F) :
      stop = evaluated.getD st.lastEvaluatedEndEpoch →
      MarkEnds env st evaluated rfs m (answered (call env.mark (markCall stop rfs) m.store).1 ())
        (m.called env.mark (markCall stop rfs) (fun _ => [.marked stop]))

/- How a cycle can end. -/
inductive CycleEnds (env : CycleEnv F) (m : Machine F) : Except ErrorCode Unit → Machine F → Prop where
  | unread (r : Except ErrorCode Unit) : CycleEnds env m r m
  | early (st : RuntimeState F) (gate : Option F) (fresh : Bool)
      (rfs : Option F) (r : Except ErrorCode Unit)
      (m' : Machine F) :
      Observed env m st gate fresh rfs →
      lastCompleteEnd st.activationFloorEpoch env.now.reading = none →
      MarkEnds env st none rfs (m.observed env fresh) r m' →
      CycleEnds env m r m'
  | aborted (st : RuntimeState F) (gate : Option F) (fresh : Bool)
      (rfs : Option F) (lastEnd : F) (e : ErrorCode)
      (m' : Machine F) :
      Observed env m st gate fresh rfs →
      lastCompleteEnd st.activationFloorEpoch env.now.reading = some lastEnd →
      EvaluateEnds env (openRowOf m.store st) gate lastEnd rfs (m.observed env fresh) (.error e) m' →
      CycleEnds env m (.error e) m'
  | evaluated (st : RuntimeState F) (gate : Option F) (fresh : Bool)
      (rfs : Option F) (lastEnd : F) (stop : Option F)
      (r : Except ErrorCode Unit) (m' m'' : Machine F) :
      Observed env m st gate fresh rfs →
      lastCompleteEnd st.activationFloorEpoch env.now.reading = some lastEnd →
      EvaluateEnds env (openRowOf m.store st) gate lastEnd rfs (m.observed env fresh) (.ok stop) m' →
      MarkEnds env st stop rfs m' r m'' →
      CycleEnds env m r m''

/- The machines a cycle passes through. -/
inductive CyclePasses (env : CycleEnv F) (m : Machine F) : Machine F → Prop where
  | observed (st : RuntimeState F) (gate : Option F) (fresh : Bool)
      (rfs : Option F) :
      Observed env m st gate fresh rfs →
      CyclePasses env m (m.observed env fresh)
  | evaluating (st : RuntimeState F) (gate : Option F)
      (fresh : Bool) (rfs : Option F) (lastEnd : F)
      (m' : Machine F) :
      Observed env m st gate fresh rfs →
      lastCompleteEnd st.activationFloorEpoch env.now.reading = some lastEnd →
      EvaluatePasses env (openRowOf m.store st) gate lastEnd rfs (m.observed env fresh) m' →
      CyclePasses env m m'
  | ends (r : Except ErrorCode Unit) (m' : Machine F) :
      CycleEnds env m r m' →
      CyclePasses env m m'

theorem mark_ends {J : Machine F → Prop} {env : CycleEnv F} {st : RuntimeState F} {evaluated rfs : Option F}
    (hSeen : ∀ r m', MarkEnds env st evaluated rfs m r m' → J m') :
    Triple J m (mark env evaluated rfs st) (MarkEnds env st evaluated rfs m) := by
  unfold mark
  split
  · exact Triple.fail (.corrupt _)
  · rename_i persisted hPersisted
    rcases epochOf_some hPersisted with ⟨rfl, _⟩
    have hEnds : MarkEnds env st evaluated rfs m _ _ := .called (evaluated.getD st.lastEvaluatedEndEpoch) rfl
    exact persist_unit_triple (hSeen _ _ hEnds) hEnds

theorem readSnapshot_triple {J : Machine F → Prop} {readable : Bool}
    {Q : Except ErrorCode
      (RuntimeState F × Option (WindowRow F)) → Machine F → Prop}
    (hOk : ∀ st, m.store.tables.state = some st → Q (.ok (st, openRowOf m.store st)) m)
    (hError : ∀ e, Q (.error e) m) : Triple J m (readSnapshot readable) Q := by
  unfold readSnapshot
  apply Triple.get
  split
  · exact Triple.fail (hError _)
  · split
    · exact Triple.fail (hError _)
    · rename_i st hState
      exact Triple.pure (hOk st hState)

theorem epochOf?_some {value : Option F} {x : F} (h : epochOf? value = some x) : value = some x := by
  unfold epochOf? at h
  rcases Option.bind_eq_some_iff.mp h with ⟨y, rfl, hEpoch⟩
  rw [(epochOf_some hEpoch).1]

theorem discoveryGate_triple {J : Machine F → Prop} {st : RuntimeState F}
    {Q : Except ErrorCode (Option F) → Machine F → Prop}
    (hOk : ∀ gate, GateOf st gate → Q (.ok gate) m)
    (hError : ∀ e, Q (.error e) m) : Triple J m (discoveryGate st) Q := by
  have hFlag : ∀ flag, rearmFlag st.rearmRequired = some flag → st.rearmRequired = if flag then 1 else 0 := by
    intro flag h
    unfold rearmFlag at h
    split at h
    · cases h
      assumption
    · split at h
      · cases h
        assumption
      · cases h
  unfold discoveryGate
  split
  · exact Triple.fail (hError _)
  · rename_i hRearm
    apply Triple.pure
    exact hOk _ (Or.inl ⟨hFlag _ hRearm, rfl⟩)
  · exact Triple.fail (hError _)
  · rename_i floor hRearm hFloor
    apply Triple.pure
    exact hOk _ (Or.inr ⟨hFlag _ hRearm, floor, epochOf?_some hFloor, rfl⟩)

theorem continuityOf_continuity (fresh : Bool) (stamp : F) (st : RuntimeState F) : ContinuityOf fresh stamp st
      (continuity fresh stamp st.readerFreshSinceEpoch) := by
  unfold continuity
  cases fresh with
  | false => exact Or.inl ⟨rfl, rfl⟩
  | true =>
    cases hEpoch : epochOf? st.readerFreshSinceEpoch with
    | none => exact Or.inr (Or.inl ⟨rfl, rfl⟩)
    | some existing =>
      have hSame := epochOf?_some hEpoch
      exact Or.inr (Or.inr ⟨rfl, hSame.symm, by simp⟩)

theorem deriveRfs_triple {J : Machine F → Prop} {env : CycleEnv F} {st : RuntimeState F}
    {Q : Except ErrorCode (Option F) → Machine F → Prop}
    (hOk : ∀ token rfs, env.heartbeat = .token token → ContinuityOf (isFresh token) env.stamp.reading st rfs →
        J (m.observed env (isFresh token)) ∧ Q (.ok rfs) (m.observed env (isFresh token)))
    (hError : ∀ e, Q (.error e) m) : Triple J m (deriveRfs env.heartbeat env.stamp.reading
        st.readerFreshSinceEpoch) Q := by
  unfold deriveRfs readerHb
  cases hHeartbeat : env.heartbeat with
  | unreadable =>
    apply Triple.bind (Q := fun r m' => r = .error .evidenceReadFailed ∧ m' = m)
    · exact Triple.fail ⟨rfl, rfl⟩
    · intro _ m' hEnd
      cases hEnd.1
    · intro e m' hEnd
      rcases hEnd with ⟨_, rfl⟩
      exact hError e
  | token token =>
    have hEnd := hOk token _ hHeartbeat (continuityOf_continuity (isFresh token) env.stamp.reading st)
    apply Triple.bind (Q := fun r m' => r = .ok token ∧ m' = m)
    · exact Triple.pure ⟨rfl, rfl⟩
    · intro token' m' hToken
      rcases hToken with ⟨hToken, rfl⟩
      cases hToken
      apply Triple.bind (Q := fun r s => r = .ok () ∧ s = m'.observed env (isFresh token))
      · exact note_triple hEnd.1 ⟨rfl, rfl⟩
      · intro _ s hNoted
        rcases hNoted with ⟨_, rfl⟩
        exact Triple.pure hEnd.2
      · intro e s hNoted
        cases hNoted.1
    · intro e m' hToken
      cases hToken.1

theorem runOneCycle_ends {env : CycleEnv F} :
    Triple (CyclePasses env m) m (runOneCycle env) (CycleEnds env m) := by
  unfold runOneCycle
  apply Triple.bind (Q := fun r m' => m' = m ∧ ∀ snapshot, r = .ok snapshot →
      m.store.tables.state = some snapshot.1 ∧ snapshot.2 = openRowOf m.store snapshot.1)
  · apply readSnapshot_triple
    · intro st hState
      refine ⟨rfl, ?_⟩
      intro snapshot hSame
      cases hSame
      exact ⟨hState, rfl⟩
    · intro e
      refine ⟨rfl, ?_⟩
      intro snapshot hSame
      cases hSame
  · intro snapshot m' hEnd
    rcases hEnd with ⟨rfl, hSnapshot⟩
    rcases hSnapshot snapshot rfl with ⟨hState, hRow⟩
    dsimp only
    split
    · exact Triple.pure (.unread _)
    · rename_i floor hFloor
      rcases epochOf_some hFloor with ⟨rfl, _⟩
      split
      · exact Triple.pure (.unread _)
      · rename_i hActive
        rw [not_le] at hActive
        apply Triple.bind (Q := fun r s => s = m' ∧ ∀ gate, r = .ok gate → GateOf snapshot.1 gate)
        · apply discoveryGate_triple
          · intro gate hGate
            refine ⟨rfl, ?_⟩
            intro gate' hSame
            cases hSame
            exact hGate
          · intro e
            refine ⟨rfl, ?_⟩
            intro gate' hSame
            cases hSame
        · intro gate s hEnd
          rcases hEnd with ⟨rfl, hGate⟩
          have hGate := hGate gate rfl
          apply Triple.bind (Q := fun r s' => match r with
              | .ok rfs => ∃ fresh,
                  Observed env s snapshot.1 gate fresh rfs ∧ s' = s.observed env fresh
              | .error _ => s' = s)
          · apply deriveRfs_triple
            · intro token rfs hToken hRfs
              have hObserved : Observed env s snapshot.1 gate (isFresh token) rfs :=
                ⟨hState, hActive, hGate, ⟨token, hToken, rfl⟩, hRfs⟩
              exact ⟨.observed _ _ _ _ hObserved, _, hObserved, rfl⟩
            · intro e
              rfl
          · intro rfs s' hEnd
            rcases hEnd with ⟨fresh, hObserved, rfl⟩
            split
            · rename_i hGrid
              have hTriple : Triple (CyclePasses env s) (s.observed env fresh)
                    (mark env none rfs snapshot.1) _ :=
                mark_ends (fun r m' hMark => .ends _ _ (.early _ _ _ _ _ _ hObserved hGrid hMark))
              exact hTriple.mono (fun _ h => h) (fun r m' hMark => .early _ _ _ _ _ _ hObserved hGrid hMark)
            · rename_i lastEnd hGrid
              rw [hRow]
              apply Triple.bind (Q := EvaluateEnds env (openRowOf s.store snapshot.1) gate lastEnd rfs
                  (s.observed env fresh))
              · exact evaluate_ends.mono (fun c hc => .evaluating _ _ _ _ _ _ hObserved hGrid hc)
                  (fun _ _ h => h)
              · intro stop m' hEvaluate
                have hTriple : Triple (CyclePasses env s) m' (mark env stop rfs snapshot.1) _ :=
                  mark_ends (fun r m'' hMark => .ends _ _
                    (.evaluated _ _ _ _ _ _ _ _ _ hObserved hGrid hEvaluate hMark))
                exact hTriple.mono (fun _ h => h) (fun r m'' hMark =>
                    .evaluated _ _ _ _ _ _ _ _ _ hObserved hGrid hEvaluate hMark)
              · intro e m' hEvaluate
                exact .aborted _ _ _ _ _ _ _ hObserved hGrid hEvaluate
          · intro e s' hEnd
            cases hEnd
            exact .unread _
        · intro e s hEnd
          rcases hEnd with ⟨rfl, _⟩
          exact .unread _
  · intro e m' hEnd
    rcases hEnd with ⟨rfl, _⟩
    exact .unread _

-- The Start

/- The floor a start asks for. -/
def StartEnv.floor (env : StartEnv F) : F := activationFloor env.now.reading

/- The machine once the activation has been asked for. -/
def Machine.activated (m : Machine F) (env : StartEnv F) : Machine F :=
  m.called env.activate (.activate (real env.floor)) (fun _ => [])

/- The call that breaks the continuity at a start. -/
def breakCall (env : StartEnv F) (st : RuntimeState F) (fresh : Bool) : Call F :=
  .runtimeMark (real st.lastEvaluatedEndEpoch) (if fresh then real env.floor else .null)

/- The machine once the continuity has been broken. -/
def Machine.broken (m : Machine F) (env : StartEnv F) (st : RuntimeState F) (fresh : Bool) : Machine F :=
  (m.activated env).called env.mark (breakCall env st fresh) (fun _ => [.marked st.lastEvaluatedEndEpoch])

/- How an activation can end. -/
inductive StartEnds (env : StartEnv F) (m : Machine F) : Machine F → Prop where
  | dark : StartEnds env m (m.activated env)
  | broken (st : RuntimeState F) (fresh : Bool) :
      (m.activated env).store.tables.state = some st →
      StartEnds env m (m.broken env st fresh)
  | running (st : RuntimeState F) (fresh : Bool) (id : Option ℤ) :
      (m.activated env).store.tables.state = some st →
      (call env.mark (breakCall env st fresh) (m.activated env).store).1 = .landed id →
      gatesRead st = true →
      StartEnds env m { m.broken env st fresh with enabled := true }

theorem answered_ok {α : Type} {outcome : Outcome} {a b : α}
    (h : answered outcome a = .ok b) : (∃ id, outcome = .landed id) ∧ a = b := by
  cases outcome with
  | landed id => exact ⟨⟨id, rfl⟩, Except.ok.inj h⟩
  | refused => cases h
  | failed => cases h

theorem activate_ends {env : StartEnv F} : Triple (StartEnds env m) m (activate env)
      (fun _ m' => StartEnds env m m') := by
  unfold activate
  dsimp only
  apply Triple.bind (Q := fun _ m' => m' = m.activated env)
  · exact persist_unit_triple StartEnds.dark rfl
  · intro _ m1 hEnd
    subst hEnd
    apply Triple.bind (Q := fun r m' => m' = m.activated env ∧
        ∀ snapshot, r = .ok snapshot → (m.activated env).store.tables.state = some snapshot.1)
    · apply readSnapshot_triple
      · intro st hState
        refine ⟨rfl, ?_⟩
        intro snapshot hSame
        cases hSame
        exact hState
      · intro e
        refine ⟨rfl, ?_⟩
        intro snapshot hSame
        cases hSame
    · intro snapshot m1 hEnd
      rcases hEnd with ⟨rfl, hState⟩
      have hState := hState snapshot rfl
      apply Triple.bind (Q := fun _ m' => m' = m.activated env)
      · unfold readerHb
        split
        · exact Triple.fail rfl
        · exact Triple.pure rfl
      · intro token m1 hEnd
        subst hEnd
        have hBroken : StartEnds env m _ := .broken snapshot.1 (isFresh token) hState
        apply Triple.bind (Q := fun r m' =>
            m' = m.broken env snapshot.1 (isFresh token) ∧ r = answered (call env.mark
                (breakCall env snapshot.1 (isFresh token))
                (m.activated env).store).1 ())
        · exact persist_unit_triple hBroken ⟨rfl, rfl⟩
        · intro _ m2 hEnd
          rcases hEnd with ⟨rfl, hAnswer⟩
          rcases answered_ok hAnswer.symm with ⟨⟨id, hLanded⟩, _⟩
          split
          · rename_i hGates
            have hRunning := StartEnds.running snapshot.1 (isFresh token) id hState hLanded hGates
            exact Triple.change hRunning hRunning
          · exact Triple.pure hBroken
        · intro e m2 hEnd
          rcases hEnd with ⟨rfl, _⟩
          exact hBroken
      · intro e m1 hEnd
        subst hEnd
        exact .dark
    · intro e m1 hEnd
      rcases hEnd with ⟨rfl, _⟩
      exact .dark
  · intro e m1 hEnd
    subst hEnd
    exact .dark

-- Steps

/- What a run can do to the machine in one step. -/
inductive StepEnds (m : Machine F) : Input F → Machine F → Prop where
  | still (input : Input F) : StepEnds m input m
  | died (input : Input F) : StepEnds m input (died m)
  | started (env : StartEnv F) (m' : Machine F) :
      m.enabled = false →
      StartEnds env m m' →
      StepEnds m (.start env none) m'
  | startCut (env : StartEnv F) (n : ℕ) (m' : Machine F) :
      m.enabled = false →
      StartEnds env m m' →
      StepEnds m (.start env (some n)) (Scanner.died m')
  | scanned (env : CycleEnv F) (r : Except ErrorCode Unit)
      (m' : Machine F) :
      m.enabled = true →
      (runOneCycle env).answer m = r →
      CycleEnds env m r m' →
      StepEnds m (.cycle env none) m'
  | scanCut (env : CycleEnv F) (n : ℕ) (m' : Machine F) :
      m.enabled = true →
      CyclePasses env m m' →
      StepEnds m (.cycle env (some n)) (Scanner.died m')
  | rearm (env : Env F) :
      StepEnds m (.rearm env) (m.called env .rearm (fun _ => [.rearmed]))
  | cleanup (env : Env F) : StepEnds m (.cleanup env) (m.called env .cleanup (fun _ => []))

theorem start_ends {env : StartEnv F} : Triple (fun c => m.enabled = false ∧ StartEnds env m c) m (start env)
      (fun _ m' => m' = m ∨ (m.enabled = false ∧ StartEnds env m m')) := by
  unfold start
  apply Triple.get
  split
  · exact Triple.pure (Or.inl rfl)
  · rename_i hIdle
    rw [Bool.not_eq_true] at hIdle
    apply Triple.recover (Q := fun _ m' => m.enabled = false ∧ StartEnds env m m')
    · exact activate_ends.mono (fun c hc => ⟨hIdle, hc⟩) (fun r m' h => ⟨hIdle, h⟩)
    · intro a m' h
      exact Or.inr h
    · intro e m' h
      exact Triple.pure (Or.inr h)

theorem runOnce_ends {env : CycleEnv F} :
    Triple (fun c => m.enabled = true ∧ CyclePasses env m c) m (runOnce env)
      (fun _ m' => m' = m ∨ (m.enabled = true ∧ ∃ r,
          (runOneCycle env).answer m = r ∧ CycleEnds env m r m')) := by
  unfold runOnce
  apply Triple.get
  split
  · exact Triple.pure (Or.inl rfl)
  · rename_i hRunning
    rw [Bool.not_eq_true, Bool.not_eq_false'] at hRunning
    have hCycle : Triple (CyclePasses env m) m (runOneCycle env) _ := runOneCycle_ends
    apply Triple.recover (Q := fun r m' => (runOneCycle env).answer m = r ∧ CycleEnds env m r m')
    · exact ⟨fun c hc => ⟨hRunning, hCycle.seen c hc⟩,
        rfl, hCycle.post⟩
    · intro a m' h
      exact Or.inr ⟨hRunning, _, h⟩
    · intro e m' h
      exact Triple.pure (Or.inr ⟨hRunning, _, h⟩)

theorem outcomeOf_cut {x : Scan F Unit} {J : Machine F → Prop}
    {Q : Except ErrorCode Unit → Machine F → Prop} (h : Triple J m x Q)
    (n : ℕ) :
    outcomeOf x (some n) m = died m ∨ ∃ m', J m' ∧ outcomeOf x (some n) m = died m' := by
  unfold outcomeOf
  dsimp only
  cases hSeen : (x.seen m)[n]? with
  | none => exact Or.inl rfl
  | some m' =>
    right
    exact ⟨m', h.seen m' (List.mem_of_getElem? hSeen), rfl⟩

theorem step_ends (m : Machine F) (input : Input F) : StepEnds m input (step m input).2 := by
  cases input with
  | start env cut =>
    have hStart : Triple _ m (start env) _ := start_ends
    cases cut with
    | none =>
      rcases hStart.post with hSame | ⟨hIdle, hEnds⟩
      · have hStep : (step m (.start env none)).2 = m := hSame
        rw [hStep]
        exact .still _
      · exact .started env _ hIdle hEnds
    | some n =>
      rcases outcomeOf_cut hStart n with
        hDied | ⟨m', ⟨hIdle, hEnds⟩, hDied⟩
      · have hStep : (step m (.start env (some n))).2 = Scanner.died m := hDied
        rw [hStep]
        exact .died _
      · have hStep : (step m (.start env (some n))).2 = Scanner.died m' := hDied
        rw [hStep]
        exact .startCut env n m' hIdle hEnds
  | cycle env cut =>
    have hCycle : Triple _ m (runOnce env) _ := runOnce_ends
    cases cut with
    | none =>
      rcases hCycle.post with
        hSame | ⟨hRunning, r, hAnswer, hEnds⟩
      · have hStep : (step m (.cycle env none)).2 = m := hSame
        rw [hStep]
        exact .still _
      · exact .scanned env r _ hRunning hAnswer hEnds
    | some n =>
      rcases outcomeOf_cut hCycle n with
        hDied | ⟨m', ⟨hRunning, hPasses⟩, hDied⟩
      · have hStep : (step m (.cycle env (some n))).2 = Scanner.died m := hDied
        rw [hStep]
        exact .died _
      · have hStep : (step m (.cycle env (some n))).2 = Scanner.died m' := hDied
        rw [hStep]
        exact .scanCut env n m' hRunning hPasses
  | exit => exact .died _
  | rearm env => exact .rearm env
  | cleanup env => exact .cleanup env

-- Calls and Events

theorem snoc_inj {α : Type} {l before after : List α} {a b : α} (h : l ++ [a] = before ++ b :: after) :
    (after = [] ∧ b = a ∧ before = l) ∨ ∃ rest, after = rest ++ [a] ∧ l = before ++ b :: rest := by
  rcases List.eq_nil_or_concat after with rfl | ⟨rest, c, rfl⟩
  · left
    have hSplit := List.append_inj' h rfl
    refine ⟨rfl, ?_, hSplit.1.symm⟩
    exact (List.cons.inj hSplit.2).1.symm
  · right
    rw [List.concat_eq_append, ← List.cons_append, ← List.append_assoc] at h
    have hSplit := List.append_inj' h rfl
    refine ⟨rest, ?_, hSplit.1⟩
    rw [List.concat_eq_append, (List.cons.inj hSplit.2).1]

theorem consistent_called (h : Consistent m.store.tables) (env : Env F) (c : Call F)
    (event : Store F → List (Event F)) : Consistent (m.called env c event).store.tables :=
  (call_kept h env c).1

theorem log_called (m : Machine F) (env : Env F) (c : Call F) (event : Store F → List (Event F)) :
    ((∃ id, (call env c m.store).1 = .landed id) ∧ (m.called env c event).log = m.log ++ event m.store) ∨
      ((∀ id, (call env c m.store).1 ≠ .landed id) ∧ (m.called env c event).log = m.log) := by
  unfold Machine.called
  dsimp only
  cases (call env c m.store).1 with
  | landed id => exact Or.inl ⟨⟨id, rfl⟩, rfl⟩
  | refused =>
    right
    refine ⟨?_, List.append_nil _⟩
    intro id h
    cases h
  | failed =>
    right
    refine ⟨?_, List.append_nil _⟩
    intro id h
    cases h

/- A call has its effect, or none. -/
theorem state_called {st : RuntimeState F}
    (hState : m.store.tables.state = some st) (env : Env F) (c : Call F)
    (event : Store F → List (Event F)) :
    ((∃ id, (call env c m.store).1 = .landed id) ∧
        ∃ st', (m.called env c event).store.tables.state = some st' ∧
          Effect st m.store.tables.windows c st' (m.called env c event).store.tables.windows) ∨
      ((∀ id, (call env c m.store).1 ≠ .landed id) ∧
        (m.called env c event).store.tables = m.store.tables) := by
  by_cases hLanded : ∃ id, (call env c m.store).1 = .landed id
  · left
    rcases hLanded with ⟨id, hLanded⟩
    exact ⟨⟨id, hLanded⟩, call_effect hState hLanded⟩
  · right
    rw [not_exists] at hLanded
    exact ⟨hLanded, call_not_landed hLanded⟩

theorem incidentEpoch_real {x y : F} (h : IncidentHistory.incidentEpoch (real x) = .ok (some y)) : y = x := by
  unfold IncidentHistory.incidentEpoch real at h
  dsimp only at h
  split at h
  · cases h
  · cases h
    rfl

end SingboxOps.Scanner
