import SingboxOps.Scanner.Continuity
import SingboxOps.Scanner.Rows

/-
  Clean closes.

  A clean close is earned where the classifier judged the last
  three buckets of the window and found nothing in them, all
  of them after the row's last signal.  A verdict without an
  anomalous bucket has a clean tail whatever the window holds,
  so a run earns its clean closes as long as no such verdict,
  and no forgotten signal, reaches the close.
-/

namespace SingboxOps.Scanner

open Classifier EvidenceStore
open IncidentHistory (Env Call Store RuntimeState WindowRow
  SnapshotArgs Outcome call Consistent Effect)

variable {F : Type} [BoundedFloat F]

-- Earned Closes

/- A bucket the classifier judged, and found nothing in. -/
def JudgedClean (facts : Facts F) (reference : Reference F) (i : ℕ) : Prop :=
  minBaselineBuckets ≤ i ∧ (bucketMarks facts reference i).families = ∅

/-
  The bundle was accepted and the verdict was not fail-closed;
  each of the last three buckets was judged clean, and they
  lie after the row's last signal, the settled one and the one
  on record.
-/
structure Earned (close : CleanClose F) : Prop where
  verdict : close.detection.classification.status ≠ .indeterminate
  tail : ∃ b facts reference, Accepted (.obj close.evidence) b ∧ b.window.stop = close.lastEnd ∧
      (b.window.buckets : ℤ) = close.count ∧
      gather b = .ok facts ∧
      baseline facts.samples facts.journal = .ok reference ∧
      closeCleanBuckets ≤ b.window.buckets ∧
      ∀ i, b.window.buckets ≤ i + closeCleanBuckets → i < b.window.buckets → JudgedClean facts reference i
  signal :
    PyFloat.toRat close.lastSignal + closeCleanBuckets * bucketSeconds ≤ PyFloat.toRat close.lastEnd
  recorded : PyFloat.toRat close.row.lastSignalEpoch ≤ PyFloat.toRat close.lastSignal

/- Every clean close of a log was earned. -/
def CleanClosesEarned (log : List (Event F)) : Prop := ∀ close, .closedClean close ∈ log → Earned close

-- Windows That Decide

/-
  An accepted window that closes nothing unearned: it is long
  enough, and either its verdict is that there was no incident,
  which the store does not take, or an anomalous bucket is
  among the last three, or they lie after the signal on record.
-/
def SoundTail (row : WindowRow F) (lastEnd : F) (b : Bundle F) : Prop := match gather b with
  | .error _ => True
  | .ok facts =>
    minBaselineBuckets < b.window.buckets ∧
      match baseline facts.samples facts.journal with
      | .error _ => True
      | .ok reference =>
        let indices := candidates facts reference b.window.buckets
        if (mergedMarks facts reference indices).families ∩
            Family.corroborating = ∅ then
          indices ≠ [] ∨ b.looked reference = true
        else
          (∃ i ∈ indices, b.window.buckets ≤ i + closeCleanBuckets) ∨
            PyFloat.toRat row.lastSignalEpoch + closeCleanBuckets * bucketSeconds ≤ PyFloat.toRat lastEnd

instance
    (row : WindowRow F) (lastEnd : F)
    (b : Bundle F) : Decidable (SoundTail row lastEnd b) := by
  unfold SoundTail
  split
  · infer_instance
  · apply @instDecidableAnd _ _ _ ?_
    split
    · infer_instance
    · infer_instance

/-
  A window of a row that closes nothing unearned: it ends
  before the signal on record, and the store takes nothing; or
  it is not refused, and its tail is sound.
-/
def Decides (row : WindowRow F) (lastEnd : F) (evidence : Members F) : Prop :=
  PyFloat.toRat lastEnd < PyFloat.toRat row.lastSignalEpoch ∨
    match refusals (.obj evidence) with
    | .error _ => True
    | .ok tokens =>
      tokens = ∅ ∧ ∀ w ∈ windowIn evidence, SoundTail row lastEnd (readBundle evidence w)

instance
    (row : WindowRow F) (lastEnd : F)
    (evidence : Members F) : Decidable (Decides row lastEnd evidence) := by
  unfold Decides
  apply @instDecidableOr _ _ _ ?_
  split
  · infer_instance
  · infer_instance

/-
  Whatever the reader's status, the window a cycle is to judge
  for an open row decides.
-/
def Deciding (m : Machine F) (input : Input F) : Prop := match input with
  | .cycle env _ =>
    m.enabled = true → ∀ st ∈ m.store.tables.state, ∀ row ∈ openRowOf m.store st,
      ∀ windowStart ∈ epochOf row.analysisStartEpoch,
      ∀ lastEnd ∈ lastCompleteEnd st.activationFloorEpoch env.now.reading,
      bucketsBetween windowStart lastEnd ≤ maxAnalysisBuckets →
      ∀ status ∈ [ReaderStatus.fresh, .stale],
      ∀ evidence ∈ classifierBundle env.read windowStart lastEnd status, Decides row lastEnd evidence
  | _ => True

instance
    (m : Machine F)
    (input : Input F) : Decidable (Deciding m input) := by
  unfold Deciding
  split
  · infer_instance
  · infer_instance

-- The Verdict That Closes

theorem gather_of_detect {evidence : Json F} {b : Bundle F} {d : Detection F}
    (hAccepted : Accepted evidence b)
    (h : detect evidence = .ok d) : ∃ facts, gather b = .ok facts := by
  rcases hAccepted.bundle with ⟨members, w, rfl, hWindow, rfl⟩
  unfold detect at h
  rcases except_bind_ok h with ⟨tokens, hTokens, h⟩
  rw [hAccepted.refusals] at hTokens
  cases hTokens
  rw [if_neg (not_not.mpr rfl)] at h
  dsimp only at h
  rw [hWindow] at h
  rcases except_bind_ok h with ⟨verdict, hVerdict, _⟩
  unfold analyse at hVerdict
  rcases except_bind_ok hVerdict with ⟨facts, hFacts, _⟩
  exact ⟨facts, hFacts⟩

theorem none_not_storable : Category.none.token ∉ IncidentHistory.incidentWindowCategories := by
  decide

section Closing

variable {row : WindowRow F} {lastEnd : F} {b : Bundle F}
variable {facts : Facts F} {reference : Reference F}
variable {verdict : Classification F × List ℕ}

theorem soundTail_long (h : SoundTail row lastEnd b)
    (hFacts : gather b = .ok facts) : minBaselineBuckets < b.window.buckets := by
  unfold SoundTail at h
  rw [hFacts] at h
  exact h.1

theorem soundTail_alone (h : SoundTail row lastEnd b) (hFacts : gather b = .ok facts)
    (hReference : baseline facts.samples facts.journal = .ok reference)
    (hAlone : ∀ i ∈ candidates facts reference b.window.buckets, ¬ Corroborated facts reference i) :
    candidates facts reference b.window.buckets ≠ [] ∨ b.looked reference = true := by
  unfold SoundTail at h
  rw [hFacts] at h
  have hJudged := h.2
  rw [hReference] at hJudged
  dsimp only at hJudged
  rw [if_pos (merged_uncorroborated.mpr hAlone)] at hJudged
  exact hJudged

theorem soundTail_corroborated (h : SoundTail row lastEnd b) (hFacts : gather b = .ok facts)
    (hReference : baseline facts.samples facts.journal = .ok reference)
    (hCorroborated : ∃ i ∈ candidates facts reference b.window.buckets, Corroborated facts reference i) :
    (∃ i ∈ candidates facts reference b.window.buckets, b.window.buckets ≤ i + closeCleanBuckets) ∨
      PyFloat.toRat row.lastSignalEpoch + closeCleanBuckets * bucketSeconds ≤
        PyFloat.toRat lastEnd := by
  unfold SoundTail at h
  rw [hFacts] at h
  have hJudged := h.2
  rw [hReference] at hJudged
  dsimp only at hJudged
  rw [if_neg] at hJudged
  · exact hJudged
  · rw [merged_uncorroborated]
    push Not
    exact hCorroborated

/-
  The bundle a close was settled on has candidate buckets, all
  of them before the last three, and its last signal on record
  lies before those.
-/
structure ClosedOn (close : CleanClose F) (b : Bundle F) (facts : Facts F)
    (reference : Reference F) : Prop where
  accepted : Accepted (.obj close.evidence) b
  gathered : gather b = .ok facts
  baselined : baseline facts.samples facts.journal = .ok reference
  status : close.detection.classification.status = .incident
  indices : close.detection.indices = candidates facts reference b.window.buckets
  some : candidates facts reference b.window.buckets ≠ []
  signal :
    (∃ i ∈ candidates facts reference b.window.buckets, b.window.buckets ≤ i + closeCleanBuckets) ∨
      PyFloat.toRat close.row.lastSignalEpoch + closeCleanBuckets * bucketSeconds ≤
        PyFloat.toRat close.lastEnd

/- A close the store takes, of a window that decides. -/
theorem closedOn_of_decides {close : CleanClose F}
    (hDetected : detect (.obj close.evidence) = .ok close.detection)
    (hDecides : Decides close.row close.lastEnd close.evidence)
    (hCategory : close.detection.classification.category.token ∈ IncidentHistory.incidentWindowCategories)
    (hRecorded : PyFloat.toRat close.row.lastSignalEpoch ≤ PyFloat.toRat close.lastEnd) :
    ∃ b facts reference, ClosedOn close b facts reference := by
  have hNotNone : close.detection.classification.category ≠ .none := by
    intro hNone
    rw [hNone] at hCategory
    exact none_not_storable hCategory
  rcases hDecides with hEarly | hDecides
  · exact absurd hRecorded (not_le.mpr hEarly)
  · have hSound : ∀ b, Accepted (.obj close.evidence) b → SoundTail close.row close.lastEnd b := by
      intro b hAccepted
      rw [hAccepted.refusals] at hDecides
      rcases hAccepted.bundle with ⟨members, w, hMembers, hWindow, rfl⟩
      cases hMembers
      exact hDecides.2 w hWindow
    cases detect_detected hDetected with
    | refused hTokens hClosed =>
      rcases hTokens with ⟨tokens, hTokens, hSome⟩
      rw [hTokens] at hDecides
      exact absurd hDecides.1 hSome
    | short b hAccepted hShort hClosed =>
      rcases gather_of_detect hAccepted hDetected with ⟨facts, hFacts⟩
      have hLong := soundTail_long (hSound b hAccepted) hFacts
      omega
    | judged b facts reference verdict hAccepted hLong hFacts
        hReference hJudged hDetection =>
        have hTail := hSound b hAccepted
        have hClass : close.detection.classification = verdict.1 := by
          rw [hDetection]
          exact detectionOf_classification _ _
        have hIndices : close.detection.indices = verdict.2 := by
          rw [hDetection]
          exact detectionOf_indices _ _
        rw [hClass] at hNotNone
        cases hJudged with
        | quiet hNone _ _ hCat =>
          have hSeen := soundTail_alone hTail hFacts hReference (by rw [hNone]; simp)
          rcases hSeen with hSome | hLooked
          · exact absurd hNone hSome
          · rw [hLooked, if_pos rfl] at hCat
            exact absurd hCat hNotNone
        | uncorroborated _ _ _ _ hCat => exact absurd hCat hNotNone
        | scattered hCorroborated hSame hStatus =>
          refine ⟨b, facts, reference, hAccepted, hFacts, hReference, ?_, hIndices.trans hSame, ?_,
            soundTail_corroborated hTail hFacts hReference hCorroborated⟩
          · rw [hClass]
            exact hStatus
          · rcases hCorroborated with ⟨i, hi, _⟩
            exact List.ne_nil_of_mem hi
        | attributed hCorroborated hSame _ hStatus =>
          refine ⟨b, facts, reference, hAccepted, hFacts, hReference, ?_, hIndices.trans hSame, ?_,
            soundTail_corroborated hTail hFacts hReference hCorroborated⟩
          · rw [hClass]
            exact hStatus
          · rcases hCorroborated with ⟨i, hi, _⟩
            exact List.ne_nil_of_mem hi

theorem candidate_before_tail {close : CleanClose F}
    (h : ClosedOn close b facts reference) (hCount : (b.window.buckets : ℤ) = close.count)
    (hClean : cleanTail close.detection close.count) {i : ℕ}
    (hi : i ∈ candidates facts reference b.window.buckets) :
    i + closeCleanBuckets < b.window.buckets := by
  rw [← h.indices] at hi
  have hBefore := hClean i hi
  rw [← hCount] at hBefore
  omega

theorem tail_judgedClean {close : CleanClose F}
    (h : ClosedOn close b facts reference) (hCount : (b.window.buckets : ℤ) = close.count)
    (hClean : cleanTail close.detection close.count) :
    closeCleanBuckets ≤ b.window.buckets ∧ ∀ i, b.window.buckets ≤ i + closeCleanBuckets →
        i < b.window.buckets → JudgedClean facts reference i := by
  rcases List.exists_mem_of_ne_nil _ h.some with ⟨first, hFirst⟩
  have hBefore := candidate_before_tail h hCount hClean hFirst
  have hLow := (mem_candidates.mp hFirst).1
  refine ⟨by omega, ?_⟩
  intro i hTail hIn
  have hPast : minBaselineBuckets ≤ i := by omega
  refine ⟨hPast, ?_⟩
  by_contra hMarked
  have hCandidate := mem_candidates.mpr ⟨hPast, hIn, hMarked⟩
  have hEarly := candidate_before_tail h hCount hClean hCandidate
  omega

/- The last signal of a window with a clean tail. -/
theorem signal_before_tail {close : CleanClose F} {windowStart : F} (h : ClosedOn close b facts reference)
    (hCount : close.count = bucketsBetween windowStart close.lastEnd)
    (hBuckets : (b.window.buckets : ℤ) = close.count)
    (hFrom : b.window.start = windowStart) (hStart : OnMinute 35 windowStart)
    (hEnd : OnMinute 35 close.lastEnd)
    (hDetected : detect (.obj close.evidence) = .ok close.detection)
    (hClean : cleanTail close.detection close.count)
    (hSignal : SignalOf close.row close.detection close.lastSignal) :
    PyFloat.toRat close.lastSignal + closeCleanBuckets * bucketSeconds ≤
      PyFloat.toRat close.lastEnd := by
  have hTail : ∀ i ∈ candidates facts reference b.window.buckets, i + closeCleanBuckets < b.window.buckets :=
    fun i hi => candidate_before_tail h hBuckets hClean hi
  rcases hSignal with ⟨hKept, _⟩ | ⟨_, hLast, _⟩
  · rw [hKept]
    rcases h.signal with ⟨i, hi, hLate⟩ | hEarly
    · have hBefore := hTail i hi
      omega
    · exact hEarly
  · rcases signals_of_detect hDetected with
      hClosed | ⟨b', hAccepted, hSignals⟩
    · rw [hClosed.lastSignal] at hLast
      cases hLast
    · rcases hSignals.last _ hLast with ⟨i, hi, hAt⟩
      have hSame : b' = b := by
        rcases hAccepted.bundle with ⟨m1, w1, hm1, hw1, rfl⟩
        rcases h.accepted.bundle with ⟨m2, w2, hm2, hw2, rfl⟩
        cases hm1
        cases hm2
        rw [hw1] at hw2
        cases hw2
        rfl
      subst hSame
      rw [h.indices] at hi
      have hBefore := hTail i hi
      have hMost := buckets_le b'.window
      unfold maxBuckets at hMost
      have hValue := (bucketStart_onMinute (i := i + 1) hStart (by omega) (by omega) (by omega)).2
      have hStop := buckets_minutes (by omega) hStart hEnd
      rw [← hCount, ← hBuckets] at hStop
      rw [hAt, hFrom, hValue, hStop]
      unfold closeCleanBuckets at hBefore ⊢
      unfold bucketSeconds
      have hOrder : ((i + 1 + 3 : ℕ) : ℚ) ≤ b'.window.buckets := by exact_mod_cast hBefore
      push_cast at hOrder ⊢
      linarith

end Closing

-- Cycles

variable {m : Machine F}

/- A close that landed, of a window that decides. -/
theorem earned_of_landed {env : CycleEnv F} {openRow : Option (WindowRow F)}
    {close : CleanClose F} {windowStart lastEnd : F} {rfs : Option F}
    {values : IncidentHistory.Snapshot F}
    (hRow : ∀ row, openRow = some row → RowKept row) (hEnd : OnMinute 32 lastEnd)
    (hWindow : OpenWindow openRow close.row windowStart lastEnd)
    (hLastEnd : close.lastEnd = lastEnd)
    (hCount : close.count = bucketsBetween windowStart lastEnd)
    (hJudged : Scanner.Judged env windowStart lastEnd rfs close.evidence close.detection)
    (hSignal : SignalOf close.row close.detection close.lastSignal)
    (hClean : cleanTail close.detection close.count)
    (hValues : IncidentHistory.incidentValues
        (verdictArgs close.detection close.lastSignal close.lastEnd close.count) = .ok (some values))
    (hDecides : Decides close.row lastEnd close.evidence) : Earned close := by
  subst hLastEnd
  have hTaken := values_lastSignal hValues
  have hRecorded : PyFloat.toRat close.row.lastSignalEpoch ≤ PyFloat.toRat close.lastSignal := by
    rcases hSignal with ⟨hKept, _⟩ | ⟨_, _, hLater⟩
    · rw [hKept]
    · exact hLater.le
  rcases closedOn_of_decides hJudged.detected hDecides hTaken.2.1 (hRecorded.trans hTaken.2.2) with
    ⟨b, facts, reference, hClosed⟩
  rcases classifierBundle_some hJudged.bundle with ⟨hNonneg, hOrder, rows, _, _, hBundle⟩
  have hAccepted := hClosed.accepted
  rw [hBundle] at hAccepted
  have hFrom := window_of_bundle hNonneg hOrder hAccepted
  have hBuckets : (b.window.buckets : ℤ) = close.count := by
    have hLow := hWindow.low
    unfold Window.buckets
    rw [hFrom.1, hFrom.2, hCount]
    omega
  have hStart : OnMinute 35 windowStart := by
    rcases epochOf_some hWindow.start with ⟨rfl, _⟩
    exact (hRow close.row hWindow.isOpen).start
  have hTail := tail_judgedClean hClosed hBuckets hClean
  refine ⟨?_, ?_, ?_, hRecorded⟩
  · rw [hClosed.status]
    decide
  · exact ⟨b, facts, reference, hClosed.accepted, hFrom.2, hBuckets,
      hClosed.gathered, hClosed.baselined, hTail⟩
  · exact signal_before_tail hClosed hCount hBuckets hFrom.1 hStart
      (hEnd.mono (by omega)) hJudged.detected hClean hSignal

theorem earned_append {log events : List (Event F)} (h : CleanClosesEarned log)
    (hEvents : ∀ close, .closedClean close ∈ events → Earned close) :
    CleanClosesEarned (log ++ events) := by
  intro close hMem
  rcases List.mem_append.mp hMem with hOld | hNew
  · exact h close hOld
  · exact hEvents close hNew

theorem earned_called (h : CleanClosesEarned m.log)
    {env : Env F} {c : Call F} {event : Store F → List (Event F)}
    (hEvent : ∀ id, (call env c m.store).1 = .landed id →
        ∀ close, .closedClean close ∈ event m.store → Earned close) :
    CleanClosesEarned (m.called env c event).log := by
  rcases log_called m env c event with ⟨⟨id, hLanded⟩, hLog⟩ | ⟨_, hLog⟩
  · rw [hLog]
    exact earned_append h (hEvent id hLanded)
  · rw [hLog]
    exact h

theorem earned_called_other (h : CleanClosesEarned m.log)
    {env : Env F} {c : Call F} {event : Store F → List (Event F)}
    (hEvent : ∀ close, .closedClean close ∉ event m.store) :
    CleanClosesEarned (m.called env c event).log := by
  apply earned_called h
  intro _ _ close hMem
  exact absurd hMem (hEvent close)

theorem earned_asked (h : CleanClosesEarned m.log) (rfs : Option F)
    (windowStart : F) : CleanClosesEarned (m.asked rfs windowStart).log := by
  apply earned_append h
  intro close hMem
  cases List.mem_singleton.mp hMem

theorem earned_observed (h : CleanClosesEarned m.log) (env : CycleEnv F)
    (fresh : Bool) : CleanClosesEarned (m.observed env fresh).log := by
  apply earned_append h
  intro close hMem
  cases List.mem_singleton.mp hMem

theorem earned_evaluate {env : CycleEnv F} {openRow : Option (WindowRow F)}
    {gate : Option F} {lastEnd : F} {rfs : Option F}
    {r : Except ErrorCode (Option F)} {m' : Machine F}
    (hConsistent : Consistent m.store.tables) (h : CleanClosesEarned m.log)
    (hRow : ∀ row, openRow = some row → RowKept row) (hEnd : OnMinute 32 lastEnd)
    (hDecides : ∀ row windowStart evidence, OpenWindow openRow row windowStart lastEnd →
        classifierBundle env.read windowStart lastEnd (projection rfs windowStart) = some evidence →
          Decides row lastEnd evidence)
    (hEnds : EvaluateEnds env openRow gate lastEnd rfs m r m') :
    CleanClosesEarned m'.log := by
  cases hEnds with
  | idle => exact h
  | corrupt => exact h
  | limit =>
    apply earned_called_other h
    intro close hMem
    unfold limitEvent at hMem
    split at hMem
    · cases List.mem_singleton.mp hMem
    · cases hMem
  | unjudged windowStart => exact earned_asked h rfs windowStart
  | quiet => exact earned_asked h rfs _
  | signalless windowStart => exact earned_asked h rfs windowStart
  | opened =>
    apply earned_called_other (earned_asked h rfs _)
    intro close hMem
    unfold openedEvent at hMem
    split at hMem
    · cases List.mem_singleton.mp hMem
    · cases hMem
  | closed close windowStart hWindow hLastEnd hCount hJudged hSignal
      hClean =>
      apply earned_called (earned_asked h rfs windowStart)
      intro id hLanded close' hMem
      cases List.mem_singleton.mp hMem
      rcases hConsistent.state with ⟨st, hState, _⟩
      have hAsked : (m.asked rfs windowStart).store.tables.state = some st := hState
      rcases state_called hAsked env.write (cleanCall close) (fun _ => [.closedClean close]) with
        ⟨_, st', _, hEffect⟩ | ⟨hNot, _⟩
      · rcases effect_closed hEffect with ⟨values, hValues, _⟩
        exact earned_of_landed hRow hEnd hWindow hLastEnd hCount hJudged hSignal hClean hValues
          (hDecides close.row windowStart close.evidence hWindow hJudged.bundle)
      · exact absurd hLanded (hNot id)
  | unchanged row windowStart => exact earned_asked h rfs windowStart
  | updated row windowStart =>
    apply earned_called_other (earned_asked h rfs windowStart)
    intro close hMem
    cases hMem

theorem earned_mark {env : CycleEnv F} {st : RuntimeState F} {evaluated rfs : Option F}
    {r : Except ErrorCode Unit} {m' : Machine F} (h : CleanClosesEarned m.log)
    (hEnds : MarkEnds env st evaluated rfs m r m') : CleanClosesEarned m'.log := by
  cases hEnds with
  | corrupt => exact h
  | called stop =>
    apply earned_called_other h
    intro close hMem
    cases List.mem_singleton.mp hMem

/- The guard, at the window an evaluation judges. -/
theorem decides_of_deciding {env : CycleEnv F} {cut : Option ℕ} {st : RuntimeState F}
    {gate : Option F} {fresh : Bool} {rfs : Option F} {lastEnd : F}
    (hRunning : m.enabled = true) (hDeciding : Deciding m (.cycle env cut))
    (hObserved : Observed env m st gate fresh rfs)
    (hGrid : lastCompleteEnd st.activationFloorEpoch env.now.reading = some lastEnd)
    (row : WindowRow F) (windowStart : F) (evidence : Members F)
    (hWindow : OpenWindow (openRowOf m.store st) row windowStart lastEnd)
    (hBundle : classifierBundle env.read windowStart lastEnd (projection rfs windowStart) = some evidence) :
    Decides row lastEnd evidence := by
  have hStatus : projection rfs windowStart ∈ [ReaderStatus.fresh, .stale] := by
    unfold projection
    split
    · split <;> simp
    · simp
  exact hDeciding hRunning st hObserved.state row hWindow.isOpen
    windowStart hWindow.start lastEnd hGrid hWindow.high _ hStatus
    evidence hBundle

/- The gates and the rows are kept, and closes are earned. -/
structure Settled (m : Machine F) : Prop where
  recorded : Recorded m
  log : CleanClosesEarned m.log

theorem rowKept_open (h : Recorded m) {st : RuntimeState F} {row : WindowRow F}
    (hOpen : openRowOf m.store st = some row) : RowKept row := by
  unfold openRowOf at hOpen
  rcases Option.bind_eq_some_iff.mp hOpen with ⟨id, _, hFind⟩
  exact h.rows row (List.mem_of_find?_eq_some hFind)

/- The evaluation of a cycle that decides. -/
theorem evaluate_earned {env : CycleEnv F} {cut : Option ℕ} {st : RuntimeState F}
    {gate : Option F} {fresh : Bool} {rfs : Option F} {lastEnd : F}
    {r : Except ErrorCode (Option F)} {m' : Machine F} (h : Settled m)
    (hRunning : m.enabled = true) (hDeciding : Deciding m (.cycle env cut))
    (hObserved : Observed env m st gate fresh rfs)
    (hGrid : lastCompleteEnd st.activationFloorEpoch env.now.reading = some lastEnd)
    (hEval : EvaluateEnds env (openRowOf m.store st) gate lastEnd rfs (m.observed env fresh) r m') :
    CleanClosesEarned m'.log := by
  have hFloor := h.recorded.gated.floor st hObserved.state
  apply earned_evaluate (m := m.observed env fresh) h.recorded.gated.consistent
    (earned_observed h.log env fresh) _
    (lastCompleteEnd_onMinute hFloor hGrid).1 _ hEval
  · intro row hOpen
    exact rowKept_open h.recorded hOpen
  · exact decides_of_deciding hRunning hDeciding hObserved hGrid

theorem cycle_earned {env : CycleEnv F} {cut : Option ℕ} {r : Except ErrorCode Unit}
    {m' : Machine F} (h : Settled m) (hRunning : m.enabled = true)
    (hDeciding : Deciding m (.cycle env cut))
    (hEnds : CycleEnds env m r m') : CleanClosesEarned m'.log := by
  cases hEnds with
  | unread => exact h.log
  | early st gate fresh rfs r m' hObserved hGrid hMark =>
    exact earned_mark (earned_observed h.log env fresh) hMark
  | aborted st gate fresh rfs lastEnd e m' hObserved hGrid hEval =>
    exact evaluate_earned h hRunning hDeciding hObserved hGrid hEval
  | evaluated st gate fresh rfs lastEnd stop r m1 m' hObserved
      hGrid hEval hMark =>
      exact earned_mark (evaluate_earned h hRunning hDeciding hObserved hGrid hEval) hMark

theorem passes_earned {env : CycleEnv F} {cut : Option ℕ} {m' : Machine F} (h : Settled m)
    (hRunning : m.enabled = true) (hDeciding : Deciding m (.cycle env cut))
    (hPasses : CyclePasses env m m') : CleanClosesEarned m'.log := by
  cases hPasses with
  | observed st gate fresh => exact earned_observed h.log env fresh
  | evaluating st gate fresh rfs lastEnd m' hObserved hGrid hEval =>
    cases hEval with
    | asked windowStart =>
      exact earned_asked (earned_observed h.log env fresh) rfs windowStart
    | ends r _ hEnds => exact evaluate_earned h hRunning hDeciding hObserved hGrid hEnds
  | ends r _ hEnds => exact cycle_earned h hRunning hDeciding hEnds

-- Runs

theorem start_earned {env : StartEnv F} {m' : Machine F} (h : CleanClosesEarned m.log)
    (hEnds : StartEnds env m m') : CleanClosesEarned m'.log := by
  have hActivated : CleanClosesEarned (m.activated env).log := by
    apply earned_called_other h
    intro close hMem
    cases hMem
  have hBroken : ∀ st fresh, CleanClosesEarned (m.broken env st fresh).log := by
    intro st fresh
    apply earned_called_other hActivated
    intro close hMem
    cases List.mem_singleton.mp hMem
  cases hEnds with
  | dark => exact hActivated
  | broken st fresh => exact hBroken st fresh
  | running st fresh => exact hBroken st fresh

theorem step_settled (h : Settled m) {input : Input F}
    (hDeciding : Deciding m input) : Settled (step m input).2 := by
  refine ⟨step_recorded h.recorded input, ?_⟩
  have hEnds := step_ends m input
  revert hEnds
  generalize (step m input).2 = m'
  intro hEnds
  cases hEnds with
  | still => exact h.log
  | died => exact h.log
  | started env _ hIdle hStart => exact start_earned h.log hStart
  | startCut env n m' hIdle hStart =>
    change CleanClosesEarned m'.log
    exact start_earned h.log hStart
  | scanned env r _ hRunning hAnswer hCycle => exact cycle_earned h hRunning hDeciding hCycle
  | scanCut env n m' hRunning hPasses =>
    change CleanClosesEarned m'.log
    exact passes_earned h hRunning hDeciding hPasses
  | rearm env =>
    apply earned_called_other h.log
    intro close hMem
    cases List.mem_singleton.mp hMem
  | cleanup env =>
    apply earned_called_other h.log
    intro close hMem
    cases hMem

theorem settled_freshMachine : Settled (freshMachine : Machine F) := by
  refine ⟨recorded_freshMachine, ?_⟩
  intro close hMem
  cases hMem

/-
  In every run whose cycles all judge a window that decides,
  with any clock, evidence, crashes and storage failures, every
  clean close is earned.
-/
theorem clean_closes_earned {h : List (Input F × Unit)} {m : Machine F}
    (hTrace : Trace step Deciding freshMachine h m) : CleanClosesEarned m.log := by
  have hSettled : Settled m := hTrace.invariant settled_freshMachine
      (fun _ _ hSettled hDeciding => step_settled hSettled hDeciding)
  exact hSettled.log

/- Tables with journal rows alone. -/
def journalRows (rows : List (Json (IntGrid (2 ^ 53)))) : EvidenceRows (IntGrid (2 ^ 53)) :=
  ⟨false, none, [], [], [], rows, []⟩

/- Reality failures open a row, from 660 on. -/
def openedAt915 : List (Input (IntGrid (2 ^ 53))) := [freshStart 600 early600,
    cycleAt 915 early915 "fresh" (journalRows [journalRowOf 850 5 "Reality"]) []]

/- It closes once its last three buckets are judged clean. -/
def closedAt1095 : List (Input (IntGrid (2 ^ 53))) := openedAt915 ++ [cycleAt 1095 (by omega) "fresh"
      (journalRows [journalRowOf 850 5 "Reality"]) []]

/- The status of the verdict a clean close settled. -/
def closedStatus (event : Event F) : Option Status := match event with
  | .closedClean close => some close.detection.classification.status
  | _ => none

theorem clean_closes_earned_of_closedAt1095 : some Status.incident ∈
        (finalState step freshMachine closedAt1095).log.map closedStatus ∧
      CleanClosesEarned (finalState step freshMachine closedAt1095).log := by
  refine ⟨by decide +kernel, ?_⟩
  have hFresh : Trace step Deciding (freshMachine : Machine (IntGrid (2 ^ 53))) [] _ := Trace.start
  have hStarted := hFresh.snoc (freshStart 600 early600) True.intro
  have hOpened := hStarted.snoc (cycleAt 915 early915 "fresh" (journalRows [journalRowOf 850 5 "Reality"]) [])
    (by decide +kernel)
  have hClosed := hOpened.snoc (cycleAt 1095 (by omega) "fresh"
      (journalRows [journalRowOf 850 5 "Reality"]) [])
    (by decide +kernel)
  exact clean_closes_earned hClosed

/- A failure the classifier refuses: a port without a class. -/
def portedRow (ts : ℕ) : Json (IntGrid (2 ^ 53)) := namedFields
    [("ts", .int ts), ("cls", .str (pyStr "reset")), ("proto", .str (pyStr "Reality")), ("port", .int 443),
      ("dcls", .str (pyStr "NONE")), ("n", .int 1)]

/- A minute later such a failure has the bundle refused. -/
def closedAt975 : List (Input (IntGrid (2 ^ 53))) := openedAt915 ++ [cycleAt 975 (by omega) "fresh"
      (journalRows [journalRowOf 850 5 "Reality", portedRow 930])
      []]

/- The refused bundle closes the row as clean. -/
theorem not_clean_closes_earned_closedAt975 : ¬ ∀ inputs : List (Input (IntGrid (2 ^ 53))),
      CleanClosesEarned (finalState step freshMachine inputs).log := by
  intro h
  have hClosed : some Status.indeterminate ∈ (finalState step freshMachine closedAt975).log.map
          closedStatus := by
    decide +kernel
  rcases List.mem_map.mp hClosed with ⟨event, hMem, hStatus⟩
  cases event with
  | closedClean close => exact (h closedAt975 close hMem).verdict (Option.some.inj hStatus)
  | _ => cases hStatus

end SingboxOps.Scanner
