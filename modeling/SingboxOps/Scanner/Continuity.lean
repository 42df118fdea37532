import SingboxOps.Scanner.Stages

/-
  The continuity of the reader.

  A window is classified as watched throughout when the
  stored continuity began by its start.  That is honest as
  long as a cycle that observed a stale reader gets to its
  mark: the broken continuity is on record only then.
-/

namespace SingboxOps.Scanner

open Classifier EvidenceStore
open IncidentHistory (Env Call Store RuntimeState WindowRow
  SnapshotArgs Outcome call freshStore Consistent Effect
  call_kept call_effect call_not_landed)

variable {F : Type} [BoundedFloat F]

-- The Law

/- A cycle since `since` observed a reader that was not fresh. -/
def StaleSince (log : List (Event F)) (since : F) : Prop :=
  ∃ moment, .observed moment false ∈ log ∧ PyFloat.toRat since ≤ PyFloat.toRat moment

instance (log : List (Event F)) (since : F) :
    Decidable (StaleSince log since) :=
  decidable_of_iff (log.any (fun event =>
      match event with
      | .observed moment false => decide (PyFloat.toRat since ≤ PyFloat.toRat moment)
      | _ => false) = true)
    (by
      rw [List.any_eq_true]
      constructor
      · intro h
        rcases h with ⟨event, hMem, hEvent⟩
        split at hEvent
        · rename_i moment
          exact ⟨moment, hMem, of_decide_eq_true hEvent⟩
        · cases hEvent
      · intro h
        rcases h with ⟨moment, hMem, hSince⟩
        exact ⟨_, hMem, decide_eq_true hSince⟩)

/-
  Whenever a window is projected as watched, every cycle that
  ran since its start had observed a fresh reader.
-/
def ContinuityHonest (log : List (Event F)) : Prop := ∀ before after windowStart,
    log = before ++ .projected windowStart true :: after → ¬ StaleSince before windowStart

/-
  What keeps the law for one step.  A continuity begins later
  than every stale observation before it, and a cycle that
  observes a stale reader while a continuity is on record gets
  to its mark.
-/
def Unbroken (m : Machine F) (input : Input F) : Prop := match input with
  | .start env _ => ¬ StaleSince m.log env.floor
  | .cycle env cut =>
    ∀ token, env.heartbeat = .token token →
      if isFresh token then ¬ StaleSince m.log env.stamp.reading
      else
        cut ≠ none ∨ (runOneCycle env).answer m = .ok () ∨
          ∀ st, m.store.tables.state = some st → st.readerFreshSinceEpoch = none
  | _ => True

-- Events

/- An event that neither observes a stale reader nor projects. -/
def Silent (event : Event F) : Prop := (∀ moment, event ≠ .observed moment false) ∧
    ∀ windowStart, event ≠ .projected windowStart true

theorem honest_snoc {log : List (Event F)} {event : Event F} (h : ContinuityHonest log)
    (hEvent : ∀ windowStart, event = .projected windowStart true → ¬ StaleSince log windowStart) :
    ContinuityHonest (log ++ [event]) := by
  intro before after windowStart hSplit
  rcases snoc_inj hSplit with ⟨_, hSame, rfl⟩ | ⟨rest, _, hLog⟩
  · exact hEvent windowStart hSame.symm
  · exact h before rest windowStart hLog

theorem staleSince_append {log : List (Event F)} {events : List (Event F)} (hSilent : ∀ e ∈ events, Silent e)
    {since : F} : StaleSince (log ++ events) since ↔ StaleSince log since := by
  unfold StaleSince
  constructor
  · intro h
    rcases h with ⟨moment, hMem, hSince⟩
    rcases List.mem_append.mp hMem with hOld | hNew
    · exact ⟨moment, hOld, hSince⟩
    · exact absurd rfl ((hSilent _ hNew).1 moment)
  · intro h
    rcases h with ⟨moment, hMem, hSince⟩
    exact ⟨moment, List.mem_append_left _ hMem, hSince⟩

theorem honest_append {log events : List (Event F)} (h : ContinuityHonest log)
    (hSilent : ∀ e ∈ events, Silent e) : ContinuityHonest (log ++ events) := by
  induction events generalizing log with
  | nil =>
    rw [List.append_nil]
    exact h
  | cons e events ih =>
    rw [List.append_cons]
    apply ih
    · apply honest_snoc h
      intro windowStart hSame
      exact absurd hSame ((hSilent e List.mem_cons_self).2 windowStart)
    · intro e' he'
      exact hSilent e' (List.mem_cons_of_mem e he')

-- What a Stage Leaves

/- The continuity on record. -/
def Machine.rfs (m : Machine F) : Option F := m.store.tables.state.bind RuntimeState.readerFreshSinceEpoch

/-
  A stage that keeps the law, the stale observations and the
  continuity on record.
-/
structure Frame (m m' : Machine F) : Prop where
  consistent : Consistent m.store.tables → Consistent m'.store.tables
  honest : ContinuityHonest m.log → ContinuityHonest m'.log
  stale : ∀ since, StaleSince m'.log since ↔ StaleSince m.log since
  rfs : Consistent m.store.tables → m'.rfs = m.rfs

theorem Frame.refl (m : Machine F) : Frame m m := ⟨fun h => h, fun h => h, fun _ => Iff.rfl, fun _ => rfl⟩

theorem Frame.trans {m m' m'' : Machine F} (h : Frame m m') (h' : Frame m' m'') : Frame m m'' where
  consistent hm := h'.consistent (h.consistent hm)
  honest hm := h'.honest (h.honest hm)
  stale since := (h'.stale since).trans (h.stale since)
  rfs hm := (h'.rfs (h.consistent hm)).trans (h.rfs hm)

variable {m : Machine F}

/- A call other than a mark. -/
def Unmarking (c : Call F) : Prop := ∀ evaluated fresh, c ≠ .runtimeMark evaluated fresh

theorem effect_rfs {st st' : RuntimeState F} {windows windows' : List (WindowRow F)}
    {c : Call F} (hCall : Unmarking c)
    (h : Effect st windows c st' windows') :
    st'.readerFreshSinceEpoch = st.readerFreshSinceEpoch := by
  cases h with
  | marked => exact absurd rfl (hCall _ _)
  | closed =>
    unfold IncidentHistory.closedGate
    split <;> rfl
  | _ => rfl

theorem frame_called {env : Env F} {c : Call F} {event : Store F → List (Event F)} (hCall : Unmarking c)
    (hSilent : ∀ e ∈ event m.store, Silent e) : Frame m (m.called env c event) := by
  refine ⟨fun h => consistent_called h env c event, ?_, ?_, ?_⟩
  · intro h
    rcases log_called m env c event with ⟨_, hLog⟩ | ⟨_, hLog⟩
    · rw [hLog]
      exact honest_append h hSilent
    · rw [hLog]
      exact h
  · intro since
    rcases log_called m env c event with ⟨_, hLog⟩ | ⟨_, hLog⟩
    · rw [hLog]
      exact staleSince_append hSilent
    · rw [hLog]
  · intro h
    rcases h.state with ⟨st, hState, _⟩
    unfold Machine.rfs
    rcases state_called hState env c event with ⟨_, st', hState', hEffect⟩ | ⟨_, hSame⟩
    · rw [hState', hState]
      exact effect_rfs hCall hEffect
    · rw [hSame]

theorem frame_asked {rfs : Option F} {windowStart : F}
    (hRfs : ∀ since, rfs = some since → ¬ StaleSince m.log since) :
    Frame m (m.asked rfs windowStart) := by
  have hLog : (m.asked rfs windowStart).log = m.log ++ [.projected windowStart
        (projection rfs windowStart = .fresh)] := rfl
  refine ⟨fun h => h, ?_, ?_, fun _ => rfl⟩
  · intro h
    rw [hLog]
    apply honest_snoc h
    intro w hSame
    injection hSame with hStart hFresh
    subst hStart
    rw [decide_eq_true_eq] at hFresh
    unfold projection at hFresh
    split at hFresh
    · rename_i since
      split at hFresh
      · rename_i hBefore
        intro hStale
        rcases hStale with ⟨moment, hMem, hSince⟩
        exact hRfs since rfl ⟨moment, hMem, hBefore.trans hSince⟩
      · cases hFresh
    · cases hFresh
  · intro since
    rw [hLog]
    unfold StaleSince
    simp

theorem silent_limitEvent (store : Store F) : ∀ e ∈ limitEvent store, Silent e := by
  intro e he
  unfold limitEvent at he
  split at he
  · rw [List.mem_singleton.mp he]
    exact ⟨fun _ => by simp, fun _ => by simp⟩
  · cases he

theorem silent_openedEvent (analysisStart : F)
    (store : Store F) : ∀ e ∈ openedEvent analysisStart store, Silent e := by
  intro e he
  unfold openedEvent at he
  split at he
  · rw [List.mem_singleton.mp he]
    exact ⟨fun _ => by simp, fun _ => by simp⟩
  · cases he

theorem frame_evaluate {env : CycleEnv F} {openRow : Option (WindowRow F)}
    {gate : Option F} {lastEnd : F} {rfs : Option F}
    {r : Except ErrorCode (Option F)} {m' : Machine F}
    (hRfs : ∀ since, rfs = some since → ¬ StaleSince m.log since)
    (h : EvaluateEnds env openRow gate lastEnd rfs m r m') : Frame m m' := by
  cases h with
  | idle => exact Frame.refl m
  | corrupt => exact Frame.refl m
  | limit row lastSignal classifiedEnd =>
    apply frame_called
    · intro _ _ hSame
      cases hSame
    · exact silent_limitEvent m.store
  | unjudged => exact frame_asked hRfs
  | quiet => exact frame_asked hRfs
  | signalless => exact frame_asked hRfs
  | unchanged => exact frame_asked hRfs
  | opened =>
    apply (frame_asked hRfs).trans
    apply frame_called
    · intro _ _ hSame
      cases hSame
    · exact silent_openedEvent _ _
  | closed =>
    apply (frame_asked hRfs).trans
    apply frame_called
    · intro _ _ hSame
      cases hSame
    · intro e he
      rw [List.mem_singleton.mp he]
      exact ⟨fun _ => by simp, fun _ => by simp⟩
  | updated =>
    apply (frame_asked hRfs).trans
    apply frame_called
    · intro _ _ hSame
      cases hSame
    · intro e he
      cases he

theorem frame_passes {env : CycleEnv F} {openRow : Option (WindowRow F)}
    {gate : Option F} {lastEnd : F} {rfs : Option F} {m' : Machine F}
    (hRfs : ∀ since, rfs = some since → ¬ StaleSince m.log since)
    (h : EvaluatePasses env openRow gate lastEnd rfs m m') : Frame m m' := by
  cases h with
  | asked => exact frame_asked hRfs
  | ends r _ hEnds => exact frame_evaluate hRfs hEnds

-- The Mark

theorem silent_marked (stop : F) : Silent (.marked stop) := ⟨fun _ => by simp, fun _ => by simp⟩

theorem freshSince_ok {rfs fresh : Option F} (h : IncidentHistory.freshSince (match rfs with
        | some since => real since
        | none => .null) = .ok (some fresh)) :
    fresh = rfs := by
  cases rfs with
  | none =>
    cases h
    rfl
  | some since =>
    change (IncidentHistory.incidentEpoch (real since)).map (Option.map some) = _ at h
    cases hEpoch : IncidentHistory.incidentEpoch (real since) with
    | error e =>
      rw [hEpoch] at h
      cases h
    | ok value =>
      rw [hEpoch] at h
      cases value with
      | none => cases h
      | some y =>
        have hSame := incidentEpoch_real hEpoch
        subst hSame
        cases h
        rfl

/- A mark that lands leaves its own continuity on record. -/
theorem rfs_marked (h : Consistent m.store.tables) (env : Env F) (stop : F) (rfs : Option F)
    (event : Store F → List (Event F)) :
    ((∃ id, (call env (markCall stop rfs) m.store).1 = .landed id) ∧
        (m.called env (markCall stop rfs) event).rfs = rfs) ∨
      ((∀ id, (call env (markCall stop rfs) m.store).1 ≠ .landed id) ∧
        (m.called env (markCall stop rfs) event).rfs = m.rfs) := by
  rcases h.state with ⟨st, hState, _⟩
  unfold Machine.rfs
  rcases state_called hState env (markCall stop rfs) event with
    ⟨hLanded, st', hState', hEffect⟩ | ⟨hLanded, hSame⟩
  · left
    refine ⟨hLanded, ?_⟩
    rcases IncidentHistory.effect_marked hEffect with ⟨evaluated, fresh, _, hFresh, _, hMarked⟩
    rw [hState', hMarked]
    exact freshSince_ok hFresh
  · right
    refine ⟨hLanded, ?_⟩
    rw [hSame]

/- What a mark keeps, and what it leaves on record. -/
structure Marked (rfs : Option F) (m : Machine F) (r : Except ErrorCode Unit)
    (m' : Machine F) : Prop where
  consistent : Consistent m'.store.tables
  honest : ContinuityHonest m.log → ContinuityHonest m'.log
  stale : ∀ since, StaleSince m'.log since ↔ StaleSince m.log since
  rfs : m'.rfs = rfs ∨ (r ≠ .ok () ∧ m'.rfs = m.rfs)

theorem marked_of_ends {env : CycleEnv F} {st : RuntimeState F} {evaluated rfs : Option F}
    {r : Except ErrorCode Unit} {m' : Machine F} (h : Consistent m.store.tables)
    (hEnds : MarkEnds env st evaluated rfs m r m') : Marked rfs m r m' := by
  cases hEnds with
  | corrupt e =>
    refine ⟨h, fun hLog => hLog, fun _ => Iff.rfl, Or.inr ?_⟩
    refine ⟨?_, rfl⟩
    intro hOk
    cases hOk
  | called stop hStop =>
    have hSilent : ∀ e ∈ [Event.marked stop], Silent e := by
      intro e he
      rw [List.mem_singleton.mp he]
      exact silent_marked stop
    refine ⟨consistent_called h _ _ _, ?_, ?_, ?_⟩
    · intro hLog
      rcases log_called m env.mark (markCall stop rfs) (fun _ => [.marked stop]) with ⟨_, hSame⟩ | ⟨_, hSame⟩
      · rw [hSame]
        exact honest_append hLog hSilent
      · rw [hSame]
        exact hLog
    · intro since
      rcases log_called m env.mark (markCall stop rfs) (fun _ => [.marked stop]) with ⟨_, hSame⟩ | ⟨_, hSame⟩
      · rw [hSame]
        exact staleSince_append hSilent
      · rw [hSame]
    · rcases rfs_marked h env.mark stop rfs (fun _ => [.marked stop]) with ⟨_, hRfs⟩ | ⟨hLanded, hRfs⟩
      · exact Or.inl hRfs
      · right
        refine ⟨?_, hRfs⟩
        intro hOk
        rcases (answered_ok hOk).1 with ⟨id, hId⟩
        exact hLanded id hId

-- Cycles

/- The law holds, and what is on record bears it out. -/
structure Honest (m : Machine F) : Prop where
  consistent : Consistent m.store.tables
  log : ContinuityHonest m.log
  since : m.enabled = true → ∀ since, m.rfs = some since → ¬ StaleSince m.log since

theorem silent_observed (moment : F) : Silent (.observed moment true) := ⟨fun _ => by simp, fun _ => by simp⟩

theorem honest_observed (h : ContinuityHonest m.log) (env : CycleEnv F)
    (fresh : Bool) : ContinuityHonest (m.observed env fresh).log := by
  apply honest_snoc h
  intro windowStart hSame
  cases hSame

/- The continuity a cycle works with begins after stale readers. -/
theorem continuity_since {env : CycleEnv F} {st : RuntimeState F} {gate : Option F}
    {fresh : Bool} {rfs : Option F} {cut : Option ℕ} (h : Honest m)
    (hRunning : m.enabled = true) (hUnbroken : Unbroken m (.cycle env cut))
    (hObserved : Observed env m st gate fresh rfs) :
    ∀ since, rfs = some since → ¬ StaleSince (m.observed env fresh).log since := by
  intro since hSince
  have hFresh : fresh = true := by
    rcases hObserved.continuity with ⟨_, hNone⟩ | ⟨hFresh, _⟩ | ⟨hFresh, _⟩
    · rw [hSince] at hNone
      cases hNone
    · exact hFresh
    · exact hFresh
  subst hFresh
  have hSilent : ∀ e ∈ [Event.observed env.stamp.reading true], Silent e := by
    intro e he
    rw [List.mem_singleton.mp he]
    exact silent_observed _
  have hLog : StaleSince (m.observed env true).log since ↔
        StaleSince m.log since := staleSince_append hSilent
  rw [hLog]
  rcases hObserved.heartbeat with ⟨token, hToken, hIs⟩
  have hForward := hUnbroken token hToken
  rw [hIs, if_pos rfl] at hForward
  rcases hObserved.continuity with ⟨hStale, _⟩ | ⟨_, hStamp⟩ | ⟨_, hKept, _⟩
  · cases hStale
  · rw [hSince] at hStamp
    cases hStamp
    exact hForward
  · apply h.since hRunning
    unfold Machine.rfs
    rw [hObserved.state]
    exact hKept.symm.trans hSince

/- A cycle's ends and passing machines keep the law of the log. -/
theorem cycle_log {env : CycleEnv F} {cut : Option ℕ} {r : Except ErrorCode Unit}
    {m' : Machine F} (h : Honest m) (hRunning : m.enabled = true)
    (hUnbroken : Unbroken m (.cycle env cut))
    (hEnds : CycleEnds env m r m') :
    Consistent m'.store.tables ∧ ContinuityHonest m'.log := by
  cases hEnds with
  | unread => exact ⟨h.consistent, h.log⟩
  | early st gate fresh rfs r m' hObserved hGrid hMark =>
    have hMarked := marked_of_ends (m := m.observed env fresh) h.consistent hMark
    exact ⟨hMarked.consistent, hMarked.honest (honest_observed h.log env fresh)⟩
  | aborted st gate fresh rfs lastEnd e m' hObserved hGrid hEval =>
    have hFrame := frame_evaluate (continuity_since h hRunning hUnbroken hObserved) hEval
    exact ⟨hFrame.consistent h.consistent, hFrame.honest (honest_observed h.log env fresh)⟩
  | evaluated st gate fresh rfs lastEnd stop r m1 m' hObserved
      hGrid hEval hMark =>
      have hFrame := frame_evaluate (continuity_since h hRunning hUnbroken hObserved) hEval
      have hMarked := marked_of_ends (hFrame.consistent h.consistent) hMark
      exact ⟨hMarked.consistent, hMarked.honest (hFrame.honest (honest_observed h.log env fresh))⟩

theorem cycle_passes_log {env : CycleEnv F} {cut : Option ℕ} {m' : Machine F} (h : Honest m)
    (hRunning : m.enabled = true) (hUnbroken : Unbroken m (.cycle env cut))
    (hPasses : CyclePasses env m m') :
    Consistent m'.store.tables ∧ ContinuityHonest m'.log := by
  cases hPasses with
  | observed st gate fresh rfs hObserved =>
    exact ⟨h.consistent, honest_observed h.log env fresh⟩
  | evaluating st gate fresh rfs lastEnd m' hObserved hGrid hEval =>
    have hFrame := frame_passes (continuity_since h hRunning hUnbroken hObserved) hEval
    exact ⟨hFrame.consistent h.consistent, hFrame.honest (honest_observed h.log env fresh)⟩
  | ends r _ hEnds => exact cycle_log h hRunning hUnbroken hEnds

/- Whatever is left on record, no stale reader is after it. -/
theorem since_of_rfs {env : CycleEnv F} {st : RuntimeState F} {gate : Option F}
    {fresh : Bool} {rfs : Option F} {r : Except ErrorCode Unit}
    {m' : Machine F} (h : Honest m) (hRunning : m.enabled = true)
    (hUnbroken : Unbroken m (.cycle env none)) (hAnswer : (runOneCycle env).answer m = r)
    (hObserved : Observed env m st gate fresh rfs)
    (hStale : ∀ since, StaleSince m'.log since ↔ StaleSince (m.observed env fresh).log since)
    (hRfs : m'.rfs = rfs ∨ (r ≠ .ok () ∧ m'.rfs = m.rfs)) :
    ∀ since, m'.rfs = some since → ¬ StaleSince m'.log since := by
  intro since hSince
  rw [hStale]
  rcases hRfs with hRfs | ⟨hAborted, hRfs⟩
  · rw [hRfs] at hSince
    exact continuity_since h hRunning hUnbroken hObserved since hSince
  · rw [hRfs] at hSince
    rcases hObserved.heartbeat with ⟨token, hToken, hIs⟩
    have hGuard := hUnbroken token hToken
    rw [hIs] at hGuard
    cases fresh with
    | true =>
      have hSilent : ∀ e ∈ [Event.observed env.stamp.reading true], Silent e := by
        intro e he
        rw [List.mem_singleton.mp he]
        exact silent_observed _
      have hLog : StaleSince (m.observed env true).log since ↔
            StaleSince m.log since := staleSince_append hSilent
      rw [hLog]
      exact h.since hRunning since hSince
    | false =>
      -- the broken continuity was not marked, so none was kept
      rw [if_neg Bool.false_ne_true] at hGuard
      rcases hGuard with hCut | hOk | hNone
      · exact absurd rfl hCut
      · exact absurd (hAnswer.symm.trans hOk) hAborted
      · have hNull := hNone st hObserved.state
        unfold Machine.rfs at hSince
        rw [hObserved.state] at hSince
        change st.readerFreshSinceEpoch = some since at hSince
        rw [hNull] at hSince
        cases hSince

theorem cycle_honest {env : CycleEnv F} {r : Except ErrorCode Unit} {m' : Machine F}
    (h : Honest m) (hRunning : m.enabled = true)
    (hUnbroken : Unbroken m (.cycle env none)) (hAnswer : (runOneCycle env).answer m = r)
    (hEnds : CycleEnds env m r m') : Honest m' := by
  have hLog := cycle_log h hRunning hUnbroken hEnds
  refine ⟨hLog.1, hLog.2, ?_⟩
  intro _
  cases hEnds with
  | unread => exact h.since hRunning
  | early st gate fresh rfs r m' hObserved hGrid hMark =>
    have hMarked := marked_of_ends (m := m.observed env fresh) h.consistent hMark
    exact since_of_rfs h hRunning hUnbroken hAnswer hObserved hMarked.stale hMarked.rfs
  | aborted st gate fresh rfs lastEnd e m' hObserved hGrid hEval =>
    have hFrame := frame_evaluate (continuity_since h hRunning hUnbroken hObserved) hEval
    apply since_of_rfs h hRunning hUnbroken hAnswer hObserved hFrame.stale
    right
    refine ⟨?_, hFrame.rfs h.consistent⟩
    intro hOk
    cases hOk
  | evaluated st gate fresh rfs lastEnd stop r m1 m' hObserved
      hGrid hEval hMark =>
      have hFrame := frame_evaluate (continuity_since h hRunning hUnbroken hObserved) hEval
      have hMarked := marked_of_ends (hFrame.consistent h.consistent) hMark
      apply since_of_rfs h hRunning hUnbroken hAnswer hObserved
      · intro since
        rw [hMarked.stale, hFrame.stale]
      · rcases hMarked.rfs with hRfs | ⟨hAborted, hRfs⟩
        · exact Or.inl hRfs
        · right
          refine ⟨hAborted, ?_⟩
          rw [hRfs]
          exact hFrame.rfs h.consistent

-- Runs

theorem Honest.died (h : Honest m) : Honest (died m) := by
  refine ⟨h.consistent, h.log, ?_⟩
  intro hRunning
  cases hRunning

/- A scanner that is not running needs nothing on record. -/
theorem honest_idle {m' : Machine F} (hConsistent : Consistent m'.store.tables)
    (hLog : ContinuityHonest m'.log) : Honest (died m') := by
  refine ⟨hConsistent, hLog, ?_⟩
  intro hRunning
  cases hRunning

theorem frame_activated {env : StartEnv F} : Frame m (m.activated env) := by
  apply frame_called
  · intro _ _ hSame
    cases hSame
  · intro e he
    cases he

theorem broken_kept (h : Honest m) (env : StartEnv F) (st : RuntimeState F) (fresh : Bool) :
    Consistent (m.broken env st fresh).store.tables ∧ ContinuityHonest (m.broken env st fresh).log ∧
      ∀ since, StaleSince (m.broken env st fresh).log since ↔ StaleSince m.log since := by
  have hFrame : Frame m (m.activated env) := frame_activated
  have hSilent : ∀ e ∈ [Event.marked st.lastEvaluatedEndEpoch], Silent e := by
    intro e he
    rw [List.mem_singleton.mp he]
    exact silent_marked _
  refine ⟨?_, ?_, ?_⟩
  · exact consistent_called (hFrame.consistent h.consistent) _ _ _
  · unfold Machine.broken
    rcases log_called (m.activated env) env.mark (breakCall env st fresh)
      (fun _ => [.marked st.lastEvaluatedEndEpoch]) with
      ⟨_, hLog⟩ | ⟨_, hLog⟩
    · rw [hLog]
      exact honest_append (hFrame.honest h.log) hSilent
    · rw [hLog]
      exact hFrame.honest h.log
  · intro since
    unfold Machine.broken
    rw [← hFrame.stale since]
    rcases log_called (m.activated env) env.mark (breakCall env st fresh)
      (fun _ => [.marked st.lastEvaluatedEndEpoch]) with
      ⟨_, hLog⟩ | ⟨_, hLog⟩
    · rw [hLog]
      exact staleSince_append hSilent
    · rw [hLog]

theorem start_kept {env : StartEnv F} {m' : Machine F} (h : Honest m)
    (hEnds : StartEnds env m m') : Consistent m'.store.tables ∧ ContinuityHonest m'.log := by
  cases hEnds with
  | dark =>
    have hFrame : Frame m (m.activated env) := frame_activated
    exact ⟨hFrame.consistent h.consistent, hFrame.honest h.log⟩
  | broken st fresh =>
    have hKept := broken_kept h env st fresh
    exact ⟨hKept.1, hKept.2.1⟩
  | running st fresh =>
    have hKept := broken_kept h env st fresh
    exact ⟨hKept.1, hKept.2.1⟩

theorem start_honest {env : StartEnv F} {m' : Machine F}
    (h : Honest m) (hIdle : m.enabled = false) (hUnbroken : Unbroken m (.start env none))
    (hEnds : StartEnds env m m') : Honest m' := by
  have hKept := start_kept h hEnds
  refine ⟨hKept.1, hKept.2, ?_⟩
  intro hRunning
  cases hEnds with
  | dark =>
    change m.enabled = true at hRunning
    rw [hIdle] at hRunning
    cases hRunning
  | broken =>
    change m.enabled = true at hRunning
    rw [hIdle] at hRunning
    cases hRunning
  | running st fresh id hState hLanded hGates =>
    have hBroken := broken_kept h env st fresh
    intro since hSince
    have hStale : StaleSince (m.broken env st fresh).log since ↔
          StaleSince m.log since := hBroken.2.2 since
    change ¬ StaleSince (m.broken env st fresh).log since
    rw [hStale]
    have hCall : breakCall env st fresh = markCall st.lastEvaluatedEndEpoch
            (if fresh then some env.floor else none) := by
      cases fresh <;> rfl
    have hFrame : Frame m (m.activated env) := frame_activated
    have hConsistent := hFrame.consistent h.consistent
    rcases rfs_marked hConsistent env.mark st.lastEvaluatedEndEpoch (if fresh then some env.floor else none)
      (fun _ => [.marked st.lastEvaluatedEndEpoch]) with ⟨_, hRfs⟩ | ⟨hNot, _⟩
    · rw [← hCall] at hRfs
      have hSame : (m.broken env st fresh).rfs = some since := hSince
      unfold Machine.broken at hSame
      rw [hRfs] at hSame
      cases fresh with
      | false => cases hSame
      | true =>
        cases hSame
        exact hUnbroken
    · rw [hCall] at hLanded
      exact absurd hLanded (hNot id)

theorem called_honest {env : Env F} {c : Call F} {event : Store F → List (Event F)}
    (h : Honest m) (hCall : Unmarking c)
    (hSilent : ∀ e ∈ event m.store, Silent e) : Honest (m.called env c event) := by
  have hFrame : Frame m (m.called env c event) := frame_called hCall hSilent
  refine ⟨hFrame.consistent h.consistent, hFrame.honest h.log, ?_⟩
  intro hRunning since hSince
  rw [hFrame.rfs h.consistent] at hSince
  rw [hFrame.stale]
  exact h.since hRunning since hSince

theorem step_honest (h : Honest m) {input : Input F}
    (hUnbroken : Unbroken m input) : Honest (step m input).2 := by
  have hEnds := step_ends m input
  revert hEnds
  generalize (step m input).2 = m'
  intro hEnds
  cases hEnds with
  | still => exact h
  | died => exact h.died
  | started env _ hIdle hStart => exact start_honest h hIdle hUnbroken hStart
  | startCut env n m' hIdle hStart =>
    have hKept := start_kept h hStart
    exact honest_idle hKept.1 hKept.2
  | scanned env r _ hRunning hAnswer hCycle =>
    exact cycle_honest h hRunning hUnbroken hAnswer hCycle
  | scanCut env n m' hRunning hPasses =>
    have hKept := cycle_passes_log h hRunning hUnbroken hPasses
    exact honest_idle hKept.1 hKept.2
  | rearm env =>
    apply called_honest h
    · intro _ _ hSame
      cases hSame
    · intro e he
      rw [List.mem_singleton.mp he]
      exact ⟨fun _ => by simp, fun _ => by simp⟩
  | cleanup env =>
    apply called_honest h
    · intro _ _ hSame
      cases hSame
    · intro e he
      cases he

theorem honest_freshMachine : Honest (freshMachine : Machine F) := by
  refine ⟨IncidentHistory.freshStore_consistent, ?_, ?_⟩
  · intro before after windowStart hSplit
    exact absurd hSplit.symm (List.append_ne_nil_of_right_ne_nil before (List.cons_ne_nil _ _))
  · intro hRunning
    cases hRunning

/-
  In every run whose steps leave no stale observation behind
  unmarked, a window projected as watched was watched.
-/
theorem continuity_honest {h : List (Input F × Unit)} {m : Machine F}
    (hTrace : Trace step Unbroken freshMachine h m) : ContinuityHonest m.log := by
  have hHonest : Honest m := hTrace.invariant honest_freshMachine
      (fun _ _ hHonest hUnbroken => step_honest hHonest hUnbroken)
  exact hHonest.log

-- A Clock of Whole Seconds

/- A float that holds a whole second. -/
def second (n : ℕ) : IntGrid (2 ^ 53) := PyFloat.round (n : ℚ)

theorem toRat_second {n : ℕ} (h : n ≤ 2 ^ 34) : PyFloat.toRat (second n) = n := by
  have hExact := BoundedFloat.exact (F := IntGrid (2 ^ 53)) (n : ℤ) (by rw [Nat.abs_cast]; omega)
  exact_mod_cast hExact

def secondMoment (n : ℕ) (h : n ≤ 2 ^ 34) : Moment (IntGrid (2 ^ 53)) where
  reading := second n
  bounded := by
    rw [toRat_second h, Nat.abs_cast]
    exact_mod_cast h

/- A store that is open at a second, and what it fails. -/
def storeAt (n : ℕ) (faults : List Bool) : Env (IntGrid (2 ^ 53)) where
  enabled := true
  clock := .finite (second n)
  retention := second 604800
  faults := faults
  pick := 1

/- Tables without a row. -/
def noRows : EvidenceRows (IntGrid (2 ^ 53)) := ⟨false, none, [], [], [], [], []⟩

/- A start with a fresh reader. -/
def freshStart (n : ℕ) (h : n ≤ 2 ^ 34) : Input (IntGrid (2 ^ 53)) :=
  .start ⟨secondMoment n h, storeAt n [], true, .token (some (pyStr "fresh")), storeAt n []⟩ none

theorem early600 : 600 ≤ 2 ^ 34 := by norm_num

theorem early915 : 915 ≤ 2 ^ 34 := by norm_num

/- A cycle with what its tables hold and its mark meets. -/
def cycleAt (n : ℕ) (h : n ≤ 2 ^ 34) (status : String) (rows : EvidenceRows (IntGrid (2 ^ 53)))
    (faults : List Bool) : Input (IntGrid (2 ^ 53)) :=
  .cycle ⟨true, .token (some (pyStr status)), secondMoment n h,
    secondMoment n h, fun _ _ => some rows, storeAt n [],
    storeAt n faults⟩ none

/-
  A stale reader is observed at 700 and marked; the window
  from 600 on is not projected as watched.
-/
def markedStale : List (Input (IntGrid (2 ^ 53))) := [freshStart 600 early600,
    cycleAt 700 (by omega) "stale" noRows [],
    cycleAt 915 early915 "fresh" noRows []]

theorem continuity_honest_of_markedStale : ContinuityHonest
      (finalState step freshMachine markedStale).log := by
  have hStart : Unbroken (freshMachine : Machine (IntGrid (2 ^ 53))) (freshStart 600 early600) := by
    intro hStale
    rcases hStale with ⟨_, hMem, _⟩
    cases hMem
  have hFresh : Trace step Unbroken (freshMachine : Machine (IntGrid (2 ^ 53))) [] _ := Trace.start
  have hTrace := hFresh.snoc (freshStart 600 early600) hStart
  have hTrace := hTrace.snoc (cycleAt 700 (by omega) "stale" noRows [])
    (by
      intro token hToken
      cases hToken
      right
      left
      decide +kernel)
  have hTrace := hTrace.snoc (cycleAt 915 early915 "fresh" noRows []) (by
      intro token hToken
      cases hToken
      decide +kernel)
  exact continuity_honest hTrace

/- The same run with the mark of the stale cycle refused. -/
def unmarkedStale : List (Input (IntGrid (2 ^ 53))) := [freshStart 600 early600,
    cycleAt 700 (by omega) "stale" noRows [true],
    cycleAt 915 early915 "fresh" noRows []]

/- The start of a window projected as watched. -/
def watchedFrom (event : Event F) : Option F := match event with
  | .projected windowStart true => some windowStart
  | _ => none

theorem not_honest_of_watched {log : List (Event F)} {i : ℕ} {windowStart : F}
    (hWatched : log[i]?.bind watchedFrom = some windowStart)
    (hStale : StaleSince (log.take i) windowStart) : ¬ ContinuityHonest log := by
  intro h
  rcases Option.bind_eq_some_iff.mp hWatched with ⟨event, hEvent, hStart⟩
  unfold watchedFrom at hStart
  split at hStart
  · cases hStart
    rcases List.getElem?_eq_some_iff.mp hEvent with ⟨hi, hGet⟩
    apply h (log.take i) (log.drop (i + 1)) windowStart _ hStale
    rw [← hGet, ← List.drop_eq_getElem_cons hi, List.take_append_drop]
  · cases hStart

/- The window from 600 on is projected as watched in it. -/
theorem not_continuity_honest_unmarkedStale : ¬ ∀ inputs : List (Input (IntGrid (2 ^ 53))),
      ContinuityHonest (finalState step freshMachine inputs).log := by
  intro h
  have hWatched : (finalState step freshMachine unmarkedStale).log[3]?.bind
        watchedFrom = some (second 600) := by
    decide +kernel
  have hStale : StaleSince ((finalState step freshMachine unmarkedStale).log.take 3) (second 600) := by
    decide +kernel
  exact not_honest_of_watched hWatched hStale (h unmarkedStale)

end SingboxOps.Scanner
