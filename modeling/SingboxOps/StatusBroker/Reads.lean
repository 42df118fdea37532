import SingboxOps.StatusBroker.Steps
import Mathlib.Algebra.Order.Group.Defs

/-
  The steps of a read keep the invariant of the status broker.
-/

namespace SingboxOps.StatusBroker

open ClientManagement

variable {T F ι : Type}
variable [AddCommGroup T] [LinearOrder T] [IsOrderedAddMonoid T]
variable [DecidableEq ι] {cfg : Config T} {w w' : World T F ι} {i : ι}
variable {r : ReadCall} {stage : Stage T F}

-- Gates

theorem gate_fresh {now : T} {reading : Reading T F} (h : gate cfg w r now = .error reading)
    (hFresh : reading.transport = some .fresh) :
    serve (w.lanes r.lane).cache now (cfg.ttl r.lane) = .fresh ∧
      reading = result .fresh (w.lanes r.lane).cache := by
  have hFallback : ∀ l, reading ≠ fallback (w.lanes l).cache := by
    rintro l rfl
    exact fallback_not_fresh _ hFresh
  unfold gate at h
  cases hLane : r.lane with
  | status =>
    rw [hLane] at h
    dsimp only [statusGate] at h
    cases hState : w.breaker.state with
    | closed =>
      rw [hState] at h
      dsimp only at h
      split_ifs at h with hServe hThrottle
      · exact ⟨hServe.1, (Except.error.inj h).symm⟩
      · exact (hFallback _ (Except.error.inj h).symm).elim
    | halfOpen =>
      rw [hState] at h
      dsimp only at h
      split_ifs at h with hServe hThrottle
      · exact ⟨hServe.1, (Except.error.inj h).symm⟩
      · exact (hFallback _ (Except.error.inj h).symm).elim
      · exact (hFallback _ (Except.error.inj h).symm).elim
    | «open» =>
      rw [hState] at h
      dsimp only at h
      split_ifs at h with hServe hThrottle
      · exact ⟨hServe.1, (Except.error.inj h).symm⟩
      · exact (hFallback _ (Except.error.inj h).symm).elim
      · exact (hFallback _ (Except.error.inj h).symm).elim
  | list =>
    rw [hLane] at h
    dsimp only [listGate] at h
    split_ifs at h with hServe hClosed hThrottle
    · exact ⟨hServe.1, (Except.error.inj h).symm⟩
    · exact (hFallback _ (Except.error.inj h).symm).elim
    · exact (hFallback _ (Except.error.inj h).symm).elim

/- What the gate has made sure of. -/
structure Admitted (cfg : Config T) (w : World T F ι) (r : ReadCall) (now : T) (breaker : Breaker T)
    (probe : Bool) : Prop where
  throttle :
    r.force = false → within now (w.lanes r.lane).attemptedAt (cfg.ttl r.lane) = false
  failures : breaker.failures = w.breaker.failures
  list : r.lane ≠ .status → breaker = w.breaker
  status : r.lane = .status → breaker.state = if probe then .halfOpen else .closed
  probe : breaker ≠ w.breaker → w.breaker.state = .open ∧ probe = true

theorem gate_ok {now : T} {breaker : Breaker T} {probe : Bool}
    (h : gate cfg w r now = .ok (breaker, probe)) : Admitted cfg w r now breaker probe := by
  unfold gate at h
  cases hLane : r.lane with
  | status =>
    rw [hLane] at h
    dsimp only [statusGate] at h
    have hWithin : ¬ (r.force = false ∧ within now (w.lanes .status).attemptedAt cfg.statusTtl = true) →
        r.force = false → within now (w.lanes r.lane).attemptedAt (cfg.ttl r.lane) = false := by
      intro hThrottle hForce
      rw [hLane]
      exact eq_false_of_ne_true fun hTrue => hThrottle ⟨hForce, hTrue⟩
    cases hState : w.breaker.state with
    | closed =>
      rw [hState] at h
      dsimp only at h
      split_ifs at h with hServe hThrottle
      cases h
      exact ⟨hWithin hThrottle, rfl, fun _ => rfl, fun _ => hState, fun hNe => (hNe rfl).elim⟩
    | halfOpen =>
      rw [hState] at h
      dsimp only at h
      split_ifs at h
    | «open» =>
      rw [hState] at h
      dsimp only at h
      split_ifs at h with hServe hThrottle
      cases h
      exact ⟨hWithin hThrottle, rfl, fun hNot => (hNot hLane).elim, fun _ => rfl, fun _ => ⟨hState, rfl⟩⟩
  | list =>
    rw [hLane] at h
    dsimp only [listGate] at h
    split_ifs at h with hServe hClosed hThrottle
    cases h
    refine ⟨?_, rfl, fun _ => rfl, ?_, fun hNe => (hNe rfl).elim⟩
    · intro hForce
      rw [hLane]
      exact eq_false_of_ne_true fun hTrue => hThrottle ⟨hForce, hTrue⟩
    · intro hStatus
      exact nomatch hLane.symm.trans hStatus

-- Going On Under the Lock

theorem Inv.readOk (hInv : Inv cfg w) (hPhase : w.phase i = .reading r stage) : ReadOk cfg w i r stage := by
  have hOk := hInv.threads i
  rw [hPhase] at hOk
  exact hOk

theorem Inv.flight_of_sent (hInv : Inv cfg w) {q : Lane × ℕ}
    (hSent : (w.phase i).sent? = some q) : (w.lanes q.1).flight = some i := by
  cases hPhase : w.phase i with
  | reading r stage =>
    rw [hPhase] at hSent
    cases hStage : stage.sent? with
    | none => simp [Phase.sent?, hStage] at hSent
    | some n =>
      simp only [Phase.sent?, hStage, Option.map_some, Option.some.injEq] at hSent
      subst hSent
      exact (hInv.readOk hPhase).holder (Stage.holds_of_sent hStage)
  | _ =>
    rw [hPhase] at hSent
    exact nomatch hSent

/- A step of a read that leaves its thread under the lock. -/
theorem Inv.goto (hInv : Inv cfg w) (hElse : Elsewhere w w' r.lane i)
    (hFree : ∀ j, j ≠ i → (w.lanes r.lane).flight ≠ some j) (hShared : Shared cfg w')
    (hAttempted : ∀ d ∈ w'.dispatches, (∀ m ∈ w'.invalidations, m ≤ d.admitted) →
        (d.lane = r.lane ∧ stage.sent? = some d.moment) ∨
          (∃ j, j ≠ i ∧ (w'.phase j).sent? = some (d.lane, d.moment)) ∨
          ∃ t, (w'.lanes d.lane).attemptedAt = some t ∧ d.time ≤ t)
    (hProbing : w'.breaker.state = .halfOpen →
        (Phase.reading r stage).probing = true ∨ ∃ j, j ≠ i ∧ (w'.phase j).probing = true)
    (hOk : ReadOk cfg (w'.goto i r stage) i r stage) : Inv cfg (w'.goto i r stage) := by
  have hSelf : (w'.goto i r stage).phase i = .reading r stage := Function.update_self _ _ _
  have hOther : ∀ j, j ≠ i → (w'.goto i r stage).phase j = w'.phase j :=
    fun j hj => Function.update_of_ne hj _ _
  refine ⟨hShared.setPhase i _, ?_, ?_, ?_⟩
  · intro d hd hPast
    rcases hAttempted d hd hPast with ⟨hLane, hSent⟩ | ⟨j, hj, hSent⟩ | hStamp
    · refine .inl ⟨i, ?_⟩
      rw [hSelf, hLane]
      simp only [Phase.sent?, hSent, Option.map_some]
    · exact .inl ⟨j, by rw [hOther j hj]; exact hSent⟩
    · exact .inr hStamp
  · intro hHalf
    rcases hProbing hHalf with hProbe | ⟨j, hj, hProbe⟩
    · exact ⟨i, by rw [hSelf]; exact hProbe⟩
    · exact ⟨j, by rw [hOther j hj]; exact hProbe⟩
  · refine threads_of_step hInv.threads (hElse.setPhase _) hFree ?_
    rw [hSelf]
    exact hOk

theorem Inv.acquire (hInv : Inv cfg w) (hPhase : w.phase i = .reading r .queued)
    (hFlight : (w.lanes r.lane).flight = none) : Inv cfg ((w.setLane r.lane
        { w.lanes r.lane with flight := some i }).goto i r
          .locked) := by
  have hRead := hInv.readOk hPhase
  have hSelf : (w.setLane r.lane { w.lanes r.lane with flight := some i }).lanes r.lane =
          { w.lanes r.lane with flight := some i } :=
    lanes_setLane_self _ _
  refine hInv.goto ((Elsewhere.refl w _ i).setLane _) ?_ (hInv.shared.setLane _ _ (hInv.shared.cache _)) ?_ ?_
    ⟨hRead.began, hRead.origin, fun _ => ?_, trivial⟩
  · intro j _ hj
    rw [hFlight] at hj
    exact nomatch hj
  · intro d hd hPast
    have hOld := hInv.attempted.but (i := i) (by rw [hPhase]; rfl) d hd hPast
    refine .inr (hOld.imp id ?_)
    rintro ⟨t, hStamp, hTime⟩
    refine ⟨t, ?_, hTime⟩
    rw [← hStamp]
    by_cases hLane : d.lane = r.lane
    · rw [hLane, hSelf]
    · rw [lanes_setLane_of_ne hLane]
  · intro hHalf
    exact .inr (hInv.probing.but (i := i) (by rw [hPhase]; simp [Phase.probing, Stage.flight?]) hHalf)
  · exact congrArg LaneState.flight hSelf

theorem Inv.admit (hInv : Inv cfg w) {now : T} (hPhase : w.phase i = .reading r (.gate now))
    {breaker : Breaker T} {probe : Bool}
    (hGate : Admitted cfg w r now breaker probe) : Inv cfg ({ w with breaker := breaker }.next.goto i r
        (.dispatching ⟨(w.lanes r.lane).epoch, (w.lanes r.lane).cache, probe, w.moment, now⟩)) := by
  have hRead := hInv.readOk hPhase
  have hHolder := hRead.holder rfl
  have hNone : (w.phase i).sent? = none := by
    rw [hPhase]
    rfl
  have hShared := hInv.shared
  have hMoved : Shared cfg { w with breaker := breaker } :=
    ⟨hShared.past, hShared.sent, hShared.cache, hShared.spaced,
      hGate.failures.trans hShared.failures, hShared.answers⟩
  refine Inv.goto (w := w) hInv ⟨Nat.le_succ _, le_rfl, rfl, fun _ _ => rfl, fun _ h _ => h,
      hGate.list, fun _ _ => rfl⟩
    (free_of_holder hHolder)
    hMoved.next ?_ ?_ ?_
  · intro d hd hPast
    exact .inr (hInv.attempted.but hNone d hd hPast)
  · intro hHalf
    by_cases hLane : r.lane = .status
    · left
      have hProbe := hGate.status hLane
      cases probe with
      | true => simp [Phase.probing, Stage.flight?, hLane]
      | false => exact nomatch hHalf.symm.trans hProbe
    · right
      have hOld : w.breaker.state = .halfOpen := by
        rw [← hGate.list hLane]
        exact hHalf
      exact hInv.probing.but (i := i) (by rw [hPhase]; simp [Phase.probing, hLane]) hOld
  · refine ⟨hRead.began.trans (Nat.lt_succ_self _), hRead.origin, fun _ => hHolder, ?_, ?_⟩
    · exact ⟨hRead.began, Nat.lt_succ_self _, le_rfl, fun _ => hShared.past, fun hNe => (hNe rfl).elim,
        hGate.status⟩
    · refine ⟨hRead.held, ?_⟩
      intro hForce c hc hLane hBetween
      -- no invalidation since, so the attempt was recorded
      have hPast : ∀ m ∈ w.invalidations, m ≤ c.admitted := by
        intro m hm
        by_contra hLt
        exact hBetween m hm (not_le.mp hLt) (hShared.past m hm)
      rcases hInv.attempted.but hNone c hc hPast with ⟨j, hj, hSent⟩ | ⟨t, hStamp, hTime⟩
      · have hFlight := hInv.flight_of_sent hSent
        rw [hLane] at hFlight
        exact (free_of_holder hHolder j hj hFlight).elim
      · have hWithin := hGate.throttle hForce
        rw [hLane] at hStamp
        rw [hStamp] at hWithin
        have hLe := not_lt.mp (of_decide_eq_false hWithin)
        exact hLe.trans (sub_le_sub_left hTime now)

theorem Shared.dispatch (hShared : Shared cfg w) {f : Flight T F} (hAdmitted : f.admitted < w.moment)
    (hCleared : Cleared cfg w r f) : Shared cfg
      { w with
        dispatches :=
          ⟨r.lane, r.force, f.admitted, w.moment, w.clock⟩ :: w.dispatches }.next where
  past m hm := (hShared.past m hm).trans (Nat.lt_succ_self _)
  sent d hd := by
    rcases List.mem_cons.mp hd with rfl | hOld
    · exact ⟨hAdmitted, Nat.lt_succ_self _, le_rfl⟩
    · have hSent := hShared.sent d hOld
      exact ⟨hSent.1, hSent.2.1.trans (Nat.lt_succ_self _), hSent.2.2⟩
  cache := hShared.cache
  spaced := by
    intro d hd hForce c hc hLane hLt hBetween
    rcases List.mem_cons.mp hd with rfl | hOldD <;>
      rcases List.mem_cons.mp hc with rfl | hOldC
    · exact (lt_irrefl _ hLt).elim
    · have hLe := hCleared.spaced hForce c hOldC hLane hBetween
      exact hLe.trans (sub_le_sub_right hCleared.now c.time)
    · exact (lt_asymm hLt (hShared.sent d hOldD).2.1).elim
    · exact hShared.spaced d hOldD hForce c hOldC hLane hLt hBetween
  failures := hShared.failures
  answers := hShared.next.answers

theorem Inv.dispatch (hInv : Inv cfg w) {f : Flight T F}
    (hPhase : w.phase i = .reading r (.dispatching f)) : Inv cfg
      ({ w with
        dispatches :=
          ⟨r.lane, r.force, f.admitted, w.moment, w.clock⟩ ::
            w.dispatches }.next.goto i r (.inFlight f w.moment)) := by
  have hRead := hInv.readOk hPhase
  have hHolder := hRead.holder rfl
  have hAloft : Aloft w r f := hRead.held.1
  have hNone : (w.phase i).sent? = none := by
    rw [hPhase]
    rfl
  refine Inv.goto (w := w) hInv ⟨Nat.le_succ _, le_rfl, rfl, fun _ _ => rfl, ?_, fun _ => rfl, fun _ _ => rfl⟩
    (free_of_holder hHolder)
    (hInv.shared.dispatch hAloft.past hRead.held.2) ?_ ?_ ?_
  · intro d hd hLane
    rcases List.mem_cons.mp hd with rfl | hOld
    · exact (hLane rfl).elim
    · exact hOld
  · intro d hd hPast
    rcases List.mem_cons.mp hd with rfl | hOld
    · exact .inl ⟨rfl, rfl⟩
    · exact .inr (hInv.attempted.but hNone d hOld hPast)
  · intro hHalf
    rcases hInv.probing hHalf with ⟨j, hj⟩
    by_cases hSame : j = i
    · subst hSame
      rw [hPhase] at hj
      exact .inl hj
    · exact .inr ⟨j, hSame, hj⟩
  · refine ⟨hRead.began.trans (Nat.lt_succ_self _), hRead.origin, fun _ => hHolder, ?_, ?_⟩
    · exact ⟨hAloft.began, hAloft.past.trans (Nat.lt_succ_self _),
        hAloft.epoch, hAloft.current, hAloft.retired,
        hAloft.probe⟩
    · refine ⟨hAloft.past, Nat.lt_succ_self _, ?_⟩
      intro d hd _ hMoment
      rcases List.mem_cons.mp hd with rfl | hOld
      · rfl
      · exact ((hInv.shared.sent d hOld).2.1.ne hMoment).elim

-- Settling

@[simp] theorem phase_stamp (l : Lane) (epoch : ℕ) (now : T) : (w.stamp l epoch now).phase = w.phase := by
  unfold World.stamp
  split <;> rfl

@[simp] theorem breaker_stamp (l : Lane) (epoch : ℕ)
    (now : T) : (w.stamp l epoch now).breaker = w.breaker := by
  unfold World.stamp
  split <;> rfl

@[simp] theorem dispatches_stamp (l : Lane) (epoch : ℕ)
    (now : T) : (w.stamp l epoch now).dispatches = w.dispatches := by
  unfold World.stamp
  split <;> rfl

@[simp] theorem invalidations_stamp (l : Lane) (epoch : ℕ)
    (now : T) : (w.stamp l epoch now).invalidations = w.invalidations := by
  unfold World.stamp
  split <;> rfl

theorem attemptedBut_stamp (hInv : Inv cfg w) (hPhase : w.phase i = .reading r stage)
    {f : Flight T F} {n : ℕ} {now : T} (hStage : stage.sent? = some n)
    (hAloft : Aloft w r f) (hSent : Sent w r f n)
    (hLate : Late w r now) : AttemptedBut (w.stamp r.lane f.epoch now) i := by
  intro d hd hPast
  rw [dispatches_stamp] at hd
  rw [invalidations_stamp] at hPast
  rw [phase_stamp]
  by_cases hEpoch : f.epoch = (w.lanes r.lane).epoch
  · rw [World.stamp, if_pos hEpoch]
    by_cases hLane : d.lane = r.lane
    · refine .inr ⟨now, ?_, hLate d hd hLane⟩
      rw [hLane, lanes_setLane_self]
    · rcases hInv.attempted d hd hPast with ⟨j, hj⟩ | hStamp
      · refine .inl ⟨j, ?_, hj⟩
        rintro rfl
        simp only [hPhase, Phase.sent?, hStage, Option.map_some, Option.some.injEq, Prod.mk.injEq] at hj
        exact hLane hj.1.symm
      · right
        rw [lanes_setLane_of_ne hLane]
        exact hStamp
  · rw [World.stamp, if_neg hEpoch]
    rcases hInv.attempted d hd hPast with ⟨j, hj⟩ | hStamp
    · refine .inl ⟨j, ?_, hj⟩
      rintro rfl
      -- an invalidation came after this RPC was let through
      simp only [hPhase, Phase.sent?, hStage, Option.map_some, Option.some.injEq, Prod.mk.injEq] at hj
      rcases hAloft.retired hEpoch with ⟨m, hm, hLt⟩
      have hLe := hPast m hm
      rw [hSent.own d hd hj.1.symm hj.2.symm] at hLe
      exact absurd hLt (not_lt.mpr hLe)
    · exact .inr hStamp

theorem probingBut_conclude (hInv : Inv cfg w) (hPhase : w.phase i = .reading r stage)
    {breaker : Breaker T} {outcome : StatusOutcome}
    (hState : breaker.state ≠ .halfOpen) :
    ProbingBut (w.conclude r.lane breaker outcome) i := by
  intro hHalf
  cases hLane : r.lane with
  | status =>
    rw [hLane] at hHalf
    exact (hState hHalf).elim
  | list =>
    rw [hLane] at hHalf
    exact hInv.probing.but (by rw [hPhase]; simp [Phase.probing, hLane]) hHalf

theorem attemptedBut_conclude {l : Lane} {epoch : ℕ} {now : T} (breaker : Breaker T) (outcome : StatusOutcome)
    (h : AttemptedBut (w.stamp l epoch now) i) : AttemptedBut
      ((w.conclude l breaker outcome).stamp l epoch now) i := by
  cases l with
  | status =>
    by_cases hEpoch : epoch = (w.lanes .status).epoch
    · rw [World.stamp, if_pos hEpoch] at h
      unfold World.stamp
      split
      · exact h
      · rename_i hNot
        exact (hNot hEpoch).elim
    · rw [World.stamp, if_neg hEpoch] at h
      unfold World.stamp
      split
      · rename_i hSame
        exact (hEpoch hSame).elim
      · exact h
  | list => exact h

theorem probingBut_stamp {l : Lane} {epoch : ℕ} {now : T}
    (h : ProbingBut w i) : ProbingBut (w.stamp l epoch now) i := by
  unfold World.stamp
  split <;> exact h

theorem countFailure_not_halfOpen (b : Breaker T) (now : T) : (b.countFailure cfg now).state ≠ .halfOpen := by
  unfold Breaker.countFailure
  split
  · exact BreakerState.noConfusion
  · rename_i hNot
    exact fun h => hNot (.inl h)

theorem failures_countFailure (b : Breaker T)
    (now : T) : (b.countFailure cfg now).failures = b.failures + 1 := by
  unfold Breaker.countFailure
  split <;> rfl

theorem Inv.settleFailed (hInv : Inv cfg w) (hPhase : w.phase i = .reading r stage)
    {f : Flight T F} {n : ℕ} {now : T} (hStage : stage.sent? = some n)
    (hAloft : Aloft w r f) (hSent : Sent w r f n)
    (hLate : Late w r now) : Inv cfg (settleFailed cfg w i r f now) := by
  refine hInv.land hPhase (Stage.holds_of_sent hStage) (((Elsewhere.refl w _ i).conclude _ _).stamp _ _)
    ((hInv.shared.conclude _ _ _ ?_).stamp _ _ _)
    (attemptedBut_conclude _ _ (attemptedBut_stamp hInv hPhase hStage hAloft hSent hLate))
    (probingBut_stamp (probingBut_conclude hInv hPhase (countFailure_not_halfOpen _ _)))
    (fun h => (fallback_not_fresh _ h).elim)
  rw [failures_countFailure, hInv.shared.failures]
  simp

theorem failures_reset (probe : Bool) : w.breaker.reset.failures =
      (((⟨false, probe⟩ : StatusOutcome) :: w.outcomes).takeWhile (fun o => o.failed)).length := by
  simp [Breaker.reset]

theorem late_clock (hShared : Shared cfg w) : Late w r w.clock := fun d hd _ => (hShared.sent d hd).2.2

theorem Inv.settleRefused [FloatText F] (hInv : Inv cfg w) (hPhase : w.phase i = .reading r stage)
    {f : Flight T F} {n : ℕ} {verdict : List (PyStr × Json F)}
    (hStage : stage.sent? = some n) (hAloft : Aloft w r f)
    (hSent : Sent w r f n) : Inv cfg (settleRefused w i r f verdict) :=
  hInv.land hPhase (Stage.holds_of_sent hStage) (((Elsewhere.refl w _ i).conclude _ _).stamp _ _)
    ((hInv.shared.conclude _ _ _ (failures_reset _)).stamp _ _ _)
    (attemptedBut_conclude _ _ (attemptedBut_stamp hInv hPhase hStage hAloft hSent (late_clock hInv.shared)))
    (probingBut_stamp (probingBut_conclude hInv hPhase BreakerState.noConfusion))
    (fun h => nomatch h)

theorem lanes_conclude (l : Lane) (breaker : Breaker T)
    (outcome : StatusOutcome) : (w.conclude l breaker outcome).lanes = w.lanes := by
  cases l <;> rfl

theorem invalidations_conclude (l : Lane) (breaker : Breaker T) (outcome : StatusOutcome) :
    (w.conclude l breaker outcome).invalidations = w.invalidations := by
  cases l <;> rfl

/- The helper answered, and no invalidation came in between. -/
theorem Inv.publish (hInv : Inv cfg w) (hPhase : w.phase i = .reading r stage)
    {f : Flight T F} {n : ℕ} {verdict : Json F} {now : T}
    (hStage : stage.sent? = some n) (hAloft : Aloft w r f)
    (hSent : Sent w r f n) (hLate : Late w r now) (hEpoch : f.epoch = (w.lanes r.lane).epoch)
    {breaker : Breaker T} {outcome : StatusOutcome} (hState : breaker.state ≠ .halfOpen)
    (hFailures : breaker.failures = ((outcome :: w.outcomes).takeWhile (fun o => o.failed)).length)
    (wall : T) : Inv cfg (((w.conclude r.lane breaker outcome).setLane r.lane
        { w.lanes r.lane with
          attemptedAt := some now
          cache := some ⟨verdict, some now, wall, n⟩ }).goto i r .published) := by
  have hRead := hInv.readOk hPhase
  have hHolder := hRead.holder (Stage.holds_of_sent hStage)
  have hElse : Elsewhere w (w.conclude r.lane breaker outcome)
      r.lane i := (Elsewhere.refl w _ i).conclude _ _
  have hConcluded := hInv.shared.conclude r.lane breaker outcome hFailures
  have hStamped := attemptedBut_conclude breaker outcome
      (attemptedBut_stamp hInv hPhase hStage hAloft hSent hLate)
  refine hInv.goto (hElse.setLane _) (free_of_holder hHolder) (hConcluded.setLane _ _ ?_) ?_ ?_ ?_
  · intro c hc _ m hm
    cases hc
    rw [invalidations_conclude] at hm
    exact (hAloft.current hEpoch m hm).trans hSent.later
  · intro d hd hPast
    right
    have hOld := hStamped d (by rw [dispatches_stamp]; exact hd)
      (by rw [invalidations_stamp]; exact hPast)
    rw [phase_stamp] at hOld
    refine hOld.imp id ?_
    rintro ⟨t, hStamp, hTime⟩
    refine ⟨t, ?_, hTime⟩
    rw [← hStamp, World.stamp, if_pos (by rw [lanes_conclude]; exact hEpoch)]
    by_cases hLane : d.lane = r.lane
    · rw [hLane, lanes_setLane_self, lanes_setLane_self]
    · rw [lanes_setLane_of_ne hLane, lanes_setLane_of_ne hLane]
  · intro hHalf
    exact .inr (probingBut_conclude hInv hPhase hState hHalf)
  · have hSelf : ∀ s : LaneState T F ι, ((w.conclude r.lane breaker outcome).setLane r.lane
            s).lanes r.lane = s := lanes_setLane_self _
    refine ⟨hRead.began.trans_le hElse.moment, hRead.origin,
      fun _ => ?_, ⟨⟨verdict, some now, wall, n⟩, ?_, ?_⟩⟩
    · exact (congrArg LaneState.flight (hSelf _)).trans hHolder
    · exact congrArg LaneState.cache (hSelf _)
    · exact hAloft.began.trans hSent.later

theorem Inv.settleAnswered (hInv : Inv cfg w) (hPhase : w.phase i = .reading r stage)
    {f : Flight T F} {n : ℕ} {verdict : Json F} {now : T}
    (hStage : stage.sent? = some n) (hAloft : Aloft w r f) (hSent : Sent w r f n)
    (hLate : Late w r now) : Inv cfg (settleAnswered w i r f n verdict now) := by
  unfold StatusBroker.settleAnswered
  dsimp only
  split
  · rename_i hEpoch
    rw [lanes_conclude] at hEpoch ⊢
    exact hInv.publish hPhase hStage hAloft hSent hLate hEpoch BreakerState.noConfusion (failures_reset _) _
  · rename_i hEpoch
    have hStamped := attemptedBut_conclude w.breaker.reset ⟨false, f.probe⟩
        (attemptedBut_stamp hInv hPhase hStage hAloft hSent hLate)
    rw [World.stamp, if_neg hEpoch] at hStamped
    exact hInv.land hPhase (Stage.holds_of_sent hStage) ((Elsewhere.refl w _ i).conclude _ _)
      (hInv.shared.conclude _ _ _ (failures_reset _)) hStamped
      (probingBut_conclude hInv hPhase BreakerState.noConfusion)
      (fun h => (fallback_not_fresh _ h).elim)

end SingboxOps.StatusBroker
