import SingboxOps.Lib.BoundedFloat
import SingboxOps.StatusBroker.Reads

/-
  What the status broker guarantees of every run.
-/

namespace SingboxOps.StatusBroker

open ClientManagement

variable {T F ι : Type}
variable [AddCommGroup T] [LinearOrder T] [IsOrderedAddMonoid T]
variable [DecidableEq ι] [FloatText F] {cfg : Config T}
variable {w : World T F ι} {i : ι} {r : ReadCall}

-- A Read

omit [FloatText F] in
theorem Inv.stage (hInv : Inv cfg w)
    {stage : Stage T F} (stage' : Stage T F) (hPhase : w.phase i = .reading r stage)
    (hHolds : stage'.holds = true → stage.holds = true)
    (hHeld : Held cfg w r stage') (hFlight : stage'.flight? = stage.flight?)
    (hSent : stage'.sent? = stage.sent?) : Inv cfg (w.goto i r stage') := by
  have hRead := hInv.readOk hPhase
  refine hInv.setPhase (p := .reading r stage') ⟨hRead.began, hRead.origin,
      fun h => hRead.holder (hHolds h), hHeld⟩ ?_ ?_
  · intro q hq
    rw [hPhase] at hq
    rw [← hq]
    simp only [Phase.sent?, hSent]
  · intro hProbe
    rw [hPhase] at hProbe
    rw [← hProbe]
    simp only [Phase.probing, hFlight]

omit [FloatText F] in
theorem Inv.respond (hInv : Inv cfg w) {stage : Stage T F} (hPhase : w.phase i = .reading r stage)
    (hFlight : stage.flight? = none) (hSent : stage.sent? = none) {reading : Reading T F}
    (hCurrent : reading.transport = some .fresh → Newer w.invalidations r.started reading.dispatched) :
    Inv cfg (w.respond i r reading) := by
  have hRead := hInv.readOk hPhase
  refine (hInv.setPhase (phaseOk_respond hRead.began
    hRead.origin hCurrent) ?_ ?_).answer (.read r reading) hRead.began hCurrent i
  · intro q hq
    rw [hPhase] at hq
    simp [Phase.sent?, hSent] at hq
  · intro hProbe
    rw [hPhase] at hProbe
    simp [Phase.probing, hFlight] at hProbe

omit [AddCommGroup T] [LinearOrder T] [IsOrderedAddMonoid T] [FloatText F] in
theorem newer_published {started : ℕ} {c : Snapshot T F} {invalidations : List ℕ}
    (h : started < c.dispatched) :
    Newer invalidations started (result .fresh (some c)).dispatched :=
  ⟨c.dispatched, rfl, fun _ _ hLt => hLt.trans h⟩

/- Every step of a read keeps the invariant. -/
theorem Inv.runRead (hInv : Inv cfg w) {stage : Stage T F}
    (hPhase : w.phase i = .reading r stage) : Inv cfg (runRead cfg w i r stage).next := by
  have hRead := hInv.readOk hPhase
  cases stage with
  | entered => exact (hInv.stage (.peek w.clock) hPhase id trivial rfl rfl).next
  | peek now =>
    dsimp only [StatusBroker.runRead]
    split
    · rename_i hFresh
      exact (hInv.respond hPhase rfl rfl fun _ => hInv.shared.fresh hFresh.1 r.started).next
    · exact (hInv.stage .queued hPhase id trivial rfl rfl).next
  | queued =>
    dsimp only [StatusBroker.runRead]
    split
    · rename_i hFlight
      exact (hInv.acquire hPhase hFlight).next
    · exact hInv.next
  | locked => exact (hInv.stage (.gate w.clock) hPhase id le_rfl rfl rfl).next
  | gate now =>
    dsimp only [StatusBroker.runRead]
    have hNone : (w.phase i).sent? = none := by
      rw [hPhase]
      rfl
    have hNot : (w.phase i).probing = false := by
      rw [hPhase]
      simp [Phase.probing, Stage.flight?]
    split
    · rename_i reading hGate
      refine (hInv.land hPhase rfl (Elsewhere.refl w _ i) hInv.shared (hInv.attempted.but hNone)
        (hInv.probing.but hNot) ?_).next
      intro hFresh
      have hServe := gate_fresh hGate hFresh
      rw [hServe.2]
      exact hInv.shared.fresh hServe.1 r.started
    · rename_i breaker probe hGate
      exact hInv.admit hPhase (gate_ok hGate)
  | dispatching f => exact hInv.dispatch hPhase
  | inFlight f n => exact hInv.next
  | failed f n =>
    have hHeld : Aloft w r f ∧ Sent w r f n := hRead.held
    dsimp only [StatusBroker.runRead]
    split
    · exact (hInv.stage (.failedAt f n w.clock) hPhase id ⟨hHeld.1, hHeld.2, late_clock hInv.shared⟩
        rfl rfl).next
    · exact (hInv.settleFailed hPhase rfl hHeld.1 hHeld.2 (late_clock hInv.shared)).next
  | failedAt f n now =>
    have hHeld := hRead.held
    exact (hInv.settleFailed hPhase rfl hHeld.1 hHeld.2.1 hHeld.2.2).next
  | refused f n verdict =>
    have hHeld := hRead.held
    exact (hInv.settleRefused hPhase rfl hHeld.1 hHeld.2).next
  | answered f n verdict =>
    have hHeld : Aloft w r f ∧ Sent w r f n := hRead.held
    exact (hInv.stage (.answeredAt f n verdict w.clock) hPhase id ⟨hHeld.1, hHeld.2, late_clock hInv.shared⟩
      rfl rfl).next
  | answeredAt f n verdict now =>
    have hHeld := hRead.held
    exact (hInv.settleAnswered hPhase rfl hHeld.1 hHeld.2.1 hHeld.2.2).next
  | published =>
    rcases hRead.held with ⟨c, hCache, hLater⟩
    refine (hInv.land hPhase rfl (Elsewhere.refl w _ i) hInv.shared (hInv.attempted.but (by rw [hPhase]; rfl))
      (hInv.probing.but (by rw [hPhase]; simp [Phase.probing, Stage.flight?]))
      ?_).next
    intro _
    rw [hCache]
    exact newer_published hLater

-- The Other Calls

omit [IsOrderedAddMonoid T] [FloatText F] in
theorem Inv.leave (hInv : Inv cfg w) {p q : Phase T F} (hPhase : w.phase i = q) (hSent : q.sent? = none)
    (hProbe : q.probing = false)
    (hOk : PhaseOk cfg w i p) : Inv cfg (w.setPhase i p) := by
  subst hPhase
  refine hInv.setPhase hOk ?_ ?_
  · intro q hq
    rw [hSent] at hq
    exact nomatch hq
  · intro h
    rw [hProbe] at h
    exact nomatch h

section Invalidate

variable {stage : Stage T F} {f : Flight T F}

omit [AddCommGroup T] [LinearOrder T] [IsOrderedAddMonoid T] [DecidableEq ι] [FloatText F] in
theorem Aloft.invalidate (hAloft : Aloft w r f) : Aloft w.invalidate.next r f where
  began := hAloft.began
  past := hAloft.past.trans (Nat.lt_succ_self _)
  epoch := hAloft.epoch.trans (Nat.le_succ _)
  current hSame := by
    have hLe := hAloft.epoch
    have hEpoch : f.epoch = (w.lanes r.lane).epoch + 1 := hSame
    omega
  retired _ := ⟨w.moment, List.mem_cons_self, hAloft.past⟩
  probe := hAloft.probe

omit [AddCommGroup T] [LinearOrder T] [IsOrderedAddMonoid T] [DecidableEq ι] [FloatText F] in
theorem Sent.invalidate {n : ℕ} (hSent : Sent w r f n) : Sent w.invalidate.next r f n :=
  ⟨hSent.later, hSent.past.trans (Nat.lt_succ_self _), hSent.own⟩

theorem Held.invalidate (hHeld : Held cfg w r stage) :
    Held cfg w.invalidate.next r stage := by
  cases stage with
  | gate now => exact hHeld
  | dispatching f =>
    exact ⟨hHeld.1.invalidate, hHeld.2.now, fun hForce c hc hLane hBetween => hHeld.2.spaced hForce c hc hLane
        fun m hm => hBetween m (List.mem_cons_of_mem _ hm)⟩
  | inFlight f n => exact ⟨hHeld.1.invalidate, hHeld.2.invalidate⟩
  | failed f n => exact ⟨hHeld.1.invalidate, hHeld.2.invalidate⟩
  | refused f n verdict => exact ⟨hHeld.1.invalidate, hHeld.2.invalidate⟩
  | answered f n verdict => exact ⟨hHeld.1.invalidate, hHeld.2.invalidate⟩
  | failedAt f n now => exact ⟨hHeld.1.invalidate, hHeld.2.1.invalidate, hHeld.2.2⟩
  | answeredAt f n verdict now => exact ⟨hHeld.1.invalidate, hHeld.2.1.invalidate, hHeld.2.2⟩
  | published =>
    rcases hHeld with ⟨c, hCache, hLater⟩
    refine ⟨{ c with fetchedAt := none }, ?_, hLater⟩
    change ((w.lanes r.lane).cache.map _) = _
    rw [hCache]
    rfl
  | _ => trivial

omit [IsOrderedAddMonoid T] [FloatText F] in
theorem Shared.invalidate (hShared : Shared cfg w) : Shared cfg w.invalidate.next where
  past m hm := by
    rcases List.mem_cons.mp hm with rfl | hOld
    · exact Nat.lt_succ_self _
    · exact (hShared.past m hOld).trans (Nat.lt_succ_self _)
  sent := hShared.next.sent
  cache l c hCache hFetched := by
    have hMap : (w.lanes l).cache.map (fun c => { c with fetchedAt := none }) = some c := hCache
    rcases Option.map_eq_some_iff.mp hMap with ⟨old, _, rfl⟩
    exact (hFetched rfl).elim
  spaced := by
    intro d hd hForce c hc hLane hLt hBetween
    exact hShared.spaced d hd hForce c hc hLane hLt fun m hm =>
      hBetween m (List.mem_cons_of_mem _ hm)
  failures := hShared.failures
  answers a ha := ⟨(hShared.next.answers a ha).1, (hShared.answers a ha).2.cons (hShared.answers a ha).1⟩

theorem PhaseOk.invalidate {p : Phase T F} (hOk : PhaseOk cfg w i p) : PhaseOk cfg w.invalidate.next i p := by
  cases p with
  | reading r stage =>
    exact ⟨hOk.began.trans (Nat.lt_succ_self _), hOk.origin, hOk.holder, hOk.held.invalidate⟩
  | exporting started reading =>
    exact ⟨hOk.1.trans (Nat.lt_succ_self _), fun h => (hOk.2 h).cons hOk.1⟩
  | exportEntered started => exact Nat.lt_trans hOk (Nat.lt_succ_self _)
  | activeEntered started => exact Nat.lt_trans hOk (Nat.lt_succ_self _)
  | activeAt started now => exact Nat.lt_trans hOk (Nat.lt_succ_self _)
  | _ => trivial

theorem Inv.invalidate (hInv : Inv cfg w) : Inv cfg w.invalidate.next where
  shared := hInv.shared.invalidate
  attempted d hd hPast := by
    have hSent := hInv.shared.sent d hd
    have hLe : w.moment ≤ d.admitted := hPast w.moment List.mem_cons_self
    omega
  probing := hInv.probing
  threads j := (hInv.threads j).invalidate

end Invalidate

omit [IsOrderedAddMonoid T] [DecidableEq ι] [FloatText F] in
theorem current_activeAnswer (hShared : Shared cfg w) {started : ℕ} (hBegan : started < w.moment)
    (now : T) : (activeAnswer cfg started now (w.lanes .status).cache).Began w.moment ∧
      (activeAnswer cfg started now (w.lanes .status).cache).Current w.invalidations := by
  cases hCache : (w.lanes .status).cache with
  | none => exact ⟨hBegan, fun h => nomatch h⟩
  | some c =>
    unfold activeAnswer
    dsimp only
    split
    · rename_i hWithin
      refine ⟨hBegan, fun _ => Newer.of_all ?_⟩
      apply hShared.cache .status c hCache
      intro hNone
      simp [within, hNone] at hWithin
    · exact ⟨hBegan, fun h => nomatch h⟩

omit [AddCommGroup T] [LinearOrder T] [IsOrderedAddMonoid T] [FloatText F] in
theorem current_exportAnswer {moment started : ℕ} {invalidations : List ℕ}
    {reading : Reading T F} (hBegan : started < moment)
    (hCurrent : reading.transport = some .fresh → Newer invalidations started reading.dispatched) :
    (exportAnswer started reading).Began moment ∧ (exportAnswer started reading).Current invalidations := by
  unfold exportAnswer
  split
  · rename_i hFresh
    split
    · exact ⟨trivial, trivial⟩
    · split
      · exact ⟨trivial, trivial⟩
      · split
        · exact ⟨hBegan, hCurrent hFresh⟩
        · exact ⟨trivial, trivial⟩
  · exact ⟨trivial, trivial⟩

/- Every step of a thread keeps the invariant. -/
theorem Inv.runThread (hInv : Inv cfg w) (i : ι) : Inv cfg (runThread cfg w i).next := by
  have hOk := hInv.threads i
  unfold StatusBroker.runThread
  cases hPhase : w.phase i with
  | idle => exact hInv.next
  | reading r stage => exact hInv.runRead hPhase
  | invalidating => exact hInv.invalidate.leave hPhase rfl rfl trivial
  | mutating op => exact hInv.next
  | mutateEntered op =>
    have hLeave : ∀ p, PhaseOk cfg w i p → Inv cfg (w.setPhase i p) := fun p =>
      hInv.leave hPhase rfl rfl
    dsimp only
    split
    · exact ((hLeave .idle trivial).answer (.unavailable _)
        trivial trivial i).next
    · exact (hLeave (.mutating op) trivial).next
  | exportEntered started =>
    rw [hPhase] at hOk
    dsimp only
    split
    · exact ((hInv.leave (p := .idle) hPhase rfl rfl trivial).answer (.unavailable _) trivial trivial i).next
    · refine hInv.next.leave hPhase rfl rfl ⟨Nat.lt_succ_self _, ?_, (fun h => nomatch h), trivial⟩
      intro n hn
      cases hn
      exact Nat.le_of_lt hOk
  | exporting started reading =>
    rw [hPhase] at hOk
    have hAnswer := current_exportAnswer hOk.1 hOk.2
    exact ((hInv.leave (p := .idle) hPhase rfl rfl trivial).answer _ hAnswer.1 hAnswer.2 i).next
  | activeEntered started =>
    rw [hPhase] at hOk
    exact (hInv.leave (p := .activeAt started w.clock) hPhase rfl
      rfl hOk).next
  | activeAt started now =>
    rw [hPhase] at hOk
    have hAnswer := current_activeAnswer hInv.shared hOk now
    exact ((hInv.leave (p := .idle) hPhase rfl rfl trivial).answer _ hAnswer.1 hAnswer.2 i).next

/- The end of an RPC keeps the invariant. -/
theorem Inv.endRpc (hInv : Inv cfg w) (i : ι) (o : Outcome F) : Inv cfg (endRpc w i o) := by
  unfold StatusBroker.endRpc
  split
  · rename_i r f n hPhase
    have hHeld : Aloft w r f ∧ Sent w r f n := (hInv.readOk hPhase).held
    cases o with
    | raised => exact hInv.stage (.failed f n) hPhase id hHeld rfl rfl
    | verdict v =>
      dsimp only
      split
      · exact hInv.stage (.refused f n _) hPhase id hHeld rfl rfl
      · exact hInv.stage (.answered f n v) hPhase id hHeld rfl rfl
  · rename_i op hPhase
    exact (hInv.leave (p := .idle) hPhase rfl rfl trivial).answer (.mutated op o) trivial trivial i
  · exact hInv

omit [IsOrderedAddMonoid T] [FloatText F] in
theorem Inv.tick (hInv : Inv cfg w) {clock : T} (hLe : w.clock ≤ clock)
    (wall : T) : Inv cfg { w with clock := clock, wall := wall } := by
  have hShared := hInv.shared
  refine ⟨⟨hShared.past, ?_, hShared.cache, hShared.spaced,
    hShared.failures, hShared.answers⟩, hInv.attempted,
    hInv.probing, ?_⟩
  · intro d hd
    have hSent := hShared.sent d hd
    exact ⟨hSent.1, hSent.2.1, hSent.2.2.trans hLe⟩
  · intro j
    have hElse : ∀ l, Elsewhere w { w with clock := clock, wall := wall } l j := fun l =>
      ⟨le_rfl, hLe, rfl, fun _ _ => rfl, fun _ h _ => h, fun _ => rfl, fun _ _ => rfl⟩
    exact threads_of_quiet (hInv.threads j) (hElse _) (hElse _)

omit [IsOrderedAddMonoid T] [DecidableEq ι] [FloatText F] in
theorem phaseOk_enter (c : Call) : PhaseOk cfg w.next i (c.enter w.moment) := by
  cases c with
  | status force =>
    exact ⟨Nat.lt_succ_self _, (fun _ h => nomatch h), (fun h => nomatch h), trivial⟩
  | listClients force =>
    exact ⟨Nat.lt_succ_self _, (fun _ h => nomatch h), (fun h => nomatch h), trivial⟩
  | requireExportReady => exact Nat.lt_succ_self _
  | managementActive => exact Nat.lt_succ_self _
  | _ => trivial

/- Every step keeps the invariant. -/
theorem Inv.step (hInv : Inv cfg w) (input : Input T F ι) : Inv cfg (step cfg w input).2 := by
  cases input with
  | call i c =>
    unfold SingboxOps.StatusBroker.step act
    dsimp only
    split
    · rename_i hPhase
      exact hInv.next.leave hPhase rfl rfl (phaseOk_enter c)
    · exact hInv.next
  | run i => exact hInv.runThread i
  | rpc i o => exact (hInv.endRpc i o).next
  | tick clock wall =>
    change Inv cfg (World.next (if w.clock ≤ clock then
      { w with clock := clock, wall := wall } else w))
    split
    · rename_i hLe
      exact (hInv.tick hLe wall).next
    · exact hInv.next

-- The Breaker

/- What a step of a read does to the breaker. -/
inductive BreakerMove (cfg : Config T) (w w' : World T F ι) (r : ReadCall)
    (stage : Stage T F) : Prop where
  | kept :
      w'.breaker = w.breaker →
      w'.outcomes = w.outcomes →
      BreakerMove cfg w w' r stage
  | armed :
      r.lane = .status →
      w.breaker.state = .open →
      w'.breaker.state = .halfOpen →
      w'.outcomes = w.outcomes →
      BreakerMove cfg w w' r stage
  | failed (f : Flight T F) (now : T) :
      r.lane = .status →
      stage.flight? = some f →
      w'.breaker = w.breaker.countFailure cfg now →
      w'.outcomes = ⟨true, f.probe⟩ :: w.outcomes →
      BreakerMove cfg w w' r stage
  | answered (f : Flight T F) :
      r.lane = .status →
      w'.breaker = w.breaker.reset →
      w'.outcomes = ⟨false, f.probe⟩ :: w.outcomes →
      BreakerMove cfg w w' r stage

@[simp] theorem outcomes_stamp (l : Lane) (epoch : ℕ)
    (now : T) : (w.stamp l epoch now).outcomes = w.outcomes := by
  unfold World.stamp
  split <;> rfl

/- A settled RPC moves the breaker if it was of the status. -/
omit [AddCommGroup T] [LinearOrder T] [IsOrderedAddMonoid T] [DecidableEq ι] [FloatText F] in
theorem breakerMove_of_conclude {w' : World T F ι} {stage : Stage T F}
    (breaker : Breaker T) (outcome : StatusOutcome)
    (hBreaker : w'.breaker = (w.conclude r.lane breaker outcome).breaker)
    (hOutcomes : w'.outcomes = (w.conclude r.lane breaker outcome).outcomes)
    (hStatus : r.lane = .status → w'.breaker = breaker → w'.outcomes = outcome :: w.outcomes →
        BreakerMove cfg w w' r stage) :
    BreakerMove cfg w w' r stage := by
  cases hLane : r.lane with
  | status =>
    rw [hLane] at hBreaker hOutcomes
    exact hStatus hLane hBreaker hOutcomes
  | list =>
    rw [hLane] at hBreaker hOutcomes
    exact .kept hBreaker hOutcomes

theorem breaker_settleFailed {stage : Stage T F} {f : Flight T F} (hFlight : stage.flight? = some f)
    (now : T) : BreakerMove cfg w (settleFailed cfg w i r f now).next r stage :=
  breakerMove_of_conclude _ _ (breaker_stamp (w := w.conclude r.lane
      (w.breaker.countFailure cfg now) ⟨true, f.probe⟩) _ _ _)
    (outcomes_stamp (w := w.conclude r.lane (w.breaker.countFailure cfg now) ⟨true, f.probe⟩) _ _ _)
    (fun hLane => .failed f now hLane hFlight)

theorem breaker_settleRefused {stage : Stage T F} (f : Flight T F) (verdict : List (PyStr × Json F)) :
    BreakerMove cfg w (settleRefused w i r f verdict).next r stage :=
  breakerMove_of_conclude _ _ (breaker_stamp (w := w.conclude r.lane w.breaker.reset ⟨false, f.probe⟩) _ _ _)
    (outcomes_stamp (w := w.conclude r.lane w.breaker.reset ⟨false, f.probe⟩) _ _ _)
    (fun hLane => .answered f hLane)

theorem breaker_settleAnswered {stage : Stage T F} (f : Flight T F) (n : ℕ) (verdict : Json F)
    (now : T) : BreakerMove cfg w (settleAnswered w i r f n verdict now).next
      r stage := by
  refine breakerMove_of_conclude w.breaker.reset ⟨false, f.probe⟩ ?_ ?_ (fun hLane => .answered f hLane)
  · unfold settleAnswered
    dsimp only
    split <;> rfl
  · unfold settleAnswered
    dsimp only
    split <;> rfl

theorem breaker_runRead (cfg : Config T) (w : World T F ι) (i : ι) (r : ReadCall)
    (stage : Stage T F) : BreakerMove cfg w (runRead cfg w i r stage).next r stage := by
  cases stage with
  | peek now =>
    dsimp only [StatusBroker.runRead]
    split <;> exact .kept rfl rfl
  | queued =>
    dsimp only [StatusBroker.runRead]
    split <;> exact .kept rfl rfl
  | gate now =>
    dsimp only [StatusBroker.runRead]
    split
    · exact .kept rfl rfl
    · rename_i breaker probe hGate
      have hAdmitted := gate_ok hGate
      by_cases hSame : breaker = w.breaker
      · exact .kept hSame rfl
      · by_cases hLane : r.lane = .status
        · have hOpen := hAdmitted.probe hSame
          have hState := hAdmitted.status hLane
          rw [hOpen.2] at hState
          exact .armed hLane hOpen.1 hState rfl
        · exact (hSame (hAdmitted.list hLane)).elim
  | failed f n =>
    dsimp only [StatusBroker.runRead]
    split
    · exact .kept rfl rfl
    · exact breaker_settleFailed rfl _
  | failedAt f n now => exact breaker_settleFailed rfl now
  | refused f n verdict => exact breaker_settleRefused f verdict
  | answeredAt f n verdict now => exact breaker_settleAnswered f n verdict now
  | _ => exact .kept rfl rfl

theorem breaker_step (cfg : Config T) (w : World T F ι) (input : Input T F ι) :
    ((step cfg w input).2.breaker = w.breaker ∧ (step cfg w input).2.outcomes = w.outcomes) ∨
      ∃ i r stage, input = .run i ∧ w.phase i = .reading r stage ∧
        BreakerMove cfg w (step cfg w input).2 r stage := by
  cases input with
  | call i c =>
    left
    unfold step act
    dsimp only
    split <;> exact ⟨rfl, rfl⟩
  | run i =>
    cases hPhase : w.phase i with
    | reading r stage =>
      right
      refine ⟨i, r, stage, rfl, hPhase, ?_⟩
      change BreakerMove cfg w (runThread cfg w i).next r stage
      rw [runThread, hPhase]
      exact breaker_runRead cfg w i r stage
    | _ =>
      left
      change (runThread cfg w i).breaker = _ ∧ (runThread cfg w i).outcomes = _
      rw [runThread, hPhase]
      dsimp only
      first
        | exact ⟨rfl, rfl⟩
        | split <;> exact ⟨rfl, rfl⟩
  | rpc i o =>
    left
    change (endRpc w i o).breaker = _ ∧ (endRpc w i o).outcomes = _
    unfold endRpc
    split
    · cases o with
      | raised => exact ⟨rfl, rfl⟩
      | verdict v =>
        dsimp only
        split <;> exact ⟨rfl, rfl⟩
    · exact ⟨rfl, rfl⟩
    · exact ⟨rfl, rfl⟩
  | tick clock wall =>
    left
    change (if w.clock ≤ clock then
        { w with clock := clock, wall := wall } else w).breaker = _ ∧
      (if w.clock ≤ clock then
        { w with clock := clock, wall := wall } else w).outcomes = _
    split <;> exact ⟨rfl, rfl⟩

omit [IsOrderedAddMonoid T] [DecidableEq ι] [FloatText F] in
theorem Held.aloft {stage : Stage T F} {f : Flight T F} (hHeld : Held cfg w r stage)
    (hFlight : stage.flight? = some f) : Aloft w r f := by
  cases stage <;> cases hFlight <;> exact hHeld.1

-- Every Run

/- The read whose RPC is running. -/
def Phase.calling : Phase T F → Option Lane
  | .reading r (.inFlight _ _) => some r.lane
  | _ => none

/- The read a thread is in. -/
def Phase.lane : Phase T F → Option Lane
  | .reading r _ => some r.lane
  | _ => none

/- What holds of every state. -/
structure StateLaw (cfg : Config T) (w : World T F ι) : Prop where
  current : ∀ a ∈ w.answers, a.Current w.invalidations
  single : ∀ l i j, (w.phase i).calling = some l → (w.phase j).calling = some l → i = j
  spaced : Spaced cfg w.invalidations w.dispatches
  probing : w.breaker.state = .halfOpen → ∃ i, (w.phase i).probing = true

/- What holds of every step. -/
structure StepLaw (cfg : Config T) (w : World T F ι) (input : Input T F ι)
    (w' : World T F ι) : Prop where
  status : w'.breaker ≠ w.breaker → ∃ i, input = .run i ∧ (w.phase i).lane = some .status
  opened :
    w.breaker.state ≠ .open → w'.breaker.state = .open →
      ∃ o, w'.outcomes = o :: w.outcomes ∧ o.failed = true ∧ (o.probe = true ∨
          cfg.breakerFailures ≤ (w'.outcomes.takeWhile (fun o => o.failed)).length)

omit [FloatText F] in
theorem Inv.single (hInv : Inv cfg w) {l : Lane} {j : ι} (hi : (w.phase i).calling = some l)
    (hj : (w.phase j).calling = some l) : i = j := by
  have hHolder : ∀ k, (w.phase k).calling = some l → (w.lanes l).flight = some k := by
    intro k hk
    unfold Phase.calling at hk
    split at hk
    · rename_i r f n hPhase
      cases hk
      exact (hInv.readOk hPhase).holder rfl
    · exact nomatch hk
  exact Option.some.inj ((hHolder i hi).symm.trans (hHolder j hj))

theorem Inv.stateLaw (hInv : Inv cfg w) : StateLaw cfg w where
  current a ha := (hInv.shared.answers a ha).2
  single _ _ _ hi hj := hInv.single hi hj
  spaced := hInv.shared.spaced
  probing := hInv.probing

theorem Inv.stepLaw (hInv : Inv cfg w)
    (input : Input T F ι) : StepLaw cfg w input (StatusBroker.step cfg w input).2 := by
  rcases breaker_step cfg w input with ⟨hBreaker, _⟩ | ⟨i, r, stage, hInput, hPhase, hMove⟩
  · refine ⟨fun hNe => (hNe hBreaker).elim, ?_⟩
    intro hNot hOpen
    rw [hBreaker] at hOpen
    exact (hNot hOpen).elim
  · have hLane : r.lane = .status → ∃ i, input = .run i ∧ (w.phase i).lane = some .status := by
      intro hStatus
      refine ⟨i, hInput, ?_⟩
      rw [hPhase]
      exact congrArg some hStatus
    cases hMove with
    | kept hBreaker _ =>
      refine ⟨fun hNe => (hNe hBreaker).elim, ?_⟩
      intro hNot hOpen
      rw [hBreaker] at hOpen
      exact (hNot hOpen).elim
    | armed hStatus _ hHalf _ =>
      refine ⟨fun _ => hLane hStatus, ?_⟩
      intro _ hOpen
      exact nomatch hHalf.symm.trans hOpen
    | answered f hStatus hBreaker _ =>
      refine ⟨fun _ => hLane hStatus, ?_⟩
      intro _ hOpen
      rw [hBreaker] at hOpen
      exact nomatch hOpen
    | failed f now hStatus hFlight hBreaker hOutcomes =>
      refine ⟨fun _ => hLane hStatus, ?_⟩
      intro hNot hOpen
      refine ⟨_, hOutcomes, rfl, ?_⟩
      rw [hBreaker, Breaker.countFailure] at hOpen
      split at hOpen
      · rename_i hCause
        rcases hCause with hHalf | hMany
        · left
          have hProbe := ((hInv.readOk hPhase).held.aloft hFlight).probe hStatus
          rw [hHalf] at hProbe
          cases hCase : f.probe with
          | true => rfl
          | false =>
            rw [hCase] at hProbe
            exact nomatch hProbe
        · right
          rw [hInv.shared.failures] at hMany
          rw [hOutcomes]
          simpa using hMany
      · exact (hNot hOpen).elim

/-
  Whatever the threads call, whatever the RPCs answer and
  however they interleave: no call trusts a snapshot whose RPC
  was dispatched before an invalidation the call came after; one
  RPC of a kind runs at a time; an unforced RPC keeps the TTL
  from each earlier one since the last invalidation; only status
  outcomes move the breaker, it opens on a failed probe or on
  enough failures in a row, and its half-open state has a probe
  running.
-/
theorem broker_law (cfg : Config T) (clock wall : T) {history : List (Input T F ι × Unit)}
    (hTrace : Trace (step cfg) (fun _ _ => True) (World.start clock wall) history w) :
    StateLaw cfg w ∧ ∀ input, StepLaw cfg w input (step cfg w input).2 := by
  have hInv : Inv cfg w := hTrace.invariant (inv_start cfg clock wall) (fun _ input hInv _ => hInv.step input)
  exact ⟨hInv.stateLaw, hInv.stepLaw⟩

/- The envelope of an active management. -/
def activeEnvelope : Json (IntGrid (2 ^ 53)) := .obj [(pyStr "ok", .bool true),
      (pyStr "data", .obj [(pyStr "management_active", .bool true)])]

/-
  Thread 0 reads the status; thread 1 asks whether the
  management is active, invalidates, and asks again.
-/
def readAndInvalidate : List (Input ℤ (IntGrid (2 ^ 53)) ℕ) :=
  .call 0 (.status false) :: List.replicate 6 (.run 0) ++
    .rpc 0 (.verdict activeEnvelope) :: List.replicate 3 (.run 0) ++
    .call 1 .managementActive :: List.replicate 2 (.run 1) ++
    [.call 1 .invalidate, .run 1] ++
    .call 1 .managementActive :: List.replicate 2 (.run 1)

def exampleConfig : Config ℤ where
  statusTtl := 2
  listTtl := 5
  breakerFailures := 3
  breakerOpenSeconds := 10

def Answer.isActive : Answer T F → Option Bool
  | .active _ answer _ => some answer
  | _ => none

theorem broker_law_readAndInvalidate : (StateLaw exampleConfig
        (finalState (step exampleConfig) (World.start 100 0) readAndInvalidate) ∧
      ∀ input, StepLaw exampleConfig (finalState (step exampleConfig) (World.start 100 0)
          readAndInvalidate) input
        (step exampleConfig (finalState (step exampleConfig) (World.start 100 0)
            readAndInvalidate) input).2) ∧
      (finalState (step exampleConfig) (World.start 100 0)
        readAndInvalidate).answers.filterMap Answer.isActive = [false, true] :=
  ⟨broker_law exampleConfig 100 0 (trace_history _ _ readAndInvalidate), by decide⟩

end SingboxOps.StatusBroker
