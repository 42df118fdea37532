import SingboxOps.StatusBroker.Model
import Mathlib.Algebra.Order.Group.Basic

/-
  The invariant of the status broker.

  What the lists, the caches and the breaker say is kept apart
  from what each thread knows.  A thread under a flight lock
  knows most; the others leave that lane alone, so a step of one
  thread is judged lane by lane.
-/

namespace SingboxOps.StatusBroker

open ClientManagement

variable {T F ι : Type}

-- Stages

/- The stages under the flight lock. -/
def Stage.holds : Stage T F → Bool
  | .entered | .peek _ | .queued => false
  | _ => true

/- What a read that was let through has found. -/
def Stage.flight? : Stage T F → Option (Flight T F)
  | .dispatching f | .inFlight f _ | .failed f _ |
      .failedAt f _ _ | .refused f _ _ | .answered f _ _ |
      .answeredAt f _ _ _ => some f
  | _ => none

/- The moment of an RPC that is not settled yet. -/
def Stage.sent? : Stage T F → Option ℕ
  | .inFlight _ n | .failed _ n | .failedAt _ n _ |
      .refused _ n _ | .answered _ n _ |
      .answeredAt _ n _ _ => some n
  | _ => none

def Phase.sent? : Phase T F → Option (Lane × ℕ)
  | .reading r stage => stage.sent?.map (fun n => (r.lane, n))
  | _ => none

/- The thread is the half-open probe. -/
def Phase.probing : Phase T F → Bool
  | .reading r stage => decide (r.lane = .status) && stage.flight?.any (fun f => f.probe)
  | _ => false

theorem Stage.holds_of_sent {stage : Stage T F} {n : ℕ} (h : stage.sent? = some n) : stage.holds = true := by
  cases stage <;> first | rfl | exact nomatch h

-- What Was Answered

/-
  The snapshot is of an RPC dispatched after every invalidation
  that was before the call.
-/
def Newer (invalidations : List ℕ) (started : ℕ) (dispatched : Option ℕ) : Prop :=
  ∃ n, dispatched = some n ∧ ∀ m ∈ invalidations, m < started → m < n

/- No answer trusts a snapshot an invalidation has retired. -/
def Answer.Current (invalidations : List ℕ) : Answer T F → Prop
  | .read r reading =>
    reading.transport = some .fresh → Newer invalidations r.started reading.dispatched
  | .active started answer dispatched =>
    answer = true → Newer invalidations started dispatched
  | .exportReady started dispatched => Newer invalidations started dispatched
  | _ => True

/- The call began before the moment. -/
def Answer.Began (moment : ℕ) : Answer T F → Prop
  | .read r _ => r.started < moment
  | .active started _ _ => started < moment
  | .exportReady started _ => started < moment
  | _ => True

theorem Newer.of_all {invalidations : List ℕ} {started n : ℕ}
    (h : ∀ m ∈ invalidations, m < n) : Newer invalidations started (some n) :=
  ⟨n, rfl, fun m hm _ => h m hm⟩

theorem Newer.of_le {invalidations : List ℕ} {started before : ℕ}
    {dispatched : Option ℕ} (hNewer : Newer invalidations started dispatched)
    (h : before ≤ started) : Newer invalidations before dispatched := by
  rcases hNewer with ⟨n, hn, hAll⟩
  exact ⟨n, hn, fun m hm hLt => hAll m hm (hLt.trans_le h)⟩

theorem Newer.cons {invalidations : List ℕ} {started moment : ℕ}
    {dispatched : Option ℕ} (hNewer : Newer invalidations started dispatched)
    (h : started < moment) : Newer (moment :: invalidations) started dispatched := by
  rcases hNewer with ⟨n, hn, hAll⟩
  refine ⟨n, hn, ?_⟩
  intro m hm hLt
  rcases List.mem_cons.mp hm with rfl | hOld
  · exact (Nat.lt_asymm h hLt).elim
  · exact hAll m hOld hLt

theorem Answer.Current.cons {a : Answer T F} {invalidations : List ℕ} {moment : ℕ}
    (hCurrent : a.Current invalidations)
    (hBegan : a.Began moment) : a.Current (moment :: invalidations) := by
  cases a with
  | read r reading => exact fun h => (hCurrent h).cons hBegan
  | active started answer dispatched => exact fun h => (hCurrent h).cons hBegan
  | exportReady started dispatched => exact Newer.cons hCurrent hBegan
  | _ => trivial

theorem Answer.Began.mono {a : Answer T F} {moment moment' : ℕ} (hBegan : a.Began moment)
    (h : moment ≤ moment') : a.Began moment' := by
  cases a with
  | read r reading => exact Nat.lt_of_lt_of_le hBegan h
  | active started answer dispatched => exact Nat.lt_of_lt_of_le hBegan h
  | exportReady started dispatched => exact Nat.lt_of_lt_of_le hBegan h
  | _ => trivial

-- The Invariant

variable [AddCommGroup T] [LinearOrder T] [DecidableEq ι]

/-
  An unforced RPC keeps the distance from each earlier one, if
  no invalidation came after that one was let through.
-/
def Spaced (cfg : Config T) (invalidations : List ℕ) (dispatches : List (Dispatch T)) : Prop :=
  ∀ d ∈ dispatches, d.force = false → ∀ c ∈ dispatches, c.lane = d.lane → c.moment < d.moment →
      (∀ m ∈ invalidations, c.admitted < m → ¬ m < d.admitted) →
      cfg.ttl d.lane ≤ d.time - c.time

/- What does not depend on where the threads are. -/
structure Shared (cfg : Config T) (w : World T F ι) : Prop where
  past : ∀ m ∈ w.invalidations, m < w.moment
  sent : ∀ d ∈ w.dispatches, d.admitted < d.moment ∧ d.moment < w.moment ∧ d.time ≤ w.clock
  cache :
    ∀ l c, (w.lanes l).cache = some c → c.fetchedAt ≠ none → ∀ m ∈ w.invalidations, m < c.dispatched
  spaced : Spaced cfg w.invalidations w.dispatches
  failures : w.breaker.failures = (w.outcomes.takeWhile (fun o => o.failed)).length
  answers : ∀ a ∈ w.answers, a.Began w.moment ∧ a.Current w.invalidations

/- Each RPC since the last invalidation has been recorded. -/
def Attempted (w : World T F ι) : Prop := ∀ d ∈ w.dispatches, (∀ m ∈ w.invalidations, m ≤ d.admitted) →
    (∃ i, (w.phase i).sent? = some (d.lane, d.moment)) ∨
      ∃ t, (w.lanes d.lane).attemptedAt = some t ∧ d.time ≤ t

/- A half-open breaker has its probe running. -/
def Probing (w : World T F ι) : Prop := w.breaker.state = .halfOpen → ∃ i, (w.phase i).probing = true

/- What a read knows since it was let through. -/
structure Aloft (w : World T F ι) (r : ReadCall) (f : Flight T F) : Prop where
  began : r.started < f.admitted
  past : f.admitted < w.moment
  epoch : f.epoch ≤ (w.lanes r.lane).epoch
  current : f.epoch = (w.lanes r.lane).epoch → ∀ m ∈ w.invalidations, m < f.admitted
  retired : f.epoch ≠ (w.lanes r.lane).epoch → ∃ m ∈ w.invalidations, f.admitted < m
  probe : r.lane = .status → w.breaker.state = if f.probe then .halfOpen else .closed

/- The read may be dispatched. -/
structure Cleared (cfg : Config T) (w : World T F ι) (r : ReadCall) (f : Flight T F) : Prop where
  now : f.now ≤ w.clock
  spaced :
    r.force = false → ∀ c ∈ w.dispatches, c.lane = r.lane →
        (∀ m ∈ w.invalidations, c.admitted < m → ¬ m < f.admitted) →
        cfg.ttl r.lane ≤ f.now - c.time

/- The read was dispatched. -/
structure Sent (w : World T F ι) (r : ReadCall) (f : Flight T F) (n : ℕ) : Prop where
  later : f.admitted < n
  past : n < w.moment
  own : ∀ d ∈ w.dispatches, d.lane = r.lane → d.moment = n → d.admitted = f.admitted

/- The clock was read after every RPC of the lane was sent. -/
def Late (w : World T F ι) (r : ReadCall) (now : T) : Prop :=
  ∀ d ∈ w.dispatches, d.lane = r.lane → d.time ≤ now

/- What a thread knows under the flight lock. -/
def Held (cfg : Config T) (w : World T F ι) (r : ReadCall) : Stage T F → Prop
  | .gate now => now ≤ w.clock
  | .dispatching f => Aloft w r f ∧ Cleared cfg w r f
  | .inFlight f n => Aloft w r f ∧ Sent w r f n
  | .failed f n => Aloft w r f ∧ Sent w r f n
  | .refused f n _ => Aloft w r f ∧ Sent w r f n
  | .answered f n _ => Aloft w r f ∧ Sent w r f n
  | .failedAt f n now => Aloft w r f ∧ Sent w r f n ∧ Late w r now
  | .answeredAt f n _ now => Aloft w r f ∧ Sent w r f n ∧ Late w r now
  | .published => ∃ c, (w.lanes r.lane).cache = some c ∧ r.started < c.dispatched
  | _ => True

structure ReadOk (cfg : Config T) (w : World T F ι) (i : ι) (r : ReadCall)
    (stage : Stage T F) : Prop where
  began : r.started < w.moment
  origin : ∀ n, r.origin = some n → n ≤ r.started
  holder : stage.holds = true → (w.lanes r.lane).flight = some i
  held : Held cfg w r stage

/- What a thread knows. -/
def PhaseOk (cfg : Config T) (w : World T F ι) (i : ι) : Phase T F → Prop
  | .reading r stage => ReadOk cfg w i r stage
  | .exporting started reading =>
    started < w.moment ∧ (reading.transport = some .fresh → Newer w.invalidations started reading.dispatched)
  | .exportEntered started => started < w.moment
  | .activeEntered started => started < w.moment
  | .activeAt started _ => started < w.moment
  | _ => True

structure Inv (cfg : Config T) (w : World T F ι) : Prop where
  shared : Shared cfg w
  attempted : Attempted w
  probing : Probing w
  threads : ∀ i, PhaseOk cfg w i (w.phase i)

theorem inv_start (cfg : Config T) (clock wall : T) : Inv cfg (World.start clock wall : World T F ι) where
  shared :=
    { past := fun _ h => (List.not_mem_nil h).elim
      sent := fun _ h => (List.not_mem_nil h).elim
      cache := fun _ _ h => nomatch h
      spaced := fun _ h => (List.not_mem_nil h).elim
      failures := rfl
      answers := fun _ h => (List.not_mem_nil h).elim }
  attempted _ h := (List.not_mem_nil h).elim
  probing h := nomatch h
  threads _ := trivial

-- Steps Elsewhere

/- A step of one thread on one lane, as the other lane sees it. -/
structure Elsewhere (w w' : World T F ι) (l : Lane) (i : ι) : Prop where
  moment : w.moment ≤ w'.moment
  clock : w.clock ≤ w'.clock
  invalidations : w'.invalidations = w.invalidations
  lanes : ∀ k, k ≠ l → w'.lanes k = w.lanes k
  dispatches : ∀ d ∈ w'.dispatches, d.lane ≠ l → d ∈ w.dispatches
  breaker : l ≠ .status → w'.breaker = w.breaker
  phase : ∀ j, j ≠ i → w'.phase j = w.phase j

namespace Elsewhere

variable {w w' w'' : World T F ι} {l : Lane} {i : ι}

theorem refl (w : World T F ι) (l : Lane) (i : ι) : Elsewhere w w l i :=
  ⟨le_rfl, le_rfl, rfl, fun _ _ => rfl, fun _ h _ => h, fun _ => rfl, fun _ _ => rfl⟩

theorem setPhase (h : Elsewhere w w' l i) (p : Phase T F) : Elsewhere w (w'.setPhase i p) l i where
  moment := h.moment
  clock := h.clock
  invalidations := h.invalidations
  lanes := h.lanes
  dispatches := h.dispatches
  breaker := h.breaker
  phase j hj := by
    rw [← h.phase j hj]
    exact Function.update_of_ne hj _ _

theorem setLane (h : Elsewhere w w' l i) (s : LaneState T F ι) : Elsewhere w (w'.setLane l s) l i where
  moment := h.moment
  clock := h.clock
  invalidations := h.invalidations
  lanes k hk := by
    rw [← h.lanes k hk]
    exact Function.update_of_ne hk _ _
  dispatches := h.dispatches
  breaker := h.breaker
  phase := h.phase

theorem answer (h : Elsewhere w w' l i) (a : Answer T F) : Elsewhere w (w'.answer a) l i :=
  ⟨h.moment, h.clock, h.invalidations, h.lanes, h.dispatches, h.breaker, h.phase⟩

theorem respond (h : Elsewhere w w' l i) (r : ReadCall)
    (reading : Reading T F) : Elsewhere w (w'.respond i r reading) l i :=
  (h.setPhase _).answer _

theorem release (h : Elsewhere w w' l i) : Elsewhere w (w'.release l) l i := h.setLane _

theorem stamp (h : Elsewhere w w' l i) (epoch : ℕ) (now : T) : Elsewhere w (w'.stamp l epoch now) l i := by
  unfold World.stamp
  split
  · exact h.setLane _
  · exact h

theorem conclude (h : Elsewhere w w' l i) (breaker : Breaker T)
    (outcome : StatusOutcome) : Elsewhere w (w'.conclude l breaker outcome) l i := by
  cases l with
  | status =>
    exact ⟨h.moment, h.clock, h.invalidations, h.lanes, h.dispatches, fun hl => (hl rfl).elim, h.phase⟩
  | list => exact h

end Elsewhere

theorem Elsewhere.next {w w' : World T F ι} {l : Lane} {i : ι}
    (h : Elsewhere w w' l i) : Elsewhere w w'.next l i :=
  ⟨h.moment.trans (Nat.le_succ _), h.clock, h.invalidations, h.lanes, h.dispatches, h.breaker, h.phase⟩

section Kept

variable {cfg : Config T} {w w' : World T F ι} {l : Lane} {i j : ι}
variable {r : ReadCall}

theorem Aloft.elsewhere {f : Flight T F} (hAloft : Aloft w r f) (h : Elsewhere w w' l i)
    (hLane : r.lane ≠ l) : Aloft w' r f := by
  have hSame := h.lanes r.lane hLane
  refine ⟨hAloft.began, hAloft.past.trans_le h.moment, ?_, ?_, ?_, ?_⟩
  · rw [hSame]
    exact hAloft.epoch
  · rw [hSame, h.invalidations]
    exact hAloft.current
  · rw [hSame, h.invalidations]
    exact hAloft.retired
  · intro hStatus
    have hOther : l ≠ .status := fun hl => hLane (hStatus.trans hl.symm)
    rw [h.breaker hOther]
    exact hAloft.probe hStatus

theorem mem_elsewhere (h : Elsewhere w w' l i) (hLane : r.lane ≠ l) {d : Dispatch T} (hd : d ∈ w'.dispatches)
    (hSame : d.lane = r.lane) : d ∈ w.dispatches :=
  h.dispatches d hd (fun hl => hLane (hSame.symm.trans hl))

theorem Sent.elsewhere {f : Flight T F} {n : ℕ} (hSent : Sent w r f n) (h : Elsewhere w w' l i)
    (hLane : r.lane ≠ l) : Sent w' r f n :=
  ⟨hSent.later, hSent.past.trans_le h.moment, fun d hd hSame =>
    hSent.own d (mem_elsewhere h hLane hd hSame) hSame⟩

theorem Late.elsewhere {now : T} (hLate : Late w r now) (h : Elsewhere w w' l i)
    (hLane : r.lane ≠ l) : Late w' r now :=
  fun d hd hSame => hLate d (mem_elsewhere h hLane hd hSame) hSame

theorem Cleared.elsewhere {f : Flight T F} (hCleared : Cleared cfg w r f) (h : Elsewhere w w' l i)
    (hLane : r.lane ≠ l) : Cleared cfg w' r f := by
  refine ⟨hCleared.now.trans h.clock, ?_⟩
  intro hForce c hc hSame
  rw [h.invalidations]
  exact hCleared.spaced hForce c (mem_elsewhere h hLane hc hSame) hSame

theorem Held.elsewhere {stage : Stage T F} (hHeld : Held cfg w r stage) (h : Elsewhere w w' l i)
    (hLane : r.lane ≠ l) : Held cfg w' r stage := by
  cases stage with
  | gate now => exact le_trans hHeld h.clock
  | dispatching f => exact ⟨hHeld.1.elsewhere h hLane, hHeld.2.elsewhere h hLane⟩
  | inFlight f n => exact ⟨hHeld.1.elsewhere h hLane, hHeld.2.elsewhere h hLane⟩
  | failed f n => exact ⟨hHeld.1.elsewhere h hLane, hHeld.2.elsewhere h hLane⟩
  | refused f n verdict => exact ⟨hHeld.1.elsewhere h hLane, hHeld.2.elsewhere h hLane⟩
  | answered f n verdict => exact ⟨hHeld.1.elsewhere h hLane, hHeld.2.elsewhere h hLane⟩
  | failedAt f n now =>
    exact ⟨hHeld.1.elsewhere h hLane, hHeld.2.1.elsewhere h hLane, hHeld.2.2.elsewhere h hLane⟩
  | answeredAt f n verdict now =>
    exact ⟨hHeld.1.elsewhere h hLane, hHeld.2.1.elsewhere h hLane, hHeld.2.2.elsewhere h hLane⟩
  | published =>
    change ∃ c, (w'.lanes r.lane).cache = some c ∧ _
    rw [h.lanes r.lane hLane]
    exact hHeld
  | _ => trivial

theorem held_of_not_holds {stage : Stage T F} (h : stage.holds = false) : Held cfg w r stage := by
  cases stage <;> trivial

/-
  A thread keeps what it knows, unless the step was on the lane
  whose lock it holds.
-/
theorem PhaseOk.elsewhere {p : Phase T F} (hOk : PhaseOk cfg w j p) (hMoment : w.moment ≤ w'.moment)
    (hPast : w'.invalidations = w.invalidations)
    (hElse : ∀ k, (w.lanes k).flight = some j → ∃ l, k ≠ l ∧ Elsewhere w w' l i) :
    PhaseOk cfg w' j p := by
  cases p with
  | reading r stage =>
    refine ⟨hOk.began.trans_le hMoment, hOk.origin, ?_, ?_⟩
    · intro hHolds
      have hFlight := hOk.holder hHolds
      rcases hElse r.lane hFlight with ⟨l, hLane, h⟩
      rw [h.lanes r.lane hLane]
      exact hFlight
    · cases hHolds : stage.holds with
      | false => exact held_of_not_holds hHolds
      | true =>
        rcases hElse r.lane (hOk.holder hHolds) with ⟨l, hLane, h⟩
        exact hOk.held.elsewhere h hLane
  | exporting started reading =>
    refine ⟨hOk.1.trans_le hMoment, ?_⟩
    rw [hPast]
    exact hOk.2
  | exportEntered started => exact Nat.lt_of_lt_of_le hOk hMoment
  | activeEntered started => exact Nat.lt_of_lt_of_le hOk hMoment
  | activeAt started now => exact Nat.lt_of_lt_of_le hOk hMoment
  | _ => trivial

end Kept

end SingboxOps.StatusBroker
