import SingboxOps.StatusBroker.Invariant

/-
  The steps of the status broker keep its invariant.
-/

namespace SingboxOps.StatusBroker

open ClientManagement

variable {T F ι : Type}
variable [AddCommGroup T] [LinearOrder T] [DecidableEq ι]
variable {cfg : Config T} {w w' : World T F ι} {i : ι} {r : ReadCall}

-- The Shared State

namespace Shared

theorem setPhase (h : Shared cfg w) (i : ι) (p : Phase T F) : Shared cfg (w.setPhase i p) :=
  ⟨h.past, h.sent, h.cache, h.spaced, h.failures, h.answers⟩

theorem next (h : Shared cfg w) : Shared cfg w.next where
  past m hm := (h.past m hm).trans (Nat.lt_succ_self _)
  sent d hd := ⟨(h.sent d hd).1, (h.sent d hd).2.1.trans (Nat.lt_succ_self _), (h.sent d hd).2.2⟩
  cache := h.cache
  spaced := h.spaced
  failures := h.failures
  answers a ha := ⟨(h.answers a ha).1.mono (Nat.le_succ _), (h.answers a ha).2⟩

theorem setLane (h : Shared cfg w) (l : Lane) (s : LaneState T F ι) (hCache :
      ∀ c, s.cache = some c → c.fetchedAt ≠ none → ∀ m ∈ w.invalidations, m < c.dispatched) :
    Shared cfg (w.setLane l s) where
  past := h.past
  sent := h.sent
  cache k c := by
    by_cases hk : k = l
    · subst hk
      change (Function.update w.lanes k s k).cache = some c → _
      rw [Function.update_self]
      exact hCache c
    · change (Function.update w.lanes l s k).cache = some c → _
      rw [Function.update_of_ne hk]
      exact h.cache k c
  spaced := h.spaced
  failures := h.failures
  answers := h.answers

theorem release (h : Shared cfg w) (l : Lane) : Shared cfg (w.release l) := h.setLane l _ (h.cache l)

theorem stamp (h : Shared cfg w) (l : Lane) (epoch : ℕ) (now : T) : Shared cfg (w.stamp l epoch now) := by
  unfold World.stamp
  split
  · exact h.setLane l _ (h.cache l)
  · exact h

theorem conclude (h : Shared cfg w) (l : Lane) (breaker : Breaker T) (outcome : StatusOutcome)
    (hFailures : breaker.failures = ((outcome :: w.outcomes).takeWhile (fun o => o.failed)).length) :
    Shared cfg (w.conclude l breaker outcome) := by
  cases l with
  | status => exact ⟨h.past, h.sent, h.cache, h.spaced, hFailures, h.answers⟩
  | list => exact h

theorem answer (h : Shared cfg w) (a : Answer T F) (hBegan : a.Began w.moment)
    (hCurrent : a.Current w.invalidations) : Shared cfg (w.answer a) where
  past := h.past
  sent := h.sent
  cache := h.cache
  spaced := h.spaced
  failures := h.failures
  answers b hb := by
    rcases List.mem_cons.mp hb with rfl | hOld
    · exact ⟨hBegan, hCurrent⟩
    · exact h.answers b hOld

theorem fresh (h : Shared cfg w) {l : Lane} {now ttl : T} (hServe : serve (w.lanes l).cache now ttl = .fresh)
    (started : ℕ) : Newer w.invalidations started (result .fresh (w.lanes l).cache).dispatched := by
  cases hCache : (w.lanes l).cache with
  | none =>
    rw [hCache] at hServe
    exact nomatch hServe
  | some c =>
    apply Newer.of_all
    apply h.cache l c hCache
    intro hNone
    rw [hCache] at hServe
    simp [serve, within, hNone] at hServe

end Shared

theorem fallback_not_fresh (cache : Option (Snapshot T F)) : (fallback cache).transport ≠ some .fresh := by
  cases cache <;> exact fun h => nomatch h

-- Quiet Steps

theorem threads_of_quiet {j : ι} {p : Phase T F}
    (hOk : PhaseOk cfg w j p) (hStatus : Elsewhere w w' .status i)
    (hList : Elsewhere w w' .list i) : PhaseOk cfg w' j p := by
  refine hOk.elsewhere (i := i) hStatus.moment hStatus.invalidations ?_
  intro k _
  cases k with
  | status => exact ⟨.list, Lane.noConfusion, hList⟩
  | list => exact ⟨.status, Lane.noConfusion, hStatus⟩

theorem Inv.setPhase (hInv : Inv cfg w) {p : Phase T F} (hOk : PhaseOk cfg w i p)
    (hSent : ∀ q, (w.phase i).sent? = some q → p.sent? = some q)
    (hProbe : (w.phase i).probing = true → p.probing = true) : Inv cfg (w.setPhase i p) := by
  have hElse : ∀ l, Elsewhere w (w.setPhase i p) l i := fun l =>
    (Elsewhere.refl w l i).setPhase p
  have hSelf : (w.setPhase i p).phase i = p := Function.update_self _ _ _
  have hOther : ∀ j, j ≠ i → (w.setPhase i p).phase j = w.phase j := fun j hj => Function.update_of_ne hj _ _
  refine ⟨hInv.shared.setPhase i p, ?_, ?_, ?_⟩
  · intro d hd hPast
    rcases hInv.attempted d hd hPast with ⟨j, hj⟩ | hStamp
    · left
      by_cases hSame : j = i
      · subst hSame
        exact ⟨j, by rw [hSelf]; exact hSent _ hj⟩
      · exact ⟨j, by rw [hOther j hSame]; exact hj⟩
    · exact .inr hStamp
  · intro hHalf
    rcases hInv.probing hHalf with ⟨j, hj⟩
    by_cases hSame : j = i
    · subst hSame
      exact ⟨j, by rw [hSelf]; exact hProbe hj⟩
    · exact ⟨j, by rw [hOther j hSame]; exact hj⟩
  · intro j
    by_cases hSame : j = i
    · subst hSame
      rw [hSelf]
      exact threads_of_quiet hOk (hElse _) (hElse _)
    · rw [hOther j hSame]
      exact threads_of_quiet (hInv.threads j) (hElse _) (hElse _)

theorem Inv.answer (hInv : Inv cfg w)
    (a : Answer T F) (hBegan : a.Began w.moment) (hCurrent : a.Current w.invalidations)
    (i : ι) : Inv cfg (w.answer a) := by
  have hElse : ∀ l, Elsewhere w (w.answer a) l i := fun l => (Elsewhere.refl w l i).answer a
  exact ⟨hInv.shared.answer a hBegan hCurrent, hInv.attempted,
    hInv.probing, fun j => threads_of_quiet (hInv.threads j) (hElse _) (hElse _)⟩

theorem Inv.next (hInv : Inv cfg w) : Inv cfg w.next :=
  ⟨hInv.shared.next, hInv.attempted, hInv.probing, fun j =>
    threads_of_quiet (i := j) (hInv.threads j) (Elsewhere.refl w _ j).next (Elsewhere.refl w _ j).next⟩

theorem threads_of_step (hThreads : ∀ j, PhaseOk cfg w j (w.phase j))
    {l : Lane} (hElse : Elsewhere w w' l i) (hFree : ∀ j, j ≠ i → (w.lanes l).flight ≠ some j)
    (hOk : PhaseOk cfg w' i (w'.phase i)) : ∀ j, PhaseOk cfg w' j (w'.phase j) := by
  intro j
  by_cases hSame : j = i
  · subst hSame
    exact hOk
  · rw [hElse.phase j hSame]
    refine (hThreads j).elsewhere (i := i) hElse.moment hElse.invalidations ?_
    intro k hk
    refine ⟨l, ?_, hElse⟩
    intro hkl
    exact hFree j hSame (hkl ▸ hk)

theorem free_of_holder {l : Lane}
    (h : (w.lanes l).flight = some i) : ∀ j, j ≠ i → (w.lanes l).flight ≠ some j := by
  intro j hj hFlight
  exact hj (Option.some.inj (hFlight.symm.trans h))

-- A Read Lands

/- `Attempted`, by the other threads. -/
def AttemptedBut (w : World T F ι) (i : ι) : Prop := ∀ d ∈ w.dispatches,
    (∀ m ∈ w.invalidations, m ≤ d.admitted) →
    (∃ j, j ≠ i ∧ (w.phase j).sent? = some (d.lane, d.moment)) ∨
      ∃ t, (w.lanes d.lane).attemptedAt = some t ∧ d.time ≤ t

/- `Probing`, by the other threads. -/
def ProbingBut (w : World T F ι) (i : ι) : Prop :=
  w.breaker.state = .halfOpen → ∃ j, j ≠ i ∧ (w.phase j).probing = true

theorem Attempted.but (h : Attempted w) (hNone : (w.phase i).sent? = none) : AttemptedBut w i := by
  intro d hd hPast
  rcases h d hd hPast with ⟨j, hj⟩ | hStamp
  · refine .inl ⟨j, ?_, hj⟩
    rintro rfl
    rw [hNone] at hj
    exact nomatch hj
  · exact .inr hStamp

theorem Probing.but (h : Probing w) (hNot : (w.phase i).probing = false) : ProbingBut w i := by
  intro hHalf
  rcases h hHalf with ⟨j, hj⟩
  refine ⟨j, ?_, hj⟩
  rintro rfl
  rw [hNot] at hj
  exact nomatch hj

/- What a returning read leaves its thread with. -/
theorem phaseOk_respond {reading : Reading T F}
    (hBegan : r.started < w.moment) (hOrigin : ∀ n, r.origin = some n → n ≤ r.started)
    (hCurrent : reading.transport = some .fresh → Newer w.invalidations r.started reading.dispatched) :
    PhaseOk cfg w i (match r.origin with
      | none => .idle
      | some started => .exporting started reading) := by
  cases hCase : r.origin with
  | none => trivial
  | some started =>
    have hLe := hOrigin started hCase
    exact ⟨hLe.trans_lt hBegan, fun h => (hCurrent h).of_le hLe⟩

theorem lanes_setLane_self (l : Lane) (s : LaneState T F ι) : (w.setLane l s).lanes l = s :=
  Function.update_self _ _ _

theorem lanes_setLane_of_ne {k l : Lane} (h : k ≠ l)
    (s : LaneState T F ι) : (w.setLane l s).lanes k = w.lanes k :=
  Function.update_of_ne h _ _

theorem attemptedAt_release (k l : Lane) : ((w.release l).lanes k).attemptedAt = (w.lanes k).attemptedAt := by
  by_cases h : k = l
  · subst h
    rw [World.release, lanes_setLane_self]
  · rw [World.release, lanes_setLane_of_ne h]

/- A read gives its lock back and returns. -/
theorem Inv.land (hInv : Inv cfg w) {stage : Stage T F} (hPhase : w.phase i = .reading r stage)
    (hHolds : stage.holds = true) (hElse : Elsewhere w w' r.lane i)
    (hShared : Shared cfg w') (hAttempted : AttemptedBut w' i)
    (hProbing : ProbingBut w' i) {reading : Reading T F}
    (hCurrent : reading.transport = some .fresh → Newer w.invalidations r.started reading.dispatched) :
    Inv cfg ((w'.release r.lane).respond i r reading) := by
  have hRead : ReadOk cfg w i r stage := by
    have hOk := hInv.threads i
    rw [hPhase] at hOk
    exact hOk
  have hBegan : r.started < w'.moment := hRead.began.trans_le hElse.moment
  have hCurrent' : reading.transport = some .fresh →
        Newer w'.invalidations r.started reading.dispatched := by
    rw [hElse.invalidations]
    exact hCurrent
  have hOther : ∀ j, j ≠ i → ((w'.release r.lane).respond i r reading).phase j = w'.phase j :=
    fun j hj => Function.update_of_ne hj _ _
  refine ⟨?_, ?_, ?_, ?_⟩
  · exact ((hShared.release r.lane).setPhase i _).answer _ hBegan hCurrent'
  · intro d hd hPast
    rcases hAttempted d hd hPast with ⟨j, hj, hSent⟩ | hStamp
    · exact .inl ⟨j, by rw [hOther j hj]; exact hSent⟩
    · right
      change ∃ t, ((w'.release r.lane).lanes d.lane).attemptedAt = some t ∧ _
      rw [attemptedAt_release]
      exact hStamp
  · intro hHalf
    rcases hProbing hHalf with ⟨j, hj, hProbe⟩
    exact ⟨j, by rw [hOther j hj]; exact hProbe⟩
  · refine threads_of_step hInv.threads (hElse.release.respond r reading)
      (free_of_holder (hRead.holder hHolds)) ?_
    have hSelf : ((w'.release r.lane).respond i r reading).phase i =
          match r.origin with
          | none => .idle
          | some started => .exporting started reading :=
      Function.update_self _ _ _
    rw [hSelf]
    exact phaseOk_respond hBegan hRead.origin hCurrent'

end SingboxOps.StatusBroker
