import SingboxOps.QualityFailover.Policy
import SingboxOps.Lib.Streak
import Mathlib.Data.List.Induction

/-
  Failure and recovery of a path, as its history tells them.

  After a failure the path waits for its recovery, and the
  number of good samples it counts is no more than the good
  samples at the end of the history since then.
-/

namespace SingboxOps.QualityFailover

variable {T : Type} [LinearOrder T] [Add T] [Sub T] [NatCast T]

-- Observations by Kind

/- What an observation is to the path. -/
inductive Kind where
  | hard
  | missing
  | tick
  | sample (verdict : Verdict)
deriving DecidableEq

def Observation.kind (policy : Policy T) (o : Observation T) : Kind := match o.reachable with
  | some false => .hard
  | none => .missing
  | some true =>
    match o.confirmation with
    | none => .tick
    | some c => .sample (c.verdict policy)

def isGood (policy : Policy T) (o : Observation T) : Bool :=
  decide (o.kind policy = .sample .good)

def isBad (policy : Policy T) (o : Observation T) : Bool :=
  decide (o.kind policy = .sample .bad)

def isTick (policy : Policy T) (o : Observation T) : Bool := decide (o.kind policy = .tick)

/- A step is one of four, by the kind of its observation. -/
theorem step_eq (policy : Policy T) (p : Path T) (o : Observation T) : p.step policy o =
      match o.kind policy with
      | .hard => { p with observedAt := some o.now }.hardFailed policy o.now
      | .missing => { p with observedAt := some o.now }.missing
      | .tick => { p with observedAt := some o.now }.awake.tick policy o.now
      | .sample verdict =>
        { p with observedAt := some o.now }.awake.confirm policy
          o.now verdict := by
  rcases o with ⟨now, reachable, confirmation⟩
  cases reachable with
  | none => rfl
  | some alive =>
    cases alive with
    | false => rfl
    | true =>
      cases confirmation with
      | none => rfl
      | some c => rfl

theorem run_snoc (policy : Policy T) (history : List (Observation T)) (o : Observation T) :
    run policy (history ++ [o]) = (run policy history).step policy o := by
  simp [run]

-- The States

/- What the state of a path says of its two flags. -/
structure StateLaw (p : Path T) : Prop where
  failed : p.state = .down ∨ p.state = .degraded → p.needsRecovery = true
  up : p.state = .up → p.needsRecovery = false
  verified : p.qualityVerifiedAt ≠ none → p.state = .up

namespace StateLaw

variable {policy : Policy T} {p : Path T}

theorem fresh : StateLaw (Path.fresh : Path T) where
  failed h := by
    rcases h with h | h <;> exact PathState.noConfusion h
  up h := PathState.noConfusion h
  verified h := (h rfl).elim

theorem awake (h : StateLaw p) : StateLaw p.awake := by
  unfold Path.awake
  split
  · rename_i hUnknown
    have hNone : p.qualityVerifiedAt = none := by
      by_contra hSome
      rw [h.verified hSome] at hUnknown
      exact PathState.noConfusion hUnknown
    split
    · rename_i hNeeds
      exact ⟨fun _ => hNeeds, fun hUp => PathState.noConfusion hUp, fun hSome => (hSome hNone).elim⟩
    · rename_i hNeeds
      refine ⟨?_, fun _ => Bool.eq_false_iff.mpr hNeeds, fun _ => rfl⟩
      rintro (hDown | hDegraded)
      · exact PathState.noConfusion hDown
      · exact PathState.noConfusion hDegraded
  · exact h

theorem tick (h : StateLaw p) (now : T) : StateLaw (p.tick policy now) := by
  unfold Path.tick
  split
  · exact ⟨h.failed, h.up, fun hSome => (hSome rfl).elim⟩
  · exact h

theorem confirmedBad (h : StateLaw p) (now : T) : StateLaw (p.confirmedBad policy now) := by
  unfold Path.confirmedBad
  dsimp only
  split
  · exact ⟨fun _ => rfl, fun hUp => PathState.noConfusion hUp, fun hSome => (hSome rfl).elim⟩
  · exact ⟨h.failed, h.up, fun hSome => (hSome rfl).elim⟩

theorem confirmedGood (h : StateLaw p) (now : T) : StateLaw (p.confirmedGood policy now) := by
  unfold Path.confirmedGood
  dsimp only
  split
  · split
    · refine ⟨?_, fun _ => rfl, fun _ => rfl⟩
      rintro (hDown | hDegraded)
      · exact PathState.noConfusion hDown
      · exact PathState.noConfusion hDegraded
    · exact ⟨h.failed, h.up, h.verified⟩
  · rename_i hNeeds
    refine ⟨?_, fun _ => Bool.eq_false_iff.mpr hNeeds, fun _ => rfl⟩
    rintro (hDown | hDegraded)
    · exact PathState.noConfusion hDown
    · exact PathState.noConfusion hDegraded

theorem unconfirmed (h : StateLaw p) (now : T) (reason : Reason) :
    StateLaw (p.unconfirmed policy now reason) := by
  unfold Path.unconfirmed
  split
  · rename_i hUp
    exact ⟨h.failed, h.up, fun _ => hUp⟩
  · exact ⟨h.failed, h.up, h.verified⟩

theorem confirm (h : StateLaw p) (now : T) (verdict : Verdict) : StateLaw (p.confirm policy now verdict) := by
  cases verdict with
  | bad => exact h.confirmedBad now
  | good => exact h.confirmedGood now
  | unknown => exact h.unconfirmed now _
  | middle => exact h.unconfirmed now _

theorem step (h : StateLaw p) (o : Observation T) : StateLaw (p.step policy o) := by
  have hSeen : StateLaw { p with observedAt := some o.now } := ⟨h.failed, h.up, h.verified⟩
  rw [step_eq]
  cases o.kind policy with
  | hard =>
    exact ⟨fun _ => rfl, fun hUp => PathState.noConfusion hUp, fun hSome => (hSome rfl).elim⟩
  | missing =>
    refine ⟨?_, fun hUp => PathState.noConfusion hUp, fun hSome => (hSome rfl).elim⟩
    rintro (hDown | hDegraded)
    · exact PathState.noConfusion hDown
    · exact PathState.noConfusion hDegraded
  | tick => exact hSeen.awake.tick o.now
  | sample verdict => exact hSeen.awake.confirm o.now verdict

end StateLaw

theorem stateLaw_run (policy : Policy T)
    (history : List (Observation T)) : StateLaw (run policy history) := by
  induction history using List.reverseRecOn with
  | nil => exact StateLaw.fresh
  | append_singleton history o ih =>
    rw [run_snoc]
    exact ih.step o

-- Recovery

/- A hard probe failure, or a verdict that confirms a bad one. -/
def Fails (policy : Policy T) (p : Path T) (o : Observation T) : Prop :=
  o.kind policy = .hard ∨ (o.kind policy = .sample .bad ∧ policy.failSamples ≤ p.bad + 1)

/-
  Enough good samples came with nothing but ticks between
  them, the last of them not before `bound`.
-/
def Recovered (policy : Policy T) (bound : T) (after : List (Observation T)) : Prop :=
  ∃ earlier last later, after = earlier ++ [last] ++ later ∧
      Streak (isGood policy) (isTick policy) policy.recoverSamples (earlier ++ [last]) ∧
      isGood policy last = true ∧
      bound ≤ last.now

/- The path has not recovered since the failure. -/
structure Waiting (policy : Policy T) (bound : T) (p : Path T)
    (after : List (Observation T)) : Prop where
  needs : p.needsRecovery = true
  hold : bound ≤ p.holdUntil
  good : Streak (isGood policy) (isTick policy) p.good after

variable {policy : Policy T} {bound : T} {p : Path T}
variable {after : List (Observation T)}

theorem Recovered.snoc (h : Recovered policy bound after)
    (o : Observation T) : Recovered policy bound (after ++ [o]) := by
  rcases h with ⟨earlier, last, later, rfl, hStreak, hGood, hLate⟩
  exact ⟨earlier, last, later ++ [o], List.append_assoc _ _ _, hStreak, hGood, hLate⟩

theorem awake_frame (p : Path T) : p.awake.good = p.good ∧ p.awake.bad = p.bad ∧
      p.awake.holdUntil = p.holdUntil ∧
      p.awake.needsRecovery = p.needsRecovery := by
  unfold Path.awake
  split
  · split <;> exact ⟨rfl, rfl, rfl, rfl⟩
  · exact ⟨rfl, rfl, rfl, rfl⟩

theorem tick_frame (policy : Policy T) (now : T) (p : Path T) :
    (p.tick policy now).good = p.good ∧ (p.tick policy now).bad = p.bad ∧
      (p.tick policy now).holdUntil = p.holdUntil ∧
      (p.tick policy now).needsRecovery = p.needsRecovery ∧
      (p.tick policy now).state = p.state := by
  unfold Path.tick
  split <;> exact ⟨rfl, rfl, rfl, rfl, rfl⟩

theorem unconfirmed_frame (policy : Policy T) (now : T) (p : Path T) (reason : Reason) :
    (p.unconfirmed policy now reason).good = 0 ∧ (p.unconfirmed policy now reason).bad = 0 ∧
      (p.unconfirmed policy now reason).holdUntil = p.holdUntil ∧
      (p.unconfirmed policy now reason).needsRecovery = p.needsRecovery ∧
      (p.unconfirmed policy now reason).state = p.state := by
  unfold Path.unconfirmed
  split <;> exact ⟨rfl, rfl, rfl, rfl, rfl⟩

theorem Waiting.of_fails (p : Path T) {o : Observation T}
    (h : Fails policy p o) : Waiting policy (o.now + policy.holdSeconds) (p.step policy o) [] := by
  rw [step_eq]
  rcases h with hHard | ⟨hBad, hCount⟩
  · rw [hHard]
    exact ⟨rfl, le_max_right _ _, Streak.zero []⟩
  · rw [hBad]
    have hFrame := awake_frame { p with observedAt := some o.now }
    have hEnough : policy.failSamples ≤ min policy.failSamples
            ({ p with observedAt := some o.now }.awake.bad + 1) := by
      rw [hFrame.2.1]
      exact le_min (Nat.le_refl _) hCount
    dsimp only [Path.confirm]
    unfold Path.confirmedBad
    dsimp only
    rw [if_pos hEnough]
    exact ⟨rfl, le_max_right _ _, Streak.zero []⟩

theorem Waiting.step (h : Waiting policy bound p after) (o : Observation T) :
    Recovered policy bound (after ++ [o]) ∨ Waiting policy bound (p.step policy o) (after ++ [o]) := by
  have hFrame := awake_frame { p with observedAt := some o.now }
  generalize hAwake : { p with observedAt := some o.now }.awake = q at hFrame
  rcases hFrame with ⟨hGood, -, hHold, hNeeds⟩
  have hNeeds' : q.needsRecovery = true := hNeeds.trans h.needs
  have hHold' : bound ≤ q.holdUntil := by
    rw [hHold]
    exact h.hold
  rw [step_eq, hAwake]
  cases hKind : o.kind policy with
  | hard => exact .inr ⟨rfl, h.hold.trans (le_max_left _ _), Streak.zero _⟩
  | missing => exact .inr ⟨h.needs, h.hold, Streak.zero _⟩
  | tick =>
    rcases tick_frame policy o.now q with ⟨hG, -, hH, hN, -⟩
    refine .inr ⟨hN.trans hNeeds', ?_, ?_⟩
    · rw [hH]
      exact hHold'
    · rw [hG, hGood]
      exact h.good.keep (decide_eq_true hKind)
  | sample verdict =>
    cases verdict with
    | bad =>
      dsimp only [Path.confirm]
      unfold Path.confirmedBad
      dsimp only
      split
      · exact .inr ⟨rfl, hHold'.trans (le_max_left _ _), Streak.zero _⟩
      · exact .inr ⟨hNeeds', hHold', Streak.zero _⟩
    | good =>
      have hIsGood : isGood policy o = true := decide_eq_true hKind
      have hMore : Streak (isGood policy) (isTick policy) (min policy.recoverSamples (q.good + 1))
            (after ++ [o]) := by
        refine (h.good.count hIsGood).mono ?_
        rw [hGood]
        exact min_le_right _ _
      dsimp only [Path.confirm]
      unfold Path.confirmedGood
      dsimp only
      rw [if_pos hNeeds']
      split
      · rename_i hDone
        refine .inl ⟨after, o, [], (List.append_nil _).symm, hMore.mono hDone.2, hIsGood,
          hHold'.trans hDone.1⟩
      · exact .inr ⟨hNeeds', hHold', hMore⟩
    | unknown =>
      rcases unconfirmed_frame policy o.now q .uploadUnconfirmed with ⟨hG, -, hH, hN, -⟩
      refine .inr ⟨hN.trans hNeeds', ?_, ?_⟩
      · exact hHold'.trans_eq hH.symm
      · exact hG ▸ Streak.zero _
    | middle =>
      rcases unconfirmed_frame policy o.now q .uploadMiddle with ⟨hG, -, hH, hN, -⟩
      refine .inr ⟨hN.trans hNeeds', ?_, ?_⟩
      · exact hHold'.trans_eq hH.symm
      · exact hG ▸ Streak.zero _

/- By induction on what came after the failure. -/
theorem recovered_or_waiting (before : List (Observation T))
    {o : Observation T} (h : Fails policy (run policy before) o)
    (after : List (Observation T)) :
    Recovered policy (o.now + policy.holdSeconds) after ∨
      Waiting policy (o.now + policy.holdSeconds) (run policy (before ++ [o] ++ after)) after := by
  induction after using List.reverseRecOn with
  | nil =>
    right
    rw [List.append_nil, run_snoc]
    exact Waiting.of_fails _ h
  | append_singleton after x ih =>
    rw [← List.append_assoc, run_snoc]
    rcases ih with hDone | hWaiting
    · exact .inl (hDone.snoc x)
    · exact hWaiting.step x

theorem not_usable_of_waiting (h : Waiting policy bound p after) (now : T) : p.usable policy now = false := by
  unfold Path.usable
  rw [h.needs]
  simp

-- Bad Samples

theorem bad_streak (policy : Policy T)
    (history : List (Observation T)) : Streak (isBad policy) (isTick policy)
      (run policy history).bad history := by
  induction history using List.reverseRecOn with
  | nil => exact Streak.zero []
  | append_singleton history o ih =>
    rw [run_snoc, step_eq]
    have hFrame := awake_frame { run policy history with observedAt := some o.now }
    generalize hAwake :
      { run policy history with
        observedAt := some o.now }.awake = q at hFrame
    have hBad : q.bad = (run policy history).bad := hFrame.2.1
    cases hKind : o.kind policy with
    | hard => exact Streak.zero _
    | missing => exact Streak.zero _
    | tick =>
      dsimp only
      rw [(tick_frame policy o.now q).2.1, hBad]
      exact ih.keep (decide_eq_true hKind)
    | sample verdict =>
      cases verdict with
      | bad =>
        have hMore : Streak (isBad policy) (isTick policy) (min policy.failSamples (q.bad + 1))
              (history ++ [o]) := by
          refine (ih.count (decide_eq_true hKind)).mono ?_
          rw [hBad]
          exact min_le_right _ _
        dsimp only [Path.confirm]
        unfold Path.confirmedBad
        dsimp only
        split <;> exact hMore
      | good =>
        dsimp only [Path.confirm]
        unfold Path.confirmedGood
        dsimp only
        split
        · split <;> exact Streak.zero _
        · exact Streak.zero _
      | unknown =>
        dsimp only [Path.confirm]
        rw [(unconfirmed_frame policy o.now q _).2.1]
        exact Streak.zero _
      | middle =>
        dsimp only [Path.confirm]
        rw [(unconfirmed_frame policy o.now q _).2.1]
        exact Streak.zero _

theorem bad_of_degrades (hUp : p.state = .up) {o : Observation T}
    (hDegraded : (p.step policy o).state = .degraded) :
    policy.failSamples ≤ (p.step policy o).bad := by
  have hAwake : { p with observedAt := some o.now }.awake = { p with observedAt := some o.now } := by
    unfold Path.awake
    rw [if_neg]
    intro hUnknown
    exact PathState.noConfusion (hUp.symm.trans hUnknown)
  rw [step_eq, hAwake] at hDegraded ⊢
  cases hKind : o.kind policy with
  | hard =>
    rw [hKind] at hDegraded
    exact PathState.noConfusion hDegraded
  | missing =>
    rw [hKind] at hDegraded
    exact PathState.noConfusion hDegraded
  | tick =>
    rw [hKind] at hDegraded
    dsimp only at hDegraded
    rw [(tick_frame policy o.now _).2.2.2.2] at hDegraded
    exact PathState.noConfusion (hUp.symm.trans hDegraded)
  | sample verdict =>
    rw [hKind] at hDegraded
    cases verdict with
    | bad =>
      dsimp only [Path.confirm] at hDegraded ⊢
      unfold Path.confirmedBad at hDegraded ⊢
      dsimp only at hDegraded ⊢
      split at hDegraded
      · rename_i hEnough
        rw [if_pos hEnough]
        exact hEnough
      · exact PathState.noConfusion (hUp.symm.trans hDegraded)
    | good =>
      dsimp only [Path.confirm] at hDegraded
      unfold Path.confirmedGood at hDegraded
      dsimp only at hDegraded
      split at hDegraded
      · split at hDegraded
        · exact PathState.noConfusion hDegraded
        · exact PathState.noConfusion (hUp.symm.trans hDegraded)
      · exact PathState.noConfusion hDegraded
    | unknown =>
      dsimp only [Path.confirm] at hDegraded
      rw [(unconfirmed_frame policy o.now _ _).2.2.2.2] at hDegraded
      exact PathState.noConfusion (hUp.symm.trans hDegraded)
    | middle =>
      dsimp only [Path.confirm] at hDegraded
      rw [(unconfirmed_frame policy o.now _ _).2.2.2.2] at hDegraded
      exact PathState.noConfusion (hUp.symm.trans hDegraded)

-- The Law of a Path

/-
  In every run the state agrees with the flags, a path that
  has failed is not usable before it has recovered, and a path
  that degrades from `UP` has two bad samples or more behind
  it, with nothing but ticks between them.
-/
theorem path_law (policy : Policy T) (history : List (Observation T)) :
    StateLaw (run policy history) ∧ (∀ before o after, history = before ++ [o] ++ after →
        Fails policy (run policy before) o →
        ∀ now, (run policy history).usable policy now = true →
          Recovered policy (o.now + policy.holdSeconds) after) ∧
      (∀ before o, history = before ++ [o] → (run policy before).state = .up →
        (run policy history).state = .degraded → 2 ≤ policy.failSamples ∧
            Streak (isBad policy) (isTick policy) policy.failSamples history) := by
  refine ⟨stateLaw_run policy history, ?_, ?_⟩
  · rintro before o after rfl hFails now hUsable
    rcases recovered_or_waiting before hFails after with
      hDone | hWaiting
    · exact hDone
    · rw [not_usable_of_waiting hWaiting now] at hUsable
      exact Bool.noConfusion hUsable
  · rintro before o rfl hUp hDegraded
    have hStreak := bad_streak policy (before ++ [o])
    rw [run_snoc] at hDegraded hStreak
    exact ⟨policy.failSamples_range.1, hStreak.mono (bad_of_degrades hUp hDegraded)⟩

theorem twoSamples : 2 ≤ 2 ∧ 2 ≤ 10 := by decide

theorem threeSamples : 2 ≤ 3 ∧ 3 ≤ 10 := by decide

def dailyPolicy : Policy ℚ where
  failMbps := 2
  recoverMbps := 5
  failSamples := 2
  recoverSamples := 3
  holdSeconds := 120
  freshnessSeconds := 90
  failMbps_range := by decide +kernel
  recoverMbps_range := by decide +kernel
  failMbps_lt := by decide
  failSamples_range := twoSamples
  recoverSamples_range := threeSamples
  holdSeconds_range := by decide
  freshnessSeconds_range := by decide

/- An observation of a reachable path with a throughput. -/
def measured (now mbps : ℚ) : Observation ℚ := ⟨now, some true, some ⟨.number mbps, .bool false, .bool true⟩⟩

/- The probe fails at 0; good samples follow at 60, 120, 130. -/
theorem path_law_downThenGood : Recovered dailyPolicy (0 + 120)
        [measured 60 8, measured 120 8, measured 130 8] ∧
      Streak (isBad dailyPolicy) (isTick dailyPolicy) 2 [measured 0 8, measured 10 1, measured 20 1] :=
  ⟨(path_law dailyPolicy [⟨0, some false, none⟩, measured 60 8, measured 120 8,
        measured 130 8]).2.1 [] ⟨0, some false, none⟩ _ rfl
      (.inl rfl) 130 (by decide +kernel),
    ((path_law dailyPolicy [measured 0 8, measured 10 1, measured 20 1]).2.2
      [measured 0 8, measured 10 1] (measured 20 1) rfl
      (by decide) (by decide)).2⟩

end SingboxOps.QualityFailover
