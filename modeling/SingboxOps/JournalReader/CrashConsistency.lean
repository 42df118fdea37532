import SingboxOps.JournalReader.Recovery

/-
  Crash consistency of the journal reader, and the boundaries
  its exchange files carry.
-/

namespace SingboxOps.JournalReader

open JournalIngest (Boundary)

variable {m : Machine} {c : Committed}

-- Runs

instance (m : Machine) : (e : Event) → Decidable (Orderly m e)
  | .startup _ =>
    decidable_of_iff (evaluateRecovery m = .finishCommit → ∀ c ∈ m.committed,
          (m.cell (c.seq + 1)).durable = (m.cell (c.seq + 1)).visible)
      (by simp only [Orderly, Option.mem_def])
  | .poll _ _ =>
    decidable_of_iff (∀ c ∈ m.committed, c.seq + 1 < Machine.nameLimit)
      (by simp only [Orderly, Option.mem_def])
  | .proceed => isTrue True.intro
  | .evict _ => isTrue True.intro
  | .syncOut => isTrue True.intro
  | .reset _ => isTrue True.intro
  | .die => isTrue True.intro
  | .powerLoss _ => isTrue True.intro

/- Every event of a run is orderly. -/
def orderlyRun (m : Machine) : List Event → Bool
  | [] => true
  | e :: rest => decide (Orderly m e) && orderlyRun (step m e).2 rest

theorem reachable_of_orderlyRun {es : List Event} (hReach : OrderlyReachable m)
    (h : orderlyRun m es = true) : OrderlyReachable (finalState step m es) := by
  induction es generalizing m with
  | nil => exact hReach
  | cons e rest ih =>
    rw [orderlyRun, Bool.and_eq_true, decide_eq_true_eq] at h
    exact ih (hReach.step_of e h.1) h.2

-- Crash Consistency

/-
  Between any two steps: every range between two successive
  committed cursors is in the one durable file of its number,
  the numbers are consecutive from 1, and the ranges follow
  each other unless a file says that there is a gap.
-/
structure CrashConsistent (m : Machine) : Prop where
  inactive : m.committed = none → m.commits = [] ∧ ∀ n, m.exported n = none
  count : ∀ c, m.committed = some c → m.commits.length = c.seq
  exportedOnce : ∀ c, m.committed = some c → ∀ n, 1 ≤ n → n ≤ c.seq →
      ∃ f, m.exported n = some f ∧ f.seq = n ∧ m.commits[n - 1]? = some (f.start, f.stop)
  consecutive : ∀ c, m.committed = some c → ∀ n f, m.exported n = some f → 1 ≤ n ∧ n ≤ c.seq + 1
  adjacent : ∀ n f g, m.exported n = some g →
      m.exported (n + 1) = some f → f.boundary = .none → f.start = .cursor g.stop
  cursor : ∀ c, m.committed = some c → c.boundary = .none →
      ∃ f, m.exported c.seq = some f ∧ c.source = .cursor f.stop
  unobserved : ∀ p start, m.phase = .writing p start → p.seq ∉ m.observed
  kept : ∀ e, ∀ n ∈ m.observed, (step m e).2.exported n = m.exported n
  starts :
    m.phase = .down → ∀ anchor, (step m (.startup anchor)).1 ≠ .failClosed

theorem exported_step (m : Machine) (e : Event) : (step m e).2.exported = m.exported ∨
      ∃ keep, (step m e).2.exported = (settleOut m keep).exported := by
  cases e with
  | startup anchor =>
    left
    simp only [step]
    split
    · unfold startup
      simp only
      split <;> rfl
    · rfl
  | poll run stop =>
    left
    simp only [step]
    split
    · unfold poll
      split <;> rfl
    · rfl
  | proceed =>
    simp only [step]
    unfold proceed
    split
    · exact Or.inl rfl
    · exact Or.inl rfl
    · exact Or.inl rfl
    · exact Or.inl rfl
    · exact Or.inr ⟨_, rfl⟩
    · exact Or.inl rfl
    · exact Or.inl rfl
    · exact Or.inl rfl
    · exact Or.inl rfl
  | evict n =>
    left
    simp only [step]
    split <;> rfl
  | syncOut =>
    simp only [step]
    split
    · exact Or.inr ⟨_, rfl⟩
    · exact Or.inl rfl
  | reset anchor =>
    left
    simp only [step]
    split
    · unfold resetFromNow
      split
      · rfl
      · split <;> rfl
    · rfl
  | die => exact Or.inl rfl
  | powerLoss keep => exact Or.inr ⟨keep, rfl⟩

theorem kept_of_inv (hInv : Inv m) (e : Event) {n : ℕ}
    (hn : n ∈ m.observed) : (step m e).2.exported n = m.exported n := by
  rcases exported_step m e with hSame | ⟨keep, hSettled⟩
  · rw [hSame]
  · rw [hSettled]
    cases hCommitted : m.committed with
    | none =>
      unfold Inv at hInv
      rw [hCommitted] at hInv
      rw [hInv.observed] at hn
      cases hn
    | some c =>
      rcases (inv_some hCommitted).mp hInv with ⟨h, _, hSeen⟩
      exact exported_settleOut h keep (hSeen n hn)

theorem startup_not_failClosed (hInv : Inv m) (hDown : m.phase = .down)
    (anchor : Source) : (step m (.startup anchor)).1 ≠ .failClosed := by
  have hAction : evaluateRecovery m ≠ .failClosed := by
    cases hCommitted : m.committed with
    | none =>
      unfold Inv at hInv
      rw [hCommitted] at hInv
      have hSeqs : m.durableEvSeqs = [] := by
        apply List.eq_nil_iff_forall_not_mem.mpr
        intro n hn
        rcases Option.isSome_iff_exists.mp (mem_durableEvSeqs.mp hn).2 with ⟨f, hf⟩
        exact hInv.cell n f (Or.inl hf)
      unfold evaluateRecovery
      simp [hCommitted, hInv.pending, hSeqs]
    | some c =>
      have h := ((inv_some hCommitted).mp hInv).1
      rcases recovery_cases h hCommitted with ⟨_, hStart⟩ | ⟨p, _, _, hRepoll⟩ | ⟨p, _, _, _, hFinish⟩
      · rw [hStart]
        decide
      · rw [hRepoll]
        decide
      · rw [hFinish]
        decide
  simp only [step, if_pos hDown]
  have hSame : evaluateRecovery { m with observed := m.observed ++ m.durableEvSeqs } =
        evaluateRecovery m := rfl
  unfold startup
  simp only [hSame]
  split
  · rename_i hFail
    exact absurd hFail hAction
  · exact Outcome.noConfusion
  · exact Outcome.noConfusion
  · exact Outcome.noConfusion
  · exact Outcome.noConfusion

/-
  Every orderly run is crash consistent, whatever journalctl
  prints and wherever it crashes.
-/
theorem crash_consistent (hReach : OrderlyReachable m) : CrashConsistent m := by
  have hInv := inv_reachable hReach
  have hGood : ∀ c, m.committed = some c → Good m.view c := fun c hc => ((inv_some hc).mp hInv).1
  have hBlank : m.committed = none → Blank m := by
    intro hc
    unfold Inv at hInv
    rw [hc] at hInv
    exact hInv
  exact
    { inactive := fun hc =>
        ⟨(hBlank hc).commits, (hBlank hc).exported⟩
      count := fun c hc => (hGood c hc).length
      exportedOnce := by
        intro c hc n h1 hn
        have h := hGood c hc
        rcases Option.isSome_iff_exists.mp (h.all n h1 hn) with ⟨f, hf⟩
        exact ⟨f, hf, (h.numbered n f hf).2.2, h.ranges n f hf hn⟩
      consecutive := by
        intro c hc n f hf
        have hBound := (hGood c hc).numbered n f hf
        exact ⟨hBound.1, hBound.2.1⟩
      adjacent := by
        intro n f g hg hf
        cases hc : m.committed with
        | none =>
          rw [(hBlank hc).exported] at hg
          cases hg
        | some c => exact (hGood c hc).chain n f g hg hf
      cursor := fun c hc => (hGood c hc).source
      unobserved := by
        intro p start hPhase hIn
        cases hc : m.committed with
        | none =>
          rw [(hBlank hc).observed] at hIn
          cases hIn
        | some c =>
          rcases (inv_some hc).mp hInv with ⟨h, hAt, hSeen⟩
          rw [hPhase] at hAt
          rcases hAt with ⟨_, hFresh, hClear, _⟩
          have hSeq := hFresh.seq
          have hNone := h.not_exported hClear
          change m.exported (c.seq + 1) = none at hNone
          rcases hSeen p.seq hIn with hOld | ⟨_, hSome⟩
          · omega
          · rw [hNone] at hSome
            cases hSome
      kept := fun e n hn => kept_of_inv hInv e hn
      starts := fun hDown anchor => startup_not_failClosed hInv hDown anchor }

-- A Commit of a File That Was Not Synced

/- A whole cycle, then a crash before its commit, finished. -/
def cycleAndCrash : List Event := [.startup (.since (pyStr "2026-09-22 10:00:00")), .proceed,
    .poll (pyStr "r") (pyStr "c1"), .proceed, .proceed,
    .proceed, .proceed, .poll (pyStr "r") (pyStr "c2"), .proceed,
    .proceed, .die, .startup (.cursor (pyStr "c0")), .proceed,
    .proceed]

theorem crash_consistent_cycleAndCrash : CrashConsistent (finalState step Machine.fresh cycleAndCrash) :=
  crash_consistent (reachable_of_orderlyRun Reachable.refl (by decide))

/-
  The process ends between the rename and the sync, the next
  one finishes the commit, and then the machine goes down.
-/
def unsyncedCommit : List Event := [.startup (.since (pyStr "2026-09-22 10:00:00")), .proceed,
    .poll (pyStr "r") (pyStr "c1"), .proceed, .die,
    .startup (.cursor (pyStr "c0")), .proceed,
    .powerLoss (fun _ => false)]

/- The cursor has passed a range that is in no file. -/
theorem unsyncedCommit_loses : ¬ ∀ m, Reachable step (fun _ _ => True) Machine.fresh m →
      CrashConsistent m := by
  intro hAll
  have hRun := hAll (finalState step Machine.fresh unsyncedCommit)
    ⟨_, trace_history step Machine.fresh unsyncedCommit⟩
  have hCommitted : (finalState step Machine.fresh unsyncedCommit).committed =
        some ⟨1, 1, .none, .cursor (pyStr "c1")⟩ := by
    decide
  rcases hRun.exportedOnce _ hCommitted 1 (le_refl _) (le_refl _) with ⟨f, hf, _⟩
  have hNone : (finalState step Machine.fresh unsyncedCommit).exported 1 = none := by
    decide
  rw [hNone] at hf
  cases hf

-- Boundaries

/- The boundary of an epoch. -/
def epochBoundary (epoch : ℕ) : Boundary := if epoch = 1 then .coldStart else .sourceGap

/-
  Among the durable files the first one of an epoch carries the
  boundary of the epoch and every other one carries none; the
  epochs never decrease, only a reset increases them, and the
  next file has the epoch and the boundary of the last one.
-/
structure BoundariesOnce (m : Machine) : Prop where
  nondecreasing : ∀ n k f g, k ≤ n → m.exported n = some f → m.exported k = some g → g.epoch ≤ f.epoch
  first : ∀ n f, m.exported n = some f → (∀ k g, k < n → m.exported k = some g → g.epoch ≠ f.epoch) →
        f.boundary = epochBoundary f.epoch
  other : ∀ n f k g, m.exported n = some f → k < n →
      m.exported k = some g → g.epoch = f.epoch → f.boundary = .none
  onlyReset : ∀ e c c', m.committed = some c → (step m e).2.committed = some c' →
        c'.epoch = c.epoch ∨ c'.epoch = c.epoch + 1 ∧ c'.boundary = .sourceGap ∧
            e = .proceed ∧ ∃ anchor, m.phase = .resetting anchor
  last : ∀ p start, m.phase = .writing p start →
      ∃ c, m.committed = some c ∧ p.epoch = c.epoch ∧ p.boundary = c.boundary

theorem Good.exported_before {v : View} (h : Good v c)
    {n k : ℕ} {f : File} (hf : v.exported n = some f) (h1 : 1 ≤ k)
    (hk : k < n) : ∃ g, v.exported k = some g := by
  have hBound := (h.numbered n f hf).2.1
  exact Option.isSome_iff_exists.mp (h.all k h1 (by omega))

theorem Good.epoch_mono {v : View} (h : Good v c)
    {n k : ℕ} {f g : File} (hk : k ≤ n) (hf : v.exported n = some f)
    (hg : v.exported k = some g) : g.epoch ≤ f.epoch := by
  induction n generalizing f with
  | zero =>
    have hBound := (h.numbered 0 f hf).1
    omega
  | succ n ih =>
    rcases Nat.lt_or_ge k (n + 1) with hLess | hMore
    · have h1 := (h.numbered k g hg).1
      rcases h.exported_before hf (by omega : 1 ≤ n)
        (Nat.lt_succ_self n) with ⟨f', hf'⟩
      have hStep := (h.marked (n + 1) f hf).2.2 f'.epoch (by
        rw [Nat.add_sub_cancel, View.epochAt, hf']
        rfl)
      exact (ih (by omega) hf').trans hStep
    · have hEq : k = n + 1 := by omega
      subst hEq
      rw [hf] at hg
      cases hg
      exact le_refl _

/- A file's boundary is told by the file before it. -/
theorem Good.boundary_after {v : View} (h : Good v c) {n : ℕ} {f g : File} (hf : v.exported (n + 1) = some f)
    (hg : v.exported n = some g) :
    f.boundary = if g.epoch = f.epoch then .none else .sourceGap := by
  have hMark := (h.marked (n + 1) f hf).2.1
  rw [Nat.add_sub_cancel, View.epochAt, hg] at hMark
  exact hMark

theorem good_first {v : View} (h : Good v c) {n : ℕ} {f : File} (hf : v.exported n = some f)
    (hFirst : ∀ k g, k < n → v.exported k = some g → g.epoch ≠ f.epoch) :
    f.boundary = epochBoundary f.epoch := by
  have h1 := (h.numbered n f hf).1
  obtain ⟨n, rfl⟩ : ∃ k, n = k + 1 := ⟨n - 1, by omega⟩
  cases hBefore : v.exported n with
  | none =>
    have hZero : n = 0 := by
      by_contra hNe
      rcases h.exported_before hf (by omega : 1 ≤ n)
        (Nat.lt_succ_self n) with ⟨g, hg⟩
      rw [hBefore] at hg
      cases hg
    subst hZero
    have hMark := (h.marked 1 f hf).2.1
    rw [View.epochAt, hBefore] at hMark
    exact hMark
  | some g =>
    have hNe := hFirst n g (Nat.lt_succ_self n) hBefore
    have hLe := h.epoch_mono (Nat.le_succ n) hf hBefore
    have hPos := (h.marked n g hBefore).1
    rw [h.boundary_after hf hBefore, if_neg hNe, epochBoundary, if_neg (by omega)]

theorem good_other {v : View} (h : Good v c) {n k : ℕ} {f g : File} (hf : v.exported n = some f) (hk : k < n)
    (hg : v.exported k = some g)
    (hEpoch : g.epoch = f.epoch) : f.boundary = .none := by
  have h1 := (h.numbered k g hg).1
  obtain ⟨n, rfl⟩ : ∃ k, n = k + 1 := ⟨n - 1, by omega⟩
  rcases h.exported_before hf (by omega : 1 ≤ n)
    (Nat.lt_succ_self n) with ⟨g', hg'⟩
  have hLow := h.epoch_mono (by omega : k ≤ n) hg' hg
  have hHigh := h.epoch_mono (Nat.le_succ n) hf hg'
  rw [h.boundary_after hf hg', if_pos (by omega)]

theorem epoch_step (hCommitted : m.committed = some c) (hAt : At m c m.phase) (e : Event) {c' : Committed}
    (hAfter : (step m e).2.committed = some c') :
    c'.epoch = c.epoch ∨ c'.epoch = c.epoch + 1 ∧ c'.boundary = .sourceGap ∧
        e = .proceed ∧ ∃ anchor, m.phase = .resetting anchor := by
  have hSame : (step m e).2.committed = m.committed → c'.epoch = c.epoch := by
    intro hEq
    rw [hEq, hCommitted] at hAfter
    cases hAfter
    rfl
  cases e with
  | startup anchor =>
    left
    apply hSame
    simp only [step]
    split
    · unfold startup
      simp only
      split <;> rfl
    · rfl
  | poll run stop =>
    left
    apply hSame
    simp only [step]
    split
    · unfold poll
      split <;> rfl
    · rfl
  | proceed =>
    simp only [step] at hAfter hSame
    unfold proceed at hAfter hSame
    cases hPhase : m.phase with
    | activating anchor =>
      rw [hPhase] at hAt
      exact hAt.elim
    | recovering p =>
      rw [hPhase] at hAt hAfter
      cases hAfter
      exact Or.inl hAt.2.1.epoch
    | synced p =>
      rw [hPhase] at hAt hAfter
      cases hAfter
      exact Or.inl hAt.2.1.epoch
    | resetting anchor =>
      rw [hPhase] at hAfter
      simp only [hCommitted, Option.map_some] at hAfter
      cases hAfter
      exact Or.inr ⟨rfl, rfl, rfl, anchor, rfl⟩
    | down =>
      rw [hPhase] at hSame
      exact Or.inl (hSame rfl)
    | up =>
      rw [hPhase] at hSame
      exact Or.inl (hSame rfl)
    | unlinking =>
      rw [hPhase] at hSame
      exact Or.inl (hSame rfl)
    | resetUnlinking anchor =>
      rw [hPhase] at hSame
      exact Or.inl (hSame rfl)
    | writing p start =>
      rw [hPhase] at hSame
      exact Or.inl (hSame rfl)
    | renamed p =>
      rw [hPhase] at hSame
      exact Or.inl (hSame rfl)
  | evict n =>
    left
    apply hSame
    simp only [step]
    split <;> rfl
  | syncOut =>
    left
    apply hSame
    simp only [step]
    split <;> rfl
  | reset anchor =>
    left
    apply hSame
    simp only [step]
    split
    · unfold resetFromNow
      split
      · rfl
      · split <;> rfl
    · rfl
  | die => exact Or.inl (hSame rfl)
  | powerLoss keep => exact Or.inl (hSame rfl)

/- Every orderly run marks each source boundary once. -/
theorem boundaries_once (hReach : OrderlyReachable m) : BoundariesOnce m := by
  have hInv := inv_reachable hReach
  cases hc : m.committed with
  | none =>
    have hBlank : Blank m := by
      unfold Inv at hInv
      rw [hc] at hInv
      exact hInv
    have hAbsurd : ∀ {n f}, m.exported n = some f → False := by
      intro n f hf
      rw [hBlank.exported] at hf
      cases hf
    exact
      { nondecreasing := fun n k f g _ hf =>
          (hAbsurd hf).elim
        first := fun n f hf => (hAbsurd hf).elim
        other := fun n f k g hf => (hAbsurd hf).elim
        onlyReset := by
          intro e c c' hBefore
          rw [hc] at hBefore
          cases hBefore
        last := by
          intro p start hPhase
          rcases hBlank.phase with hDown | ⟨a, hActivating⟩
          · rw [hPhase] at hDown
            cases hDown
          · rw [hPhase] at hActivating
            cases hActivating }
  | some c =>
    rcases (inv_some hc).mp hInv with ⟨h, hAt, _⟩
    exact
      { nondecreasing := fun n k f g hk hf hg =>
          h.epoch_mono hk hf hg
        first := fun n f hf => good_first h hf
        other := fun n f k g hf hk hg => good_other h hf hk hg
        onlyReset := by
          intro e c₁ c' hBefore hAfter
          rw [hc] at hBefore
          cases hBefore
          exact epoch_step hc hAt e hAfter
        last := by
          intro p start hPhase
          rw [hPhase] at hAt
          exact ⟨c, hc, hAt.2.1.epoch, hAt.2.1.boundary⟩ }

theorem boundaries_once_cycleAndCrash : BoundariesOnce (finalState step Machine.fresh cycleAndCrash) :=
  boundaries_once (reachable_of_orderlyRun Reachable.refl (by decide))

/- After an unsynced commit the next file marks nothing. -/
def unmarkedEpoch : List Event := unsyncedCommit ++ [.startup (.cursor (pyStr "c0")), .proceed,
      .poll (pyStr "r") (pyStr "c2"), .proceed, .proceed]

/- The first durable file of the epoch carries no boundary. -/
theorem unmarkedEpoch_first : ¬ ∀ m, Reachable step (fun _ _ => True) Machine.fresh m →
      BoundariesOnce m := by
  intro hAll
  have hRun := hAll (finalState step Machine.fresh unmarkedEpoch)
    ⟨_, trace_history step Machine.fresh unmarkedEpoch⟩
  have hFile : (finalState step Machine.fresh unmarkedEpoch).exported 2 =
        some ⟨pyStr "r", 2, 1, .none, .cursor (pyStr "c1"), pyStr "c2"⟩ := by
    decide
  have hZero : (finalState step Machine.fresh unmarkedEpoch).exported 0 = none := by
    decide
  have hOne : (finalState step Machine.fresh unmarkedEpoch).exported 1 = none := by
    decide
  have hBoundary := hRun.first 2 _ hFile (by
    intro k g hk hg
    have hCases : k = 0 ∨ k = 1 := by omega
    rcases hCases with rfl | rfl
    · rw [hZero] at hg
      cases hg
    · rw [hOne] at hg
      cases hg)
  cases hBoundary

end SingboxOps.JournalReader
