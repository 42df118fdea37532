import SingboxOps.RemoteStore.Cases
import SingboxOps.Lib.Trace

/-
  Exactly-once acceptance under a clock that never goes back.

  Every accepted attempt is *settled*: either its receipt and
  a run that active is still stored, or its sample epoch has
  left the window a new sample must lie in.  A receipt only
  goes with its run, thirty days after the last activity, and
  by then the second case holds.
-/

namespace SingboxOps.RemoteStore

open PyFloat

variable {F H : Type} [PyFloat F]

-- Settled Attempts

/-
  The receipt of an attempt is stored and every row of its
  run was active no earlier than the attempt.
-/
def Retained (a : Attempt F) (t : Tables F H) : Prop :=
  (∃ p ∈ t.receipts, p.key = (a.probeId, a.run, a.seq)) ∧
    ∀ r ∈ t.runs, r.key = (a.probeId, a.run) → toRat a.now ≤ toRat r.lastActivityEpoch

/- At `now` an epoch is too old for a new sample. -/
def OutOfWindow (now : F) (epoch : ℚ) : Prop := epoch < toRat (sub now newSampleMaxAge)

/-
  An expired run was inactive for thirty days; a sample it
  accepted was at most five minutes ahead of that activity,
  so it is older than seven and a half days.
-/
theorem outOfWindow_of_expired {accepted active now : F} {epoch : ℚ}
    (hEpoch : epoch ≤ toRat (add accepted futureSkewSeconds))
    (hActive : toRat accepted ≤ toRat active)
    (hExpired : toRat active < toRat (sub now runLifetimeSeconds)) :
    OutOfWindow now epoch := by
  have hLate : toRat accepted < toRat now - runLifetimeSeconds :=
    lt_of_lt_sub (lt_of_le_of_lt hActive hExpired)
  have hGap : toRat (add accepted futureSkewSeconds) < toRat (sub now newSampleMaxAge) := by
    apply add_lt_sub _ _ _ hLate
    · norm_num [futureSkewSeconds]
    · norm_num [newSampleMaxAge, maxAgeSeconds]
    · norm_num [futureSkewSeconds, newSampleMaxAge, maxAgeSeconds, runLifetimeSeconds]
  exact lt_of_le_of_lt hEpoch hGap

/- A prune keeps a receipt or finds its epoch out of window. -/
theorem retained_prune {a : Attempt F} {t : Tables F H} {epoch : ℚ}
    (hEpoch : epoch ≤ toRat (add a.now futureSkewSeconds))
    (hRetained : Retained a t) (lim : Limits) (now : F)
    (prospective : ℤ) :
    Retained a (prune lim now prospective t).1 ∨ OutOfWindow now epoch := by
  rcases hRetained with ⟨⟨p, hp, hKey⟩, hActive⟩
  by_cases hSome : ∃ r ∈ t.runs, r.key = (a.probeId, a.run) ∧ Expired now r
  · right
    rcases hSome with ⟨r, hr, hRun, hExpired⟩
    exact outOfWindow_of_expired hEpoch (hActive r hr hRun) hExpired
  · left
    push Not at hSome
    refine ⟨⟨p, ?_, hKey⟩, ?_⟩
    · refine mem_prune_receipts.mpr ⟨hp, ?_⟩
      intro r hr hRun
      apply hSome r hr
      rw [hRun]
      simp only [ReceiptRow.key, Prod.mk.injEq] at hKey
      simp [ReceiptRow.runKey, hKey.1, hKey.2.1]
    · intro r hr hRun
      exact hActive r (mem_prune_runs.mp hr).1 hRun

theorem retained_touched {a b : Attempt F} {t t' : Tables F H} (hRetained : Retained a t)
    (hTouched : Touched b t t') : Retained a t' := by
  rcases hTouched with rfl | rfl
  · exact hRetained
  · refine ⟨hRetained.1, ?_⟩
    intro r hr hRun
    rcases exists_of_mem_activity hr with ⟨r₀, hMem, hKey, _, _, _, hLe⟩
    exact le_trans (hRetained.2 r₀ hMem (hKey.symm.trans hRun)) hLe

/-
  The rows an admission writes keep an earlier receipt: a new
  or refreshed run row is active at the later attempt.
-/
theorem retained_admittedRuns {a b : Attempt F} {runs : List (RunRow F)} {epoch : F}
    (newRun : Bool) (hClock : toRat a.now ≤ toRat b.now)
    (hActive : ∀ r ∈ runs, r.key = (a.probeId, a.run) → toRat a.now ≤ toRat r.lastActivityEpoch) :
    ∀ r ∈ admittedRuns b epoch (runs ++ (if newRun then [⟨b.probeId, b.run, b.seq, epoch, b.now, b.now⟩]
        else [])),
      r.key = (a.probeId, a.run) → toRat a.now ≤ toRat r.lastActivityEpoch := by
  have hBefore : ∀ r ∈ runs ++ (if newRun then
            [⟨b.probeId, b.run, b.seq, epoch, b.now, b.now⟩]
          else []),
        r.key = (a.probeId, a.run) → toRat a.now ≤ toRat r.lastActivityEpoch := by
    intro r hr hRun
    rcases List.mem_append.mp hr with hOld | hNew
    · exact hActive r hOld hRun
    · split_ifs at hNew
      · rw [List.mem_singleton.mp hNew]
        exact hClock
      · cases hNew
  intro r hr hRun
  rcases List.mem_map.mp hr with ⟨r₀, hMem, rfl⟩
  split_ifs at hRun ⊢ with hKey
  · exact le_trans hClock (le_maxReal_right _ _)
  · exact hBefore r₀ hMem hRun

/- An attempt that was admitted is retained by the admission. -/
theorem retained_of_admitted [DecidableEq H] {lim : Limits} {sha256 : Bytes → H} {engine : Engine}
    {a : Attempt F} {epoch : ℚ} {t t' : Tables F H}
    (hAdmitted : Admitted lim sha256 engine a epoch t t') : Retained a t' := by
  rcases hAdmitted.inserted with ⟨n, hAdmit⟩
  rcases savepoint_ok hAdmit with ⟨stored, t₁, _, _, _, _, _, _, _, _, rfl⟩
  have hRuns : ∀ r ∈ admittedRuns a stored (t₁.runs ++ (if (t.runs.find? (fun r =>
              r.key == (a.probeId, a.run))).isNone then
            [⟨a.probeId, a.run, a.seq, stored, a.now, a.now⟩]
          else [])),
        r.key = (a.probeId, a.run) → toRat a.now ≤ toRat r.lastActivityEpoch := by
    intro r hr hRun
    rcases List.mem_map.mp hr with ⟨r₀, _, rfl⟩
    split_ifs at hRun ⊢ with hKey
    · exact le_maxReal_right _ _
    · exact absurd hRun hKey
  refine ⟨⟨_, mem_prune_receipts.mpr ⟨List.mem_append_right _ (List.mem_singleton_self _), ?_⟩, rfl⟩, ?_⟩
  · intro r hr hRun hExpired
    have hLe := hRuns r hr hRun
    have hLt := lt_of_le_of_lt hLe hExpired
    have hSub : toRat (sub a.now runLifetimeSeconds) ≤
        toRat a.now :=
      sub_le_self (by norm_num [runLifetimeSeconds])
    exact absurd hLt (not_lt.mpr hSub)
  · intro r hr hRun
    exact hRuns r (mem_prune_runs.mp hr).1 hRun

/- An admission keeps or outdates what was retained before. -/
theorem retained_admit [DecidableEq H] {lim : Limits} {sha256 : Bytes → H} {engine : Engine}
    {a b : Attempt F} {epoch later : ℚ} {t t' : Tables F H}
    (hEpoch : epoch ≤ toRat (add a.now futureSkewSeconds))
    (hClock : toRat a.now ≤ toRat b.now) (hAdmitted : Admitted lim sha256 engine b later t t')
    (hRetained : Retained a t) : Retained a t' ∨ OutOfWindow b.now epoch := by
  rcases hAdmitted.inserted with ⟨n, hAdmit⟩
  rcases savepoint_ok hAdmit with ⟨stored, t₁, _, rfl, _, _, _, _, _, _, rfl⟩
  rcases retained_prune hEpoch hRetained lim b.now (b.body.length + sampleRowCharge) with hFirst | hOut
  · apply retained_prune hEpoch _ lim b.now 0
    refine ⟨?_, ?_⟩
    · rcases hFirst.1 with ⟨p, hp, hKey⟩
      exact ⟨p, List.mem_append_left _ hp, hKey⟩
    · exact retained_admittedRuns _ hClock hFirst.2
  · exact Or.inr hOut

-- Histories

/- An entry of the history that reports an acceptance. -/
def acceptedAttempt? : Call F × Answer → Option (Attempt F)
  | (.accept a _, .ok (some .accepted)) => some a
  | _ => none

/-
  The quadruple of an attempt; epochs are compared as
  numbers, so that `5` and `5.0` are the same one.
-/
def Attempt.quadruple (a : Attempt F) : PyStr × PyStr × ℤ × Option ℚ :=
  (a.probeId, a.run, a.seq, a.sampleEpoch.value?)

/- The quadruples that got the verdict `accepted`, in order. -/
def acceptedQuadruples (h : List (Call F × Answer)) : List (PyStr × PyStr × ℤ × Option ℚ) :=
  (h.filterMap acceptedAttempt?).map Attempt.quadruple

/-
  An accepted attempt can not be accepted again: its receipt
  answers, or a call of the history was already too late.
-/
def Settled (h : List (Call F × Answer)) (t : Tables F H) (a : Attempt F) : Prop :=
  ∃ epoch, a.sampleEpoch.value? = some epoch ∧ epoch ≤ toRat (add a.now futureSkewSeconds) ∧
    (Retained a t ∨ ∃ x ∈ h, OutOfWindow x.1.now epoch)

theorem settled_mono {h h' : List (Call F × Answer)} {t t' : Tables F H} {a : Attempt F}
    {now : F} (hSettled : Settled h t a) (hSub : ∀ x ∈ h, x ∈ h')
    (hNow : ∃ x ∈ h', x.1.now = now)
    (hStep : ∀ epoch, epoch ≤ toRat (add a.now futureSkewSeconds) → Retained a t →
        Retained a t' ∨ OutOfWindow now epoch) :
    Settled h' t' a := by
  rcases hSettled with ⟨epoch, hValue, hEpoch, hCase⟩
  refine ⟨epoch, hValue, hEpoch, ?_⟩
  rcases hCase with hRetained | ⟨x, hx, hOut⟩
  · rcases hStep epoch hEpoch hRetained with hKeep | hOut
    · exact Or.inl hKeep
    · right
      rcases hNow with ⟨x, hx, rfl⟩
      exact ⟨x, hx, hOut⟩
  · exact Or.inr ⟨x, hSub x hx, hOut⟩

theorem retained_accept [DecidableEq H] {lim : Limits} {sha256 : Bytes → H} {engine : Engine}
    {a b : Attempt F} {s : Store F H} {epoch : ℚ} (hClock : toRat a.now ≤ toRat b.now)
    (hEpoch : epoch ≤ toRat (add a.now futureSkewSeconds))
    (hRetained : Retained a s.tables) :
    Retained a (accept lim sha256 engine b s).2.tables ∨ OutOfWindow b.now epoch := by
  have hPruned := retained_prune hEpoch hRetained lim b.now 0
  rcases accept_cases lim sha256 engine b s with
    ⟨_, _, later, hAdmitted⟩ | ⟨_, _, hTouched⟩ | ⟨hTouched, _⟩
  · rcases hPruned with hKeep | hOut
    · exact retained_admit hEpoch hClock hAdmitted hKeep
    · exact Or.inr hOut
  · rcases hPruned with hKeep | hOut
    · exact Or.inl (retained_touched hKeep hTouched)
    · exact Or.inr hOut
  · exact Or.inl (retained_touched hRetained hTouched)

theorem retained_enforceRetention {lim : Limits} {fault : Option Fault} {now : F} {a : Attempt F}
    {s : Store F H} {epoch : ℚ} (hEpoch : epoch ≤ toRat (add a.now futureSkewSeconds))
    (hRetained : Retained a s.tables) :
    Retained a (enforceRetention lim fault now s).2.tables ∨ OutOfWindow now epoch := by
  unfold enforceRetention transaction
  cases fault with
  | none => simpa using retained_prune hEpoch hRetained lim now 0
  | some f => cases f <;> exact Or.inl hRetained

theorem not_accepted_of_settled [DecidableEq H] {lim : Limits} {sha256 : Bytes → H} {engine : Engine}
    {a b : Attempt F} {s : Store F H} {h : List (Call F × Answer)}
    (hClock : ∀ x ∈ h, toRat x.1.now ≤ toRat b.now) (hSettled : Settled h s.tables a)
    (hSame : b.quadruple = a.quadruple) :
    (accept lim sha256 engine b s).1 ≠ .ok .accepted := by
  intro hAccepted
  rcases accept_cases lim sha256 engine b s with ⟨_, _, later, hAdmitted⟩ | ⟨hNot, _⟩ | ⟨_, e, he, _⟩
  · rcases hSettled with ⟨epoch, hValue, hEpoch, hCase⟩
    simp only [Attempt.quadruple, Prod.mk.injEq] at hSame
    rcases hSame with ⟨hProbe, hRun, hSeq, hEpochs⟩
    have hLater : later = epoch := by
      have := hAdmitted.value
      rw [hEpochs, hValue] at this
      exact (Option.some.inj this).symm
    subst hLater
    have hIn : ¬ OutOfWindow b.now later := not_lt.mpr hAdmitted.window.2
    rcases hCase with hRetained | ⟨x, hx, hOut⟩
    · rcases retained_prune hEpoch hRetained lim b.now 0 with ⟨⟨p, hp, hKey⟩, _⟩ | hOut
      · apply hAdmitted.noReceipt p hp
        rw [hKey, hProbe, hRun, hSeq]
      · exact hIn hOut
    · exact hIn (lt_of_lt_of_le hOut (sub_mono (hClock x hx)))
  · exact hNot hAccepted
  · rw [he] at hAccepted
    cases hAccepted

-- Exactly-Once Acceptance

/-
  The invariant of a history: every accepted attempt is
  settled, and no quadruple was accepted twice.
-/
structure ExactlyOnce (h : List (Call F × Answer)) (s : Store F H) : Prop where
  settled : ∀ a ∈ h.filterMap acceptedAttempt?, Settled h s.tables a
  nodup : (acceptedQuadruples h).Nodup

omit [PyFloat F] in
theorem acceptedAttempt?_clock {h : List (Call F × Answer)} {a : Attempt F}
    (ha : a ∈ h.filterMap acceptedAttempt?) : ∃ x ∈ h, x.1.now = a.now := by
  rcases List.mem_filterMap.mp ha with ⟨x, hx, hEq⟩
  refine ⟨x, hx, ?_⟩
  rcases x with ⟨call, answer⟩
  unfold acceptedAttempt? at hEq
  split at hEq
  · next hCall =>
    cases hCall
    cases hEq
    rfl
  · cases hEq

/- Each call preserves the invariant. -/
theorem exactlyOnce_step [DecidableEq H] {lim : Limits} {sha256 : Bytes → H} {h : List (Call F × Answer)}
    {s : Store F H} (c : Call F) (hClock : ∀ x ∈ h, toRat x.1.now ≤ toRat c.now)
    (hInv : ExactlyOnce h s) : ExactlyOnce (h ++ [(c, (step lim sha256 s c).1)]) (step lim sha256 s c).2 := by
  have hOld : ∀ a ∈ h.filterMap acceptedAttempt?, Settled (h ++ [(c, (step lim sha256 s c).1)])
          (step lim sha256 s c).2.tables a := by
    intro a ha
    refine settled_mono (hInv.settled a ha) (fun x hx => List.mem_append_left _ hx)
      ⟨_, List.mem_append_right _ (List.mem_singleton_self _), rfl⟩ ?_
    intro epoch hEpoch hRetained
    rcases acceptedAttempt?_clock ha with ⟨x, hx, hNow⟩
    have hLe : toRat a.now ≤ toRat c.now := by
      rw [← hNow]
      exact hClock x hx
    cases c with
    | accept b engine => exact retained_accept hLe hEpoch hRetained
    | enforceRetention now fault => exact retained_enforceRetention hEpoch hRetained
  cases hNew : acceptedAttempt? (c, (step lim sha256 s c).1) with
  | none =>
    have hFilter : (h ++ [(c, (step lim sha256 s c).1)]).filterMap acceptedAttempt? =
          h.filterMap acceptedAttempt? := by
      simp [List.filterMap_append, hNew]
    constructor
    · rw [hFilter]
      exact hOld
    · rw [acceptedQuadruples, hFilter]
      exact hInv.nodup
  | some b =>
    have hFilter : (h ++ [(c, (step lim sha256 s c).1)]).filterMap acceptedAttempt? =
          h.filterMap acceptedAttempt? ++ [b] := by
      simp [List.filterMap_append, hNew]
    cases c with
    | enforceRetention now fault => simp [acceptedAttempt?] at hNew
    | accept a engine =>
      have hAccepted : (accept lim sha256 engine a s).1 = .ok .accepted ∧ a = b := by
        simp only [step, acceptedAttempt?] at hNew
        split at hNew
        · next hCall =>
          cases hNew
          simp only [Prod.mk.injEq, Call.accept.injEq] at hCall
          rcases hCall with ⟨⟨rfl, _⟩, hAnswer⟩
          refine ⟨?_, rfl⟩
          cases hResult : (accept lim sha256 engine a s).1 with
          | error e =>
            rw [hResult] at hAnswer
            cases hAnswer
          | ok v =>
            rw [hResult] at hAnswer
            cases hAnswer
            rfl
        · cases hNew
      rcases hAccepted with ⟨hAccepted, rfl⟩
      constructor
      · rw [hFilter]
        intro b hb
        rcases List.mem_append.mp hb with hb | hb
        · exact hOld b hb
        · rw [List.mem_singleton.mp hb]
          rcases accept_cases lim sha256 engine a s with
            ⟨_, _, epoch, hAdmitted⟩ | ⟨hNot, _⟩ | ⟨_, e, he, _⟩
          · exact ⟨epoch, hAdmitted.value, hAdmitted.window.1, Or.inl (retained_of_admitted hAdmitted)⟩
          · exact absurd hAccepted hNot
          · rw [he] at hAccepted
            cases hAccepted
      · rw [acceptedQuadruples, hFilter, List.map_append, List.map_singleton]
        refine List.Nodup.append hInv.nodup (List.nodup_singleton _) ?_
        intro q hq hSame
        rw [List.mem_singleton.mp hSame] at hq
        rcases List.mem_map.mp hq with ⟨b, hb, hQuad⟩
        exact not_accepted_of_settled hClock (hInv.settled b hb) hQuad.symm hAccepted

/-
  In every run from a fresh store under a clock that never
  goes back, whatever the bounds, the bodies and the engine
  do, no quadruple is accepted twice.
-/
theorem accepted_nodup [DecidableEq H] (lim : Limits) (sha256 : Bytes → H) (calls : List (Call F))
    (hClock : (calls.map (fun c => toRat c.now)).Pairwise (· ≤ ·)) : (acceptedQuadruples
      (history (step lim sha256) Store.empty calls)).Nodup := by
  have hInv : ((history (step lim sha256) Store.empty calls).map (fun x => toRat x.1.now)).Pairwise (· ≤ ·) →
        ExactlyOnce (history (step lim sha256) Store.empty calls)
          (finalState (step lim sha256) Store.empty calls) := by
    refine (trace_history (step lim sha256) Store.empty calls).history_invariant (I := fun h s =>
          (h.map (fun x => toRat x.1.now)).Pairwise (· ≤ ·) → ExactlyOnce h s) ?_ ?_
    · intro _
      exact ⟨by simp, by simp [acceptedQuadruples]⟩
    · intro h s c ih _ hPairwise
      rw [List.map_append, List.pairwise_append] at hPairwise
      refine exactlyOnce_step c ?_ (ih hPairwise.1)
      intro x hx
      exact hPairwise.2.2 _ (List.mem_map_of_mem hx) _ (by simp)
  refine (hInv ?_).nodup
  have hMap : (history (step lim sha256) Store.empty calls).map (fun x => toRat x.1.now) =
        calls.map (fun c => toRat c.now) := by
    rw [← map_fst_history (step lim sha256) Store.empty calls, List.map_map]
    simp [Function.comp_def]
  rw [hMap]
  exact hClock

/-
  A sample, its byte-identical retry a month and a day later,
  when the run has expired, and a fresh sample of the run
  that is created again.
-/
theorem accepted_nodup_of_late_retry : (acceptedQuadruples (history (step {} (id : Bytes → Bytes)) Store.empty
        [ .accept ⟨pyStr "edge", pyStr "r", 1, .int 1000000, [123, 125], (⟨1000000⟩ : Grid 1)⟩ idleEngine,
          .accept ⟨pyStr "edge", pyStr "r", 1, .int 1000000, [123, 125], ⟨3678400⟩⟩ idleEngine,
          .accept ⟨pyStr "edge", pyStr "r", 1, .int 3678400, [123, 125], ⟨3678400⟩⟩ idleEngine ])).Nodup :=
  accepted_nodup {} id _ (by decide +kernel)

end SingboxOps.RemoteStore
