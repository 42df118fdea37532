import SingboxOps.RemoteStore.Retention
import SingboxOps.Lib.Trace

/-
  What one acceptance call can do, said once.
-/

namespace SingboxOps.RemoteStore

open PyFloat

variable {F H : Type} [PyFloat F] [DecidableEq H]

-- The Transaction Body

/-
  The attempt was admitted into the pruned tables `t` with
  result `t'`: no receipt answered it, it moved its run
  forward and it was inside the window.
-/
structure Admitted (lim : Limits) (sha256 : Bytes → H) (engine : Engine) (a : Attempt F) (epoch : ℚ)
    (t t' : Tables F H) : Prop where
  seqInteger : SqlInteger a.seq
  noReceipt : ∀ p ∈ t.receipts, p.key ≠ (a.probeId, a.run, a.seq)
  value : a.sampleEpoch.value? = some epoch
  nonneg : 0 ≤ epoch
  progress : ∀ r, t.runs.find? (fun r => r.key == (a.probeId, a.run)) = some r →
      r.maxSeq < a.seq ∧ toRat r.maxSampleEpoch < epoch
  window : InWindow a.now epoch
  inserted : ∃ n, savepoint lim sha256 engine a
      (t.runs.find? (fun r => r.key == (a.probeId, a.run))).isNone t =
      .ok (n, t')

omit [PyFloat F] [DecidableEq H] in
theorem capacity_isCapacity {lim : Limits} {probeId : PyStr} {newRun : Bool} {t : Tables F H} {e : StoreError}
    (h : capacity lim probeId newRun t = some e) : e.IsCapacity := by
  simp only [capacity] at h
  split_ifs at h
  · left
    exact (Option.some.inj h).symm
  · right
    left
    exact (Option.some.inj h).symm

omit [DecidableEq H] in
/- A new tuple is admitted, or refused for want of capacity. -/
theorem admitNew_cases {lim : Limits} {sha256 : Bytes → H} {engine : Engine}
    {a : Attempt F} {state : Option (RunRow F)} {pruned n : ℕ}
    {t t' : Tables F H} {outcome : Outcome}
    (h : admitNew lim sha256 engine a state pruned t = .ok ((outcome, n), t')) :
    (outcome = .ok .accepted ∧ ∃ m, savepoint lim sha256 engine a state.isNone t = .ok (m, t')) ∨
    (outcome ≠ .ok .accepted ∧ Touched a t t' ∧ ∀ e, outcome = .error e → e.IsCapacity) := by
  have refused : ∀ e : StoreError, e.IsCapacity → (Except.ok ((Except.error e, pruned),
            if state.isSome then activity a.probeId a.run a.now t
            else t) : Except StoreError ((Outcome × ℕ) × Tables F H)) =
          .ok ((outcome, n), t') →
        outcome ≠ .ok .accepted ∧ Touched a t t' ∧ ∀ e, outcome = .error e → e.IsCapacity := by
    intro e he hEq
    cases hEq
    refine ⟨by simp, ?_, fun e' he' => ?_⟩
    · unfold Touched
      split_ifs
      · exact Or.inr rfl
      · exact Or.inl rfl
    · cases he'
      exact he
  unfold admitNew at h
  simp only at h
  cases hCapacity : capacity lim a.probeId state.isNone t with
  | some e =>
    rw [hCapacity] at h
    right
    exact refused e (capacity_isCapacity hCapacity) h
  | none =>
    rw [hCapacity] at h
    simp only at h
    cases hAdmit : savepoint lim sha256 engine a state.isNone t with
    | ok result =>
      rw [hAdmit] at h
      left
      cases h
      exact ⟨rfl, result.1, rfl⟩
    | error e =>
      rw [hAdmit] at h
      cases e with
      | storageCapacity =>
        right
        exact refused .storageCapacity (Or.inr (Or.inr rfl)) h
      | unavailable => cases h
      | runCapacity => cases h
      | receiptCapacity => cases h
      | overflow => cases h

/-
  A committed attempt was admitted, or got another answer
  over tables that are the pruned ones up to activity.
-/
theorem acceptBody_cases {lim : Limits} {sha256 : Bytes → H} {engine : Engine}
    {a : Attempt F} {t t' : Tables F H} {outcome : Outcome} {n : ℕ}
    (h : acceptBody lim sha256 engine a t = .ok ((outcome, n), t')) :
    (outcome = .ok .accepted ∧ ∃ epoch, Admitted lim sha256 engine a epoch (prune lim a.now 0 t).1 t') ∨
    (outcome ≠ .ok .accepted ∧ Touched a (prune lim a.now 0 t).1 t' ∧
      ∀ e, outcome = .error e → e.IsCapacity) := by
  have answered : ∀ (v : Verdict) (t₁ : Tables F H), v ≠ .accepted → Touched a (prune lim a.now 0 t).1 t₁ →
        (Except.ok ((Except.ok v, (prune lim a.now 0 t).2),
            t₁) : Except StoreError ((Outcome × ℕ) × Tables F H)) =
          .ok ((outcome, n), t') →
        outcome ≠ .ok .accepted ∧ Touched a (prune lim a.now 0 t).1 t' ∧
          ∀ e, outcome = .error e → e.IsCapacity := by
    intro v t₁ hv hTouched hEq
    cases hEq
    refine ⟨?_, hTouched, fun e he => by cases he⟩
    intro hAccepted
    exact hv (Except.ok.inj hAccepted)
  have hSame := Touched.refl a (prune lim a.now 0 t).1
  unfold acceptBody at h
  simp only at h
  by_cases hSeq : SqlInteger a.seq
  swap
  · rw [if_pos hSeq] at h
    cases h
  rw [if_neg (not_not.mpr hSeq)] at h
  cases hFind : (prune lim a.now 0 t).1.receipts.find? (fun p => p.key == (a.probeId, a.run, a.seq)) with
  | some receipt =>
    rw [hFind] at h
    simp only at h
    right
    by_cases hHash : receipt.bodyHash = sha256 a.body
    · rw [if_pos hHash] at h
      exact answered .duplicate _ (by decide)
        (Or.inr rfl) h
    · rw [if_neg hHash] at h
      exact answered .equivocation _ (by decide) hSame h
  | none =>
    rw [hFind] at h
    simp only at h
    have hNone := List.find?_eq_none.mp hFind
    cases hValue : a.sampleEpoch.value? with
    | none =>
      rw [hValue] at h
      simp only at h
      right
      exact answered .sampleEpochOutOfRange _ (by decide) hSame h
    | some epoch =>
      rw [hValue] at h
      simp only at h
      split_ifs at h with hHuge hNeg hBack hStale hOut
      · right
        exact answered .sampleEpochOutOfRange _ (by decide) hSame h
      · right
        exact answered .sequenceNotIncreasing _ (by decide) hSame h
      · right
        exact answered .sampleEpochNotIncreasing _ (by decide) hSame h
      · rcases admitNew_cases h with ⟨hAccepted, hAdmit⟩ | hRefused
        · left
          refine ⟨hAccepted, epoch, hSeq, ?_, hValue, not_lt.mp hNeg, ?_, hOut, hAdmit⟩
          · intro p hp hKey
            exact hNone p hp (by simp [hKey])
          · intro r hr
            simp only [hr, Option.any_some, decide_eq_true_eq] at hBack hStale
            exact ⟨not_le.mp hBack, not_le.mp hStale⟩
        · right
          exact hRefused
      · right
        exact answered .sampleEpochOutOfRange _ (by decide) hSame h

-- Exceptions of the Body

omit [DecidableEq H] in
theorem savepoint_error {lim : Limits} {sha256 : Bytes → H} {engine : Engine}
    {a : Attempt F} {newRun : Bool} {t : Tables F H} {e : StoreError}
    (h : savepoint lim sha256 engine a newRun t = .error e) :
    e = .storageCapacity ∨ e = .unavailable ∨ e = .overflow := by
  have bound : ∀ e', a.sampleEpoch.bindReal = .error e' →
        e' = .storageCapacity ∨ e' = .unavailable ∨ e' = .overflow := by
    intro e' he'
    cases hEpoch : a.sampleEpoch with
    | int n =>
      rw [hEpoch] at he'
      have := except_guard_error he'
      exact Or.inr (Or.inr this.symm)
    | float x =>
      rw [hEpoch] at he'
      cases he'
    | invalid =>
      rw [hEpoch] at he'
      cases he'
      exact Or.inr (Or.inl rfl)
  have physical : ∀ m e', physicalAdmission lim m = .error e' →
        e' = .storageCapacity ∨ e' = .unavailable ∨ e' = .overflow := by
    intro m e' he'
    simp only [physicalAdmission, reserveWorkingSpace] at he'
    split_ifs at he' <;> cases he' <;> simp
  have inserted : ∀ (p : Prop) [Decidable p] (t₁ : Tables F H) e', (if p then Except.ok t₁
          else .error StoreError.unavailable) = .error e' →
        e' = .storageCapacity ∨ e' = .unavailable ∨ e' = .overflow := by
    intro p _ t₁ e' he'
    exact Or.inr (Or.inl (except_guard_error he').symm)
  unfold savepoint at h
  rcases except_bind_error h with h | ⟨_, _, h⟩
  · exact physical _ _ h
  rcases except_bind_error h with h | ⟨_, _, h⟩
  · unfold admitRun at h
    split_ifs at h
    rcases except_bind_error h with h | ⟨_, _, h⟩
    · exact bound _ h
    · exact inserted _ _ _ h
  rcases except_bind_error h with h | ⟨_, _, h⟩
  · exact inserted _ _ _ h
  rcases except_bind_error h with h | ⟨_, _, h⟩
  · exact bound _ h
  rcases except_bind_error h with h | ⟨_, _, h⟩
  · exact inserted _ _ _ h
  rcases except_bind_error h with h | ⟨_, _, h⟩
  · exact physical _ _ h
  · cases h

omit [DecidableEq H] in
theorem admitNew_error {lim : Limits} {sha256 : Bytes → H} {engine : Engine}
    {a : Attempt F} {state : Option (RunRow F)} {pruned : ℕ}
    {t : Tables F H} {e : StoreError}
    (h : admitNew lim sha256 engine a state pruned t = .error e) :
    e = .unavailable ∨ e = .overflow := by
  unfold admitNew at h
  simp only at h
  cases hCapacity : capacity lim a.probeId state.isNone t with
  | some c =>
    rw [hCapacity] at h
    cases h
  | none =>
    rw [hCapacity] at h
    cases hAdmit : savepoint lim sha256 engine a state.isNone t with
    | ok result =>
      rw [hAdmit] at h
      cases h
    | error e' =>
      rw [hAdmit] at h
      rcases savepoint_error hAdmit with rfl | rfl | rfl
      · cases h
      · cases h
        exact Or.inl rfl
      · cases h
        exact Or.inr rfl

theorem acceptBody_error {lim : Limits} {sha256 : Bytes → H} {engine : Engine}
    {a : Attempt F} {t : Tables F H} {e : StoreError}
    (h : acceptBody lim sha256 engine a t = .error e) : ¬ e.IsCapacity := by
  have notCapacity : e = .unavailable ∨ e = .overflow → ¬ e.IsCapacity := by
    rintro (rfl | rfl) <;> simp [StoreError.IsCapacity]
  apply notCapacity
  unfold acceptBody at h
  simp only at h
  by_cases hSeq : SqlInteger a.seq
  swap
  · rw [if_pos hSeq] at h
    cases h
    exact Or.inr rfl
  rw [if_neg (not_not.mpr hSeq)] at h
  split at h
  · split_ifs at h
  split at h
  · cases h
  split_ifs at h
  · cases h
    exact Or.inr rfl
  · exact admitNew_error h

-- The Call

omit [PyFloat F] [DecidableEq H] in
@[simp] theorem notePruned_tables (count : ℕ) (s : Store F H) : (notePruned count s).tables = s.tables := by
  unfold notePruned
  split_ifs <;> rfl

omit [DecidableEq H] in
theorem acceptRepair_cases {engine : Engine} {a : Attempt F} {t : Tables F H} {s : Store F H}
    (hTouched : Touched a t s.tables) :
    (∃ e, (acceptRepair engine a s).1 = .error e) ∧ Touched a t (acceptRepair engine a s).2.tables := by
  unfold acceptRepair
  cases hFault : engine.repairFault with
  | none => exact ⟨⟨_, rfl⟩, touched_repair hTouched⟩
  | some f =>
    cases f with
    | full => exact ⟨⟨_, rfl⟩, hTouched⟩
    | other => exact ⟨⟨_, rfl⟩, hTouched⟩

/-
  A call was admitted; or its transaction committed another
  answer over the pruned tables; or it was rolled back whole,
  by the engine or by an exception, leaving the old tables.
  In the last two cases activity may have been refreshed.
-/
theorem accept_cases (lim : Limits) (sha256 : Bytes → H) (engine : Engine) (a : Attempt F) (s : Store F H) :
    ((accept lim sha256 engine a s).1 = .ok .accepted ∧ engine.fault = none ∧
      ∃ epoch, Admitted lim sha256 engine a epoch (prune lim a.now 0 s.tables).1
        (accept lim sha256 engine a s).2.tables) ∨
    ((accept lim sha256 engine a s).1 ≠ .ok .accepted ∧ engine.fault = none ∧
      Touched a (prune lim a.now 0 s.tables).1 (accept lim sha256 engine a s).2.tables) ∨
    (Touched a s.tables (accept lim sha256 engine a s).2.tables ∧
      ∃ e, (accept lim sha256 engine a s).1 = .error e ∧ (engine.fault ≠ none ∨ ¬ e.IsCapacity)) := by
  cases hFault : engine.fault with
  | some f =>
    right
    right
    cases f with
    | full =>
      have hAccept : accept lim sha256 engine a s = acceptRepair engine a s := by
        simp [accept, acceptLocked, transaction, hFault]
      rw [hAccept]
      rcases acceptRepair_cases (Touched.refl a s.tables) with ⟨⟨e, he⟩, hTouched⟩
      exact ⟨hTouched, e, he, Or.inl (by simp)⟩
    | other =>
      have hAccept : accept lim sha256 engine a s = (.error .unavailable, s) := by
        simp [accept, acceptLocked, transaction, hFault]
      rw [hAccept]
      exact ⟨Touched.refl a s.tables, _, rfl, Or.inl (by simp)⟩
  | none =>
    cases hBody : acceptBody lim sha256 engine a s.tables with
    | error e =>
      right
      right
      have hNot := acceptBody_error hBody
      have hAccept : accept lim sha256 engine a s = (.error e, s) := by
        simp only [accept, acceptLocked, transaction, hFault, hBody]
        cases e with
        | storageCapacity => exact absurd (Or.inr (Or.inr rfl)) hNot
        | _ => rfl
      rw [hAccept]
      exact ⟨Touched.refl a s.tables, e, rfl, Or.inr hNot⟩
    | ok committed =>
      rcases committed with ⟨⟨outcome, n⟩, t'⟩
      have hLocked : acceptLocked lim sha256 engine a s =
            (outcome, notePruned n { s with tables := t' }) := by
        simp [acceptLocked, transaction, hFault, hBody]
      rcases acceptBody_cases hBody with ⟨rfl, hAdmitted⟩ | ⟨hNot, hTouched, _⟩
      · left
        have hAccept : accept lim sha256 engine a s = (.ok .accepted,
                notePruned n { s with tables := t' }) := by
          simp [accept, hLocked]
        rw [hAccept]
        exact ⟨rfl, rfl, by simpa using hAdmitted⟩
      · right
        left
        unfold accept
        rw [hLocked]
        split
        · next s₁ hEq =>
          cases hEq
          rcases @acceptRepair_cases F H _ engine a (prune lim a.now 0 s.tables).1
              (notePruned n { s with tables := t' })
              (by simpa using hTouched) with
            ⟨⟨e, he⟩, hDone⟩
          exact ⟨by simp [he], rfl, hDone⟩
        · exact ⟨hNot, rfl, by simpa using hTouched⟩

-- Reachable Tables

@[simp] theorem step_accept_tables (lim : Limits) (sha256 : Bytes → H) (s : Store F H) (a : Attempt F)
    (engine : Engine) :
    (step lim sha256 s (.accept a engine)).2.tables = (accept lim sha256 engine a s).2.tables :=
  rfl

@[simp] theorem step_enforceRetention_tables (lim : Limits) (sha256 : Bytes → H) (s : Store F H) (now : F)
    (fault : Option Fault) :
    (step lim sha256 s (.enforceRetention now fault)).2.tables =
      (enforceRetention lim fault now s).2.tables :=
  rfl

omit [DecidableEq H] in
theorem enforceRetention_tables (lim : Limits) (fault : Option Fault) (now : F) (s : Store F H) :
    (enforceRetention lim fault now s).2.tables = s.tables ∨
      (enforceRetention lim fault now s).2.tables = (prune lim now 0 s.tables).1 := by
  unfold enforceRetention transaction
  cases fault with
  | none =>
    right
    simp
  | some f =>
    left
    cases f <;> rfl

/-
  A property of the tables that holds of the empty database
  and that pruning, activity and admission preserve holds of
  every reachable store.
-/
theorem reachable_tables {lim : Limits} {sha256 : Bytes → H}
    {guard : Store F H → Call F → Prop} {I : Tables F H → Prop} (hEmpty : I .empty)
    (hPrune : ∀ s c, guard s c → I s.tables → I (prune lim c.now 0 s.tables).1)
    (hActivity : ∀ s a engine t, guard s (.accept a engine) → I t → I (activity a.probeId a.run a.now t))
    (hAdmit : ∀ s a engine epoch t', guard s (.accept a engine) → I s.tables →
        Admitted lim sha256 engine a epoch (prune lim a.now 0 s.tables).1 t' →
        I t')
    {s : Store F H}
    (hReach : Reachable (step lim sha256) guard Store.empty s) : I s.tables := by
  refine hReach.invariant (I := fun s => I s.tables) hEmpty ?_
  intro s c hInv hGuard
  have hTouched : ∀ a engine, c = .accept a engine → ∀ t t', I t → Touched a t t' → I t' := by
    rintro a engine rfl t t' ht (rfl | rfl)
    · exact ht
    · exact hActivity s a engine t hGuard ht
  cases c with
  | accept a engine =>
    rw [step_accept_tables]
    rcases accept_cases lim sha256 engine a s with ⟨_, _, epoch, hAdmitted⟩ | ⟨_, _, hDone⟩ | ⟨hDone, _⟩
    · exact hAdmit s a engine epoch _ hGuard hInv hAdmitted
    · have hPruned : I (prune lim a.now 0 s.tables).1 := hPrune s (.accept a engine) hGuard hInv
      exact hTouched a engine rfl _ _ hPruned hDone
    · exact hTouched a engine rfl _ _ hInv hDone
  | enforceRetention now fault =>
    rw [step_enforceRetention_tables]
    rcases enforceRetention_tables lim fault now s with
      hSame | hPruned
    · rw [hSame]
      exact hInv
    · rw [hPruned]
      exact hPrune s (.enforceRetention now fault) hGuard hInv

end SingboxOps.RemoteStore
