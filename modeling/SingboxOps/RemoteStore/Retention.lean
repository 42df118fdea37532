import SingboxOps.RemoteStore.Accept
import SingboxOps.Lib.Except

/-
  What a prune, an activity refresh and an admission leave of
  the three tables.
-/

namespace SingboxOps.RemoteStore

open PyFloat

variable {F H : Type} [PyFloat F]

-- Pruning

/- A run the retention at `now` expires. -/
def Expired (now : F) (r : RunRow F) : Prop := toRat r.lastActivityEpoch < toRat (sub now runLifetimeSeconds)

theorem prune_runs (lim : Limits) (now : F) (prospective : ℤ) (t : Tables F H) :
    (prune lim now prospective t).1.runs = t.runs.filter
        (fun r => !decide (toRat r.lastActivityEpoch < toRat (sub now runLifetimeSeconds))) := by
  simp only [prune]
  split_ifs <;> rfl

@[simp] theorem mem_prune_runs {lim : Limits} {now : F} {prospective : ℤ} {t : Tables F H} {r : RunRow F} :
    r ∈ (prune lim now prospective t).1.runs ↔ r ∈ t.runs ∧ ¬ Expired now r := by
  rw [prune_runs]
  simp [Expired]

theorem prune_receipts (lim : Limits) (now : F) (prospective : ℤ) (t : Tables F H) :
    (prune lim now prospective t).1.receipts = t.receipts.filter (fun q =>
        !(t.runs.filter (fun r =>
          decide (toRat r.lastActivityEpoch < toRat (sub now runLifetimeSeconds)))).any
          (fun r => r.key == q.runKey)) := by
  simp only [prune]
  split_ifs <;> rfl

@[simp] theorem mem_prune_receipts {lim : Limits} {now : F} {prospective : ℤ} {t : Tables F H}
    {q : ReceiptRow F H} :
    q ∈ (prune lim now prospective t).1.receipts ↔
      q ∈ t.receipts ∧ ∀ r ∈ t.runs, r.key = q.runKey → ¬ Expired now r := by
  rw [prune_receipts]
  simp only [List.mem_filter, Bool.not_eq_true', List.any_eq_false, beq_iff_eq, decide_eq_true_eq, Expired]
  constructor
  · rintro ⟨hMem, hNone⟩
    exact ⟨hMem, fun r hr hKey hExpired => hNone r ⟨hr, hExpired⟩ hKey⟩
  · rintro ⟨hMem, hNone⟩
    exact ⟨hMem, fun r hr hKey => hNone r hr.1 hKey hr.2⟩

theorem deleteOldest_subset (batch : ℤ)
    (samples : List (SampleRow F H)) : ∀ s ∈ deleteOldest batch samples, s ∈ samples := by
  intro s hs
  have hSorted := List.mem_of_mem_drop hs
  rwa [List.mem_insertionSort] at hSorted

theorem pruneToSoft_subset (lim : Limits) (prospective : ℤ) (rounds : ℕ) (samples : List (SampleRow F H))
    (pruned : ℕ) : ∀ s ∈ (pruneToSoft lim prospective rounds samples pruned).1, s ∈ samples := by
  induction rounds generalizing samples pruned with
  | zero =>
    intro s hs
    exact hs
  | succ rounds ih =>
    intro s hs
    simp only [pruneToSoft] at hs
    split_ifs at hs with hSoft hNone
    · exact hs
    · exact hs
    · exact deleteOldest_subset _ _ s (ih _ _ s hs)

theorem prune_samples_subset {lim : Limits} {now : F} {prospective : ℤ} {t : Tables F H} {s : SampleRow F H}
    (hs : s ∈ (prune lim now prospective t).1.samples) :
    s ∈ t.samples ∧ ∀ q ∈ t.receipts, q.key = s.key → q ∈ (prune lim now prospective t).1.receipts := by
  have hKept : s ∈ (deleteRuns (fun r =>
        decide (toRat r.lastActivityEpoch < toRat (sub now runLifetimeSeconds))) t).samples := by
    simp only [prune] at hs
    split_ifs at hs
    · exact List.mem_of_mem_filter (pruneToSoft_subset _ _ _ _ _ s hs)
    · exact List.mem_of_mem_filter hs
  simp only [deleteRuns, List.mem_filter, Bool.not_eq_true', List.any_eq_false, beq_iff_eq] at hKept
  refine ⟨hKept.1, fun q hq hKey => ?_⟩
  rw [prune_receipts, List.mem_filter]
  refine ⟨hq, ?_⟩
  by_contra hGone
  simp only [Bool.not_eq_true', Bool.not_eq_false] at hGone
  exact hKept.2 q ⟨hq, hGone⟩ hKey

-- Activity

theorem le_maxReal_left (a b : F) : toRat a ≤ toRat (maxReal a b) := by
  unfold maxReal
  split_ifs with h
  · exact h.le
  · exact le_refl _

theorem le_maxReal_right (a b : F) : toRat b ≤ toRat (maxReal a b) := by
  unfold maxReal
  split_ifs with h
  · exact le_refl _
  · exact not_lt.mp h

@[simp] theorem maxReal_maxReal (a b : F) : maxReal (maxReal a b) b = maxReal a b := by
  have hLe := le_maxReal_right a b
  rw [maxReal, if_neg (not_lt.mpr hLe)]

@[simp] theorem activity_activity (probeId run : PyStr) (now : F) (t : Tables F H) :
    activity probeId run now (activity probeId run now t) = activity probeId run now t := by
  simp only [activity, List.map_map, Tables.mk.injEq, and_true]
  apply List.map_congr_left
  intro r _
  by_cases hKey : r.key = (probeId, run)
  · have hAgain :
        ({ r with lastActivityEpoch :=
            maxReal r.lastActivityEpoch now } : RunRow F).key =
          (probeId, run) := hKey
    simp [Function.comp, hKey, hAgain]
  · simp [Function.comp, hKey]

/-
  `t'` is `t`, up to a refresh of the last activity of the
  run an attempt names.
-/
def Touched (a : Attempt F) (t t' : Tables F H) : Prop := t' = t ∨ t' = activity a.probeId a.run a.now t

theorem Touched.refl (a : Attempt F) (t : Tables F H) : Touched a t t := Or.inl rfl

theorem touched_repair {a : Attempt F} {t t' : Tables F H}
    (hTouched : Touched a t t') : Touched a t (repair a t') := by
  have hStep : repair a t' = t' ∨ repair a t' = activity a.probeId a.run a.now t' := by
    unfold repair
    split
    · split_ifs
      · exact Or.inr rfl
      · exact Or.inl rfl
    · exact Or.inl rfl
  rcases hTouched with rfl | rfl
  · exact hStep
  · rcases hStep with hSame | hAgain
    · exact Or.inr hSame
    · right
      rw [hAgain, activity_activity]

/- A run row after a refresh is a stored one, no less active. -/
theorem exists_of_mem_activity {probeId run : PyStr} {now : F} {t : Tables F H} {r : RunRow F}
    (hr : r ∈ (activity probeId run now t).runs) :
    ∃ r₀ ∈ t.runs, r.key = r₀.key ∧ r.maxSeq = r₀.maxSeq ∧ r.maxSampleEpoch = r₀.maxSampleEpoch ∧
      r.createdEpoch = r₀.createdEpoch ∧
      toRat r₀.lastActivityEpoch ≤ toRat r.lastActivityEpoch := by
  rcases List.mem_map.mp hr with ⟨r₀, hMem, rfl⟩
  refine ⟨r₀, hMem, ?_⟩
  split_ifs
  · exact ⟨rfl, rfl, rfl, rfl, le_maxReal_left _ _⟩
  · exact ⟨rfl, rfl, rfl, rfl, le_refl _⟩

-- Admission

/- The runs after the UPDATE of an admission. -/
def admittedRuns (a : Attempt F) (epoch : F) (runs : List (RunRow F)) : List (RunRow F) := runs.map (fun r =>
    if r.key = (a.probeId, a.run) then
      { r with
        maxSeq := a.seq
        maxSampleEpoch := epoch
        lastActivityEpoch := maxReal r.lastActivityEpoch a.now }
    else r)

/-
  An admission that succeeded: the prospective prune `t₁`,
  the three rows, and the prune after them.
-/
theorem savepoint_ok {lim : Limits} {sha256 : Bytes → H} {engine : Engine}
    {a : Attempt F} {newRun : Bool} {t t' : Tables F H} {n : ℕ}
    (h : savepoint lim sha256 engine a newRun t = .ok (n, t')) :
    ∃ (epoch : F) (t₁ : Tables F H), a.sampleEpoch.bindReal = .ok epoch ∧
      t₁ = (prune lim a.now (a.body.length + sampleRowCharge) t).1 ∧
      1 ≤ a.seq ∧ 0 ≤ toRat epoch ∧
      1 ≤ a.body.length ∧ a.body.length ≤ 16384 ∧
      (newRun = true → ∀ r ∈ t₁.runs, r.key ≠ (a.probeId, a.run)) ∧
      (∃ r ∈ t₁.runs ++ (if newRun then
            [⟨a.probeId, a.run, a.seq, epoch, a.now, a.now⟩]
          else []),
        r.key = (a.probeId, a.run)) ∧
      t' = (prune lim a.now 0
        { runs := admittedRuns a epoch (t₁.runs ++
            (if newRun then
              [⟨a.probeId, a.run, a.seq, epoch, a.now, a.now⟩]
            else []))
          receipts := t₁.receipts ++ [⟨a.probeId, a.run, a.seq, sha256 a.body, a.now⟩]
          samples := t₁.samples ++
            [⟨a.probeId, a.run, a.seq, epoch, a.now,
              sha256 a.body, a.body⟩] }).1 := by
  unfold savepoint at h
  rcases except_bind_ok h with ⟨_, _, h⟩
  rcases except_bind_ok h with ⟨t₂, hRun, h⟩
  rcases except_bind_ok h with ⟨t₃, hReceipt, h⟩
  rcases except_bind_ok h with ⟨epoch, hEpoch, h⟩
  rcases except_bind_ok h with ⟨t₄, hSample, h⟩
  rcases except_bind_ok h with ⟨_, _, h⟩
  have hPair := Except.ok.inj h
  rcases except_guard_ok hReceipt with ⟨⟨hSeq, _, r, hMem, hKey⟩, rfl⟩
  rcases except_guard_ok hSample with ⟨⟨hNonneg, hLower, hUpper, _, _⟩, rfl⟩
  have hRuns :
      t₂ = { (prune lim a.now
            (a.body.length + sampleRowCharge) t).1 with
          runs := (prune lim a.now
              (a.body.length + sampleRowCharge) t).1.runs ++
            (if newRun then
              [⟨a.probeId, a.run, a.seq, epoch, a.now, a.now⟩]
            else []) } ∧
        (newRun = true → ∀ r ∈ (prune lim a.now (a.body.length + sampleRowCharge) t).1.runs,
            r.key ≠ (a.probeId, a.run)) := by
    unfold admitRun at hRun
    cases newRun with
    | false =>
      rw [if_neg Bool.false_ne_true] at hRun
      refine ⟨?_, fun hFalse => absurd hFalse (by simp)⟩
      rw [← Except.ok.inj hRun]
      simp
    | true =>
      rw [if_pos rfl] at hRun
      rcases except_bind_ok hRun with ⟨e, hBind, hInsert⟩
      rcases except_guard_ok hInsert with ⟨⟨_, _, hFresh⟩, rfl⟩
      rw [hEpoch] at hBind
      cases hBind
      exact ⟨by simp, fun _ => hFresh⟩
  rcases hRuns with ⟨rfl, hFresh⟩
  refine ⟨epoch, _, hEpoch, rfl, hSeq, hNonneg, hLower, hUpper, hFresh, ⟨r, hMem, hKey⟩, ?_⟩
  exact (congrArg Prod.snd hPair).symm

end SingboxOps.RemoteStore
