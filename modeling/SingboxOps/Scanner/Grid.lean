import SingboxOps.Classifier.Stability
import SingboxOps.Scanner.Stages
import Mathlib.Tactic.NormNum

/-
  The grid of minutes.

  The activation floor, the ends of the complete buckets and
  the starts of the windows are whole minutes no reading of
  the clock makes large, so the arithmetic on them is exact.
  A window of such minutes is the one the classifier reads.
-/

namespace SingboxOps.Scanner

open Classifier EvidenceStore

variable {F : Type} [BoundedFloat F]

-- Whole Minutes

/- A whole minute of at most `2 ^ k` in size. -/
def OnMinute (k : ℕ) (x : F) : Prop := ∃ n : ℤ, PyFloat.toRat x = 60 * n ∧ |n| ≤ 2 ^ k

theorem OnMinute.mono {k l : ℕ} {x : F} (h : OnMinute k x) (hLe : k ≤ l) : OnMinute l x := by
  rcases h with ⟨n, hn, hBound⟩
  exact ⟨n, hn, hBound.trans (pow_le_pow_right₀ (by omega) hLe)⟩

theorem toRat_round_minutes {n : ℤ}
    (h : |n| ≤ 2 ^ 46) : PyFloat.toRat (PyFloat.round (60 * (n : ℚ)) : F) = 60 * n := by
  have hBound := abs_le.mp h
  have hExact := BoundedFloat.exact (F := F) (60 * n) (abs_le.mpr (by constructor <;> omega))
  push_cast at hExact
  exact hExact

theorem toRat_add_minutes {x : F} {n m : ℤ} (hx : PyFloat.toRat x = 60 * n) (h : |n + m| ≤ 2 ^ 46) :
    PyFloat.toRat (PyFloat.add x (60 * (m : ℚ))) = 60 * ((n + m : ℤ) : ℚ) := by
  unfold PyFloat.add
  have hSum : PyFloat.toRat x + 60 * (m : ℚ) = 60 * ((n + m : ℤ) : ℚ) := by
    rw [hx]
    push_cast
    ring
  rw [hSum]
  exact toRat_round_minutes h

theorem toRat_sub_minutes {x : F} {n m : ℤ} (hx : PyFloat.toRat x = 60 * n) (h : |n - m| ≤ 2 ^ 46) :
    PyFloat.toRat (PyFloat.sub x (60 * (m : ℚ))) = 60 * ((n - m : ℤ) : ℚ) := by
  unfold PyFloat.sub
  have hDifference : PyFloat.toRat x - 60 * (m : ℚ) = 60 * ((n - m : ℤ) : ℚ) := by
    rw [hx]
    push_cast
    ring
  rw [hDifference]
  exact toRat_round_minutes h

theorem abs_round_le {q : ℚ} {k : ℕ} (h : |q| ≤ 2 ^ k)
    (hk : k ≤ 53) : |PyFloat.toRat (PyFloat.round q : F)| ≤ 2 ^ k := by
  have hPow : (2 : ℤ) ^ k ≤ 2 ^ 53 := pow_le_pow_right₀ (by omega) hk
  have hPos : (0 : ℤ) ≤ 2 ^ k := by positivity
  have hHigh := BoundedFloat.exact (F := F) (2 ^ k) (by rw [abs_of_nonneg hPos]; exact hPow)
  have hLow := BoundedFloat.exact (F := F) (-(2 ^ k)) (by rw [abs_neg, abs_of_nonneg hPos]; exact hPow)
  push_cast at hHigh hLow
  have hBound := abs_le.mp h
  apply abs_le.mpr
  constructor
  · rw [← hLow]
    exact PyFloat.round_mono hBound.1
  · rw [← hHigh]
    exact PyFloat.round_mono hBound.2

theorem toRat_bucketsLong {n : ℤ} (h : |n| ≤ 2 ^ 46) : PyFloat.toRat (bucketsLong n : F) = 60 * n := by
  have hExact := BoundedFloat.exact (F := F) n (h.trans (by norm_num))
  unfold bucketsLong bucketSeconds
  rw [hExact, mul_comm]
  exact toRat_round_minutes h

-- The Grid

theorem onMinute_activationFloor (now : Moment F) : OnMinute 29 (activationFloor now.reading) := by
  unfold activationFloor
  have hQuotient :
      |PyFloat.toRat now.reading / bucketSeconds| ≤ 2 ^ 29 := by
    unfold bucketSeconds
    rw [abs_div, abs_of_nonneg (by norm_num : (0 : ℚ) ≤ 60), div_le_iff₀ (by norm_num)]
    exact now.bounded.trans (by norm_num)
  have hRounded := abs_le.mp (abs_round_le (F := F) hQuotient (by omega))
  have hCeil :
      |⌈PyFloat.toRat (PyFloat.round
        (PyFloat.toRat now.reading / bucketSeconds) : F)⌉| ≤
        2 ^ 29 := by
    apply abs_le.mpr
    constructor
    · rw [Int.le_ceil_iff]
      push_cast
      linarith
    · apply Int.ceil_le.mpr
      push_cast
      exact hRounded.2
  refine ⟨_, toRat_bucketsLong (hCeil.trans (by norm_num)), hCeil⟩

theorem lastCompleteEnd_onMinute {floor lastEnd : F} {now : Moment F} (hFloor : OnMinute 29 floor)
    (h : lastCompleteEnd floor now.reading = some lastEnd) :
    OnMinute 32 lastEnd ∧ PyFloat.toRat floor + 60 ≤ PyFloat.toRat lastEnd := by
  rcases hFloor with ⟨n, hn, hBound⟩
  have hn' := abs_le.mp hBound
  unfold lastCompleteEnd at h
  dsimp only at h
  split at h
  · cases h
  · rename_i hLate
    cases h
    rw [not_lt] at hLate
    have hNow := abs_le.mp now.bounded
    have hGraced :
        |PyFloat.toRat (PyFloat.sub now.reading
          bucketGraceSeconds : F)| ≤ 2 ^ 35 := by
      apply abs_round_le _ (by omega)
      unfold bucketGraceSeconds
      apply abs_le.mpr
      constructor
      · linarith [hNow.1]
      · linarith [hNow.2]
    have hElapsed :
        |PyFloat.toRat (PyFloat.round
          (PyFloat.toRat (PyFloat.sub now.reading
            bucketGraceSeconds : F) - PyFloat.toRat floor) : F)| ≤
          2 ^ 36 := by
      apply abs_round_le _ (by omega)
      have hGraced' := abs_le.mp hGraced
      have hn1 : (-(2 ^ 29) : ℚ) ≤ n := by exact_mod_cast hn'.1
      have hn2 : (n : ℚ) ≤ 2 ^ 29 := by exact_mod_cast hn'.2
      rw [hn]
      apply abs_le.mpr
      constructor
      · linarith [hGraced'.1]
      · linarith [hGraced'.2]
    have hQuotient :
        |PyFloat.toRat (PyFloat.round
          (PyFloat.toRat (PyFloat.round (PyFloat.toRat (PyFloat.sub now.reading
              bucketGraceSeconds : F) - PyFloat.toRat floor) : F) /
            bucketSeconds) : F)| ≤ 2 ^ 31 := by
      apply abs_round_le _ (by omega)
      unfold bucketSeconds
      rw [abs_div, abs_of_nonneg (by norm_num : (0 : ℚ) ≤ 60), div_le_iff₀ (by norm_num)]
      exact hElapsed.trans (by norm_num)
    have hComplete :
        |⌊PyFloat.toRat (PyFloat.round
          (PyFloat.toRat (PyFloat.round (PyFloat.toRat (PyFloat.sub now.reading
              bucketGraceSeconds : F) - PyFloat.toRat floor) : F) /
            bucketSeconds) : F)⌋| ≤ 2 ^ 31 := by
      have hQuotient' := abs_le.mp hQuotient
      apply abs_le.mpr
      constructor
      · apply Int.le_floor.mpr
        push_cast
        exact hQuotient'.1
      · rw [Int.floor_le_iff]
        push_cast
        linarith [hQuotient'.2]
    generalize hk : ⌊PyFloat.toRat (PyFloat.round (PyFloat.toRat (PyFloat.round
          (PyFloat.toRat (PyFloat.sub now.reading
            bucketGraceSeconds : F) - PyFloat.toRat floor) : F) /
          bucketSeconds) : F)⌋ = k at hLate hComplete ⊢
    have hk' := abs_le.mp hComplete
    have hSum : |n + k| ≤ 2 ^ 32 := by
      apply abs_le.mpr
      constructor <;> omega
    have hLong : PyFloat.toRat (bucketsLong k : F) = 60 * k :=
      toRat_bucketsLong (hComplete.trans (by norm_num))
    rw [hLong] at hLate ⊢
    have hEnd := toRat_add_minutes (m := k) hn (hSum.trans (by norm_num))
    have hNext := toRat_add_minutes (m := 1) hn (abs_le.mpr (by constructor <;> omega))
    refine ⟨⟨n + k, hEnd, hSum⟩, ?_⟩
    have hSecond : PyFloat.add floor bucketSeconds = PyFloat.add floor (60 * ((1 : ℤ) : ℚ)) := by
      unfold bucketSeconds
      norm_num
    rw [hSecond, hNext] at hLate
    rw [hn]
    push_cast at hLate
    linarith

theorem discoveryStart_onMinute {lastEnd : F} (h : OnMinute 32 lastEnd) :
    OnMinute 33 (discoveryStart lastEnd) ∧
      PyFloat.toRat (discoveryStart lastEnd) = PyFloat.toRat lastEnd - 300 := by
  rcases h with ⟨n, hn, hBound⟩
  have hBound' := abs_le.mp hBound
  have hSub := toRat_sub_minutes (m := 5) hn (abs_le.mpr (by constructor <;> omega))
  have hSame : discoveryStart lastEnd = PyFloat.sub lastEnd (60 * ((5 : ℤ) : ℚ)) := by
    unfold discoveryStart discoveryBuckets bucketSeconds
    norm_num
  rw [hSame]
  refine ⟨⟨n - 5, hSub, abs_le.mpr (by constructor <;> omega)⟩, ?_⟩
  rw [hSub, hn]
  push_cast
  ring

theorem bucketStart_onMinute {start : F} {i k : ℕ} (h : OnMinute k start) (hLow : 6 ≤ k) (hHigh : k ≤ 44)
    (hi : i ≤ 60) :
    OnMinute (k + 1) (bucketStart start i) ∧
      PyFloat.toRat (bucketStart start i) = PyFloat.toRat start + 60 * i := by
  rcases h with ⟨n, hn, hBound⟩
  have hBound' := abs_le.mp hBound
  have hRoom : (2 : ℤ) ^ 6 ≤ 2 ^ k := pow_le_pow_right₀ (by omega) hLow
  have hLarge : (2 : ℤ) ^ k ≤ 2 ^ 44 := pow_le_pow_right₀ (by omega) hHigh
  have hDouble : (2 : ℤ) ^ (k + 1) = 2 * 2 ^ k := by ring
  have hAdd := toRat_add_minutes (m := (i : ℤ)) hn (abs_le.mpr (by constructor <;> omega))
  have hSame : bucketStart start i = PyFloat.add start (60 * (((i : ℕ) : ℤ) : ℚ)) := by
    unfold bucketStart bucketSeconds
    rw [mul_comm]
    rfl
  rw [hSame]
  refine ⟨⟨n + i, hAdd, abs_le.mpr ?_⟩, ?_⟩
  · constructor <;> omega
  · rw [hAdd, hn]
    push_cast
    ring

-- Windows

theorem windowOf_some {start stop : F} {w : Window F}
    (h : windowOf start stop = some w) : w.start = start ∧ w.stop = stop := by
  unfold windowOf at h
  split at h
  · split at h
    · split at h
      · split at h
        · split at h
          · cases h
            exact ⟨rfl, rfl⟩
          · cases h
        · cases h
      · cases h
    · cases h
  · cases h

/- An accepted bundle of the store is the window asked for. -/
theorem window_of_bundle {start stop : F} {status : ReaderStatus} {rows : EvidenceRows F}
    {b : Bundle F} (hStart : 0 ≤ PyFloat.toRat start)
    (hStop : PyFloat.toRat start < PyFloat.toRat stop)
    (h : Accepted (.obj (bundleOf start stop status rows)) b) :
    b.window.start = start ∧ b.window.stop = stop := by
  rcases h.bundle with ⟨members, w, hMembers, hWindow, rfl⟩
  cases hMembers
  unfold windowIn at hWindow
  rw [validWindow_bundleOf hStart hStop] at hWindow
  exact windowOf_some hWindow

theorem roundHalfEven_intCast (n : ℤ) : roundHalfEven (n : ℚ) = n := by
  unfold roundHalfEven
  rw [Int.floor_intCast]
  dsimp only
  rw [sub_self]
  norm_num

theorem roundHalfEven_le {q : ℚ} {n : ℤ} (h : q ≤ n) : roundHalfEven q ≤ n := by
  have hFloor : ⌊q⌋ ≤ n := by exact_mod_cast (Int.floor_le q).trans h
  unfold roundHalfEven
  dsimp only
  split
  · exact hFloor
  · rename_i hHalf
    have hBelow : ⌊q⌋ < n := by
      by_contra hEnd
      have hEq : ⌊q⌋ = n := by omega
      rw [hEq] at hHalf
      linarith
    split
    · omega
    · split
      · omega
      · omega

theorem buckets_le (w : Window F) : w.buckets ≤ maxBuckets := by
  have hQuotient : PyFloat.toRat (spanOf w.start w.stop) / bucketSeconds ≤ ((60 : ℤ) : ℚ) := by
    have hHigh := w.spanHigh
    unfold maxBuckets bucketSeconds at hHigh
    unfold bucketSeconds
    rw [div_le_iff₀ (by norm_num)]
    norm_num at hHigh ⊢
    exact hHigh
  have hRounded : PyFloat.toRat (PyFloat.round
        (PyFloat.toRat (spanOf w.start w.stop) / bucketSeconds) : F) ≤ ((60 : ℤ) : ℚ) := by
    rw [← BoundedFloat.exact (F := F) 60 (by norm_num)]
    exact PyFloat.round_mono hQuotient
  have hCount : bucketsBetween w.start w.stop ≤ 60 := roundHalfEven_le hRounded
  unfold Window.buckets maxBuckets
  omega

theorem bucketsBetween_minutes {start stop : F} {n m : ℤ}
    (hStart : PyFloat.toRat start = 60 * n) (hStop : PyFloat.toRat stop = 60 * m)
    (h : |m - n| ≤ 2 ^ 46) : bucketsBetween start stop = m - n := by
  have hSpan : PyFloat.toRat (spanOf start stop) = 60 * ((m - n : ℤ) : ℚ) := by
    unfold spanOf
    rw [hStart, hStop, ← mul_sub, ← Int.cast_sub]
    exact toRat_round_minutes h
  have hExact := BoundedFloat.exact (F := F) (m - n) (h.trans (by norm_num))
  unfold bucketsBetween bucketSeconds
  rw [hSpan, mul_div_cancel_left₀ _ (by norm_num), hExact]
  exact roundHalfEven_intCast _

theorem buckets_minutes {start stop : F} {k : ℕ} (hk : k ≤ 45) (hStart : OnMinute k start)
    (hStop : OnMinute k stop) :
    PyFloat.toRat stop = PyFloat.toRat start + 60 * (bucketsBetween start stop : ℚ) := by
  rcases hStart with ⟨n, hn, hnBound⟩
  rcases hStop with ⟨m, hm, hmBound⟩
  have hPow : (2 : ℤ) ^ k ≤ 2 ^ 45 := pow_le_pow_right₀ (by omega) hk
  have hn' := abs_le.mp hnBound
  have hm' := abs_le.mp hmBound
  have hCount := bucketsBetween_minutes hn hm (abs_le.mpr (by constructor <;> omega))
  rw [hCount, hn, hm]
  push_cast
  ring

-- Signals

/- Where the anomalous buckets of a detection sit. -/
structure Signals (b : Bundle F) (d : Detection F) : Prop where
  range : ∀ i ∈ d.indices, minBaselineBuckets ≤ i ∧ i < b.window.buckets
  first : ∀ x, d.firstSignal = some x → ∃ i ∈ d.indices, x = bucketStart b.window.start i
  last : ∀ x, d.lastSignal = some x → ∃ i ∈ d.indices, x = bucketStart b.window.start (i + 1)
  some : d.indices ≠ [] → ∃ x y, d.firstSignal = some x ∧ d.lastSignal = some y

theorem detectionOf_signals {b : Bundle F} {verdict : Classification F × List ℕ}
    (h : ∀ i ∈ verdict.2, minBaselineBuckets ≤ i ∧ i < b.window.buckets) :
    Signals b (detectionOf b.window.start verdict) := by
  constructor
  · rw [detectionOf_indices]
    exact h
  · intro x hx
    rw [detectionOf_indices]
    unfold detectionOf at hx
    split at hx
    · rename_i first last hFirst hLast
      cases hx
      exact ⟨first, List.mem_of_mem_head? hFirst, rfl⟩
    · cases hx
  · intro x hx
    rw [detectionOf_indices]
    unfold detectionOf at hx
    split at hx
    · rename_i first last hFirst hLast
      cases hx
      exact ⟨last, List.mem_of_mem_getLast? hLast, rfl⟩
    · cases hx
  · intro hSome
    rw [detectionOf_indices] at hSome
    unfold detectionOf
    split
    · exact ⟨_, _, rfl, rfl⟩
    · rename_i hNone
      cases hIndices : verdict.2 with
      | nil => exact absurd hIndices hSome
      | cons i rest =>
        rw [hIndices] at hNone
        exfalso
        apply hNone i ((i :: rest).getLast (List.cons_ne_nil _ _)) rfl
        exact List.getLast?_eq_some_getLast _

theorem judged_range {b : Bundle F} {facts : Facts F} {reference : Reference F}
    {verdict : Classification F × List ℕ}
    (h : Classifier.Judged b facts reference verdict) :
    ∀ i ∈ verdict.2, minBaselineBuckets ≤ i ∧ i < b.window.buckets := by
  intro i hi
  cases h with
  | quiet _ indices =>
    rw [indices] at hi
    cases hi
  | uncorroborated _ _ indices =>
    rw [indices] at hi
    cases hi
  | scattered _ indices =>
    rw [indices] at hi
    exact mem_candidates_range hi
  | attributed _ indices =>
    rw [indices] at hi
    exact mem_candidates_range hi

theorem signals_of_detect {evidence : Json F} {d : Detection F} (h : detect evidence = .ok d) :
    d.FailClosed ∨ ∃ b, Accepted evidence b ∧ Signals b d := by
  cases detect_detected h with
  | refused _ failClosed => exact Or.inl failClosed
  | short _ _ _ failClosed => exact Or.inl failClosed
  | judged b facts reference verdict accepted buckets gathered
      baselined judged detection =>
      right
      refine ⟨b, accepted, ?_⟩
      rw [detection]
      exact detectionOf_signals (judged_range judged)

/-
  The start of an opened row's window is a whole minute, and
  no earlier than the start of the discovery window.
-/
theorem opened_start {env : CycleEnv F} {lastEnd firstSignal : F} {rfs : Option F}
    {evidence : Members F} {detection : Detection F} (hEnd : OnMinute 32 lastEnd)
    (hJudged : Judged env (discoveryStart lastEnd) lastEnd rfs evidence detection)
    (hStatus : detection.classification.status = .incident)
    (hFirst : detection.firstSignal = some firstSignal) :
    OnMinute 35 (PyFloat.sub firstSignal (minBaselineBuckets * bucketSeconds) : F) ∧
      PyFloat.toRat (discoveryStart lastEnd) ≤ PyFloat.toRat (PyFloat.sub firstSignal
          (minBaselineBuckets * bucketSeconds) : F) := by
  rcases classifierBundle_some hJudged.bundle with ⟨hNonneg, hOrder, rows, _, _, rfl⟩
  rcases signals_of_detect hJudged.detected with
    hClosed | ⟨b, hAccepted, hSignals⟩
  · rw [hClosed.status] at hStatus
    cases hStatus
  · rcases hSignals.first firstSignal hFirst with ⟨i, hi, rfl⟩
    have hRange := hSignals.range i hi
    have hCount := buckets_le b.window
    have hStart := (window_of_bundle hNonneg hOrder hAccepted).1
    unfold minBaselineBuckets at hRange
    unfold maxBuckets at hCount
    rw [hStart]
    have hDiscovery := (discoveryStart_onMinute hEnd).1
    have hSignal := bucketStart_onMinute (i := i) hDiscovery (by omega) (by omega) (by omega)
    rcases hSignal.1 with ⟨n, hn, hBound⟩
    have hBound' := abs_le.mp hBound
    have hSub := toRat_sub_minutes (m := 3) hn (abs_le.mpr (by constructor <;> omega))
    have hSame : (PyFloat.sub (bucketStart (discoveryStart lastEnd) i)
          (minBaselineBuckets * bucketSeconds) : F) =
          PyFloat.sub (bucketStart (discoveryStart lastEnd) i) (60 * ((3 : ℤ) : ℚ)) := by
      unfold minBaselineBuckets bucketSeconds
      norm_num
    rw [hSame]
    refine ⟨⟨n - 3, hSub, abs_le.mpr ?_⟩, ?_⟩
    · constructor <;> omega
    · have hThree : (3 : ℚ) ≤ i := by exact_mod_cast hRange.1
      have hValue := hSignal.2
      rw [hn] at hValue
      rw [hSub]
      push_cast
      linarith

end SingboxOps.Scanner
