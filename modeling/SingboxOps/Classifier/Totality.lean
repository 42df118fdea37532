import SingboxOps.Classifier.Order
import Mathlib.Algebra.BigOperators.Group.List.Basic

/-
  When the analysis of accepted evidence returns, and that no
  order of the rows changes what it returns.
-/

namespace SingboxOps.Classifier

open JournalIngest (field hasExactly)

variable {F : Type} [BoundedFloat F]

-- Conversions

/- `float(n)` returns. -/
def Fits (F : Type) [BoundedFloat F] (n : ℤ) : Prop := |(n : ℚ)| < BoundedFloat.limit F

/- `hash(value)` returns. -/
def Hashable : Json F → Prop
  | .arr _ | .obj _ => False
  | _ => True

/- The middle of a list of counts. -/
def middle (counts : List ℕ) : ℕ := (counts.insertionSort (· ≤ ·)).getD (counts.length / 2) 0

/- The events of a key in a bucket. -/
def Bundle.journalCount (b : Bundle F) (key : JournalKey) (i : ℕ) : ℕ := (journalStats
    (bucketed JournalRow.ts b.window.start b.journalEvents i)
    ).count key

/-
  No count sum of a bucket and no median of a journal key is
  beyond the floats, and every device is named by a scalar.
-/
structure Convertible (b : Bundle F) : Prop where
  sums : ∀ i < b.window.buckets, ∀ name, Fits F (((bucketed SampleRow.epoch b.window.start b.samples i
        ).map (fun row => row.count name)).sum : ℕ)
  names : ∀ i < b.window.buckets, ∀ row ∈ bucketed DeviceRow.epoch b.window.start b.deviceStates i,
        Hashable row.device ∧ Hashable row.inbound
  medians :
    minBaselineBuckets < b.window.buckets → ∀ i < b.window.buckets,
        ∀ row ∈ bucketed JournalRow.ts b.window.start b.journalEvents i,
          Fits F (middle ((List.range minBaselineBuckets).map (b.journalCount row.key)) : ℕ)

theorem floatOfInt?_isSome {n : ℤ} : (floatOfInt? n : Option F).isSome = true ↔ Fits F n := by
  unfold floatOfInt? Fits
  split <;> simp_all

theorem fits_zero : Fits F 0 := by
  have h := BoundedFloat.toRat_lt_limit (PyFloat.round 0 : F)
  rw [PyFloat.toRat_round_zero] at h
  exact_mod_cast h

-- Loops Over Buckets

theorem forBuckets_congr {ε α : Type} {f g : ℕ → Except ε α} {n : ℕ}
    (h : ∀ i < n, f i = g i) : forBuckets f n = forBuckets g n := by
  induction n with
  | zero => rfl
  | succ n ih =>
    rw [forBuckets, forBuckets, ih (fun i hi => h i (by omega)), h n (by omega)]

theorem forBuckets_ok {ε α : Type} {f : ℕ → Except ε α} {g : ℕ → α} {n : ℕ}
    (h : ∀ i < n, f i = .ok (g i)) : forBuckets f n = .ok ((List.range n).map g) := by
  induction n with
  | zero => rfl
  | succ n ih =>
    rw [forBuckets, ih (fun i hi => h i (by omega)),
      h n (by omega), List.range_succ, List.map_append]
    rfl

theorem forBuckets_returns {ε α : Type} {f : ℕ → Except ε α} {n : ℕ} {xs : List α}
    (h : forBuckets f n = .ok xs) : ∀ i < n, ∃ x, f i = .ok x := by
  induction n generalizing xs with
  | zero =>
    intro i hi
    omega
  | succ n ih =>
    rw [forBuckets] at h
    rcases except_bind_ok h with ⟨done, hDone, h⟩
    rcases except_bind_ok h with ⟨last, hLast, _⟩
    intro i hi
    rcases Nat.lt_succ_iff_lt_or_eq.mp hi with hi | rfl
    · exact ih hDone i hi
    · exact ⟨last, hLast⟩

-- Samples

theorem meanOfCounts_returns {values : List ℕ} :
    (∃ x, (meanOfCounts values : Except Raised F) = .ok x) ↔ Fits F (values.sum : ℕ) := by
  unfold meanOfCounts
  cases values with
  | nil => exact iff_of_true ⟨_, rfl⟩ (by simpa using fits_zero)
  | cons v values =>
    rw [← floatOfInt?_isSome (F := F)]
    simp only [List.isEmpty_cons, Bool.false_eq_true, if_false]
    cases (floatOfInt? (((v :: values).sum : ℕ) : ℤ) : Option F) with
    | none => simp
    | some s => simp

theorem isEmpty_perm {α : Type} {l l' : List α} (h : l.Perm l') : l'.isEmpty = l.isEmpty := by
  rw [Bool.eq_iff_iff, List.isEmpty_iff, List.isEmpty_iff]
  constructor
  · intro hNil
    rw [hNil] at h
    exact h.eq_nil
  · intro hNil
    rw [hNil] at h
    exact h.nil_eq.symm

theorem meanOfCounts_perm {values values' : List ℕ} (h : values.Perm values') :
    (meanOfCounts values' : Except Raised F) = meanOfCounts values := by
  unfold meanOfCounts
  rw [isEmpty_perm h, h.sum_eq, h.length_eq]

theorem sampleStats_returns {rows : List (SampleRow F)} : (∃ stats, sampleStats rows = .ok stats) ↔
      ∀ name, Fits F ((rows.map (fun row => row.count name)).sum : ℕ) := by
  constructor
  · rintro ⟨stats, h⟩
    unfold sampleStats at h
    rcases except_bind_ok h with ⟨m1, h1, h⟩
    rcases except_bind_ok h with ⟨m2, h2, h⟩
    rcases except_bind_ok h with ⟨m3, h3, h⟩
    rcases except_bind_ok h with ⟨m4, h4, h⟩
    intro name
    cases name with
    | total => exact meanOfCounts_returns.mp ⟨m1, h1⟩
    | reality => exact meanOfCounts_returns.mp ⟨m2, h2⟩
    | hysteria2 => exact meanOfCounts_returns.mp ⟨m3, h3⟩
    | other => exact meanOfCounts_returns.mp ⟨m4, h4⟩
  · intro h
    rcases meanOfCounts_returns.mpr (h .total) with ⟨m1, h1⟩
    rcases meanOfCounts_returns.mpr (h .reality) with ⟨m2, h2⟩
    rcases meanOfCounts_returns.mpr (h .hysteria2) with ⟨m3, h3⟩
    rcases meanOfCounts_returns.mpr (h .other) with ⟨m4, h4⟩
    unfold sampleStats
    have e1 : meanOfCounts (rows.map SampleRow.total) = .ok m1 := h1
    have e2 : meanOfCounts (rows.map SampleRow.reality) = .ok m2 := h2
    have e3 : meanOfCounts (rows.map SampleRow.hysteria2) = .ok m3 := h3
    have e4 : meanOfCounts (rows.map SampleRow.other) = .ok m4 := h4
    rw [e1, e2, e3, e4]
    exact ⟨_, rfl⟩

theorem sampleStats_perm {rows rows' : List (SampleRow F)}
    (h : rows.Perm rows') : sampleStats rows' = sampleStats rows := by
  unfold sampleStats
  rw [meanOfCounts_perm (h.map SampleRow.total), meanOfCounts_perm (h.map SampleRow.reality),
    meanOfCounts_perm (h.map SampleRow.hysteria2),
    meanOfCounts_perm (h.map SampleRow.other),
    h.length_eq, h.countP_eq, h.countP_eq]

-- Devices

theorem hashKey_returns {value : Json F} : (∃ key, hashKey value = .ok key) ↔ Hashable value := by
  cases value with
  | float x => cases x <;> simp [hashKey, Hashable]
  | _ => simp [hashKey, Hashable]

/- The pair of a row whose names have a hash. -/
def pairOf (row : DeviceRow F) : PairRow where
  pair := ((hashKey row.device).toOption.getD .none, (hashKey row.inbound).toOption.getD .none)
  epoch := row.epoch.exact
  active := row.activeConnections

theorem pairRow_ok {row : DeviceRow F}
    (h : Hashable row.device ∧ Hashable row.inbound) : pairRow row = .ok (pairOf row) := by
  rcases hashKey_returns.mpr h.1 with ⟨device, hDevice⟩
  rcases hashKey_returns.mpr h.2 with ⟨inbound, hInbound⟩
  unfold pairRow pairOf
  rw [hDevice, hInbound]
  rfl

theorem pairRows_ok {rows : List (DeviceRow F)} (h : ∀ row ∈ rows,
      Hashable row.device ∧ Hashable row.inbound) :
    pairRows rows = .ok (rows.map pairOf) := by
  unfold pairRows
  induction rows with
  | nil => rfl
  | cons row rows ih =>
    rw [List.mapM_cons, pairRow_ok (h row List.mem_cons_self),
      ih (fun r hr => h r (List.mem_cons_of_mem row hr))]
    rfl

theorem pairRows_returns {rows : List (DeviceRow F)} {pairs : List PairRow} (h : pairRows rows = .ok pairs) :
    ∀ row ∈ rows, Hashable row.device ∧ Hashable row.inbound := by
  unfold pairRows at h
  induction rows generalizing pairs with
  | nil =>
    intro row hRow
    cases hRow
  | cons row rows ih =>
    rw [List.mapM_cons] at h
    rcases except_bind_ok h with ⟨first, hFirst, h⟩
    rcases except_bind_ok h with ⟨others, hOthers, _⟩
    intro r hr
    rcases List.mem_cons.mp hr with rfl | hr
    · unfold pairRow at hFirst
      rcases except_bind_ok hFirst with ⟨device, hDevice, hFirst⟩
      rcases except_bind_ok hFirst with ⟨inbound, hInbound, _⟩
      exact ⟨hashKey_returns.mp ⟨device, hDevice⟩, hashKey_returns.mp ⟨inbound, hInbound⟩⟩
    · exact ih hOthers r hr

theorem pairsSeen_perm {rows rows' : List PairRow} (h : rows.Perm rows') : pairsSeen rows' = pairsSeen rows :=
  List.toFinset_eq_of_perm _ _ (h.map PairRow.pair).symm

theorem latest_perm {rows rows' : List PairRow} (h : rows.Perm rows')
    (pair : Key × Key) : latest rows' pair = latest rows pair := by
  unfold latest
  apply List.Perm.foldl_eq'
  · exact (h.filter _).symm
  · intro a _ b _ current
    exact max_right_comm _ _ _

theorem deviceStats_perm {rows rows' : List PairRow} (h : rows.Perm rows') (pairsKnown : Finset (Key × Key)) :
    deviceStats pairsKnown rows' = deviceStats pairsKnown rows := by
  have hQuiet : ∀ pair, quietPair rows' pair = quietPair rows pair := by
    intro pair
    unfold quietPair
    rw [latest_perm h]
  unfold deviceStats
  simp only [pairsSeen_perm h, hQuiet]

-- Probes, Journal and Audit

theorem probeStats_perm {rows rows' : List (ProbeRow F)}
    (h : rows.Perm rows') : probeStats rows' = probeStats rows := by
  have hSlot : ∀ f : ProbeRow F → SlotAnswer, slotStats (rows'.map f) = slotStats (rows.map f) := by
    intro f
    unfold slotStats
    rw [(h.map f).countP_eq, (h.map f).countP_eq, (h.map f).countP_eq]
  unfold probeStats
  rw [hSlot, hSlot, hSlot, hSlot, h.length_eq, h.countP_eq]

theorem journalStats_perm {rows rows' : List (JournalRow F)}
    (h : rows.Perm rows') : journalStats rows' = journalStats rows := by
  unfold journalStats
  congr 1
  · exact List.toFinset_eq_of_perm _ _ (h.map _).symm
  · funext key
    exact (((h.filter _).map JournalRow.n).sum_eq).symm
  · exact List.toFinset_eq_of_perm _ _ (h.map _).symm

theorem auditView_perm {rows rows' : List (AuditRow F)}
    (h : rows.Perm rows') : auditView rows' = auditView rows := by
  unfold auditView
  rw [h.any_eq, h.any_eq, List.toFinset_eq_of_perm _ _ (h.map AuditRow.code)]

-- Reordered Bundles

/- Two bundles that differ in the order of their rows. -/
structure BundleReordered (b b' : Bundle F) : Prop where
  window : b'.window = b.window
  degraded : b'.degraded = b.degraded
  reader : b'.reader = b.reader
  samples : b.samples.Perm b'.samples
  deviceStates : b.deviceStates.Perm b'.deviceStates
  probeRows : b.probeRows.Perm b'.probeRows
  journalEvents : b.journalEvents.Perm b'.journalEvents
  audit : b.audit.Perm b'.audit

theorem rowsOf_sameRows {α : Type} (read : Json F → Gate α) {v v' : Json F}
    (h : SameRows v v') : (rowsOf read v).Perm (rowsOf read v') := by
  rcases h with rfl | ⟨rows, rows', rfl, rfl, hPerm⟩
  · exact List.Perm.refl _
  · exact hPerm.filterMap _

theorem readBundle_reordered {members members' : Members F}
    (h : List.Forall₂ MemberReordered members members')
    (w : Window F) : BundleReordered (readBundle members w) (readBundle members' w) := by
  have hHealth : sectionOf members' .health =
      sectionOf members .health := by
    unfold sectionOf
    rw [(getItem_reordered h _).1 (by decide)]
  have hReader : sectionOf members' .reader =
      sectionOf members .reader := by
    unfold sectionOf
    rw [(getItem_reordered h _).1 (by decide)]
  constructor
  · rfl
  · unfold readBundle
    rw [hHealth]
  · unfold readBundle
    rw [hReader]
  · exact rowsOf_sameRows _ (getItem_reordered h _).2
  · exact rowsOf_sameRows _ (getItem_reordered h _).2
  · exact rowsOf_sameRows _ (getItem_reordered h _).2
  · exact rowsOf_sameRows _ (getItem_reordered h _).2
  · exact rowsOf_sameRows _ (getItem_reordered h _).2

theorem bucketed_perm {α : Type} {rows rows' : List α} (h : rows.Perm rows') (stamp : α → Stamp F) (start : F)
    (i : ℕ) : (bucketed stamp start rows i).Perm (bucketed stamp start rows' i) :=
  h.filter _

/- The statistics of a bundle whose devices have names. -/
def factsOf (b : Bundle F) (samples : List (SampleStats F)) : Facts F :=
  let start := b.window.start
  let buckets := b.window.buckets
  let pairs := (List.range buckets).map (fun i =>
    (bucketed DeviceRow.epoch start b.deviceStates i).map pairOf)
  { samples
    devices := pairs.map (deviceStats (pairsSeen pairs.flatten))
    probes := (List.range buckets).map (fun i =>
      probeStats (bucketed ProbeRow.epoch start b.probeRows i))
    journal := (List.range buckets).map (fun i =>
      journalStats (bucketed JournalRow.ts start b.journalEvents i))
    audit := auditView ((List.range buckets).flatMap
      (bucketed AuditRow.epoch start b.audit)) }

theorem gather_eq {b : Bundle F} (h : ∀ i < b.window.buckets,
      ∀ row ∈ bucketed DeviceRow.epoch b.window.start b.deviceStates i,
        Hashable row.device ∧ Hashable row.inbound) :
    gather b = (forBuckets (fun i => sampleStats (bucketed SampleRow.epoch b.window.start b.samples i))
        b.window.buckets).map (factsOf b) := by
  unfold gather
  dsimp only
  rw [forBuckets_ok (f := fun i => pairRows (bucketed DeviceRow.epoch b.window.start b.deviceStates i))
    (fun i hi => pairRows_ok (h i hi))]
  cases forBuckets (fun i => sampleStats (bucketed SampleRow.epoch b.window.start b.samples i))
      b.window.buckets with
  | error e => rfl
  | ok samples => rfl

theorem factsOf_reordered {b b' : Bundle F} (h : BundleReordered b b')
    (samples : List (SampleStats F)) : factsOf b' samples = factsOf b samples := by
  have hDevice := fun i => (bucketed_perm h.deviceStates DeviceRow.epoch b.window.start i).map pairOf
  have hKnown : pairsSeen ((List.range b.window.buckets).map (fun i =>
          (bucketed DeviceRow.epoch b.window.start b'.deviceStates i).map pairOf)).flatten =
        pairsSeen ((List.range b.window.buckets).map (fun i =>
          (bucketed DeviceRow.epoch b.window.start b.deviceStates i).map pairOf)).flatten := by
    apply pairsSeen_perm
    exact List.Perm.flatMap_left _ (fun i _ => hDevice i)
  have hAudit : auditView ((List.range b.window.buckets).flatMap
          (bucketed AuditRow.epoch b.window.start b'.audit)) =
        auditView ((List.range b.window.buckets).flatMap
          (bucketed AuditRow.epoch b.window.start b.audit)) := by
    apply auditView_perm
    exact List.Perm.flatMap_left _ (fun i _ => bucketed_perm h.audit _ _ i)
  unfold factsOf
  simp only [h.window, List.map_map]
  rw [hKnown, hAudit]
  congr 1
  · apply List.map_congr_left
    intro i _
    exact deviceStats_perm (hDevice i) _
  · apply List.map_congr_left
    intro i _
    exact probeStats_perm (bucketed_perm h.probeRows _ _ i)
  · apply List.map_congr_left
    intro i _
    exact journalStats_perm (bucketed_perm h.journalEvents _ _ i)

theorem gather_reordered {b b' : Bundle F} (hNames : ∀ i < b.window.buckets,
      ∀ row ∈ bucketed DeviceRow.epoch b.window.start b.deviceStates i,
        Hashable row.device ∧ Hashable row.inbound)
    (h : BundleReordered b b') : gather b' = gather b := by
  have hNames' : ∀ i < b'.window.buckets, ∀ row ∈ bucketed DeviceRow.epoch b'.window.start b'.deviceStates i,
        Hashable row.device ∧ Hashable row.inbound := by
    rw [h.window]
    intro i hi row hRow
    exact hNames i hi row ((bucketed_perm h.deviceStates _ _ i).mem_iff.mpr hRow)
  rw [gather_eq hNames, gather_eq hNames', h.window]
  have hSamples : forBuckets (fun i => sampleStats (bucketed SampleRow.epoch b.window.start b'.samples i))
          b.window.buckets =
        forBuckets (fun i => sampleStats (bucketed SampleRow.epoch b.window.start b.samples i))
          b.window.buckets := by
    apply forBuckets_congr
    intro i _
    exact sampleStats_perm (bucketed_perm h.samples _ _ i)
  rw [hSamples]
  have hFacts : factsOf b' = factsOf b := funext (factsOf_reordered h)
  rw [hFacts]

theorem judge_reordered {b b' : Bundle F} (h : BundleReordered b b') : judge b' = judge b := by
  funext facts reference notes
  unfold judge Bundle.looked
  rw [h.window, h.reader, isEmpty_perm h.probeRows, isEmpty_perm h.journalEvents]

theorem analyse_reordered {b b' : Bundle F} (hNames : ∀ i < b.window.buckets,
      ∀ row ∈ bucketed DeviceRow.epoch b.window.start b.deviceStates i,
        Hashable row.device ∧ Hashable row.inbound)
    (h : BundleReordered b b') : analyse b' = analyse b := by
  unfold analyse
  rw [gather_reordered hNames h, h.degraded, judge_reordered h, h.window]

-- When the Analysis Returns

theorem medianReturns_iff {counts : List ℕ} (hOdd : counts.length % 2 = 1) :
    medianReturns F counts = true ↔ Fits F (middle counts : ℕ) := by
  rw [← floatOfInt?_isSome (F := F)]
  have hNonempty : counts.isEmpty = false := by
    rw [← Bool.not_eq_true, List.isEmpty_iff]
    rintro rfl
    cases hOdd
  unfold medianReturns median middle
  rw [hNonempty]
  simp only [List.length_insertionSort, Bool.false_eq_true, if_false, hOdd, if_true]
  cases (floatOfInt? (((counts.insertionSort (· ≤ ·)).getD (counts.length / 2) 0 : ℕ) : ℤ) : Option F) with
  | none => simp
  | some x => simp

theorem mem_journalKeys {journal : List JournalStats}
    {key : JournalKey} : key ∈ journalKeys journal ↔ ∃ j ∈ journal, key ∈ j.keys := by
  induction journal with
  | nil => simp [journalKeys]
  | cons j journal ih =>
    have hStep : journalKeys (j :: journal) = j.keys ∪ journalKeys journal := rfl
    rw [hStep, Finset.mem_union, ih]
    simp only [List.mem_cons, exists_eq_or_imp]

theorem baselineCounts_factsOf {b : Bundle F}
    (hLong : minBaselineBuckets < b.window.buckets) (samples : List (SampleStats F))
    (key : JournalKey) :
    baselineCounts (factsOf b samples).journal key =
      (List.range minBaselineBuckets).map (b.journalCount key) := by
  unfold baselineCounts factsOf
  dsimp only
  rw [← List.map_take, List.take_range, List.map_map, min_eq_left hLong.le]
  rfl

theorem baseline_returns {b : Bundle F} (hLong : minBaselineBuckets < b.window.buckets)
    (samples : List (SampleStats F)) : (∃ reference,
        baseline samples (factsOf b samples).journal = .ok reference) ↔
      ∀ i < b.window.buckets, ∀ row ∈ bucketed JournalRow.ts b.window.start b.journalEvents i,
          Fits F (middle ((List.range minBaselineBuckets).map (b.journalCount row.key)) : ℕ) := by
  have hKeys : (∀ key ∈ journalKeys (factsOf b samples).journal,
          medianReturns F (baselineCounts (factsOf b samples).journal key) = true) ↔
        ∀ i < b.window.buckets, ∀ row ∈ bucketed JournalRow.ts b.window.start b.journalEvents i,
            Fits F (middle ((List.range minBaselineBuckets).map (b.journalCount row.key)) : ℕ) := by
    have hMedian : ∀ key, medianReturns F (baselineCounts (factsOf b samples).journal key) = true ↔
          Fits F (middle ((List.range minBaselineBuckets).map (b.journalCount key)) : ℕ) := by
      intro key
      rw [baselineCounts_factsOf hLong]
      apply medianReturns_iff
      rw [List.length_map, List.length_range]
      rfl
    simp only [hMedian]
    constructor
    · intro h i hi row hRow
      apply h
      rw [mem_journalKeys]
      refine ⟨_, List.mem_map_of_mem (List.mem_range.mpr hi), ?_⟩
      exact List.mem_toFinset.mpr (List.mem_map_of_mem hRow)
    · intro h key hKey
      rcases mem_journalKeys.mp hKey with ⟨j, hj, hKey⟩
      rcases List.mem_map.mp hj with ⟨i, hi, rfl⟩
      rcases List.mem_map.mp (List.mem_toFinset.mp hKey) with ⟨row, hRow, rfl⟩
      exact h i (List.mem_range.mp hi) row hRow
  rw [← hKeys]
  unfold baseline
  split
  · rename_i h
    exact iff_of_true ⟨_, rfl⟩ h
  · rename_i h
    apply iff_of_false _ h
    rintro ⟨reference, hReference⟩
    cases hReference

theorem analyse_of_gather {b : Bundle F} {facts : Facts F} (h : gather b = .ok facts) : analyse b =
      if b.window.buckets ≤ minBaselineBuckets then
        .ok (sealed .indeterminate .insufficient b.window.echo
          ((observations facts b.degraded).lack true .baselineEvidenceAbsent), [])
      else
        (baseline facts.samples facts.journal).map
          (fun reference => judge b facts reference (observations facts b.degraded)) := by
  unfold analyse
  rw [h]
  change (if b.window.buckets ≤ minBaselineBuckets then _
    else baseline facts.samples facts.journal >>= _) = _
  split
  · rfl
  · cases baseline facts.samples facts.journal <;> rfl

theorem analyse_returns_iff {b : Bundle F} : (∃ verdict, analyse b = .ok verdict) ↔ Convertible b := by
  constructor
  · rintro ⟨verdict, h⟩
    unfold analyse at h
    rcases except_bind_ok h with ⟨facts, hFacts, h⟩
    have hGather := hFacts
    unfold gather at hGather
    dsimp only at hGather
    rcases except_bind_ok hGather with ⟨samples, hSamples, hGather⟩
    rcases except_bind_ok hGather with ⟨pairs, hPairs, _⟩
    have hNames : ∀ i < b.window.buckets, ∀ row ∈ bucketed DeviceRow.epoch b.window.start b.deviceStates i,
          Hashable row.device ∧ Hashable row.inbound := by
      intro i hi
      rcases forBuckets_returns hPairs i hi with ⟨x, hx⟩
      exact pairRows_returns hx
    refine ⟨?_, hNames, ?_⟩
    · intro i hi
      exact sampleStats_returns.mp (forBuckets_returns hSamples i hi)
    · intro hLong
      rw [gather_eq hNames, hSamples] at hFacts
      cases hFacts
      dsimp only at h
      rw [if_neg (not_le.mpr hLong)] at h
      rcases except_bind_ok h with ⟨reference, hReference, _⟩
      exact (baseline_returns hLong samples).mp ⟨reference, hReference⟩
  · intro h
    have hSamples : ∃ samples, forBuckets (fun i => sampleStats
          (bucketed SampleRow.epoch b.window.start b.samples i))
          b.window.buckets = .ok samples := by
      have hEach : ∀ i, ∃ stats, i < b.window.buckets →
          sampleStats (bucketed SampleRow.epoch b.window.start b.samples i) = .ok stats := by
        intro i
        by_cases hi : i < b.window.buckets
        · rcases sampleStats_returns.mpr (h.sums i hi) with ⟨stats, hStats⟩
          exact ⟨stats, fun _ => hStats⟩
        · exact ⟨SampleStats.empty, fun hi' => absurd hi' hi⟩
      choose g hg using hEach
      exact ⟨_, forBuckets_ok (g := g) hg⟩
    rcases hSamples with ⟨samples, hSamples⟩
    have hFacts : gather b = .ok (factsOf b samples) := by
      rw [gather_eq h.names, hSamples]
      rfl
    rw [analyse_of_gather hFacts]
    by_cases hLong : minBaselineBuckets < b.window.buckets
    · rw [if_neg (not_le.mpr hLong)]
      rcases (baseline_returns hLong samples).mpr (h.medians hLong) with ⟨reference, hReference⟩
      have hReference' : baseline (factsOf b samples).samples (factsOf b samples).journal = .ok reference :=
        hReference
      rw [hReference']
      exact ⟨_, rfl⟩
    · rw [if_pos (not_lt.mp hLong)]
      exact ⟨_, rfl⟩

end SingboxOps.Classifier
