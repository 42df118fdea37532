import SingboxOps.Classifier.Verdict
import SingboxOps.Lib.Except

/-
  What the evidence of a window has to show for a verdict.

  The decision list reads flags folded from the marks of the
  candidate buckets.  Here each flag is traced back to the
  buckets: a burst of a journal key, a run of failing probes,
  a process mark or a dropped count.
-/

namespace SingboxOps.Classifier

open JournalIngest (JournalProto JournalDcls)

variable {F : Type} [BoundedFloat F]

-- Evidence of a Bucket

/- A journal key reaches its burst threshold in a bucket. -/
def Bursts (facts : Facts F) (reference : Reference F) (i : ℕ) (key : JournalKey) : Prop :=
  key ∈ (facts.journalAt i).keys ∧ (reference.threshold key).leInt ((facts.journalAt i).count key) = true

/- A failing bucket with a failing neighbour. -/
def FailsTwice (failed : ℕ → Bool) (i : ℕ) : Prop :=
  failed i = true ∧ (failed (i + 1) = true ∨ ∃ j, j + 1 = i ∧ failed j = true)

/- A slot failed for the network in a bucket and one beside it. -/
def ProbeRun (facts : Facts F) (i : ℕ) (slot : ProbeSlot) : Prop :=
  FailsTwice (slotFailed facts.probes slot) i

/- A coverage gap, a stale interface or a stale collector. -/
def ProcessMarked (facts : Facts F) (i : ℕ) : Prop := processMarks facts.hasSamples (facts.sampleAt i) ≠ ∅

/- A connection count dropped against the baseline. -/
def Drops (facts : Facts F) (reference : Reference F) (i : ℕ) (name : CountField) : Prop :=
  name ∈ connectionMarks reference (facts.sampleAt i)

/- A bucket with evidence outside the interface's counts. -/
def Corroborated (facts : Facts F) (reference : Reference F) (i : ℕ) : Prop :=
  (∃ key, Bursts facts reference i key) ∨ (∃ slot, ProbeRun facts i slot) ∨ ProcessMarked facts i

/- Both transports' own counts dropped somewhere in a cluster. -/
def SharedImpact (facts : Facts F) (reference : Reference F) (cluster : List ℕ) : Prop :=
  (∃ i ∈ cluster, Drops facts reference i .reality) ∧ ∃ i ∈ cluster, Drops facts reference i .hysteria2

/- A burst in a cluster that points to a place. -/
def BurstAt (facts : Facts F) (reference : Reference F) (cluster : List ℕ) (place : BurstPlace) : Prop :=
  ∃ i ∈ cluster, ∃ key, Bursts facts reference i key ∧ key.place = place

/- A failing run of a generic slot in a cluster. -/
def GenericProbeRun (facts : Facts F) (cluster : List ℕ) : Prop :=
  ∃ i ∈ cluster, ∃ slot ∈ ProbeSlot.generic, ProbeRun facts i slot

/- Evidence that the network is at fault in a cluster. -/
def NetworkEvidence (facts : Facts F) (reference : Reference F) (cluster : List ℕ) : Prop :=
  BurstAt facts reference cluster .reality ∨ BurstAt facts reference cluster .hysteria2 ∨
    BurstAt facts reference cluster .generic ∨
    BurstAt facts reference cluster .destination ∨
    GenericProbeRun facts cluster ∨
    SharedImpact facts reference cluster

/- Adjacent buckets, one after the other. -/
def Contiguous (cluster : List ℕ) : Prop := cluster ≠ [] ∧ cluster.IsChain (fun i j => j = i + 1)

-- Failing Runs

/-
  What the loop has found before a bucket: the run that is
  still open, and the marks of the runs that have ended.
-/
structure RunState (failed : ℕ → Bool) (n : ℕ) (state : List ℕ × Finset ℕ) : Prop where
  nodup : state.1.Nodup
  run : ∀ i, i ∈ state.1 ↔ i < n ∧ ∀ j, i ≤ j → j < n → failed j = true
  marks : ∀ i, i ∈ state.2 ↔ i < n ∧ i ∉ state.1 ∧ FailsTwice failed i

theorem RunState.long_iff {failed : ℕ → Bool} {n : ℕ} {state : List ℕ × Finset ℕ}
    (h : RunState failed n state) (hEnd : failed n = false) {i : ℕ}
    (hi : i ∈ state.1) : 2 ≤ state.1.length ↔ FailsTwice failed i := by
  rcases (h.run i).mp hi with ⟨hLt, hFails⟩
  constructor
  · intro hLong
    -- another member of the run stands before or after
    have hOther : ∃ k ∈ state.1, k ≠ i := by
      by_contra hNone
      push Not at hNone
      have hLe : state.1.length ≤ [i].length := by
        apply h.nodup.length_le_of_subset
        intro k hk
        exact List.mem_singleton.mpr (hNone k hk)
      rw [List.length_singleton] at hLe
      omega
    rcases hOther with ⟨k, hk, hNe⟩
    rcases (h.run k).mp hk with ⟨hkLt, hkFails⟩
    refine ⟨hFails i (le_refl i) hLt, ?_⟩
    rcases Nat.lt_or_ge k i with hBefore | hAfter
    · exact Or.inr ⟨i - 1, by omega,
        hkFails (i - 1) (by omega) (by omega)⟩
    · exact Or.inl (hFails (i + 1) (by omega) (by omega))
  · intro hTwice
    have hPair : ∃ k ∈ state.1, k ≠ i := by
      rcases hTwice.2 with hNext | ⟨j, hj, hPrev⟩
      · refine ⟨i + 1, (h.run _).mpr ⟨?_, ?_⟩, by omega⟩
        · by_contra hGe
          have hEq : i + 1 = n := by omega
          rw [hEq, hEnd] at hNext
          cases hNext
        · intro m hm hmLt
          exact hFails m (by omega) hmLt
      · refine ⟨j, (h.run _).mpr ⟨by omega, ?_⟩, by omega⟩
        intro m hm hmLt
        rcases Nat.eq_or_lt_of_le hm with rfl | hGt
        · exact hPrev
        · exact hFails m (by omega) hmLt
    rcases hPair with ⟨k, hk, hNe⟩
    have hTwo : [i, k].length ≤ state.1.length := by
      apply List.Nodup.length_le_of_subset
      · simpa using Ne.symm hNe
      · intro m hm
        rcases List.mem_cons.mp hm with rfl | hm
        · exact hi
        · rw [List.mem_singleton.mp hm]
          exact hk
    exact hTwo

theorem RunState.flush {failed : ℕ → Bool} {n : ℕ} {state : List ℕ × Finset ℕ}
    (h : RunState failed n state) (hEnd : failed n = false)
    (i : ℕ) : i ∈ flushRun state.1 state.2 ↔ i < n ∧ FailsTwice failed i := by
  have hMarks := h.marks i
  by_cases hi : i ∈ state.1
  · have hLong := h.long_iff hEnd hi
    have hLt := ((h.run i).mp hi).1
    unfold flushRun
    by_cases hTwo : probeFailMinBuckets ≤ state.1.length
    · rw [if_pos hTwo, Finset.mem_union, List.mem_toFinset]
      exact iff_of_true (Or.inr hi) ⟨hLt, hLong.mp hTwo⟩
    · rw [if_neg hTwo, hMarks]
      apply iff_of_false
      · intro hAll
        exact hAll.2.1 hi
      · intro hAll
        exact hTwo (hLong.mpr hAll.2)
  · unfold flushRun
    have hIff : i ∈ state.2 ↔ i < n ∧ FailsTwice failed i := by
      rw [hMarks]
      exact ⟨fun hAll => ⟨hAll.1, hAll.2.2⟩, fun hAll => ⟨hAll.1, hi, hAll.2⟩⟩
    split
    · rw [Finset.mem_union, List.mem_toFinset, hIff]
      exact or_iff_left hi
    · exact hIff

theorem probeRuns_state (failed : ℕ → Bool) (n : ℕ) : RunState failed n (probeRuns failed n) := by
  induction n with
  | zero =>
    constructor
    · exact List.nodup_nil
    · intro i
      simp [probeRuns]
    · intro i
      simp [probeRuns]
  | succ n ih =>
    rw [probeRuns]
    cases hFailed : failed n with
    | true =>
      rw [if_pos rfl]
      have hNew : n ∉ (probeRuns failed n).1 := by
        intro hMem
        exact absurd ((ih.run n).mp hMem).1 (lt_irrefl n)
      constructor
      · exact List.nodup_append.mpr ⟨ih.nodup, List.nodup_singleton n, by
            intro a ha b hb
            rw [List.mem_singleton.mp hb]
            intro hEq
            exact hNew (hEq ▸ ha)⟩
      · intro i
        rw [List.mem_append, List.mem_singleton, ih.run]
        constructor
        · rintro (⟨hLt, hAll⟩ | rfl)
          · refine ⟨by omega, ?_⟩
            intro j hij hj
            rcases Nat.lt_succ_iff_lt_or_eq.mp hj with hj | rfl
            · exact hAll j hij hj
            · exact hFailed
          · refine ⟨by omega, ?_⟩
            intro j hij hj
            have hEq : j = i := by omega
            rw [hEq]
            exact hFailed
        · rintro ⟨hLt, hAll⟩
          by_cases hEq : i = n
          · exact Or.inr hEq
          · left
            refine ⟨by omega, ?_⟩
            intro j hij hj
            exact hAll j hij (by omega)
      · intro i
        dsimp only
        rw [ih.marks, List.mem_append, List.mem_singleton]
        constructor
        · rintro ⟨hLt, hOut, hTwice⟩
          refine ⟨by omega, ?_, hTwice⟩
          rintro (hIn | hEq)
          · exact hOut hIn
          · omega
        · rintro ⟨hLt, hOut, hTwice⟩
          rw [not_or] at hOut
          exact ⟨by omega, hOut.1, hTwice⟩
    | false =>
      rw [if_neg Bool.false_ne_true]
      constructor
      · exact List.nodup_nil
      · intro i
        refine iff_of_false (by simp) ?_
        rintro ⟨hLt, hAll⟩
        rw [hAll n (by omega) (by omega)] at hFailed
        cases hFailed
      · intro i
        dsimp only
        rw [ih.flush hFailed]
        constructor
        · rintro ⟨hLt, hTwice⟩
          exact ⟨by omega, by simp, hTwice⟩
        · rintro ⟨hLt, _, hTwice⟩
          refine ⟨?_, hTwice⟩
          by_contra hGe
          have hEq : i = n := by omega
          rw [hEq] at hTwice
          rw [hTwice.1] at hFailed
          cases hFailed

theorem slotFailed_lt {probes : List ProbeStats} {slot : ProbeSlot} {i : ℕ}
    (h : slotFailed probes slot i = true) : i < probes.length := by
  by_contra hGe
  unfold slotFailed at h
  rw [List.getElem?_eq_none (by omega)] at h
  cases h

theorem mem_probeMarks {facts : Facts F} {i : ℕ}
    {slot : ProbeSlot} : slot ∈ probeMarks facts.probes i ↔ ProbeRun facts i slot := by
  have hEnd : slotFailed facts.probes slot facts.probes.length = false := by
    rw [← Bool.not_eq_true]
    intro h
    exact absurd (slotFailed_lt h) (lt_irrefl _)
  have hFlush : i ∈ probeFailures facts.probes slot ↔ i < facts.probes.length ∧ ProbeRun facts i slot :=
    (probeRuns_state (slotFailed facts.probes slot) facts.probes.length).flush hEnd i
  have hAll : slot ∈ ProbeSlot.all.toFinset := by
    cases slot <;> decide
  rw [probeMarks, Finset.mem_filter]
  constructor
  · rintro ⟨_, hMarked⟩
    exact (hFlush.mp (by simpa using hMarked)).2
  · intro hRun
    refine ⟨hAll, ?_⟩
    simpa using hFlush.mpr ⟨slotFailed_lt hRun.1, hRun⟩

-- Clusters

theorem clusters_flatten (indices : List ℕ) : (clusters indices).flatten = indices := by
  induction indices with
  | nil => rfl
  | cons index rest ih =>
    rw [clusters]
    split
    · rename_i next run runs hRest
      rw [hRest] at ih
      split
      · rw [← ih]
        rfl
      · rw [← ih]
        rfl
    · rw [List.flatten_cons, ih]
      rfl

theorem clusters_chain (indices : List ℕ) : ∀ run ∈ clusters indices,
      run ≠ [] ∧ run.IsChain (fun i j => j = i + 1) := by
  induction indices with
  | nil =>
    intro run hRun
    cases hRun
  | cons index rest ih =>
    intro run hRun
    rw [clusters] at hRun
    split at hRun
    · rename_i next tail runs hRest
      rw [hRest] at ih
      split at hRun
      · rename_i hNext
        rcases List.mem_cons.mp hRun with rfl | hRun
        · refine ⟨List.cons_ne_nil _ _, ?_⟩
          exact List.IsChain.cons_cons hNext (ih _ List.mem_cons_self).2
        · exact ih run (List.mem_cons_of_mem _ hRun)
      · rcases List.mem_cons.mp hRun with rfl | hRun
        · exact ⟨List.cons_ne_nil _ _, List.IsChain.singleton _⟩
        · exact ih run hRun
    · rcases List.mem_cons.mp hRun with rfl | hRun
      · exact ⟨List.cons_ne_nil _ _, List.IsChain.singleton _⟩
      · exact ih run hRun

theorem contiguous_of_clusters {indices : List ℕ} (hNonempty : indices ≠ [])
    (hOne : ¬ 1 < (clusters indices).length) : Contiguous indices := by
  have hFlat := clusters_flatten indices
  have hChain := clusters_chain indices
  cases hClusters : clusters indices with
  | nil =>
    rw [hClusters] at hFlat
    exact absurd hFlat.symm hNonempty
  | cons run runs =>
    rw [hClusters] at hFlat hChain hOne
    have hNil : runs = [] := by
      apply List.eq_nil_of_length_eq_zero
      rw [List.length_cons] at hOne
      omega
    rw [hNil, List.flatten_cons, List.flatten_nil, List.append_nil] at hFlat
    rw [← hFlat]
    exact hChain run List.mem_cons_self

-- Flags

variable {facts : Facts F} {reference : Reference F}

theorem mem_journalMarks {i : ℕ} {key : JournalKey} :
    key ∈ (bucketMarks facts reference i).journal ↔ Bursts facts reference i key :=
  Finset.mem_filter

theorem mergedMarks_journal {indices : List ℕ} {key : JournalKey} :
    key ∈ (mergedMarks facts reference indices).journal ↔ ∃ i ∈ indices, Bursts facts reference i key := by
  induction indices with
  | nil => simp [mergedMarks]
  | cons i rest ih =>
    have hStep : (mergedMarks facts reference (i :: rest)).journal =
          (bucketMarks facts reference i).journal ∪ (mergedMarks facts reference rest).journal := rfl
    rw [hStep, Finset.mem_union, mem_journalMarks, ih]
    simp only [List.mem_cons, exists_eq_or_imp]

theorem mergedMarks_connections {indices : List ℕ} {name : CountField} :
    name ∈ (mergedMarks facts reference indices).connections ↔
      ∃ i ∈ indices, Drops facts reference i name := by
  induction indices with
  | nil => simp [mergedMarks]
  | cons i rest ih =>
    have hStep : (mergedMarks facts reference (i :: rest)).connections =
          connectionMarks reference (facts.sampleAt i) ∪ (mergedMarks facts reference rest).connections := rfl
    rw [hStep, Finset.mem_union, ih]
    simp only [List.mem_cons, exists_eq_or_imp]
    exact Iff.rfl

theorem mergedMarks_probe {indices : List ℕ} {slot : ProbeSlot} :
    slot ∈ (mergedMarks facts reference indices).probe ↔ ∃ i ∈ indices, ProbeRun facts i slot := by
  induction indices with
  | nil => simp [mergedMarks]
  | cons i rest ih =>
    have hStep : (mergedMarks facts reference (i :: rest)).probe =
          probeMarks facts.probes i ∪ (mergedMarks facts reference rest).probe := rfl
    rw [hStep, Finset.mem_union, mem_probeMarks, ih]
    simp only [List.mem_cons, exists_eq_or_imp]

theorem mergedMarks_process {indices : List ℕ} : (mergedMarks facts reference indices).process ≠ ∅ ↔
      ∃ i ∈ indices, ProcessMarked facts i := by
  induction indices with
  | nil => simp [mergedMarks]
  | cons i rest ih =>
    have hStep : (mergedMarks facts reference (i :: rest)).process =
          processMarks facts.hasSamples (facts.sampleAt i) ∪ (mergedMarks facts reference rest).process := rfl
    rw [hStep, ne_eq, Finset.union_eq_empty, not_and_or]
    simp only [List.mem_cons, exists_eq_or_imp]
    exact or_congr Iff.rfl ih

theorem points_iff {indices : List ℕ} {place : BurstPlace} :
    (mergedMarks facts reference indices).points place = true ↔
      BurstAt facts reference indices place := by
  rw [Marks.points, decide_eq_true_eq]
  constructor
  · rintro ⟨key, hKey, hPlace⟩
    rcases mergedMarks_journal.mp hKey with ⟨i, hi, hBurst⟩
    exact ⟨i, hi, key, hBurst, hPlace⟩
  · rintro ⟨i, hi, key, hBurst, hPlace⟩
    exact ⟨key, mergedMarks_journal.mpr ⟨i, hi, hBurst⟩, hPlace⟩

theorem destination_iff {indices : List ℕ} : (mergedMarks facts reference indices).flags.destination ≠ ∅ ↔
      BurstAt facts reference indices .destination := by
  rw [← points_iff, Marks.points, decide_eq_true_eq, ne_eq]
  simp only [Marks.flags, Finset.image_eq_empty, Finset.filter_eq_empty_iff, not_forall, not_not, exists_prop]

theorem genericProbe_iff {indices : List ℕ} :
    (mergedMarks facts reference indices).flags.genericProbe = true ↔
      GenericProbeRun facts indices := by
  rw [Marks.flags, decide_eq_true_eq]
  constructor
  · rintro ⟨slot, hSlot, hGeneric⟩
    rcases mergedMarks_probe.mp hSlot with ⟨i, hi, hRun⟩
    exact ⟨i, hi, slot, hGeneric, hRun⟩
  · rintro ⟨i, hi, slot, hGeneric, hRun⟩
    exact ⟨slot, mergedMarks_probe.mpr ⟨i, hi, hRun⟩, hGeneric⟩

theorem process_iff {indices : List ℕ} : (mergedMarks facts reference indices).flags.process = true ↔
      ∃ i ∈ indices, ProcessMarked facts i := by
  rw [Marks.flags, decide_eq_true_eq]
  exact mergedMarks_process

theorem sharedImpact_iff {indices : List ℕ} :
    (mergedMarks facts reference indices).flags.sharedImpact = true ↔
      SharedImpact facts reference indices := by
  rw [Flags.sharedImpact, Bool.and_eq_true, Marks.flags,
    decide_eq_true_eq, decide_eq_true_eq, mergedMarks_connections,
    mergedMarks_connections]
  exact Iff.rfl

theorem reality_iff {indices : List ℕ} : (mergedMarks facts reference indices).flags.reality = true ↔
      BurstAt facts reference indices .reality := by
  rw [Marks.flags]
  exact points_iff

theorem hy2_iff {indices : List ℕ} : (mergedMarks facts reference indices).flags.hy2 = true ↔
      BurstAt facts reference indices .hysteria2 := by
  rw [Marks.flags]
  exact points_iff

theorem genericJournal_iff {indices : List ℕ} :
    (mergedMarks facts reference indices).flags.genericJournal = true ↔
      BurstAt facts reference indices .generic := by
  rw [Marks.flags]
  exact points_iff

theorem network_iff {indices : List ℕ} : (mergedMarks facts reference indices).flags.network = true ↔
      NetworkEvidence facts reference indices := by
  rw [Flags.network, Bool.or_eq_true, Bool.or_eq_true,
    Bool.or_eq_true, Bool.or_eq_true, Bool.or_eq_true, reality_iff,
    hy2_iff, genericJournal_iff, genericProbe_iff, decide_eq_true_eq,
    destination_iff, sharedImpact_iff, NetworkEvidence]
  tauto

-- Candidates

theorem families_corroborating (m : Marks) : m.families ∩ Family.corroborating = ∅ ↔
      m.process = ∅ ∧ m.journal = ∅ ∧ m.probe = ∅ := by
  unfold Marks.families Family.corroborating
  by_cases hProcess : m.process = ∅ <;>
  by_cases hConnections : m.connections = ∅ ∧ m.device = false <;>
  by_cases hJournal : m.journal = ∅ <;>
  by_cases hProbe : m.probe = ∅ <;>
  simp only [hProcess, hConnections, hJournal, hProbe, if_true, if_false, and_self, and_false, and_true] <;>
  decide

theorem merged_uncorroborated {indices : List ℕ} : (mergedMarks facts reference indices).families ∩
        Family.corroborating = ∅ ↔
      ∀ i ∈ indices, ¬ Corroborated facts reference i := by
  rw [families_corroborating]
  constructor
  · rintro ⟨hProcess, hJournal, hProbe⟩ i hi hCorroborated
    rcases hCorroborated with ⟨key, hBurst⟩ | ⟨slot, hRun⟩ | hMark
    · have hMem := mergedMarks_journal.mpr ⟨i, hi, hBurst⟩
      rw [hJournal] at hMem
      exact absurd hMem (Finset.notMem_empty key)
    · have hMem : slot ∈ (mergedMarks facts reference indices).probe := mergedMarks_probe.mpr ⟨i, hi, hRun⟩
      rw [hProbe] at hMem
      exact absurd hMem (Finset.notMem_empty slot)
    · exact mergedMarks_process.mpr ⟨i, hi, hMark⟩ hProcess
  · intro hNone
    refine ⟨?_, ?_, ?_⟩
    · by_contra hProcess
      rcases mergedMarks_process.mp hProcess with ⟨i, hi, hMark⟩
      exact hNone i hi (Or.inr (Or.inr hMark))
    · rw [Finset.eq_empty_iff_forall_notMem]
      intro key hKey
      rcases mergedMarks_journal.mp hKey with ⟨i, hi, hBurst⟩
      exact hNone i hi (Or.inl ⟨key, hBurst⟩)
    · rw [Finset.eq_empty_iff_forall_notMem]
      intro slot hSlot
      rcases mergedMarks_probe.mp hSlot with ⟨i, hi, hRun⟩
      exact hNone i hi (Or.inr (Or.inl ⟨slot, hRun⟩))

theorem mem_candidates {buckets i : ℕ} : i ∈ candidates facts reference buckets ↔
      minBaselineBuckets ≤ i ∧ i < buckets ∧ (bucketMarks facts reference i).families ≠ ∅ := by
  rw [candidates, List.mem_filter, List.mem_range'_1, decide_eq_true_eq]
  constructor
  · rintro ⟨⟨hLow, hHigh⟩, hMarked⟩
    exact ⟨hLow, by omega, hMarked⟩
  · rintro ⟨hLow, hHigh, hMarked⟩
    exact ⟨⟨hLow, by omega⟩, hMarked⟩

-- The Decision List

section Attributed

variable {flags : Flags} {probeSeen provable generic api : Bool}
variable {notes : Notes}

theorem guarded_category (category : Category) (unattributed : Bool) :
    (guarded category unattributed provable probeSeen notes).1 =
      if provable then category else .insufficient := by
  unfold guarded
  cases provable <;> rfl

/- The category an incident is attributed to. -/
theorem attributed_category : (attributed flags probeSeen provable generic api notes).1 =
      if flags.process then
        if flags.network then .insufficient else .vpsProcess
      else if flags.genericJournal then .vpsOutbound
      else if flags.genericProbe then
        if !(flags.reality || flags.hy2 || flags.realityImpact ||
            flags.hy2Impact) then .insufficient
        else .vpsOutbound
      else if flags.sharedImpact then
        if generic && api then
          if provable then .commonInbound else .insufficient
        else .insufficient
      else if flags.reality && !flags.hy2 then
        if provable then .realityTcp else .insufficient
      else if flags.hy2 && !flags.reality then
        if provable then .hy2Udp else .insufficient
      else .insufficient := by
  unfold attributed
  simp only [guarded_category, apply_ite Prod.fst]
  cases hProcess : flags.process
  · by_cases hDestination : flags.destination = ∅ <;>
    cases hJournal : flags.genericJournal <;>
    cases hProbe : flags.genericProbe <;>
    cases hShared : flags.sharedImpact <;>
    cases hReality : flags.reality <;>
    cases hHy2 : flags.hy2 <;>
    cases generic <;>
    cases api <;>
    simp [hDestination]
  · cases flags.network <;> rfl

end Attributed

-- Verdicts

/- Evidence the gate lets through, as the bundle it is. -/
structure Accepted (evidence : Json F) (b : Bundle F) : Prop where
  refusals : refusals evidence = .ok ∅
  bundle : ∃ members w, evidence = .obj members ∧ windowIn members = some w ∧ b = readBundle members w

/- A fail-closed verdict: nothing is known to be anomalous. -/
structure Detection.FailClosed (d : Detection F) : Prop where
  status : d.classification.status = .indeterminate
  category : d.classification.category = .insufficient
  indices : d.indices = []
  firstSignal : d.firstSignal = none
  lastSignal : d.lastSignal = none

theorem sealed_indeterminate (echo : Echo F) (notes : Notes) :
    (sealed .indeterminate .insufficient echo notes).status = .indeterminate ∧
      (sealed .indeterminate .insufficient echo notes).category = .insufficient :=
  ⟨rfl, rfl⟩

theorem sealed_noIncident (echo : Echo F) (notes : Notes) :
    (sealed .noIncident .none echo notes).status = .noIncident ∧
      (sealed .noIncident .none echo notes).category = .none :=
  ⟨rfl, rfl⟩

theorem sealed_incident {category : Category} (h : category ∈ Category.emittable) (echo : Echo F)
    (notes : Notes) :
    (sealed .incident category echo notes).status = .incident ∧
      (sealed .incident category echo notes).category = category := by
  have hPaired : (Status.incident = .noIncident ∧ category = .none) ∨
        (Status.incident ≠ .noIncident ∧ category ∈ Category.emittable) :=
    Or.inr ⟨by decide, h⟩
  unfold sealed
  rw [if_pos hPaired]
  exact ⟨rfl, rfl⟩

theorem attributed_emittable {flags : Flags} {probeSeen provable generic api : Bool} {notes : Notes} :
    (attributed flags probeSeen provable generic api notes).1 ∈ Category.emittable := by
  rw [attributed_category]
  split_ifs <;> decide

/-
  The verdict of a window of more than three buckets, by what
  its candidate buckets show.
-/
inductive Judged (b : Bundle F) (facts : Facts F) (reference : Reference F)
    (verdict : Classification F × List ℕ) : Prop where
  | quiet
      (none : candidates facts reference b.window.buckets = [])
      (indices : verdict.2 = [])
      (status : verdict.1.status = if b.looked reference then .noIncident else .indeterminate)
      (category : verdict.1.category = if b.looked reference then .none else .insufficient)
  | uncorroborated
      (some : candidates facts reference b.window.buckets ≠ [])
      (alone : ∀ i ∈ candidates facts reference b.window.buckets, ¬ Corroborated facts reference i)
      (indices : verdict.2 = [])
      (status : verdict.1.status = .noIncident)
      (category : verdict.1.category = .none)
  | scattered
      (corroborated : ∃ i ∈ candidates facts reference b.window.buckets, Corroborated facts reference i)
      (indices : verdict.2 = candidates facts reference b.window.buckets)
      (status : verdict.1.status = .incident)
      (category : verdict.1.category = .insufficient)
  | attributed
      (corroborated : ∃ i ∈ candidates facts reference b.window.buckets, Corroborated facts reference i)
      (indices : verdict.2 = candidates facts reference b.window.buckets)
      (contiguous : Contiguous verdict.2)
      (status : verdict.1.status = .incident)
      (category : ∃ probeSeen provable notes, verdict.1.category = (Classifier.attributed
              (mergedMarks facts reference verdict.2).flags
              probeSeen provable
              (genericTcpHealthy facts verdict.2)
              (apiHealthy facts verdict.2) notes).1)

theorem judge_judged (b : Bundle F) (facts : Facts F) (reference : Reference F)
    (notes : Notes) : Judged b facts reference (judge b facts reference notes) := by
  unfold judge
  dsimp only
  by_cases hNone : candidates facts reference b.window.buckets = []
  · rw [if_pos hNone]
    cases hLooked : b.looked reference with
    | true =>
      rw [if_pos rfl]
      apply Judged.quiet hNone rfl
      · rw [hLooked]
        exact (sealed_noIncident _ _).1
      · rw [hLooked]
        exact (sealed_noIncident _ _).2
    | false =>
      rw [if_neg Bool.false_ne_true]
      apply Judged.quiet hNone rfl
      · rw [hLooked]
        exact (sealed_indeterminate _ _).1
      · rw [hLooked]
        exact (sealed_indeterminate _ _).2
  · rw [if_neg hNone]
    by_cases hAlone : (mergedMarks facts reference (candidates facts reference b.window.buckets)).families ∩
          Family.corroborating = ∅
    · rw [if_pos hAlone]
      exact Judged.uncorroborated hNone (merged_uncorroborated.mp hAlone) rfl
        (sealed_noIncident _ _).1 (sealed_noIncident _ _).2
    · rw [if_neg hAlone]
      rw [merged_uncorroborated] at hAlone
      push Not at hAlone
      by_cases hMany : 1 < (clusters (candidates facts reference b.window.buckets)).length
      · rw [if_pos hMany]
        have hSealed := sealed_incident (F := F) (show Category.insufficient ∈ Category.emittable by decide)
        exact Judged.scattered hAlone rfl (hSealed _ _).1 (hSealed _ _).2
      · rw [if_neg hMany]
        exact Judged.attributed hAlone rfl (contiguous_of_clusters hNone hMany)
          (sealed_incident attributed_emittable _ _).1
          ⟨_, _, _, (sealed_incident attributed_emittable _ _).2⟩

-- Detections

theorem refusal_ne_empty {token : UnknownToken} :
    (Except.ok {token} : Except Raised (Finset UnknownToken)) ≠ .ok ∅ := by
  intro h
  exact Finset.singleton_ne_empty token (Except.ok.inj h)

theorem rowRefusals_ok_of_refusals {evidence : Json F} (h : refusals evidence = .ok ∅) :
    ∃ members w, evidence = .obj members ∧ windowIn members = some w ∧ rowRefusals members w = .ok ∅ := by
  unfold refusals at h
  cases evidence with
  | obj members =>
    dsimp only at h
    split at h
    · exact absurd h refusal_ne_empty
    · rcases except_bind_ok h with ⟨window, hWindow, h⟩
      cases window with
      | none => exact absurd h refusal_ne_empty
      | some w =>
        refine ⟨members, w, rfl, ?_, h⟩
        unfold windowIn
        rw [hWindow]
  | _ => exact absurd h refusal_ne_empty

/- What a window that was not refused can be detected as. -/
inductive Detected (evidence : Json F) (d : Detection F) : Prop where
  | refused
      (tokens : ∃ tokens, refusals evidence = .ok tokens ∧ tokens ≠ ∅)
      (failClosed : d.FailClosed)
  | short
      (b : Bundle F)
      (accepted : Accepted evidence b)
      (buckets : b.window.buckets ≤ minBaselineBuckets)
      (failClosed : d.FailClosed)
  | judged
      (b : Bundle F)
      (facts : Facts F)
      (reference : Reference F)
      (verdict : Classification F × List ℕ)
      (accepted : Accepted evidence b)
      (buckets : minBaselineBuckets < b.window.buckets)
      (gathered : gather b = .ok facts)
      (baselined : baseline facts.samples facts.journal = .ok reference)
      (judged : Judged b facts reference verdict)
      (detection : d = detectionOf b.window.start verdict)

theorem refusedDetection_failClosed {evidence : Json F} {tokens : Finset UnknownToken} {d : Detection F}
    (h : refusedDetection evidence tokens = .ok d) : d.FailClosed := by
  unfold refusedDetection at h
  rcases except_bind_ok h with ⟨⟨start, stop, count⟩, _, h⟩
  cases h
  exact ⟨rfl, rfl, rfl, rfl, rfl⟩

theorem detect_detected {evidence : Json F} {d : Detection F}
    (h : detect evidence = .ok d) : Detected evidence d := by
  unfold detect at h
  rcases except_bind_ok h with ⟨tokens, hTokens, h⟩
  by_cases hEmpty : tokens = ∅
  · subst hEmpty
    rw [if_neg (not_not.mpr rfl)] at h
    rcases rowRefusals_ok_of_refusals hTokens with ⟨members, w, rfl, hWindow, hRows⟩
    dsimp only at h
    rw [hWindow] at h
    rcases except_bind_ok h with ⟨verdict, hVerdict, h⟩
    cases h
    have hAccepted : Accepted (.obj members) (readBundle members w) :=
      ⟨hTokens, members, w, rfl, hWindow, rfl⟩
    unfold analyse at hVerdict
    rcases except_bind_ok hVerdict with ⟨facts, hFacts, hVerdict⟩
    dsimp only at hVerdict
    split at hVerdict
    · rename_i hShort
      cases hVerdict
      exact .short _ hAccepted hShort ⟨rfl, rfl, rfl, rfl, rfl⟩
    · rename_i hLong
      rcases except_bind_ok hVerdict with ⟨reference, hReference, hVerdict⟩
      cases hVerdict
      exact .judged _ facts reference _ hAccepted (not_le.mp hLong) hFacts hReference
        (judge_judged _ _ _ _) rfl
  · rw [if_pos hEmpty] at h
    exact .refused ⟨tokens, hTokens, hEmpty⟩ (refusedDetection_failClosed h)

@[simp] theorem detectionOf_classification (start : F) (verdict : Classification F × List ℕ) :
    (detectionOf start verdict).classification = verdict.1 := by
  unfold detectionOf
  split <;> rfl

@[simp] theorem detectionOf_indices (start : F) (verdict : Classification F × List ℕ) :
    (detectionOf start verdict).indices = verdict.2 := by
  unfold detectionOf
  split
  · rfl
  · rename_i hNone
    cases hIndices : verdict.2 with
    | nil => rfl
    | cons i rest =>
      rw [hIndices] at hNone
      exact absurd rfl (hNone i _ rfl)

-- Soundness

/- What one transport's path is named for. -/
structure PathEvidence (facts : Facts F) (reference : Reference F) (cluster : List ℕ)
    (own other : BurstPlace) : Prop where
  burst : BurstAt facts reference cluster own
  noOther : ¬ BurstAt facts reference cluster other
  noGeneric : ¬ BurstAt facts reference cluster .generic
  noProbe : ¬ GenericProbeRun facts cluster
  noProcess : ¬ ∃ i ∈ cluster, ProcessMarked facts i
  noShared : ¬ SharedImpact facts reference cluster

/- What each category of an incident implies of its cluster. -/
structure CategoryEvidence (facts : Facts F) (reference : Reference F) (cluster : List ℕ)
    (category : Category) : Prop where
  realityTcp :
    category = .realityTcp → PathEvidence facts reference cluster .reality .hysteria2
  hy2Udp : category = .hy2Udp → PathEvidence facts reference cluster .hysteria2 .reality
  commonInbound :
    category = .commonInbound → SharedImpact facts reference cluster ∧ 2 ≤ cluster.countP
          (fun i => bucketTcpHealthy (facts.probeAt i)) ∧
        ∀ i ∈ cluster, (facts.sampleAt i).rows ≠ 0 ∧ (facts.sampleAt i).stale = 0 ∧
          (facts.sampleAt i).collectorStale = 0
  vpsProcess :
    category = .vpsProcess →
      (∃ i ∈ cluster, ProcessMarked facts i) ∧ ¬ NetworkEvidence facts reference cluster
  vpsOutbound :
    category = .vpsOutbound → BurstAt facts reference cluster .generic ∨
        (GenericProbeRun facts cluster ∧ (BurstAt facts reference cluster .reality ∨
            BurstAt facts reference cluster .hysteria2 ∨
            (∃ i ∈ cluster, Drops facts reference i .reality) ∨
            ∃ i ∈ cluster, Drops facts reference i .hysteria2))

theorem genericTcpHealthy_iff {cluster : List ℕ} : genericTcpHealthy facts cluster = true ↔ 2 ≤ cluster.countP
        (fun i => bucketTcpHealthy (facts.probeAt i)) := by
  rw [genericTcpHealthy, decide_eq_true_eq]
  exact Iff.rfl

theorem apiHealthy_forall {cluster : List ℕ} (h : apiHealthy facts cluster = true) :
    ∀ i ∈ cluster, (facts.sampleAt i).rows ≠ 0 ∧ (facts.sampleAt i).stale = 0 ∧
      (facts.sampleAt i).collectorStale = 0 := by
  rw [apiHealthy, Bool.and_eq_true, List.all_eq_true] at h
  intro i hi
  have hAll := h.2 i hi
  simp only [Bool.and_eq_true, decide_eq_true_eq] at hAll
  exact ⟨hAll.1.1, hAll.1.2, hAll.2⟩

theorem impact_iff {indices : List ℕ} : ((mergedMarks facts reference indices).flags.realityImpact =
        true ↔ ∃ i ∈ indices, Drops facts reference i .reality) ∧
      ((mergedMarks facts reference indices).flags.hy2Impact =
        true ↔ ∃ i ∈ indices, Drops facts reference i .hysteria2) := by
  constructor
  · rw [Marks.flags, decide_eq_true_eq]
    exact mergedMarks_connections
  · rw [Marks.flags, decide_eq_true_eq]
    exact mergedMarks_connections

/- The flags a transport's path is named for. -/
theorem pathEvidence_of_flags {cluster : List ℕ} {own other : BurstPlace}
    (hOwn : BurstAt facts reference cluster own)
    (hOther : ¬ BurstAt facts reference cluster other)
    (hProcess : (mergedMarks facts reference cluster).flags.process ≠ true)
    (hGeneric : (mergedMarks facts reference cluster).flags.genericJournal ≠ true)
    (hProbe : (mergedMarks facts reference cluster).flags.genericProbe ≠ true)
    (hShared : (mergedMarks facts reference cluster).flags.sharedImpact ≠ true) :
    PathEvidence facts reference cluster own other where
  burst := hOwn
  noOther := hOther
  noGeneric := fun h => hGeneric (genericJournal_iff.mpr h)
  noProbe := fun h => hProbe (genericProbe_iff.mpr h)
  noProcess := fun h => hProcess (process_iff.mpr h)
  noShared := fun h => hShared (sharedImpact_iff.mpr h)

/- The decision list emits a category only with its evidence. -/
theorem attributed_evidence {cluster : List ℕ} {probeSeen provable : Bool}
    {notes : Notes} : CategoryEvidence facts reference cluster
      (attributed (mergedMarks facts reference cluster).flags
        probeSeen provable (genericTcpHealthy facts cluster)
        (apiHealthy facts cluster) notes).1 := by
  rw [attributed_category]
  constructor
  · intro h
    split_ifs at h with hProcess hNetwork hJournal hProbe hSides
      hShared hHealthy hProvable hReality hProvable' hHy2
      hProvable''
    rw [Bool.and_eq_true, Bool.not_eq_true'] at hReality
    apply pathEvidence_of_flags (reality_iff.mp hReality.1) _ hProcess hJournal hProbe hShared
    intro hBurst
    rw [hy2_iff.mpr hBurst] at hReality
    cases hReality.2
  · intro h
    split_ifs at h with hProcess hNetwork hJournal hProbe hSides
      hShared hHealthy hProvable hReality hProvable' hHy2
      hProvable''
    rw [Bool.and_eq_true, Bool.not_eq_true'] at hHy2
    apply pathEvidence_of_flags (hy2_iff.mp hHy2.1) _ hProcess hJournal hProbe hShared
    intro hBurst
    rw [reality_iff.mpr hBurst] at hHy2
    cases hHy2.2
  · intro h
    split_ifs at h with hProcess hNetwork hJournal hProbe hSides
      hShared hHealthy hProvable hReality hProvable' hHy2
      hProvable''
    rw [Bool.and_eq_true] at hHealthy
    exact ⟨sharedImpact_iff.mp hShared, genericTcpHealthy_iff.mp hHealthy.1, apiHealthy_forall hHealthy.2⟩
  · intro h
    split_ifs at h with hProcess hNetwork hJournal hProbe hSides
      hShared hHealthy hProvable hReality hProvable' hHy2
      hProvable''
    exact ⟨process_iff.mp hProcess, fun hEvidence => hNetwork (network_iff.mpr hEvidence)⟩
  · intro h
    split_ifs at h with hProcess hNetwork hJournal hProbe hSides
      hShared hHealthy hProvable hReality hProvable' hHy2
      hProvable''
    · exact Or.inl (genericJournal_iff.mp hJournal)
    · right
      refine ⟨genericProbe_iff.mp hProbe, ?_⟩
      rw [Bool.not_eq_true', Bool.not_eq_false, Bool.or_eq_true,
        Bool.or_eq_true, Bool.or_eq_true, reality_iff, hy2_iff,
        impact_iff.1, impact_iff.2, or_assoc, or_assoc] at hSides
      exact hSides

/-
  What a verdict implies of the window it judges: its buckets'
  statistics, its baseline, and the cluster of its anomalies.
-/
structure SoundVerdict (b : Bundle F) (facts : Facts F) (reference : Reference F)
    (d : Detection F) : Prop where
  incident :
    d.classification.status = .incident →
      ∃ i, minBaselineBuckets ≤ i ∧ i < b.window.buckets ∧ Corroborated facts reference i
  contiguous :
    d.classification.category ∉ [.none, .insufficient] →
      Contiguous d.indices ∧ ∀ i ∈ d.indices, minBaselineBuckets ≤ i ∧ i < b.window.buckets
  evidence : CategoryEvidence facts reference d.indices d.classification.category
  noDestination : d.classification.category ≠ .destination

theorem mem_candidates_range {buckets i : ℕ}
    (h : i ∈ candidates facts reference buckets) : minBaselineBuckets ≤ i ∧ i < buckets :=
  ⟨(mem_candidates.mp h).1, (mem_candidates.mp h).2.1⟩

theorem categoryEvidence_of_unattributed {cluster : List ℕ} {category : Category}
    (h : category = .none ∨ category = .insufficient) :
    CategoryEvidence facts reference cluster category := by
  constructor <;> intro hCategory <;>
  rcases h with rfl | rfl <;> cases hCategory

theorem judged_sound {b : Bundle F} {verdict : Classification F × List ℕ}
    (h : Judged b facts reference verdict) : SoundVerdict b facts reference
      (detectionOf b.window.start verdict) := by
  constructor
  all_goals
    rw [detectionOf_classification]
    try rw [detectionOf_indices]
  · intro hStatus
    have hCorroborated : ∃ i ∈ candidates facts reference b.window.buckets,
          Corroborated facts reference i := by
      cases h with
      | quiet _ _ status _ =>
        rw [status] at hStatus
        split at hStatus <;> cases hStatus
      | uncorroborated _ _ _ status _ =>
        rw [status] at hStatus
        cases hStatus
      | scattered corroborated => exact corroborated
      | attributed corroborated => exact corroborated
    rcases hCorroborated with ⟨i, hi, hEvidence⟩
    have hRange := mem_candidates_range hi
    exact ⟨i, hRange.1, hRange.2, hEvidence⟩
  · intro hCategory
    cases h with
    | quiet _ _ _ category =>
      rw [category] at hCategory
      split at hCategory <;> simp at hCategory
    | uncorroborated _ _ _ _ category =>
      rw [category] at hCategory
      simp at hCategory
    | scattered _ _ _ category =>
      rw [category] at hCategory
      simp at hCategory
    | attributed _ indices contiguous =>
      refine ⟨contiguous, ?_⟩
      intro i hi
      rw [indices] at hi
      exact mem_candidates_range hi
  · cases h with
    | quiet _ _ _ category =>
      rw [category]
      apply categoryEvidence_of_unattributed
      split
      · exact Or.inl rfl
      · exact Or.inr rfl
    | uncorroborated _ _ _ _ category =>
      exact categoryEvidence_of_unattributed (Or.inl category)
    | scattered _ _ _ category => exact categoryEvidence_of_unattributed (Or.inr category)
    | attributed _ _ _ _ category =>
      rcases category with ⟨probeSeen, provable, notes, hCategory⟩
      rw [hCategory]
      exact attributed_evidence
  · intro hDestination
    cases h with
    | quiet _ _ _ category =>
      rw [category] at hDestination
      split at hDestination <;> cases hDestination
    | uncorroborated _ _ _ _ category =>
      rw [category] at hDestination
      cases hDestination
    | scattered _ _ _ category =>
      rw [category] at hDestination
      cases hDestination
    | attributed _ _ _ _ category =>
      rcases category with ⟨probeSeen, provable, notes, hCategory⟩
      rw [hDestination] at hCategory
      have hEmittable : Category.destination ∈ Category.emittable := by
        rw [hCategory]
        exact attributed_emittable
      revert hEmittable
      decide

/-
  Evidence that is not refused and whose window is longer than
  the baseline gets a verdict its own buckets bear out; any
  other evidence gets the fail-closed one.
-/
theorem attribution_sound (evidence : Json F) (d : Detection F) (h : detect evidence = .ok d) :
    d.FailClosed ∨ ∃ b facts reference, Accepted evidence b ∧ gather b = .ok facts ∧
        baseline facts.samples facts.journal = .ok reference ∧
        SoundVerdict b facts reference d := by
  cases detect_detected h with
  | refused _ failClosed => exact Or.inl failClosed
  | short _ _ _ failClosed => exact Or.inl failClosed
  | judged b facts reference verdict accepted _ gathered baselined
      judged detection =>
      refine Or.inr ⟨b, facts, reference, accepted, gathered, baselined, ?_⟩
      rw [detection]
      exact judged_sound judged

-- A Reality Outage

/- An object of named fields, as in a source text. -/
def namedFields {F : Type} (fields : List (String × Json F)) : Json F :=
  .obj (fields.map (fun m => (pyStr m.1, m.2)))

/- A journal row of failures without a destination. -/
def journalRowOf (ts n : ℕ) (proto : String) : Json (IntGrid (2 ^ 53)) := namedFields
    [("ts", .int ts), ("cls", .str (pyStr "reset")), ("proto", .str (pyStr proto)), ("port", .int 0),
      ("dcls", .str (pyStr "NONE")), ("n", .int n)]

/- A bundle of journal rows alone, seen by a fresh reader. -/
def journalEvidence (start stop : ℕ) (rows : List (Json (IntGrid (2 ^ 53)))) : Json (IntGrid (2 ^ 53)) :=
  namedFields [("window", namedFields [("start_epoch", .int start), ("end_epoch", .int stop)]),
      ("health", namedFields [("enabled", .bool true), ("degraded", .bool false),
          ("last_error_code", .null)]),
      ("reader", namedFields [("status", .str (pyStr "fresh"))]),
      ("samples", .arr []), ("device_states", .arr []),
      ("probe_rows", .arr []), ("journal_events", .arr rows),
      ("audit", .arr [])]

/- Five Reality failures in the fifth minute of a window. -/
def realityOutage : Json (IntGrid (2 ^ 53)) := journalEvidence 600 900 [journalRowOf 850 5 "Reality"]

theorem attribution_sound_of_realityOutage : ∃ d, detect realityOutage = .ok d ∧
      d.classification.category = .realityTcp ∧
      (d.FailClosed ∨ ∃ b facts reference, Accepted realityOutage b ∧ gather b = .ok facts ∧
          baseline facts.samples facts.journal = .ok reference ∧
          SoundVerdict b facts reference d) := by
  have hCategory : (detect realityOutage).toOption.map (fun d => d.classification.category) =
        some .realityTcp := by
    decide +kernel
  cases hDetect : detect realityOutage with
  | error e =>
    rw [hDetect] at hCategory
    cases hCategory
  | ok d =>
    rw [hDetect] at hCategory
    exact ⟨d, rfl, Option.some.inj hCategory, attribution_sound realityOutage d hDetect⟩

end SingboxOps.Classifier
