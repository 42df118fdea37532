import SingboxOps.RemoteStore.VerdictLaw

/-
  The byte budget of the samples.
-/

namespace SingboxOps.RemoteStore

open PyFloat

variable {F H : Type} [PyFloat F]

-- The Order of the Samples

instance : Std.Total (sampleOrder (F := F) (H := H)) where
  total _ _ := le_total _ _

instance : IsTrans (SampleRow F H) sampleOrder where
  trans _ _ _ := le_trans

theorem key_of_sampleOrder {a b : SampleRow F H} (hForth : sampleOrder a b)
    (hBack : sampleOrder b a) : a.key = b.key := by
  have hEq := le_antisymm hForth hBack
  simp only [EmbeddingLike.apply_eq_iff_eq, Prod.mk.injEq] at hEq
  unfold SampleRow.key
  rw [hEq.2.1, hEq.2.2.1, hEq.2.2.2]

/- The samples in their order. -/
def ordered (samples : List (SampleRow F H)) : List (SampleRow F H) := samples.insertionSort sampleOrder

theorem ordered_perm (samples : List (SampleRow F H)) : (ordered samples).Perm samples :=
  List.perm_insertionSort _ _

theorem ordered_pairwise (samples : List (SampleRow F H)) : (ordered samples).Pairwise sampleOrder :=
  List.pairwise_insertionSort _ _

theorem ordered_drop (samples : List (SampleRow F H))
    (n : ℕ) : ordered ((ordered samples).drop n) = (ordered samples).drop n := by
  refine List.Pairwise.insertionSort_eq ?_
  exact (ordered_pairwise samples).drop

theorem taken_precedes {samples : List (SampleRow F H)} {n : ℕ} {a b : SampleRow F H}
    (ha : a ∈ (ordered samples).take n)
    (hb : b ∈ (ordered samples).drop n) : sampleOrder a b := by
  have hSplit := ordered_pairwise samples
  rw [← List.take_append_drop n (ordered samples), List.pairwise_append] at hSplit
  exact hSplit.2.2 a ha b hb

theorem sampleBytes_perm {xs ys : List (SampleRow F H)} (h : xs.Perm ys) : sampleBytes xs = sampleBytes ys :=
  (h.map _).sum_eq

theorem sampleBytes_append (xs ys : List (SampleRow F H)) :
    sampleBytes (xs ++ ys) = sampleBytes xs + sampleBytes ys := by
  unfold sampleBytes
  rw [List.map_append, List.sum_append]

theorem sampleBytes_nonneg (xs : List (SampleRow F H)) : 0 ≤ sampleBytes xs := by
  refine List.sum_nonneg ?_
  intro n hn
  obtain ⟨s, -, rfl⟩ := List.mem_map.mp hn
  unfold sampleRowCharge
  omega

theorem sampleBytes_drop (xs : List (SampleRow F H)) {m n : ℕ}
    (h : m ≤ n) : sampleBytes (xs.drop n) ≤ sampleBytes (xs.drop m) := by
  obtain ⟨d, rfl⟩ := Nat.exists_eq_add_of_le h
  rw [← List.drop_drop]
  have hSplit := sampleBytes_append ((xs.drop m).take d) ((xs.drop m).drop d)
  rw [List.take_append_drop] at hSplit
  have hTaken := sampleBytes_nonneg ((xs.drop m).take d)
  omega

-- The Budget Loop

/-
  The first `n` samples in the order went, none where the rest
  already fits, and less than a batch more than had to.
-/
structure Cut (lim : Limits) (prospective : ℤ) (samples kept : List (SampleRow F H))
    (n : ℕ) : Prop where
  kept : kept.Perm ((ordered samples).drop n)
  none : sampleBytes samples + prospective ≤ lim.softBudget → n = 0
  least :
    0 < lim.pruneBatch → ∀ j, sampleBytes ((ordered samples).drop j) + prospective ≤
        lim.softBudget → (n : ℤ) < j + lim.pruneBatch

theorem Cut.refl (lim : Limits) (prospective : ℤ)
    (samples : List (SampleRow F H)) : Cut lim prospective samples samples 0 where
  kept := (ordered_perm samples).symm
  none _ := rfl
  least hBatch j _ := by
    push_cast
    omega

theorem Cut.batch {lim : Limits} {prospective : ℤ} {samples kept : List (SampleRow F H)} {n : ℕ}
    (hOver : ¬ sampleBytes samples + prospective ≤ lim.softBudget)
    (hCut : Cut lim prospective (deleteOldest lim.pruneBatch samples) kept n) :
    Cut lim prospective samples kept (limitRows lim.pruneBatch samples.length + n) := by
  set m := limitRows lim.pruneBatch samples.length with hm
  have hRest : deleteOldest lim.pruneBatch samples = (ordered samples).drop m := rfl
  have hOrdered : ordered (deleteOldest lim.pruneBatch samples) = (ordered samples).drop m := by
    rw [hRest]
    exact ordered_drop samples m
  refine ⟨?_, fun hFits => absurd hFits hOver, ?_⟩
  · have hKept := hCut.kept
    rw [hOrdered, List.drop_drop] at hKept
    exact hKept
  · intro hBatch j hFits
    have hm' : (m : ℤ) = lim.pruneBatch := by
      rw [hm, limitRows, if_neg (by omega), Int.toNat_of_nonneg hBatch.le]
    push_cast
    rcases le_or_gt m j with hLate | hEarly
    · have hNext := hCut.least hBatch (j - m) (by
        rw [hOrdered, List.drop_drop, Nat.add_sub_cancel' hLate]
        exact hFits)
      omega
    · have hSome : j ≠ 0 := by
        rintro rfl
        rw [List.drop_zero, sampleBytes_perm (ordered_perm samples)] at hFits
        exact hOver hFits
      have hLess := sampleBytes_drop (ordered samples) hEarly.le
      have hNone := hCut.none (by
        rw [hRest]
        omega)
      omega

theorem pruneToSoft_cut (lim : Limits) (prospective : ℤ) (rounds : ℕ) (samples : List (SampleRow F H))
    (pruned : ℕ) : ∃ n, Cut lim prospective samples
      (pruneToSoft lim prospective rounds samples pruned).1 n := by
  induction rounds generalizing samples pruned with
  | zero => exact ⟨0, Cut.refl lim prospective samples⟩
  | succ rounds ih =>
    rw [pruneToSoft]
    split
    · exact ⟨0, Cut.refl lim prospective samples⟩
    · rename_i hOver
      dsimp only
      split
      · exact ⟨0, Cut.refl lim prospective samples⟩
      · obtain ⟨n, hCut⟩ := ih (deleteOldest lim.pruneBatch samples)
            (pruned + (samples.length - (deleteOldest lim.pruneBatch samples).length))
        exact ⟨_, Cut.batch hOver hCut⟩

/- The loop came to its own end. -/
def Ended (lim : Limits) (prospective : ℤ) (samples : List (SampleRow F H)) : Prop :=
  sampleBytes samples + prospective ≤ lim.softBudget ∨
    (deleteOldest lim.pruneBatch samples).length = samples.length

theorem length_deleteOldest (batch : ℤ) (samples : List (SampleRow F H)) :
    (deleteOldest batch samples).length = samples.length - limitRows batch samples.length := by
  unfold deleteOldest
  rw [List.length_drop, List.length_insertionSort]

theorem pruneToSoft_ends (lim : Limits) (prospective : ℤ)
    {rounds : ℕ} {samples : List (SampleRow F H)} (hRounds : samples.length ≤ rounds)
    (pruned : ℕ) : Ended lim prospective (pruneToSoft lim prospective rounds samples pruned).1 := by
  induction rounds generalizing samples pruned with
  | zero =>
    refine .inr ?_
    rw [pruneToSoft, length_deleteOldest]
    dsimp only
    omega
  | succ rounds ih =>
    rw [pruneToSoft]
    split
    · rename_i hFits
      exact .inl hFits
    · dsimp only
      have hLength := length_deleteOldest lim.pruneBatch samples
      split
      · rename_i hNone
        refine .inr ?_
        dsimp only
        omega
      · rename_i hSome
        exact ih (by omega) _

theorem fits_of_ended {lim : Limits} {prospective : ℤ} {samples : List (SampleRow F H)}
    (hBatch : lim.pruneBatch ≠ 0)
    (hEnded : Ended lim prospective samples) :
    sampleBytes samples + prospective ≤ lim.softBudget ∨ samples = [] := by
  rcases hEnded with hFits | hNone
  · exact .inl hFits
  · refine .inr (List.eq_nil_of_length_eq_zero ?_)
    rw [length_deleteOldest, limitRows] at hNone
    split at hNone
    · omega
    · omega

-- Prunes

/- Inactive runs go, with their receipts and samples. -/
def expire (now : F) (t : Tables F H) : Tables F H := deleteRuns
    (fun r => toRat r.lastActivityEpoch < toRat (sub now runLifetimeSeconds)) t

/- The samples that neither expired nor aged out. -/
def aged (now : F) (t : Tables F H) : List (SampleRow F H) := (expire now t).samples.filter
    (fun s => !decide (toRat s.sampleEpoch < toRat (sub now maxAgeSeconds)))

theorem prune_eq (lim : Limits) (now : F) (prospective : ℤ) (t : Tables F H) :
    (prune lim now prospective t).1.runs = (expire now t).runs ∧
      (prune lim now prospective t).1.receipts = (expire now t).receipts ∧
      (prune lim now prospective t).1.samples =
        if lim.hardBudget < sampleBytes (aged now t) + prospective
          then
            (pruneToSoft lim prospective (aged now t).length (aged now t) 0).1
          else aged now t := by
  unfold prune
  dsimp only
  split
  · rename_i hOver
    refine ⟨rfl, rfl, ?_⟩
    exact (if_pos hOver).symm
  · rename_i hFits
    refine ⟨rfl, rfl, ?_⟩
    exact (if_neg hFits).symm

theorem prune_cut (lim : Limits) (now : F) (prospective : ℤ)
    (t : Tables F H) : ∃ n, Cut lim prospective (aged now t) (prune lim now prospective t).1.samples n := by
  rw [(prune_eq lim now prospective t).2.2]
  split
  · exact pruneToSoft_cut lim prospective _ _ 0
  · exact ⟨0, Cut.refl lim prospective _⟩

theorem prune_fitting {lim : Limits} {now : F} {prospective : ℤ} {t : Tables F H}
    (hFits : sampleBytes (aged now t) + prospective ≤ lim.hardBudget) :
    (prune lim now prospective t).1.samples = aged now t := by
  rw [(prune_eq lim now prospective t).2.2, if_neg (not_lt.mpr hFits)]

theorem prune_fits {lim : Limits} (hOrder : lim.softBudget ≤ lim.hardBudget)
    (hBatch : lim.pruneBatch ≠ 0) (now : F) (prospective : ℤ)
    (t : Tables F H) : sampleBytes (prune lim now prospective t).1.samples + prospective ≤ lim.hardBudget ∨
      (prune lim now prospective t).1.samples = [] := by
  rw [(prune_eq lim now prospective t).2.2]
  split
  · have hEnded := pruneToSoft_ends lim prospective (le_refl (aged now t).length) 0
    rcases fits_of_ended hBatch hEnded with hFits | hNone
    · exact .inl (hFits.trans hOrder)
    · exact .inr hNone
  · rename_i hFits
    exact .inl (not_lt.mp hFits)

theorem Cut.precedes {lim : Limits} {prospective : ℤ} {samples kept : List (SampleRow F H)} {n : ℕ}
    (hCut : Cut lim prospective samples kept n) {r q : SampleRow F H}
    (hr : r ∈ samples) (hGone : r ∉ kept)
    (hq : q ∈ kept) : sampleOrder r q := by
  have hMem := (ordered_perm samples).mem_iff.mpr hr
  rw [← List.take_append_drop n (ordered samples), List.mem_append] at hMem
  rcases hMem with hTaken | hLeft
  · exact taken_precedes hTaken (hCut.kept.mem_iff.mp hq)
  · exact absurd (hCut.kept.mem_iff.mpr hLeft) hGone

theorem Cut.length_gone {lim : Limits} {prospective : ℤ}
    {samples kept : List (SampleRow F H)} {n : ℕ} (hCut : Cut lim prospective samples kept n)
    {gone : List (SampleRow F H)} (hNodup : gone.Nodup)
    (hGone : ∀ r ∈ gone, r ∈ samples ∧ r ∉ kept) : gone.length ≤ n := by
  have hSubset : gone ⊆ (ordered samples).take n := by
    intro r hr
    obtain ⟨hMem, hNot⟩ := hGone r hr
    have hOrdered := (ordered_perm samples).mem_iff.mpr hMem
    rw [← List.take_append_drop n (ordered samples), List.mem_append] at hOrdered
    rcases hOrdered with hTaken | hLeft
    · exact hTaken
    · exact absurd (hCut.kept.mem_iff.mpr hLeft) hNot
  have hLength := (List.subperm_of_subset hNodup hSubset).length_le
  rw [List.length_take] at hLength
  omega

/- No run of the tables is inactive. -/
def Active (now : F) (t : Tables F H) : Prop := ∀ r ∈ t.runs, ¬ Expired now r

theorem active_prune (lim : Limits) (now : F) (prospective : ℤ)
    (t : Tables F H) : Active now (prune lim now prospective t).1 :=
  fun _ hr => (mem_prune_runs.mp hr).2

theorem expire_active {now : F} {t : Tables F H} (hActive : Active now t) : expire now t = t := by
  have hNone : t.runs.filter (fun r =>
        decide (toRat r.lastActivityEpoch < toRat (sub now runLifetimeSeconds))) = [] := by
    rw [List.filter_eq_nil_iff]
    intro r hr
    rw [decide_eq_true_eq]
    exact hActive r hr
  have hAll : t.runs.filter (fun r =>
        !decide (toRat r.lastActivityEpoch < toRat (sub now runLifetimeSeconds))) = t.runs := by
    rw [List.filter_eq_self]
    intro r hr
    rw [Bool.not_eq_true', decide_eq_false_iff_not]
    exact hActive r hr
  unfold expire deleteRuns
  dsimp only
  rw [hNone, hAll]
  simp

theorem mem_aged {now : F} {t : Tables F H} (hActive : Active now t) {r : SampleRow F H} :
    r ∈ aged now t ↔ r ∈ t.samples ∧ ¬ toRat r.sampleEpoch < toRat (sub now maxAgeSeconds) := by
  unfold aged
  rw [expire_active hActive]
  simp

theorem aged_subset {now : F} {t : Tables F H} {r : SampleRow F H} (hr : r ∈ aged now t) :
    r ∈ t.samples ∧ ¬ toRat r.sampleEpoch < toRat (sub now maxAgeSeconds) := by
  unfold aged expire deleteRuns at hr
  simp only [List.mem_filter, Bool.not_eq_true', decide_eq_false_iff_not] at hr
  exact ⟨hr.1.1, hr.2⟩

theorem aged_owned {now : F} {t : Tables F H} {s : SampleRow F H}
    (hs : s ∈ aged now t) {q : ReceiptRow F H} (hq : q ∈ t.receipts)
    (hKey : q.key = s.key) : q ∈ (expire now t).receipts := by
  have hKept : s ∈ (expire now t).samples := List.mem_of_mem_filter hs
  simp only [expire, deleteRuns, List.mem_filter, Bool.not_eq_true', List.any_eq_false, beq_iff_eq] at hKept
  simp only [expire, deleteRuns, List.mem_filter]
  refine ⟨hq, ?_⟩
  by_contra hGone
  simp only [Bool.not_eq_true', Bool.not_eq_false] at hGone
  exact hKept.2 q ⟨hq, hGone⟩ hKey

theorem aged_sublist (now : F) (t : Tables F H) : (aged now t).Sublist t.samples :=
  List.filter_sublist.trans List.filter_sublist

theorem sampleBytes_aged (now : F) (t : Tables F H) : sampleBytes (aged now t) ≤ sampleBytes t.samples := by
  refine ((aged_sublist now t).map _).sum_le_sum ?_
  intro n hn
  obtain ⟨s, -, rfl⟩ := List.mem_map.mp hn
  unfold sampleRowCharge
  omega

theorem aged_prune (lim : Limits) (now : F) (prospective : ℤ) (t : Tables F H) :
    aged now (prune lim now prospective t).1 = (prune lim now prospective t).1.samples := by
  obtain ⟨n, hCut⟩ := prune_cut lim now prospective t
  unfold aged
  rw [expire_active (active_prune lim now prospective t), List.filter_eq_self]
  intro r hr
  rw [Bool.not_eq_true', decide_eq_false_iff_not]
  have hOrdered := List.mem_of_mem_drop (hCut.kept.mem_iff.mp hr)
  exact (aged_subset ((ordered_perm _).mem_iff.mp hOrdered)).2

-- Sample Keys

/- Samples have distinct keys, and each one has a receipt. -/
structure SampleKeys (t : Tables F H) : Prop where
  nodup : (t.samples.map SampleRow.key).Nodup
  owned : ∀ s ∈ t.samples, ∃ q ∈ t.receipts, q.key = s.key

theorem sampleKeys_prune {t : Tables F H} (hKeys : SampleKeys t) (lim : Limits) (now : F)
    (prospective : ℤ) : SampleKeys (prune lim now prospective t).1 := by
  obtain ⟨n, hCut⟩ := prune_cut lim now prospective t
  constructor
  · have hAged : ((aged now t).map SampleRow.key).Nodup := hKeys.nodup.sublist ((aged_sublist now t).map _)
    have hOrdered : ((ordered (aged now t)).map SampleRow.key).Nodup :=
      ((ordered_perm (aged now t)).map _).nodup_iff.mpr hAged
    rw [(hCut.kept.map SampleRow.key).nodup_iff]
    exact hOrdered.sublist ((List.drop_sublist n _).map _)
  · intro s hs
    obtain ⟨hOld, hKept⟩ := prune_samples_subset hs
    obtain ⟨q, hq, hKey⟩ := hKeys.owned s hOld
    exact ⟨q, hKept q hq hKey, hKey⟩

-- Admissions

theorem active_now (now : F) {x : F}
    (h : toRat now ≤ toRat x) : ¬ toRat x < toRat (sub now runLifetimeSeconds) := by
  have hSub : toRat (sub now runLifetimeSeconds) ≤ toRat now :=
    PyFloat.sub_le_self (by unfold runLifetimeSeconds; norm_num)
  exact not_lt.mpr (hSub.trans h)

/-
  An admission: the prospective prune `t₁`, the rows `t₃` with
  the new sample, and the prune after them.
-/
structure Admission (lim : Limits) (a : Attempt F) (t t₁ t₃ t' : Tables F H)
    (row : SampleRow F H) : Prop where
  first : t₁ = (prune lim a.now (a.body.length + sampleRowCharge) t).1
  last : t' = (prune lim a.now 0 t₃).1
  samples : t₃.samples = t₁.samples ++ [row]
  key : row.key = (a.probeId, a.run, a.seq)
  body : row.body = a.body
  active : Active a.now t₃
  receipt : ∃ q, q.key = row.key ∧ t₃.receipts = t₁.receipts ++ [q]
  runs : ∀ r ∈ t₁.runs, ∃ r' ∈ t₃.runs, r'.key = r.key ∧ (r.key ≠ (a.probeId, a.run) → r' = r)

theorem admission_of_savepoint {lim : Limits} {sha256 : Bytes → H} {engine : Engine}
    {a : Attempt F} {newRun : Bool} {t t' : Tables F H} {n : ℕ}
    (h : savepoint lim sha256 engine a newRun t = .ok (n, t')) :
    ∃ t₁ t₃ row, Admission lim a t t₁ t₃ t' row := by
  obtain ⟨epoch, t₁, -, hFirst, -, -, -, -, -, -, hLast⟩ := savepoint_ok h
  refine ⟨t₁, _, _, hFirst, hLast, rfl, rfl, rfl, ?_, ⟨_, rfl, rfl⟩, ?_⟩
  · intro r hr
    obtain ⟨r₀, hr₀, rfl⟩ := List.mem_map.mp hr
    have hOld : ¬ Expired a.now r₀ := by
      rcases List.mem_append.mp hr₀ with hOld | hNew
      · rw [hFirst] at hOld
        exact (mem_prune_runs.mp hOld).2
      · split at hNew
        · rw [List.mem_singleton.mp hNew]
          exact active_now a.now (le_refl _)
        · cases hNew
    split
    · exact active_now a.now (le_maxReal_right _ _)
    · exact hOld
  · intro r hr
    refine ⟨_, List.mem_map.mpr ⟨r, List.mem_append_left _ hr, rfl⟩, ?_⟩
    split
    · rename_i hOwn
      exact ⟨rfl, fun hOther => absurd hOwn hOther⟩
    · exact ⟨rfl, fun _ => rfl⟩

section Admission

variable {lim : Limits} {a : Attempt F}
variable {t t₁ t₃ t' : Tables F H} {row : SampleRow F H}

theorem Admission.sampleKeys (h : Admission lim a t t₁ t₃ t' row) (hKeys : SampleKeys t)
    (hNew : ∀ q ∈ t.receipts, q.key ≠ (a.probeId, a.run, a.seq)) : SampleKeys t' := by
  have hFirst : SampleKeys t₁ := by
    rw [h.first]
    exact sampleKeys_prune hKeys _ _ _
  obtain ⟨q, hq, hReceipts⟩ := h.receipt
  rw [h.last]
  refine sampleKeys_prune ⟨?_, ?_⟩ _ _ _
  · rw [h.samples, List.map_append, List.map_singleton]
    refine List.Nodup.append hFirst.nodup (List.nodup_singleton _) ?_
    intro key hKey hOwn
    rw [List.mem_singleton.mp hOwn] at hKey
    obtain ⟨s, hs, hEq⟩ := List.mem_map.mp hKey
    obtain ⟨p, hp, hOwned⟩ := hFirst.owned s hs
    rw [h.first] at hp
    exact hNew p (mem_prune_receipts.mp hp).1 ((hOwned.trans hEq).trans h.key)
  · intro s hs
    rw [h.samples] at hs
    rw [hReceipts]
    rcases List.mem_append.mp hs with hOld | hOwn
    · obtain ⟨p, hp, hKey⟩ := hFirst.owned s hOld
      exact ⟨p, List.mem_append_left _ hp, hKey⟩
    · rw [List.mem_singleton.mp hOwn]
      exact ⟨q, List.mem_append_right _ List.mem_cons_self, hq⟩

theorem Admission.kept_first (h : Admission lim a t t₁ t₃ t' row) {q : SampleRow F H} (hKept : q ∈ t'.samples)
    (hOther : q.key ≠ (a.probeId, a.run, a.seq)) : q ∈ t₁.samples := by
  rw [h.last] at hKept
  have hMem := (prune_samples_subset hKept).1
  rw [h.samples] at hMem
  rcases List.mem_append.mp hMem with hOld | hOwn
  · exact hOld
  · rw [List.mem_singleton.mp hOwn] at hOther
    exact absurd h.key hOther

theorem Admission.precedes (h : Admission lim a t t₁ t₃ t' row) {r q : SampleRow F H} (hr : r ∈ aged a.now t)
    (hGone : r ∉ t'.samples) (hKept : q ∈ t'.samples)
    (hOther : q.key ≠ (a.probeId, a.run, a.seq)) : sampleOrder r q := by
  obtain ⟨n, hCut⟩ := prune_cut lim a.now (a.body.length + sampleRowCharge) t
  obtain ⟨m, hLast⟩ := prune_cut lim a.now 0 t₃
  rw [← h.first] at hCut
  rw [← h.last] at hLast
  by_cases hMid : r ∈ t₁.samples
  · refine hLast.precedes ?_ hGone hKept
    rw [mem_aged h.active, h.samples]
    exact ⟨List.mem_append_left _ hMid, (aged_subset hr).2⟩
  · exact hCut.precedes hr hMid (h.kept_first hKept hOther)

/- No more went than a batch less one over what had to. -/
theorem Admission.length_gone (h : Admission lim a t t₁ t₃ t' row) (hOrder : lim.softBudget ≤ lim.hardBudget)
    (hBatch : 0 < lim.pruneBatch) {gone : List (SampleRow F H)} (hNodup : gone.Nodup)
    (hGone : ∀ r ∈ gone, r ∈ aged a.now t ∧ r ∉ t'.samples) {j : ℕ}
    (hFits : sampleBytes ((ordered (aged a.now t)).drop j) +
          (a.body.length + sampleRowCharge) ≤ lim.softBudget) :
    (gone.length : ℤ) < j + lim.pruneBatch := by
  obtain ⟨n, hCut⟩ := prune_cut lim a.now (a.body.length + sampleRowCharge) t
  rw [← h.first] at hCut
  have hRow : sampleBytes t₃.samples = sampleBytes t₁.samples + (a.body.length + sampleRowCharge) := by
    rw [h.samples, sampleBytes_append, ← h.body]
    simp [sampleBytes]
  have hRoom : sampleBytes t₃.samples ≤ lim.hardBudget := by
    rw [hRow]
    rcases prune_fits hOrder hBatch.ne' a.now (a.body.length + sampleRowCharge) t with hFit | hNone
    · rw [← h.first] at hFit
      exact hFit
    · rw [← h.first] at hNone
      have hLeft := sampleBytes_nonneg ((ordered (aged a.now t)).drop j)
      have hEmpty : sampleBytes t₁.samples = 0 := by
        rw [hNone]
        rfl
      omega
  have hAll : ∀ r ∈ gone, r ∈ aged a.now t ∧ r ∉ t₁.samples := by
    intro r hr
    obtain ⟨hOld, hNot⟩ := hGone r hr
    refine ⟨hOld, fun hMid => hNot ?_⟩
    have hAged := sampleBytes_aged a.now t₃
    rw [h.last, prune_fitting (by omega), mem_aged h.active, h.samples]
    exact ⟨List.mem_append_left _ hMid, (aged_subset hOld).2⟩
  have hLess := hCut.least hBatch j hFits
  have hCount := hCut.length_gone hNodup hAll
  omega

theorem Admission.rows (h : Admission lim a t t₁ t₃ t' row) (hActive : Active a.now t) :
    (∀ q ∈ t.receipts, q ∈ t'.receipts) ∧ ∀ r ∈ t.runs, ∃ r' ∈ t'.runs, r'.key = r.key ∧
        (r.key ≠ (a.probeId, a.run) → r' = r) := by
  obtain ⟨p, -, hReceipts⟩ := h.receipt
  have hFirst := prune_eq lim a.now (a.body.length + sampleRowCharge) t
  have hLast := prune_eq lim a.now 0 t₃
  rw [← h.first, expire_active hActive] at hFirst
  rw [← h.last, expire_active h.active] at hLast
  constructor
  · intro q hq
    rw [hLast.2.1, hReceipts, hFirst.2.1]
    exact List.mem_append_left _ hq
  · intro r hr
    rw [hLast.1]
    rw [← hFirst.1] at hr
    exact h.runs r hr

end Admission

-- Calls

section Calls

variable [DecidableEq H]

theorem sampleKeys_reachable {lim : Limits} {sha256 : Bytes → H}
    {guard : Store F H → Call F → Prop} {s : Store F H}
    (hReach : Reachable (step lim sha256) guard Store.empty s) : SampleKeys s.tables := by
  refine reachable_tables (I := SampleKeys) ⟨List.nodup_nil, fun _ hs => by cases hs⟩ ?_ ?_ ?_ hReach
  · intro s c _ hKeys
    exact sampleKeys_prune hKeys _ _ _
  · intro s a engine t _ hKeys
    exact ⟨hKeys.nodup, hKeys.owned⟩
  · intro s a engine epoch t' _ hKeys hAdmitted
    obtain ⟨n, hSaved⟩ := hAdmitted.inserted
    obtain ⟨t₁, t₃, row, hAdmission⟩ := admission_of_savepoint hSaved
    exact hAdmission.sampleKeys (sampleKeys_prune hKeys _ _ _) hAdmitted.noReceipt

theorem fits_reachable {lim : Limits} {sha256 : Bytes → H} {guard : Store F H → Call F → Prop} {s : Store F H}
    (hSoft : 0 < lim.softBudget) (hOrder : lim.softBudget ≤ lim.hardBudget)
    (hBatch : lim.pruneBatch ≠ 0)
    (hReach : Reachable (step lim sha256) guard Store.empty s) :
    sampleBytes s.tables.samples ≤ lim.hardBudget := by
  have hPruned : ∀ (now : F) (t : Tables F H),
        sampleBytes (prune lim now 0 t).1.samples ≤ lim.hardBudget := by
    intro now t
    rcases prune_fits hOrder hBatch now 0 t with hFits | hNone
    · omega
    · rw [hNone]
      exact (hSoft.trans_le hOrder).le
  refine reachable_tables (I := fun t => sampleBytes t.samples ≤ lim.hardBudget)
    (hSoft.trans_le hOrder).le ?_ ?_ ?_ hReach
  · intro s c _ _
    exact hPruned c.now s.tables
  · intro s a engine t _ hFits
    exact hFits
  · intro s a engine epoch t' _ _ hAdmitted
    obtain ⟨n, hSaved⟩ := hAdmitted.inserted
    obtain ⟨t₁, t₃, row, hAdmission⟩ := admission_of_savepoint hSaved
    rw [hAdmission.last]
    exact hPruned a.now t₃

/- The charge of the sample a call brings. -/
def Call.charge : Call F → ℤ
  | .accept a _ => a.body.length + sampleRowCharge
  | .enforceRetention _ _ => 0

/- The run whose row a call may refresh. -/
def Call.runKey? : Call F → Option (PyStr × PyStr)
  | .accept a _ => some (a.probeId, a.run)
  | .enforceRetention _ _ => none

/- What the pruning of a call does to the stored rows. -/
structure Budgeted (lim : Limits) (c : Call F) (t t' : Tables F H) : Prop where
  /- What went precedes what stayed. -/
  oldest : ∀ r ∈ aged c.now t, r ∉ t'.samples →
      ∀ q ∈ aged c.now t, q ∈ t'.samples → sampleOrder r q ∧ ¬ sampleOrder q r
  /- Less than a batch more went than had to. -/
  least :
    0 < lim.pruneBatch → ∀ gone : List (SampleRow F H), gone.Nodup →
      (∀ r ∈ gone, r ∈ aged c.now t ∧ r ∉ t'.samples) →
      ∀ j, sampleBytes ((ordered (aged c.now t)).drop j) + c.charge ≤ lim.softBudget →
        (gone.length : ℤ) < j + lim.pruneBatch
  receipts : ∀ q ∈ (expire c.now t).receipts, q ∈ t'.receipts
  runs : ∀ r ∈ (expire c.now t).runs, ∃ r' ∈ t'.runs, r'.key = r.key ∧ (c.runKey? ≠ some r.key → r' = r)

theorem Touched.rows {a : Attempt F} {t t' : Tables F H} (h : Touched a t t') :
    t'.samples = t.samples ∧ t'.receipts = t.receipts ∧
      ∀ r ∈ t.runs, ∃ r' ∈ t'.runs, r'.key = r.key ∧ (r.key ≠ (a.probeId, a.run) → r' = r) := by
  rcases h with rfl | rfl
  · exact ⟨rfl, rfl, fun r hr => ⟨r, hr, rfl, fun _ => rfl⟩⟩
  · refine ⟨rfl, rfl, fun r hr => ⟨_, List.mem_map.mpr ⟨r, hr, rfl⟩, ?_⟩⟩
    split
    · rename_i hOwn
      exact ⟨rfl, fun hOther => absurd hOwn hOther⟩
    · exact ⟨rfl, fun _ => rfl⟩

/- Where no sample went, nothing is left to show of them. -/
theorem budgeted_of_kept {lim : Limits} {c : Call F} {t t' : Tables F H}
    (hKept : ∀ r ∈ aged c.now t, r ∈ t'.samples)
    (hReceipts : ∀ q ∈ (expire c.now t).receipts, q ∈ t'.receipts)
    (hRuns : ∀ r ∈ (expire c.now t).runs, ∃ r' ∈ t'.runs, r'.key = r.key ∧
        (c.runKey? ≠ some r.key → r' = r)) :
    Budgeted lim c t t' where
  oldest r hr hGone _ _ _ := absurd (hKept r hr) hGone
  least hBatch gone _ hGone j _ := by
    cases gone with
    | nil =>
      rw [List.length_nil]
      push_cast
      omega
    | cons r rest =>
      obtain ⟨hOld, hNot⟩ := hGone r List.mem_cons_self
      exact absurd (hKept r hOld) hNot
  receipts := hReceipts
  runs := hRuns

theorem expire_subset {now : F} {t : Tables F H} :
    (∀ q ∈ (expire now t).receipts, q ∈ t.receipts) ∧ ∀ r ∈ (expire now t).runs, r ∈ t.runs :=
  ⟨fun _ hq => List.mem_of_mem_filter hq, fun _ hr => List.mem_of_mem_filter hr⟩

theorem strictly_precedes {t : Tables F H} (hKeys : SampleKeys t) {r q : SampleRow F H} (hr : r ∈ t.samples)
    (hq : q ∈ t.samples) (hOther : r ≠ q)
    (hOrder : sampleOrder r q) : sampleOrder r q ∧ ¬ sampleOrder q r := by
  refine ⟨hOrder, fun hBack => hOther ?_⟩
  exact List.inj_on_of_nodup_map hKeys.nodup hr hq (key_of_sampleOrder hOrder hBack)

/- A call that only prunes. -/
theorem budgeted_pruned {lim : Limits} {c : Call F} {t t' : Tables F H} (hKeys : SampleKeys t)
    (hFits : lim.pruneBatch ≠ 0 → sampleBytes t.samples ≤ lim.hardBudget)
    (hSamples : t'.samples = (prune lim c.now 0 t).1.samples)
    (hReceipts : t'.receipts = (prune lim c.now 0 t).1.receipts)
    (hRuns : ∀ r ∈ (prune lim c.now 0 t).1.runs,
        ∃ r' ∈ t'.runs, r'.key = r.key ∧ (c.runKey? ≠ some r.key → r' = r)) :
    Budgeted lim c t t' := by
  have hEq := prune_eq lim c.now 0 t
  rw [← hSamples, ← hReceipts] at hEq
  rw [(prune_eq lim c.now 0 t).1] at hRuns
  obtain ⟨n, hCut⟩ := prune_cut lim c.now 0 t
  rw [← hSamples] at hCut
  refine ⟨?_, ?_, ?_, hRuns⟩
  · intro r hr hGone q hq hStayed
    refine strictly_precedes hKeys (aged_subset hr).1 (aged_subset hq).1 ?_ (hCut.precedes hr hGone hStayed)
    rintro rfl
    exact hGone hStayed
  · intro hBatch gone _ hGone j _
    have hAged := sampleBytes_aged c.now t
    have hRoom := hFits hBatch.ne'
    have hAll : t'.samples = aged c.now t := by rw [hSamples, prune_fitting (by omega)]
    cases gone with
    | nil =>
      rw [List.length_nil]
      push_cast
      omega
    | cons r rest =>
      obtain ⟨hOld, hNot⟩ := hGone r List.mem_cons_self
      rw [hAll] at hNot
      exact absurd hOld hNot
  · intro q hq
    rw [hEq.2.1]
    exact hq

/- A call that admits a sample into the pruned tables. -/
theorem budgeted_admitted {lim : Limits} {a : Attempt F} {engine : Engine}
    {t t₁ t₃ t' : Tables F H} {row : SampleRow F H}
    (hOrder : lim.softBudget ≤ lim.hardBudget) (hKeys : SampleKeys t)
    (hFits : lim.pruneBatch ≠ 0 → sampleBytes t.samples ≤ lim.hardBudget)
    (hNew : ∀ q ∈ (prune lim a.now 0 t).1.receipts, q.key ≠ (a.probeId, a.run, a.seq))
    (h : Admission lim a (prune lim a.now 0 t).1 t₁ t₃ t' row) :
    Budgeted lim (.accept a engine) t t' := by
  have hFirst := prune_eq lim a.now 0 t
  have hAged := aged_prune lim a.now 0 t
  obtain ⟨hReceipts, hRuns⟩ := h.rows (active_prune lim a.now 0 t)
  refine ⟨?_, ?_, ?_, ?_⟩
  · intro r hr hGone q hq hStayed
    refine strictly_precedes hKeys (aged_subset hr).1 (aged_subset hq).1 ?_ ?_
    · rintro rfl
      exact hGone hStayed
    · obtain ⟨p, hp, hKey⟩ := hKeys.owned q (aged_subset hq).1
      have hReceipt := aged_owned hq hp hKey
      have hNamed : p ∈ (prune lim a.now 0 t).1.receipts := by
        rw [hFirst.2.1]
        exact hReceipt
      have hOther : q.key ≠ (a.probeId, a.run, a.seq) := fun hOwn => hNew p hNamed (hKey.trans hOwn)
      by_cases hMid : r ∈ (prune lim a.now 0 t).1.samples
      · exact h.precedes (by rw [hAged]; exact hMid) hGone hStayed
          hOther
      · have hBefore := h.kept_first hStayed hOther
        rw [h.first] at hBefore
        obtain ⟨n, hCut⟩ := prune_cut lim a.now 0 t
        exact hCut.precedes hr hMid (prune_samples_subset hBefore).1
  · intro hBatch gone hNodup hGone j hRoom
    have hStored := sampleBytes_aged a.now t
    have hFit := hFits hBatch.ne'
    have hAll : (prune lim a.now 0 t).1.samples = aged a.now t := prune_fitting (by omega)
    refine h.length_gone hOrder hBatch hNodup ?_ ?_
    · rw [hAged, hAll]
      exact hGone
    · rw [hAged, hAll]
      exact hRoom
  · intro q hq
    refine hReceipts q ?_
    rw [hFirst.2.1]
    exact hq
  · intro r hr
    have hMem : r ∈ (prune lim a.now 0 t).1.runs := by
      rw [hFirst.1]
      exact hr
    obtain ⟨r', hr', hKey, hSame⟩ := hRuns r hMem
    exact ⟨r', hr', hKey, fun hOther => hSame (fun hOwn => hOther (congrArg some hOwn.symm))⟩

theorem budgeted_step {lim : Limits} {sha256 : Bytes → H} {guard : Store F H → Call F → Prop} {s : Store F H}
    (hSoft : 0 < lim.softBudget) (hOrder : lim.softBudget ≤ lim.hardBudget)
    (hReach : Reachable (step lim sha256) guard Store.empty s)
    (c : Call F) : Budgeted lim c s.tables (step lim sha256 s c).2.tables := by
  have hKeys := sampleKeys_reachable hReach
  have hFits := fun hBatch => fits_reachable hSoft hOrder hBatch hReach
  cases c with
  | accept a engine =>
    have hName : ∀ {r : RunRow F}, (Call.accept a engine).runKey? ≠ some r.key → r.key ≠ (a.probeId, a.run) :=
      fun hOther hOwn => hOther (congrArg some hOwn.symm)
    rw [step_accept_tables]
    rcases accept_cases lim sha256 engine a s with ⟨-, -, epoch, hAdmitted⟩ | ⟨-, -, hDone⟩ | ⟨hDone, -⟩
    · obtain ⟨n, hSaved⟩ := hAdmitted.inserted
      obtain ⟨t₁, t₃, row, hAdmission⟩ := admission_of_savepoint hSaved
      exact budgeted_admitted hOrder hKeys hFits hAdmitted.noReceipt hAdmission
    · obtain ⟨hSamples, hReceipts, hRuns⟩ := hDone.rows
      refine budgeted_pruned hKeys hFits hSamples hReceipts ?_
      intro r hr
      obtain ⟨r', hr', hKey, hSame⟩ := hRuns r hr
      exact ⟨r', hr', hKey, fun hOther => hSame (hName hOther)⟩
    · obtain ⟨hSamples, hReceipts, hRuns⟩ := hDone.rows
      refine budgeted_of_kept ?_ ?_ ?_
      · intro r hr
        rw [hSamples]
        exact (aged_subset hr).1
      · intro q hq
        rw [hReceipts]
        exact expire_subset.1 q hq
      · intro r hr
        obtain ⟨r', hr', hKey, hSame⟩ := hRuns r (expire_subset.2 r hr)
        exact ⟨r', hr', hKey, fun hOther => hSame (hName hOther)⟩
  | enforceRetention now fault =>
    rw [step_enforceRetention_tables]
    rcases enforceRetention_tables lim fault now s with hSame | hPruned
    · rw [hSame]
      exact budgeted_of_kept (fun r hr => (aged_subset hr).1) expire_subset.1
        (fun r hr => ⟨r, expire_subset.2 r hr, rfl, fun _ => rfl⟩)
    · rw [hPruned]
      exact budgeted_pruned hKeys hFits rfl rfl (fun r hr => ⟨r, hr, rfl, fun _ => rfl⟩)

theorem refused_restores {lim : Limits} {sha256 : Bytes → H} {s : Store F H} {c : Call F} {e : StoreError}
    (h : (step lim sha256 s c).1 = .error e) :
    ∀ r ∈ (prune lim c.now 0 s.tables).1.samples, r ∈ (step lim sha256 s c).2.tables.samples := by
  intro r hr
  have hOld := (prune_samples_subset hr).1
  cases c with
  | accept a engine =>
    rw [step_accept_tables]
    rcases accept_cases lim sha256 engine a s with ⟨hDone, -⟩ | ⟨-, -, hDone⟩ | ⟨hDone, -⟩
    · have hOk : (step lim sha256 s (.accept a engine)).1 = .ok (some .accepted) := by
        unfold step
        dsimp only
        rw [hDone]
        rfl
      rw [hOk] at h
      cases h
    · rw [hDone.rows.1]
      exact hr
    · rw [hDone.rows.1]
      exact hOld
  | enforceRetention now fault =>
    rw [step_enforceRetention_tables]
    rcases enforceRetention_tables lim fault now s with hSame | hPruned
    · rw [hSame]
      exact hOld
    · rw [hPruned]
      exact hr

/-
  In a reachable store: after a call the samples fit the hard
  budget; what pruning took is the beginning of the order, not
  a batch more than the soft budget asks for, and no receipt
  or run; the loop comes to its own end for every batch; and
  a refusal restores what the attempt had pruned.
-/
theorem budget_law {lim : Limits} {sha256 : Bytes → H} {s : Store F H}
    (hSoft : 0 < lim.softBudget) (hOrder : lim.softBudget ≤ lim.hardBudget)
    (hReach : Reachable (step lim sha256) (fun _ _ => True) Store.empty s)
    (c : Call F) :
    (lim.pruneBatch ≠ 0 → sampleBytes (step lim sha256 s c).2.tables.samples ≤ lim.hardBudget) ∧
    Budgeted lim c s.tables (step lim sha256 s c).2.tables ∧
    (∀ prospective rounds (samples : List (SampleRow F H)) pruned,
      samples.length ≤ rounds → Ended lim prospective (pruneToSoft lim prospective rounds samples pruned).1) ∧
    (∀ e, (step lim sha256 s c).1 = .error e → e.IsCapacity →
      ∀ r ∈ (prune lim c.now 0 s.tables).1.samples, r ∈ (step lim sha256 s c).2.tables.samples) := by
  refine ⟨?_, budgeted_step hSoft hOrder hReach c, ?_, ?_⟩
  · intro hBatch
    exact fits_reachable hSoft hOrder hBatch (hReach.step_of c trivial)
  · intro prospective rounds samples pruned hRounds
    exact pruneToSoft_ends lim prospective hRounds pruned
  · intro e hError _
    exact refused_restores hError

/- A budget of one sample with a body of two bytes. -/
def oneSample (batch : ℤ) : Limits := { hardBudget := 258, softBudget := 258, pruneBatch := batch }

/- The first sample of a run, at a time. -/
def firstOf (run : String) (epoch : ℤ) : Attempt (Grid 1) :=
  ⟨pyStr "edge", pyStr run, 1, .int epoch, [123, 125], ⟨1000100⟩⟩

/- A store that is full with its one sample. -/
def fullStore (batch : ℤ) : Store (Grid 1) Bytes := (step (oneSample batch) id Store.empty
    (.accept (firstOf "r" 1000000) idleEngine)).2

theorem reachable_fullStore (batch : ℤ) : Reachable (step (oneSample batch) id) (fun _ _ => True)
      Store.empty (fullStore batch) :=
  reachable_first_call (oneSample batch) id _

theorem budget_law_at_second : sampleBytes (step (oneSample 1) id (fullStore 1)
      (.accept (firstOf "q" 1000001) idleEngine)).2.tables.samples ≤ (oneSample 1).hardBudget :=
  (budget_law (by decide) (by decide) (reachable_fullStore 1)
    (.accept (firstOf "q" 1000001) idleEngine)).1 (by decide)

/-
  A batch of nothing leaves the samples over the budget, and
  the sample a call brings may precede what was removed for it.
-/
theorem budget_law_fails : (¬ ∀ (lim : Limits) (s : Store (Grid 1) Bytes) (c : Call (Grid 1)),
      0 < lim.softBudget → lim.softBudget ≤ lim.hardBudget →
      Reachable (step lim id) (fun _ _ => True) Store.empty s →
        sampleBytes (step lim id s c).2.tables.samples ≤ lim.hardBudget) ∧
    (¬ ∀ (lim : Limits) (s : Store (Grid 1) Bytes) (c : Call (Grid 1)),
      0 < lim.softBudget → lim.softBudget ≤ lim.hardBudget →
      Reachable (step lim id) (fun _ _ => True) Store.empty s → ∀ r ∈ aged c.now s.tables,
          r ∉ (step lim id s c).2.tables.samples →
            ∀ q ∈ (step lim id s c).2.tables.samples, sampleOrder r q) := by
  constructor
  · intro hClaim
    have hFits := hClaim (oneSample 0) (fullStore 0) (.accept (firstOf "q" 1000001) idleEngine) (by decide)
      (by decide) (reachable_fullStore 0)
    revert hFits
    decide +kernel
  · intro hClaim
    have hPrecedes := hClaim (oneSample 1) (fullStore 1) (.accept (firstOf "q" 999999) idleEngine) (by decide)
      (by decide) (reachable_fullStore 1)
      ⟨pyStr "edge", pyStr "r", 1, ⟨1000000⟩, ⟨1000100⟩, [123, 125], [123, 125]⟩ (by decide +kernel)
      (by decide +kernel)
      ⟨pyStr "edge", pyStr "q", 1, ⟨999999⟩, ⟨1000100⟩, [123, 125], [123, 125]⟩ (by decide +kernel)
    revert hPrecedes
    decide +kernel

end Calls

end SingboxOps.RemoteStore
