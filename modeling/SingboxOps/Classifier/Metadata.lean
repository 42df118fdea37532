import SingboxOps.Classifier.Attribution
import SingboxOps.IncidentHistory.Windows

/-
  What is kept of a verdict: where the anomaly sat, and the
  tokens as two bitsets.
-/

namespace SingboxOps.Classifier

variable {F : Type} [BoundedFloat F]

-- Positions

theorem detectionOf_empty {start : F} {verdict : Classification F × List ℕ}
    (h : verdict.2 = []) : (detectionOf start verdict).firstSignal = none ∧
      (detectionOf start verdict).lastSignal = none := by
  unfold detectionOf
  rw [h]
  exact ⟨rfl, rfl⟩

theorem candidates_pairwise (facts : Facts F) (reference : Reference F) (buckets : ℕ) :
    (candidates facts reference buckets).Pairwise (· < ·) :=
  List.Pairwise.filter _ List.pairwise_lt_range'

theorem Judged.positions {b : Bundle F} {facts : Facts F} {reference : Reference F}
    {verdict : Classification F × List ℕ} (h : Judged b facts reference verdict) :
    (verdict.2 ≠ [] ↔ verdict.1.status = .incident) ∧
      (verdict.2 = [] ∨ verdict.2 = candidates facts reference b.window.buckets) ∧
      (verdict.2 ≠ [] → verdict.1.category ≠ .insufficient → Contiguous verdict.2) := by
  cases h with
  | quiet _ indices status _ =>
    refine ⟨?_, Or.inl indices, fun hSome => absurd indices hSome⟩
    rw [indices, status]
    split <;> simp
  | uncorroborated _ _ indices status _ =>
    refine ⟨?_, Or.inl indices, fun hSome => absurd indices hSome⟩
    rw [indices, status]
    simp
  | scattered corroborated indices status category =>
    obtain ⟨i, hi, _⟩ := corroborated
    refine ⟨⟨fun _ => status, fun _ => ?_⟩, Or.inr indices, fun _ hCategory => absurd category hCategory⟩
    rw [indices]
    exact List.ne_nil_of_mem hi
  | attributed corroborated indices contiguous status _ =>
    obtain ⟨i, hi, _⟩ := corroborated
    refine ⟨⟨fun _ => status, fun _ => ?_⟩, Or.inr indices, fun _ _ => contiguous⟩
    rw [indices]
    exact List.ne_nil_of_mem hi

/-
  The metadata restates the verdict: there are positions
  exactly when the status is an incident; they increase; the
  signal epochs are the bounds of the first and of the last
  anomalous bucket, inside the window and past its baseline;
  and a verdict with a cause has a single episode.
-/
theorem detection_metadata (evidence : Json F) (d : Detection F) (h : detect evidence = .ok d) :
    (d.indices ≠ [] ↔ d.classification.status = .incident) ∧ d.indices.Pairwise (· < ·) ∧
      (d.indices = [] → d.firstSignal = none ∧ d.lastSignal = none) ∧
      (d.indices ≠ [] → ∃ b first last, Accepted evidence b ∧
        d.indices.head? = some first ∧ d.indices.getLast? = some last ∧
        minBaselineBuckets ≤ first ∧ first ≤ last ∧ last < b.window.buckets ∧
        d.firstSignal = some (bucketStart b.window.start first) ∧
        d.lastSignal = some (bucketStart b.window.start (last + 1))) ∧
      (d.indices ≠ [] → d.classification.category ≠ .insufficient → Contiguous d.indices) := by
  have hClosed : d.FailClosed → (d.indices ≠ [] ↔ d.classification.status = .incident) ∧
      d.indices.Pairwise (· < ·) ∧
      (d.indices = [] → d.firstSignal = none ∧ d.lastSignal = none) := by
    intro hFail
    rw [hFail.indices, hFail.status]
    exact ⟨by simp, List.Pairwise.nil, fun _ => ⟨hFail.firstSignal, hFail.lastSignal⟩⟩
  cases detect_detected h with
  | refused _ failClosed =>
    obtain ⟨hStatus, hOrder, hNone⟩ := hClosed failClosed
    exact ⟨hStatus, hOrder, hNone, fun hSome => absurd failClosed.indices hSome,
      fun hSome => absurd failClosed.indices hSome⟩
  | short _ _ _ failClosed =>
    obtain ⟨hStatus, hOrder, hNone⟩ := hClosed failClosed
    exact ⟨hStatus, hOrder, hNone, fun hSome => absurd failClosed.indices hSome,
      fun hSome => absurd failClosed.indices hSome⟩
  | judged b facts reference verdict accepted _ _ _ judged detection =>
    obtain ⟨hStatus, hCandidates, hContiguous⟩ := judged.positions
    rw [detection, detectionOf_indices, detectionOf_classification]
    have hOrder : verdict.2.Pairwise (· < ·) := by
      rcases hCandidates with hNil | hAll
      · rw [hNil]
        exact List.Pairwise.nil
      · rw [hAll]
        exact candidates_pairwise facts reference _
    refine ⟨hStatus, hOrder, fun hNil => detectionOf_empty hNil, ?_, hContiguous⟩
    intro hSome
    obtain ⟨first, hFirst⟩ : ∃ first, verdict.2.head? = some first :=
      ⟨verdict.2.head hSome, List.head?_eq_some_head hSome⟩
    obtain ⟨last, hLast⟩ : ∃ last, verdict.2.getLast? = some last :=
      ⟨verdict.2.getLast hSome, List.getLast?_eq_some_getLast hSome⟩
    have hAll := hCandidates.resolve_left hSome
    have hRange : ∀ i ∈ verdict.2, minBaselineBuckets ≤ i ∧ i < b.window.buckets := by
      intro i hi
      rw [hAll] at hi
      exact mem_candidates_range hi
    refine ⟨b, first, last, accepted, hFirst, hLast, (hRange first (List.mem_of_mem_head? hFirst)).1, ?_,
      (hRange last (List.mem_of_mem_getLast? hLast)).2, ?_, ?_⟩
    · -- the head of an increasing list is its least element
      cases hIndices : verdict.2 with
      | nil => exact absurd hIndices hSome
      | cons i rest =>
        rw [hIndices] at hFirst hLast hOrder
        cases hFirst
        rcases List.mem_cons.mp (List.mem_of_mem_getLast? hLast) with hSame | hLater
        · exact le_of_eq hSame.symm
        · exact le_of_lt (List.rel_of_pairwise_cons hOrder hLater)
    · unfold detectionOf
      rw [hFirst, hLast]
    · unfold detectionOf
      rw [hFirst, hLast]

theorem detection_metadata_of_realityOutage : ∃ d, detect realityOutage = .ok d ∧
    d.indices = [4] ∧ d.classification.status = .incident ∧ d.firstSignal ≠ none := by
  have hIndices : (detect realityOutage).toOption.map (fun d => d.indices) = some [4] := by
    decide +kernel
  cases hDetect : detect realityOutage with
  | error e =>
    rw [hDetect] at hIndices
    cases hIndices
  | ok d =>
    rw [hDetect] at hIndices
    have hOne : d.indices = [4] := Option.some.inj hIndices
    have hSome : d.indices ≠ [] := by simp [hOne]
    obtain ⟨hStatus, _, _, hSignals, _⟩ := detection_metadata realityOutage d hDetect
    obtain ⟨_, _, _, _, _, _, _, _, _, hFirst, _⟩ := hSignals hSome
    refine ⟨d, rfl, hOne, hStatus.mp hSome, ?_⟩
    rw [hFirst]
    exact Option.some_ne_none _

-- Bitsets

section Bits

variable {α : Type} {order : List α} {s s' : Finset α} {n : ℕ}

/- The tokens whose bit is set, in the order. -/
def heldTokens (order : List α) (value : ℕ) : List α :=
  (order.zipIdx.filter (fun t => value.testBit t.2)).map Prod.fst

/- `_bits_to_tokens` -/
def bitsToTokens (order : List α) (value : ℤ) : Option (List α) :=
  if value < 0 ∨ 2 ^ order.length ≤ value then none
  else some (heldTokens order value.toNat)

theorem heldTokens_cons (t : α) (order : List α) (n : ℕ) : heldTokens (t :: order) n =
      (if n.testBit 0 then [t] else []) ++ heldTokens order (n / 2) := by
  have hRest : ((order.zipIdx 1).filter (fun u => n.testBit u.2)).map Prod.fst =
      heldTokens order (n / 2) := by
    rw [List.zipIdx_succ, List.filter_map, List.map_map, heldTokens]
    congr 1
    apply List.filter_congr
    intro u _
    exact Nat.testBit_succ n u.2
  rw [heldTokens, List.zipIdx_cons, List.filter_cons]
  split_ifs with hBit
  · rw [List.map_cons, hRest]
    rfl
  · exact hRest

theorem heldTokens_sublist (order : List α) (n : ℕ) : (heldTokens order n).Sublist order := by
  induction order generalizing n with
  | nil => exact List.Sublist.refl _
  | cons t order ih =>
    rw [heldTokens_cons]
    split_ifs
    · exact (ih (n / 2)).cons_cons t
    · exact (ih (n / 2)).cons t

variable [DecidableEq α]

theorem tokensToBits_lt (order : List α) (s : Finset α) : tokensToBits order s < 2 ^ order.length := by
  induction order with
  | nil => exact Nat.one_pos
  | cons t order ih =>
    rw [tokensToBits, List.length_cons, Nat.pow_succ]
    split_ifs <;> omega

theorem tokensToBits_congr (h : ∀ t ∈ order, t ∈ s ↔ t ∈ s') :
    tokensToBits order s = tokensToBits order s' := by
  induction order with
  | nil => rfl
  | cons t order ih =>
    rw [tokensToBits, tokensToBits, ih (fun u hu => h u (List.mem_cons_of_mem t hu))]
    simp only [h t List.mem_cons_self]

theorem heldTokens_tokensToBits (order : List α) (s : Finset α) :
    heldTokens order (tokensToBits order s) = order.filter (fun t => t ∈ s) := by
  induction order with
  | nil => rfl
  | cons t order ih =>
    rw [heldTokens_cons, tokensToBits, List.filter_cons]
    by_cases ht : t ∈ s
    · have hHalf : (1 + 2 * tokensToBits order s) / 2 = tokensToBits order s := by omega
      have hBit : (1 + 2 * tokensToBits order s).testBit 0 = true := by
        rw [Nat.testBit_zero, decide_eq_true_eq]
        omega
      simp only [hBit, hHalf, ih, ht, decide_true, if_true, List.singleton_append]
    · have hHalf : (0 + 2 * tokensToBits order s) / 2 = tokensToBits order s := by omega
      have hBit : (0 + 2 * tokensToBits order s).testBit 0 = false := by
        rw [Nat.testBit_zero, decide_eq_false_iff_not]
        omega
      simp [ht, ih]

theorem tokensToBits_heldTokens (hNodup : order.Nodup) (hn : n < 2 ^ order.length) :
    tokensToBits order (heldTokens order n).toFinset = n := by
  induction order generalizing n with
  | nil =>
    rw [List.length_nil, pow_zero] at hn
    rw [tokensToBits]
    omega
  | cons t order ih =>
    rw [List.length_cons, Nat.pow_succ] at hn
    have hNew := (List.nodup_cons.mp hNodup).1
    have hAway : t ∉ heldTokens order (n / 2) :=
      fun hMem => hNew ((heldTokens_sublist order (n / 2)).subset hMem)
    have hRest : tokensToBits order (heldTokens (t :: order) n).toFinset = n / 2 := by
      rw [← ih (List.nodup_cons.mp hNodup).2 (by omega : n / 2 < 2 ^ order.length)]
      apply tokensToBits_congr
      intro u hu
      have hOther : u ≠ t := by
        rintro rfl
        exact hNew hu
      rw [heldTokens_cons]
      split_ifs <;> simp [hOther]
    have hHead : t ∈ (heldTokens (t :: order) n).toFinset ↔ n % 2 = 1 := by
      rw [heldTokens_cons, Nat.testBit_zero]
      by_cases hOdd : n % 2 = 1
      · simp [hOdd]
      · simp [hOdd, hAway]
    rw [tokensToBits, hRest]
    by_cases hOdd : n % 2 = 1
    · rw [if_pos (hHead.mpr hOdd)]
      omega
    · rw [if_neg (fun hMem => hOdd (hHead.mp hMem))]
      omega

theorem bitsToTokens_tokensToBits (order : List α) (s : Finset α) :
    bitsToTokens order (tokensToBits order s) = some (order.filter (fun t => t ∈ s)) := by
  have hLt := tokensToBits_lt order s
  have hFits : ¬ ((tokensToBits order s : ℤ) < 0 ∨ 2 ^ order.length ≤ (tokensToBits order s : ℤ)) := by
    push Not
    exact ⟨Int.natCast_nonneg _, by exact_mod_cast hLt⟩
  rw [bitsToTokens, if_neg hFits, Int.toNat_natCast, heldTokens_tokensToBits]

/-
  The sets of tokens are in one-to-one correspondence with
  the integers below the width of the order.
-/
theorem bits_roundtrip (hNodup : order.Nodup) (hAll : ∀ t, t ∈ order) :
    (∀ s : Finset α, ∃ tokens, bitsToTokens order (tokensToBits order s) = some tokens ∧
        tokens.Sublist order ∧ tokens.toFinset = s) ∧
      (∀ value tokens, bitsToTokens order value = some tokens →
        (tokensToBits order tokens.toFinset : ℤ) = value) ∧
      ∀ value : ℤ, (∃ s : Finset α, (tokensToBits order s : ℤ) = value) ↔
        0 ≤ value ∧ value ≤ 2 ^ order.length - 1 := by
  refine ⟨?_, ?_, ?_⟩
  · intro s
    refine ⟨_, bitsToTokens_tokensToBits order s, List.filter_sublist, ?_⟩
    ext t
    simp [hAll t]
  · intro value tokens h
    unfold bitsToTokens at h
    split_ifs at h with hOut
    push Not at hOut
    cases h
    have hFits : value.toNat < 2 ^ order.length := by
      zify
      rw [Int.toNat_of_nonneg hOut.1]
      exact hOut.2
    rw [tokensToBits_heldTokens hNodup hFits, Int.toNat_of_nonneg hOut.1]
  · intro value
    constructor
    · rintro ⟨s, rfl⟩
      have hLt : (tokensToBits order s : ℤ) < 2 ^ order.length := by
        exact_mod_cast tokensToBits_lt order s
      exact ⟨Int.natCast_nonneg _, by omega⟩
    · rintro ⟨hNonneg, hUpper⟩
      have hFits : value.toNat < 2 ^ order.length := by
        zify
        rw [Int.toNat_of_nonneg hNonneg]
        omega
      refine ⟨(heldTokens order value.toNat).toFinset, ?_⟩
      rw [tokensToBits_heldTokens hNodup hFits, Int.toNat_of_nonneg hNonneg]

end Bits

/- `bits_to_evidence` -/
def bitsToEvidence (value : ℤ) : Option (List EvidenceToken) := bitsToTokens evidenceBitOrder value

/- `bits_to_unknown` -/
def bitsToUnknown (value : ℤ) : Option (List UnknownToken) := bitsToTokens unknownBitOrder value

def CountField.token : CountField → PyStr
  | .total => pyStr "total"
  | .reality => pyStr "reality"
  | .hysteria2 => pyStr "hysteria2"
  | .other => pyStr "other"

def ProbeSlot.token : ProbeSlot → PyStr
  | .dns => pyStr "dns"
  | .https => pyStr "https"
  | .udp => pyStr "udp"
  | .egress => pyStr "egress"

def BurstPlace.token : BurstPlace → PyStr
  | .reality => pyStr "reality"
  | .hysteria2 => pyStr "hysteria2"
  | .generic => pyStr "other_generic"
  | .destination => pyStr "destination"
  | .unattributed => pyStr "unattributed"

def EvidenceToken.token : EvidenceToken → PyStr
  | .noAnomaly => pyStr "no_anomaly"
  | .countDrop name => pyStr "count_drop_" ++ name.token
  | .allDevicesQuiet => pyStr "all_devices_quiet"
  | .journalBurst place => pyStr "journal_burst_" ++ place.token
  | .probeFailed slot => pyStr "probe_failed_" ++ slot.token
  | .probeSourceUnavailable => pyStr "probe_source_unavailable"
  | .probeGenericTcpHealthy => pyStr "probe_generic_tcp_healthy"
  | .egressIpChanged => pyStr "egress_ip_changed"
  | .apiStale => pyStr "api_stale"
  | .collectorStale => pyStr "collector_stale"
  | .sampleCoverageGap => pyStr "sample_coverage_gap"
  | .historyDegraded => pyStr "history_degraded"
  | .journalContinuityGap => pyStr "journal_continuity_gap"
  | .journalRejectedBatch => pyStr "journal_rejected_batch"
  | .journalCls cls => pyStr "journal_cls_" ++ cls.token
  | .journalAudit code => pyStr "journal_audit_" ++ code.token

def UnknownToken.token : UnknownToken → PyStr
  | .noCorroboration => pyStr "no_corroboration"
  | .countDropOnly => pyStr "count_drop_only"
  | .attributionAmbiguous => pyStr "attribution_ambiguous"
  | .baselineEvidenceAbsent => pyStr "baseline_evidence_absent"
  | .transportNegativesUnproven => pyStr "transport_negatives_unproven"
  | .contemporaneousNegativesUnproven => pyStr "contemporaneous_negatives_unproven"
  | .probeEvidenceAbsent => pyStr "probe_evidence_absent"
  | .probeEvidenceUnusable => pyStr "probe_evidence_unusable"
  | .probeEndpointConfounded => pyStr "probe_endpoint_confounded"
  | .multipleAnomalyClusters => pyStr "multiple_anomaly_clusters"
  | .journalEvidenceAbsent => pyStr "journal_evidence_absent"
  | .journalEvidenceIncomplete => pyStr "journal_evidence_incomplete"
  | .noTargetSpecificProof => pyStr "no_target_specific_proof"
  | .multipleDestinations => pyStr "multiple_destinations"
  | .processAndNetworkEvidenceConflict => pyStr "process_and_network_evidence_conflict"
  | .deviceStatesAreChangeOnly => pyStr "device_states_are_change_only"
  | .unattributedEvidencePresent => pyStr "unattributed_evidence_present"
  | .evidenceShapeRejected => pyStr "evidence_shape_rejected"
  | .evidenceOutsideWindow => pyStr "evidence_outside_window"
  | .rootCauseNotEstablished => pyStr "root_cause_not_established"
  | .evidenceRejected sec => pyStr "evidence_rejected_" ++ sec.token

theorem bitOrders_sorted : (evidenceBitOrder.map EvidenceToken.token).IsChain (· < ·) ∧
    (unknownBitOrder.map UnknownToken.token).IsChain (· < ·) := by
  decide +kernel

theorem mem_evidenceBitOrder (t : EvidenceToken) : t ∈ evidenceBitOrder := by
  cases t <;> first | decide | (rename_i x; cases x <;> decide)

theorem mem_unknownBitOrder (t : UnknownToken) : t ∈ unknownBitOrder := by
  cases t <;> first | decide | (rename_i x; cases x <;> decide)

/-
  The bitsets of a verdict decode to its own tokens, what
  decodes is the bitset of its tokens, and the integers the
  columns of an incident window take are exactly the bitsets
  of verdicts.
-/
theorem verdict_bits_roundtrip : ((∀ s, ∃ tokens, bitsToEvidence (evidenceToBits s) = some tokens ∧
        tokens.Sublist evidenceBitOrder ∧ tokens.toFinset = s) ∧
      (∀ value tokens, bitsToEvidence value = some tokens → (evidenceToBits tokens.toFinset : ℤ) = value) ∧
      ∀ value : ℤ, (∃ s, (evidenceToBits s : ℤ) = value) ↔
        0 ≤ value ∧ value ≤ IncidentHistory.incidentEvidenceBitsMax) ∧
    ((∀ s, ∃ tokens, bitsToUnknown (unknownToBits s) = some tokens ∧
        tokens.Sublist unknownBitOrder ∧ tokens.toFinset = s) ∧
      (∀ value tokens, bitsToUnknown value = some tokens → (unknownToBits tokens.toFinset : ℤ) = value) ∧
      ∀ value : ℤ, (∃ s, (unknownToBits s : ℤ) = value) ↔
        0 ≤ value ∧ value ≤ IncidentHistory.incidentUnknownBitsMax) := by
  have hEvidence : (2 : ℤ) ^ evidenceBitOrder.length - 1 =
      IncidentHistory.incidentEvidenceBitsMax := by decide
  have hUnknown : (2 : ℤ) ^ unknownBitOrder.length - 1 =
      IncidentHistory.incidentUnknownBitsMax := by decide
  rw [← hEvidence, ← hUnknown]
  exact ⟨bits_roundtrip (by decide) mem_evidenceBitOrder,
    bits_roundtrip (by decide) mem_unknownBitOrder⟩

end SingboxOps.Classifier
