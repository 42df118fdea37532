import SingboxOps.RemoteProbe.Encode

/-
  The schema of a sample seen through its encoding.

  A valid sample is at most three containers deep.  All of its
  values but the test identifiers read back as they are, and
  a test identifier only gets shorter; so what a valid sample
  reads back as is valid.
-/

namespace SingboxOps.RemoteProbe

open Json (canonical depth rereadStr Proper)

variable {F : Type} [FloatText F]

-- Problem Lists

theorem problem_eq_nil {c : Bool} {text : String} : problem c text = [] ↔ c = false := by
  cases c <;> simp [problem]

theorem ok_bind {ε α β : Type} (a : α) (f : α → Except ε β) : (Except.ok a >>= f) = f a :=
  rfl

-- Slots

theorem slot_plain {name : String} {slot : Json F} (h : slotViolations name slot = .ok []) :
    ∃ members, slot = .obj members ∧ PlainObject slotKeys members := by
  unfold slotViolations at h
  cases slot with
  | obj members =>
    simp only at h
    split at h
    · rename_i hKeys
      rcases except_bind_ok h with ⟨status, hStatus, h⟩
      rcases except_bind_ok h with ⟨latency, hLatency, h⟩
      rcases except_bind_ok h with ⟨code, hCode, h⟩
      have hNil := Except.ok.inj h
      simp only [List.append_eq_nil_iff, problem_eq_nil, Bool.not_eq_false'] at hNil
      refine ⟨members, rfl, hKeys, ?_⟩
      intro k hk
      simp only [slotKeys, List.mem_cons, List.not_mem_nil, or_false] at hk
      rcases hk with rfl | rfl | rfl
      · exact ⟨status, hStatus, plain_of_isOneOf (by decide) hNil.1.1.1⟩
      · exact ⟨latency, hLatency, plain_of_isNullOrAtLeast hNil.1.2⟩
      · exact ⟨code, hCode, plain_of_isOneOf (by decide) hNil.1.1.2⟩
    · cases h
  | _ => cases h

theorem slotViolations_congr {name : String} {members read : List (PyStr × Json F)}
    (h : SameFields slotKeys members read) :
    slotViolations name (.obj read) = slotViolations name (.obj members) := by
  simp only [slotViolations, h.left, h.right, if_true,
    h.values "status" (by decide), h.values "latency_ms" (by decide),
    h.values "error_code" (by decide)]

theorem sameFields_slot {members read : List (PyStr × Json F)}
    (h : SameFields egressKeys members read) : SameFields slotKeys
      (members.filter (fun m => slotKeys.any (fun k => m.1 == pyStr k)))
      (read.filter (fun m => slotKeys.any (fun k => m.1 == pyStr k))) := by
  have hSub : ∀ k ∈ slotKeys, k ∈ egressKeys := by decide
  have hPart : ∀ {ms : List (PyStr × Json F)}, keysAre ms egressKeys = true → keysAre (ms.filter (fun m =>
            slotKeys.any (fun k => m.1 == pyStr k)))
            slotKeys = true := by
    intro ms hKeys
    rw [keysAre_iff] at hKeys ⊢
    constructor
    · intro key hKey
      rcases List.mem_map.mp hKey with ⟨m, hm, rfl⟩
      have hName := (List.mem_filter.mp hm).2
      simpa using hName
    · intro k hk
      rcases List.mem_map.mp (hKeys.2 k (hSub k hk)) with ⟨m, hm, hEq⟩
      apply List.mem_map.mpr
      refine ⟨m, List.mem_filter.mpr ⟨hm, ?_⟩, hEq⟩
      apply List.any_eq_true.mpr
      exact ⟨k, hk, by simp [hEq]⟩
  refine ⟨hPart h.left, hPart h.right, ?_⟩
  intro k hk
  have hKey : slotKeys.any (fun j => pyStr k == pyStr j) = true := List.any_eq_true.mpr ⟨k, hk, by simp⟩
  have hSame := h.values k (hSub k hk)
  rw [item, item] at hSame ⊢
  rw [Json.getItem_filterKeys (p := fun key => slotKeys.any (fun j => key == pyStr j)) hKey,
    Json.getItem_filterKeys (p := fun key => slotKeys.any (fun j => key == pyStr j)) hKey]
  exact hSame

theorem egress_plain {egress : Json F} (h : egressViolations egress = .ok []) : ∃ members,
      egress = .obj members ∧ PlainObject egressKeys members := by
  unfold egressViolations at h
  cases egress with
  | obj members =>
    simp only at h
    split at h
    · rename_i hKeys
      rcases except_bind_ok h with ⟨slot, hSlot, h⟩
      rcases except_bind_ok h with ⟨ip, hIp, h⟩
      rcases except_bind_ok h with ⟨change, hChange, h⟩
      rcases except_bind_ok h with ⟨status, hStatus, h⟩
      have hNil := Except.ok.inj h
      simp only [List.append_eq_nil_iff, problem_eq_nil, Bool.not_eq_false'] at hNil
      rcases hNil with ⟨⟨⟨hSlotNil, hChangeOk⟩, hIpOk⟩, -⟩
      rw [hSlotNil] at hSlot
      rcases slot_plain hSlot with ⟨part, hPart, hPlain⟩
      have hEq := Json.obj.inj hPart
      rw [← hEq] at hPlain
      refine ⟨members, rfl, hKeys, ?_⟩
      intro k hk
      by_cases hSlotKey : k ∈ slotKeys
      · rcases hPlain.values k hSlotKey with ⟨v, hv, hPlain⟩
        rw [item, Json.getItem_filterKeys (p := fun key => slotKeys.any (fun j => key == pyStr j))
          (List.any_eq_true.mpr ⟨k, hSlotKey, by simp⟩)] at hv
        exact ⟨v, hv, hPlain⟩
      · simp only [egressKeys, List.mem_append, hSlotKey, false_or,
          List.mem_cons, List.not_mem_nil, or_false] at hk
        rcases hk with rfl | rfl
        · refine ⟨ip, hIp, ?_⟩
          cases ip with
          | null => exact ⟨rfl, rfl⟩
          | str s =>
            simp only [problem_eq_nil] at hIpOk
            apply plain_str
            intro c hc
            have hChar : c ∈ addressChars := by
              simp only [Bool.or_eq_false_iff, List.any_eq_false] at hIpOk
              have hIn := hIpOk.2 c hc
              simpa using hIn
            have hAll : ∀ d ∈ addressChars, d < 55296 := by decide
            exact hAll c hChar
          | _ => cases hIpOk
        · exact ⟨change, hChange, plain_of_isOneOf (by decide) hChangeOk⟩
    · cases h
  | _ => cases h

theorem egressViolations_congr {members read : List (PyStr × Json F)}
    (h : SameFields egressKeys members read) :
    egressViolations (.obj read) = egressViolations (.obj members) := by
  simp only [egressViolations, h.left, h.right, if_true, slotViolations_congr (sameFields_slot h),
    h.values "ip" (by decide), h.values "change" (by decide),
    h.values "status" (by decide)]

theorem mihomo_plain {mihomo : Json F} (h : mihomoViolations mihomo = .ok []) : ∃ members,
      mihomo = .obj members ∧ PlainObject mihomoKeys members := by
  unfold mihomoViolations at h
  cases mihomo with
  | obj members =>
    simp only at h
    split at h
    · rename_i hKeys
      rcases except_bind_ok h with ⟨status, hStatus, h⟩
      have hNil := Except.ok.inj h
      rw [problem_eq_nil, Bool.not_eq_false'] at hNil
      refine ⟨members, rfl, hKeys, ?_⟩
      intro k hk
      rw [mihomoKeys, List.mem_singleton] at hk
      rw [hk]
      exact ⟨status, hStatus, plain_of_isOneOf (by decide) hNil⟩
    · cases h
  | _ => cases h

theorem mihomoViolations_congr {members read : List (PyStr × Json F)}
    (h : SameFields mihomoKeys members read) :
    mihomoViolations (.obj read) = mihomoViolations (.obj members) := by
  simp only [mihomoViolations, h.left, h.right, if_true, h.values "status" (by decide)]

-- Flags

theorem canonical_tokens {tokens : List (Json F)} {names : List String} (hNames : ∀ t ∈ names, PlainText t)
    (h : ∀ t ∈ tokens, isOneOf t names = true) :
    canonical (.arr tokens) = .arr tokens ∧ depth (.arr tokens) ≤ 1 := by
  constructor
  · rw [Json.canonical_arr]
    congr 1
    have hSame : ∀ t ∈ tokens, canonical t = id t := by
      intro t ht
      exact (plain_of_isOneOf hNames (h t ht)).1
    exact (List.map_congr_left hSame).trans (List.map_id tokens)
  · have hItems : Json.depthItems tokens ≤ 0 := by
      apply Json.depthItems_le
      intro t ht
      exact (plain_of_isOneOf hNames (h t ht)).2.le
    rw [depth]
    omega

theorem flags_valid {flags : Json F} (h : flagsViolations flags = .ok []) : ∃ members,
      flags = .obj members ∧ keysAre members flagsKeys = true ∧ ∀ k ∈ flagsKeys, ∃ v,
          item members k = .ok v ∧ canonical v = v ∧ depth v ≤ 1 := by
  unfold flagsViolations at h
  cases flags with
  | obj members =>
    simp only at h
    split at h
    · rename_i hKeys
      rcases except_bind_ok h with ⟨truncated, hTrunc, h⟩
      rcases except_bind_ok h with ⟨sources, hSources, h⟩
      have hNil := Except.ok.inj h
      rw [List.append_eq_nil_iff, problem_eq_nil, problem_eq_nil, Bool.not_eq_false'] at hNil
      refine ⟨members, rfl, hKeys, ?_⟩
      intro k hk
      simp only [flagsKeys, List.mem_cons, List.not_mem_nil, or_false] at hk
      rcases hk with rfl | rfl
      · have hPlain := plain_of_isBool hNil.1
        exact ⟨truncated, hTrunc, hPlain.1, hPlain.2.le.trans (by omega)⟩
      · refine ⟨sources, hSources, ?_⟩
        cases sources with
        | arr tokens =>
          have hText : ∀ t ∈ sourceTokens, PlainText t := by decide
          apply canonical_tokens hText
          intro t ht
          have hAll := (Bool.or_eq_false_iff.mp hNil.2).2
          have hToken := List.any_eq_false.mp hAll t ht
          simpa using hToken
        | _ => cases hNil.2
    · cases h
  | _ => cases h

theorem flagsViolations_congr {members read : List (PyStr × Json F)} (h : SameFields flagsKeys members read) :
    flagsViolations (.obj read) = flagsViolations (.obj members) := by
  simp only [flagsViolations, h.left, h.right, if_true, h.values "truncated" (by decide),
    h.values "source_unavailable" (by decide)]

-- Active Entries

theorem proper_of_item {members : List (PyStr × Json F)} {k : String} {v : Json F} (h : Proper (.obj members))
    (hItem : item members k = .ok v) : Proper v := by
  have hMem := Json.mem_of_getItem (getItem_of_item hItem)
  exact (Json.properMembers_iff members).mp h.2 _ hMem

/-
  A valid entry reads back as a valid one; only its test
  identifier may have changed.
-/
theorem entry_canonical {seen next : SeenPairs F} {entry : Json F}
    (h : entryViolations seen entry = .ok ([], next))
    (hProper : Proper entry) :
    entryViolations seen (canonical entry) = .ok ([], next) ∧ depth entry ≤ 1 := by
  unfold entryViolations at h
  cases entry with
  | obj members =>
    simp only at h
    split at h
    · rename_i hKeys
      rcases except_bind_ok h with ⟨role, hRole, h⟩
      rcases except_bind_ok h with ⟨source, hSource, h⟩
      rcases except_bind_ok h with ⟨outcome, hOutcome, h⟩
      rcases except_bind_ok h with ⟨delay, hDelay, h⟩
      rcases except_bind_ok h with ⟨testId, hTestId, h⟩
      rcases except_bind_ok h with ⟨indep, hIndep, h⟩
      split at h
      · cases h
      · rename_i hHash
        have hPair := Prod.mk.inj (Except.ok.inj h)
        have hNil := hPair.1
        simp only [List.append_eq_nil_iff, problem_eq_nil] at hNil
        rcases hNil with
          ⟨⟨⟨⟨⟨⟨⟨hRoleOk, hSourceOk⟩, hOutcomeOk⟩, hDelayOk⟩, hLate⟩, hEarly⟩, hIdOk⟩, hIndepOk⟩
        have hRolePlain : Plain role := by
          apply plain_of_isOneOf (show ∀ t ∈ roles, PlainText t by decide)
          simpa using (Bool.or_eq_false_iff.mp hRoleOk).1
        have hSourcePlain : Plain source := by
          apply plain_of_isOneOf (show ∀ t ∈ evSources, PlainText t by decide)
          by_contra hNot
          rw [if_pos (by simpa using hNot)] at hSourceOk
          cases hSourceOk
        have hOutcomePlain : Plain outcome := by
          apply plain_of_isOneOf (show ∀ t ∈ activeOutcomes, PlainText t by decide)
          simpa using hOutcomeOk
        have hDelayPlain : Plain delay := by
          have hAtLeast : isNullOrAtLeast 1 delay = true := by simpa using hDelayOk
          exact plain_of_isNullOrAtLeast hAtLeast
        have hIndepPlain : Plain indep := by
          apply plain_of_isBool
          simpa using hIndepOk
        rcases canonical_members (by decide) hKeys
          hProper.1 with ⟨read, hRead, hReadKeys, hItems⟩
        have hIdProper := proper_of_item hProper hTestId
        cases testId with
        | str s =>
          have hReadId := hItems _ _ hTestId
          change item read "test_id" = .ok (.str (rereadStr s)) at hReadId
          have hLength := Json.length_rereadStr hIdProper
          have hIdRead : ((rereadStr s).isEmpty ||
                decide (maxTestIdLen < (rereadStr s).length)) = false := by
            simp only [Bool.or_eq_false_iff, List.isEmpty_eq_false_iff,
              decide_eq_false_iff_not, not_lt] at hIdOk ⊢
            exact ⟨hLength.2 hIdOk.1, hLength.1.trans hIdOk.2⟩
          constructor
          · rw [hRead]
            simp only [entryViolations, hReadKeys, if_true, hItems _ _ hRole, hItems _ _ hSource,
              hItems _ _ hOutcome, hItems _ _ hDelay, hReadId,
              hItems _ _ hIndep, hRolePlain.1, hSourcePlain.1,
              hOutcomePlain.1, hDelayPlain.1, hIndepPlain.1, hIdRead,
              bind, Except.bind]
            simp only [hIdOk] at h
            rw [if_neg hHash]
            exact h
          · apply depth_obj_le hKeys hProper.1
            intro k hk v hItem
            simp only [activeKeys, List.mem_cons, List.not_mem_nil, or_false] at hk
            have hSame : ∀ {w : Json F}, item members k = .ok w → depth w = 0 → depth v ≤ 0 := by
              intro w hw hDepth
              rw [hw] at hItem
              cases hItem
              exact hDepth.le
            rcases hk with
              rfl | rfl | rfl | rfl | rfl | rfl
            · exact hSame hRole hRolePlain.2
            · exact hSame hSource hSourcePlain.2
            · exact hSame hOutcome hOutcomePlain.2
            · exact hSame hDelay hDelayPlain.2
            · exact hSame hTestId rfl
            · exact hSame hIndep hIndepPlain.2
        | _ => cases hIdOk
    · cases h
  | _ => cases h

theorem entries_canonical {entries : List (Json F)} {seen : SeenPairs F}
    (h : entriesViolations seen entries = .ok [])
    (hProper : Json.ProperItems entries) :
    entriesViolations seen (entries.map canonical) = .ok [] ∧ Json.depthItems entries ≤ 1 := by
  induction entries generalizing seen with
  | nil => exact ⟨rfl, Nat.zero_le 1⟩
  | cons entry rest ih =>
    rw [entriesViolations] at h
    rcases except_bind_ok h with ⟨⟨first, next⟩, hFirst, h⟩
    rcases except_bind_ok h with ⟨more, hMore, h⟩
    have hNil := List.append_eq_nil_iff.mp (Except.ok.inj h)
    change first = [] ∧ more = [] at hNil
    rw [hNil.1] at hFirst
    rw [hNil.2] at hMore
    have hEntry := entry_canonical hFirst hProper.1
    have hRest := ih hMore hProper.2
    refine ⟨?_, ?_⟩
    · rw [List.map_cons, entriesViolations, hEntry.1]
      change (entriesViolations next (rest.map canonical) >>= fun more => .ok ([] ++ more)) = .ok []
      rw [hRest.1]
      rfl
    · rw [Json.depthItems]
      exact max_le hEntry.2 hRest.2

theorem active_canonical {active : Json F} (h : activeViolations active = .ok []) (hProper : Proper active) :
    activeViolations (canonical active) = .ok [] ∧ depth active ≤ 2 := by
  cases active with
  | arr entries =>
    rw [activeViolations] at h
    split at h
    · cases h
    · rename_i hFew
      have hAll := entries_canonical h hProper
      constructor
      · rw [Json.canonical_arr, activeViolations, List.length_map, if_neg hFew]
        exact hAll.1
      · rw [depth]
        omega
  | _ => cases h

-- Samples

/- The values of a sample, one for each key. -/
structure SampleFields (F : Type) where
  v : Json F
  probeId : Json F
  run : Json F
  seq : Json F
  sampleEpoch : Json F
  dns : Json F
  https : Json F
  vpsTcp : Json F
  egress : Json F
  mihomoApi : Json F
  active : Json F
  flags : Json F

/- The object has exactly these values. -/
structure HasFields (members : List (PyStr × Json F)) (x : SampleFields F) : Prop where
  keys : keysAre members sampleKeys = true
  v : item members "v" = .ok x.v
  probeId : item members "probe_id" = .ok x.probeId
  run : item members "run" = .ok x.run
  seq : item members "seq" = .ok x.seq
  sampleEpoch : item members "sample_epoch" = .ok x.sampleEpoch
  dns : item members "dns" = .ok x.dns
  https : item members "https" = .ok x.https
  vpsTcp : item members "vps_tcp" = .ok x.vpsTcp
  egress : item members "egress" = .ok x.egress
  mihomoApi : item members "mihomo_api" = .ok x.mihomoApi
  active : item members "active" = .ok x.active
  flags : item members "flags" = .ok x.flags

/- The checks of a sample, one for each value. -/
structure SampleFields.Valid (x : SampleFields F) : Prop where
  v : equalsInt x.v bodyVersion = true ∧ isBool x.v = false
  probeId : validProbeId x.probeId = true
  run : validRun x.run = true
  seq : validSeq x.seq = true
  sampleEpoch : validSampleEpoch x.sampleEpoch = .ok true
  dns : slotViolations "dns" x.dns = .ok []
  https : slotViolations "https" x.https = .ok []
  vpsTcp : slotViolations "vps_tcp" x.vpsTcp = .ok []
  egress : egressViolations x.egress = .ok []
  mihomoApi : mihomoViolations x.mihomoApi = .ok []
  active : activeViolations x.active = .ok []
  flags : flagsViolations x.flags = .ok []

theorem hasFields_of_keysAre {members : List (PyStr × Json F)}
    (h : keysAre members sampleKeys = true) : ∃ x, HasFields members x := by
  have hItem : ∀ k ∈ sampleKeys, ∃ v, item members k = .ok v := fun k hk => item_of_keysAre h hk
  rcases hItem "v" (by decide) with ⟨v, hV⟩
  rcases hItem "probe_id" (by decide) with ⟨probeId, hProbe⟩
  rcases hItem "run" (by decide) with ⟨run, hRun⟩
  rcases hItem "seq" (by decide) with ⟨seq, hSeq⟩
  rcases hItem "sample_epoch" (by decide) with ⟨epoch, hEpoch⟩
  rcases hItem "dns" (by decide) with ⟨dns, hDns⟩
  rcases hItem "https" (by decide) with ⟨https, hHttps⟩
  rcases hItem "vps_tcp" (by decide) with ⟨vpsTcp, hVps⟩
  rcases hItem "egress" (by decide) with ⟨egress, hEgress⟩
  rcases hItem "mihomo_api" (by decide) with ⟨api, hApi⟩
  rcases hItem "active" (by decide) with ⟨active, hActive⟩
  rcases hItem "flags" (by decide) with ⟨flags, hFlags⟩
  exact ⟨⟨v, probeId, run, seq, epoch, dns, https, vpsTcp, egress, api, active, flags⟩,
    ⟨h, hV, hProbe, hRun, hSeq, hEpoch, hDns, hHttps, hVps, hEgress, hApi, hActive, hFlags⟩⟩

theorem validateSample_iff {members : List (PyStr × Json F)} {x : SampleFields F}
    (h : HasFields members x) : validateSample (.obj members) = .ok [] ↔ x.Valid := by
  constructor
  · intro hOk
    simp only [validateSample, h.keys, if_true, h.v, h.probeId, h.run,
      h.seq, h.sampleEpoch, h.dns, h.https, h.vpsTcp, h.egress,
      h.mihomoApi, h.active, h.flags, ok_bind] at hOk
    rcases except_bind_ok hOk with ⟨epochOk, hEpoch, hOk⟩
    rcases except_bind_ok hOk with ⟨dns, hDns, hOk⟩
    rcases except_bind_ok hOk with ⟨https, hHttps, hOk⟩
    rcases except_bind_ok hOk with ⟨vpsTcp, hVps, hOk⟩
    rcases except_bind_ok hOk with ⟨egress, hEgress, hOk⟩
    rcases except_bind_ok hOk with ⟨api, hApi, hOk⟩
    rcases except_bind_ok hOk with ⟨active, hActive, hOk⟩
    rcases except_bind_ok hOk with ⟨flags, hFlags, hOk⟩
    have hNil := Except.ok.inj hOk
    simp only [List.append_eq_nil_iff, problem_eq_nil, Bool.or_eq_false_iff, Bool.not_eq_false'] at hNil
    rcases hNil with
      ⟨⟨⟨⟨⟨⟨⟨⟨⟨⟨⟨hV, hProbe⟩, hRun⟩, hSeq⟩, hTrue⟩, rfl⟩, rfl⟩, rfl⟩, rfl⟩, rfl⟩, rfl⟩, rfl⟩
    rw [hTrue] at hEpoch
    exact ⟨hV, hProbe, hRun, hSeq, hEpoch, hDns, hHttps, hVps, hEgress, hApi, hActive, hFlags⟩
  · intro hOk
    simp only [validateSample, h.keys, if_true, h.v, h.probeId,
      h.run, h.seq, h.sampleEpoch, h.dns, h.https, h.vpsTcp,
      h.egress, h.mihomoApi, h.active, h.flags,
      bind, Except.bind, hOk.sampleEpoch, hOk.dns, hOk.https,
      hOk.vpsTcp, hOk.egress, hOk.mihomoApi, hOk.active,
      hOk.flags, hOk.v, hOk.probeId, hOk.run, hOk.seq]
    rfl

theorem slot_canonical {name : String} {slot : Json F} (h : slotViolations name slot = .ok [])
    (hProper : Proper slot) :
    slotViolations name (canonical slot) = .ok [] ∧ depth slot ≤ 1 := by
  rcases slot_plain h with ⟨members, rfl, hPlain⟩
  rcases hPlain.canonical (by decide) hProper.1 with ⟨read, hRead, hSame⟩
  rw [hRead, slotViolations_congr hSame]
  exact ⟨h, hPlain.depth_le hProper.1⟩

theorem egress_canonical {egress : Json F} (h : egressViolations egress = .ok []) (hProper : Proper egress) :
    egressViolations (canonical egress) = .ok [] ∧ depth egress ≤ 1 := by
  rcases egress_plain h with ⟨members, rfl, hPlain⟩
  rcases hPlain.canonical (by decide) hProper.1 with ⟨read, hRead, hSame⟩
  rw [hRead, egressViolations_congr hSame]
  exact ⟨h, hPlain.depth_le hProper.1⟩

theorem mihomo_canonical {mihomo : Json F} (h : mihomoViolations mihomo = .ok []) (hProper : Proper mihomo) :
    mihomoViolations (canonical mihomo) = .ok [] ∧ depth mihomo ≤ 1 := by
  rcases mihomo_plain h with ⟨members, rfl, hPlain⟩
  rcases hPlain.canonical (by decide) hProper.1 with ⟨read, hRead, hSame⟩
  rw [hRead, mihomoViolations_congr hSame]
  exact ⟨h, hPlain.depth_le hProper.1⟩

theorem flags_canonical {flags : Json F} (h : flagsViolations flags = .ok []) (hProper : Proper flags) :
    flagsViolations (canonical flags) = .ok [] ∧ depth flags ≤ 2 := by
  rcases flags_valid h with ⟨members, rfl, hKeys, hValues⟩
  rcases canonical_members (by decide) hKeys hProper.1 with ⟨read, hRead, hReadKeys, hItems⟩
  constructor
  · have hSame : SameFields flagsKeys members read := by
      refine ⟨hKeys, hReadKeys, ?_⟩
      intro k hk
      rcases hValues k hk with ⟨v, hv, hCanonical, -⟩
      rw [hItems k v hv, hCanonical, hv]
    rw [hRead, flagsViolations_congr hSame]
    exact h
  · apply depth_obj_le hKeys hProper.1
    intro k hk v hItem
    rcases hValues k hk with ⟨w, hw, -, hDepth⟩
    rw [hw] at hItem
    cases hItem
    exact hDepth

theorem depth_of_valid {sample : Json F} (h : validateSample sample = .ok [])
    (hProper : Proper sample) : depth sample ≤ 3 := by
  cases sample with
  | obj members =>
    have hKeys : keysAre members sampleKeys = true := by
      by_contra hNot
      rw [validateSample, if_neg hNot] at h
      cases h
    rcases hasFields_of_keysAre hKeys with ⟨x, hx⟩
    have hValid := (validateSample_iff hx).mp h
    apply depth_obj_le hKeys hProper.1
    intro k hk v hItem
    have hSame : ∀ {w : Json F}, item members k = .ok w → (Proper w → depth w ≤ 2) → depth v ≤ 2 := by
      intro w hw hDepth
      rw [hw] at hItem
      cases hItem
      exact hDepth (proper_of_item hProper hw)
    have hPlain : ∀ {w : Json F}, item members k = .ok w → Plain w → depth v ≤ 2 := by
      intro w hw hScalar
      apply hSame hw
      intro _
      rw [hScalar.2]
      omega
    simp only [sampleKeys, List.mem_cons, List.not_mem_nil, or_false] at hk
    rcases hk with rfl | rfl | rfl | rfl | rfl | rfl | rfl |
      rfl | rfl | rfl | rfl | rfl
    · exact hPlain hx.v (plain_of_equalsInt hValid.v.1)
    · exact hPlain hx.probeId (plain_of_validProbeId hValid.probeId)
    · exact hPlain hx.run (plain_of_validRun hValid.run)
    · exact hPlain hx.seq (plain_of_validSeq hValid.seq)
    · exact hPlain hx.sampleEpoch (plain_of_validSampleEpoch hValid.sampleEpoch)
    · exact hSame hx.dns (fun hw => (slot_canonical hValid.dns hw).2.trans (by omega))
    · exact hSame hx.https (fun hw => (slot_canonical hValid.https hw).2.trans (by omega))
    · exact hSame hx.vpsTcp (fun hw => (slot_canonical hValid.vpsTcp hw).2.trans (by omega))
    · exact hSame hx.egress (fun hw =>
        (egress_canonical hValid.egress hw).2.trans (by omega))
    · exact hSame hx.mihomoApi (fun hw =>
        (mihomo_canonical hValid.mihomoApi hw).2.trans (by omega))
    · exact hSame hx.active (fun hw => (active_canonical hValid.active hw).2)
    · exact hSame hx.flags (fun hw => (flags_canonical hValid.flags hw).2)
  | _ => cases h

theorem validateSample_canonical {sample : Json F} (h : validateSample sample = .ok [])
    (hProper : Proper sample) : validateSample (canonical sample) = .ok [] := by
  cases sample with
  | obj members =>
    have hKeys : keysAre members sampleKeys = true := by
      by_contra hNot
      rw [validateSample, if_neg hNot] at h
      cases h
    rcases hasFields_of_keysAre hKeys with ⟨x, hx⟩
    have hValid := (validateSample_iff hx).mp h
    rcases canonical_members (by decide) hKeys hProper.1 with ⟨read, hRead, hReadKeys, hItems⟩
    have hItem : ∀ {k : String} {v : Json F},
          item members k = .ok v → canonical v = v → item read k = .ok v := by
      intro k v hv hSame
      rw [hItems k v hv, hSame]
    have hFields : HasFields read
        { x with
          dns := canonical x.dns
          https := canonical x.https
          vpsTcp := canonical x.vpsTcp
          egress := canonical x.egress
          mihomoApi := canonical x.mihomoApi
          active := canonical x.active
          flags := canonical x.flags } :=
      { keys := hReadKeys
        v := hItem hx.v (plain_of_equalsInt hValid.v.1).1
        probeId := hItem hx.probeId
          (plain_of_validProbeId hValid.probeId).1
        run := hItem hx.run (plain_of_validRun hValid.run).1
        seq := hItem hx.seq (plain_of_validSeq hValid.seq).1
        sampleEpoch := hItem hx.sampleEpoch
          (plain_of_validSampleEpoch hValid.sampleEpoch).1
        dns := hItems _ _ hx.dns
        https := hItems _ _ hx.https
        vpsTcp := hItems _ _ hx.vpsTcp
        egress := hItems _ _ hx.egress
        mihomoApi := hItems _ _ hx.mihomoApi
        active := hItems _ _ hx.active
        flags := hItems _ _ hx.flags }
    rw [hRead, validateSample_iff hFields]
    have hPart : ∀ {k : String} {v : Json F}, item members k = .ok v → Proper v :=
      fun hv => proper_of_item hProper hv
    exact
      { v := hValid.v
        probeId := hValid.probeId
        run := hValid.run
        seq := hValid.seq
        sampleEpoch := hValid.sampleEpoch
        dns := (slot_canonical hValid.dns (hPart hx.dns)).1
        https := (slot_canonical hValid.https (hPart hx.https)).1
        vpsTcp := (slot_canonical hValid.vpsTcp (hPart hx.vpsTcp)).1
        egress := (egress_canonical hValid.egress (hPart hx.egress)).1
        mihomoApi := (mihomo_canonical hValid.mihomoApi
          (hPart hx.mihomoApi)).1
        active := (active_canonical hValid.active (hPart hx.active)).1
        flags := (flags_canonical hValid.flags (hPart hx.flags)).1 }
  | _ => cases h

end SingboxOps.RemoteProbe
