import SingboxOps.LifecycleGate.Evaluate

/-
  What a PASS of the lifecycle gate proves, what a grace
  snapshot can change, and what never changes a verdict.
-/

namespace SingboxOps.LifecycleGate

variable {N : Type} [Zero N] [Add N] [LT N] [DecidableLT N]
variable (fmt : N → PyStr)

-- Verdicts

/- A grace snapshot that shows a closure of its own. -/
structure Rescues (baseline graceFinal : Snapshot N) (st : Settings) : Prop where
  fresh : graceFinal.stale = some false
  conflicts : graceFinal.identityConflicts = 0
  closed : newClosedIds baseline graceFinal st ≠ []

theorem graceOutcome_pass_iff (baseline graceFinal : Snapshot N) (st : Settings) (lines : List Line) :
    (graceOutcome baseline graceFinal st lines).verdict = .pass ↔
      Rescues baseline graceFinal st := by
  unfold graceOutcome
  by_cases hFresh : graceFinal.stale = some false
  · rw [if_neg (not_not.mpr hFresh)]
    by_cases hConflicts : graceFinal.identityConflicts = 0
    · rw [if_neg (not_not.mpr hConflicts)]
      by_cases hIds : newClosedIds baseline graceFinal st = []
      · dsimp only
        rw [if_neg (not_not.mpr hIds)]
        exact iff_of_false (fun h => nomatch h) (fun h => h.closed hIds)
      · dsimp only
        rw [if_pos hIds]
        exact iff_of_true rfl ⟨hFresh, hConflicts, hIds⟩
    · rw [if_pos hConflicts]
      exact iff_of_false (fun h => nomatch h) (fun h => hConflicts h.conflicts)
  · rw [if_pos hFresh]
    exact iff_of_false (fun h => nomatch h) (fun h => hFresh h.fresh)

theorem graceOutcome_conclusive (baseline graceFinal : Snapshot N) (st : Settings) (lines : List Line) :
    (graceOutcome baseline graceFinal st lines).verdict ≠
      .inconclusive := by
  unfold graceOutcome
  dsimp only
  split_ifs <;> exact fun h => nomatch h

theorem judge_pass_iff (baseline final : Snapshot N) (st : Settings)
    (graceFinal : Option (Snapshot N)) : (judge baseline st graceFinal
        (gateLines fmt baseline final st)).verdict = .pass ↔
      Green baseline final st ∧ (ClosedSeen baseline final st ∨ ∃ g ∈ graceFinal, Rescues baseline g st) := by
  have hNil := failures_gateLines_eq_nil fmt baseline final st
  unfold judge
  cases hFailures : failures (gateLines fmt baseline final st) with
  | nil =>
    obtain ⟨hGreen, hClosed⟩ := hNil.mp hFailures
    cases graceFinal with
    | none => exact iff_of_true rfl ⟨hGreen, .inl hClosed⟩
    | some g => exact iff_of_true rfl ⟨hGreen, .inl hClosed⟩
  | cons reason rest =>
    have hNot : ¬ (Green baseline final st ∧ ClosedSeen baseline final st) := by
      rw [← hNil, hFailures]
      exact List.cons_ne_nil _ _
    cases graceFinal with
    | none =>
      refine iff_of_false (fun h => nomatch h) ?_
      rintro ⟨hGreen, hClosed | ⟨g, hGrace, -⟩⟩
      · exact hNot ⟨hGreen, hClosed⟩
      · exact nomatch hGrace
    | some g =>
      have hSole := sole_failure_iff fmt baseline final st hFailures
      dsimp only
      by_cases hOther : rest ≠ [] ∨ (gateLines fmt baseline final st).any isClosedFailure = false
      · rw [if_pos hOther]
        refine iff_of_false (fun h => nomatch h) ?_
        rintro ⟨hGreen, -⟩
        exact hSole.mpr ⟨hGreen, fun h => hNot ⟨hGreen, h⟩⟩ hOther
      · rw [if_neg hOther, graceOutcome_pass_iff]
        obtain ⟨hGreen, hMissing⟩ := hSole.mp hOther
        constructor
        · exact fun h => ⟨hGreen, .inr ⟨g, rfl, h⟩⟩
        · rintro ⟨-, hClosed | ⟨g', hGrace, h⟩⟩
          · exact absurd hClosed hMissing
          · rw [← Option.some.inj hGrace] at h
            exact h

theorem judge_conclusive (baseline : Snapshot N) (st : Settings) (graceFinal : Option (Snapshot N))
    (lines : List Line) : (judge baseline st graceFinal lines).verdict ≠ .inconclusive := by
  unfold judge
  cases failures lines with
  | nil => cases graceFinal <;> exact fun h => nomatch h
  | cons reason rest =>
    cases graceFinal with
    | none => exact fun h => nomatch h
    | some g =>
      dsimp only
      split_ifs
      · exact fun h => nomatch h
      · exact graceOutcome_conclusive baseline g st lines

/- The conditions that make a verdict PASS. -/
structure PassLaw (baseline final : Snapshot N) (st : Settings)
    (graceFinal : Option (Snapshot N)) : Prop where
  fresh : baseline.stale = some false
  conclusive : inconclusive? baseline final st = none
  named : st.expectUser ≠ [] → st.expectUser ∈ final.devices.keys
  green : Green baseline final st
  closed : ClosedSeen baseline final st ∨ ∃ g ∈ graceFinal, Rescues baseline g st

theorem verdict_pass_iff (baseline final : Snapshot N) (st : Settings) (graceFinal : Option (Snapshot N)) :
    (evaluate fmt baseline final st graceFinal).verdict = .pass ↔
      PassLaw baseline final st graceFinal := by
  unfold evaluate
  by_cases hFresh : baseline.stale = some false
  · rw [if_neg (not_not.mpr hFresh)]
    cases hIdle : inconclusive? baseline final st with
    | some report =>
      refine iff_of_false (fun h => nomatch h) (fun h => ?_)
      exact nomatch hIdle.symm.trans h.conclusive
    | none =>
      dsimp only
      by_cases hUser : st.expectUser ≠ [] ∧ st.expectUser ∉ final.devices.keys
      · rw [if_pos hUser]
        exact iff_of_false (fun h => nomatch h) (fun h => hUser.2 (h.named hUser.1))
      · rw [if_neg hUser, judge_pass_iff]
        constructor
        · rintro ⟨hGreen, hClosed⟩
          exact ⟨hFresh, hIdle, fun hSet => not_not.mp (fun hAbsent => hUser ⟨hSet, hAbsent⟩),
            hGreen, hClosed⟩
        · exact fun h => ⟨h.green, h.closed⟩
  · rw [if_pos hFresh]
    exact iff_of_false (fun h => nomatch h) (fun h => hFresh h.fresh)

theorem verdict_inconclusive_iff (baseline final : Snapshot N) (st : Settings)
    (graceFinal : Option (Snapshot N)) :
    (evaluate fmt baseline final st graceFinal).verdict = .inconclusive ↔
      baseline.stale = some false ∧ inconclusive? baseline final st ≠ none := by
  unfold evaluate
  by_cases hFresh : baseline.stale = some false
  · rw [if_neg (not_not.mpr hFresh)]
    cases hIdle : inconclusive? baseline final st with
    | some report => exact iff_of_true rfl ⟨hFresh, fun h => nomatch h⟩
    | none =>
      refine iff_of_false ?_ (fun h => h.2 rfl)
      dsimp only
      split_ifs
      · exact fun h => nomatch h
      · exact judge_conclusive baseline st graceFinal _
  · rw [if_pos hFresh]
    exact iff_of_false (fun h => nomatch h) (fun h => hFresh h.1)

-- Earned Verdicts

/- A live connection, a closure or an activity in the scope. -/
def LifecycleEvidence (baseline final : Snapshot N) (st : Settings) : Prop :=
  (∃ id ∈ scopeRecentIds final st, id ∉ scopeRecentIds baseline st) ∨
    (∃ dev ∈ scopedDevices final st, 0 < dev.liveIn st.expectInbound) ∨
    (st.expectInbound = [] ∧ ∃ dev ∈ scopedDevices final st,
        dev.status = .active ∨ dev.status = .recentActivity)

/- What a PASS rests on. -/
structure Earned (baseline final : Snapshot N) (st : Settings)
    (graceFinal : Option (Snapshot N)) : Prop where
  baselineFresh : baseline.stale = some false
  finalFresh : final.stale = some false
  grew :
    (scopeTotals baseline st).1 < (scopeTotals final st).1 ∨
      (scopeTotals baseline st).2 < (scopeTotals final st).2
  lifecycle : LifecycleEvidence baseline final st
  allowed : ∀ dev ∈ scopedDevices final st, ∀ tag ∈ dev.protocols.keys, tag ∈ allowedInbounds
  user : st.expectUser ≠ [] → st.expectUser ∈ final.devices.keys
  inbound :
    st.expectInbound ≠ [] → ∃ dev ∈ scopedDevices final st, st.expectInbound ∈ dev.protocols.keys
  closed :
    st.requireClosed = true → ∃ id, id ∉ scopeRecentIds baseline st ∧
        (id ∈ scopeRecentIds final st ∨ ∃ g ∈ graceFinal, id ∈ scopeRecentIds g st)

theorem mem_scopeProtocols {snap : Snapshot N} {st : Settings} {tag : PyStr} :
    tag ∈ scopeProtocols snap st ↔ ∃ dev ∈ scopedDevices snap st, tag ∈ dev.protocols.keys := by
  unfold scopeProtocols
  rw [List.mem_dedup, List.mem_flatMap]

theorem mem_newClosedIds {baseline snap : Snapshot N} {st : Settings} {id : PyStr} :
    id ∈ newClosedIds baseline snap st ↔ id ∈ scopeRecentIds snap st ∧ id ∉ scopeRecentIds baseline st := by
  unfold newClosedIds
  rw [List.mem_filter, decide_eq_true_iff]

theorem newClosedIds_ne_nil {baseline snap : Snapshot N} {st : Settings} :
    newClosedIds baseline snap st ≠ [] ↔ ∃ id ∈ scopeRecentIds snap st, id ∉ scopeRecentIds baseline st := by
  constructor
  · intro h
    obtain ⟨id, hId⟩ := List.exists_mem_of_ne_nil _ h
    exact ⟨id, mem_newClosedIds.mp hId⟩
  · rintro ⟨id, hId⟩
    exact List.ne_nil_of_mem (mem_newClosedIds.mpr hId)

theorem lifecycleSeen_iff {baseline final : Snapshot N} {st : Settings} :
    lifecycleSeen baseline final st = true ↔ LifecycleEvidence baseline final st := by
  unfold lifecycleSeen LifecycleEvidence scopeActive
  simp only [Bool.or_eq_true, Bool.and_eq_true, decide_eq_true_iff,
    List.any_eq_true, newClosedIds_ne_nil, or_assoc]

theorem trafficDelta_iff {baseline final : Snapshot N} {st : Settings} :
    trafficDelta baseline final st = true ↔ (scopeTotals baseline st).1 < (scopeTotals final st).1 ∨
        (scopeTotals baseline st).2 < (scopeTotals final st).2 := by
  unfold trafficDelta
  rw [Bool.or_eq_true, decide_eq_true_iff, decide_eq_true_iff]

theorem PassLaw.earned {baseline final : Snapshot N} {st : Settings} {graceFinal : Option (Snapshot N)}
    (h : PassLaw baseline final st graceFinal) : Earned baseline final st graceFinal where
  baselineFresh := h.fresh
  finalFresh := h.green.fresh
  grew := trafficDelta_iff.mp h.green.traffic
  lifecycle := lifecycleSeen_iff.mp h.green.lifecycle
  allowed dev hDev tag hTag := h.green.allowed tag (mem_scopeProtocols.mpr ⟨dev, hDev, hTag⟩)
  user := h.named
  inbound hSet := mem_scopeProtocols.mp (h.green.inbound hSet)
  closed hSet := by
    rcases h.closed with hClosed | ⟨g, hGrace, hRescue⟩
    · obtain ⟨id, hId, hNew⟩ := newClosedIds_ne_nil.mp (hClosed hSet)
      exact ⟨id, hNew, .inl hId⟩
    · obtain ⟨id, hId, hNew⟩ := newClosedIds_ne_nil.mp hRescue.closed
      exact ⟨id, hNew, .inr ⟨g, hGrace, hId⟩⟩

-- Grace

theorem failures_of_sole {baseline final : Snapshot N} {st : Settings} (hGreen : Green baseline final st)
    (hMissing : ¬ ClosedSeen baseline final st) :
    failures (gateLines fmt baseline final st) = [closedMissing] := by
  obtain ⟨hOpen, hStale⟩ := (green_iff fmt baseline final st).mpr hGreen
  have hBoth : st.requireClosed = true ∧ newClosedIds baseline final st = [] := by
    unfold ClosedSeen at hMissing
    rwa [Classical.not_imp, not_not] at hMissing
  rw [failures_gateLines, hOpen, hStale, failures_closedLine, if_pos hBoth]
  rfl

theorem evaluate_lines {baseline final : Snapshot N} {st : Settings} {graceFinal : Option (Snapshot N)}
    (h : PassLaw baseline final st graceFinal) :
    evaluate fmt baseline final st none = judge baseline st none (gateLines fmt baseline final st) := by
  unfold evaluate
  rw [if_neg (not_not.mpr h.fresh), h.conclusive]
  dsimp only
  rw [if_neg (fun hUser => hUser.2 (h.named hUser.1))]

theorem PassLaw.supply {baseline final : Snapshot N} {st : Settings} (h : PassLaw baseline final st none)
    (g : Snapshot N) : PassLaw baseline final st (some g) where
  fresh := h.fresh
  conclusive := h.conclusive
  named := h.named
  green := h.green
  closed := .inl (h.closed.resolve_right (fun ⟨_, hGrace, _⟩ => nomatch hGrace))

/-
  A grace snapshot that changes the verdict turns a FAIL, of
  the missing closure alone, into a PASS.
-/
theorem grace_changes {baseline final g : Snapshot N} {st : Settings} (hChange :
      (evaluate fmt baseline final st (some g)).verdict ≠ (evaluate fmt baseline final st none).verdict) :
    (evaluate fmt baseline final st none).verdict = .fail ∧
      (evaluate fmt baseline final st (some g)).verdict = .pass ∧
      failures (evaluate fmt baseline final st none).lines = [closedMissing] := by
  have hPass := verdict_pass_iff fmt baseline final st
  have hIdle := verdict_inconclusive_iff fmt baseline final st
  cases hNone : (evaluate fmt baseline final st none).verdict with
  | pass =>
    rw [hNone] at hChange
    exact absurd ((hPass (some g)).mpr (((hPass none).mp hNone).supply g)) hChange
  | inconclusive =>
    rw [hNone] at hChange
    exact absurd ((hIdle (some g)).mpr ((hIdle none).mp hNone)) hChange
  | fail =>
    have hNotIdle : (evaluate fmt baseline final st (some g)).verdict ≠
          .inconclusive := by
      intro h
      have hSame := (hIdle none).mpr ((hIdle (some g)).mp h)
      rw [hNone] at hSame
      exact nomatch hSame
    have hSome : (evaluate fmt baseline final st (some g)).verdict = .pass := by
      rw [hNone] at hChange
      cases hVerdict : (evaluate fmt baseline final st (some g)).verdict with
      | pass => rfl
      | fail => exact absurd hVerdict hChange
      | inconclusive => exact absurd hVerdict hNotIdle
    have hLaw := (hPass (some g)).mp hSome
    have hMissing : ¬ ClosedSeen baseline final st := by
      intro hClosed
      have hWithout : PassLaw baseline final st none :=
        ⟨hLaw.fresh, hLaw.conclusive, hLaw.named, hLaw.green, .inl hClosed⟩
      have hSame := (hPass none).mpr hWithout
      rw [hNone] at hSame
      exact nomatch hSame
    have hFailures := failures_of_sole fmt hLaw.green hMissing
    refine ⟨rfl, hSome, ?_⟩
    rw [evaluate_lines fmt hLaw]
    unfold judge
    rw [hFailures]
    exact hFailures

-- Other Users and Inbounds

/-
  Two devices alike in one inbound, and in which inbounds they
  have that are not allowed.
-/
structure SameDevice (inbound : PyStr) (d d' : Device N) : Prop where
  protocol : d.protocols.get inbound = d'.protocols.get inbound
  foreign : ∀ tag, tag ∉ allowedInbounds → (tag ∈ d.protocols.keys ↔ tag ∈ d'.protocols.keys)
  recent :
    d.recentConnections.filter (fun row => row.inbound == some inbound) =
      d'.recentConnections.filter (fun row => row.inbound == some inbound)
  closed :
    d.closedIds.filter (fun row => row.inbound == some inbound) =
      d'.closedIds.filter (fun row => row.inbound == some inbound)

/-
  Two snapshots alike in the health of the stream and in what
  belongs to the expected user and inbound.
-/
structure SameScope (st : Settings) (s s' : Snapshot N) : Prop where
  stale : s.stale = s'.stale
  conflicts : s.identityConflicts = s'.identityConflicts
  device :
    Option.Rel (SameDevice st.expectInbound) (s.devices.get st.expectUser) (s'.devices.get st.expectUser)

section Scope

variable {st : Settings} (hUser : st.expectUser ≠ [])
variable (hInbound : st.expectInbound ≠ [])

include hInbound in
theorem SameDevice.totals {d d' : Device N} (h : SameDevice st.expectInbound d d') :
    d.totals st.expectInbound = d'.totals st.expectInbound := by
  unfold Device.totals
  rw [if_neg hInbound, if_neg hInbound, h.protocol]

include hInbound in
theorem SameDevice.liveIn {d d' : Device N} (h : SameDevice st.expectInbound d d') :
    d.liveIn st.expectInbound = d'.liveIn st.expectInbound := by
  unfold Device.liveIn
  rw [if_neg hInbound, if_neg hInbound, h.protocol]

include hInbound in
theorem scopedIds_eq (d : Device N) : d.scopedIds st.expectInbound = ((((d.recentConnections.filter
              (fun row => row.inbound == some st.expectInbound)).map
            RecentRow.toClosedRow ++
          d.closedIds.filter (fun row => row.inbound == some st.expectInbound)).filter
        (fun row => row.id ≠ [])).map ClosedRow.id) := by
  unfold Device.scopedIds ClosedRow.carried
  dsimp only
  simp only [hInbound, decide_false, Bool.false_or]
  rw [← List.filter_filter, List.filter_append, List.filter_map]
  rfl

include hInbound in
theorem SameDevice.scopedIds {d d' : Device N} (h : SameDevice st.expectInbound d d') :
    d.scopedIds st.expectInbound = d'.scopedIds st.expectInbound := by
  rw [scopedIds_eq hInbound, scopedIds_eq hInbound, h.recent, h.closed]

theorem SameDevice.mem_keys {d d' : Device N} (h : SameDevice st.expectInbound d d') {tag : PyStr}
    (hTag : tag = st.expectInbound ∨ tag ∉ allowedInbounds) :
    tag ∈ d.protocols.keys ↔ tag ∈ d'.protocols.keys := by
  rcases hTag with rfl | hForeign
  · rw [← not_iff_not, ← Dict.get_eq_none_iff, ← Dict.get_eq_none_iff, h.protocol]
  · exact h.foreign tag hForeign

include hUser in
theorem scopedDevices_eq (s : Snapshot N) : scopedDevices s st = (s.devices.get st.expectUser).toList :=
  if_neg hUser

variable {s s' : Snapshot N}

theorem SameScope.cases (h : SameScope st s s') : (∃ d d', s.devices.get st.expectUser = some d ∧
        s'.devices.get st.expectUser = some d' ∧ SameDevice st.expectInbound d d') ∨
      (s.devices.get st.expectUser = none ∧ s'.devices.get st.expectUser = none) := by
  have hDevice := h.device
  revert hDevice
  generalize s.devices.get st.expectUser = entry
  generalize s'.devices.get st.expectUser = entry'
  rintro (⟨hSame⟩ | _)
  · exact .inl ⟨_, _, rfl, rfl, hSame⟩
  · exact .inr ⟨rfl, rfl⟩

include hUser hInbound in
theorem SameScope.totals (h : SameScope st s s') : scopeTotals s st = scopeTotals s' st := by
  unfold scopeTotals
  rw [scopedDevices_eq hUser, scopedDevices_eq hUser]
  rcases h.cases with ⟨d, d', hD, hD', hSame⟩ | ⟨hD, hD'⟩
  · rw [hD, hD']
    dsimp only [Option.toList, List.foldl]
    rw [hSame.totals hInbound]
  · rw [hD, hD']

include hUser hInbound in
theorem SameScope.recentIds (h : SameScope st s s') : scopeRecentIds s st = scopeRecentIds s' st := by
  unfold scopeRecentIds
  rw [scopedDevices_eq hUser, scopedDevices_eq hUser]
  rcases h.cases with ⟨d, d', hD, hD', hSame⟩ | ⟨hD, hD'⟩
  · rw [hD, hD']
    dsimp only [Option.toList]
    rw [List.flatMap_cons, List.flatMap_cons, hSame.scopedIds hInbound]
  · rw [hD, hD']

include hUser hInbound in
theorem SameScope.active (h : SameScope st s s') : scopeActive s st = scopeActive s' st := by
  unfold scopeActive
  rw [scopedDevices_eq hUser, scopedDevices_eq hUser]
  rcases h.cases with ⟨d, d', hD, hD', hSame⟩ | ⟨hD, hD'⟩
  · rw [hD, hD']
    dsimp only [Option.toList]
    rw [List.any_cons, List.any_cons, hSame.liveIn hInbound]
  · rw [hD, hD']

include hUser in
theorem SameScope.mem_protocols (h : SameScope st s s') {tag : PyStr}
    (hTag : tag = st.expectInbound ∨ tag ∉ allowedInbounds) :
    tag ∈ scopeProtocols s st ↔ tag ∈ scopeProtocols s' st := by
  rw [mem_scopeProtocols, mem_scopeProtocols, scopedDevices_eq hUser, scopedDevices_eq hUser]
  rcases h.cases with ⟨d, d', hD, hD', hSame⟩ | ⟨hD, hD'⟩
  · rw [hD, hD']
    simpa using hSame.mem_keys hTag
  · rw [hD, hD']

theorem SameScope.mem_devices (h : SameScope st s s') :
    st.expectUser ∈ s.devices.keys ↔ st.expectUser ∈ s'.devices.keys := by
  rw [← not_iff_not, ← Dict.get_eq_none_iff, ← Dict.get_eq_none_iff]
  rcases h.cases with ⟨d, d', hD, hD', -⟩ | ⟨hD, hD'⟩
  · rw [hD, hD']
    exact iff_of_false (fun h => nomatch h) (fun h => nomatch h)
  · rw [hD, hD']

theorem SameScope.symm (h : SameScope st s s') : SameScope st s' s where
  stale := h.stale.symm
  conflicts := h.conflicts.symm
  device := by
    rcases h.cases with ⟨d, d', hD, hD', hSame⟩ | ⟨hD, hD'⟩
    · rw [hD, hD']
      exact .some ⟨hSame.protocol.symm, fun tag hTag => (hSame.foreign tag hTag).symm,
        hSame.recent.symm, hSame.closed.symm⟩
    · rw [hD, hD']
      exact .none

variable {b b' f f' : Snapshot N}

include hUser hInbound in
theorem newClosedIds_congr (hBase : SameScope st b b')
    (h : SameScope st s s') : newClosedIds b s st = newClosedIds b' s' st := by
  unfold newClosedIds
  rw [h.recentIds hUser hInbound, hBase.recentIds hUser hInbound]

include hUser hInbound in
theorem Green.congr (hBase : SameScope st b b') (hFinal : SameScope st f f')
    (h : Green b f st) : Green b' f' st where
  user := .inl hUser
  inbound hSet := (hFinal.mem_protocols hUser (.inl rfl)).mp (h.inbound hSet)
  allowed tag hTag := by
    by_contra hForeign
    exact hForeign (h.allowed tag ((hFinal.mem_protocols hUser (.inr hForeign)).mpr hTag))
  traffic := by
    rw [← h.traffic]
    unfold trafficDelta
    rw [hBase.totals hUser hInbound, hFinal.totals hUser hInbound]
  lifecycle := by
    rw [← h.lifecycle]
    unfold lifecycleSeen
    rw [newClosedIds_congr hUser hInbound hBase hFinal,
      hFinal.active hUser hInbound, decide_eq_false hInbound]
    rfl
  fresh := hFinal.stale ▸ h.fresh

include hUser hInbound in
theorem PassLaw.congr {g g' : Option (Snapshot N)} (hBase : SameScope st b b') (hFinal : SameScope st f f')
    (hGrace : Option.Rel (SameScope st) g g')
    (h : PassLaw b f st g) : PassLaw b' f' st g' where
  fresh := hBase.stale ▸ h.fresh
  conclusive := if_neg (fun hFree => hUser hFree.1)
  named hSet := hFinal.mem_devices.mp (h.named hSet)
  green := h.green.congr hUser hInbound hBase hFinal
  closed := by
    rcases h.closed with hClosed | ⟨x, hx, hRescue⟩
    · refine .inl (fun hSet => ?_)
      rw [← newClosedIds_congr hUser hInbound hBase hFinal]
      exact hClosed hSet
    · rcases hGrace with ⟨hSame⟩ | _
      · cases hx
        refine .inr ⟨_, rfl, hSame.stale ▸ hRescue.fresh, hSame.conflicts ▸ hRescue.conflicts, ?_⟩
        rw [← newClosedIds_congr hUser hInbound hBase hSame]
        exact hRescue.closed
      · exact nomatch hx

include hUser hInbound in
theorem verdict_congr {g g' : Option (Snapshot N)} (hBase : SameScope st b b') (hFinal : SameScope st f f')
    (hGrace : Option.Rel (SameScope st) g g') :
    (evaluate fmt b f st g).verdict = (evaluate fmt b' f' st g').verdict := by
  have hBack : Option.Rel (SameScope st) g' g := by
    rcases hGrace with ⟨hSame⟩ | _
    · exact .some hSame.symm
    · exact .none
  have hPass : (evaluate fmt b f st g).verdict = .pass ↔ (evaluate fmt b' f' st g').verdict = .pass := by
    rw [verdict_pass_iff, verdict_pass_iff]
    exact ⟨PassLaw.congr hUser hInbound hBase hFinal hGrace,
      PassLaw.congr hUser hInbound hBase.symm hFinal.symm hBack⟩
  have hConclusive (b f : Snapshot N) (g : Option (Snapshot N)) :
      (evaluate fmt b f st g).verdict ≠ .inconclusive := by
    intro h
    exact ((verdict_inconclusive_iff fmt b f st g).mp h).2 (if_neg (fun hFree => hUser hFree.1))
  have hLeft := hConclusive b f g
  have hRight := hConclusive b' f' g'
  revert hPass hLeft hRight
  cases (evaluate fmt b f st g).verdict <;>
    cases (evaluate fmt b' f' st g').verdict <;> simp

end Scope

-- The Gate

/-
  A PASS is earned in its scope, a grace snapshot resolves a
  missing closure only, and nothing of another user or of
  another allowed inbound changes the verdict.
-/
theorem green_canary_is_earned (st : Settings) (baseline final : Snapshot N) : (∀ graceFinal,
      (evaluate fmt baseline final st graceFinal).verdict = .pass → Earned baseline final st graceFinal) ∧
    (∀ g, (evaluate fmt baseline final st (some g)).verdict ≠ (evaluate fmt baseline final st none).verdict →
        (evaluate fmt baseline final st none).verdict = .fail ∧
          (evaluate fmt baseline final st (some g)).verdict = .pass ∧
          failures (evaluate fmt baseline final st none).lines = [closedMissing]) ∧
    (∀ graceFinal baseline' final' graceFinal', st.expectUser ≠ [] → st.expectInbound ≠ [] →
      SameScope st baseline baseline' →
      SameScope st final final' →
      Option.Rel (SameScope st) graceFinal graceFinal' → (evaluate fmt baseline final st graceFinal).verdict =
          (evaluate fmt baseline' final' st graceFinal').verdict) := by
  refine ⟨fun graceFinal h => ?_, fun g h => ?_,
    fun graceFinal baseline' final' graceFinal' hUser hInbound hBase hFinal hGrace => ?_⟩
  · exact ((verdict_pass_iff fmt baseline final st graceFinal).mp h).earned
  · exact grace_changes fmt h
  · exact verdict_congr fmt hUser hInbound hBase hFinal hGrace

end SingboxOps.LifecycleGate
