import SingboxOps.QualityFailover.Telemetry

/-
  No telemetry ends the runner or invents a failure.

  What ends it are a selection that is no key and a receipt,
  otherwise as expected, whose seconds are an integer beyond
  every float.
-/

namespace SingboxOps.QualityFailover.Telemetry

variable {F : Type} [BoundedFloat F]

-- Conditions

/- The seconds of an otherwise expected receipt have a float. -/
def Finite (digest : ℕ → PyStr) (size : ℕ) (a : Attempt F) : Prop :=
  ∀ receipt measured n, a.served = .receipt receipt →
    measures (digest size) a.nonce size receipt = some (measured, some (.int n)) →
      (floatOfInt? n : Option F) ≠ none

structure Meets (cfg : Settings) (s : State) (i : Input F) : Prop where
  hashable :
    ∀ proxies payload, proxiesOf i.proxies = .ok proxies → request i.connections = .ok payload →
        keyOf ((recognized cfg s proxies).effective proxies) ≠ .error .unhashable
  finite : ∀ lane ∈ s.engine.lanes, Finite cfg.digest 0 (i.turns lane.name).ready ∧
        Finite cfg.digest (cfg.probe lane.name).size (i.turns lane.name).upload

/- The readings of the monotonic clock do not fall. -/
structure Steady (s : State) (i : Input F) : Prop where
  last : ∀ t ∈ s.engine.lastTime, t ≤ i.updatedAt
  nonneg : 0 ≤ i.updatedAt
  after : i.updatedAt ≤ i.failedAt
  top : i.failedAt ≤ 10 ^ 15

/- The receipt is the expected one. -/
def Expected (digest : ℕ → PyStr) (size : ℕ) (nonce : PyStr) (receipt : Json F) : Prop :=
  ∃ measured seconds, measures (digest size) nonce size receipt = some (measured, seconds) ∧
      number seconds (bounds size).1 (bounds size).2 = .ok true

/- A receipt of the path is not the expected one. -/
def Foreign (cfg : Settings) (i : Input F) (name : PyStr) : Prop := ∃ receipt,
    ((i.turns name).ready.served = .receipt receipt ∧
        ¬ Expected cfg.digest 0 (i.turns name).ready.nonce receipt) ∨
      ((i.turns name).upload.served = .receipt receipt ∧
        ¬ Expected cfg.digest (cfg.probe name).size (i.turns name).upload.nonce receipt)

/-
  What a cycle may do to a path: without a fresh record it
  is unknown, and with a foreign receipt it stands where its
  record alone would have put it.
-/
structure Innocent (cfg : Settings) (i : Input F) (lane after : Lane ℚ) : Prop where
  name : after.name = lane.name
  unanswered : ∀ e, proxiesOf i.proxies = .error e → after.path.state = .unknown
  unrecorded : ∀ proxies, proxiesOf i.proxies = .ok proxies →
      aliveAt cfg proxies lane (i.turns lane.name).wall = none ∨
        aliveAt cfg proxies lane (i.turns lane.name).wallAfter = none →
        after.path.state = .unknown
  foreign :
    Foreign cfg i lane.name → after.path.state = .unknown ∨
        ∃ proxies, proxiesOf i.proxies = .ok proxies ∧ after.path.state =
            (lane.path.observe lane.policy i.updatedAt (aliveAt cfg proxies lane (i.turns lane.name).wall)
              none).state

-- Probes

section Probes

variable {digest : ℕ → PyStr} {p : Probe} {size : ℕ}
variable {name inbound nonce : PyStr} {a ready upload : Attempt F}
variable {e : Raised}

theorem number_raises {value : Option (Json F)} {low high : ℚ} (h : number value low high = .error e) :
    e = .overflow ∧ ∃ n, value = some (.int n) ∧ (floatOfInt? n : Option F) = none := by
  unfold number at h
  split at h
  · rename_i n
    split at h
    · cases h
      exact ⟨rfl, n, rfl, ‹_›⟩
    · cases h
  · cases h
  · cases h

theorem receiptRate_raises {receipt : Json F} (h : receiptRate digest p size nonce receipt = .error e) :
    e = .value ∨ (e = .overflow ∧ ∃ measured n,
          measures (digest size) nonce size receipt = some (measured, some (.int n)) ∧
            (floatOfInt? n : Option F) = none) := by
  unfold receiptRate at h
  split at h
  · cases h
    exact .inl rfl
  · rename_i measured seconds hMeasures
    split at h
    · rename_i hNumber
      cases h
      rcases number_raises hNumber with ⟨rfl, n, rfl, hNone⟩
      exact .inr ⟨rfl, measured, n, hMeasures, hNone⟩
    · cases h
      exact .inl rfl
    · cases h

theorem receiptRate_ok {receipt : Json F} {mbps : ℚ}
    (h : receiptRate digest p size nonce receipt = .ok mbps) :
    Expected digest size nonce receipt := by
  unfold receiptRate at h
  split at h
  · cases h
  · rename_i measured seconds hMeasures
    split at h
    · cases h
    · cases h
    · exact ⟨measured, seconds, hMeasures, ‹_›⟩

theorem fault_caught (f : Fault) : f.raised.caught = true := by
  cases f <;> rfl

theorem fault_ne (f : Fault) : f.raised ≠ .uploadTimeout := by
  cases f <;> decide

theorem request_raises {answer : Answered F}
    (h : Telemetry.request answer = .error e) : e.caught = true ∧ e ≠ .uploadTimeout := by
  cases answer with
  | fault f =>
    cases h
    exact ⟨fault_caught f, fault_ne f⟩
  | refused =>
    cases h
    exact ⟨rfl, by decide⟩
  | empty => cases h
  | json value => cases h

theorem proxiesOf_raises {answer : Answered F} (h : proxiesOf answer = .error e) : e.caught = true := by
  unfold proxiesOf at h
  split at h
  · cases h
    exact (request_raises ‹_›).1
  · split at h
    · cases h
    · cases h
      rfl
  · cases h
    rfl

theorem confirmRoute_raises {r : Route} {answer : Answered F}
    (h : confirmRoute r answer = .error e) : e.caught = true ∧ e ≠ .uploadTimeout := by
  unfold confirmRoute at h
  split at h
  · cases h
    exact request_raises ‹_›
  · split at h <;> cases h
  · cases h

theorem probe_raises (h : p.request digest size name inbound a = .error e) :
    e.caught = true ∨ ¬ Finite digest size a := by
  unfold Probe.request at h
  dsimp only at h
  split at h
  · cases h
    exact .inl (fault_caught _)
  · cases h
    exact .inl (confirmRoute_raises ‹_›).1
  · cases h
    exact .inl rfl
  · split at h
    · cases h
      exact .inl rfl
    · cases h
      exact .inl (fault_caught _)
  · cases h
    exact .inl rfl
  · rename_i receipt hServed _ _
    rcases receiptRate_raises h with
      rfl | ⟨rfl, measured, n, hMeasures, hNone⟩
    · exact .inl rfl
    · exact .inr fun hFinite => hFinite receipt measured n hServed hMeasures hNone

theorem probe_foreign {receipt : Json F} (p : Probe) (name inbound : PyStr)
    (hServed : a.served = .receipt receipt)
    (hForeign : ¬ Expected digest size a.nonce receipt) :
    ∃ e, p.request digest size name inbound a = .error e ∧ e ≠ .uploadTimeout := by
  unfold Probe.request
  dsimp only
  rw [hServed]
  cases hRoute : confirmRoute ⟨name, inbound, a.sourcePort, p.host, p.port⟩ a.route with
  | error e => exact ⟨e, rfl, (confirmRoute_raises hRoute).2⟩
  | ok verified =>
    cases verified with
    | false => exact ⟨.value, rfl, by decide⟩
    | true =>
      dsimp only
      cases hRate : receiptRate digest p size a.nonce receipt with
      | ok mbps => exact (hForeign (receiptRate_ok hRate)).elim
      | error e =>
        refine ⟨e, rfl, ?_⟩
        rcases receiptRate_raises hRate with rfl | ⟨rfl, -⟩
        · decide
        · decide

theorem measure_ok (p : Probe) (name inbound : PyStr) (hReady : Finite digest 0 ready)
    (hUpload : Finite digest p.size upload) :
    ∃ c, p.measure digest name inbound ready upload = .ok c := by
  unfold Probe.measure
  split
  · rename_i hRaised
    rcases probe_raises hRaised with hCaught | hNot
    · rw [if_pos hCaught]
      exact ⟨_, rfl⟩
    · exact (hNot hReady).elim
  · split
    · exact ⟨_, rfl⟩
    · rename_i hRaised
      split
      · exact ⟨_, rfl⟩
      · rcases probe_raises hRaised with hCaught | hNot
        · rw [if_pos hCaught]
          exact ⟨_, rfl⟩
        · exact (hNot hUpload).elim

theorem measure_foreign {receipt : Json F} {c : Confirmation} (h :
      (ready.served = .receipt receipt ∧ ¬ Expected digest 0 ready.nonce receipt) ∨
        (upload.served = .receipt receipt ∧ ¬ Expected digest p.size upload.nonce receipt))
    (hMeasure : p.measure digest name inbound ready upload = .ok c) : c = unconfirmed := by
  unfold Probe.measure at hMeasure
  split at hMeasure
  · split at hMeasure
    · cases hMeasure
      rfl
    · cases hMeasure
  · rename_i hOk
    rcases h with ⟨hServed, hForeign⟩ | ⟨hServed, hForeign⟩
    · rcases probe_foreign p name inbound hServed hForeign with ⟨e, hError, -⟩
      rw [hError] at hOk
      cases hOk
    · rcases probe_foreign p name inbound hServed hForeign with ⟨e, hError, hNot⟩
      rw [hError] at hMeasure
      dsimp only at hMeasure
      rw [if_neg hNot] at hMeasure
      split at hMeasure
      · cases hMeasure
        rfl
      · cases hMeasure

end Probes

-- One Path

section Paths

variable {cfg : Settings} {k : Known F} {i : Input F}
variable {inbound : PyStr} {budget : BudgetState ℚ PyStr}
variable {lane : Lane ℚ}

theorem observe_unconfirmed (policy : Policy ℚ) (now : ℚ) (p : Path ℚ) (reachable : Option Bool) :
    (p.observe policy now reachable (some unconfirmed)).state =
      (p.observe policy now reachable none).state := by
  cases reachable with
  | none => rfl
  | some up =>
    cases up with
    | false => rfl
    | true =>
      change (({ p with observedAt := some now } : Path ℚ).awake.unconfirmed
          policy now .uploadUnconfirmed).state = _
      dsimp only [Path.observe]
      rw [(tick_frame policy now _).2.2.2.2]
      unfold Path.unconfirmed
      split <;> rfl

theorem probeLane_ok (k : Known F) (inbound : PyStr) (budget : BudgetState ℚ PyStr)
    (hFinite : Finite cfg.digest 0 (i.turns lane.name).ready ∧
        Finite cfg.digest (cfg.probe lane.name).size (i.turns lane.name).upload) :
    ∃ c after, probeLane cfg k i inbound budget lane = (.ok c, after) := by
  unfold probeLane
  dsimp only
  split
  · split
    · exact ⟨_, _, rfl⟩
    · rcases measure_ok (cfg.probe lane.name) lane.name inbound hFinite.1 hFinite.2 with ⟨c, hMeasure⟩
      rw [hMeasure]
      exact ⟨_, _, rfl⟩
  · exact ⟨_, _, rfl⟩

theorem probeLane_foreign {c : Option Confirmation} {after : BudgetState ℚ PyStr}
    (hForeign : Foreign cfg i lane.name)
    (h : probeLane cfg k i inbound budget lane = (.ok c, after)) :
    c = none ∨ c = some unconfirmed := by
  rcases hForeign with ⟨receipt, hReceipt⟩
  unfold probeLane at h
  dsimp only at h
  split at h
  · split at h
    · cases h
      exact .inl rfl
    · split at h
      · cases h
      · rename_i hMeasure
        cases h
        exact .inr (congrArg some (measure_foreign hReceipt hMeasure))
  · cases h
    exact .inl rfl

theorem lane_innocent {c : Option Confirmation} {after : BudgetState ℚ PyStr}
    {observations : Dict PyStr Observed} (hProxies : proxiesOf i.proxies = .ok k.proxies)
    (hProbe : probeLane cfg k i inbound budget lane = (.ok c, after))
    (hGet : observations.get lane.name = some (observed cfg k i lane c)) :
    Innocent cfg i lane (lane.observe i.updatedAt observations) := by
  have hState : (lane.observe i.updatedAt observations).path =
        lane.path.observe lane.policy i.updatedAt (observed cfg k i lane c).reachable
          (observed cfg k i lane c).confirmation := by
    unfold Lane.observe observationAt
    rw [hGet]
    rfl
  refine ⟨rfl, ?_, ?_, ?_⟩
  · intro e hError
    rw [hProxies] at hError
    cases hError
  · intro proxies hOk hNone
    rw [hProxies] at hOk
    cases hOk
    rw [hState]
    unfold observed
    split
    · rfl
    · rename_i hAfter
      rcases hNone with hNone | hNone
      · rw [hNone]
        rfl
      · exact (hAfter hNone).elim
  · intro hForeign
    rw [hState]
    unfold observed
    split
    · exact .inl rfl
    · refine .inr ⟨k.proxies, hProxies, ?_⟩
      have hReachable : ∀ r c, (⟨valueOf r, c⟩ : Observed).reachable = r := by
        intro r c
        cases r <;> rfl
      rw [hReachable]
      rcases probeLane_foreign hForeign hProbe with rfl | rfl
      · rfl
      · exact observe_unconfirmed _ _ _ _

variable {e : Engine ℚ} {order : List (Lane ℚ)}

/- By induction on the order of the paths. -/
theorem probeLanes_ok (k : Known F) (e : Engine ℚ) (budget : BudgetState ℚ PyStr) (order : List (Lane ℚ))
    (hFinite : ∀ lane ∈ order, Finite cfg.digest 0 (i.turns lane.name).ready ∧
          Finite cfg.digest (cfg.probe lane.name).size (i.turns lane.name).upload) :
    ∃ observations after, probeLanes cfg e k i order budget = (.ok observations, after) := by
  induction order generalizing budget with
  | nil => exact ⟨_, _, rfl⟩
  | cons lane rest ih =>
    rcases probeLane_ok k (inboundOf e lane.name) budget
        (hFinite lane List.mem_cons_self) with ⟨c, next, hProbe⟩
    rcases ih next (fun l hMem => hFinite l (List.mem_cons_of_mem _ hMem)) with ⟨others, after, hRest⟩
    rw [probeLanes, hProbe]
    dsimp only
    rw [hRest]
    exact ⟨_, _, rfl⟩

theorem probeLanes_get {observations : Dict PyStr Observed} {after : BudgetState ℚ PyStr}
    (hNodup : (order.map Lane.name).Nodup)
    (h : probeLanes cfg e k i order budget = (.ok observations, after)) :
    ∀ lane ∈ order, ∃ c before next, probeLane cfg k i (inboundOf e lane.name) before lane = (.ok c, next) ∧
        observations.get lane.name = some (observed cfg k i lane c) := by
  induction order generalizing budget observations after with
  | nil =>
    intro lane hMem
    exact (List.not_mem_nil hMem).elim
  | cons head rest ih =>
    rw [List.map_cons, List.nodup_cons] at hNodup
    rw [probeLanes] at h
    split at h
    · cases h
    · rename_i c next hProbe
      split at h
      · cases h
      · rename_i others last hRest
        cases h
        intro lane hMem
        rcases List.mem_cons.mp hMem with rfl | hMem
        · exact ⟨c, budget, next, hProbe, if_pos rfl⟩
        · rcases ih hNodup.2 hRest lane hMem with ⟨c', before, next', hLane, hGet⟩
          refine ⟨c', before, next', hLane, ?_⟩
          rw [Dict.get, if_neg, hGet]
          intro hName
          rw [hName] at hNodup
          exact hNodup.1 (List.mem_map_of_mem hMem)

end Paths

-- One Cycle

section Cycles

variable {cfg : Settings} {s : State} {i : Input F}

/- How the cycle comes to its paths, or does not. -/
theorem begin_cases (cfg : Settings) (s : State) (i : Input F) :
    (∃ e t, begin cfg s i = (.error e, t) ∧ t.engine = s.engine ∧ (e.caught = true ∨
        ∃ proxies payload, proxiesOf i.proxies = .ok proxies ∧ request i.connections = .ok payload ∧
          keyOf ((recognized cfg s proxies).effective proxies) = .error .unhashable)) ∨
      ∃ k t key, begin cfg s i = (.ok k, t) ∧ t.engine = s.engine ∧ proxiesOf i.proxies = .ok k.proxies ∧
        keyOf (t.owner.effective k.proxies) = .ok key := by
  unfold begin
  split
  · rename_i hRaised
    exact .inl ⟨_, _, rfl, rfl, .inl (proxiesOf_raises hRaised)⟩
  · rename_i proxies hProxies
    dsimp only
    split
    · rename_i hRaised
      exact .inl ⟨_, _, rfl, rfl, .inl (request_raises hRaised).1⟩
    · rename_i payload hPayload
      split
      · rename_i error hKey
        cases error
        exact .inl ⟨_, _, rfl, rfl, .inr ⟨proxies, payload, hProxies, hPayload, hKey⟩⟩
      · rename_i key hKey
        exact .inr ⟨_, _, key, rfl, rfl, hProxies, hKey⟩

theorem selecting_spec (s : State) (i : Input F) (name : PyStr) (retain : Bool) (action : Action) :
    (selecting s i name retain action).2.engine = s.engine ∧
      ∀ e, (selecting s i name retain action).1 = .error e → e.caught = true := by
  unfold selecting
  split
  · rename_i hRaised
    refine ⟨rfl, fun e h => ?_⟩
    cases h
    exact proxiesOf_raises hRaised
  · dsimp only
    split
    · exact ⟨rfl, fun e h => nomatch h⟩
    · exact ⟨rfl, fun e h => nomatch h⟩
    · rename_i hRaised
      refine ⟨rfl, fun e h => ?_⟩
      cases h
      exact (request_raises hRaised).1
    · refine ⟨rfl, fun e h => ?_⟩
      cases h
      rfl

theorem decided_spec (cfg : Settings) (s : State) (i : Input F) {proxies : Proxies F} {key : Option PyStr}
    (hKey : keyOf (s.owner.effective proxies) = .ok key)
    (paths : Summary) :
    (decided cfg s i proxies paths).2.engine = s.engine ∧
      ∀ e, (decided cfg s i proxies paths).1 = .error e → e.caught = true := by
  have hTarget : ∃ desired, s.engine.target i.targetAt (s.owner.effective proxies) = .ok desired := by
    unfold Engine.target
    rw [hKey]
    cases key <;> exact ⟨_, rfl⟩
  rcases hTarget with ⟨desired, hTarget⟩
  unfold decided
  dsimp only
  rw [hKey, hTarget]
  dsimp only
  generalize hNext : (if cfg.control then
      { s with owner := (s.owner.permitted proxies true).2 }
    else s : State) = next
  have hEngine : next.engine = s.engine := by
    rw [← hNext]
    split <;> rfl
  split
  -- an error of the deed is the error of the cycle
  · rename_i e t hActed
    suffices h : t.engine = next.engine ∧ e.caught = true by
      refine ⟨h.1.trans hEngine, fun e' hError => ?_⟩
      cases hError
      exact h.2
    split at hActed
    · cases hActed
    · split at hActed
      · cases hActed
      · split at hActed
        · rename_i name
          have hSpec := selecting_spec next i name false .selected
          rw [hActed] at hSpec
          exact ⟨hSpec.1, hSpec.2 e rfl⟩
        · rename_i name _
          have hSpec := selecting_spec next i name true .retainedCurrent
          rw [hActed] at hSpec
          exact ⟨hSpec.1, hSpec.2 e rfl⟩
        · cases hActed
  · rename_i action t hActed
    suffices h : t.engine = next.engine from
      ⟨h.trans hEngine, fun e hError => by cases hError⟩
    split at hActed
    · cases hActed
      rfl
    · split at hActed
      · cases hActed
        rfl
      · split at hActed
        · rename_i name
          have hSpec := selecting_spec next i name false .selected
          rw [hActed] at hSpec
          exact hSpec.1
        · rename_i name _
          have hSpec := selecting_spec next i name true .retainedCurrent
          rw [hActed] at hSpec
          exact hSpec.1
        · cases hActed
          rfl

theorem update_ok {e : Engine ℚ} {now : ℚ} {observations : Dict PyStr Observed}
    (hLast : ∀ t ∈ e.lastTime, t ≤ now) (hLow : 0 ≤ now)
    (hTop : now ≤ 10 ^ 15) :
    e.update ⟨.number now, observations⟩ = (.ok (e.observe now observations).summary,
        e.observe now observations) := by
  have hAdmitted : admitted e.lastTime (.number now) = some now := by
    unfold admitted
    dsimp only
    rw [if_pos ⟨by exact_mod_cast hLow, by exact_mod_cast hTop⟩]
    cases hSome : e.lastTime with
    | none => rfl
    | some last => exact if_neg (not_lt.mpr (hLast last hSome))
  unfold Engine.update
  rw [hAdmitted]

/- The engine a cycle leaves: as it was, or with its paths told. -/
def Told (cfg : Settings) (s : State) (i : Input F) (e : Engine ℚ) : Prop :=
  e.lastTime = some i.updatedAt ∧ ∃ tell : Lane ℚ → Lane ℚ, e.lanes = s.engine.lanes.map tell ∧
      ∀ lane ∈ s.engine.lanes, Innocent cfg i lane (tell lane)

theorem cycle_cases (hSteady : Steady s i) (hMeets : Meets cfg s i) :
    (∃ r t, cycle cfg s i = (.ok r, t) ∧ Told cfg s i t.engine) ∨
      ∃ e t, cycle cfg s i = (.error e, t) ∧ e.caught = true ∧
        (t.engine = s.engine ∨ Told cfg s i t.engine) := by
  unfold cycle
  dsimp only
  rcases begin_cases cfg s i with ⟨e, t, hBegin, hEngine, hCaught⟩ |
    ⟨k, t, key, hBegin, hEngine, hProxies, hKey⟩
  · rw [hBegin]
    refine .inr ⟨e, t, rfl, ?_, .inl hEngine⟩
    rcases hCaught with hCaught | ⟨proxies, payload, hOk, hPayload, hKey⟩
    · exact hCaught
    · exact (hMeets.hashable proxies payload hOk hPayload hKey).elim
  · rw [hBegin]
    dsimp only
    rw [hEngine]
    rcases probeLanes_ok k s.engine t.budget (s.engine.lanes.rotate s.offset)
        (fun lane hMem => hMeets.finite lane (List.mem_rotate.mp hMem)) with
      ⟨observations, after, hLoop⟩
    rw [hLoop]
    dsimp only
    rw [update_ok hSteady.last hSteady.nonneg (hSteady.after.trans hSteady.top)]
    dsimp only
    have hNodup : ((s.engine.lanes.rotate s.offset).map Lane.name).Nodup := by
      rw [List.map_rotate, List.nodup_rotate]
      exact s.engine.named.nodup
    have hTold : Told cfg s i (s.engine.observe i.updatedAt observations) := by
      refine ⟨rfl, _, rfl, fun lane hMem => ?_⟩
      rcases probeLanes_get hNodup hLoop lane (List.mem_rotate.mpr hMem) with
        ⟨c, before, next, hProbe, hGet⟩
      exact lane_innocent hProxies hProbe hGet
    have hSpec := decided_spec cfg
        { t with
          budget := after
          engine := s.engine.observe i.updatedAt observations }
        i hKey (s.engine.observe i.updatedAt observations).summary
    generalize decided cfg _ i k.proxies _ = out at hSpec ⊢
    rcases out with ⟨e | r, t'⟩
    · exact .inr ⟨e, t', rfl, hSpec.2 e rfl, .inr (hSpec.1 ▸ hTold)⟩
    · exact .inl ⟨r, t', rfl, hSpec.1 ▸ hTold⟩

theorem forgotten {e : Engine ℚ} {f : Lane ℚ → Lane ℚ} (hLanes : e.lanes = s.engine.lanes.map f)
    (hNames : ∀ lane ∈ s.engine.lanes, (f lane).name = lane.name) (cfg : Settings)
    (now : ℚ) : List.Forall₂ (Innocent cfg i) s.engine.lanes (e.observe now []).lanes := by
  dsimp only [Engine.observe]
  rw [hLanes, List.map_map, List.forall₂_map_right_iff, List.forall₂_same]
  intro lane hMem
  exact ⟨hNames lane hMem, fun _ _ => rfl, fun _ _ _ => rfl, fun _ => .inl rfl⟩

theorem turn_survives (hSteady : Steady s i) (hMeets : Meets cfg s i) :
    (∃ line, (turn cfg s i).1 = .ok line) ∧ List.Forall₂ (Innocent cfg i) s.engine.lanes
        (turn cfg s i).2.engine.lanes := by
  unfold turn
  rcases cycle_cases hSteady hMeets with ⟨r, t, hCycle, -, tell, hLanes, hInnocent⟩ |
    ⟨e, t, hCycle, hCaught, hEngine⟩
  · rw [hCycle]
    refine ⟨⟨_, rfl⟩, ?_⟩
    dsimp only
    rw [hLanes, List.forall₂_map_right_iff, List.forall₂_same]
    exact hInnocent
  · rw [hCycle]
    dsimp only
    rw [if_pos hCaught]
    have hLow := hSteady.nonneg.trans hSteady.after
    rcases hEngine with hSame | ⟨hLast, tell, hLanes, hInnocent⟩
    · rw [hSame, update_ok (fun last hMem => (hSteady.last last hMem).trans hSteady.after) hLow hSteady.top]
      exact ⟨⟨_, rfl⟩, forgotten (List.map_id _).symm (fun _ _ => rfl) cfg _⟩
    · rw [update_ok (fun last hMem => by
          rw [hLast] at hMem
          cases hMem
          exact hSteady.after)
        hLow hSteady.top]
      exact ⟨⟨_, rfl⟩, forgotten hLanes (fun lane hMem => (hInnocent lane hMem).name) cfg _⟩

end Cycles

-- Runs

/- Every cycle of the run keeps the clock and the condition. -/
def Held (cfg : Settings) (s : State) (inputs : List (Input F)) : Prop := match inputs with
  | [] => True
  | i :: rest => Steady s i ∧ Meets cfg s i ∧ Held cfg (turn cfg s i).2 rest

/- The run prints a line a cycle and accuses nobody. -/
structure Survives (cfg : Settings) (s : State) (inputs : List (Input F)) : Prop where
  goesOn : (runLoop cfg s inputs).2 = none
  lines : (runLoop cfg s inputs).1.length = inputs.length
  innocent : ∀ before i after, inputs = before ++ i :: after → ∀ t, t = finalState (turn cfg) s before →
        List.Forall₂ (Innocent cfg i) t.engine.lanes (turn cfg t i).2.engine.lanes

/- By induction on the cycles. -/
theorem held_survives {cfg : Settings} {s : State} {inputs : List (Input F)}
    (h : Held cfg s inputs) : Survives cfg s inputs := by
  induction inputs generalizing s with
  | nil =>
    refine ⟨rfl, rfl, fun before i after hSplit => ?_⟩
    cases before <;> cases hSplit
  | cons i rest ih =>
    rcases h with ⟨hSteady, hMeets, hRest⟩
    rcases turn_survives hSteady hMeets with ⟨⟨line, hLine⟩, hInnocent⟩
    have hTail := ih hRest
    have hLoop : runLoop cfg s (i :: rest) = (line :: (runLoop cfg (turn cfg s i).2 rest).1,
            (runLoop cfg (turn cfg s i).2 rest).2) := by
      rw [runLoop]
      generalize turn cfg s i = out at hLine
      rcases out with ⟨_, t⟩
      cases hLine
      rfl
    constructor
    · rw [hLoop]
      exact hTail.goesOn
    · rw [hLoop, List.length_cons, List.length_cons, hTail.lines]
    · intro before j after hSplit t hState
      cases before with
      | nil =>
        cases hSplit
        rw [hState]
        exact hInnocent
      | cons first others =>
        cases hSplit
        exact hTail.innocent others j after rfl t hState

theorem run_survives (cfg : Settings) (policies : Policies ℚ) (inputs : List (Input F))
    (h : Held cfg (State.start policies) inputs) :
    Survives cfg (State.start policies) inputs :=
  held_survives h

def twoNodes : Policies ℚ := ⟨[(pyStr "Reality", dailyPolicy), (pyStr "Hysteria2", dailyPolicy)], .inl rfl⟩

def observing : Settings where
  control := false
  confirm := false
  churn := 3
  budget := ⟨1048576, 60⟩
  probe := fun _ => ⟨pyStr "127.0.0.1", 443, 32768, 5⟩
  timestamp := fun _ => none
  digest := fun _ => []

def silent : Attempt (IntGrid (2 ^ 53)) := ⟨0, .refused, [], .unreachable .os⟩

/- A cycle at `now` where the controller shows these proxies. -/
def shown (proxies : Answered (IntGrid (2 ^ 53))) (now : ℚ) : Input (IntGrid (2 ^ 53)) where
  proxies := proxies
  connections := .empty
  sampledAt := now
  turns := fun _ => ⟨now, now, silent, silent, now⟩
  updatedAt := now
  targetAt := now
  selectProxies := .refused
  selectWrite := .refused
  failedAt := now

/- A controller that answers no JSON, and later one with no path. -/
theorem run_survives_refused : Survives observing (State.start twoNodes)
      [shown .refused 10, shown (.json (.obj [(pyStr "proxies", .obj [])])) 20] := by
  refine run_survives observing twoNodes _ ⟨⟨?_, ?_, ?_, ?_⟩, ⟨?_, ?_⟩, ⟨?_, ?_, ?_, ?_⟩, ⟨?_, ?_⟩, trivial⟩
  · exact fun t hMem => nomatch hMem
  · decide +kernel
  · exact le_rfl
  · decide +kernel
  · exact fun proxies payload h => nomatch h
  · exact fun lane hMem => ⟨fun _ _ _ h => (nomatch h), fun _ _ _ h => (nomatch h)⟩
  · intro t hMem
    cases hMem
    decide +kernel
  · decide +kernel
  · exact le_rfl
  · decide +kernel
  · intro proxies payload hProxies hPayload
    cases hProxies
    exact fun h => nomatch h
  · exact fun lane hMem => ⟨fun _ _ _ h => (nomatch h), fun _ _ _ h => (nomatch h)⟩

/- The group is said to go through a list. -/
def listNow : Input (IntGrid (2 ^ 53)) := shown (.json (.obj [(pyStr "proxies",
      .obj [(group, .obj [(pyStr "now", .arr [])])])])) 10

theorem unhashable_now : ¬ Survives observing (State.start twoNodes) [listNow] :=
  fun h => nomatch (show some Raised.type = none from h.goesOn)

end SingboxOps.QualityFailover.Telemetry
