import SingboxOps.QualityFailover.Engine
import SingboxOps.QualityFailover.Ownership

/-
  The decisions to switch, over every run.

  A target is asked for after any calls of the engine, and a
  write after any calls of the owner.
-/

namespace SingboxOps.QualityFailover

variable {T : Type} [LinearOrder T] [Add T] [Sub T] [NatCast T]
variable {F : Type}

-- Lanes

/-
  The lane is up and recovered, and a good sample of what was
  said of it is fresh.
-/
structure Usable (calls : List (Update T)) (now : T) (lane : Lane T) : Prop where
  up : lane.path.state = .up
  recovered : lane.path.needsRecovery = false
  verified : ∃ o ∈ observationsOf none calls lane.name, isGood lane.policy o = true ∧
        lane.path.qualityVerifiedAt = some o.now ∧
        ((0 : ℕ) : T) ≤ now - o.now ∧
        now - o.now ≤ lane.policy.freshnessSeconds

def Failed (lane : Lane T) : Prop := lane.path.state = .down ∨ lane.path.state = .degraded

theorem usable_iff {policies : Policies T} {calls : List (Update T)} {now : T} {lane : Lane T}
    (hMem : lane ∈ (Engine.after policies calls).lanes) :
    lane.usable now = true ↔ Usable calls now lane := by
  have hRun := verified_run lane.policy (observationsOf none calls lane.name)
  rw [← after_lane hMem] at hRun
  unfold Lane.usable Path.usable
  rw [Bool.and_eq_true, Bool.and_eq_true, decide_eq_true_eq, Bool.not_eq_true']
  constructor
  · rintro ⟨⟨hUp, hRecovered⟩, hFresh⟩
    refine ⟨hUp, hRecovered, ?_⟩
    cases hSome : lane.path.qualityVerifiedAt with
    | none =>
      rw [hSome] at hFresh
      exact Bool.noConfusion hFresh
    | some verified =>
      rw [hSome, Bool.and_eq_true, decide_eq_true_eq, decide_eq_true_eq] at hFresh
      rcases hRun verified hSome with ⟨o, hIn, hGood, rfl⟩
      exact ⟨o, hIn, hGood, rfl, hFresh.1, hFresh.2⟩
  · rintro ⟨hUp, hRecovered, o, -, -, hSome, hPast, hFresh⟩
    refine ⟨⟨hUp, hRecovered⟩, ?_⟩
    rw [hSome, Bool.and_eq_true, decide_eq_true_eq, decide_eq_true_eq]
    exact ⟨hPast, hFresh⟩

theorem lane_of_mem {e : Engine T} {lane : Lane T} (h : lane ∈ e.lanes) : e.lane lane.name = some lane := by
  have hNodup := e.named.nodup
  unfold Engine.lane
  generalize e.lanes = lanes at h hNodup
  induction lanes with
  | nil => exact (List.not_mem_nil h).elim
  | cons head rest ih =>
    rw [List.map_cons, List.nodup_cons] at hNodup
    rcases List.mem_cons.mp h with rfl | hRest
    · exact List.find?_cons_of_pos (decide_eq_true rfl)
    · rw [List.find?_cons_of_neg]
      · exact ih hRest hNodup.2
      · rw [decide_eq_true_eq]
        intro hName
        rw [hName] at hNodup
        exact hNodup.1 (List.mem_map_of_mem hRest)

theorem mem_of_lane {e : Engine T} {name : PyStr} {lane : Lane T}
    (h : e.lane name = some lane) : lane ∈ e.lanes ∧ lane.name = name :=
  ⟨List.mem_of_find?_eq_some h, of_decide_eq_true (List.find?_some
        (p := fun l : Lane T => decide (l.name = name)) h)⟩

-- Targets

/- What a target is, in an engine after some calls. -/
structure Decides (calls : List (Update T)) (e : Engine T) (now : T) (current : Json F) : Prop where
  sound : ∀ name, e.target now current = .ok (some name) →
      current ≠ .str name ∧ ∃ lane ∈ e.lanes, lane.name = name ∧ Usable calls now lane
  kept : ∀ lane ∈ e.lanes, current = .str lane.name →
      lane.path.state = .up ∨ lane.path.state = .unknown → e.target now current = .ok none
  first : ∀ lane ∈ e.lanes, current = .str lane.name → Failed lane → ∀ before best after,
        e.lanes = before ++ best :: after →
        Usable calls now best →
        (∀ other ∈ before, ¬ Usable calls now other) → e.target now current = .ok (some best.name)

theorem target_eq_some {e : Engine T} {now : T} {current : Json F} {name : PyStr}
    (h : e.target now current = .ok (some name)) :
    ∃ lane ∈ e.lanes, current = .str lane.name ∧ name ≠ lane.name ∧
      ∃ best rest, e.lanes.filter (Lane.usable now) = best :: rest ∧ best.name = name := by
  unfold Engine.target at h
  cases current with
  | str text =>
    have hFrom : e.targetFrom now text = some name := Except.ok.inj h
    unfold Engine.targetFrom at hFrom
    split at hFrom
    · cases hFrom
    · rename_i lane hLane
      rcases mem_of_lane hLane with ⟨hMem, rfl⟩
      split at hFrom
      · split at hFrom
        · cases hFrom
        · rename_i best rest hFilter
          split at hFrom
          · cases hFrom
          · rename_i hOther
            cases hFrom
            exact ⟨lane, hMem, rfl, hOther, best, rest, hFilter, rfl⟩
      · cases hFrom
  | null => exact nomatch h
  | bool b => exact nomatch h
  | int n => exact nomatch h
  | float x => exact nomatch h
  | arr items => exact nomatch h
  | obj members => exact nomatch h

theorem after_decides (policies : Policies T) (calls : List (Update T)) (now : T)
    (current : Json F) : Decides calls (Engine.after policies calls) now current := by
  constructor
  · intro name hTarget
    rcases target_eq_some hTarget with ⟨lane, -, rfl, hOther, best, rest, hFilter, rfl⟩
    constructor
    · intro hName
      exact hOther (Json.str.inj hName).symm
    · have hBest : best ∈ (Engine.after policies calls).lanes.filter (Lane.usable now) := by
        rw [hFilter]
        exact List.mem_cons_self
      rcases List.mem_filter.mp hBest with ⟨hMem, hUsable⟩
      exact ⟨best, hMem, rfl, (usable_iff hMem).mp hUsable⟩
  · rintro lane hMem rfl hState
    have hKept : ¬ (lane.path.state = .degraded ∨ lane.path.state = .down) := by
      rcases hState with hState | hState <;> rw [hState] <;> decide
    unfold Engine.target
    dsimp only [keyOf]
    unfold Engine.targetFrom
    rw [lane_of_mem hMem]
    dsimp only
    rw [if_neg hKept]
  · rintro lane hMem rfl hFailed before best after hLanes hUsable hBefore
    have hBestMem : best ∈ (Engine.after policies calls).lanes := by
      rw [hLanes]
      exact List.mem_append_right _ List.mem_cons_self
    have hFilter : (Engine.after policies calls).lanes.filter (Lane.usable now) =
          best :: after.filter (Lane.usable now) := by
      rw [hLanes, List.filter_append, List.filter_eq_nil_iff.mpr, List.nil_append, List.filter_cons_of_pos]
      · exact (usable_iff hBestMem).mpr hUsable
      · intro other hOther hKeep
        have hOtherMem : other ∈ (Engine.after policies calls).lanes := by
          rw [hLanes]
          exact List.mem_append_left _ hOther
        exact hBefore other hOther ((usable_iff hOtherMem).mp hKeep)
    have hName : best.name ≠ lane.name := by
      intro hName
      have hSame : some best = some lane := by
        rw [← lane_of_mem hBestMem, hName, lane_of_mem hMem]
      cases hSame
      rcases hFailed with hState | hState <;>
        exact PathState.noConfusion (hState.symm.trans hUsable.up)
    unfold Engine.target
    dsimp only [keyOf]
    unfold Engine.targetFrom
    rw [lane_of_mem hMem]
    dsimp only
    rw [if_pos (Or.comm.mp hFailed), hFilter]
    dsimp only
    rw [if_neg hName]

-- Every Run

/-
  After every run of calls: a target is another node and
  usable, a current node that is up or unknown is kept, and
  one that failed gives way to the first usable one.  An
  update refused for its clock changes nothing.  Once a call
  has ruled on a foreign snapshot, that call and every later
  one is refused.
-/
theorem switching_sound (policies : Policies T) (calls : List (Update T)) : (∀ (now : T) (current : Json F),
      Decides calls (Engine.after policies calls) now current) ∧
      (∀ u : Update T, ((Engine.after policies calls).update u).1 = .error .clock →
        ((Engine.after policies calls).update u).2 = Engine.after policies calls) ∧
      (∀ (names : List PyStr) (before after : List (OwnerCall F)) (call : OwnerCall F) (proxies : Proxies F),
        let owner := finalState Owner.call (Owner.start names) before
        looksAt owner call = some proxies →
        Foreign owner proxies → Refused call (owner.call call).1 ∧ ∀ later : OwnerCall F,
              Refused later ((finalState Owner.call (owner.call call).2 after).call later).1) := by
  refine ⟨after_decides policies calls, fun u h => update_of_refused h, ?_⟩
  intro names before after call proxies owner hLook hForeign
  have hCall := call_of_suspends (.inr ⟨proxies, hLook, hForeign⟩)
  refine ⟨hCall.1, fun later => ?_⟩
  exact (call_of_suspends (.inl (suspended_run after hCall.2))).1

-- A Run

/- The policy of the daily session, in whole seconds. -/
def wholePolicy : Policy ℤ where
  failMbps := 4
  recoverMbps := 8
  failSamples := 2
  recoverSamples := 3
  holdSeconds := 120
  freshnessSeconds := 90
  failMbps_range := by decide +kernel
  recoverMbps_range := by decide +kernel
  failMbps_lt := by decide
  failSamples_range := twoSamples
  recoverSamples_range := threeSamples
  holdSeconds_range := by decide
  freshnessSeconds_range := by decide

def primaryNodes : Policies ℤ := ⟨(nodes.take 2).map (fun name => (name, wholePolicy)), .inl rfl⟩

/- `Reality` fails its probe, `Hysteria2` carries 9 Mbps. -/
def realityDown : Update ℤ where
  now := .number 10
  observations := [(pyStr "Reality", ⟨.bool false, none⟩), (pyStr "Hysteria2",
        ⟨.bool true, some ⟨.number 9, .bool false, .bool true⟩⟩)]

def laneOf (name : PyStr) : Lane ℤ := ⟨name, wholePolicy,
    run wholePolicy (observationsOf none [realityDown] name)⟩

theorem lanes_realityDown : (Engine.after primaryNodes [realityDown]).lanes =
      [laneOf (pyStr "Reality"), laneOf (pyStr "Hysteria2")] :=
  rfl

/-
  At 20 `Reality` gives way to `Hysteria2`, a call at 5 comes
  too early, and a controller without the group ends the
  writing.
-/
theorem switching_sound_realityDown : (Engine.after primaryNodes [realityDown]).target 20
        (.str (pyStr "Reality") : Json ℚ) =
      .ok (some (pyStr "Hysteria2")) ∧
      ((Engine.after primaryNodes [realityDown]).update ⟨.number 5, []⟩).2.lastTime = some 10 ∧
      Refused (.select (pyStr "Hysteria2") ([] : Proxies ℚ) false .acknowledged)
        ((Owner.start (nodes.take 2)).call
          (.select (pyStr "Hysteria2") ([] : Proxies ℚ) false .acknowledged)).1 := by
  have hSound := switching_sound (F := ℚ) primaryNodes [realityDown]
  have hReality : laneOf (pyStr "Reality") ∈ (Engine.after primaryNodes [realityDown]).lanes := by
    rw [lanes_realityDown]
    exact List.mem_cons_self
  have hHysteria : laneOf (pyStr "Hysteria2") ∈ (Engine.after primaryNodes [realityDown]).lanes := by
    rw [lanes_realityDown]
    exact List.mem_cons_of_mem _ List.mem_cons_self
  refine ⟨?_, ?_, ?_⟩
  · refine (hSound.1 20 (.str (pyStr "Reality"))).first (laneOf (pyStr "Reality")) hReality rfl (.inl ?_)
      [laneOf (pyStr "Reality")] (laneOf (pyStr "Hysteria2")) []
      lanes_realityDown ?_ ?_
    · decide
    · exact (usable_iff hHysteria).mp (by decide)
    · intro other hOther hUsable
      rw [List.mem_singleton.mp hOther] at hUsable
      have hUp := hUsable.up
      revert hUp
      decide
  · rw [hSound.2.1 ⟨.number 5, []⟩ (by decide)]
    rfl
  · refine (hSound.2.2 (nodes.take 2) [] [] _ [] ?_ ?_).1
    · rfl
    · intro outerDict groupDict fallback hOwn
      have hGroup := hOwn.groupIs
      have hType := hOwn.groupType
      cases hGroup
      cases hType

end SingboxOps.QualityFailover
