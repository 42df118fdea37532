import SingboxOps.Lib.Dict
import SingboxOps.Lib.Json.Value
import SingboxOps.Lib.Trace
import SingboxOps.QualityFailover.Recovery

/-
  The engine over the paths.

  The lanes of an engine stand in the order of its policies,
  which is the order of preference.  A run of updates moves
  each lane by the updates whose clock was admitted, and no
  other.
-/

namespace SingboxOps.QualityFailover

/- `NODES` -/
def nodes : List PyStr := [pyStr "Reality", pyStr "Hysteria2", pyStr "Backup-Reality",
    pyStr "Backup-Hysteria2"]

/- The keys of a table of policies. -/
def NodeNames (names : List PyStr) : Prop := names = nodes.take 2 ∨ names = nodes

instance (names : List PyStr) : Decidable (NodeNames names) :=
  inferInstanceAs (Decidable (_ ∨ _))

theorem NodeNames.nodup {names : List PyStr} (h : NodeNames names) : names.Nodup := by
  rcases h with rfl | rfl <;> decide

variable {T : Type} [LinearOrder T] [Add T] [Sub T] [NatCast T]

/- A clock reading: a finite number, or anything else. -/
inductive Clock (T : Type) where
  | number (t : T)
  | other
deriving DecidableEq

structure Lane (T : Type) [LinearOrder T] [NatCast T] where
  name : PyStr
  policy : Policy T
  path : Path T

structure Engine (T : Type) [LinearOrder T] [NatCast T] where
  lanes : List (Lane T)
  lastTime : Option T
  named : NodeNames (lanes.map Lane.name)

/- The argument of `Engine.__init__` that it does not refuse. -/
def Policies (T : Type) [LinearOrder T] [NatCast T] : Type :=
  { table : List (PyStr × Policy T) // NodeNames (table.map Prod.fst) }

def Engine.start (policies : Policies T) : Engine T where
  lanes := policies.val.map (fun e => ⟨e.1, e.2, Path.fresh⟩)
  lastTime := none
  named := by
    rw [List.map_map]
    exact policies.property

-- Updates

/- What an update is given for a node. -/
structure Observed where
  alive : Value
  confirmation : Option Confirmation
deriving DecidableEq

/- Anything but a boolean is no reachability. -/
def Observed.reachable (o : Observed) : Option Bool := match o.alive with
  | .bool alive => some alive
  | _ => none

/- `observations.get(name, (None, None))` -/
def observationAt (now : T) (observations : Dict PyStr Observed) (name : PyStr) : Observation T :=
  match observations.get name with
  | none => ⟨now, none, none⟩
  | some o => ⟨now, o.reachable, o.confirmation⟩

/- The clock reading an update goes by, unless it is refused. -/
def admitted (lastTime : Option T) (now : Clock T) : Option T := match now with
  | .other => none
  | .number t =>
    if ((0 : ℕ) : T) ≤ t ∧ t ≤ ((10 ^ 15 : ℕ) : T) then
      match lastTime with
      | none => some t
      | some last => if t < last then none else some t
    else none

/- `ValueError("clock")` -/
inductive ClockError where
  | clock
deriving DecidableEq

abbrev Summary := List (PyStr × PathState × Reason)

def Engine.summary (e : Engine T) : Summary := e.lanes.map (fun l => (l.name, l.path.state, l.path.reason))

def Lane.observe (now : T) (observations : Dict PyStr Observed) (l : Lane T) : Lane T :=
  { l with
    path := l.path.step l.policy
      (observationAt now observations l.name) }

/- The loop over the paths. -/
def Engine.observe (e : Engine T) (now : T) (observations : Dict PyStr Observed) : Engine T where
  lanes := e.lanes.map (Lane.observe now observations)
  lastTime := some now
  named := by
    rw [List.map_map]
    exact e.named

/- The arguments of one call of `update`. -/
structure Update (T : Type) where
  now : Clock T
  observations : Dict PyStr Observed
deriving DecidableEq

def Engine.update (e : Engine T) (u : Update T) : Except ClockError Summary × Engine T :=
  match admitted e.lastTime u.now with
  | none => (.error .clock, e)
  | some now =>
    let e := e.observe now u.observations
    (.ok e.summary, e)

-- Targets

section Target

variable {F : Type}

/- A list or a dictionary is no key: `TypeError`. -/
inductive TypeError where
  | unhashable
deriving DecidableEq

def keyOf (current : Json F) : Except TypeError (Option PyStr) := match current with
  | .arr _ => .error .unhashable
  | .obj _ => .error .unhashable
  | .str name => .ok (some name)
  | _ => .ok none

def Lane.usable (now : T) (l : Lane T) : Bool := l.path.usable l.policy now

def Engine.lane (e : Engine T) (name : PyStr) : Option (Lane T) :=
  e.lanes.find? (fun l => decide (l.name = name))

/- `target` where the current selection is a name. -/
def Engine.targetFrom (e : Engine T) (now : T) (current : PyStr) : Option PyStr :=
  match e.lane current with
  | none => none
  | some lane =>
    if lane.path.state = .degraded ∨ lane.path.state = .down then
      match e.lanes.filter (Lane.usable now) with
      | [] => none
      | best :: _ => if best.name = current then none else some best.name
    else none

def Engine.target (e : Engine T) (now : T) (current : Json F) : Except TypeError (Option PyStr) :=
  match keyOf current with
  | .error error => .error error
  | .ok none => .ok none
  | .ok (some name) => .ok (e.targetFrom now name)

end Target

-- Runs of Updates

/- The engine after some calls, refused ones among them. -/
def Engine.after (policies : Policies T) (calls : List (Update T)) : Engine T :=
  finalState Engine.update (Engine.start policies) calls

/- The calls that were not refused, with their times. -/
def accepted (lastTime : Option T) (calls : List (Update T)) : List (T × Dict PyStr Observed) :=
  match calls with
  | [] => []
  | u :: rest =>
    match admitted lastTime u.now with
    | none => accepted lastTime rest
    | some now => (now, u.observations) :: accepted (some now) rest

/- What the accepted calls said of a node. -/
def observationsOf (lastTime : Option T) (calls : List (Update T)) (name : PyStr) : List (Observation T) :=
  (accepted lastTime calls).map (fun u => observationAt u.1 u.2 name)

/- Each lane moves by the accepted calls alone. -/
theorem updated_lanes (calls : List (Update T)) (e : Engine T) :
    (finalState Engine.update e calls).lanes = e.lanes.map (fun l =>
        { l with
          path := (observationsOf e.lastTime calls l.name).foldl
            (Path.step l.policy) l.path }) := by
  induction calls generalizing e with
  | nil => exact (List.map_id _).symm
  | cons u rest ih =>
    rw [finalState, ih, Engine.update]
    unfold observationsOf
    rw [accepted]
    cases admitted e.lastTime u.now with
    | none => rfl
    | some now =>
      dsimp only [Engine.observe]
      rw [List.map_map]
      rfl

theorem after_lane {policies : Policies T} {calls : List (Update T)} {lane : Lane T}
    (h : lane ∈ (Engine.after policies calls).lanes) :
    lane.path = run lane.policy (observationsOf none calls lane.name) := by
  unfold Engine.after at h
  rw [updated_lanes] at h
  rcases List.mem_map.mp h with ⟨l, hMem, rfl⟩
  rcases List.mem_map.mp hMem with ⟨entry, -, rfl⟩
  rfl

theorem update_refused_iff (e : Engine T) (u : Update T) :
    (e.update u).1 = .error .clock ↔ admitted e.lastTime u.now = none := by
  unfold Engine.update
  cases admitted e.lastTime u.now with
  | none => exact ⟨fun _ => rfl, fun _ => rfl⟩
  | some now =>
    constructor
    · intro h
      cases h
    · intro h
      cases h

theorem update_of_refused {e : Engine T} {u : Update T}
    (h : (e.update u).1 = .error .clock) : (e.update u).2 = e := by
  rw [update_refused_iff] at h
  unfold Engine.update
  rw [h]

-- Verified Quality

/- A good sample of the history stands behind the verification. -/
def Verified (policy : Policy T) (history : List (Observation T)) (p : Path T) : Prop :=
  ∀ verified, p.qualityVerifiedAt = some verified → ∃ o ∈ history, isGood policy o = true ∧ o.now = verified

namespace Verified

variable {policy : Policy T} {history : List (Observation T)}
variable {p q : Path T}

theorem of_frame (h : Verified policy history p) (o : Observation T)
    (hFrame : q.qualityVerifiedAt = none ∨ q.qualityVerifiedAt = p.qualityVerifiedAt) :
    Verified policy (history ++ [o]) q := by
  intro verified hSome
  rcases hFrame with hNone | hSame
  · rw [hNone] at hSome
    cases hSome
  · rw [hSame] at hSome
    rcases h verified hSome with ⟨x, hMem, hGood⟩
    exact ⟨x, List.mem_append_left _ hMem, hGood⟩

theorem awake_verified (p : Path T) : p.awake.qualityVerifiedAt = p.qualityVerifiedAt := by
  unfold Path.awake
  split
  · split <;> rfl
  · rfl

theorem step (h : Verified policy history p)
    (o : Observation T) : Verified policy (history ++ [o]) (p.step policy o) := by
  have hAwake := awake_verified { p with observedAt := some o.now }
  rw [step_eq]
  cases hKind : o.kind policy with
  | hard => exact h.of_frame o (.inl rfl)
  | missing => exact h.of_frame o (.inl rfl)
  | tick =>
    refine h.of_frame o ?_
    dsimp only
    unfold Path.tick
    split
    · exact .inl rfl
    · exact .inr hAwake
  | sample verdict =>
    cases verdict with
    | bad =>
      refine h.of_frame o (.inl ?_)
      dsimp only [Path.confirm]
      unfold Path.confirmedBad
      dsimp only
      split <;> rfl
    | good =>
      have hNow : ∃ x ∈ history ++ [o], isGood policy x = true ∧ x.now = o.now :=
        ⟨o, List.mem_append_right _ (List.mem_singleton_self o), decide_eq_true hKind, rfl⟩
      dsimp only [Path.confirm]
      unfold Path.confirmedGood
      dsimp only
      split
      · split
        · intro verified hSome
          cases hSome
          exact hNow
        · exact h.of_frame o (.inr hAwake)
      · intro verified hSome
        cases hSome
        exact hNow
    | unknown =>
      refine h.of_frame o ?_
      dsimp only [Path.confirm]
      unfold Path.unconfirmed
      split
      · dsimp only
        split
        · exact .inl rfl
        · exact .inr hAwake
      · exact .inr hAwake
    | middle =>
      refine h.of_frame o ?_
      dsimp only [Path.confirm]
      unfold Path.unconfirmed
      split
      · dsimp only
        split
        · exact .inl rfl
        · exact .inr hAwake
      · exact .inr hAwake

end Verified

/- By induction on the history. -/
theorem verified_run (policy : Policy T)
    (history : List (Observation T)) : Verified policy history (run policy history) := by
  induction history using List.reverseRecOn with
  | nil =>
    intro verified hSome
    cases hSome
  | append_singleton history o ih =>
    rw [run_snoc]
    exact ih.step o

end SingboxOps.QualityFailover
