import Mathlib.Algebra.Order.Field.Rat
import Mathlib.Data.Rat.Cast.Order
import Mathlib.Order.Lattice

/-
  The path state machine of the quality failover.

  Throughputs are compared only, so that a finite number is
  its exact value.  Times are any linearly ordered type with
  the sums and differences of the language: nothing is assumed
  of how they are rounded.
-/

namespace SingboxOps.QualityFailover

-- Policies

/- A value of a dataclass field; a number is a finite one. -/
inductive Value where
  | none
  | bool (b : Bool)
  | number (q : ℚ)
  | other
deriving DecidableEq

/- `number(value, low, high)` on a finite number -/
def InRange (q low high : ℚ) : Prop := low ≤ q ∧ q ≤ high

instance (q low high : ℚ) : Decidable (InRange q low high) :=
  inferInstanceAs (Decidable (_ ∧ _))

/- The float `.01` -/
def centi : ℚ := 5764607523034235 / 576460752303423488

variable {T : Type} [LinearOrder T] [Add T] [Sub T] [NatCast T]

/- A policy, with the checks of `__post_init__`. -/
structure Policy (T : Type) [LinearOrder T] [NatCast T] where
  failMbps : ℚ
  recoverMbps : ℚ
  failSamples : ℕ
  recoverSamples : ℕ
  holdSeconds : T
  freshnessSeconds : T
  failMbps_range : InRange failMbps centi 1000
  recoverMbps_range : InRange recoverMbps centi 1000
  failMbps_lt : failMbps < recoverMbps
  failSamples_range : 2 ≤ failSamples ∧ failSamples ≤ 10
  recoverSamples_range : 2 ≤ recoverSamples ∧ recoverSamples ≤ 10
  holdSeconds_range : ((30 : ℕ) : T) ≤ holdSeconds ∧ holdSeconds ≤ ((3600 : ℕ) : T)
  freshnessSeconds_range :
    ((15 : ℕ) : T) ≤ freshnessSeconds ∧ freshnessSeconds ≤ ((300 : ℕ) : T)

-- Confirmations

structure Confirmation where
  mbps : Value
  timedOut : Value
  endpointReady : Value
deriving DecidableEq

inductive Verdict where
  | unknown
  | bad
  | good
  | middle
deriving DecidableEq

/- `Confirmation.valid`, with the two flags it found. -/
def Confirmation.flags? (c : Confirmation) : Option (Bool × Bool) :=
  match c.timedOut, c.endpointReady with
  | .bool timedOut, .bool ready =>
    match c.mbps with
    | .none => some (timedOut, ready)
    | .number q =>
      if InRange q 0 10000 ∧ timedOut = false then
        some (timedOut, ready)
      else none
    | _ => none
  | _, _ => none

def Confirmation.verdict (policy : Policy T) (c : Confirmation) : Verdict := match c.flags? with
  | none => .unknown
  | some (_, false) => .unknown
  | some (true, true) => .bad
  | some (false, true) =>
    match c.mbps with
    | .number q =>
      if q < policy.failMbps then .bad
      else if policy.recoverMbps ≤ q then .good
      else .middle
    | _ => .unknown

-- Paths

inductive PathState where
  | unknown
  | up
  | down
  | degraded
deriving DecidableEq

inductive Reason where
  | noEvidence
  | hardProbeFailed
  | missingReachability
  | recoveryPending
  | reachableOnly
  | uploadSlowPending
  | uploadConfirmedBad
  | qualityRecovered
  | uploadConfirmedGood
  | uploadUnconfirmed
  | uploadMiddle
deriving DecidableEq

structure Path (T : Type) where
  state : PathState
  reason : Reason
  bad : ℕ
  good : ℕ
  holdUntil : T
  qualityVerifiedAt : Option T
  observedAt : Option T
  needsRecovery : Bool
deriving DecidableEq

def Path.fresh : Path T := ⟨.unknown, .noEvidence, 0, 0, ((0 : ℕ) : T), none, none, false⟩

namespace Path

variable (policy : Policy T) (now : T) (p : Path T)

/- The quality was verified too long ago, or never. -/
def stale : Bool := match p.qualityVerifiedAt with
  | none => true
  | some verified => decide (policy.freshnessSeconds < now - verified)

/- `reachable is False` -/
def hardFailed : Path T :=
  { p with
    needsRecovery := true
    state := .down
    reason := .hardProbeFailed
    bad := 0
    good := 0
    qualityVerifiedAt := none
    holdUntil := max p.holdUntil (now + policy.holdSeconds) }

/- `reachable is not True` -/
def missing : Path T :=
  { p with
    state := .unknown
    reason := .missingReachability
    bad := 0
    good := 0
    qualityVerifiedAt := none }

/- A reachable path leaves `UNKNOWN`. -/
def awake : Path T :=
  if p.state = .unknown then
    if p.needsRecovery then
      { p with state := .degraded, reason := .recoveryPending }
    else { p with state := .up, reason := .reachableOnly }
  else p

/- A tick without a probe. -/
def tick : Path T :=
  if p.qualityVerifiedAt.isSome && p.stale policy now then
    { p with
      qualityVerifiedAt := none
      reason := if p.state = .up then .reachableOnly else p.reason }
  else p

def confirmedBad : Path T :=
  let bad := min policy.failSamples (p.bad + 1)
  if policy.failSamples ≤ bad then
    { p with
      good := 0
      bad := bad
      qualityVerifiedAt := none
      needsRecovery := true
      state := .degraded
      reason := .uploadConfirmedBad
      holdUntil := max p.holdUntil (now + policy.holdSeconds) }
  else
    { p with
      good := 0
      bad := bad
      qualityVerifiedAt := none
      reason := if p.state = .up then .uploadSlowPending else p.reason }

def confirmedGood : Path T :=
  let good := min policy.recoverSamples (p.good + 1)
  if p.needsRecovery then
    if p.holdUntil ≤ now ∧ policy.recoverSamples ≤ good then
      { p with
        bad := 0
        good := good
        needsRecovery := false
        state := .up
        reason := .qualityRecovered
        qualityVerifiedAt := some now }
    else { p with bad := 0, good := good }
  else
    { p with
      bad := 0
      good := good
      state := .up
      reason := .uploadConfirmedGood
      qualityVerifiedAt := some now }

/- A sample in the middle band, or one that says nothing. -/
def unconfirmed (reason : Reason) : Path T :=
  if p.state = .up then
    { p with
      bad := 0
      good := 0
      reason := reason
      qualityVerifiedAt :=
        if p.stale policy now then none
        else p.qualityVerifiedAt }
  else { p with bad := 0, good := 0 }

def confirm (verdict : Verdict) : Path T := match verdict with
  | .bad => p.confirmedBad policy now
  | .good => p.confirmedGood policy now
  | .unknown => p.unconfirmed policy now .uploadUnconfirmed
  | .middle => p.unconfirmed policy now .uploadMiddle

/- `none` stands for a reachability that is no boolean. -/
def observe (reachable : Option Bool) (confirmation : Option Confirmation) : Path T :=
  let p := { p with observedAt := some now }
  match reachable with
  | some false => p.hardFailed policy now
  | none => p.missing
  | some true =>
    match confirmation with
    | none => p.awake.tick policy now
    | some c => p.awake.confirm policy now (c.verdict policy)

def usable : Bool :=
  decide (p.state = .up) && !p.needsRecovery &&
    match p.qualityVerifiedAt with
    | none => false
    | some verified =>
      decide (((0 : ℕ) : T) ≤ now - verified) &&
        decide (now - verified ≤ policy.freshnessSeconds)

end Path

-- Runs

/- The arguments of one call of `observe`. -/
structure Observation (T : Type) where
  now : T
  reachable : Option Bool
  confirmation : Option Confirmation
deriving DecidableEq

def Path.step (policy : Policy T) (p : Path T) (o : Observation T) : Path T :=
  p.observe policy o.now o.reachable o.confirmation

/- The path after some observations. -/
def run (policy : Policy T) (observations : List (Observation T)) : Path T :=
  observations.foldl (Path.step policy) Path.fresh

end SingboxOps.QualityFailover
