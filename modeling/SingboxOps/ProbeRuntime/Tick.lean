import Mathlib.Data.List.Dedup
import Mathlib.Data.List.Sort
import SingboxOps.Lib.Dict

/-
  The resident probe runtime.

  A tick harvests the cycles that ended, asks the vault which
  profiles are enabled and starts the cycles that are due.
  What the vault, the agents and the threads answer in one
  tick is its `Moment`.  The log keeps each start and each
  close with the cycles that ran then.
-/

namespace SingboxOps.ProbeRuntime

variable {K T : Type} [LinearOrder K] [LinearOrder T]
variable [Add T] [NatCast T]

-- The Runtime

inductive Status where
  | running
  | cycleUnavailable
  | profileUnavailable
  | paused
deriving DecidableEq

/- An open agent, with the cadence of its configuration. -/
structure Agent (T : Type) where
  cadence : T
deriving DecidableEq

/- A cycle of a profile that the pool runs. -/
structure Cycle (K : Type) where
  id : ℕ
  key : K
deriving DecidableEq

inductive Event (K : Type) where
  | started (key : K) (enabled halted : Bool) (running : List (Cycle K))
  | closed (key : K) (running : List (Cycle K))
deriving DecidableEq

structure Runtime (K T : Type) where
  leased : Bool
  agents : Dict K (Agent T)
  futures : Dict K ℕ
  due : Dict K T
  states : Dict K Status
  running : List (Cycle K)
  outcomes : Dict ℕ Bool
  submitted : ℕ
  log : List (Event K)
deriving DecidableEq

/- The runtime after `open`. -/
def Runtime.opened : Runtime K T := ⟨true, [], [], [], [], [], [], 0, []⟩

-- Moments

inductive LockAnswer where
  | free
  | held
  | broken
deriving DecidableEq

/-
  What `enabled` answers: a boolean, an exception that the
  tick handles, or another one.
-/
inductive EnabledAnswer where
  | answered (enabled : Bool)
  | refused
  | escapes
deriving DecidableEq

/- What one tick meets; a halt is a pause or a stop. -/
structure Moment (K T : Type) where
  now : T
  keys : Option (List K)
  lock : LockAnswer
  enabled : K → EnabledAnswer
  haltedClosing : K → Bool
  halted : Bool
  haltedStarting : K → Bool
  opens : K → Option (Agent T)
  submits : K → Bool
  closes : K → Bool

def Moment.allows (m : Moment K T) (key : K) : Bool := match m.enabled key with
  | .answered enabled => enabled
  | _ => false

inductive TickError where
  | notOpen
  | vault
  | locked
  | profile
  | agent
deriving DecidableEq

-- A Tick

namespace Runtime

variable (r : Runtime K T)

def setState (key : K) (status : Status) : Runtime K T := { r with states := r.states.set key status }

def note (event : Event K) : Runtime K T := { r with log := r.log ++ [event] }

/- `not future.done()` -/
def runs (id : ℕ) : Bool := r.running.any (fun c => decide (c.id = id))

def harvested (states : Dict K Status) (entry : K × ℕ) : Dict K Status :=
  if r.runs entry.2 then states
  else
    states.set entry.1 (if r.outcomes.get entry.2 = some true then .running
        else .cycleUnavailable)

/- The loop over the futures. -/
def harvest : Runtime K T :=
  { r with
    states := r.futures.foldl r.harvested r.states
    futures := r.futures.filter (fun e => r.runs e.2) }

def kept (keys : List K) (key : K) : Bool :=
  decide (key ∈ keys) || decide (key ∈ r.agents.keys) ||
    decide (key ∈ r.futures.keys)

def prune (keys : List K) : Runtime K T :=
  { r with
    states := r.states.filter (fun e => r.kept keys e.1)
    due := r.due.filter (fun e => r.kept keys e.1) }

/- The profiles that are enabled, as the vault answers. -/
def readEnabled (m : Moment K T) (r : Runtime K T) : List K → Except TickError (List K) × Runtime K T
  | [] => (.ok [], r)
  | key :: rest =>
    match m.enabled key with
    | .escapes => (.error .profile, r)
    | .refused => readEnabled m (r.setState key .profileUnavailable) rest
    | .answered enabled =>
      match readEnabled m r rest with
      | (.error error, r) => (.error error, r)
      | (.ok others, r) => (.ok (if enabled then key :: others else others), r)

/- `self._agents.pop(key).close()` -/
def popAgent (key : K) : Runtime K T := { r with agents := r.agents.pop key }.note (.closed key r.running)

/- An agent is closed unless it is wanted or runs a cycle. -/
def leaves (m : Moment K T) (enabled : List K) (key : K) : Bool :=
  (decide (key ∉ enabled) || m.haltedClosing key) && (r.futures.get key).isNone

def closeAgents (m : Moment K T) (enabled : List K)
    (r : Runtime K T) : List K → Except TickError Unit × Runtime K T
  | [] => (.ok (), r)
  | key :: rest =>
    if r.leaves m enabled key then
      if m.closes key then
        closeAgents m enabled ((r.popAgent key).setState key .paused) rest
      else (.error .agent, r.popAgent key)
    else closeAgents m enabled r rest

def dueAt (key : K) : T := (r.due.get key).getD ((0 : ℕ) : T)

/- `(self._due.get(k, 0), k)` -/
def sooner (a b : K) : Bool :=
  decide (r.dueAt a < r.dueAt b) || (decide (r.dueAt a = r.dueAt b) && decide (a ≤ b))

/- The agent of a profile, opened where there is none. -/
def agentOf (m : Moment K T) (key : K) : Option (Agent T) := match r.agents.get key with
  | some agent => some agent
  | none => m.opens key

def unavailable (now : T) (key : K) : Runtime K T :=
  { r.setState key .profileUnavailable with
    due := r.due.set key (now + ((60 : ℕ) : T)) }

/- The agent is there, and its next cycle has a time. -/
def prepared (now : T) (key : K) (agent : Agent T) : Runtime K T :=
  { r with
    agents := r.agents.set key agent
    due := r.due.set key (now + agent.cadence) }

/- `self._pool.submit(agent.run_cycle)` -/
def submit (m : Moment K T) (key : K) : Runtime K T :=
  { r with
    futures := r.futures.set key r.submitted
    running := ⟨r.submitted, key⟩ :: r.running
    submitted := r.submitted + 1 }.note (.started key (m.allows key) (m.haltedStarting key) r.running)

/- The body of the `try`; whether a cycle was started. -/
def start (m : Moment K T) (key : K) : Bool × Runtime K T := match r.agentOf m key with
  | none => (false, r.unavailable m.now key)
  | some agent =>
    let r := r.prepared m.now key agent
    if m.submits key then (true, r.submit m key)
    else (false, r.unavailable m.now key)

def startCycles (m : Moment K T) (r : Runtime K T) (available : ℕ) : List K → Runtime K T
  | [] => r
  | key :: rest =>
    if available = 0 then r
    else if (r.futures.get key).isSome ∨ m.now < r.dueAt key then
      startCycles m r available rest
    else
      match r.start m key with
      | (true, r) => startCycles m r (available - 1) rest
      | (false, r) => startCycles m r available rest

/- What a tick does while it holds the lock of the vault. -/
def locked (m : Moment K T) (keys : List K) : Except TickError Unit × Runtime K T :=
  match readEnabled m r keys with
  | (.error error, r) => (.error error, r)
  | (.ok enabled, r) =>
    match closeAgents m enabled r r.agents.keys with
    | (.error error, r) => (.error error, r)
    | (.ok (), r) =>
      if m.halted then (.ok (), r)
      else
        (.ok (), startCycles m r (2 - r.futures.length) (enabled.dedup.insertionSort
            (fun a b => r.sooner a b = true)))

def tick (m : Moment K T) : Except TickError Unit × Runtime K T :=
  if r.leased then
    match m.keys with
    | none => (.error .vault, r.harvest)
    | some keys =>
      match m.lock with
      | .held => (.error .locked, r.harvest.prune keys)
      | .broken => (.error .vault, r.harvest.prune keys)
      | .free => (r.harvest.prune keys).locked m keys
  else (.error .notOpen, r)

-- The Service

/- A cycle ends, as a thread of the pool sees it. -/
def ends (id : ℕ) (ok : Bool) : Runtime K T :=
  { r with
    running := r.running.filter (fun c => decide (c.id ≠ id))
    outcomes := r.outcomes.set id ok }

/- `self._pool.shutdown(wait=True, cancel_futures=True)` -/
def drained : Runtime K T := { r with running := [] }

def closeAll (closes : K → Bool) (r : Runtime K T) : List K → Except TickError Unit × Runtime K T
  | [] => (.ok (), { r with agents := [], leased := false })
  | key :: rest =>
    let r := r.note (.closed key r.running)
    if closes key then closeAll closes r rest
    else (.error .agent, r)

def close (closes : K → Bool) : Except TickError Unit × Runtime K T := closeAll closes r.drained r.agents.keys

end Runtime

/- The loop of `run`, until it has ended. -/
structure Service (K T : Type) where
  runtime : Runtime K T
  serving : Bool
deriving DecidableEq

def Service.opened : Service K T := ⟨Runtime.opened, true⟩

inductive Input (K T : Type) where
  | tick (moment : Moment K T)
  | ends (id : ℕ) (ok : Bool)
  | stop (closes : K → Bool)

/- A tick that raises ends the loop, and `close` follows. -/
def Service.step (s : Service K T) (input : Input K T) : Except TickError Unit × Service K T :=
  match input with
  | .ends id ok => (.ok (), { s with runtime := s.runtime.ends id ok })
  | .tick m =>
    if s.serving then
      match s.runtime.tick m with
      | (.ok (), r) => (.ok (), ⟨r, true⟩)
      | (.error error, r) => (.error error, ⟨(r.close m.closes).2, false⟩)
    else (.ok (), s)
  | .stop closes =>
    if s.serving then
      let closed := s.runtime.close closes
      (closed.1, ⟨closed.2, false⟩)
    else (.ok (), s)

end SingboxOps.ProbeRuntime
