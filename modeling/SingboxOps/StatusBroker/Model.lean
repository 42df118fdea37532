import SingboxOps.ClientManagement.Rpc
import SingboxOps.Lib.Trace
import Mathlib.Algebra.Order.Group.Defs
import Mathlib.Logic.Function.Basic

/-
  The status broker of the web adapter, thread by thread.

  A section under the mutex is one step, and so are a reading
  of the clock, the dispatch of an RPC, its end and the taking
  of a flight lock; the steps of the threads interleave in any
  order.  The status and the list are read the same way, each
  under its own lock, with its own cache and epoch.
-/

namespace SingboxOps.StatusBroker

open ClientManagement

-- The Shared State

/- The two reads that are cached. -/
inductive Lane where
  | status
  | list
deriving DecidableEq

inductive Transport where
  | fresh
  | stale
  | unavailable
deriving DecidableEq

inductive BreakerState where
  | closed
  | open
  | halfOpen
deriving DecidableEq

/- `_failures`, `_state` and `_opened_at`. -/
structure Breaker (T : Type) where
  failures : ℕ
  state : BreakerState
  openedAt : T
deriving DecidableEq

structure Config (T : Type) where
  statusTtl : T
  listTtl : T
  breakerFailures : ℕ
  breakerOpenSeconds : T

def Config.ttl {T : Type} (cfg : Config T) : Lane → T
  | .status => cfg.statusTtl
  | .list => cfg.listTtl

/-
  A cached answer; no `fetchedAt` is minus infinity.  The last
  field, the moment its RPC was dispatched, is for reasoning
  only.
-/
structure Snapshot (T F : Type) where
  payload : Json F
  fetchedAt : Option T
  fetchedWall : T
  dispatched : ℕ

/- The fields of one read, with the holder of its flight lock. -/
structure LaneState (T F ι : Type) where
  cache : Option (Snapshot T F)
  attemptedAt : Option T
  epoch : ℕ
  flight : Option ι

/- The error of a verdict the helper gave. -/
structure VerdictError (F : Type) where
  code : Json F
  stage : Option (Json F)
  retriable : Bool
  detail : Json F
  requestId : Option (Json F)

/- What a read returns; the last field is as in `Snapshot`. -/
structure Reading (T F : Type) where
  transport : Option Transport
  payload : Option (Json F)
  asOf : Option T
  verdictError : Option (VerdictError F)
  dispatched : Option ℕ

-- The Threads

/- The methods a thread calls. -/
inductive Call where
  | status (force : Bool)
  | listClients (force : Bool)
  | invalidate
  | mutate (op : PyStr)
  | requireExportReady
  | managementActive
deriving DecidableEq

/-
  A call of `status` or `list_clients`: the moment it began,
  and the moment `require_export_ready` began, if it is its.
-/
structure ReadCall where
  lane : Lane
  force : Bool
  started : ℕ
  origin : Option ℕ
deriving DecidableEq

/-
  What a read has found under its lock before its RPC: the
  epoch and the cache, whether the RPC is the half-open probe,
  and the moment and the time it was let through.
-/
structure Flight (T F : Type) where
  epoch : ℕ
  cache : Option (Snapshot T F)
  probe : Bool
  admitted : ℕ
  now : T

/- Where a thread is in `status` or `list_clients`. -/
inductive Stage (T F : Type) where
  | entered
  | peek (now : T)
  | queued
  | locked
  | gate (now : T)
  | dispatching (f : Flight T F)
  | inFlight (f : Flight T F) (dispatched : ℕ)
  | failed (f : Flight T F) (dispatched : ℕ)
  | failedAt (f : Flight T F) (dispatched : ℕ) (now : T)
  | refused (f : Flight T F) (dispatched : ℕ)
      (verdict : List (PyStr × Json F))
  | answered (f : Flight T F) (dispatched : ℕ) (verdict : Json F)
  | answeredAt (f : Flight T F) (dispatched : ℕ)
      (verdict : Json F) (now : T)
  | published

/- Where a thread is; a number is the moment its call began. -/
inductive Phase (T F : Type) where
  | idle
  | reading (r : ReadCall) (stage : Stage T F)
  | invalidating
  | mutateEntered (op : PyStr)
  | mutating (op : PyStr)
  | exportEntered (started : ℕ)
  | exporting (started : ℕ) (reading : Reading T F)
  | activeEntered (started : ℕ)
  | activeAt (started : ℕ) (now : T)

/- How an RPC ended. -/
inductive Outcome (F : Type) where
  | raised
  | verdict (v : Json F)

/- What a call gave its caller. -/
inductive Answer (T F : Type) where
  | read (r : ReadCall) (reading : Reading T F)
  | active (started : ℕ) (answer : Bool) (dispatched : Option ℕ)
  | exportReady (started : ℕ) (dispatched : Option ℕ)
  | unavailable (text : PyStr)
  | mutated (op : PyStr) (outcome : Outcome F)

/- An RPC of a read, for reasoning only. -/
structure Dispatch (T : Type) where
  lane : Lane
  force : Bool
  admitted : ℕ
  moment : ℕ
  time : T

/- How a status RPC ended and whether it was the probe. -/
structure StatusOutcome where
  failed : Bool
  probe : Bool
deriving DecidableEq

/-
  The broker, its clocks and its threads.  The last fields, from
  `moment` on, are for reasoning only; lists have the newest
  first.
-/
structure World (T F ι : Type) where
  clock : T
  wall : T
  lanes : Lane → LaneState T F ι
  breaker : Breaker T
  phase : ι → Phase T F
  moment : ℕ
  invalidations : List ℕ
  dispatches : List (Dispatch T)
  outcomes : List StatusOutcome
  answers : List (Answer T F)

variable {T F ι : Type}
variable [AddCommGroup T] [LinearOrder T] [DecidableEq ι]

/- `E3Broker.__init__` -/
def World.start (clock wall : T) : World T F ι where
  clock := clock
  wall := wall
  lanes _ := ⟨none, some 0, 0, none⟩
  breaker := ⟨0, .closed, 0⟩
  phase _ := .idle
  moment := 0
  invalidations := []
  dispatches := []
  outcomes := []
  answers := []

namespace World

variable (w : World T F ι)

def setPhase (i : ι) (p : Phase T F) : World T F ι := { w with phase := Function.update w.phase i p }

def setLane (l : Lane) (s : LaneState T F ι) : World T F ι := { w with lanes := Function.update w.lanes l s }

/- The thread goes on to a stage of its read. -/
def goto (i : ι) (r : ReadCall) (stage : Stage T F) : World T F ι := w.setPhase i (.reading r stage)

/- The flight lock is released. -/
def release (l : Lane) : World T F ι := w.setLane l { w.lanes l with flight := none }

def answer (a : Answer T F) : World T F ι := { w with answers := a :: w.answers }

/- The read returns, to its caller or to the export's gate. -/
def respond (i : ι) (r : ReadCall) (reading : Reading T F) : World T F ι := (w.setPhase i (match r.origin with
    | none => .idle
    | some started => .exporting started reading)).answer
      (.read r reading)

/- Time goes on: every step is a moment of its own. -/
def next : World T F ι := { w with moment := w.moment + 1 }

end World

-- Serving a Cache

/- `now - stamp < ttl`, where a stamp may be minus infinity. -/
def within (now : T) (stamp : Option T) (ttl : T) : Bool := match stamp with
  | some t => decide (now - t < ttl)
  | none => false

/- `_serve` -/
def serve (cache : Option (Snapshot T F)) (now ttl : T) : Transport := match cache with
  | none => .unavailable
  | some c => if within now c.fetchedAt ttl then .fresh else .stale

/- `_result` -/
def result (transport : Transport) (cache : Option (Snapshot T F)) : Reading T F := match cache with
  | none => ⟨some .unavailable, none, none, none, none⟩
  | some c =>
    ⟨some transport, some c.payload, some c.fetchedWall, none, some c.dispatched⟩

/- `self._result(STALE if cache is not None else UNAVAILABLE, cache)` -/
def fallback (cache : Option (Snapshot T F)) : Reading T F :=
  result (if cache.isSome then .stale else .unavailable) cache

/- `value is True` -/
def isTrue : Option (Json F) → Bool
  | some (.bool true) => true
  | _ => false

/- `value is False` -/
def isFalse : Option (Json F) → Bool
  | some (.bool false) => true
  | _ => false

/- The members of a verdict that says `ok: false`. -/
def helperRefusal : Json F → Option (List (PyStr × Json F))
  | .obj verdict =>
    if isFalse (Json.getItem verdict (pyStr "ok")) then some verdict
    else none
  | _ => none

/- `_verdict_error` -/
def verdictError [FloatText F] (verdict : List (PyStr × Json F)) : Reading T F :=
  let error := match Json.getItem verdict (pyStr "error") with
    | some (.obj members) => members
    | _ => []
  let code := getOr error "code" (.str (pyStr "E_INTERNAL"))
  { transport := none
    payload := none
    asOf := none
    verdictError := some
      { code := code
        stage := Json.getItem error (pyStr "stage")
        retriable := truthy (getDefault error "retriable" .null)
        detail := getOr error "detail" code
        requestId := Json.getItem verdict (pyStr "request_id") }
    dispatched := none }

-- Gates

/-
  The section of `status` under both locks: what it returns, or
  the breaker it leaves and whether its RPC is the probe.
-/
def statusGate (cfg : Config T) (w : World T F ι) (force : Bool)
    (now : T) : Except (Reading T F) (Breaker T × Bool) :=
  let lane := w.lanes .status
  if serve lane.cache now cfg.statusTtl = .fresh ∧ force = false then
    .error (result .fresh lane.cache)
  else if force = false ∧
      within now lane.attemptedAt cfg.statusTtl = true then
    .error (fallback lane.cache)
  else
    match w.breaker.state with
    | .open =>
      if now - w.breaker.openedAt < cfg.breakerOpenSeconds then
        .error (fallback lane.cache)
      else .ok ({ w.breaker with state := .halfOpen }, true)
    | .halfOpen => .error (fallback lane.cache)
    | .closed => .ok (w.breaker, false)

/- The same section of `list_clients`. -/
def listGate (cfg : Config T) (w : World T F ι) (force : Bool)
    (now : T) : Except (Reading T F) (Breaker T × Bool) :=
  let lane := w.lanes .list
  if serve lane.cache now cfg.listTtl = .fresh ∧ force = false then
    .error (result .fresh lane.cache)
  else if w.breaker.state ≠ .closed then .error (fallback lane.cache)
  else if force = false ∧
      within now lane.attemptedAt cfg.listTtl = true then
    .error (fallback lane.cache)
  else .ok (w.breaker, false)

def gate (cfg : Config T) (w : World T F ι) (r : ReadCall)
    (now : T) : Except (Reading T F) (Breaker T × Bool) :=
  match r.lane with
  | .status => statusGate cfg w r.force now
  | .list => listGate cfg w r.force now

-- Settling an RPC

/- A transport failure of `management.status`. -/
def Breaker.countFailure (cfg : Config T) (b : Breaker T) (now : T) : Breaker T :=
  if b.state = .halfOpen ∨
      cfg.breakerFailures ≤ b.failures + 1 then
    ⟨b.failures + 1, .open, now⟩
  else { b with failures := b.failures + 1 }

/- Any answer to `management.status`. -/
def Breaker.reset (b : Breaker T) : Breaker T := { b with failures := 0, state := .closed }

/- A status RPC moves the breaker; a list RPC does not. -/
def World.conclude (w : World T F ι) (l : Lane) (breaker : Breaker T)
    (outcome : StatusOutcome) : World T F ι :=
  match l with
  | .status =>
    { w with
      breaker := breaker
      outcomes := outcome :: w.outcomes }
  | .list => w

/- `if epoch == self._…_epoch: self._…_attempted_at = now` -/
def World.stamp (w : World T F ι) (l : Lane) (epoch : ℕ) (now : T) : World T F ι :=
  if epoch = (w.lanes l).epoch then
    w.setLane l { w.lanes l with attemptedAt := some now }
  else w

/- The section after an RPC that raised. -/
def settleFailed (cfg : Config T) (w : World T F ι) (i : ι) (r : ReadCall) (f : Flight T F)
    (now : T) : World T F ι :=
  ((((w.conclude r.lane (w.breaker.countFailure cfg now)
    ⟨true, f.probe⟩).stamp r.lane f.epoch now).release r.lane).respond i r (fallback f.cache))

/- The section after a verdict that says `ok: false`. -/
def settleRefused [FloatText F] (w : World T F ι) (i : ι) (r : ReadCall) (f : Flight T F)
    (verdict : List (PyStr × Json F)) : World T F ι :=
  ((((w.conclude r.lane w.breaker.reset ⟨false, f.probe⟩).stamp r.lane f.epoch w.clock).release
      r.lane).respond i r (verdictError verdict))

/- The section after any other verdict. -/
def settleAnswered (w : World T F ι)
    (i : ι) (r : ReadCall) (f : Flight T F) (dispatched : ℕ) (verdict : Json F)
    (now : T) : World T F ι :=
  let w := w.conclude r.lane w.breaker.reset ⟨false, f.probe⟩
  let lane := w.lanes r.lane
  if f.epoch = lane.epoch then
    (w.setLane r.lane
      { lane with
        attemptedAt := some now
        cache := some ⟨verdict, some now, w.wall, dispatched⟩ }).goto
      i r .published
  else (w.release r.lane).respond i r (fallback lane.cache)

-- Steps

/- The next step of `status` or `list_clients`. -/
def runRead [FloatText F] (cfg : Config T) (w : World T F ι) (i : ι) (r : ReadCall) : Stage T F → World T F ι
  | .entered => w.goto i r (.peek w.clock)
  | .peek now =>
    if serve (w.lanes r.lane).cache now (cfg.ttl r.lane) =
        .fresh ∧ r.force = false then
      w.respond i r (result .fresh (w.lanes r.lane).cache)
    else w.goto i r .queued
  | .queued =>
    match (w.lanes r.lane).flight with
    | none =>
      (w.setLane r.lane { w.lanes r.lane with flight := some i }).goto i r .locked
    | some _ => w
  | .locked => w.goto i r (.gate w.clock)
  | .gate now =>
    match gate cfg w r now with
    | .error reading => (w.release r.lane).respond i r reading
    | .ok (breaker, probe) =>
      { w with breaker := breaker }.goto i r
        (.dispatching ⟨(w.lanes r.lane).epoch, (w.lanes r.lane).cache, probe, w.moment, now⟩)
  | .dispatching f =>
    { w with
      dispatches :=
        ⟨r.lane, r.force, f.admitted, w.moment, w.clock⟩ ::
          w.dispatches }.goto i r (.inFlight f w.moment)
  | .inFlight _ _ => w
  | .failed f n =>
    match r.lane with
    | .status => w.goto i r (.failedAt f n w.clock)
    | .list => settleFailed cfg w i r f w.clock
  | .failedAt f _ now => settleFailed cfg w i r f now
  | .refused f _ verdict => settleRefused w i r f verdict
  | .answered f n verdict => w.goto i r (.answeredAt f n verdict w.clock)
  | .answeredAt f n verdict now => settleAnswered w i r f n verdict now
  | .published =>
    (w.release r.lane).respond i r (result .fresh (w.lanes r.lane).cache)

/- Both caches are made stale and both throttles opened again. -/
def LaneState.invalidate (s : LaneState T F ι) : LaneState T F ι where
  cache := s.cache.map (fun c => { c with fetchedAt := none })
  attemptedAt := none
  epoch := s.epoch + 1
  flight := s.flight

/- `invalidate_after_client_mutation` -/
def World.invalidate (w : World T F ι) : World T F ι :=
  { w with
    lanes := fun l => (w.lanes l).invalidate
    invalidations := w.moment :: w.invalidations }

def BreakerState.text : BreakerState → String
  | .closed => "closed"
  | .open => "open"
  | .halfOpen => "half-open"

/- The text of a refusal of the breaker. -/
def breakerText (s : BreakerState) (what : String) : PyStr :=
  pyStr "breaker is " ++ pyStr s.text ++ pyStr "; " ++ pyStr what ++ pyStr " not dispatched"

/- The `data` of a status envelope. -/
def statusData (payload : Json F) : Option (List (PyStr × Json F)) := match payload with
  | .obj members =>
    match Json.getItem members (pyStr "data") with
    | some (.obj data) => some data
    | _ => none
  | _ => none

/- The checks of `require_export_ready` on the fields. -/
def gateSatisfied (data : List (PyStr × Json F)) : Bool :=
  isTrue (Json.getItem data (pyStr "management_active")) && (match Json.getItem data (pyStr "helper") with
    | some (.obj helper) =>
      isFalse (Json.getItem helper (pyStr "degraded")) && (match Json.getItem helper (pyStr "reconcile") with
        | some (.str s) => decide (s = pyStr "clean")
        | _ => false)
    | _ => false) &&
    (match Json.getItem data (pyStr "lock") with
    | some (.obj lock) => isTrue (Json.getItem lock (pyStr "acquirable"))
    | _ => false)

/- What `require_export_ready` makes of a status. -/
def exportAnswer (started : ℕ) (reading : Reading T F) : Answer T F :=
  if reading.transport = some .fresh then
    match reading.payload with
    | none => .unavailable (pyStr "no fresh management.status; export refused")
    | some payload =>
      match statusData payload with
      | none => .unavailable (pyStr "fresh status has no data; export refused")
      | some data =>
        if gateSatisfied data then
          .exportReady started reading.dispatched
        else
          .unavailable (pyStr "management gate not satisfied; export refused")
  else .unavailable (pyStr "no fresh management.status; export refused")

/- `management_active`, with the cache it found. -/
def activeAnswer (cfg : Config T) (started : ℕ) (now : T) (cache : Option (Snapshot T F)) : Answer T F :=
  match cache with
  | none => .active started false none
  | some c =>
    if within now c.fetchedAt cfg.statusTtl then
      .active started (match statusData c.payload with
        | some data => isTrue (Json.getItem data (pyStr "management_active"))
        | none => false)
        (some c.dispatched)
    else .active started false none

/- The next step of a thread. -/
def runThread [FloatText F] (cfg : Config T) (w : World T F ι) (i : ι) : World T F ι :=
  match w.phase i with
  | .idle => w
  | .reading r stage => runRead cfg w i r stage
  | .invalidating => w.invalidate.setPhase i .idle
  | .mutateEntered op =>
    if w.breaker.state ≠ .closed then
      (w.setPhase i .idle).answer (.unavailable (breakerText w.breaker.state "mutation"))
    else w.setPhase i (.mutating op)
  | .mutating _ => w
  | .exportEntered started =>
    if w.breaker.state ≠ .closed then
      (w.setPhase i .idle).answer (.unavailable (breakerText w.breaker.state "export"))
    else w.goto i ⟨.status, false, w.moment, some started⟩ .entered
  | .exporting started reading => (w.setPhase i .idle).answer (exportAnswer started reading)
  | .activeEntered started => w.setPhase i (.activeAt started w.clock)
  | .activeAt started now =>
    (w.setPhase i .idle).answer (activeAnswer cfg started now (w.lanes .status).cache)

/- A call begins. -/
def Call.enter (moment : ℕ) : Call → Phase T F
  | .status force => .reading ⟨.status, force, moment, none⟩ .entered
  | .listClients force => .reading ⟨.list, force, moment, none⟩ .entered
  | .invalidate => .invalidating
  | .mutate op => .mutateEntered op
  | .requireExportReady => .exportEntered moment
  | .managementActive => .activeEntered moment

/- An RPC ends. -/
def endRpc (w : World T F ι) (i : ι) (o : Outcome F) : World T F ι := match w.phase i with
  | .reading r (.inFlight f n) =>
    match o with
    | .raised => w.goto i r (.failed f n)
    | .verdict v =>
      match helperRefusal v with
      | some verdict => w.goto i r (.refused f n verdict)
      | none => w.goto i r (.answered f n v)
  | .mutating op => (w.setPhase i .idle).answer (.mutated op o)
  | _ => w

/- What happens next. -/
inductive Input (T F ι : Type) where
  | call (i : ι) (c : Call)
  | run (i : ι)
  | rpc (i : ι) (o : Outcome F)
  | tick (clock wall : T)

def act [FloatText F] (cfg : Config T) (w : World T F ι) : Input T F ι → World T F ι
  | .call i c =>
    match w.phase i with
    | .idle => w.setPhase i (c.enter w.moment)
    | _ => w
  | .run i => runThread cfg w i
  | .rpc i o => endRpc w i o
  | .tick clock wall =>
    -- the monotonic clock does not go back, the other one may
    if w.clock ≤ clock then { w with clock := clock, wall := wall }
    else w

/- One step. -/
def step [FloatText F] (cfg : Config T) (w : World T F ι) (i : Input T F ι) : Unit × World T F ι :=
  ((), (act cfg w i).next)

end SingboxOps.StatusBroker
