import SingboxOps.Lib.BoundedFloat
import SingboxOps.QualityFailover.Budget
import SingboxOps.QualityFailover.Engine
import SingboxOps.QualityFailover.Ownership

/-
  The cycle of the runner over foreign answers.

  The controller and the probe endpoint answer with any JSON,
  with something else or not at all.  Times and rates are
  taken as exact; what the date parser makes of a text and the
  digest of a payload are parameters.
-/

namespace SingboxOps.QualityFailover.Telemetry

open Json (getItem natText)

variable {F : Type}

-- The Controller

inductive Raised where
  | os
  | timeout
  | uploadTimeout
  | http
  | value
  | overflow
  | type
deriving DecidableEq

/- `OSError`, `ValueError` and `HTTPException` are. -/
def Raised.caught : Raised → Bool
  | .overflow | .type => false
  | _ => true

/- How a connection fails. -/
inductive Fault where
  | os
  | timeout
  | http
deriving DecidableEq

def Fault.raised : Fault → Raised
  | .os => .os
  | .timeout => .timeout
  | .http => .http

/- `refused` is a bad status or size, or no JSON. -/
inductive Answered (F : Type) where
  | fault (f : Fault)
  | refused
  | empty
  | json (value : Json F)

/- `Controller.request` -/
def request (a : Answered F) : Except Raised (Json F) := match a with
  | .fault f => .error f.raised
  | .refused => .error .value
  | .empty => .ok (.obj [])
  | .json value => .ok value

/- `Controller.proxies` -/
def proxiesOf (a : Answered F) : Except Raised (Proxies F) := match request a with
  | .error e => .error e
  | .ok (.obj members) =>
    match getItem members (pyStr "proxies") with
    | some (.obj proxies) => .ok proxies
    | _ => .error .value
  | .ok _ => .error .value

/- `name in items` -/
def holds (items : List (Json F)) (name : PyStr) : Bool := items.any (fun item => isText (some item) name)

/- The arguments of `confirm_route`. -/
structure Route where
  name : PyStr
  inbound : PyStr
  sourcePort : ℕ
  host : PyStr
  remotePort : ℕ

def Route.chained (r : Route) (chains : Option (Json F)) : Bool := match chains with
  | some (.arr items) =>
    holds items r.name && !nodes.any (fun node => decide (node ≠ r.name) && holds items node)
  | _ => false

/- What a row adds to `matched`, unless it is no dictionary. -/
def Route.row (r : Route) (row : Json F) : Option (List Bool) := match row with
  | .obj members =>
    match (getItem members (pyStr "metadata")).getD (.obj []) with
    | .obj metadata =>
      let has := fun key => isText (getItem metadata (pyStr key))
      if has "sourceIP" (pyStr "127.0.0.1") &&
          has "sourcePort" (natText r.sourcePort) then
        some [has "inboundName" r.inbound && has "destinationIP" r.host &&
          has "destinationPort" (natText r.remotePort) &&
          has "specialProxy" r.name &&
          r.chained (getItem members (pyStr "chains"))]
      else some []
    | _ => some []
  | _ => none

def Route.rows (r : Route) : List (Json F) → Option (List Bool)
  | [] => some []
  | row :: rest =>
    match r.row row with
    | none => none
    | some found => (r.rows rest).map (found ++ ·)

/- `Controller.confirm_route` -/
def confirmRoute (r : Route) (a : Answered F) : Except Raised Bool := match request a with
  | .error e => .error e
  | .ok (.obj members) =>
    match getItem members (pyStr "connections") with
    | some (.arr rows) => .ok (decide (rows.length ≤ 4096 ∧ r.rows rows = some [true]))
    | _ => .ok false
  | .ok _ => .ok false

-- Reachability

section Floats

variable [BoundedFloat F]

/- `number`: `math.isfinite` raises beyond every float. -/
def number (value : Option (Json F)) (low high : ℚ) : Except Raised Bool := match value with
  | some (.int n) =>
    match (floatOfInt? n : Option F) with
    | none => .error .overflow
    | some _ => .ok (decide (InRange n low high))
  | some (.float (.finite x)) => .ok (decide (InRange (PyFloat.toRat x) low high))
  | _ => .ok false

/- The value of a finite number. -/
def quantity (value : Option (Json F)) : ℚ := match value with
  | some (.int n) => n
  | some (.float (.finite x)) => PyFloat.toRat x
  | _ => 0

/- `text.replace("Z", "+00:00")` -/
def offsetText (text : PyStr) : PyStr := text.flatMap (fun c => if c = 90 then pyStr "+00:00" else [c])

/-
  `alive`; `timestamp` is of a text with an offset that the
  date parser reads, and everything raised is caught.
-/
def alive (timestamp : PyStr → Option ℚ) (node : Option (Json F)) (now freshness : ℚ) : Option Bool :=
  match node with
  | some (.obj members) =>
    match getItem members (pyStr "alive"),
        getItem members (pyStr "history") with
    | some (.bool up), some (.arr history) =>
      if 100 < history.length then none
      else
        match history.getLast? with
        | some (.obj item) =>
          match getItem item (pyStr "time") with
          | some (.str text) =>
            match timestamp (offsetText text) with
            | none => none
            | some seen =>
              let delay := getItem item (pyStr "delay")
              if InRange (now - seen) 0 freshness then
                match number delay 0 120000 with
                | .ok true => some (up && decide (0 < quantity delay))
                | _ => none
              else none
          | _ => none
        | _ => none
    | _, _ => none
  | _ => none

end Floats

-- Passive Suspicion

/- The connections through each node, and their uploads. -/
structure Sample where
  current : PyStr → List PyStr := fun _ => []
  uploads : PyStr → Option ℤ := fun _ => none

def Sample.add (s : Sample) (id : PyStr) (chains : List (Json F)) (upload : Option (Json F)) : Sample where
  current node :=
    if holds chains node then (s.current node).insert id
    else s.current node
  uploads := match upload with
    | some (.int n) =>
      if 0 ≤ n ∧ n ≤ 2 ^ 63 - 1 then
        Function.update s.uploads id (some n)
      else s.uploads
    | _ => s.uploads

/- The connection of an own probe. -/
def probing (item : Proxies F) : Bool := match getItem item (pyStr "metadata") with
  | some (.obj metadata) =>
    match getItem metadata (pyStr "inboundName") with
    | some (.str inbound) => (pyStr "quality-probe-").isPrefixOf inbound
    | _ => false
  | _ => false

/- The loop over the connections; `none` where it gives up. -/
def sample : List (Json F) → Sample → Option Sample
  | [], s => some s
  | .obj item :: rest, s =>
    match getItem item (pyStr "id"), getItem item (pyStr "chains") with
    | some (.str id), some (.arr chains) =>
      if 128 < id.length then none
      else if probing item then sample rest s
      else
        sample rest (s.add id chains (getItem item (pyStr "upload")))
    | _, _ => none
  | _ :: _, _ => none

structure Passive where
  previous : Option (PyStr → List PyStr) := none
  uploads : PyStr → Option ℤ := fun _ => none
  previousAt : Option ℚ := none
  rates : PyStr → List ℚ := fun _ => []
  drops : PyStr → ℕ := fun _ => 0

namespace Passive

variable (p : Passive)

/- Connections of the node have gone, and others have come. -/
def churned (threshold : ℕ) (s : Sample) (node : PyStr) : Bool := match p.previous with
  | none => false
  | some previous =>
    decide (threshold ≤ ((previous node).diff (s.current node)).length ∧
      threshold ≤ ((s.current node).diff (previous node)).length)

/- The bytes of the connections that are still there. -/
def deltas (s : Sample) (node : PyStr) : List ℤ := match p.previous with
  | none => []
  | some previous =>
    ((s.current node).filter (· ∈ previous node)).filterMap (fun id =>
        match s.uploads id, p.uploads id with
        | some now, some before => if before ≤ now then some (now - before) else none
        | _, _ => none)

/- The rate of a node, where the clock has moved. -/
def rate (s : Sample) (now : ℚ) (node : PyStr) : Option ℚ := match p.previousAt, p.deltas s node with
  | some before, d :: ds => some ((d :: ds).sum * 8 / (now - before) / 10 ^ 6)
  | _, _ => none

/- It is far below what was sustained before. -/
def slow (failMbps : ℚ) (node : PyStr) (rate : ℚ) : Bool :=
  decide (rate < failMbps / 2 ∧ (p.rates node).length = 3) &&
    (p.rates node).any (fun r => decide (failMbps ≤ r))

def moved (now : ℚ) : Bool := match p.previousAt with
  | none => false
  | some before => decide (before < now)

/- The drops and the rates of a node after a sample. -/
def next (failMbps : ℚ) (s : Sample) (now : ℚ) (node : PyStr) : ℕ × List ℚ :=
  if p.moved now then
    match p.rate s now node with
    | none => (0, [])
    | some rate =>
      (if p.slow failMbps node rate then p.drops node + 1 else 0,
        (p.rates node ++ [rate]).drop ((p.rates node).length - 2))
  else (p.drops node, p.rates node)

def dropped (failMbps : ℚ) (s : Sample) (now : ℚ) (node : PyStr) : Bool :=
  p.moved now && decide (2 ≤ (p.next failMbps s now node).1)

/- `Passive.suspicion` over the lanes of the engine. -/
def suspicion (threshold : ℕ) (lanes : List (Lane ℚ)) (payload : Json F) (now : ℚ) : List PyStr × Passive :=
  let unknown := ([], { p with previous := none })
  match payload with
  | .obj members =>
    match getItem members (pyStr "connections") with
    | some (.arr items) =>
      if 4096 < items.length then unknown
      else
        match sample items {} with
        | none => unknown
        | some s =>
          let limit := fun node =>
            ((lanes.find? (fun l => decide (l.name = node))).map
              (fun l => l.policy.failMbps)).getD 0
          let after := fun node => p.next (limit node) s now node
          ((lanes.map Lane.name).filter (fun node =>
              p.churned threshold s node || p.dropped (limit node) s now node),
            ⟨some s.current, s.uploads, some now, fun node => (after node).2, fun node => (after node).1⟩)
    | _ => unknown
  | _ => unknown

end Passive

-- Probes

structure Probe where
  host : PyStr
  port : ℕ
  size : ℕ
  rate : ℚ

/-
  What comes of an upload: `lost` says whether it had started
  and whether the deadline had passed, and `refused` is a bad
  status, size or time, or no JSON.
-/
inductive Served (F : Type) where
  | unreachable (f : Fault)
  | lost (f : Fault) (started expired : Bool)
  | refused
  | receipt (value : Json F)

/- One request of a probe, with what the verifier is told. -/
structure Attempt (F : Type) where
  sourcePort : ℕ
  route : Answered F
  nonce : PyStr
  served : Served F

def receiptKeys : List PyStr := [pyStr "v", pyStr "nonce", pyStr "bytes", pyStr "sha256",
    pyStr "measured_bytes", pyStr "upload_seconds"]

def isInt (value : Option (Json F)) (n : ℤ) : Bool := match value with
  | some (.int m) => decide (m = n)
  | _ => false

/-
  The two measures of a receipt that is the expected one but
  for its seconds.
-/
def measures (digest nonce : PyStr) (size : ℕ) (receipt : Json F) : Option (ℤ × Option (Json F)) :=
  match receipt with
  | .obj members =>
    let keys := members.map Prod.fst
    if keys.all (· ∈ receiptKeys) && receiptKeys.all (· ∈ keys) &&
        isInt (getItem members (pyStr "v")) 1 &&
        isText (getItem members (pyStr "nonce")) nonce &&
        isInt (getItem members (pyStr "bytes")) size &&
        isText (getItem members (pyStr "sha256")) digest then
      match getItem members (pyStr "measured_bytes") with
      | some (.int measured) =>
        if (if size = 0 then measured = 0
            else (size : ℤ) - 8192 ≤ measured ∧ measured < size) then
          some (measured, getItem members (pyStr "upload_seconds"))
        else none
      | _ => none
    else none
  | _ => none

/- The float `.000001` -/
def micro : ℚ := 4722366482869645 / 4722366482869645213696

/- The bounds of the seconds. -/
def bounds (size : ℕ) : ℚ × ℚ := if size = 0 then (0, 0) else (micro, 15)

section Floats

variable [BoundedFloat F] (digest : ℕ → PyStr)

/- The check of a receipt, and the rate it confirms. -/
def receiptRate (p : Probe) (size : ℕ) (nonce : PyStr) (receipt : Json F) : Except Raised ℚ :=
  match measures (digest size) nonce size receipt with
  | none => .error .value
  | some (measured, seconds) =>
    match number seconds (bounds size).1 (bounds size).2 with
    | .error e => .error e
    | .ok false => .error .value
    | .ok true =>
      .ok (if size = 0 then 0
        else min p.rate (measured * 8 / quantity seconds / 10 ^ 6))

/- `Probe.request` with a payload of this size -/
def Probe.request (p : Probe) (size : ℕ) (name inbound : PyStr) (a : Attempt F) : Except Raised ℚ :=
  let verified := confirmRoute ⟨name, inbound, a.sourcePort, p.host, p.port⟩ a.route
  match a.served, verified with
  | .unreachable f, _ => .error f.raised
  | _, .error e => .error e
  | _, .ok false => .error .value
  | .lost f started expired, _ =>
    if started ∧ size ≠ 0 ∧ (expired ∨ f = .timeout) then
      .error .uploadTimeout
    else .error f.raised
  | .refused, _ => .error .value
  | .receipt value, _ => receiptRate digest p size a.nonce value

/- `Confirmation()` -/
def unconfirmed : Confirmation := ⟨.none, .bool false, .bool false⟩

/- `Probe.measure` -/
def Probe.measure (p : Probe) (name inbound : PyStr)
    (ready upload : Attempt F) : Except Raised Confirmation :=
  match p.request digest 0 name inbound ready with
  | .error e => if e.caught then .ok unconfirmed else .error e
  | .ok _ =>
    match p.request digest p.size name inbound upload with
    | .ok mbps =>
      .ok (if mbps ≤ 0 then unconfirmed
        else ⟨.number mbps, .bool false, .bool true⟩)
    | .error e =>
      if e = .uploadTimeout then .ok ⟨.none, .bool true, .bool true⟩
      else if e.caught then .ok unconfirmed
      else .error e

end Floats

-- The Cycle

structure Settings where
  control : Bool
  confirm : Bool
  churn : ℕ
  budget : Budget ℚ
  probe : PyStr → Probe
  timestamp : PyStr → Option ℚ
  digest : ℕ → PyStr

structure State where
  engine : Engine ℚ
  owner : Owner
  passive : Passive := {}
  budget : BudgetState ℚ PyStr := {}
  offset : ℕ := 0

/- `Runner.__init__` -/
def State.start (policies : Policies ℚ) : State where
  engine := Engine.start policies
  owner := Owner.start (policies.val.map Prod.fst)

/- What a cycle meets at one path. -/
structure Turn (F : Type) where
  wall : ℚ
  reservedAt : ℚ
  ready : Attempt F
  upload : Attempt F
  wallAfter : ℚ

/- The answers to a cycle and its clocks. -/
structure Input (F : Type) where
  proxies : Answered F
  connections : Answered F
  sampledAt : ℚ
  turns : PyStr → Turn F
  updatedAt : ℚ
  targetAt : ℚ
  selectProxies : Answered F
  selectWrite : Answered F
  failedAt : ℚ

inductive Action where
  | observe
  | controlSuspended
  | manualOverride
  | selected
  | retainedCurrent
deriving DecidableEq

structure Report where
  paths : Summary
  action : Action
  suggested : Option PyStr
  owned : PyStr

/- What a cycle knows when it comes to the paths. -/
structure Known (F : Type) where
  proxies : Proxies F
  suspect : List PyStr
  currentBad : Bool

def currentBad (e : Engine ℚ) (current : Option PyStr) : Bool := match current.bind e.lane with
  | none => false
  | some lane => decide (lane.path.state = .degraded ∨ lane.path.state = .down)

variable (cfg : Settings)

/- The owner looks at the proxies where it has control. -/
def recognized (s : State) (proxies : Proxies F) : Owner :=
  if cfg.control then (s.owner.permitted proxies true).2 else s.owner

/- The cycle up to its paths. -/
def begin (s : State) (i : Input F) : Except Raised (Known F) × State := match proxiesOf i.proxies with
  | .error e => (.error e, s)
  | .ok proxies =>
    let s := { s with owner := recognized cfg s proxies }
    match request i.connections with
    | .error e => (.error e, s)
    | .ok payload =>
      let found := s.passive.suspicion cfg.churn s.engine.lanes payload i.sampledAt
      let s := { s with passive := found.2 }
      match keyOf (s.owner.effective proxies) with
      | .error _ => (.error .type, s)
      | .ok current =>
        (.ok ⟨proxies, found.1, currentBad s.engine current⟩,
          { s with offset := (s.offset + 1) % s.engine.lanes.length })

section Floats

variable [BoundedFloat F]

def aliveAt (proxies : Proxies F) (lane : Lane ℚ) (now : ℚ) : Option Bool :=
  alive cfg.timestamp (getItem proxies lane.name) now lane.policy.freshnessSeconds

/- The reachability of a path and its probe, if one is due. -/
def probeLane (k : Known F) (i : Input F) (inbound : PyStr) (budget : BudgetState ℚ PyStr)
    (lane : Lane ℚ) : Except Raised (Option Confirmation) × BudgetState ℚ PyStr :=
  let turn := i.turns lane.name
  let probe := cfg.probe lane.name
  let testing := cfg.confirm || decide (lane.name ∈ k.suspect) ||
      decide (0 < lane.path.bad) || lane.path.needsRecovery ||
      k.currentBad
  if aliveAt cfg k.proxies lane turn.wall = some true ∧ testing then
    match cfg.budget.reserve budget
        ⟨lane.name, probe.size, turn.reservedAt⟩ with
    | (false, budget) => (.ok none, budget)
    | (true, budget) =>
      match probe.measure cfg.digest lane.name inbound turn.ready
          turn.upload with
      | .error e => (.error e, budget)
      | .ok c => (.ok (some c), budget)
  else (.ok none, budget)

def valueOf : Option Bool → Value
  | none => .none
  | some b => .bool b

/- What is observed, unless the record has expired since. -/
def observed (k : Known F) (i : Input F) (lane : Lane ℚ) (c : Option Confirmation) : Observed :=
  if aliveAt cfg k.proxies lane (i.turns lane.name).wallAfter = none then
    ⟨.none, none⟩
  else
    ⟨valueOf (aliveAt cfg k.proxies lane (i.turns lane.name).wall), c⟩

def inboundOf (e : Engine ℚ) (name : PyStr) : PyStr :=
  pyStr "quality-probe-" ++ natText ((e.lanes.map Lane.name).idxOf name)

/- The loop over the paths, with the second look. -/
def probeLanes (e : Engine ℚ) (k : Known F) (i : Input F) (order : List (Lane ℚ))
    (budget : BudgetState ℚ PyStr) :
    Except Raised (Dict PyStr Observed) × BudgetState ℚ PyStr :=
  match order with
  | [] => (.ok [], budget)
  | lane :: rest =>
    match probeLane cfg k i (inboundOf e lane.name) budget lane with
    | (.error e, budget) => (.error e, budget)
    | (.ok c, budget) =>
      match probeLanes e k i rest budget with
      | (.error e, budget) => (.error e, budget)
      | (.ok others, budget) => (.ok ((lane.name, observed cfg k i lane c) :: others), budget)

/- `Controller.select`, and what is said of it. -/
def selecting (s : State) (i : Input F) (name : PyStr) (retain : Bool)
    (action : Action) : Except Raised Action × State :=
  match proxiesOf i.selectProxies with
  | .error e => (.error e, s)
  | .ok proxies =>
    let answered := request i.selectWrite
    let answer := match answered with
      | .ok _ => .acknowledged
      | .error _ => .failed
    match select s.owner name proxies retain answer with
    | (reply, owner) =>
      let s := { s with owner := owner }
      match reply.returned, answered with
      | .ok true, _ => (.ok action, s)
      | .ok false, _ => (.ok .controlSuspended, s)
      | .error _, .error e => (.error e, s)
      | .error _, .ok _ => (.error .value, s)

def upCurrent (s : State) (current : Option PyStr) : Option PyStr :=
  match current.bind s.engine.lane with
  | some lane =>
    if lane.path.state = .up ∧ s.owner.expected = auto then
      some lane.name
    else none
  | none => none

/- The rest of a cycle once the engine is updated. -/
def decided (s : State) (i : Input F) (proxies : Proxies F)
    (paths : Summary) : Except Raised Report × State :=
  let current := s.owner.effective proxies
  match keyOf current, s.engine.target i.targetAt current with
  | .ok key, .ok desired =>
    let permitted := s.owner.permitted proxies true
    let s := if cfg.control then { s with owner := permitted.2 } else s
    let acted : Except Raised Action × State :=
      if ¬ cfg.control then (.ok .observe, s)
      else if ¬ permitted.1 then
        (.ok (if s.owner.suspended then .controlSuspended
          else .manualOverride), s)
      else
        match desired, upCurrent s key with
        | some name, _ => selecting s i name false .selected
        | none, some name => selecting s i name true .retainedCurrent
        | none, none => (.ok .observe, s)
    match acted with
    | (.error e, s) => (.error e, s)
    | (.ok action, s) => (.ok ⟨paths, action, desired, s.owner.expected⟩, s)
  | _, _ => (.error .type, s)

/- `Runner.cycle` -/
def cycle (s : State) (i : Input F) : Except Raised Report × State :=
  let order := s.engine.lanes.rotate s.offset
  match begin cfg s i with
  | (.error e, s) => (.error e, s)
  | (.ok k, s) =>
    match probeLanes cfg s.engine k i order s.budget with
    | (.error e, budget) => (.error e, { s with budget := budget })
    | (.ok observations, budget) =>
      match s.engine.update ⟨.number i.updatedAt, observations⟩ with
      | (.error _, _) => (.error .value, { s with budget := budget })
      | (.ok paths, e) =>
        decided cfg { s with budget := budget, engine := e } i k.proxies
          paths

-- The Loop

/- The line a cycle prints. -/
inductive Printed where
  | summary (r : Report)
  | unavailable

/- The body of the loop of `run`; an error is not caught. -/
def turn (s : State) (i : Input F) : Except Raised Printed × State := match cycle cfg s i with
  | (.ok r, s) => (.ok (.summary r), s)
  | (.error e, s) =>
    if e.caught then
      match s.engine.update ⟨.number i.failedAt, []⟩ with
      | (.error _, _) => (.error .value, s)
      | (.ok _, e) => (.ok .unavailable, { s with engine := e })
    else (.error e, s)

/- `run`: the lines it prints, and what ends it. -/
def runLoop (s : State) (inputs : List (Input F)) : List Printed × Option Raised := match inputs with
  | [] => ([], none)
  | i :: rest =>
    match turn cfg s i with
    | (.error e, _) => ([], some e)
    | (.ok line, s) =>
      let others := runLoop s rest
      (line :: others.1, others.2)

end Floats

end SingboxOps.QualityFailover.Telemetry
