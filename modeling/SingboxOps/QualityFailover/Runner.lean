import SingboxOps.QualityFailover.Ownership

/-
  The runner of the quality control and its daily session.

  The controller has the group as its core keeps it, others
  may write to it, and the core clears a fixed member that has
  died.  The runner sees the group only in snapshots, and a
  request it made may have been applied without an answer.
  What the core keeps beyond its shape and its fixed member,
  and what the session has seen, is there for the statements.
-/

namespace SingboxOps.QualityFailover

open Json (getItem)

variable {F : Type}

-- The Core

/-
  The groups have the shape they were configured with; `fixed`
  is empty where no member is.  `ours` says that the fixed
  member was last set by the session or adopted by it, and
  `touched` that another writer has changed something.
-/
structure Core where
  shape : Bool
  fixed : PyStr
  ours : Bool
  touched : Bool
deriving DecidableEq

inductive Change where
  | others (shape : Bool) (fixed : PyStr)
  | release
deriving DecidableEq

def Core.change (core : Core) (change : Change) : Core := match change with
  | .others shape fixed =>
    if shape = core.shape ∧ fixed = core.fixed then core
    else ⟨shape, fixed, false, true⟩
  | .release => { core with fixed := [] }

/- A request of the session is applied. -/
def Core.write (core : Core) (request : Write) : Core := match request with
  | .delete => { core with fixed := [] }
  | .put name => { core with fixed := name, ours := true }

-- Rulings

inductive RoutingMode where
  | rule
  | global
  | direct
deriving DecidableEq

/- `RoutingSnapshot`; a plain runner has no use for the mode. -/
structure Snapshot (F : Type) where
  proxies : Proxies F
  mode : RoutingMode

/- The global selector goes through the group. -/
def globalOk (proxies : Proxies F) : Bool := match getItem proxies (pyStr "GLOBAL") with
  | some (.obj globalDict) =>
    isText (getItem globalDict (pyStr "type")) (pyStr "Selector") &&
      (match getItem globalDict (pyStr "all") with
        | some (.arr items) => items.any (fun item => isText (some item) group)
        | _ => false) &&
      isText (getItem globalDict (pyStr "now")) group
  | _ => false

/- `DailyOwnership.permitted` -/
def dailyPermitted (mode : RoutingMode) : Judge F := fun owner proxies requireOuter =>
    match owner.permitted proxies false with
    | (false, owner) => (false, owner)
    | (true, owner) =>
      if requireOuter then
        match mode with
        | .rule => owner.permitted proxies true
        | .global => (globalOk proxies, owner)
        | .direct => (false, owner)
      else (true, owner)

inductive RunnerKind where
  | plain
  | daily
deriving DecidableEq

def judge (kind : RunnerKind) (mode : RoutingMode) : Judge F := match kind with
  | .plain => Owner.permitted
  | .daily => dailyPermitted mode

/- Whether a snapshot shows a change of another writer. -/
def foreign (owner : Owner) (proxies : Proxies F) : Bool :=
  match dictAt proxies outer, dictAt proxies group,
      dictAt proxies auto with
  | some _, some groupDict, some fallback =>
    !(owner.release proxies groupDict).shapeOk groupDict fallback
  | _, _, _ => true

-- The Session

/- Where the runner stands between two of its requests. -/
inductive Phase (F : Type) where
  | idle
  | read (snapshot : Snapshot F)
  | wishing (name : PyStr) (retainCurrent : Bool)
  | writing (name : PyStr)
  | closing
  | clearing
  | ended (restored reachable : Bool)

structure Session (F : Type) where
  owner : Owner
  control : Bool
  core : Core
  saw : Bool
  phase : Phase F

/- What a cycle wants of the group, by the engine's answer. -/
inductive Wish where
  | nothing
  | target (name : PyStr)
  | retain (name : PyStr)
deriving DecidableEq

/- How a request ends: applied or not, and answered or not. -/
inductive Ending where
  | acknowledged
  | lost
  | failed
deriving DecidableEq

/-
  What comes of reading the group.  The controller gives no
  answer; it gives one that raises before the owner is asked,
  with the proxies that were read until then (a daily session
  refuses a marker of another shape and a mode that changed or
  is unknown); or it gives a snapshot.
-/
inductive Reading (F : Type) where
  | unanswered
  | refused (proxies : Option (Proxies F))
  | taken (snapshot : Snapshot F)

inductive Input (F : Type) where
  | change (change : Change)
  | answer (reading : Reading F)
  | raise
  | decide (wish : Wish)
  | finish (ending : Ending)
  | enable (reading : Reading F)
  | stop

namespace Session

variable (s : Session F)

def move (phase : Phase F) : Session F := { s with phase := phase }

/- The session has read a snapshot. -/
def look (snapshot : Snapshot F) : Session F := { s with saw := s.saw || foreign s.owner snapshot.proxies }

/- Refused proxies were read, and not judged. -/
def refused (proxies : Option (Proxies F)) : Session F :=
  { s with saw := s.saw || proxies.any (foreign s.owner) }

/- A ruling on a snapshot, and whether it permits. -/
def rule (kind : RunnerKind) (snapshot : Snapshot F) (requireOuter : Bool) : Bool × Session F :=
  let ruling := judge kind snapshot.mode s.owner snapshot.proxies requireOuter
  (ruling.1, { s with owner := ruling.2 })

/- The first part of `cycle`: its snapshot, judged in control. -/
def begin (kind : RunnerKind) (snapshot : Snapshot F) : Session F :=
  let s := s.look snapshot
  if s.control then (s.rule kind snapshot true).2.move (.read snapshot)
  else s.move (.read snapshot)

/- The last part of `cycle`, up to the snapshot of `select`. -/
def deciding (kind : RunnerKind) (snapshot : Snapshot F) (wish : Wish) : Session F :=
  if s.control then
    match s.rule kind snapshot true with
    | (false, s) => s.move .idle
    | (true, s) =>
      match wish with
      | .nothing => s.move .idle
      | .target name => s.move (.wishing name false)
      | .retain name =>
        if s.owner.expected = auto then s.move (.wishing name true)
        else s.move .idle
  else s.move .idle

/- `select` up to its request -/
def selecting (kind : RunnerKind) (name : PyStr) (retainCurrent : Bool)
    (snapshot : Snapshot F) : Option Write × Session F :=
  let s := s.look snapshot
  match selectableBy (judge kind snapshot.mode) s.owner name
      snapshot.proxies retainCurrent with
  | (false, owner) => (none, { s with owner := owner }.move .idle)
  | (true, owner) =>
    (some (writeFor name), { s with owner := owner }.move (.writing name))

/- `restore` up to its request -/
def restoring (kind : RunnerKind) (snapshot : Snapshot F) : Option Write × Session F :=
  match (s.look snapshot).rule kind snapshot false with
  | (false, s) => (none, s.move (.ended false true))
  | (true, s) => (some .delete, s.move .clearing)

/- The request of `select` ends. -/
def written (name : PyStr) (ending : Ending) : Session F := match ending with
  | .failed => s.move .idle
  | .lost => { s with core := s.core.write (writeFor name) }.move .idle
  | .acknowledged =>
    { s with
      core := s.core.write (writeFor name)
      owner := (s.owner.committed name).getD s.owner }.move .idle

/- The request of `restore` ends, and the session with it. -/
def cleared (ending : Ending) : Session F := match ending with
  | .failed => s.move (.ended false false)
  | .lost => { s with core := s.core.write .delete }.move (.ended false false)
  | .acknowledged =>
    { s with
      core := s.core.write .delete
      owner := (s.owner.committed auto).getD s.owner }.move (.ended true true)

/- The enable event of a daily session. -/
def enabling (snapshot : Snapshot F) : Session F :=
  match (s.look snapshot).rule .daily snapshot true with
  | (allowed, s) => { s with control := s.control || allowed }

/- `close`, and what the session reports of it. -/
def stopping : Session F :=
  if s.control && !decide (s.owner.expected = auto) &&
      !s.owner.suspended then s.move .closing
  else s.move (.ended (!(s.control && s.owner.suspended)) true)

/- One step, and the request that it makes. -/
def step (kind : RunnerKind) (s : Session F) (input : Input F) : Option Write × Session F :=
  match input, s.phase with
  | .change change, _ => (none, { s with core := s.core.change change })
  | .answer (.refused proxies), .idle => (none, s.refused proxies)
  | .answer (.taken snapshot), .idle => (none, s.begin kind snapshot)
  | .raise, .read _ => (none, s.move .idle)
  | .decide wish, .read snapshot => (none, s.deciding kind snapshot wish)
  | .answer .unanswered, .wishing _ _ => (none, s.move .idle)
  | .answer (.refused proxies), .wishing _ _ => (none, (s.refused proxies).move .idle)
  | .answer (.taken snapshot), .wishing name retainCurrent =>
    s.selecting kind name retainCurrent snapshot
  | .finish ending, .writing name => (none, s.written name ending)
  | .enable (.refused proxies), .idle =>
    match kind with
    | .plain => (none, s)
    | .daily => (none, s.refused proxies)
  | .enable (.taken snapshot), .idle =>
    match kind with
    | .plain => (none, s)
    | .daily => (none, s.enabling snapshot)
  | .stop, .idle => (none, s.stopping)
  | .answer .unanswered, .closing => (none, s.move (.ended false false))
  | .answer (.refused _), .closing => (none, s.move (.ended false true))
  | .answer (.taken snapshot), .closing => s.restoring kind snapshot
  | .finish ending, .clearing => (none, s.cleared ending)
  | _, _ => (none, s)

/- A runner that finds the group without a fixed member. -/
def plain (names : List PyStr) (control : Bool) : Session F :=
  ⟨Owner.start names, control, ⟨true, [], false, false⟩, false, .idle⟩

/- The owner a daily session starts with. -/
def dailyOwner (names : List PyStr) (fixed : PyStr) (now : Option (Json F))
    (pin : Option PyStr) : Option Owner :=
  match pin with
  | none => if fixed = [] then some (Owner.start names) else none
  | some pin =>
    if pin ∈ names ∧ fixed = pin ∧ isText now pin = true then
      (Owner.start names).committed pin
    else none

/- `Session.start`, where it raises nothing. -/
def daily (names : List PyStr) (core : Core) (snapshot : Snapshot F)
    (pin : Option PyStr) : Option (Session F) :=
  match getItem snapshot.proxies group with
  | some (.obj groupDict) =>
    match getItem groupDict (pyStr "fixed") with
    | some (.str fixed) =>
      if fixed = [] ∨ fixed ∈ names then
        match dailyOwner names fixed
            (getItem groupDict (pyStr "now")) pin with
        | none => none
        | some owner =>
          let owner := (judge .daily snapshot.mode owner snapshot.proxies false).2
          if owner.suspended then none
          else some ⟨owner, false, core, false, .idle⟩
      else none
    | _ => none
  | _ => none

end Session

end SingboxOps.QualityFailover
