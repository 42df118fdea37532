import SingboxOps.Diag.Summary
import SingboxOps.Lib.Dict
import SingboxOps.Lib.Json.Parse
import SingboxOps.Lib.Utf8

/-
  One cycle of the failover recorder.

  A cycle polls the controller, compares what it observed with
  what the state remembers, and keeps the ledger of its codes.
  The summary of the cycle before is in the state for reasoning
  only.
-/

namespace SingboxOps.Diag

variable {F : Type} [BoundedFloat F]

-- Records

/- The collector codes, in the order of their names. -/
inductive Code where
  | connectionsInvalid
  | groupMissing
  | mihomoUnreachable
  | nodeMissing
  | proxiesInvalid
deriving DecidableEq

def Code.all : List Code := [.connectionsInvalid, .groupMissing, .mihomoUnreachable,
    .nodeMissing, .proxiesInvalid]

inductive Scope where
  | version
  | proxies
  | connections
deriving DecidableEq

/- `CODE_SCOPE` -/
def Code.scope : Code → Scope
  | .connectionsInvalid => .connections
  | .groupMissing => .proxies
  | .mihomoUnreachable => .version
  | .nodeMissing => .proxies
  | .proxiesInvalid => .proxies

inductive Status where
  | ok
  | unavailable
  | invalid
deriving DecidableEq

structure Sample where
  apiReachable : Bool
  mihomoVersion : Option PyStr
  proxiesStatus : Status
  connectionsStatus : Status
  groups : List GroupRecord
  nodes : List NodeRecord
  connectionChains : List ChainStat
  truncated : Bool
  invalidFields : ℕ
deriving DecidableEq

/- The four kinds of records. -/
inductive Body where
  | sample (s : Sample)
  | selectionChanged (group : PyStr) (old new : Option PyStr)
  | aliveFlipped (node : PyStr) (old new : Bool)
  | collector (code : Code) (scope : Scope) (count : ℕ)
deriving DecidableEq

structure Record where
  seq : ℕ
  ts : ℤ
  run : PyStr
  body : Body
deriving DecidableEq

-- The State of a Run

structure DiagState where
  run : PyStr
  seq : ℕ
  groupNow : Dict PyStr (Option PyStr)
  nodeAlive : Dict PyStr Bool
  proxiesGap : Bool
  errCounts : Dict Code ℕ
  last : Option Summary
deriving DecidableEq

/- `new_state` -/
def DiagState.start (run : PyStr) : DiagState := ⟨run, 0, [], [], false, [], none⟩

/- An answer of the transport, or a failure of it. -/
inductive Reply where
  | failed
  | answered (status : ℤ) (body : Bytes)
deriving DecidableEq

/- What the controller would answer on its three paths. -/
structure Replies where
  version : Reply
  proxies : Reply
  connections : Reply
deriving DecidableEq

structure DiagCollector where
  platform : Platform
  groups : List PyStr
  nodes : List PyStr

/- `_get`: only two exceptions of the reader are caught. -/
def getPayload (room : ℕ) : Reply → Except Escape (Except Status (Json F))
  | .failed => .ok (.error .unavailable)
  | .answered status body =>
    if status = 200 then
      match utf8Decode body with
      | none => .ok (.error .invalid)
      | some text =>
        match (Json.loads room text : Except Json.ParseError (Json F)) with
        | .ok payload => .ok (.ok payload)
        | .error .value => .ok (.error .invalid)
        | .error .recursion => .error .recursion
    else .ok (.error .unavailable)

-- Differences

/- What stands for a group that is not remembered. -/
def unset : PyStr := pyStr "__unset__"

/- One group of `_apply_diffs`. -/
def diffGroup (gap : Bool) (memory : Dict PyStr (Option PyStr))
    (g : Parsed GroupRecord) : List Body × Dict PyStr (Option PyStr) :=
  let name := g.record.name
  if g.missing || g.broken then ([], memory.pop name)
  else
    -- a node may bear the name of the sentinel
    let prev := (memory.get name).getD (some unset)
    (if !gap && decide (prev ≠ some unset) && decide (prev ≠ g.record.now) then
        [.selectionChanged name prev g.record.now]
      else [],
      memory.set name g.record.now)

def diffGroups (gap : Bool) (memory : Dict PyStr (Option PyStr)) :
    List (Parsed GroupRecord) → List Body × Dict PyStr (Option PyStr)
  | [] => ([], memory)
  | g :: rest =>
    let first := diffGroup gap memory g
    let more := diffGroups gap first.2 rest
    (first.1 ++ more.1, more.2)

/- One node of `_apply_diffs`. -/
def diffNode (gap : Bool) (memory : Dict PyStr Bool) (n : Parsed NodeRecord) : List Body × Dict PyStr Bool :=
  let name := n.record.name
  if n.missing then ([], memory.pop name)
  else
    match n.record.alive with
    | none => ([], memory.pop name)
    | some alive =>
      (match memory.get name with
        | some old =>
          if !gap && decide (old ≠ alive) then
            [.aliveFlipped name old alive]
          else []
        | none => [],
        memory.set name alive)

def diffNodes (gap : Bool) (memory : Dict PyStr Bool) : List (Parsed NodeRecord) → List Body × Dict PyStr Bool
  | [] => ([], memory)
  | n :: rest =>
    let first := diffNode gap memory n
    let more := diffNodes gap first.2 rest
    (first.1 ++ more.1, more.2)

/- `_apply_diffs` -/
def applyDiffs (s : DiagState) : Option Summary → List Body × DiagState
  | none => ([], { s with proxiesGap := true, last := none })
  | some summary =>
    let groups := diffGroups s.proxiesGap s.groupNow summary.groups
    let nodes := diffNodes s.proxiesGap s.nodeAlive summary.nodes
    (groups.1 ++ nodes.1,
      { s with
        proxiesGap := false
        groupNow := groups.2
        nodeAlive := nodes.2
        last := some summary })

-- The Cycle

/- The records of some bodies, numbered from `seq + 1`. -/
def stamp (run : PyStr) (ts : ℤ) : ℕ → List Body → List Record
  | _, [] => []
  | seq, body :: rest => ⟨seq + 1, ts, run, body⟩ :: stamp run ts (seq + 1) rest

/- The counts with one more cycle for each code present. -/
def bumpCounts (counts : Dict Code ℕ) : List Code → Dict Code ℕ
  | [] => counts
  | code :: rest => bumpCounts (counts.set code ((counts.get code).getD 0 + 1)) rest

/- `_fold_collector`: the records and the ledger. -/
def foldCollector (counts : Dict Code ℕ) (present : Code → Bool)
    (fullCycle : Bool) : List Body × Dict Code ℕ :=
  let codes := Code.all.filter present
  let bumped := bumpCounts counts codes
  (codes.map (fun code =>
      .collector code code.scope ((counts.get code).getD 0 + 1)),
    if fullCycle then bumped.filter (fun e => present e.1)
    else bumped)

def emptySample : Sample := ⟨false, none, .unavailable, .unavailable, [], [], [], false, 0⟩

/- What a cycle found behind its version. -/
structure Findings where
  summary : Option Summary
  proxiesStatus : Status
  chains : Option (List ChainStat)
  connectionsStatus : Status
  malformed : ℕ
deriving DecidableEq

/- The summary of the cycle, if there is one, and its status. -/
def readProxies (F : Type) [BoundedFloat F] (c : DiagCollector)
    (reply : Reply) : Except Escape (Option Summary × Status) :=
  if c.groups = [] then .ok (none, .unavailable)
  else do
    let payload ← getPayload (F := F) c.platform.room reply
    match payload with
    | .error status => return (none, status)
    | .ok value => do
        let summary ← parseProxiesSummary c.platform c.groups c.nodes value
        return (summary, if summary.isSome then .ok else .invalid)

def readConnections (F : Type) [BoundedFloat F] (c : DiagCollector) (watched : List PyStr)
    (reply : Reply) : Except Escape (Option (List ChainStat) × Status × ℕ) := do
  let payload ← getPayload (F := F) c.platform.room reply
  match payload with
  | .error status => return (none, status, 0)
  | .ok value => do
      let (chains, malformed) ← parseConnectionsSummary c.platform watched value
      return (chains, if chains.isSome then .ok else .invalid, malformed)

/- The codes of a full cycle. -/
def Findings.present (c : DiagCollector) (f : Findings) : Code → Bool
  | .connectionsInvalid => f.chains.isNone
  | .groupMissing => f.summary.any (fun s => s.groups.any (·.missing))
  | .mihomoUnreachable => false
  | .nodeMissing => f.summary.any (fun s => s.nodes.any (·.missing))
  | .proxiesInvalid => !c.groups.isEmpty && f.summary.isNone

def Findings.sample (version : PyStr) (f : Findings) : Sample where
  apiReachable := true
  mihomoVersion := some version
  proxiesStatus := f.proxiesStatus
  connectionsStatus := f.connectionsStatus
  groups := f.summary.elim [] (fun s => s.groups.map (·.record))
  nodes := f.summary.elim [] (fun s => s.nodes.map (·.record))
  connectionChains := f.chains.getD []
  truncated := f.summary.any (·.truncated)
  invalidFields := f.summary.elim 0 (·.invalidFields) + f.malformed

/- A cycle whose version could not be read. -/
def unreachableCycle (s : DiagState) (ts : ℤ) : DiagState × List Record :=
  let ledger := foldCollector s.errCounts (fun code => decide (code = .mihomoUnreachable)) false
  let records := stamp s.run ts s.seq (.sample emptySample :: ledger.1)
  ({ s with
      seq := s.seq + records.length
      proxiesGap := true
      errCounts := ledger.2
      last := none },
    records)

/- A full cycle. -/
def fullCycle (c : DiagCollector) (s : DiagState) (ts : ℤ) (version : PyStr)
    (f : Findings) : DiagState × List Record :=
  let diffs := applyDiffs s f.summary
  let ledger := foldCollector s.errCounts (f.present c) true
  let records := stamp s.run ts s.seq (.sample (f.sample version) :: diffs.1 ++ ledger.1)
  ({ diffs.2 with
      seq := s.seq + records.length
      errCounts := ledger.2 },
    records)

/- The version of a payload. -/
def versionOf : Except Status (Json F) → Option PyStr
  | .ok (.obj members) => safeName (member members "version")
  | _ => none

/- `DiagCollector.collect_cycle` -/
def collectCycle (F : Type) [BoundedFloat F] (c : DiagCollector) (s : DiagState) (ts : ℤ)
    (replies : Replies) : Except Escape (DiagState × List Record) := do
  let payload ← getPayload (F := F) c.platform.room replies.version
  match versionOf payload with
  | none => return unreachableCycle s ts
  | some version => do
      let (summary, proxiesStatus) ← readProxies F c replies.proxies
      let (chains, connectionsStatus, malformed) ← readConnections F c
          (summary.elim [] Summary.watched) replies.connections
      return fullCycle c s ts version ⟨summary, proxiesStatus, chains, connectionsStatus, malformed⟩

end SingboxOps.Diag
