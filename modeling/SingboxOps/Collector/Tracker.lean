import SingboxOps.Lib.BoundedFloat
import SingboxOps.Lib.Dict
import SingboxOps.Lib.Text

/-
  The lifecycle accumulator of the collector.

  A batch is taken apart into moves, one for each event and
  one for each lifecycle a reset abandons.  The rates, the
  addresses and the other display fields of a connection take
  no part in the accounting and are left out.
-/

namespace SingboxOps.Collector

open PyFloat

-- Events

/- The two API directions, counted alike. -/
inductive Direction where
  | uplink
  | downlink
deriving DecidableEq

/- A (user, inbound) pair as an event spells it. -/
abbrev Key := Option PyStr × Option PyStr

/-
  The Connection of an event.  A counter that is zero may be
  missing; `other` tells that a display field is there.
-/
structure Fields (F : Type) where
  id : Option PyStr
  user : Option PyStr
  inbound : Option PyStr
  closedAt : F
  total : Direction → Option ℕ
  other : Bool

inductive EventType where
  | new
  | update
  | closed
  | unknown
deriving DecidableEq

structure Event (F : Type) where
  type : EventType
  id : Option PyStr
  connection : Option (Fields F)
  delta : Direction → ℕ
  closedAt : F

/- A batch; an event that is no dict is `none`. -/
structure Batch (F : Type) where
  reset : Bool
  events : List (Option (Event F))

variable {F : Type} [PyFloat F]

/- A text that is there and not empty. -/
def truthy : Option PyStr → Bool
  | some (_ :: _) => true
  | _ => false

/- No Connection, as an empty dict. -/
def Fields.empty : Fields F := ⟨none, none, none, round 0, fun _ => none, false⟩

/- The dict has a member. -/
def Fields.isEmpty (f : Fields F) : Bool := f.id.isNone && f.user.isNone && f.inbound.isNone &&
    (f.total .uplink).isNone && (f.total .downlink).isNone &&
    !f.other

def Event.fields (e : Event F) : Fields F := e.connection.getD Fields.empty

def Fields.rowIdentity (f : Fields F) : Key := (f.user, f.inbound)

/- `float(fields.get("..._total", 0))` -/
def Fields.amount (f : Fields F) (d : Direction) : F := round (((f.total d).getD 0 : ℕ) : ℚ)

/- The timestamp is missing or zero. -/
def isZero (x : F) : Bool := decide (toRat x = 0)

/- Milliseconds are told from seconds by their size. -/
def toSeconds (x : F) : F := if 10 ^ 11 < toRat x then round (toRat x / 1000) else x

/- `a or b` of two timestamps. -/
def orElse (a b : F) : F := if isZero a then b else a

/- `max(a, b)` -/
def pyMax (a b : F) : F := if toRat a < toRat b then b else a

-- States

/- A lifecycle. -/
structure Conn (F : Type) where
  key : Key
  closedAt : F
  total : Direction → F

inductive RecordState where
  | closed
  | abandoned
deriving DecidableEq

/- The accounting record of a banked lifecycle. -/
structure Record (F : Type) where
  key : Key
  total : Direction → F
  state : RecordState

/-
  The tracker.  `evicted` is for reasoning only: it holds
  what the replay guard has forgotten, and nothing reads it.
-/
structure Tracker (F : Type) where
  closedTtl : F
  bankedIdCap : ℕ
  active : Dict PyStr (Conn F)
  closed : Dict PyStr (Conn F)
  finalized : Dict Key (Direction → F)
  bankedIds : Dict PyStr (Record F)
  evicted : List (PyStr × Record F)
  devices : List (Option PyStr)
  batchCount : ℕ
  skippedEvents : ℕ
  duplicateEvents : ℕ
  identityConflicts : ℕ
  abandonedOnReset : ℕ

/- A tracker that has seen nothing. -/
def Tracker.start (closedTtl : F) (bankedIdCap : ℕ) : Tracker F where
  closedTtl := closedTtl
  bankedIdCap := bankedIdCap
  active := []
  closed := []
  finalized := []
  bankedIds := []
  evicted := []
  devices := []
  batchCount := 0
  skippedEvents := 0
  duplicateEvents := 0
  identityConflicts := 0
  abandonedOnReset := 0

namespace Tracker

variable (t : Tracker F)

def skip : Tracker F := { t with skippedEvents := t.skippedEvents + 1 }

def duplicate : Tracker F := { t with duplicateEvents := t.duplicateEvents + 1 }

def conflict : Tracker F := { t with identityConflicts := t.identityConflicts + 1 }

def addDevice (user : Option PyStr) : Tracker F :=
  { t with
    devices :=
      if user ∈ t.devices then t.devices
      else t.devices ++ [user] }

-- Banking

/- `finalized.setdefault(key, {0.0, 0.0})` -/
def slot (key : Key) : Direction → F := (t.finalized.get key).getD (fun _ => round 0)

def bank (key : Key) (total : Direction → F) : Tracker F :=
  let slot := t.slot key
  { t with
    finalized := t.finalized.set key
      (fun d => add (slot d) (toRat (total d))) }

/- `max(0.0, slot - x)` -/
def cutOff (slot x : F) : F :=
  let rest := sub slot (toRat x)
  if 0 < toRat rest then rest else round 0

def unbank (key : Key) (total : Direction → F) : Tracker F :=
  let slot := t.slot key
  { t with
    finalized := t.finalized.set key
      (fun d => cutOff (slot d) (total d)) }

/- The latest record goes last; the oldest are forgotten. -/
def recordBanked (cid : PyStr) (r : Record F) : Tracker F :=
  let records := t.bankedIds.pop cid ++ [(cid, r)]
  let excess := records.length - t.bankedIdCap
  { t with
    bankedIds := records.drop excess
    evicted := t.evicted ++ records.take excess }

def dropBanked (cid : PyStr) : Tracker F := { t with bankedIds := t.bankedIds.pop cid }

/- Drop a record and un-bank what it holds. -/
def release (cid : PyStr) (r : Record F) : Tracker F := (t.dropBanked cid).unbank r.key r.total

/- Bank totals and register them for the replay guard. -/
def book (cid : PyStr) (r : Record F) : Tracker F := (t.bank r.key r.total).recordBanked cid r

/-
  An event may proceed unless it names another identity than
  the lifecycle's.
-/
def mayProceed (current incoming : Key) : Bool := !(truthy incoming.1 && truthy incoming.2) ||
    decide (incoming = current)

/- Close a lifecycle: bank it, then show it. -/
def finalize (cid : PyStr) (conn : Conn F) (now closedAt : F) : Tracker F :=
  let conn := { conn with
    closedAt := orElse (toSeconds closedAt) (orElse conn.closedAt now) }
  let t := t.book cid ⟨conn.key, conn.total, .closed⟩
  { t with closed := t.closed.set cid conn }

-- Rows

/- A new lifecycle of an id. -/
def newConnection (key : Key) (f : Fields F) : Conn F := ⟨key, round 0, f.amount⟩

/- A connection announced as active. -/
def upsertActive (cid : PyStr) (f : Fields F) : Tracker F := match t.active.get cid with
  | some existing =>
    if !mayProceed existing.key f.rowIdentity then t.conflict
    else
      -- the same lifecycle: values replaced, not added
      { t with
        active := t.active.set cid
          { existing with
            total := fun d => pyMax (existing.total d) (f.amount d) } }
  | none =>
    let display := t.closed.get cid
    let banked := t.bankedIds.get cid
    let source : Option Key := (display.map Conn.key).or (banked.map Record.key)
    if source.any (fun k => decide (k ≠ f.rowIdentity)) then t.conflict
    else
      let t := { t with closed := t.closed.pop cid }
      let conn := newConnection f.rowIdentity f
      match banked with
      | none => ({ t with active := t.active.set cid conn }).addDevice f.user
      | some r =>
        let t := t.release cid r
        -- the recorded totals are carried as a floor
        let conn := { conn with
          total := fun d => pyMax (r.total d) (conn.total d) }
        ({ t with active := t.active.set cid conn }).addDevice f.user

/- A closed connection announced as new. -/
def recordClosedRow (cid : PyStr) (f : Fields F) (now closedAt : F) : Tracker F :=
  let key := f.rowIdentity
  let t := t.addDevice f.user
  match t.bankedIds.get cid with
  | some r =>
    if r.key ≠ key then t.conflict
    else
      let t := t.duplicate
      if r.state = .abandoned then
        -- the final values replace the lower bound
        let original := { newConnection key f with
          closedAt := orElse closedAt now }
        (t.release cid r).finalize cid original now original.closedAt
      else t
  | none =>
    if (t.closed.get cid).isSome then t.duplicate
    else
      match t.active.get cid with
      | some conn =>
        let conn := { conn with
          total := fun d => pyMax (conn.total d) (f.amount d) }
        ({ t with active := t.active.pop cid }).finalize cid
          conn now closedAt
      | none =>
        let conn := { newConnection key f with
          closedAt := orElse closedAt now }
        t.finalize cid conn now conn.closedAt

-- Events

def applyNew (e : Event F) (now : F) : Tracker F :=
  let f := e.fields
  let closedAt := toSeconds f.closedAt
  if !isZero closedAt then
    t.recordClosedRow (e.id.getD []) f now closedAt
  else
    match e.id with
    | some (c :: rest) =>
      if !truthy f.user || !truthy f.inbound then t.skip
      else t.upsertActive (c :: rest) f
    | _ => t.skip

/- The totals after an UPDATE: replaced, or the deltas added. -/
def updatedTotal (e : Event F) (old : Direction → F) (d : Direction) : F :=
  let f := e.fields
  if (f.total .uplink).isSome || (f.total .downlink).isSome then
    if (f.total d).isSome then pyMax (old d) (f.amount d)
    else old d
  else add (old d) (toRat (round (e.delta d : ℚ) : F))

def applyUpdate (e : Event F) : Tracker F :=
  let f := e.fields
  match e.id.bind t.active.get, e.id with
  | some conn, some cid =>
    if !f.isEmpty && !mayProceed conn.key f.rowIdentity then t.conflict
    else
      { t with
        active := t.active.set cid
          { conn with total := updatedTotal e conn.total } }
  | _, _ => t.skip

/- The totals a CLOSED event leaves an active lifecycle with. -/
def closedTotal (f : Fields F) (old : Direction → F) (d : Direction) : F :=
  if (f.total d).isSome then pyMax (old d) (f.amount d)
  else old d

def closeActive (cid : PyStr) (conn : Conn F) (e : Event F) (now : F) : Tracker F :=
  let f := e.fields
  let t := { t with active := t.active.pop cid }
  let closedAt := orElse e.closedAt f.closedAt
  if f.isEmpty then t.finalize cid conn now closedAt
  else if mayProceed conn.key f.rowIdentity then
    t.finalize cid { conn with total := closedTotal f conn.total } now closedAt
  else t.conflict.finalize cid conn now closedAt

def applyClosed (e : Event F) (now : F) : Tracker F :=
  let f := e.fields
  match e.id with
  | none => t.skip
  | some cid =>
    match t.active.get cid with
    | some conn => t.closeActive cid conn e now
    | none =>
      match t.bankedIds.get cid with
      | some r =>
        if r.state = .closed then t.duplicate
        else if f.isEmpty then t
        else if r.key ≠ f.rowIdentity then t.conflict
        else
          let final := { newConnection r.key f with
            closedAt := orElse (toSeconds e.closedAt)
              (orElse (toSeconds f.closedAt) now) }
          (t.release cid r).finalize cid final now final.closedAt
      | none =>
        if (t.closed.get cid).isSome then t.duplicate
        else t.skip

def applyEvent (e : Option (Event F)) (now : F) : Tracker F := match e with
  | none => t.skip
  | some e =>
    match e.type with
    | .new => t.applyNew e now
    | .update => t.applyUpdate e
    | .closed => t.applyClosed e now
    | .unknown => t.skip

/- The id of a row: the event's, or its Connection's. -/
def rowId (e : Event F) : Option PyStr := if truthy e.id then e.id else e.fields.id

/- The row of a reset batch, with an id and an identity. -/
def rowOf (e : Option (Event F)) : Option (PyStr × Fields F) := match e with
  | none => none
  | some e =>
    match rowId e with
    | some (c :: rest) =>
      if truthy e.fields.user && truthy e.fields.inbound then
        some (c :: rest, e.fields)
      else none
    | _ => none

def applyRow (e : Option (Event F)) (now : F) : Tracker F := match rowOf e with
  | none => t.skip
  | some (cid, f) =>
    let closedAt := toSeconds f.closedAt
    if !isZero closedAt then t.recordClosedRow cid f now closedAt
    else t.upsertActive cid f

/- Bank the last known totals of a lifecycle a reset dropped. -/
def abandon (cid : PyStr) : Tracker F := match t.active.get cid with
  | none => t
  | some conn =>
    ({ t with
      active := t.active.pop cid
      abandonedOnReset := t.abandonedOnReset + 1 }).book cid ⟨conn.key, conn.total, .abandoned⟩

/- Forget the shown connections that closed long ago. -/
def prune (now : F) : Tracker F :=
  { t with
    closed := t.closed.filter (fun c =>
      !decide (toRat t.closedTtl < toRat (sub now (toRat (toSeconds c.2.closedAt))))) }

end Tracker

-- Calls

/- One step of a call. -/
inductive Move (F : Type) where
  | skip
  | begin
  | event (e : Option (Event F)) (now : F)
  | row (e : Option (Event F)) (now : F)
  | abandon (cid : PyStr)
  | prune (now : F)

def move (t : Tracker F) : Move F → Tracker F
  | .skip => t.skip
  | .begin => { t with batchCount := t.batchCount + 1 }
  | .event e now => t.applyEvent e now
  | .row e now => t.applyRow e now
  | .abandon cid => t.abandon cid
  | .prune now => t.prune now

/- Make some moves one after the other. -/
def moves (t : Tracker F) (ms : List (Move F)) : Tracker F := ms.foldl move t

/-
  A call: `apply_batch`, of a batch or of something that is
  no dict, or `snapshot`.
-/
inductive Call (F : Type) where
  | applyBatch (batch : Option (Batch F)) (now : F)
  | snapshot (now : F)

/- The rows of a reset, then what they left out. -/
def resetMoves (t : Tracker F) (events : List (Option (Event F))) (now : F) : List (Move F) :=
  let rows := events.map (fun e => Move.row e now)
  let seen := events.filterMap (fun e => (Tracker.rowOf e).map Prod.fst)
  let gone := (moves t rows).active.keys.filter (fun cid => !seen.contains cid)
  rows ++ gone.map Move.abandon

/- What a call does, step by step. -/
def movesOf (t : Tracker F) : Call F → List (Move F)
  | .applyBatch none _ => [.skip]
  | .applyBatch (some b) now =>
    if b.reset then .begin :: resetMoves (move t .begin) b.events now
    else if b.events.isEmpty then []
    else .begin :: b.events.map (fun e => Move.event e now)
  | .snapshot now => [.prune now]

def applyCall (t : Tracker F) (c : Call F) : Tracker F := moves t (movesOf t c)

/- All steps of a sequence of calls. -/
def expand (t : Tracker F) : List (Call F) → List (Move F)
  | [] => []
  | c :: rest => movesOf t c ++ expand (applyCall t c) rest

theorem moves_expand (t : Tracker F)
    (calls : List (Call F)) : moves t (expand t calls) = calls.foldl applyCall t := by
  induction calls generalizing t with
  | nil => rfl
  | cons c rest ih =>
    rw [expand, moves, List.foldl_append, List.foldl_cons]
    exact ih (applyCall t c)

-- Displayed Totals

/- `round(x, 3)` -/
def roundThousandths (x : F) : F := round ((roundHalfEven (toRat x * 1000) : ℚ) / 1000)

/- `sum(xs, 0.0)`, from the left. -/
def floatSum (xs : List F) : F := xs.foldl (fun a x => add a (toRat x)) (round 0)

/- The active lifecycles with some of the keys. -/
def activeTotals (t : Tracker F) (p : Key → Bool) (d : Direction) : List F :=
  (t.active.filter (fun c => p c.2.key)).map (fun c => c.2.total d)

/- The total a snapshot shows for a (user, inbound). -/
def protocolTotal (t : Tracker F) (key : Key) (d : Direction) : F := roundThousandths
    (add (floatSum (activeTotals t (fun k => k == key) d)) (toRat (t.slot key d)))

/-
  The (user, inbound) pairs a snapshot lists for a user: of
  the active, the shown closed and the banked lifecycles.
-/
def protocolKeys (t : Tracker F) (user : Option PyStr) : List Key :=
  let all := t.active.map (fun c => c.2.key) ++ t.closed.map (fun c => c.2.key) ++ t.finalized.keys
  (((all.filter (fun k => k.1 == user)).map Prod.snd).dedup
    |>.insertionSort (fun a b => a.getD [] ≤ b.getD [])).map
    (fun inbound => (user, inbound))

/- The total a snapshot shows for a device. -/
def deviceTotal (t : Tracker F) (user : Option PyStr) (d : Direction) : F :=
  roundThousandths (add (floatSum (activeTotals t (fun k => k.1 == user) d))
      (toRat (floatSum ((protocolKeys t user).map (fun key => t.slot key d)))))

end SingboxOps.Collector
