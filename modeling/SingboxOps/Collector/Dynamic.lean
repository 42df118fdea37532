import SingboxOps.Lib.Dict
import SingboxOps.Lib.Op
import SingboxOps.Lib.Text
import SingboxOps.Lib.Trace
import Mathlib.Data.List.Dedup

/-
  The collector over events of any values.

  An event is a dict of whatever was decoded, so that a missing
  member, a wrong type and a value no dictionary takes as a key
  can raise where the source reads it.  The totals and the rates
  never decide whether something raises and are left out; a
  time is exact, and an integer no float can hold is left out.
-/

namespace SingboxOps.DynamicCollector

-- Values

inductive PyError where
  | typeError
  | valueError
  | keyError
deriving DecidableEq

inductive Number where
  | finite (q : ℚ)
  | infinite (negative : Bool)
  | nan
deriving DecidableEq

/-
  A decoded value, up to Python's `==`: a bool and an integer are
  numbers.  A container is a list, a dict or anything else that
  has no hash.
-/
inductive Value (C : Type) where
  | none
  | number (x : Number)
  | text (s : PyStr)
  | container (c : C)
deriving DecidableEq

/- What the language says of containers and of `float(text)`. -/
class Objects (C : Type) where
  truthy : C → Bool
  parseFloat : PyStr → Option Number

def Number.truthy : Number → Bool
  | .finite q => decide (q ≠ 0)
  | _ => true

/- `a < b` -/
def Number.lt : Number → Number → Bool
  | .finite a, .finite b => decide (a < b)
  | .finite _, .infinite negative => !negative
  | .infinite negative, .finite _ => negative
  | .infinite a, .infinite b => a && !b
  | _, _ => false

/- `a or b` -/
def Number.orElse (a b : Number) : Number := if a.truthy then a else b

/- The seconds of a timestamp that may be in milliseconds. -/
def Number.seconds : Number → Number
  | .finite q => .finite (if 10 ^ 11 < q then q / 1000 else q)
  | x => x

namespace Value

variable {C : Type} [Objects C]

def truthy : Value C → Bool
  | none => false
  | number x => x.truthy
  | text s => !s.isEmpty
  | container c => Objects.truthy c

def hashable : Value C → Bool
  | container _ => false
  | _ => true

def isText : Value C → Bool
  | text _ => true
  | _ => false

def isNumber : Value C → Bool
  | number _ => true
  | _ => false

end Value

variable {C : Type} [DecidableEq C] [Objects C]

/- `float(value)` -/
def floatOf : Value C → Except PyError Number
  | .number x => .ok x
  | .text s =>
    match Objects.parseFloat C s with
    | some x => .ok x
    | none => .error .valueError
  | _ => .error .typeError

/- `_to_seconds` -/
def toSeconds (v : Value C) : Except PyError Number :=
  if v.truthy then (floatOf v).map Number.seconds
  else .ok (.finite 0)

/- `d.get(key)`, of a member that may be missing. -/
def value (member : Option (Value C)) : Value C := member.getD .none

/- `float(d.get(key, 0))` -/
def amount (member : Option (Value C)) : Except PyError Number := floatOf (member.getD (.number (.finite 0)))

-- Events

/- The Connection of an event, by the members that are read. -/
structure Row (C : Type) where
  id : Option (Value C)
  user : Option (Value C)
  inbound : Option (Value C)
  closedAt : Option (Value C)
  createdAt : Option (Value C)
  source : Option (Value C)
  uplinkTotal : Option (Value C)
  downlinkTotal : Option (Value C)
  other : Bool

/- An event; a Connection that is no dict is none. -/
structure Event (C : Type) where
  type : Option (Value C)
  id : Option (Value C)
  closedAt : Option (Value C)
  uplinkDelta : Option (Value C)
  downlinkDelta : Option (Value C)
  connection : Option (Row C)

/- A batch; an event that is no dict is `none`. -/
structure Batch (C : Type) where
  reset : Bool
  events : List (Option (Event C))

def Row.empty : Row C := ⟨none, none, none, none, none, none, none, none, false⟩

def Row.isEmpty (f : Row C) : Bool := f.id.isNone && f.user.isNone && f.inbound.isNone &&
    f.closedAt.isNone && f.createdAt.isNone && f.source.isNone &&
    f.uplinkTotal.isNone && f.downlinkTotal.isNone && !f.other

def Event.fields (e : Event C) : Row C := e.connection.getD Row.empty

/- `_row_identity` -/
def Row.identity (f : Row C) : Value C × Value C := (value f.user, value f.inbound)

/- Both parts of the identity are there. -/
def Row.named (f : Row C) : Bool := (value f.user).truthy && (value f.inbound).truthy

/- The two totals are read. -/
def Row.totals (f : Row C) : Except PyError Unit := do
  let _ ← amount f.uplinkTotal
  let _ ← amount f.downlinkTotal
  return ()

-- The Tracker

/- A lifecycle. -/
structure Conn (C : Type) where
  user : Value C
  inbound : Value C
  createdAt : Number
  closedAt : Number
  lastSeen : Number
  source : Value C

/- The accounting record of a banked lifecycle. -/
structure Record (C : Type) where
  user : Value C
  inbound : Value C
  abandoned : Bool

structure Tracker (C : Type) where
  closedTtl : ℚ
  bankedIdCap : ℕ
  active : Dict (Value C) (Conn C)
  closed : Dict (Value C) (Conn C)
  finalized : List (Value C × Value C)
  bankedIds : Dict (Value C) (Record C)
  devices : List (Value C)
  batchCount : ℕ
  skippedEvents : ℕ
  duplicateEvents : ℕ
  identityConflicts : ℕ
  abandonedOnReset : ℕ

def Tracker.start (closedTtl : ℚ) (bankedIdCap : ℕ) : Tracker C :=
  ⟨closedTtl, bankedIdCap, [], [], [], [], [], 0, 0, 0, 0, 0⟩

namespace Tracker

variable (t : Tracker C)

def skip : Tracker C := { t with skippedEvents := t.skippedEvents + 1 }

def duplicate : Tracker C := { t with duplicateEvents := t.duplicateEvents + 1 }

def conflict : Tracker C := { t with identityConflicts := t.identityConflicts + 1 }

def addDevice (user : Value C) : Tracker C :=
  { t with
    devices :=
      if user ∈ t.devices then t.devices
      else t.devices ++ [user] }

def addSlot (key : Value C × Value C) : Tracker C :=
  { t with
    finalized :=
      if key ∈ t.finalized then t.finalized
      else t.finalized ++ [key] }

def setActive (cid : Value C) (conn : Conn C) : Tracker C := { t with active := t.active.set cid conn }

def popActive (cid : Value C) : Tracker C := { t with active := t.active.pop cid }

def setClosed (cid : Value C) (conn : Conn C) : Tracker C := { t with closed := t.closed.set cid conn }

/- A display row and a banked record are taken out. -/
def popClosed (cid : Value C) : Tracker C := { t with closed := t.closed.pop cid }

def popBanked (cid : Value C) : Tracker C := { t with bankedIds := t.bankedIds.pop cid }

/- The latest record goes last; the oldest are forgotten. -/
def setBanked (cid : Value C) (r : Record C) : Tracker C :=
  let records := t.bankedIds.pop cid ++ [(cid, r)]
  { t with bankedIds := records.drop (records.length - t.bankedIdCap) }

end Tracker

abbrev Step (C α : Type) := Op PyError (Tracker C) α

/- The value is used as a key. -/
def hash (v : Value C) : Step C Unit := Op.ensure v.hashable .typeError

/- `_bank` and `_unbank` up to the totals. -/
def slot (user inbound : Value C) : Step C Unit := do
  Op.ensure (user.hashable && inbound.hashable) .typeError
  Op.change (fun t => t.addSlot (user, inbound))

/- `_record_banked` -/
def recordBanked (cid : Value C) (r : Record C) : Step C Unit := do
  hash cid
  Op.change (fun t => t.setBanked cid r)

/- `_identity_conflict`: the event names no other identity. -/
def mayProceed (conn : Conn C) (f : Row C) : Bool :=
  !f.named || decide (f.identity = (conn.user, conn.inbound))

/- `_new_connection` -/
def newConnection (key : Value C × Value C) (f : Row C) (now : Number) : Except PyError (Conn C) := do
  let created ← toSeconds (value f.createdAt)
  f.totals
  return ⟨key.1, key.2, created.orElse now, .finite 0, now, f.source.getD (.text [])⟩

/- `_finalize` -/
def finalize (cid : Value C) (conn : Conn C) (now : Number) (closedAt : Value C) : Step C Unit := do
  let closed ← Op.ofExcept (toSeconds closedAt)
  slot conn.user conn.inbound
  recordBanked cid ⟨conn.user, conn.inbound, false⟩
  Op.change (fun t => t.setClosed cid
    { conn with
      closedAt := closed.orElse (conn.closedAt.orElse now)
      lastSeen := now })

/- A new lifecycle that is closed already. -/
def finalizeNew (cid : Value C) (key : Value C × Value C) (f : Row C)
    (now closedAt : Number) : Step C Unit := do
  let conn ← Op.ofExcept (newConnection key f now)
  finalize cid { conn with closedAt := closedAt.orElse now } now
    (.number (closedAt.orElse now))

/- `self.devices.add(user)` -/
def addDevice (user : Value C) : Step C Unit := do
  hash user
  Op.change (fun t => t.addDevice user)

/- `_unbank_record` of a record that was taken out, if any. -/
def unbank (carried : Option (Record C)) : Step C Unit := match carried with
  | some r => slot r.user r.inbound
  | none => pure ()

/- The part of `_upsert_active` for an id that is not active. -/
def reopen (cid : Value C) (f : Row C) (now : Number) (display : Option (Conn C))
    (carried : Option (Record C)) : Step C Unit := do
  Op.change (fun t => (t.popClosed cid).popBanked cid)
  let user ← Op.ofExcept (f.user.elim (.error .keyError) .ok)
  let inbound ← Op.ofExcept (f.inbound.elim (.error .keyError) .ok)
  let conn ← Op.ofExcept (newConnection (user, inbound) f now)
  unbank carried
  let created := match display with
    | some d => d.createdAt.orElse conn.createdAt
    | none => conn.createdAt
  Op.change (fun t => t.setActive cid { conn with createdAt := created })
  addDevice conn.user

/- `_upsert_active` -/
def upsertActive (cid : Value C) (f : Row C) (now : Number) : Step C Unit := do
  hash cid
  let t ← Op.get
  match t.active.get cid with
  | some existing =>
    if mayProceed existing f then do
      Op.ofExcept f.totals
      Op.change (fun t => t.setActive cid { existing with lastSeen := now })
    else
      Op.change (fun t => (t.setActive cid { existing with lastSeen := now }).conflict)
  | none =>
    let display := t.closed.get cid
    let carried := t.bankedIds.get cid
    let source := (display.map (fun c => (c.user, c.inbound))).or (carried.map (fun r => (r.user, r.inbound)))
    if source.any (fun key => decide (key ≠ f.identity)) then
      Op.change Tracker.conflict
    else reopen cid f now display carried

/- `_record_closed_row` -/
def recordClosedRow (cid : Value C) (f : Row C) (now closedAt : Number) : Step C Unit := do
  addDevice f.identity.1
  hash cid
  let t ← Op.get
  match t.bankedIds.get cid with
  | some r =>
    if (r.user, r.inbound) ≠ f.identity then Op.change Tracker.conflict
    else do
      Op.change Tracker.duplicate
      if r.abandoned then do
        -- the final values replace the lower bound
        Op.change (fun t => t.popBanked cid)
        slot r.user r.inbound
        finalizeNew cid f.identity f now closedAt
      else pure ()
  | none =>
    if (t.closed.get cid).isSome then Op.change Tracker.duplicate
    else
      match t.active.get cid with
      | some conn => do
          Op.change (fun t => t.popActive cid)
          Op.ofExcept f.totals
          finalize cid conn now (.number closedAt)
      | none => finalizeNew cid f.identity f now closedAt

-- Batches

def applyNew (e : Event C) (now : Number) : Step C Unit := do
  let f := e.fields
  let closedAt ← Op.ofExcept (toSeconds (value f.closedAt))
  if closedAt.truthy then
    recordClosedRow (if (value e.id).truthy then value e.id else .text []) f now closedAt
  else if !(value e.id).truthy then Op.change Tracker.skip
  else if !f.named then Op.change Tracker.skip
  else upsertActive (value e.id) f now

def applyUpdate (e : Event C) (now : Number) : Step C Unit := do
  let f := e.fields
  hash (value e.id)
  let t ← Op.get
  match t.active.get (value e.id) with
  | none => Op.change Tracker.skip
  | some conn =>
    if mayProceed conn f then do
      let _ ← Op.ofExcept (amount e.uplinkDelta)
      let _ ← Op.ofExcept (amount e.downlinkDelta)
      Op.ofExcept f.totals
      Op.change (fun t => t.setActive (value e.id) { conn with lastSeen := now })
    else
      Op.change (fun t =>
        (t.setActive (value e.id) { conn with lastSeen := now }).conflict)

/- The totals of a CLOSED, unless it names another identity. -/
def closingTotals (conn : Conn C) (f : Row C) : Step C Unit :=
  if mayProceed conn f then Op.ofExcept f.totals
  else Op.change Tracker.conflict

/- The CLOSED of an active lifecycle. -/
def closeActive (e : Event C) (now : Number) (conn : Conn C) : Step C Unit := do
  let f := e.fields
  Op.change (fun t => t.popActive (value e.id))
  closingTotals conn f
  finalize (value e.id) conn now (if (value e.closedAt).truthy then value e.closedAt
    else value f.closedAt)

/- The CLOSED of an abandoned lifecycle. -/
def closeAbandoned (e : Event C) (now : Number) (r : Record C) : Step C Unit := do
  let f := e.fields
  Op.change (fun t => t.popBanked (value e.id))
  slot r.user r.inbound
  let conn ← Op.ofExcept (newConnection (r.user, r.inbound) f now)
  let first ← Op.ofExcept (toSeconds (value e.closedAt))
  let second ← Op.ofExcept (
    if first.truthy then .ok first
    else toSeconds (value f.closedAt))
  finalize (value e.id) { conn with closedAt := second.orElse now } now
    (.number (second.orElse now))

def applyClosed (e : Event C) (now : Number) : Step C Unit := do
  let f := e.fields
  hash (value e.id)
  let t ← Op.get
  match t.active.get (value e.id) with
  | some conn => closeActive e now conn
  | none =>
    match t.bankedIds.get (value e.id) with
    | some r =>
      if !r.abandoned then Op.change Tracker.duplicate
      else if f.isEmpty then pure ()
      else if (r.user, r.inbound) ≠ f.identity then
        Op.change Tracker.conflict
      else closeAbandoned e now r
    | none =>
      if (t.closed.get (value e.id)).isSome then
        Op.change Tracker.duplicate
      else Op.change Tracker.skip

inductive EventType where
  | new
  | update
  | closed
  | unknown
deriving DecidableEq

def Event.kind (e : Event C) : EventType :=
  if value e.type = .text (pyStr "NEW") then .new
  else if value e.type = .text (pyStr "UPDATE") then .update
  else if value e.type = .text (pyStr "CLOSED") then .closed
  else .unknown

/- `_apply_event` -/
def applyEvent (event : Option (Event C)) (now : Number) : Step C Unit := match event with
  | none => Op.change Tracker.skip
  | some e =>
    match e.kind with
    | .new => applyNew e now
    | .update => applyUpdate e now
    | .closed => applyClosed e now
    | .unknown => Op.change Tracker.skip

/- The id of a row: the event's, or its Connection's. -/
def Event.rowId (e : Event C) : Value C :=
  if (value e.id).truthy then value e.id else value e.fields.id

/- A row that has an id and an identity. -/
def takeRow (cid : Value C) (f : Row C) (now : Number) : Step C Unit := do
  let closedAt ← Op.ofExcept (toSeconds (value f.closedAt))
  if closedAt.truthy then recordClosedRow cid f now closedAt
  else upsertActive cid f now

/- A row of a reset batch; it answers the id it has seen. -/
def applyRow (event : Option (Event C)) (now : Number) : Step C (Option (Value C)) := match event with
  | none => do
      Op.change Tracker.skip
      return none
  | some e =>
    if !e.rowId.truthy || !e.fields.named then do
      Op.change Tracker.skip
      return none
    else do
      hash e.rowId
      takeRow e.rowId e.fields now
      return some e.rowId

def applyRows (now : Number) : List (Option (Event C)) → Step C (List (Value C))
  | [] => pure []
  | e :: rest => do
      let seen ← applyRow e now
      let more ← applyRows now rest
      return seen.toList ++ more

/- Bank what a reset has dropped. -/
def abandonAll : List (Value C) → Step C Unit
  | [] => pure ()
  | cid :: rest => do
      let t ← Op.get
      match t.active.get cid with
      | none => abandonAll rest
      | some conn => do
          Op.change (fun t =>
            { t.popActive cid with
              abandonedOnReset := t.abandonedOnReset + 1 })
          slot conn.user conn.inbound
          recordBanked cid ⟨conn.user, conn.inbound, true⟩
          abandonAll rest

def applyEvents (now : Number) : List (Option (Event C)) → Step C Unit
  | [] => pure ()
  | e :: rest => do
      applyEvent e now
      applyEvents now rest

/- `_apply_reset` -/
def applyReset (events : List (Option (Event C))) (now : Number) : Step C Unit := do
  let seen ← applyRows now events
  let t ← Op.get
  abandonAll (t.active.keys.filter (fun cid => !seen.contains cid))

/- `apply_batch`, of a batch or of something that is no dict. -/
def applyBatch (batch : Option (Batch C)) (now : Number) : Step C Unit := match batch with
  | none => Op.change Tracker.skip
  | some b =>
    if b.events.isEmpty && !b.reset then pure ()
    else do
      Op.change (fun t => { t with batchCount := t.batchCount + 1 })
      if b.reset then applyReset b.events now
      else applyEvents now b.events

-- Snapshots

/- `datetime` has the seconds: they are of the years 1 to 9999. -/
def Number.showable : Number → Bool
  | .finite q => decide (-62135596800 ≤ q) && decide (q < 253402300800)
  | _ => false

/- `_iso` -/
def iso (x : Number) : Except PyError Unit :=
  if x.showable then .ok () else .error .valueError

/- `_iso_or_none` -/
def isoOrNone (x : Number) : Except PyError Unit :=
  if x.seconds.truthy then iso x.seconds else .ok ()

/- `sorted(set)`: a single element is not compared. -/
def sortable (xs : List (Value C)) : Bool := xs.all Value.hashable &&
    (decide (xs.dedup.length ≤ 1) || xs.all Value.isText || xs.all Value.isNumber)

def sorted (xs : List (Value C)) : Except PyError Unit :=
  if sortable xs then .ok () else .error .typeError

/- `max(xs)` of a list that is not empty. -/
def pyMax (x : Number) (xs : List Number) : Number := xs.foldl (fun a b => if a.lt b then b else a) x

/- A closed connection is no longer shown. -/
def expired (closedTtl : ℚ) (now closedAt : Number) : Bool := match now, closedAt.seconds with
  | .finite n, .finite c => decide (closedTtl < n - c)
  | .finite _, .infinite negative => negative
  | .infinite false, .finite _ => true
  | .infinite false, .infinite true => true
  | _, _ => false

def Tracker.prune (t : Tracker C) (now : Number) : Tracker C :=
  { t with
    closed := t.closed.filter
      (fun c => !expired t.closedTtl now c.2.closedAt) }

/- The closed connections, the newest first. -/
def newestFirst (conns : List (Conn C)) : List (Conn C) :=
  conns.mergeSort (fun a b => !a.closedAt.lt b.closedAt)

/- One device of a snapshot. -/
def showDevice (t : Tracker C) (name : Value C) : Except PyError Unit := do
  let active := (t.active.map Prod.snd).filter (fun c => decide (c.user = name))
  let closed := (t.closed.map Prod.snd).filter (fun c => decide (c.user = name))
  sorted ((active ++ closed).map Conn.inbound ++ (t.finalized.filter
      (fun key => decide (key.1 = name))).map Prod.snd)
  sorted (((active ++ closed).map Conn.source).filter Value.truthy)
  match (active ++ closed).map Conn.lastSeen with
  | [] => .ok ()
  | x :: xs => iso (pyMax x xs)
  ((newestFirst closed).take 512).forM (fun c => iso c.closedAt)

/- A flat row of a snapshot. -/
def showRow (c : Conn C) : Except PyError Unit := do
  isoOrNone c.createdAt
  isoOrNone c.closedAt

/- The device names of a tracker. -/
def Tracker.names (t : Tracker C) : List (Value C) :=
  t.devices ++ (t.active.map (fun c => c.2.user)) ++ (t.closed.map (fun c => c.2.user))

/- `snapshot`, by the names it shows. -/
def snapshot (tracker : Tracker C) (now : Number) : Except PyError (List (Value C)) := do
  let t := tracker.prune now
  sorted t.names
  t.names.dedup.forM (showDevice t)
  (t.active.map Prod.snd).forM showRow
  ((newestFirst (t.closed.map Prod.snd)).take 200).forM showRow
  return t.names.dedup

/- A call of the tracker. -/
inductive Call (C : Type) where
  | applyBatch (batch : Option (Batch C)) (now : Number)
  | snapshot (now : Number)

/- The state a call leaves, whether it raises or not. -/
def step (t : Tracker C) : Call C → Unit × Tracker C
  | .applyBatch batch now => ((), (DynamicCollector.applyBatch batch now).final t)
  | .snapshot now => ((), t.prune now)

end SingboxOps.DynamicCollector
