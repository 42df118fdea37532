import SingboxOps.Lib.Dict
import SingboxOps.Lib.Op
import SingboxOps.Lib.Text
import SingboxOps.Lib.Trace

/-
  The audit file of the client helper, and the journals that
  stand in for a record until it is durable.

  A line is kept as the pieces it was put together from: the
  record of an append, or what an append cut short has left for
  the next one to be glued to.  A quote inside a value is
  escaped, so that the text `"audit_id":"..."` that is searched
  for stands in a piece for its own id, and else only where the
  record of a rejected frame holds a request id that is itself
  an object with such a member.
-/

namespace SingboxOps.AuditTrail

-- The Audit File

/-
  `request_id:generation` of a worker, with the time, process
  and random number that follow it for exports and probes, or
  the number of a connection no worker saw.
-/
inductive AuditId where
  | worker
      (requestId : PyStr)
      (generation : ℕ)
      (nonce : Option (ℕ × ℕ × ℕ))
  | conn (pid seq : ℕ)
deriving DecidableEq

/-
  What one append has left on a line: all of its record, or a
  beginning that may have its audit id in it, with the audit
  ids that members of a raw request id name.
-/
structure Piece where
  auditId : AuditId
  named : Bool
  within : List AuditId
  whole : Bool
deriving DecidableEq

abbrev Line := List Piece

/- The record of an audit id on a line of its own. -/
def record (id : AuditId) (within : List AuditId) : Line := [⟨id, true, within, true⟩]

/- The line is one record and nothing else. -/
def isObject (line : Line) : Bool := match line with
  | [p] => p.whole
  | _ => false

/- The line has the id as its own. -/
def bears (id : AuditId) (line : Line) : Bool := line.any (fun p => p.named && decide (p.auditId = id))

/- A raw request id on the line has the id in it. -/
def quotes (id : AuditId) (line : Line) : Bool := line.any (fun p => decide (id ∈ p.within))

/- `*"\"audit_id\":\"$id\""*` -/
def names (id : AuditId) (line : Line) : Bool := bears id line || quotes id line

/-
  The complete lines an `fsync` has covered and those it has
  not, and what follows the last newline.
-/
structure AuditFile where
  synced : List Line
  unsynced : List Line
  torn : Line
deriving DecidableEq

/-
  How an append ends: it is durable, it is written but not
  synced, nothing is written, or it is cut short before its
  newline, with or without its audit id.
-/
inductive Append where
  | durable
  | unsynced
  | nothing
  | short (named : Bool)
deriving DecidableEq

/- The return code of `cm_durable_append`. -/
def Append.isDurable : Append → Bool
  | durable => true
  | _ => false

namespace AuditFile

variable (f : AuditFile)

/- The complete lines. -/
def lines : List Line := f.synced ++ f.unsynced

/-
  `cat >>` and the barrier after it.  What comes lands behind
  an unfinished line; a barrier covers the whole file.
-/
def append (id : AuditId) (within : List AuditId) : Append → AuditFile
  | .durable => ⟨f.lines ++ [f.torn ++ record id within], [], []⟩
  | .unsynced => ⟨f.synced, f.unsynced ++ [f.torn ++ record id within], []⟩
  | .nothing => f
  | .short named => ⟨f.synced, f.unsynced, f.torn ++ [⟨id, named, within, false⟩]⟩

/- `cm_audit_has`: some complete line names the id. -/
def has (id : AuditId) : Bool := f.lines.any (names id)

/- The complete lines that have the id as their own. -/
def records (id : AuditId) : List Line := f.lines.filter (bears id)

/- A durable line has the id as its own. -/
def Recorded (id : AuditId) : Prop := ∃ line ∈ f.synced, bears id line = true

/- A power loss keeps what was synced and some of the rest. -/
def losePower (kept : ℕ) (torn : Line) : AuditFile := ⟨f.synced, f.unsynced.take kept, torn⟩

end AuditFile

-- Operations

/- A request that was dispatched to a worker. -/
structure Attempt where
  requestId : PyStr
  generation : ℕ
  nonce : Option (ℕ × ℕ × ℕ)
deriving DecidableEq

def Attempt.auditId (a : Attempt) : AuditId := .worker a.requestId a.generation a.nonce

/-
  The audit file, and the generation of each journal.  The
  attempts are for reasoning only.
-/
structure Trail where
  file : AuditFile
  journals : Dict PyStr ℕ
  attempts : List Attempt
deriving DecidableEq

def Trail.start : Trail := ⟨⟨[], [], []⟩, [], []⟩

namespace Trail

variable (t : Trail)

def append (id : AuditId) (within : List AuditId) (how : Append) : Trail :=
  { t with file := t.file.append id within how }

/- `cm_journal_write` -/
def setJournal (requestId : PyStr) (generation : ℕ) : Trail :=
  { t with journals := t.journals.set requestId generation }

/- `cm_journal_clear` -/
def clearJournal (requestId : PyStr) : Trail := { t with journals := t.journals.pop requestId }

def dispatch (a : Attempt) : Trail := { t with attempts := a :: t.attempts }

end Trail

abbrev Step (α : Type) := Op Empty Trail α

/- `w_audit`: it answers whether the record is there. -/
def wAudit (id : AuditId) (how : Append) : Step Bool := do
  let t ← Op.get
  if t.file.has id then return true
  else do
    Op.change (fun t => t.append id [] how)
    return how.isDurable

/- `cm_journal_clear`, whose removal may fail. -/
def journalClear (requestId : PyStr) (removed : Bool) : Step Unit :=
  if removed then Op.change (fun t => t.clearJournal requestId)
  else pure ()

/- The audit first, and only then the journal. -/
def auditThenClear (id : AuditId) (requestId : PyStr) (how : Append) (clear removed : Bool) : Step Unit := do
  let present ← wAudit id how
  if present && clear then journalClear requestId removed
  else pure ()

/-
  What a worker does about an earlier attempt of its key, as
  the ledger has its request id and generation: nothing,
  `w_finalize_original`, or a journal for an outcome that could
  not be written.
-/
inductive Earlier where
  | none
  | finalize
      (requestId : PyStr)
      (generation : ℕ)
      (how : Append)
      (removed : Bool)
  | journal (requestId : PyStr) (generation : ℕ)
deriving DecidableEq

def settleEarlier : Earlier → Step Unit
  | .none => pure ()
  | .finalize requestId generation how removed =>
    auditThenClear (.worker requestId generation .none) requestId how true removed
  | .journal requestId generation => Op.change (fun t => t.setJournal requestId generation)

/-
  A run that writes journals for its phases, or one that ends
  before its intent or is about an earlier attempt.
-/
inductive Course where
  | journalled
  | plain (earlier : Earlier)
deriving DecidableEq

/-
  A run of the worker: how its audit goes, whether it is to
  keep its journal, and whether a removal succeeds.
-/
structure Run where
  attempt : Attempt
  course : Course
  how : Append
  keep : Bool
  removed : Bool
deriving DecidableEq

/- `ok_exit` and `err_exit`; only the latter is told to keep. -/
def finish (r : Run) : Step Unit :=
  auditThenClear r.attempt.auditId r.attempt.requestId r.how (!r.keep) r.removed

def worker (r : Run) : Step Unit := do
  Op.change (fun t => t.dispatch r.attempt)
  match r.course with
  | .journalled => do
      Op.change (fun t => t.setJournal r.attempt.requestId r.attempt.generation)
      finish r
  | .plain earlier => do
      settleEarlier earlier
      finish r

/-
  How the reconciliation of a journal goes.  It is proven when
  neither it nor one before it has found the helper degraded.
-/
structure Repair where
  proven : Bool
  how : Append
  removed : Bool
deriving DecidableEq

def reconcileJournal (requestId : PyStr) (repair : Repair) : Step Unit := do
  let t ← Op.get
  match t.journals.get requestId with
  | none => pure ()
  | some generation =>
    auditThenClear (.worker requestId generation none) requestId repair.how repair.proven repair.removed

/- `_reconcile_locked`, over the journals it has listed. -/
def reconcile (repairs : PyStr → Repair) : List PyStr → Step Unit
  | [] => pure ()
  | requestId :: rest => do
      reconcileJournal requestId (repairs requestId)
      reconcile repairs rest

-- Steps

/-
  A run of the worker, the audit of a connection with the audit
  ids its raw request id has in it, a startup reconciliation, or
  a power loss.  A run can be cut: `some n` is a crash after the
  change with the number `n`.
-/
inductive Input where
  | worker (r : Run) (cut : Option ℕ)
  | connection (pid seq : ℕ) (within : List AuditId) (how : Append)
  | reconcile (repairs : PyStr → Repair) (cut : Option ℕ)
  | powerLoss (kept : ℕ) (torn : Line)

/- The state a run leaves, or a crash during it. -/
def leave (x : Step Unit) (cut : Option ℕ) (t : Trail) : Trail := match cut with
  | none => x.final t
  | some n => ((x.seen t)[n]?).getD (x.final t)

def step (t : Trail) : Input → Unit × Trail
  | .worker r cut => ((), leave (worker r) cut t)
  | .connection pid seq within how => ((), t.append (.conn pid seq) within how)
  | .reconcile repairs cut => ((), leave (reconcile repairs t.journals.keys) cut t)
  | .powerLoss kept torn => ((), { t with file := t.file.losePower kept torn })

end SingboxOps.AuditTrail
