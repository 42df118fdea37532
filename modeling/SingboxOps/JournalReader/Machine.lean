import SingboxOps.JournalIngest.Exchange
import SingboxOps.Lib.Dict
import SingboxOps.Lib.Trace

/-
  The journal reader: its durable state, the exchange files it
  writes, and what a restart finds.

  A call is taken apart at its durability boundaries.  The
  process may die between any two of them; when the machine
  goes down, a change of the exchange directory that was not
  synced may or may not have survived.  A write of the state
  directory is one step, so a crash leaves the old content or
  the new one.
-/

namespace SingboxOps.JournalReader

open JournalIngest (Boundary)

-- Durable State

/- Where a poll starts: after a cursor, or at a time. -/
inductive Source where
  | cursor (value : PyStr)
  | since (value : PyStr)
deriving DecidableEq

structure Committed where
  seq : ℕ
  epoch : ℕ
  boundary : Boundary
  source : Source
deriving DecidableEq

structure Pending where
  run : PyStr
  seq : ℕ
  epoch : ℕ
  boundary : Boundary
  sourceEnd : PyStr
deriving DecidableEq

/-
  An exchange file: what its header says, and the range of the
  journal it was made from, from the source of the poll to the
  last cursor.
-/
structure File where
  run : PyStr
  seq : ℕ
  epoch : ℕ
  boundary : Boundary
  start : Source
  stop : PyStr
deriving DecidableEq

/- A name of the exchange directory: now, and on disk. -/
structure Cell where
  visible : Option File
  durable : Option File
deriving DecidableEq

def Cell.empty : Cell := ⟨none, none⟩

/- What the process does next. -/
inductive Phase where
  | down
  | activating (anchor : Source)
  | recovering (p : Pending)
  | unlinking
  | up
  | writing (p : Pending) (start : Source)
  | renamed (p : Pending)
  | synced (p : Pending)
  | resetUnlinking (anchor : Source)
  | resetting (anchor : Source)
deriving DecidableEq

/-
  The machine.  The last three fields are for reasoning only:
  what was ever durable under a number, the ranges between
  successive committed cursors, and the numbers a startup has
  observed.
-/
structure Machine where
  committed : Option Committed
  pending : Option Pending
  out : Dict ℕ Cell
  phase : Phase
  exported : ℕ → Option File
  commits : List (Source × PyStr)
  observed : List ℕ

/- A host on which the reader has never run. -/
def Machine.fresh : Machine where
  committed := none
  pending := none
  out := []
  phase := .down
  exported := fun _ => none
  commits := []
  observed := []

namespace Machine

variable (m : Machine)

def cell (n : ℕ) : Cell := (m.out.get n).getD Cell.empty

/- The largest number a file name is read back with. -/
def nameLimit : ℕ := 10 ^ 20

/- `durable_ev_seqs` -/
def durableEvSeqs : List ℕ := m.out.keys.filter (fun n => decide (n < nameLimit) && (m.cell n).visible.isSome)

/- `header_matches` -/
def headerMatches (n : ℕ) (p : Pending) : Bool :=
  (m.cell n).visible.any (fun f => decide (f.seq = p.seq) && decide (f.run = p.run))

end Machine

-- Recovery

inductive Action where
  | start
  | finishCommit
  | repoll
  | failClosed
  | firstActivation
deriving DecidableEq

/- The startup table. -/
def evaluateRecovery (m : Machine) : Action :=
  let seqs := m.durableEvSeqs
  match m.committed with
  | none =>
    if m.pending.isNone && seqs.isEmpty then .firstActivation
    else .failClosed
  | some c =>
    let evNext := seqs.contains (c.seq + 1)
    let above := seqs.any (fun n => decide (c.seq + 1 < n))
    match m.pending with
    | none =>
      if evNext then .failClosed
      else if above then .failClosed
      else .start
    | some p =>
      if p.seq ≤ c.seq then .repoll
      else if c.seq + 1 < p.seq then .failClosed
      else if above then .failClosed
      else if !evNext then .repoll
      else if m.headerMatches (c.seq + 1) p then .finishCommit
      else .failClosed

-- Steps

/- `step4_committed` -/
def step4Committed (p : Pending) : Committed := ⟨p.seq, p.epoch, .none, .cursor p.sourceEnd⟩

/- The file of a pending batch. -/
def Pending.file (p : Pending) (start : Source) : File :=
  ⟨p.run, p.seq, p.epoch, p.boundary, start, p.sourceEnd⟩

/-
  What of the exchange directory is settled: for the numbers
  kept it is what is visible, for the others what was synced.
-/
def settleOut (m : Machine) (keep : ℕ → Bool) : Machine :=
  let settled := fun n (c : Cell) => if keep n then c.visible else c.durable
  { m with
    out := m.out.map (fun e => (e.1, ⟨settled e.1 e.2, settled e.1 e.2⟩))
    exported := fun n => (settled n (m.cell n)).or (m.exported n) }

/- `os.replace(part, final)` -/
def rename (m : Machine) (n : ℕ) (f : File) : Machine :=
  { m with out := m.out.set n { m.cell n with visible := some f } }

/- The oldest files go when there are too many. -/
def evict (m : Machine) (n : ℕ) : Machine := { m with out := m.out.set n { m.cell n with visible := none } }

/- `write_committed` of a batch. -/
def commit (m : Machine) (p : Pending) : Machine :=
  { m with
    committed := some (step4Committed p)
    commits := m.commits ++ (m.committed.map (fun c => (c.source, p.sourceEnd))).toList
    phase := .unlinking }

inductive Event where
  /- A start of the service; the anchor of a first activation. -/
  | startup (anchor : Source)
  /- A batch was read up to a cursor and is made pending. -/
  | poll (run stop : PyStr)
  /- The next durability boundary is crossed. -/
  | proceed
  /- Retention unlinks a file. -/
  | evict (n : ℕ)
  /- The exchange directory is synced on some other account. -/
  | syncOut
  /- The operator's reset, with its anchor. -/
  | reset (anchor : Source)
  /- The process ends, by a failure or a signal. -/
  | die
  /- The machine goes down; some unsynced changes survive. -/
  | powerLoss (keep : ℕ → Bool)

inductive Outcome where
  | ok
  | failClosed
  | refused
  | idle
deriving DecidableEq

def startup (m : Machine) (anchor : Source) : Outcome × Machine :=
  let m := { m with observed := m.observed ++ m.durableEvSeqs }
  match evaluateRecovery m, m.pending with
  | .failClosed, _ => (.failClosed, m)
  | .firstActivation, _ => (.ok, { m with phase := .activating anchor })
  | .finishCommit, some p => (.ok, { m with phase := .recovering p })
  | .repoll, _ => (.ok, { m with phase := .unlinking })
  | _, _ => (.ok, { m with phase := .up })

/- `reset_from_now`, up to its first write. -/
def resetFromNow (m : Machine) (anchor : Source) : Outcome × Machine := match m.committed with
  | none => (.refused, m)
  | some _ =>
    match evaluateRecovery m, m.pending with
    | .repoll, some _ => (.ok, { m with phase := .resetUnlinking anchor })
    | .start, none => (.ok, { m with phase := .resetting anchor })
    | _, _ => (.refused, m)

/- `make_pending` -/
def makePending (c : Committed) (run stop : PyStr) : Pending := ⟨run, c.seq + 1, c.epoch, c.boundary, stop⟩

def poll (m : Machine) (run stop : PyStr) : Outcome × Machine := match m.committed with
  | none => (.refused, m)
  | some c =>
    let p := makePending c run stop
    (.ok, { m with
      pending := some p
      phase := .writing p c.source })

def proceed (m : Machine) : Outcome × Machine := match m.phase with
  | .activating anchor =>
    (.ok, { m with
      committed := some ⟨0, 1, .coldStart, anchor⟩
      phase := .up })
  | .recovering p => (.ok, commit m p)
  | .unlinking => (.ok, { m with pending := none, phase := .up })
  | .writing p start => (.ok, { rename m p.seq (p.file start) with phase := .renamed p })
  | .renamed p => (.ok, { settleOut m (fun _ => true) with phase := .synced p })
  | .synced p => (.ok, commit m p)
  | .resetUnlinking anchor =>
    (.ok, { m with
      pending := none
      phase := .resetting anchor })
  | .resetting anchor =>
    (.ok, { m with
      committed := m.committed.map (fun c => ⟨c.seq, c.epoch + 1, .sourceGap, anchor⟩)
      phase := .down })
  | _ => (.idle, m)

/-
  One step.  An event that does not fit what the process does
  changes nothing.
-/
def step (m : Machine) : Event → Outcome × Machine
  | .startup anchor => if m.phase = .down then startup m anchor else (.idle, m)
  | .poll run stop => if m.phase = .up then poll m run stop else (.idle, m)
  | .proceed => proceed m
  | .evict n => if m.phase = .up then (.ok, evict m n) else (.idle, m)
  | .syncOut =>
    if m.phase = .up ∨ m.phase = .down then
      (.ok, settleOut m (fun _ => true))
    else (.idle, m)
  | .reset anchor =>
    if m.phase = .down then resetFromNow m anchor
    else (.idle, m)
  | .die => (.ok, { m with phase := .down })
  | .powerLoss keep => (.ok, { settleOut m keep with phase := .down })

/-
  A guard on the steps of a run: a startup that finishes a
  commit finds the file synced, and file names have at most 20
  digits.
-/
def Orderly (m : Machine) : Event → Prop
  | .startup _ =>
    evaluateRecovery m = .finishCommit →
      ∀ c, m.committed = some c → (m.cell (c.seq + 1)).durable = (m.cell (c.seq + 1)).visible
  | .poll _ _ => ∀ c, m.committed = some c → c.seq + 1 < Machine.nameLimit
  | _ => True

/- A state some orderly run of a fresh host leads to. -/
def OrderlyReachable (m : Machine) : Prop := Reachable step Orderly Machine.fresh m

end SingboxOps.JournalReader
