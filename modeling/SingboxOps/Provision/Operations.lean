import SingboxOps.Provision.Ledger
import SingboxOps.Lib.Trace
import Mathlib.Data.List.Sort

/-
  The operations of the provisioner.

  An operation works under the provision lock, so operations
  follow each other.  It first attempts everything up to the
  verification checkpoint, then it saves the checkpoint and
  deletes the key files of what it verified as revoked.  A
  crash, or an exception of the file system, can cut it at
  every change of the disk.
-/

namespace SingboxOps.Provision

open ClientManagement (namePattern keyPattern labelPattern
  probePattern)

-- Calls

/-
  What an operation is told from outside: whether the lock is
  free, the server binding if it can be read, fresh random
  texts, the proofs against the live Monitor, the clock, and
  whether the certificate fits the binding.
-/
structure Env where
  free : Bool
  binding : Option { b : Binding // b.wellFormed = true }
  token : { s : PyStr // hexPattern 32 s = true }
  secret : { s : PyStr // hexPattern 64 s = true }
  proof : ℕ → Bool
  now : ℕ → ℕ
  certificateOk : Bool

/- The arguments of an enrollment. -/
structure Enrollment where
  name : PyStr
  device : PyStr
  generation : PyStr
  idempotencyKey : PyStr
  siteLabel : PyStr
  pathLabel : PyStr
deriving DecidableEq

/- Which records a revocation is about. -/
structure Selection where
  name : PyStr
  device : Option PyStr
  generation : Option PyStr
  probeId : Option PyStr
deriving DecidableEq

/- The record of one device of a client. -/
structure Slot where
  name : PyStr
  device : PyStr
  generation : PyStr
deriving DecidableEq

/- The operations; `retire` is a revocation by generation. -/
inductive Call where
  | enroll (e : Enrollment)
  | revoke (s : Selection)
  | resume (s : Slot)
  | list (name : PyStr) (cursor : Option PyStr)
  | exportMaterial (s : Slot)
deriving DecidableEq

/- `public` -/
structure PublicRow where
  name : PyStr
  device : PyStr
  probeId : PyStr
  desired : Desired
  verified : Verified
  verifiedEpoch : Option ℕ
  siteLabel : PyStr
  pathLabel : PyStr
  binding : Binding
deriving DecidableEq

def Row.public (r : Row) (b : Binding) : PublicRow :=
  ⟨r.name, r.device, r.probeId, r.desired, r.verified, r.verifiedEpoch, r.siteLabel, r.pathLabel, b⟩

/- What an export gives of a record. -/
structure Material where
  binding : Binding
  probeId : PyStr
  secret : PyStr
  siteLabel : PyStr
  pathLabel : PyStr
deriving DecidableEq

inductive Response where
  | device (p : PublicRow)
  | revoked (count : ℕ)
  | devices (page : List PublicRow) (next : Option PyStr)
  | material (m : Material)
deriving DecidableEq

/- An operation on the disk. -/
abbrev Action (α : Type) := Op ErrorCode Disk α

-- Publishing

/- The registry entry of a live record. -/
def Row.expected (r : Row) : RegistryRow :=
  ⟨r.probeId, true, r.siteLabel, r.pathLabel, r.probeId ++ pyStr ".key"⟩

/- The key file of a record. -/
def Row.keyText (r : Row) : PyStr := r.secret ++ [10]

/- The entry of a probe, if the registry has one. -/
def entryOf (registry : List RegistryRow) (probeId : PyStr) : Option RegistryRow :=
  registry.find? (fun e => decide (e.probeId = probeId))

/- The key file of a live record is there, or is written. -/
def publishKey (r : Row) : Action Unit := do
  let d ← Op.get
  match d.keys.get r.probeId with
  | some raw => do
      Op.ensure (raw.length ≤ 4096) .capacity
      Op.ensure (raw == r.keyText) .keyChanged
  | none => Op.change (fun d => { d with keys := d.keys.set r.probeId r.keyText })

/- One record of the ledger in `_publish`. -/
def publishRow (existing : List RegistryRow) (r : Row) : Action (List RegistryRow) := do
  let entry := entryOf existing r.probeId
  Op.ensure (entry.all (fun e => e == r.expected)) .registryChanged
  Op.ensure (!(r.desired == .active && r.verified == .active && entry.isNone)) .registryChanged
  if r.desired = .active then do
    publishKey r
    pure [r.expected]
  else pure []

def publishRows (existing : List RegistryRow) : List Row → Action (List RegistryRow)
  | [] => pure []
  | r :: rest => do
      let entries ← publishRow existing r
      let more ← publishRows existing rest
      pure (entries ++ more)

/- The probes of a ledger. -/
def Ledger.own (l : Ledger) : List PyStr := l.records.map (fun r => r.probeId)

/- `_publish` -/
def publish (l : Ledger) : Action Unit := do
  let d ← Op.get
  let existing ← Op.ofExcept (readRegistry d)
  let others := existing.filter (fun e => decide (e.probeId ∉ l.own))
  let entries ← publishRows existing l.records
  Op.ensure ((others ++ entries).length ≤ maxIdentities) .capacity
  Op.change (fun d => { d with registry := some (others ++ entries) })

-- Confirming

/- A record whose desired state was proved at a time. -/
def Row.confirmed (r : Row) (t : ℕ) : Row :=
  { r with
    verified := r.desired.verified
    verifiedEpoch := some t }

/- Change the record of a probe. -/
def Ledger.update (l : Ledger) (probeId : PyStr) (f : Row → Row) : Ledger :=
  { l with
    records := l.records.map (fun r => if r.probeId = probeId then f r else r) }

/- The proofs of `_confirm`, from number `k` on. -/
def confirmRows (env : Env) (l : Ledger) (k : ℕ) : List PyStr → Except ErrorCode Ledger
  | [] => .ok l
  | probeId :: rest =>
    if env.proof k then
      confirmRows env (l.update probeId (fun r => r.confirmed (env.now k))) (k + 1) rest
    else .error .liveUnconfirmed

/-
  What is to be saved as the verification checkpoint, the
  probes whose key files go then, and what is answered.
-/
structure Checkpoint where
  ledger : Ledger
  doomed : List PyStr
  after : Except ErrorCode Response

/- The end of an attempt: an answer, or a checkpoint. -/
inductive Attempt where
  | answer (r : Response)
  | checkpoint (c : Checkpoint)

/- `_confirm`, up to its checkpoint. -/
def confirm (env : Env) (l : Ledger) (rows : List Row)
    (after : Except ErrorCode Response) : Action Attempt := do
  let confirmed ← Op.ofExcept (confirmRows env l 0 (rows.map fun r => r.probeId))
  pure (.checkpoint ⟨confirmed, (rows.filter fun r => r.desired == .revoked).map (fun r => r.probeId), after⟩)

/- The key files of revoked records go. -/
def deleteKeys : List PyStr → Action Unit
  | [] => pure ()
  | probeId :: rest => do
      Op.change (fun d => { d with keys := d.keys.pop probeId })
      deleteKeys rest

/- The rest of `_confirm`, and the answer. -/
def settle (c : Checkpoint) : Action Response := do
  save c.ledger
  deleteKeys c.doomed
  Op.ofExcept c.after

-- Operations

variable (digest : PyStr → { s : PyStr // hexPattern 64 s = true })

/- `_binding` -/
def readBinding (env : Env) : Except ErrorCode Binding := match env.binding with
  | some b => .ok b.val
  | none => .error .binding

def Enrollment.wellFormed (e : Enrollment) : Bool := namePattern e.name && namePattern e.device &&
    hexPattern 64 e.generation && keyPattern e.idempotencyKey &&
    labelPattern e.siteLabel && labelPattern e.pathLabel

/- The enrollment asks for what the record says. -/
def Enrollment.sameAs (e : Enrollment) (r : Row) : Bool :=
  r.name == e.name && r.device == e.device && r.clientGeneration == e.generation &&
    r.siteLabel == e.siteLabel && r.pathLabel == e.pathLabel

/- The record a new enrollment adds. -/
def newRow (env : Env) (e : Enrollment) : Row where
  name := e.name
  device := e.device
  clientGeneration := e.generation
  enrollment := (digest e.idempotencyKey).val
  probeId := pyStr "p6-" ++ env.token.val
  secret := env.secret.val
  siteLabel := e.siteLabel
  pathLabel := e.pathLabel
  desired := .active
  verified := .pending
  verifiedEpoch := none

/- A probe that nothing on the disk knows. -/
def isFresh (d : Disk) (registry : List RegistryRow) (l : Ledger) (probeId : PyStr) : Bool :=
  decide (probeId ∉ l.own) && registry.all (fun e => decide (e.probeId ≠ probeId)) &&
    (d.keys.get probeId).isNone

/- The identities in use: active records and foreign entries. -/
def identities (registry : List RegistryRow) (l : Ledger) : ℕ :=
  (l.records.filter fun r => r.desired == .active).length +
    (registry.filter fun e => decide (e.probeId ∉ l.own)).length

/- The intent of a new enrollment becomes durable. -/
def addRow (env : Env) (e : Enrollment) (l : Ledger) : Action (Ledger × Row) := do
  Op.ensure (l.records.all fun r =>
      !(r.name == e.name && r.device == e.device && r.clientGeneration == e.generation)) .deviceExists
  Op.ensure (l.records.length < maxRecords) .capacity
  let d ← Op.get
  let registry ← Op.ofExcept (readRegistry d)
  Op.ensure (identities registry l < maxIdentities) .capacity
  let row := newRow digest env e
  Op.ensure (isFresh d registry l row.probeId) .identityCollision
  let grown := { l with records := l.records ++ [row] }
  save grown
  pure (grown, row)

/- The ledger and the record of an enrollment. -/
def findOrAdd (env : Env) (e : Enrollment) (l : Ledger) : Action (Ledger × Row) :=
  match l.records.find? (fun r => decide (r.enrollment = (digest e.idempotencyKey).val)) with
  | some row => do
      Op.ensure (e.sameAs row) .idempotencyConflict
      pure (l, row)
  | none => addRow digest env e l

/- A ledger read for an operation that needs the binding. -/
def loadBound (env : Env) : Action Ledger := do
  let binding ← Op.ofExcept (readBinding env)
  let d ← Op.get
  let state ← Op.ofExcept (load d (some binding))
  pure (state.getD ⟨binding, []⟩)

/- `enroll` -/
def enroll (env : Env) (e : Enrollment) : Action Attempt := do
  Op.ensure e.wellFormed .schema
  Op.ensure env.free .busy
  let l ← loadBound env
  let found ← findOrAdd digest env e l
  publish found.1
  confirm env found.1 [found.2] (.ok (.device ((found.2.confirmed (env.now 0)).public found.1.binding)))

def Selection.wellFormed (s : Selection) : Bool := namePattern s.name && s.device.all namePattern &&
    s.generation.all (hexPattern 64) && s.probeId.all probePattern

/- The record is one of those selected. -/
def Selection.selects (s : Selection) (r : Row) : Bool :=
  r.name == s.name && s.device.all (fun x => r.device == x) &&
    s.generation.all (fun x => r.clientGeneration == x) &&
    s.probeId.all (fun x => r.probeId == x)

/- A record that is to be revoked, unless it was before. -/
def Row.revoke (r : Row) : Row :=
  if r.desired = .revoked then r
  else
    { r with
      desired := .revoked
      verified := .pending
      verifiedEpoch := none }

/- The ledger with the selected records to be revoked. -/
def Ledger.revoke (l : Ledger) (s : Selection) : Ledger :=
  { l with
    records := l.records.map (fun r => if s.selects r then r.revoke else r) }

/- `revoke` -/
def revoke (env : Env) (s : Selection) : Action Attempt := do
  Op.ensure s.wellFormed .schema
  Op.ensure env.free .busy
  let d ← Op.get
  let state ← Op.ofExcept (load d none)
  match state with
  | none => do
      Op.ensure s.probeId.isNone .notEnrolled
      pure (.answer (.revoked 0))
  | some l => do
      let intent := l.revoke s
      let rows := intent.records.filter s.selects
      Op.ensure (s.probeId.isNone || !rows.isEmpty) .notEnrolled
      save intent
      publish intent
      let pending := rows.filter (fun r => r.verified == .pending)
      -- without pending records the last one is proved again
      let confirming :=
        if pending.isEmpty then rows.getLast?.toList
        else pending.take maxConfirmations
      confirm env intent confirming (if maxConfirmations < pending.length then
          .error .confirmPending
        else .ok (.revoked rows.length))

def Slot.wellFormed (s : Slot) : Bool := namePattern s.name && namePattern s.device &&
    hexPattern 64 s.generation

/- The record of a slot. -/
def Ledger.rowAt (l : Ledger) (s : Slot) : Option Row := l.records.find? (fun r =>
    r.name == s.name && r.device == s.device && r.clientGeneration == s.generation)

/- `resume` -/
def resume (env : Env) (s : Slot) : Action Attempt := do
  Op.ensure s.wellFormed .schema
  Op.ensure env.free .busy
  let l ← loadBound env
  match l.rowAt s with
  | none => Op.fail .notEnrolled
  | some row => do
      Op.ensure (row.desired == .active) .revoked
      publish l
      confirm env l [row] (.ok (.device ((row.confirmed (env.now 0)).public l.binding)))

/- `listing` -/
def listing (env : Env) (name : PyStr) (cursor : Option PyStr) : Action Attempt := do
  Op.ensure (namePattern name && cursor.all probePattern) .schema
  Op.ensure env.free .busy
  let d ← Op.get
  let state ← Op.ofExcept (load d none)
  match state with
  | none => pure (.answer (.devices [] none))
  | some l =>
    let rows := (l.records.filter fun r =>
        r.name == name && cursor.all (fun c => decide (c < r.probeId))).insertionSort
        (fun a b => a.probeId ≤ b.probeId)
    let page := rows.take 64
    pure (.answer (.devices (page.map fun r => r.public l.binding)
      (if 64 < rows.length then page.getLast?.map (·.probeId)
        else none)))

/- `export_material` -/
def exportMaterial (env : Env) (s : Slot) : Action Attempt := do
  Op.ensure s.wellFormed .schema
  Op.ensure env.free .busy
  let l ← loadBound env
  match l.rowAt s with
  | none => Op.fail .notEnrolled
  | some row => do
      Op.ensure (row.desired == .active && row.verified == .active) .revoked
      let d ← Op.get
      let registry ← Op.ofExcept (readRegistry d)
      Op.ensure (entryOf registry row.probeId == some row.expected) .registryChanged
      Op.ensure (d.keys.get row.probeId == some row.keyText) .keyChanged
      Op.ensure (env.proof 0) .liveUnconfirmed
      Op.ensure env.certificateOk .binding
      pure (.answer (.material ⟨l.binding, row.probeId, row.secret, row.siteLabel, row.pathLabel⟩))

/- An operation, up to its checkpoint. -/
def attempt (env : Env) : Call → Action Attempt
  | .enroll e => enroll digest env e
  | .revoke s => revoke env s
  | .resume s => resume env s
  | .list name cursor => listing env name cursor
  | .exportMaterial s => exportMaterial env s

/- The end of an operation. -/
def finish : Attempt → Action Response
  | .answer r => pure r
  | .checkpoint c => settle c

/- A whole operation. -/
def operation (env : Env) (call : Call) : Action Response := do
  let a ← attempt digest env call
  finish a

-- Steps

/-
  Where an operation is cut: after so many changes of the disk
  before the checkpoint, or after the checkpoint and so many
  deletions of key files.
-/
inductive Cut where
  | early (k : ℕ)
  | late (k : ℕ)
deriving DecidableEq

structure Input where
  call : Call
  env : Env
  cut : Option Cut

inductive Reply where
  | answered (r : Except ErrorCode Response)
  | cut
deriving DecidableEq

/- An operation, whole or cut, and the disk it leaves. -/
def step (d : Disk) (i : Input) : Reply × Disk :=
  let tried := attempt digest i.env i.call
  match i.cut with
  | none =>
    (.answered ((operation digest i.env i.call).answer d), (operation digest i.env i.call).final d)
  | some (.early k) => (.cut, (d :: tried.seen d).getD k d)
  | some (.late k) =>
    match tried.answer d with
    | .ok (.checkpoint c) => (.cut, ((settle c).seen (tried.final d)).getD k (tried.final d))
    | _ => (.cut, d)

/- A host where nothing was provisioned yet. -/
def Disk.start (registry : Option (List RegistryRow)) (keys : Dict PyStr PyStr) : Disk :=
  ⟨none, registry, keys⟩

end SingboxOps.Provision
