import SingboxOps.ClientManagement.Rpc
import SingboxOps.Lib.BoundedFloat
import SingboxOps.Lib.Dict
import SingboxOps.Lib.Op

/-
  The device ledger of the provisioner, the registry it
  publishes, and the key files.
-/

namespace SingboxOps.Provision

open ClientManagement (isRun namePattern keyPattern labelPattern
  probePattern isAlnum)

-- Records

/- `MAX_RECORDS` -/
def maxRecords : ℕ := 4096

/- `MAX_STATE_BYTES` -/
def maxStateBytes : ℕ := 4 * 1024 * 1024

/- `MAX_IDENTITIES` -/
def maxIdentities : ℕ := 64

/- `MAX_CONFIRMATIONS` -/
def maxConfirmations : ℕ := 64

inductive Desired where
  | active
  | revoked
deriving DecidableEq

inductive Verified where
  | pending
  | active
  | revoked
deriving DecidableEq

/- What a record says when its desired state is verified. -/
def Desired.verified : Desired → Verified
  | active => .active
  | revoked => .revoked

/- What a record keeps for its whole life. -/
structure Identity where
  name : PyStr
  device : PyStr
  clientGeneration : PyStr
  enrollment : PyStr
  probeId : PyStr
  secret : PyStr
  siteLabel : PyStr
  pathLabel : PyStr
deriving DecidableEq

/- A record of the ledger. -/
structure Row extends Identity where
  desired : Desired
  verified : Verified
  verifiedEpoch : Option ℕ
deriving DecidableEq

structure Binding where
  serverId : PyStr
  ingestUrl : PyStr
  certificateSha256 : PyStr
deriving DecidableEq

structure Ledger where
  binding : Binding
  records : List Row
deriving DecidableEq

structure RegistryRow where
  probeId : PyStr
  enabled : Bool
  siteLabel : PyStr
  pathLabel : PyStr
  keyFile : PyStr
deriving DecidableEq

/-
  What is durable: the ledger, the registry, and the key files
  by the probe they are named after.
-/
structure Disk where
  ledger : Option Ledger
  registry : Option (List RegistryRow)
  keys : Dict PyStr PyStr
deriving DecidableEq

/- `ProvisionError`, by its code. -/
inductive ErrorCode where
  | schema
  | state
  | binding
  | bindingChanged
  | capacity
  | registry
  | registryChanged
  | keyChanged
  | liveUnconfirmed
  | idempotencyConflict
  | deviceExists
  | identityCollision
  | notEnrolled
  | revoked
  | confirmPending
  | busy
deriving DecidableEq

-- Encoding

/- A document of texts and numbers; it has no floats. -/
abbrev Document := Json (IntGrid (2 ^ 53))

def Desired.text : Desired → PyStr
  | active => pyStr "active"
  | revoked => pyStr "revoked"

def Verified.text : Verified → PyStr
  | pending => pyStr "pending"
  | active => pyStr "active"
  | revoked => pyStr "revoked"

def Row.document (r : Row) : Document := .obj [(pyStr "name", .str r.name), (pyStr "device", .str r.device),
      (pyStr "client_generation", .str r.clientGeneration),
      (pyStr "site_label", .str r.siteLabel),
      (pyStr "path_label", .str r.pathLabel),
      (pyStr "enrollment", .str r.enrollment),
      (pyStr "probe_id", .str r.probeId),
      (pyStr "secret", .str r.secret),
      (pyStr "desired", .str r.desired.text),
      (pyStr "verified", .str r.verified.text),
      (pyStr "verified_epoch",
        match r.verifiedEpoch with
        | none => .null
        | some t => .int t)]

def Ledger.document (l : Ledger) : Document := .obj [(pyStr "v", .int 1),
      (pyStr "binding", .obj [(pyStr "v", .int 1), (pyStr "server_id", .str l.binding.serverId),
          (pyStr "ingest_url", .str l.binding.ingestUrl),
          (pyStr "certificate_sha256", .str l.binding.certificateSha256)]),
      (pyStr "records", .arr (l.records.map Row.document))]

/- `len(encoded(state))` -/
def Ledger.encodedSize (l : Ledger) : ℕ := (Json.render (Json.sortKeys l.document)).length + 1

-- Loading and Saving

/- `[0-9a-f]{n}` -/
def hexPattern (n : ℕ) : PyStr → Bool := isRun (fun c => (48 ≤ c && c ≤ 57) || (97 ≤ c && c ≤ 102)) n n

/- `[a-z0-9][a-z0-9._-]{0,127}` -/
def keyFilePattern : PyStr → Bool
  | [] => false
  | c :: rest =>
    let low := fun (c : ℕ) => (48 ≤ c && c ≤ 57) || (97 ≤ c && c ≤ 122)
    low c && isRun (fun c => low c || c == 46 || c == 95 || c == 45) 0 127 rest

def Binding.wellFormed (b : Binding) : Bool :=
  b.ingestUrl.length ≤ 256 && hexPattern 32 b.serverId && hexPattern 64 b.certificateSha256

/- Every text of a record fits its pattern. -/
def Identity.wellFormed (r : Identity) : Bool :=
  namePattern r.name && namePattern r.device && hexPattern 64 r.clientGeneration &&
    hexPattern 64 r.enrollment && probePattern r.probeId &&
    hexPattern 64 r.secret && labelPattern r.siteLabel &&
    labelPattern r.pathLabel

/- The states of a record fit together. -/
def Row.coherent (r : Row) : Bool := !(r.desired == .revoked && r.verified == .active) &&
    (r.verified == .pending) == r.verifiedEpoch.isNone

/- The slot of a record. -/
def Identity.slot (r : Identity) : PyStr × PyStr × PyStr := (r.name, r.clientGeneration, r.device)

/- The loop of `_load` over the records. -/
def checkRecords (probes enrollments : List PyStr)
    (slots : List (PyStr × PyStr × PyStr)) : List Row → Except ErrorCode Unit
  | [] => .ok ()
  | r :: rest =>
    if !r.wellFormed then .error .schema
    else if r.probeId ∈ probes ∨ r.enrollment ∈ enrollments ∨
        r.slot ∈ slots ∨ r.coherent = false then
      .error .state
    else
      checkRecords (r.probeId :: probes) (r.enrollment :: enrollments) (r.slot :: slots) rest

/- The checks of `_load` on a ledger that was read. -/
def checkLedger (binding : Option Binding) (l : Ledger) : Except ErrorCode Ledger :=
  if maxStateBytes < l.encodedSize then .error .capacity
  else if maxRecords < l.records.length then .error .state
  else if !l.binding.wellFormed then .error .schema
  else if binding.any (fun b => decide (b ≠ l.binding)) then
    .error .bindingChanged
  else
    match checkRecords [] [] [] l.records with
    | .error e => .error e
    | .ok _ => .ok l

/- `_load` -/
def load (d : Disk) (binding : Option Binding) : Except ErrorCode (Option Ledger) := match d.ledger with
  | none => .ok (binding.map (fun b => ⟨b, []⟩))
  | some l =>
    match checkLedger binding l with
    | .error e => .error e
    | .ok l => .ok (some l)

/- `_save` -/
def save (l : Ledger) : Op ErrorCode Disk Unit :=
  if maxStateBytes < l.encodedSize then Op.fail .capacity
  else Op.change (fun d => { d with ledger := some l })

/- The loop of `_registry` over its rows. -/
def checkRegistryRows (seen : List PyStr) : List RegistryRow → Except ErrorCode Unit
  | [] => .ok ()
  | r :: rest =>
    if !(probePattern r.probeId && labelPattern r.siteLabel &&
        labelPattern r.pathLabel && keyFilePattern r.keyFile) then
      .error .schema
    else if r.probeId ∈ seen then .error .registry
    else checkRegistryRows (r.probeId :: seen) rest

/- `_registry` -/
def readRegistry (d : Disk) : Except ErrorCode (List RegistryRow) := match d.registry with
  | none => .ok []
  | some rows =>
    if maxIdentities < rows.length then .error .registry
    else
      match checkRegistryRows [] rows with
      | .error e => .error e
      | .ok _ => .ok rows

-- Valid Ledgers

/- What `_load` accepts. -/
structure Ledger.Valid (l : Ledger) : Prop where
  size : l.encodedSize ≤ maxStateBytes
  count : l.records.length ≤ maxRecords
  binding : l.binding.wellFormed = true
  wellFormed : ∀ r ∈ l.records, r.wellFormed = true
  coherent : ∀ r ∈ l.records, r.coherent = true
  probes : (l.records.map fun r => r.probeId).Nodup
  enrollments : (l.records.map fun r => r.enrollment).Nodup
  slots : (l.records.map fun r => r.slot).Nodup

/- The loop accepts fitting records that repeat nothing. -/
theorem checkRecords_ok {rows : List Row} (hWellFormed : ∀ r ∈ rows, r.wellFormed = true)
    (hCoherent : ∀ r ∈ rows, r.coherent = true)
    {probes enrollments : List PyStr} {slots : List (PyStr × PyStr × PyStr)}
    (hProbes : (probes ++ rows.map fun r => r.probeId).Nodup)
    (hEnrollments : (enrollments ++ rows.map fun r => r.enrollment).Nodup)
    (hSlots : (slots ++ rows.map fun r => r.slot).Nodup) :
    checkRecords probes enrollments slots rows = .ok () := by
  induction rows generalizing probes enrollments slots with
  | nil => rfl
  | cons r rest ih =>
    rw [List.map_cons, List.nodup_middle] at hProbes
    rw [List.map_cons, List.nodup_middle] at hEnrollments
    rw [List.map_cons, List.nodup_middle] at hSlots
    have hProbe := (List.nodup_cons.mp hProbes).1
    have hEnrollment := (List.nodup_cons.mp hEnrollments).1
    have hSlot := (List.nodup_cons.mp hSlots).1
    rw [List.mem_append, not_or] at hProbe hEnrollment hSlot
    rw [checkRecords, hWellFormed r List.mem_cons_self, if_neg Bool.noConfusion, if_neg]
    · exact ih (fun q hq => hWellFormed q (List.mem_cons_of_mem _ hq))
        (fun q hq => hCoherent q (List.mem_cons_of_mem _ hq))
        hProbes hEnrollments hSlots
    · rw [hCoherent r List.mem_cons_self]
      rintro (h | h | h | h)
      · exact hProbe.1 h
      · exact hEnrollment.1 h
      · exact hSlot.1 h
      · exact Bool.noConfusion h

/- What the loop accepts fits and repeats nothing. -/
theorem of_checkRecords_ok {rows : List Row} {probes enrollments : List PyStr}
    {slots : List (PyStr × PyStr × PyStr)}
    (h : checkRecords probes enrollments slots rows = .ok ()) :
    (∀ r ∈ rows, r.wellFormed = true ∧ r.coherent = true) ∧
      (∀ r ∈ rows, r.probeId ∉ probes ∧ r.enrollment ∉ enrollments ∧ r.slot ∉ slots) ∧
      (rows.map fun r => r.probeId).Nodup ∧
      (rows.map fun r => r.enrollment).Nodup ∧
      (rows.map fun r => r.slot).Nodup := by
  induction rows generalizing probes enrollments slots with
  | nil =>
    exact ⟨fun _ h => (List.not_mem_nil h).elim, fun _ h => (List.not_mem_nil h).elim, .nil, .nil, .nil⟩
  | cons r rest ih =>
    rw [checkRecords] at h
    by_cases hFormed : r.wellFormed = true
    · rw [hFormed, if_neg Bool.noConfusion] at h
      by_cases hBad : r.probeId ∈ probes ∨ r.enrollment ∈ enrollments ∨ r.slot ∈ slots ∨ r.coherent = false
      · rw [if_pos hBad] at h
        exact nomatch h
      · rw [if_neg hBad] at h
        rw [not_or, not_or, not_or, Bool.not_eq_false] at hBad
        rcases hBad with ⟨hProbe, hEnrollment, hSlot, hCoherent⟩
        rcases ih h with ⟨hGood, hNew, hProbes, hEnrollments, hSlots⟩
        refine ⟨?_, ?_, ?_, ?_, ?_⟩
        · intro q hq
          rcases List.mem_cons.mp hq with rfl | hq
          · exact ⟨hFormed, hCoherent⟩
          · exact hGood q hq
        · intro q hq
          rcases List.mem_cons.mp hq with rfl | hq
          · exact ⟨hProbe, hEnrollment, hSlot⟩
          · have hOther := hNew q hq
            rw [List.mem_cons, List.mem_cons, List.mem_cons, not_or, not_or, not_or] at hOther
            exact ⟨hOther.1.2, hOther.2.1.2, hOther.2.2.2⟩
        · refine List.nodup_cons.mpr ⟨?_, hProbes⟩
          intro hMem
          rcases List.mem_map.mp hMem with ⟨q, hq, hSame⟩
          exact (hNew q hq).1 (hSame ▸ List.mem_cons_self)
        · refine List.nodup_cons.mpr ⟨?_, hEnrollments⟩
          intro hMem
          rcases List.mem_map.mp hMem with ⟨q, hq, hSame⟩
          exact (hNew q hq).2.1 (hSame ▸ List.mem_cons_self)
        · refine List.nodup_cons.mpr ⟨?_, hSlots⟩
          intro hMem
          rcases List.mem_map.mp hMem with ⟨q, hq, hSame⟩
          exact (hNew q hq).2.2 (hSame ▸ List.mem_cons_self)
    · rw [Bool.not_eq_true] at hFormed
      rw [hFormed] at h
      exact nomatch h

theorem checkLedger_of_valid {l : Ledger} (h : l.Valid) : checkLedger none l = .ok l := by
  have hRecords : checkRecords [] [] [] l.records = .ok () :=
    checkRecords_ok h.wellFormed h.coherent h.probes h.enrollments h.slots
  rw [checkLedger, if_neg (not_lt.mpr h.size), if_neg (not_lt.mpr h.count), h.binding, hRecords]
  rfl

theorem valid_of_checkLedger {binding : Option Binding} {l l' : Ledger} (h : checkLedger binding l = .ok l') :
    l' = l ∧ l.Valid ∧ ∀ b, binding = some b → b = l.binding := by
  unfold checkLedger at h
  by_cases hSize : maxStateBytes < l.encodedSize
  · rw [if_pos hSize] at h
    exact nomatch h
  rw [if_neg hSize] at h
  by_cases hCount : maxRecords < l.records.length
  · rw [if_pos hCount] at h
    exact nomatch h
  rw [if_neg hCount] at h
  by_cases hBinding : l.binding.wellFormed = true
  · rw [hBinding, if_neg Bool.noConfusion] at h
    by_cases hChanged : binding.any (fun b => decide (b ≠ l.binding)) = true
    · rw [if_pos hChanged] at h
      exact nomatch h
    · rw [if_neg hChanged] at h
      cases hRecords : checkRecords [] [] [] l.records with
      | error e =>
        rw [hRecords] at h
        exact nomatch h
      | ok u =>
        rw [hRecords] at h
        rcases of_checkRecords_ok hRecords with ⟨hGood, _, hProbes, hEnrollments, hSlots⟩
        refine ⟨(Except.ok.inj h).symm, ⟨not_lt.mp hSize, not_lt.mp hCount, hBinding,
            fun r hr => (hGood r hr).1,
            fun r hr => (hGood r hr).2,
            hProbes, hEnrollments, hSlots⟩, ?_⟩
        rintro b rfl
        rw [Option.any_some, decide_eq_true_eq, not_not] at hChanged
        exact hChanged
  · rw [Bool.not_eq_true] at hBinding
    rw [hBinding] at h
    exact nomatch h

theorem load_of_valid {d : Disk} {l : Ledger} (hLedger : d.ledger = some l)
    (h : l.Valid) : load d none = .ok (some l) := by
  rw [load, hLedger]
  dsimp only
  rw [checkLedger_of_valid h]

end SingboxOps.Provision
