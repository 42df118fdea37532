import SingboxOps.RemoteProbe.Payload
import SingboxOps.Lib.Json.Roundtrip
import SingboxOps.Lib.Except
import SingboxOps.Lib.Base64
import SingboxOps.Lib.Lines

/-
  The line of one spool record.
-/

namespace SingboxOps.RemoteProbe

variable {F : Type} [PyFloat F]

-- Records

def recordVersion : ℤ := 1
def recordMaxBytes : ℕ := maxBodyBytes * 2

/- One record as it is read from its line. -/
structure Record (F : Type) where
  recordId : ℕ
  probeId : PyStr
  run : PyStr
  seq : ℤ
  queuedEpoch : ExtFloat F
  body : Bytes

/- What a caller appends. -/
structure Entry (F : Type) where
  probeId : PyStr
  run : PyStr
  seq : ℤ
  queuedEpoch : ExtFloat F
  body : Bytes

/- The dict an append encodes. -/
def recordJson (id : ℕ) (e : Entry F) : Json F := .obj [(pyStr "v", .int recordVersion),
    (pyStr "record_id", .int id),
    (pyStr "probe_id", .str e.probeId),
    (pyStr "run", .str e.run),
    (pyStr "seq", .int e.seq),
    (pyStr "queued_epoch", .float e.queuedEpoch),
    (pyStr "body_b64", .str (Base64.b64encode e.body))]

/- `canonical_bytes(record)`, without the newline. -/
def recordText (id : ℕ) (e : Entry F) : Except PyError Bytes := canonicalBytes (recordJson id e)

-- Decoding

/- A positive `int` that is no `bool`. -/
def positiveInt : Option (Json F) → Option ℕ
  | some (.int n) => if 1 ≤ n then some n.toNat else none
  | _ => none

/-
  `float(epoch)` of an int or a float; an integer beyond
  every float raises `OverflowError`.
-/
def toFloat : Json F → Except PyError (Option (ExtFloat F))
  | .int n =>
    if 2 ^ 1024 - 2 ^ 970 ≤ |n| then .error .overflow
    else .ok (some (.finite (PyFloat.round n)))
  | .float x => .ok (some x)
  | _ => .ok none

/- The text of a string member, decoded. -/
def bodyOf : Option (Json F) → Option Bytes
  | some (.str s) => Base64.b64decode s
  | _ => none

/- The fields of a record, once its dict was read. -/
def decodeMembers (members : List (PyStr × Json F)) : Except PyError (Option (Record F)) :=
  let field (key : String) : Option (Json F) := Json.getItem members (pyStr key)
  match bodyOf (field "body_b64"),
      positiveInt (field "record_id"), field "seq",
      field "queued_epoch", field "probe_id", field "run" with
  | some body, some id, some (.int seq), some epoch,
      some (.str probeId), some (.str run) =>
      match toFloat epoch with
      | .error e => .error e
      | .ok none => .ok none
      | .ok (some x) => .ok (some ⟨id, probeId, run, seq, x, body⟩)
  | _, _, _, _, _, _ => .ok none

/-
  `json.loads(line.decode("utf-8"))`, with `none` for the
  errors the two readers below catch.
-/
def readLine (room : ℕ) (line : Bytes) : Except PyError (Option (Json F)) :=
  match loadsBytes room line with
  | .ok v => .ok (some v)
  | .error .value => .ok none
  | .error e => .error e

/- One record line: a closed record, or none. -/
def decodeRecord (room : ℕ) (line : Bytes) : Except PyError (Option (Record F)) :=
  match readLine (F := F) room line with
  | .error e => .error e
  | .ok (some (.obj members)) => decodeMembers members
  | .ok _ => .ok none

variable (F) in
/- The trustworthy id of a corrupt but complete line. -/
def recoverRecordId (room : ℕ) (line : Bytes) : Except PyError (Option ℕ) :=
  match readLine (F := F) room line with
  | .error e => .error e
  | .ok (some (.obj members)) => .ok (positiveInt (Json.getItem members (pyStr "record_id")))
  | .ok _ => .ok none

theorem recoverRecordId_of_decodeRecord {room : ℕ} {line : Bytes} {r : Record F}
    (h : decodeRecord room line = .ok (some r)) :
    recoverRecordId F room line = .ok (some r.recordId) ∧ 1 ≤ r.recordId := by
  unfold decodeRecord at h
  unfold recoverRecordId
  split at h
  · cases h
  · next members =>
    simp only [decodeMembers] at h
    split at h
    · next hBody hId _ _ _ _ =>
      split at h
      · cases h
      · cases h
      · cases h
        refine ⟨congrArg Except.ok hId, ?_⟩
        unfold positiveInt at hId
        split at hId
        · split_ifs at hId with hPos
          have hEq := Option.some.inj hId
          simp only
          omega
        · cases hId
    · cases h
  · cases h

end SingboxOps.RemoteProbe
