import SingboxOps.Lib.Dict
import SingboxOps.Lib.Except
import SingboxOps.Lib.Utf8

/-
  The decoder of connection events.

  A position in the buffer is the list of the bytes from it
  on.  A field that occurs again turns its entry into a list,
  whatever the callers expect.
-/

namespace SingboxOps.ProtoWire

/- The exceptions that leave the decoder. -/
inductive Raised where
  | protoDecode (message : String)
  | typeError (message : String)
deriving DecidableEq

-- The wire

def wireVarint : ℕ := 0
def wireFixed64 : ℕ := 1
def wireLen : ℕ := 2
def wireFixed32 : ℕ := 5

def decodeVarint (result shift : ℕ) : Bytes → Except Raised (ℕ × Bytes)
  | [] => .error (.protoDecode "truncated varint")
  | byte :: rest =>
    let result := result ||| ((byte.toNat &&& 0x7F) <<< shift)
    if byte.toNat &&& 0x80 = 0 then .ok (result, rest)
    else if shift + 7 > 70 then .error (.protoDecode "varint too long")
    else decodeVarint result (shift + 7) rest

def toSigned64 (unsigned : ℕ) : ℤ :=
  if unsigned ≥ 2 ^ 63 then (unsigned : ℤ) - 2 ^ 64
  else unsigned

/- A value as the wire gives it. -/
inductive Raw where
  | int (value : ℤ)
  | bytes (value : Bytes)
deriving DecidableEq

def takeBytes (count : ℕ) (short : String) (buf : Bytes) : Except Raised (Raw × Bytes) :=
  if count > buf.length then .error (.protoDecode short)
  else .ok (.bytes (buf.take count), buf.drop count)

def readValue (wireType : ℕ) (buf : Bytes) : Except Raised (Raw × Bytes) :=
  if wireType = wireVarint then do
    let (raw, rest) ← decodeVarint 0 0 buf
    return (.int (toSigned64 raw), rest)
  else if wireType = wireLen then do
    let (length, rest) ← decodeVarint 0 0 buf
    takeBytes length "length-delimited field overruns buffer" rest
  else if wireType = wireFixed64 then
    takeBytes 8 "truncated fixed64" buf
  else if wireType = wireFixed32 then
    takeBytes 4 "truncated fixed32" buf
  else
    .error (.protoDecode ("unsupported wire type " ++ toString wireType))

/- The part of a turn of the loop that reads. -/
def readField (buf : Bytes) : Except Raised ((ℕ × Raw) × Bytes) := do
  let (tag, rest) ← decodeVarint 0 0 buf
  let (value, rest) ← readValue (tag &&& 0x07) rest
  return ((tag >>> 3, value), rest)

theorem decodeVarint_length {result shift n : ℕ} {buf rest : Bytes}
    (h : decodeVarint result shift buf = .ok (n, rest)) : rest.length < buf.length := by
  induction buf generalizing result shift with
  | nil => cases h
  | cons byte tail ih =>
    rw [decodeVarint] at h
    split at h
    · cases h
      exact Nat.lt_succ_self _
    · split at h
      · cases h
      · exact Nat.lt_succ_of_lt (ih h)

theorem takeBytes_length {count : ℕ} {short : String} {buf rest : Bytes} {value : Raw}
    (h : takeBytes count short buf = .ok (value, rest)) : rest.length ≤ buf.length := by
  rw [takeBytes] at h
  split at h
  · cases h
  · cases h
    simp

theorem readValue_length {wireType : ℕ} {buf rest : Bytes} {value : Raw}
    (h : readValue wireType buf = .ok (value, rest)) : rest.length ≤ buf.length := by
  rw [readValue] at h
  split at h
  · rcases except_bind_ok h with ⟨⟨n, tail⟩, hVarint, hRest⟩
    cases hRest
    exact Nat.le_of_lt (decodeVarint_length hVarint)
  · split at h
    · rcases except_bind_ok h with ⟨⟨n, tail⟩, hVarint, hRest⟩
      have hTail : rest.length ≤ tail.length := takeBytes_length hRest
      have hBuf : tail.length < buf.length := decodeVarint_length hVarint
      omega
    · split at h
      · exact takeBytes_length h
      · split at h
        · exact takeBytes_length h
        · cases h

theorem readField_length {buf rest : Bytes} {field : ℕ × Raw}
    (h : readField buf = .ok (field, rest)) : rest.length < buf.length := by
  rcases except_bind_ok h with ⟨⟨tag, tail⟩, hTag, hField⟩
  rcases except_bind_ok hField with ⟨⟨value, tail'⟩, hValue, hRest⟩
  cases hRest
  have hTail : rest.length ≤ tail.length := readValue_length hValue
  have hBuf : tail.length < buf.length := decodeVarint_length hTag
  omega

-- Messages

inductive Kind where
  | varint
  | bool
  | string
  | message
deriving DecidableEq

/- `{field_number: (name, kind)}` -/
abbrev Spec := Dict ℕ (String × Kind)

inductive Scalar where
  | int (value : ℤ)
  | bool (value : Bool)
  | text (value : PyStr)
  | bytes (value : Bytes)
deriving DecidableEq

/- An entry of the dictionary a message decodes to. -/
inductive Cell where
  | one (value : Scalar)
  | many (values : List Scalar)
deriving DecidableEq

abbrev Values := Dict String Cell

def decodeKind : Kind → Raw → Option Scalar
  | .varint, .int value => some (.int value)
  | .bool, .int value => some (.bool (decide (value ≠ 0)))
  | .bool, .bytes value => some (.bool (decide (value ≠ [])))
  | .string, .bytes value => some (.text (utf8Replace value))
  | .message, .bytes value => some (.bytes value)
  | _, _ => none

/- The part of a turn of the loop that keeps what was read. -/
def store (spec : Spec) (values : Values) (field : ℕ × Raw) : Values := match spec.get field.1 with
  | none => values
  | some (name, kind) =>
    match decodeKind kind field.2 with
    | none => values
    | some decoded =>
      match values.get name with
      | none => values.set name (.one decoded)
      | some (.one first) => values.set name (.many [first, decoded])
      | some (.many all) => values.set name (.many (all ++ [decoded]))

def decodeLoop (spec : Spec) (values : Values) (buf : Bytes) : Except Raised Values := match buf with
  | [] => .ok values
  | byte :: tail =>
    match _hField : readField (byte :: tail) with
    | .error e => .error e
    | .ok (field, rest) => decodeLoop spec (store spec values field) rest
termination_by buf.length
decreasing_by exact readField_length _hField

def decodeMessage (buf : Bytes) (spec : Spec) : Except Raised Values := decodeLoop spec [] buf

-- The concrete messages

def connectionSpec : Spec := [(1, ("id", .string)), (2, ("inbound", .string)), (3, ("inbound_type", .string)),
   (4, ("ip_version", .varint)),
   (5, ("network", .string)),
   (6, ("source", .string)),
   (7, ("destination", .string)),
   (10, ("user", .string)),
   (12, ("created_at", .varint)),
   (13, ("closed_at", .varint)),
   (16, ("uplink_total", .varint)),
   (17, ("downlink_total", .varint))]

def connectionEventSpec : Spec := [(1, ("type", .varint)), (2, ("id", .string)),
   (3, ("connection", .message)),
   (4, ("uplink_delta", .varint)),
   (5, ("downlink_delta", .varint)),
   (6, ("closed_at", .varint))]

def connectionEventsSpec : Spec := [(1, ("events", .message)), (2, ("reset", .bool))]

def eventTypeNames : Dict ℤ String := [(0, "NEW"), (1, "UPDATE"), (2, "CLOSED")]

/- `_EVENT_TYPE_NAMES.get(n, "UNKNOWN_%d" % n)` of a number -/
def eventTypeName (n : ℤ) : String := (eventTypeNames.get n).getD ("UNKNOWN_" ++ toString n)

/-
  A conversion that takes a number and nothing else.  A field
  of kind `varint` holds integers, so the only other entry it
  can meet is a list.
-/
def number (message : String) : Cell → Except Raised ℤ
  | .one (.int value) => .ok value
  | _ => .error (.typeError message)

/- The nearest of the numbers of 53 bits, ties to even. -/
def roundNat (n : ℕ) : ℕ :=
  let exponent := n.log2 - 52
  let unit := 2 ^ exponent
  let quotient := n / unit
  let remainder := n % unit
  if 2 * remainder > unit ∨
      (2 * remainder = unit ∧ quotient % 2 = 1) then
    (quotient + 1) * unit
  else quotient * unit

/- The value of `float(n)`, which is a whole number. -/
def floatOfInt (n : ℤ) : ℤ := if n < 0 then -(roundNat n.natAbs : ℤ) else roundNat n.natAbs

structure Event where
  type : String
  id : Cell
  connection : Option Values
  uplinkDelta : ℤ
  downlinkDelta : ℤ
  closedAt : ℤ
deriving DecidableEq

structure Batch where
  reset : Bool
  events : List Event
deriving DecidableEq

def decodeConnection (raw : Bytes) : Except Raised Values := decodeMessage raw connectionSpec

/- The entry of a key, or the default of the call. -/
def Values.field (values : Values) (name : String) (default : Scalar) : Cell :=
  (values.get name).getD (.one default)

/- The connection of an event, if its entry is one message. -/
def connectionOf (fields : Values) : Except Raised (Option Values) := match fields.get "connection" with
  | some (.one (.bytes raw)) => (decodeConnection raw).map some
  | _ => .ok none

def decodeConnectionEvent (raw : Bytes) : Except Raised Event := do
  let fields ← decodeMessage raw connectionEventSpec
  let type ← number "%d format: a real number is required, not list" (fields.field "type" (.int 0))
  let connection ← connectionOf fields
  let uplinkDelta ← number "float() argument must be a string or a real number, not 'list'"
    (fields.field "uplink_delta" (.int 0))
  let downlinkDelta ← number "float() argument must be a string or a real number, not 'list'"
    (fields.field "downlink_delta" (.int 0))
  let closedAt ← number "int() argument must be a string, a bytes-like object or a real number, not 'list'"
    (fields.field "closed_at" (.int 0))
  return {
    type := eventTypeName type
    id := fields.field "id" (.text [])
    connection := connection
    uplinkDelta := floatOfInt uplinkDelta
    downlinkDelta := floatOfInt downlinkDelta
    closedAt := closedAt }

/- The loop over the raw events; what is no bytes is left out. -/
def decodeEach : List Scalar → Except Raised (List Event)
  | [] => .ok []
  | .bytes raw :: rest => do
      let event ← decodeConnectionEvent raw
      let events ← decodeEach rest
      return event :: events
  | _ :: rest => decodeEach rest

def Cell.items : Cell → List Scalar
  | one value => [value]
  | many values => values

/- `bool(value)` -/
def Scalar.truth : Scalar → Bool
  | int value => decide (value ≠ 0)
  | bool value => value
  | text value => decide (value ≠ [])
  | bytes value => decide (value ≠ [])

def Cell.truth : Cell → Bool
  | one value => value.truth
  | many values => decide (values ≠ [])

def decodeConnectionEvents (raw : Bytes) : Except Raised Batch := do
  let fields ← decodeMessage raw connectionEventsSpec
  let events ← decodeEach (((fields.get "events").map Cell.items).getD [])
  return {
    reset := (fields.field "reset" (.bool false)).truth
    events := events }

end SingboxOps.ProtoWire
