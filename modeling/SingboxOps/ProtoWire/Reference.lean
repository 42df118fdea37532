import SingboxOps.Lib.Protobuf
import SingboxOps.ProtoWire.Reading
import Mathlib.Data.Nat.Bitwise
import Mathlib.Tactic.Ring

/-
  What a serialization of a connection batch denotes, and how
  the decoder reads any serialization.

  The tables are those of the official messages, as far as
  the batch carries their fields; every other number is an
  unknown field and may have any payload.
-/

namespace SingboxOps.ProtoWire

open Protobuf

-- Denoted messages

inductive FieldType where
  | int32
  | int64
  | bool
  | string
  | message
deriving DecidableEq

/- The payloads that a field of a type is written as. -/
def FieldType.Holds : FieldType → Payload → Prop
  | int32, .varint n => -2 ^ 31 ≤ signed64 n ∧ signed64 n < 2 ^ 31
  | int64, .varint _ => True
  | bool, .varint _ => True
  | string, .len bytes => (utf8Decode bytes).isSome
  | message, .len _ => True
  | _, _ => False

/- Field numbers, with the names the batch has for them. -/
abbrev Schema := List (ℕ × String × FieldType)

def connectionSchema : Schema := [(1, "id", .string), (2, "inbound", .string), (3, "inbound_type", .string),
   (4, "ip_version", .int32),
   (5, "network", .string),
   (6, "source", .string),
   (7, "destination", .string),
   (10, "user", .string),
   (12, "created_at", .int64),
   (13, "closed_at", .int64),
   (16, "uplink_total", .int64),
   (17, "downlink_total", .int64)]

def eventSchema : Schema := [(1, "type", .int32), (2, "id", .string), (3, "connection", .message),
   (4, "uplink_delta", .int64),
   (5, "downlink_delta", .int64),
   (6, "closed_at", .int64)]

def eventsSchema : Schema := [(1, "events", .message), (2, "reset", .bool)]

/- A serialization whose known fields are of their types. -/
structure Valid (schema : Schema) (records : List Record) (raw : Bytes) : Prop where
  encodes : Encodes records raw
  typed : ∀ r ∈ records, ∀ e ∈ schema, e.1 = r.number → e.2.2.Holds r.payload

structure EventMessage where
  type : ℤ
  id : PyStr
  connection : Option (List Record)
  uplinkDelta : ℤ
  downlinkDelta : ℤ
  closedAt : ℤ
deriving DecidableEq

structure EventsMessage where
  events : List EventMessage
  reset : Bool
deriving DecidableEq

/-
  A message in several parts is the one of all their records;
  what a connection denotes is read off the records.
-/
def DenotesConnection (parts : List Bytes) : Option (List Record) → Prop
  | none => parts = []
  | some records =>
    parts ≠ [] ∧ (∀ part ∈ parts, ∃ own, Valid connectionSchema own part) ∧
      Valid connectionSchema records parts.flatten

structure DenotesEvent (records : List Record) (raw : Bytes) (m : EventMessage) : Prop where
  valid : Valid eventSchema records raw
  type : m.type = lastInt 1 records
  id : utf8Decode (lastBytes 2 records) = some m.id
  connection : DenotesConnection (lens 3 records) m.connection
  uplinkDelta : m.uplinkDelta = lastInt 4 records
  downlinkDelta : m.downlinkDelta = lastInt 5 records
  closedAt : m.closedAt = lastInt 6 records

structure DenotesEvents (records : List Record) (raw : Bytes) (m : EventsMessage) : Prop where
  valid : Valid eventsSchema records raw
  events : List.Forall₂ (fun part event => ∃ own, DenotesEvent own part event) (lens 1 records) m.events
  reset : m.reset = lastBool 2 records

-- Reading a serialization

theorem low_bits {byte : ℕ} (hLast : byte < 128) : byte &&& 0x7F = byte ∧ byte &&& 0x80 = 0 := by
  constructor
  · rw [Nat.and_two_pow_sub_one_eq_mod byte 7]
    omega
  · have hAll : ∀ i : Fin 128, i.val &&& 0x80 = 0 := by decide
    exact hAll ⟨byte, hLast⟩

theorem high_bits {byte : ℕ} (hMore : 128 ≤ byte)
    (hByte : byte < 256) : byte &&& 0x7F = byte - 128 ∧ byte &&& 0x80 ≠ 0 := by
  constructor
  · rw [Nat.and_two_pow_sub_one_eq_mod byte 7]
    omega
  · have hAll : ∀ i : Fin 128, (i.val + 128) &&& 0x80 ≠ 0 := by
      decide
    have hAt := hAll ⟨byte - 128, by omega⟩
    rwa [show byte - 128 + 128 = byte by omega] at hAt

theorem or_shiftLeft {low shift : ℕ} (hLow : low < 2 ^ shift)
    (high : ℕ) : low ||| (high <<< shift) = low + high * 2 ^ shift := by
  rw [Nat.or_comm, ← Nat.shiftLeft_add_eq_or_of_lt hLow, Nat.shiftLeft_eq, Nat.add_comm]

theorem decodeVarint_spells {n : ℕ} {bytes : Bytes}
    (h : Varint n bytes) {result shift : ℕ} (hResult : result < 2 ^ shift)
    (hShort : shift + 7 * bytes.length ≤ 77)
    (rest : Bytes) :
    decodeVarint result shift (bytes ++ rest) = .ok (result + n * 2 ^ shift, rest) := by
  induction h generalizing result shift with
  | @last byte hLast =>
    rw [List.singleton_append, decodeVarint]
    simp only [low_bits hLast, if_true, or_shiftLeft hResult]
  | @more byte n tail hMore hTail ih =>
    have hBits := high_bits hMore byte.toNat_lt
    have hNext : 1 ≤ tail.length := List.length_pos_iff.mpr hTail.ne_nil
    have hPow : 2 ^ (shift + 7) = 2 ^ shift * 128 := Nat.pow_add 2 shift 7
    have hGroup : byte.toNat - 128 < 128 := by
      have hByte := byte.toNat_lt
      omega
    have hBelow : result + (byte.toNat - 128) * 2 ^ shift < 2 ^ (shift + 7) := by
      rw [hPow]
      have hTop : (byte.toNat - 128) * 2 ^ shift ≤ 127 * 2 ^ shift := Nat.mul_le_mul_right _ (by omega)
      omega
    rw [List.length_cons] at hShort
    rw [List.cons_append, decodeVarint]
    simp only [hBits.1, if_neg hBits.2, or_shiftLeft hResult]
    rw [if_neg (by omega), ih hBelow (by omega), hPow]
    congr 2
    ring

theorem decodeVarint_of_varint64 {n : ℕ} {bytes : Bytes} (h : Varint64 n bytes)
    (rest : Bytes) : decodeVarint 0 0 (bytes ++ rest) = .ok (n, rest) := by
  have hShort := h.short
  rw [decodeVarint_spells h.spells (by decide) (by omega)]
  simp

theorem readField_of_tag {number wireType : ℕ} {tag : Bytes}
    (hTag : Tag number wireType tag) (hType : wireType < 8)
    (rest : Bytes) :
    readField (tag ++ rest) = (readValue wireType rest).map (fun r => ((number, r.1), r.2)) := by
  have hLow : (number * 8 + wireType) &&& 0x07 = wireType := by
    rw [Nat.and_two_pow_sub_one_eq_mod _ 3]
    omega
  have hHigh : (number * 8 + wireType) >>> 3 = number := by
    rw [Nat.shiftRight_eq_div_pow]
    omega
  rw [readField, decodeVarint_of_varint64 hTag.spells]
  change (readValue _ rest >>= _) = _
  rw [hLow, hHigh]
  cases readValue wireType rest <;> rfl

theorem takeBytes_append (value rest : Bytes) (short : String) :
    takeBytes value.length short (value ++ rest) = .ok (.bytes value, rest) := by
  rw [takeBytes, if_neg (by simp)]
  simp

def Payload.raw : Payload → Raw
  | .varint n => .int (toSigned64 n)
  | .fixed64 bytes => .bytes bytes
  | .len bytes => .bytes bytes
  | .group body => .bytes body
  | .fixed32 bytes => .bytes bytes

def fieldOf (r : Record) : ℕ × Raw := (r.number, Payload.raw r.payload)

theorem tag_append_ne_nil {number wireType : ℕ} {tag : Bytes} (hTag : Tag number wireType tag)
    (rest : Bytes) : tag ++ rest ≠ [] := by
  have hTagBytes := hTag.spells.spells.ne_nil
  simp [hTagBytes]

theorem readFields_encodes {records : List Record} {raw : Bytes} (h : Encodes records raw) : readFields raw =
      if records.any Record.isGroup then
        .error (.protoDecode "unsupported wire type 3")
      else .ok (records.map fieldOf) := by
  induction h with
  | nil =>
    rw [readFields]
    rfl
  | @varint number n tag value rest records hTag hValue hRest ih =>
    have hField := readField_of_tag hTag (by decide) (value ++ rest)
    have hRead : readValue 0 (value ++ rest) = .ok (.int (toSigned64 n), rest) := by
      rw [readValue, if_pos (by rfl), decodeVarint_of_varint64 hValue]
      rfl
    rw [hRead] at hField
    rw [readFields_of_ok hField, ih]
    simp only [List.any_cons, Record.isGroup, Bool.false_or]
    split <;> rfl
  | @fixed64 number tag value rest records hTag hValue hRest ih =>
    have hField := readField_of_tag hTag (by decide) (value ++ rest)
    have hRead : readValue 1 (value ++ rest) = .ok (.bytes value, rest) := by
      rw [readValue, if_neg (by decide), if_neg (by decide),
        if_pos (by rfl), ← hValue, takeBytes_append]
    rw [hRead] at hField
    rw [readFields_of_ok hField, ih]
    simp only [List.any_cons, Record.isGroup, Bool.false_or]
    split <;> rfl
  | @len number tag length value rest records hTag hLength hRest ih =>
    have hField := readField_of_tag hTag (by decide)
      (length ++ (value ++ rest))
    have hRead : readValue 2 (length ++ (value ++ rest)) = .ok (.bytes value, rest) := by
      rw [readValue, if_neg (by decide), if_pos (by rfl),
        decodeVarint_of_varint64 hLength]
      exact takeBytes_append value rest _
    rw [hRead] at hField
    rw [readFields_of_ok hField, ih]
    simp only [List.any_cons, Record.isGroup, Bool.false_or]
    split <;> rfl
  | @group number tag body close rest inner records hTag hBody
      hClose hRest ihBody ih =>
      have hField := readField_of_tag hTag (by decide)
        (body ++ (close ++ rest))
      have hRead : readValue 3 (body ++ (close ++ rest)) =
          .error (.protoDecode "unsupported wire type 3") := by
        rw [readValue, if_neg (by decide), if_neg (by decide),
          if_neg (by decide), if_neg (by decide)]
        rfl
      rw [hRead] at hField
      rw [readFields_of_error (tag_append_ne_nil hTag _) hField]
      rfl
  | @fixed32 number tag value rest records hTag hValue hRest ih =>
    have hField := readField_of_tag hTag (by decide) (value ++ rest)
    have hRead : readValue 5 (value ++ rest) = .ok (.bytes value, rest) := by
      rw [readValue, if_neg (by decide), if_neg (by decide),
        if_neg (by decide), if_pos (by rfl), ← hValue,
        takeBytes_append]
    rw [hRead] at hField
    rw [readFields_of_ok hField, ih]
    simp only [List.any_cons, Record.isGroup, Bool.false_or]
    split <;> rfl

theorem toSigned64_eq {n : ℕ} (hn : n < 2 ^ 64) : toSigned64 n = signed64 n := by
  rw [toSigned64, signed64, BitVec.toInt_eq_toNat_cond, BitVec.toNat_ofNat, Nat.mod_eq_of_lt hn]
  split <;> split <;> omega

theorem lt_of_encodes {records : List Record} {raw : Bytes}
    (h : Encodes records raw) {r : Record} (hMem : r ∈ records) {n : ℕ}
    (hPayload : r.payload = .varint n) : n < 2 ^ 64 := by
  induction h with
  | nil => cases hMem
  | varint hTag hValue hRest ih =>
    rcases List.mem_cons.mp hMem with rfl | hRecord
    · cases hPayload
      exact hValue.fits
    · exact ih hRecord
  | fixed64 hTag hValue hRest ih =>
    rcases List.mem_cons.mp hMem with rfl | hRecord
    · cases hPayload
    · exact ih hRecord
  | len hTag hLength hRest ih =>
    rcases List.mem_cons.mp hMem with rfl | hRecord
    · cases hPayload
    · exact ih hRecord
  | group hTag hBody hClose hRest ihBody ih =>
    rcases List.mem_cons.mp hMem with rfl | hRecord
    · cases hPayload
    · exact ih hRecord
  | fixed32 hTag hValue hRest ih =>
    rcases List.mem_cons.mp hMem with rfl | hRecord
    · cases hPayload
    · exact ih hRecord

theorem mem_payloads {number : ℕ} {records : List Record} {p : Payload} (hMem : p ∈ payloads number records) :
    ∃ r ∈ records, r.number = number ∧ r.payload = p := by
  rcases List.mem_map.mp hMem with ⟨r, hRecord, hPayload⟩
  rcases List.mem_filter.mp hRecord with ⟨hIn, hNumber⟩
  exact ⟨r, hIn, of_decide_eq_true hNumber, hPayload⟩

theorem varint_lt {records : List Record} {raw : Bytes} (h : Encodes records raw) {number n : ℕ}
    (hMem : n ∈ varints number records) : n < 2 ^ 64 := by
  rcases List.mem_filterMap.mp hMem with ⟨p, hPayload, hInt⟩
  rcases mem_payloads hPayload with ⟨r, hRecord, -, hOwn⟩
  apply lt_of_encodes h hRecord
  cases p with
  | varint k =>
    cases hInt
    exact hOwn
  | fixed64 bytes => cases hInt
  | len bytes => cases hInt
  | group body => cases hInt
  | fixed32 bytes => cases hInt

theorem valuesOf_fieldOf (number : ℕ) (records : List Record) :
    valuesOf number (records.map fieldOf) = (payloads number records).map Payload.raw := by
  induction records with
  | nil => rfl
  | cons r rest ih =>
    rw [valuesOf, payloads] at *
    by_cases hNumber : r.number = number
    · rw [List.map_cons, List.filter_cons_of_pos (by simp [fieldOf, hNumber]),
        List.filter_cons_of_pos (by simp [hNumber]),
        List.map_cons, List.map_cons, List.map_cons, ih]
      rfl
    · rw [List.map_cons, List.filter_cons_of_neg (by simp [fieldOf, hNumber]),
        List.filter_cons_of_neg (by simp [hNumber]), ih]

theorem intValues_fieldOf (number : ℕ) (records : List Record) :
    intValues number (records.map fieldOf) = (varints number records).map toSigned64 := by
  rw [intValues, valuesOf_fieldOf, varints, List.filterMap_map, List.map_filterMap]
  congr 1
  funext p
  cases p <;> rfl

theorem last_intValues {records : List Record} {raw : Bytes} (h : Encodes records raw) (number : ℕ) :
    (intValues number (records.map fieldOf)).getLast?.getD 0 = lastInt number records := by
  rw [intValues_fieldOf, List.getLast?_map, lastInt]
  cases hLast : (varints number records).getLast? with
  | none => rfl
  | some n => exact toSigned64_eq (varint_lt h (List.mem_of_getLast? hLast))

-- Typed fields

variable {schema : Schema} {records : List Record} {raw : Bytes}

theorem Valid.holds (hValid : Valid schema records raw) {number : ℕ} {name : String} {type : FieldType}
    (hEntry : (number, name, type) ∈ schema) {p : Payload}
    (hMem : p ∈ payloads number records) : type.Holds p := by
  rcases mem_payloads hMem with ⟨r, hRecord, hNumber, rfl⟩
  exact hValid.typed r hRecord _ hEntry hNumber.symm

/- A type that is written as a number. -/
def FieldType.isNumber : FieldType → Bool
  | int32 => true
  | int64 => true
  | bool => true
  | string => false
  | message => false

theorem FieldType.Holds.varint {type : FieldType} {p : Payload} (h : type.Holds p)
    (hNumber : type.isNumber = true) : ∃ n, p = .varint n := by
  cases p with
  | varint n => exact ⟨n, rfl⟩
  | fixed64 bytes => cases type <;> cases h
  | len bytes =>
    cases type <;>
      first | exact absurd hNumber (by decide) | exact h.elim
  | group body => cases type <;> cases h
  | fixed32 bytes => cases type <;> cases h

theorem FieldType.Holds.len {type : FieldType} {p : Payload} (h : type.Holds p)
    (hNumber : type.isNumber = false) : ∃ bytes, p = .len bytes := by
  cases p with
  | varint n =>
    cases type <;>
      first | exact absurd hNumber (by decide) | exact h.elim
  | fixed64 bytes => cases type <;> cases h
  | len bytes => exact ⟨bytes, rfl⟩
  | group body => cases type <;> cases h
  | fixed32 bytes => cases type <;> cases h

theorem Valid.numbers (hValid : Valid schema records raw)
    {number : ℕ} {name : String} {type : FieldType} (hEntry : (number, name, type) ∈ schema)
    (hNumber : type.isNumber = true) :
    valuesOf number (records.map fieldOf) = (varints number records).map (fun n => .int (toSigned64 n)) := by
  have hAll : payloads number records = _ := eq_map_varint
    (fun p hp => (hValid.holds hEntry hp).varint hNumber)
  rw [valuesOf_fieldOf, hAll, ← varints, List.map_map]
  rfl

theorem Valid.lengths (hValid : Valid schema records raw)
    {number : ℕ} {name : String} {type : FieldType} (hEntry : (number, name, type) ∈ schema)
    (hNumber : type.isNumber = false) :
    valuesOf number (records.map fieldOf) = (lens number records).map Raw.bytes := by
  have hAll : payloads number records = _ := eq_map_len (fun p hp => (hValid.holds hEntry hp).len hNumber)
  rw [valuesOf_fieldOf, hAll, ← lens, List.map_map]
  rfl

theorem filterMap_bytes (parts : List Bytes) : (parts.map Raw.bytes).filterMap Raw.bytes? = parts := by
  rw [List.filterMap_map]
  exact List.filterMap_some

theorem filterMap_ints (ns : List ℕ) : (ns.map (fun n => Raw.int (toSigned64 n))).filterMap
      Raw.int? = ns.map toSigned64 := by
  rw [List.filterMap_map]
  change ns.filterMap (some ∘ toSigned64) = _
  exact congrFun List.filterMap_eq_map ns

theorem Valid.text (hValid : Valid schema records raw) {number : ℕ} {name : String}
    (hEntry : (number, name, .string) ∈ schema) :
    utf8Decode (lastBytes number records) = some (utf8Replace (lastBytes number records)) := by
  have hSome : (utf8Decode (lastBytes number records)).isSome := by
    rw [lastBytes]
    cases hLast : (lens number records).getLast? with
    | none => rfl
    | some bytes =>
      rcases List.mem_filterMap.mp (List.mem_of_getLast? hLast) with ⟨p, hMem, hLen⟩
      have hHolds := hValid.holds hEntry hMem
      cases p with
      | len own =>
        cases hLen
        exact hHolds
      | varint n => cases hLen
      | fixed64 own => cases hLen
      | group own => cases hLen
      | fixed32 own => cases hLen
  rcases Option.isSome_iff_exists.mp hSome with ⟨text, hText⟩
  rw [utf8Replace_of_decode hText, hText]

end SingboxOps.ProtoWire
