import SingboxOps.Lib.Text
import Mathlib.Data.List.Basic
import Mathlib.Data.Nat.Bitwise

/-
  The protobuf wire format: the records a message is written
  as, their encodings as a relation, and what the records of a
  number denote.

  A number has many encodings and a message many
  serializations, so both are relations.  The body of a group
  is itself a serialization.
-/

namespace SingboxOps.Protobuf

-- Numbers

/- Base 128, least significant group first. -/
inductive Varint : ℕ → Bytes → Prop where
  | last {byte : UInt8} (hLast : byte.toNat < 128) : Varint byte.toNat [byte]
  | more {byte : UInt8} {n : ℕ} {rest : Bytes}
      (hMore : 128 ≤ byte.toNat) (hRest : Varint n rest) :
      Varint (byte.toNat - 128 + 128 * n) (byte :: rest)

/- A number of 64 bits, padded to ten bytes at most. -/
structure Varint64 (n : ℕ) (bytes : Bytes) : Prop where
  spells : Varint n bytes
  short : bytes.length ≤ 10
  fits : n < 2 ^ 64

/- A field number with a wire type. -/
structure Tag (number wireType : ℕ) (bytes : Bytes) : Prop where
  positive : 0 < number
  bounded : number < 2 ^ 29
  spells : Varint64 (number * 8 + wireType) bytes

/- Two's complement of 64 bits. -/
def signed64 (n : ℕ) : ℤ := (BitVec.ofNat 64 n).toInt

theorem Varint.ne_nil {n : ℕ} {bytes : Bytes} (h : Varint n bytes) : bytes ≠ [] := by
  cases h <;> simp

-- Messages

inductive Payload where
  | varint (n : ℕ)
  | fixed64 (bytes : Bytes)
  | len (bytes : Bytes)
  | group (body : Bytes)
  | fixed32 (bytes : Bytes)
deriving DecidableEq

structure Record where
  number : ℕ
  payload : Payload
deriving DecidableEq

/- The serializations of a list of records. -/
inductive Encodes : List Record → Bytes → Prop where
  | nil : Encodes [] []
  | varint {number n : ℕ} {tag value rest : Bytes}
      {records : List Record}
      (hTag : Tag number 0 tag) (hValue : Varint64 n value)
      (hRest : Encodes records rest) :
      Encodes (⟨number, .varint n⟩ :: records) (tag ++ (value ++ rest))
  | fixed64 {number : ℕ} {tag value rest : Bytes}
      {records : List Record}
      (hTag : Tag number 1 tag) (hValue : value.length = 8)
      (hRest : Encodes records rest) :
      Encodes (⟨number, .fixed64 value⟩ :: records) (tag ++ (value ++ rest))
  | len {number : ℕ} {tag length value rest : Bytes}
      {records : List Record}
      (hTag : Tag number 2 tag)
      (hLength : Varint64 value.length length)
      (hRest : Encodes records rest) :
      Encodes (⟨number, .len value⟩ :: records) (tag ++ (length ++ (value ++ rest)))
  | group {number : ℕ} {tag body close rest : Bytes}
      {inner records : List Record}
      (hTag : Tag number 3 tag) (hBody : Encodes inner body)
      (hClose : Tag number 4 close)
      (hRest : Encodes records rest) :
      Encodes (⟨number, .group body⟩ :: records) (tag ++ (body ++ (close ++ rest)))
  | fixed32 {number : ℕ} {tag value rest : Bytes}
      {records : List Record}
      (hTag : Tag number 5 tag) (hValue : value.length = 4)
      (hRest : Encodes records rest) :
      Encodes (⟨number, .fixed32 value⟩ :: records) (tag ++ (value ++ rest))

def Record.isGroup (r : Record) : Bool := match r.payload with
  | .group _ => true
  | _ => false

/- The payloads of one number, in their order. -/
def payloads (number : ℕ) (records : List Record) : List Payload :=
  (records.filter (fun r => r.number = number)).map Record.payload

def Payload.varint? : Payload → Option ℕ
  | varint n => some n
  | _ => none

def Payload.len? : Payload → Option Bytes
  | len bytes => some bytes
  | _ => none

def varints (number : ℕ) (records : List Record) : List ℕ :=
  (payloads number records).filterMap Payload.varint?

def lens (number : ℕ) (records : List Record) : List Bytes := (payloads number records).filterMap Payload.len?

theorem eq_map_varint {ps : List Payload} (h : ∀ p ∈ ps, ∃ n, p = .varint n) :
    ps = (ps.filterMap Payload.varint?).map Payload.varint := by
  induction ps with
  | nil => rfl
  | cons p rest ih =>
    rcases h p (by simp) with ⟨n, rfl⟩
    have hRest := ih (fun q hq => h q (by simp [hq]))
    exact congrArg (Payload.varint n :: ·) hRest

theorem eq_map_len {ps : List Payload} (h : ∀ p ∈ ps, ∃ bytes, p = .len bytes) :
    ps = (ps.filterMap Payload.len?).map Payload.len := by
  induction ps with
  | nil => rfl
  | cons p rest ih =>
    rcases h p (by simp) with ⟨bytes, rfl⟩
    have hRest := ih (fun q hq => h q (by simp [hq]))
    exact congrArg (Payload.len bytes :: ·) hRest

/- Of a singular field the last occurrence counts. -/
def lastInt (number : ℕ) (records : List Record) : ℤ := signed64 ((varints number records).getLast?.getD 0)

def lastBool (number : ℕ) (records : List Record) : Bool :=
  decide ((varints number records).getLast?.getD 0 ≠ 0)

def lastBytes (number : ℕ) (records : List Record) : Bytes := (lens number records).getLast?.getD []

end SingboxOps.Protobuf
