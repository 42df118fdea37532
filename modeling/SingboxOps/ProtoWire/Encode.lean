import SingboxOps.ProtoWire.Reference

/-
  The encoder of fields, and the decoder on what it wrote.
-/

namespace SingboxOps.ProtoWire

open Protobuf

-- Encoding

/- The groups of a natural number, least significant first. -/
def encodeGroups (value : ℕ) : Bytes :=
  if value >>> 7 = 0 then [UInt8.ofNat (value &&& 0x7F)]
  else
    UInt8.ofNat (value &&& 0x7F ||| 0x80) :: encodeGroups (value >>> 7)
termination_by value
decreasing_by
  rw [Nat.shiftRight_eq_div_pow] at *
  omega

/- `encode_varint`; `none` is its `ValueError`. -/
def encodeVarint (value : ℤ) : Option Bytes :=
  if value < 0 then none else some (encodeGroups value.toNat)

/- `encode_length_delimited` -/
def encodeLengthDelimited (fieldNumber : ℕ) (payload : Bytes) : Option Bytes := do
  let tag ← encodeVarint ((fieldNumber <<< 3 ||| wireLen : ℕ) : ℤ)
  let length ← encodeVarint payload.length
  return tag ++ length ++ payload

/- `encode_varint_field` -/
def encodeVarintField (fieldNumber : ℕ) (value : ℤ) : Option Bytes := do
  let tag ← encodeVarint ((fieldNumber <<< 3 ||| wireVarint : ℕ) : ℤ)
  let groups ← encodeVarint value
  return tag ++ groups

/- A value that is written; no `bytes` object is longer. -/
inductive Written where
  | varint (value : ℕ) (small : value < 2 ^ 63)
  | payload (value : Bytes) (small : value.length < 2 ^ 63)

structure Field where
  number : ℕ
  positive : 1 ≤ number
  written : Written

def Field.encode (f : Field) : Option Bytes := match f.written with
  | .varint value _ => encodeVarintField f.number value
  | .payload value _ => encodeLengthDelimited f.number value

/- The concatenated encodings of the fields. -/
def encodeFields : List Field → Option Bytes
  | [] => some []
  | f :: rest => do
    let bytes ← f.encode
    let more ← encodeFields rest
    return bytes ++ more

-- What Is Read Back

/- What a kind makes of a value that was written. -/
def Kind.reads : Kind → Written → Option Scalar
  | .varint, .varint value _ => some (.int value)
  | .bool, .varint value _ => some (.bool (decide (value ≠ 0)))
  | .bool, .payload value _ => some (.bool (decide (value ≠ [])))
  | .string, .payload value _ => some (.text (utf8Replace value))
  | .message, .payload value _ => some (.bytes value)
  | _, _ => none

/- The values of a name, in the order of its fields. -/
def valuesFor (spec : Spec) (name : String) (fields : List Field) : List Scalar := fields.filterMap (fun f =>
    match spec.get f.number with
    | some (own, kind) => if own = name then kind.reads f.written else none
    | none => none)

theorem encodeGroups_spells (value : ℕ) : Varint value (encodeGroups value) := by
  induction value using encodeGroups.induct with
  | case1 value hLast =>
    rw [encodeGroups, if_pos hLast]
    rw [Nat.shiftRight_eq_div_pow] at hLast
    have hByte : (UInt8.ofNat (value &&& 0x7F)).toNat = value := by
      rw [Nat.and_two_pow_sub_one_eq_mod value 7, UInt8.toNat_ofNat']
      omega
    have hVarint : Varint (UInt8.ofNat (value &&& 0x7F)).toNat [UInt8.ofNat (value &&& 0x7F)] :=
      Varint.last (by omega)
    rwa [hByte] at hVarint
  | case2 value hMore ih =>
    rw [encodeGroups, if_neg hMore]
    have hByte : (UInt8.ofNat (value &&& 0x7F ||| 0x80)).toNat = value % 128 + 128 := by
      rw [Nat.and_two_pow_sub_one_eq_mod value 7, Nat.or_comm,
        ← Nat.two_pow_add_eq_or_of_lt (Nat.mod_lt value (by decide : 0 < 2 ^ 7)) 1,
        UInt8.toNat_ofNat']
      omega
    have hVarint := Varint.more (by omega :
      128 ≤ (UInt8.ofNat (value &&& 0x7F ||| 0x80)).toNat) ih
    have hValue : value % 128 + 128 - 128 + 128 * (value >>> 7) =
        value := by
      rw [Nat.shiftRight_eq_div_pow]
      omega
    rwa [hByte, hValue] at hVarint

theorem encodeGroups_length {value groups : ℕ}
    (hFits : value < 2 ^ (7 * (groups + 1))) : (encodeGroups value).length ≤ groups + 1 := by
  induction groups generalizing value with
  | zero =>
    rw [encodeGroups, if_pos]
    · exact le_refl 1
    · rw [Nat.shiftRight_eq_div_pow]
      omega
  | succ groups ih =>
    rw [encodeGroups]
    split
    · exact Nat.le_add_left 1 _
    · refine Nat.succ_le_succ (ih ?_)
      rw [Nat.shiftRight_eq_div_pow, Nat.div_lt_iff_lt_mul (by decide)]
      rwa [Nat.mul_succ, Nat.pow_add] at hFits

theorem decodeVarint_groups {value : ℕ} (hFits : value < 2 ^ 77)
    (rest : Bytes) : decodeVarint 0 0 (encodeGroups value ++ rest) = .ok (value, rest) := by
  have hLength : (encodeGroups value).length ≤ 10 + 1 := encodeGroups_length hFits
  rw [decodeVarint_spells (encodeGroups_spells value) (by decide) (by omega), Nat.zero_add, Nat.pow_zero,
    Nat.mul_one]

/- What a written value is on the wire. -/
def Written.raw : Written → Raw
  | .varint value _ => .int value
  | .payload value _ => .bytes value

theorem reads_eq (kind : Kind) (written : Written) : kind.reads written = decodeKind kind written.raw := by
  cases kind <;> cases written <;>
    simp [Kind.reads, Written.raw, decodeKind]

theorem readField_tag {number wireType : ℕ} (hNumber : number < 2 ^ 74) (hType : wireType < 8)
    (rest : Bytes) :
    readField (encodeGroups (number <<< 3 ||| wireType) ++ rest) =
      (readValue wireType rest).map (fun r => ((number, r.1), r.2)) := by
  have hTag : number <<< 3 ||| wireType = number * 8 + wireType := by
    rw [← Nat.shiftLeft_add_eq_or_of_lt hType, Nat.shiftLeft_eq]
  have hLow : (number * 8 + wireType) &&& 0x07 = wireType := by
    rw [Nat.and_two_pow_sub_one_eq_mod _ 3]
    omega
  have hHigh : (number * 8 + wireType) >>> 3 = number := by
    rw [Nat.shiftRight_eq_div_pow]
    omega
  rw [hTag, readField, decodeVarint_groups (by omega)]
  change (readValue _ rest >>= _) = _
  rw [hLow, hHigh]
  cases readValue wireType rest <;> rfl

theorem readField_encode {f : Field} {bytes : Bytes} (hNumber : f.number < 2 ^ 74) (h : f.encode = some bytes)
    (rest : Bytes) : readField (bytes ++ rest) = .ok ((f.number, f.written.raw), rest) := by
  rcases f with ⟨number, positive, written⟩
  cases written with
  | varint value small =>
    have hBytes : bytes = encodeGroups (number <<< 3 ||| wireVarint) ++
          encodeGroups value := (Option.some.inj h).symm
    have hSigned : toSigned64 value = value := if_neg (not_le.mpr small)
    rw [hBytes, List.append_assoc, readField_tag hNumber (by decide),
      readValue, if_pos rfl, decodeVarint_groups (by omega)]
    change Except.ok _ = _
    rw [hSigned]
    rfl
  | payload value small =>
    have hBytes : bytes = encodeGroups (number <<< 3 ||| wireLen) ++ encodeGroups value.length ++ value :=
      (Option.some.inj h).symm
    rw [hBytes, List.append_assoc, List.append_assoc, readField_tag hNumber (by decide), readValue,
      if_neg (by decide), if_pos rfl, decodeVarint_groups (by omega)]
    change (takeBytes value.length _ (value ++ rest)).map _ = _
    rw [takeBytes_append]
    rfl

theorem readFields_encodeFields {fields : List Field} (hNumbers : ∀ f ∈ fields, f.number < 2 ^ 74) :
    ∃ bytes, encodeFields fields = some bytes ∧
      readFields bytes = .ok (fields.map (fun f => (f.number, f.written.raw))) := by
  induction fields with
  | nil =>
    refine ⟨[], rfl, ?_⟩
    rw [readFields]
    rfl
  | cons f rest ih =>
    obtain ⟨more, hMore, hRead⟩ := ih (fun g hIn => hNumbers g (List.mem_cons_of_mem f hIn))
    have hEncode : ∃ bytes, f.encode = some bytes := by
      rcases f with ⟨number, positive, written⟩
      cases written with
      | varint value small => exact ⟨_, rfl⟩
      | payload value small => exact ⟨_, rfl⟩
    obtain ⟨bytes, hBytes⟩ := hEncode
    refine ⟨bytes ++ more, ?_, ?_⟩
    · rw [encodeFields, hBytes, hMore]
      rfl
    · rw [readFields_of_ok (readField_encode (hNumbers f List.mem_cons_self) hBytes more), hRead]
      rfl

/-
  A varint is read back before any tail; the fields of a
  message are read back by name, in order, as their kinds read
  them; and every turn of the decoder's loop consumes a byte
  or raises the decoder's own error.
-/
theorem wire_roundtrip : (∀ n : ℕ, n < 2 ^ 63 → ∃ bytes, encodeVarint n = some bytes ∧
        ∀ tail, decodeVarint 0 0 (bytes ++ tail) = .ok (n, tail)) ∧
    (∀ (spec : Spec) (fields : List Field), (∀ f ∈ fields, f.number < 2 ^ 74) →
        ∃ bytes values, encodeFields fields = some bytes ∧ decodeMessage bytes spec = .ok values ∧
          ∀ name, values.get name = cellOf (valuesFor spec name fields)) ∧
    (∀ buf : Bytes, (∀ field rest, readField buf = .ok (field, rest) → rest.length < buf.length) ∧
      ∀ spec, OnlyWire (decodeMessage buf spec)) := by
  refine ⟨?_, ?_, ?_⟩
  · intro n hSmall
    exact ⟨_, rfl, decodeVarint_groups (by omega)⟩
  · intro spec fields hNumbers
    obtain ⟨bytes, hBytes, hRead⟩ := readFields_encodeFields hNumbers
    refine ⟨bytes, stored spec (fields.map (fun f => (f.number, f.written.raw))), hBytes, ?_, ?_⟩
    · rw [decodeMessage_eq, hRead]
      rfl
    · intro name
      rw [get_stored_eq, List.filterMap_map, valuesFor]
      congr 2
      funext f
      rw [Function.comp_apply, valueFor]
      cases spec.get f.number with
      | none => rfl
      | some entry => simp only [reads_eq]
  · intro buf
    refine ⟨fun field rest h => readField_length h, ?_⟩
    intro spec e h
    rw [decodeMessage_eq] at h
    cases hFields : readFields buf with
    | ok fields =>
      rw [hFields] at h
      cases h
    | error e' =>
      rw [hFields] at h
      cases h
      exact onlyWire_readFields buf e hFields

/- A payload for a number whose kind is a varint. -/
def mismatched : Field := ⟨1, by decide, .payload [7] (by decide)⟩

/- A varint of a number whose tag has 78 bits. -/
def farField : Field := ⟨2 ^ 74, by decide, .varint 1 (by decide)⟩

theorem encodeGroups_far : encodeGroups (2 ^ 77) = List.replicate 11 128 ++ [1] := by
  simp [encodeGroups, List.replicate]

/-
  A field whose kind does not fit is dropped, and a field
  whose tag takes twelve groups is refused.
-/
theorem written_fields_lost : (¬ ∀ (spec : Spec) (fields : List Field),
      (∀ f ∈ fields, (spec.get f.number).isSome) →
        ∃ bytes values, encodeFields fields = some bytes ∧ decodeMessage bytes spec = .ok values ∧
          ∀ name, ((values.get name).elim [] Cell.items).length = (fields.filter (fun f =>
                (spec.get f.number).map Prod.fst = some name)).length) ∧
    ∃ bytes, encodeFields [farField] = some bytes ∧ decodeMessage bytes [(2 ^ 74, "a", .varint)] =
        .error (.protoDecode "varint too long") := by
  constructor
  · intro h
    obtain ⟨bytes, values, hBytes, hValues, hCount⟩ := h [(1, "a", .varint)] [mismatched] (by decide)
    have hNumbers : ∀ f ∈ [mismatched], f.number < 2 ^ 74 := by decide
    obtain ⟨bytes', hBytes', hRead⟩ := readFields_encodeFields hNumbers
    cases hBytes.symm.trans hBytes'
    rw [decodeMessage_eq, hRead] at hValues
    cases hValues
    exact absurd (hCount "a") (by decide)
  · have hTag : (2 ^ 74) <<< 3 ||| wireVarint = 2 ^ 77 := by
      decide
    refine ⟨encodeGroups (2 ^ 77) ++ encodeGroups 1, ?_, ?_⟩
    · rw [← hTag, ← List.append_nil (_ ++ _)]
      rfl
    · have hRefused : readField (List.replicate 11 128 ++ [1] ++ encodeGroups 1) =
            .error (.protoDecode "varint too long") := rfl
      have hBytes : (List.replicate 11 128 ++ [1] ++ encodeGroups 1 : Bytes) ≠ [] := List.cons_ne_nil _ _
      rw [encodeGroups_far, decodeMessage_eq, readFields_of_error hBytes hRefused]
      rfl

end SingboxOps.ProtoWire
