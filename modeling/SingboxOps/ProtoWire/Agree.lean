import SingboxOps.ProtoWire.Reference
import Mathlib.Data.List.Forall2

/-
  When the decoder answers what a serialization denotes, and
  when it raises something else than its own error.
-/

namespace SingboxOps.ProtoWire

open Protobuf

-- Agreement

def FieldType.default : FieldType → Scalar
  | int32 => .int 0
  | int64 => .int 0
  | bool => .bool false
  | string => .text []
  | message => .bytes []

/- The scalar a field of the records denotes. -/
def FieldType.Denotes (type : FieldType) (number : ℕ) (records : List Record) : Scalar → Prop
  | .int value => (type = int32 ∨ type = int64) ∧ value = lastInt number records
  | .bool value => type = bool ∧ value = lastBool number records
  | .text value => type = string ∧ utf8Decode (lastBytes number records) = some value
  | .bytes value => type = message ∧ value = (lens number records).flatten

/-
  A dictionary that reads as the denoted connection: a field
  it lacks has its default, and it has no other entries.
-/
structure ConnectionAgrees (values : Values) (records : List Record) : Prop where
  fields : ∀ e ∈ connectionSchema, ∃ value,
    values.field e.2.1 e.2.2.default = .one value ∧ e.2.2.Denotes e.1 records value
  others : ∀ name, (∀ e ∈ connectionSchema, e.2.1 ≠ name) → values.get name = none

structure EventAgrees (event : Event) (m : EventMessage) : Prop where
  type : event.type = eventTypeName m.type
  id : event.id = .one (.text m.id)
  connection : Option.Rel ConnectionAgrees event.connection m.connection
  uplinkDelta : event.uplinkDelta = m.uplinkDelta
  downlinkDelta : event.downlinkDelta = m.downlinkDelta
  closedAt : event.closedAt = m.closedAt

structure BatchAgrees (batch : Batch) (m : EventsMessage) : Prop where
  events : List.Forall₂ EventAgrees batch.events m.events
  reset : batch.reset = m.reset

-- Conditions

/- A connection without a group that repeats no field. -/
def PlainConnection (raw : Bytes) : Prop := ∃ fields, readFields raw = .ok fields ∧
    ∀ e ∈ connectionSchema, (valuesOf e.1 fields).length ≤ 1

/-
  An event without a group that repeats no field, with deltas
  that a float holds and a plain connection.
-/
def PlainEvent (raw : Bytes) : Prop := ∃ fields, readFields raw = .ok fields ∧
    (∀ e ∈ eventSchema, (valuesOf e.1 fields).length ≤ 1) ∧
    (∀ delta ∈ intValues 4 fields ++ intValues 5 fields, floatOfInt delta = delta) ∧
    ∀ part ∈ byteValues 3 fields, PlainConnection part

/-
  A batch of plain events without a group; `reset` may occur
  again if the last one sets it.
-/
def PlainBatch (raw : Bytes) : Prop := ∃ fields, readFields raw = .ok fields ∧
    ((valuesOf 2 fields).length ≤ 1 ∨ (intValues 2 fields).getLast? ≠ some 0) ∧
    ∀ part ∈ byteValues 1 fields, PlainEvent part

-- Cells

theorem cell_one_iff {α : Type} (f : α → Scalar) (default : α) (xs : List α) :
    (cellOf (xs.map f)).getD (.one (f default)) = .one (f (xs.getLast?.getD default)) ↔ xs.length ≤ 1 := by
  match xs with
  | [] => simp [cellOf]
  | [x] => simp [cellOf]
  | x :: y :: rest => simp [cellOf]

theorem length_le_of_cell {values : List Scalar} {default value : Scalar}
    (h : (cellOf values).getD (.one default) = .one value) : values.length ≤ 1 := by
  match values with
  | [] => simp
  | [x] => simp
  | x :: y :: rest => simp [cellOf] at h

theorem soleInt_ok_iff {message : String} {values : List ℤ} {value : ℤ} :
    soleInt message values = .ok value ↔ values.length ≤ 1 ∧ value = values.getLast?.getD 0 := by
  match values with
  | [] => simp [soleInt, eq_comm]
  | [x] => simp [soleInt, eq_comm]
  | x :: y :: rest => simp [soleInt]

theorem soleConnection_ok_iff {parts : List Bytes} {connection : Option Values} :
    soleConnection parts = .ok connection ↔ (parts.length ≠ 1 ∧ connection = none) ∨
        ∃ part values, parts = [part] ∧ decodeConnection part = .ok values ∧ connection = some values := by
  match parts with
  | [] => simp [soleConnection, eq_comm]
  | [part] =>
    cases hDecode : decodeConnection part with
    | error e => simp [soleConnection, hDecode, Except.map]
    | ok values => simp [soleConnection, hDecode, Except.map, eq_comm]
  | part :: second :: rest => simp [soleConnection, eq_comm]

-- Connections

theorem names_connection : ∀ e ∈ connectionSchema, connectionSpec.get e.1 =
          some (e.2.1, if e.2.2.isNumber then .varint else .string) ∧
        (∀ e' ∈ connectionSpec, e'.2.1 = e.2.1 → e'.1 = e.1) ∧
        (e.2.2 = .int32 ∨ e.2.2 = .int64 ∨ e.2.2 = .string) := by
  decide

theorem connectionSpec_names : ∀ e ∈ connectionSpec, ∃ e' ∈ connectionSchema, e'.2.1 = e.2.1 := by
  decide

variable {records : List Record} {raw : Bytes}

theorem field_denotes_iff (hValid : Valid connectionSchema records raw) {e : ℕ × String × FieldType}
    (hEntry : e ∈ connectionSchema) : (∃ value, Values.field (stored connectionSpec (records.map fieldOf))
          e.2.1 e.2.2.default = .one value ∧
        e.2.2.Denotes e.1 records value) ↔
      (valuesOf e.1 (records.map fieldOf)).length ≤ 1 := by
  rcases e with ⟨number, name, type⟩
  rcases names_connection _ hEntry with ⟨hHas, hOnly, hType⟩
  dsimp only at hHas hOnly hType ⊢
  cases hNumber : type.isNumber with
  | true =>
    rw [if_pos hNumber] at hHas
    have hNames : Names connectionSpec number name .varint := ⟨hHas, hOnly⟩
    have hDefault : type.default = .int (toSigned64 0) := by
      rcases hType with rfl | rfl | rfl
      · rfl
      · rfl
      · cases hNumber
    rw [Values.field, get_stored hNames, filterMap_varint, hValid.numbers hEntry hNumber, filterMap_ints,
      List.map_map, hDefault, List.length_map]
    rw [← cell_one_iff (fun n => Scalar.int (toSigned64 n)) 0 (varints number records)]
    have hLast : toSigned64 ((varints number records).getLast?.getD 0) =
          lastInt number records := by
      rw [← last_intValues hValid.encodes, intValues_fieldOf, List.getLast?_map]
      cases (varints number records).getLast? <;> rfl
    constructor
    · rintro ⟨value, hCell, hDenotes⟩
      have hLength := length_le_of_cell hCell
      rw [List.length_map] at hLength
      exact (cell_one_iff _ 0 _).mpr hLength
    · intro hCell
      refine ⟨_, hCell, ?_, hLast⟩
      rcases hType with h | h | h
      · exact Or.inl h
      · exact Or.inr h
      · rw [h] at hNumber
        cases hNumber
  | false =>
    rw [hNumber] at hHas
    have hNames : Names connectionSpec number name .string := ⟨hHas, hOnly⟩
    have hString : type = .string := by
      rcases hType with h | h | h
      · rw [h] at hNumber
        cases hNumber
      · rw [h] at hNumber
        cases hNumber
      · exact h
    subst hString
    rw [Values.field, get_stored hNames, filterMap_string,
      hValid.lengths hEntry hNumber, filterMap_bytes, List.length_map]
    rw [← cell_one_iff (fun b => Scalar.text (utf8Replace b)) [] (lens number records)]
    constructor
    · rintro ⟨value, hCell, hDenotes⟩
      have hLength := length_le_of_cell hCell
      rw [List.length_map] at hLength
      exact (cell_one_iff _ [] _).mpr hLength
    · intro hCell
      exact ⟨_, hCell, rfl, hValid.text hEntry⟩

theorem readFields_valid {schema : Schema} (hValid : Valid schema records raw) {fields : List (ℕ × Raw)}
    (hRead : readFields raw = .ok fields) : fields = records.map fieldOf := by
  rw [readFields_encodes hValid.encodes] at hRead
  split at hRead
  · cases hRead
  · exact (Except.ok.inj hRead).symm

theorem connection_agrees_iff (hValid : Valid connectionSchema records raw) :
    (∃ values, decodeConnection raw = .ok values ∧ ConnectionAgrees values records) ↔
      PlainConnection raw := by
  rw [decodeConnection, decodeMessage_eq, PlainConnection]
  cases hRead : readFields raw with
  | error e =>
    constructor
    · rintro ⟨values, hDecode, -⟩
      cases hDecode
    · rintro ⟨fields, hFields, -⟩
      cases hFields
  | ok fields =>
    have hFields := readFields_valid hValid hRead
    subst hFields
    constructor
    · rintro ⟨values, hDecode, hAgrees⟩
      cases hDecode
      refine ⟨_, rfl, ?_⟩
      intro e hEntry
      exact (field_denotes_iff hValid hEntry).mp (hAgrees.fields e hEntry)
    · rintro ⟨own, hOwn, hSole⟩
      cases hOwn
      refine ⟨_, rfl, ⟨?_, ?_⟩⟩
      · intro e hEntry
        exact (field_denotes_iff hValid hEntry).mpr (hSole e hEntry)
      · intro name hOther
        apply get_stored_none
        intro e hEntry hName
        rcases connectionSpec_names e hEntry with ⟨e', hEntry', hName'⟩
        exact hOther e' hEntry' (hName'.trans hName)

-- Events

theorem sole_agrees_iff {parts : List Bytes} {denoted : Option (List Record)}
    (hDenotes : DenotesConnection parts denoted) :
    (∃ connection, soleConnection parts = .ok connection ∧ Option.Rel ConnectionAgrees connection denoted) ↔
      parts.length ≤ 1 ∧ ∀ part ∈ parts, PlainConnection part := by
  cases denoted with
  | none =>
    have hParts : parts = [] := hDenotes
    subst hParts
    constructor
    · intro _
      simp
    · intro _
      exact ⟨none, rfl, Option.Rel.none⟩
  | some records =>
    rcases hDenotes with ⟨hSome, -, hValid⟩
    match parts with
    | [] => exact absurd rfl hSome
    | [part] =>
      rw [List.flatten_singleton] at hValid
      have hPart := connection_agrees_iff hValid
      constructor
      · rintro ⟨connection, hSole, hRel⟩
        rcases soleConnection_ok_iff.mp hSole with ⟨hOne, -⟩ | ⟨own, values, hOwn, hDecode, rfl⟩
        · exact absurd rfl hOne
        · cases hOwn
          cases hRel with
          | some hAgrees =>
            refine ⟨by simp, ?_⟩
            intro other hOther
            rw [List.mem_singleton.mp hOther]
            exact hPart.mp ⟨values, hDecode, hAgrees⟩
      · rintro ⟨-, hPlain⟩
        rcases hPart.mpr (hPlain part (by simp)) with ⟨values, hDecode, hAgrees⟩
        refine ⟨some values, ?_, Option.Rel.some hAgrees⟩
        exact soleConnection_ok_iff.mpr (Or.inr ⟨part, values, rfl, hDecode, rfl⟩)
    | part :: second :: rest =>
      constructor
      · rintro ⟨connection, hSole, hRel⟩
        cases hSole
        cases hRel
      · rintro ⟨hLength, -⟩
        simp at hLength

theorem eventOf_ok_iff {fields : List (ℕ × Raw)} {event : Event} :
    eventOf fields = .ok event ↔ ∃ connection, soleConnection (byteValues 3 fields) = .ok connection ∧
        (intValues 1 fields).length ≤ 1 ∧
        (intValues 4 fields).length ≤ 1 ∧
        (intValues 5 fields).length ≤ 1 ∧
        (intValues 6 fields).length ≤ 1 ∧
        event = {
          type := eventTypeName ((intValues 1 fields).getLast?.getD 0)
          id := (cellOf ((byteValues 2 fields).map
            (fun b => .text (utf8Replace b)))).getD (.one (.text []))
          connection := connection
          uplinkDelta := floatOfInt
            ((intValues 4 fields).getLast?.getD 0)
          downlinkDelta := floatOfInt
            ((intValues 5 fields).getLast?.getD 0)
          closedAt := (intValues 6 fields).getLast?.getD 0 } := by
  rw [eventOf]
  simp only [except_bind_ok_iff, soleInt_ok_iff]
  constructor
  · rintro ⟨type, ⟨hType, rfl⟩, connection, hConnection, up,
      ⟨hUp, rfl⟩, down, ⟨hDown, rfl⟩, closed, ⟨hClosed, rfl⟩,
      hEvent⟩
    cases hEvent
    exact ⟨connection, hConnection, hType, hUp, hDown, hClosed, rfl⟩
  · rintro ⟨connection, hConnection, hType, hUp, hDown, hClosed, rfl⟩
    exact ⟨_, ⟨hType, rfl⟩, connection, hConnection, _, ⟨hUp, rfl⟩, _, ⟨hDown, rfl⟩, _, ⟨hClosed, rfl⟩, rfl⟩

theorem floatOfInt_zero : floatOfInt 0 = 0 := by decide

theorem floatOfInt_last_iff {values : List ℤ} (hLength : values.length ≤ 1) :
    floatOfInt (values.getLast?.getD 0) = values.getLast?.getD 0 ↔
      ∀ value ∈ values, floatOfInt value = value := by
  match values with
  | [] => simp [floatOfInt_zero]
  | [value] => simp
  | value :: second :: rest => simp at hLength

theorem sole_eventSchema_iff (p : ℕ → Prop) :
    (∀ e ∈ eventSchema, p e.1) ↔ p 1 ∧ p 2 ∧ p 3 ∧ p 4 ∧ p 5 ∧ p 6 := by
  simp [eventSchema]

theorem Valid.length_ints {schema : Schema} (hValid : Valid schema records raw)
    {number : ℕ} {name : String} {type : FieldType} (hEntry : (number, name, type) ∈ schema)
    (hNumber : type.isNumber = true) :
    (valuesOf number (records.map fieldOf)).length = (intValues number (records.map fieldOf)).length := by
  rw [intValues, hValid.numbers hEntry hNumber, filterMap_ints, List.length_map, List.length_map]

theorem Valid.bytes {schema : Schema} (hValid : Valid schema records raw)
    {number : ℕ} {name : String} {type : FieldType} (hEntry : (number, name, type) ∈ schema)
    (hNumber : type.isNumber = false) :
    byteValues number (records.map fieldOf) = lens number records := by
  rw [byteValues, hValid.lengths hEntry hNumber, filterMap_bytes]

theorem sole_lengths (hValid : Valid eventSchema records raw) : (∀ e ∈ eventSchema,
      (valuesOf e.1 (records.map fieldOf)).length ≤ 1) ↔
      (intValues 1 (records.map fieldOf)).length ≤ 1 ∧ (lens 2 records).length ≤ 1 ∧
        (lens 3 records).length ≤ 1 ∧
        (intValues 4 (records.map fieldOf)).length ≤ 1 ∧
        (intValues 5 (records.map fieldOf)).length ≤ 1 ∧
        (intValues 6 (records.map fieldOf)).length ≤ 1 := by
  have hType : (1, "type", FieldType.int32) ∈ eventSchema := by decide
  have hId : (2, "id", FieldType.string) ∈ eventSchema := by decide
  have hConnection : (3, "connection", FieldType.message) ∈ eventSchema := by
    decide
  have hUp : (4, "uplink_delta", FieldType.int64) ∈ eventSchema := by
    decide
  have hDown : (5, "downlink_delta", FieldType.int64) ∈ eventSchema := by
    decide
  have hClosed : (6, "closed_at", FieldType.int64) ∈ eventSchema := by
    decide
  rw [sole_eventSchema_iff (fun n => (valuesOf n (records.map fieldOf)).length ≤ 1)]
  rw [hValid.length_ints hType rfl, hValid.lengths hId rfl,
    hValid.lengths hConnection rfl, hValid.length_ints hUp rfl,
    hValid.length_ints hDown rfl, hValid.length_ints hClosed rfl,
    List.length_map, List.length_map]

theorem event_agrees_iff {m : EventMessage} (hDenotes : DenotesEvent records raw m) :
    (∃ event, decodeConnectionEvent raw = .ok event ∧ EventAgrees event m) ↔
      PlainEvent raw := by
  have hValid := hDenotes.valid
  rw [decodeConnectionEvent_eq, PlainEvent]
  cases hRead : readFields raw with
  | error e =>
    constructor
    · rintro ⟨event, hDecode, -⟩
      cases hDecode
    · rintro ⟨fields, hFields, -⟩
      cases hFields
  | ok fields =>
    have hFields := readFields_valid hValid hRead
    subst hFields
    have hLast := last_intValues hValid.encodes
    have hIds : byteValues 2 (records.map fieldOf) =
        lens 2 records :=
      hValid.bytes (show (2, "id", FieldType.string) ∈ eventSchema by decide) rfl
    have hParts : byteValues 3 (records.map fieldOf) =
        lens 3 records :=
      hValid.bytes (show (3, "connection", FieldType.message) ∈ eventSchema by decide) rfl
    have hId : (cellOf ((lens 2 records).map (fun b => Scalar.text (utf8Replace b)))).getD
              (.one (.text [])) = .one (.text m.id) ↔
          (lens 2 records).length ≤ 1 := by
      have hText := hValid.text (show (2, "id", FieldType.string) ∈ eventSchema by decide)
      rw [hDenotes.id] at hText
      rw [Option.some.inj hText, lastBytes]
      exact cell_one_iff (fun b => Scalar.text (utf8Replace b)) [] (lens 2 records)
    have hConnection := sole_agrees_iff hDenotes.connection
    have hLengths := sole_lengths hValid
    change (∃ event, eventOf _ = _ ∧ _) ↔ _
    constructor
    · rintro ⟨event, hEvent, hAgrees⟩
      rcases eventOf_ok_iff.mp hEvent with ⟨connection, hSole, hType, hUp, hDown, hClosed, rfl⟩
      rw [hParts] at hSole
      have hOne := hConnection.mp ⟨connection, hSole, hAgrees.connection⟩
      have hOneId : (lens 2 records).length ≤ 1 := by
        have hEq := hAgrees.id
        dsimp only at hEq
        rw [hIds] at hEq
        exact hId.mp hEq
      refine ⟨_, rfl, ?_, ?_, ?_⟩
      · rw [hLengths]
        exact ⟨hType, hOneId, hOne.1, hUp, hDown, hClosed⟩
      · have hUpEq := hAgrees.uplinkDelta
        have hDownEq := hAgrees.downlinkDelta
        dsimp only at hUpEq hDownEq
        rw [hDenotes.uplinkDelta, ← hLast] at hUpEq
        rw [hDenotes.downlinkDelta, ← hLast] at hDownEq
        intro delta hDelta
        rcases List.mem_append.mp hDelta with h | h
        · exact (floatOfInt_last_iff hUp).mp hUpEq delta h
        · exact (floatOfInt_last_iff hDown).mp hDownEq delta h
      · rw [hParts]
        exact hOne.2
    · rintro ⟨fields, hFields, hOnce, hDeltas, hPlain⟩
      cases hFields
      rw [hLengths] at hOnce
      rcases hOnce with ⟨hType, hOneId, hOne, hUp, hDown, hClosed⟩
      rw [hParts] at hPlain
      rcases hConnection.mpr ⟨hOne, hPlain⟩ with ⟨connection, hSole, hRel⟩
      rw [← hParts] at hSole
      refine ⟨_, eventOf_ok_iff.mpr ⟨connection, hSole, hType, hUp, hDown, hClosed, rfl⟩, ?_⟩
      refine ⟨?_, ?_, hRel, ?_, ?_, ?_⟩
      · dsimp only
        rw [hLast, ← hDenotes.type]
      · dsimp only
        rw [hIds]
        exact hId.mpr hOneId
      · dsimp only
        rw [(floatOfInt_last_iff hUp).mpr (fun delta h => hDeltas delta (List.mem_append_left _ h)),
          hLast, ← hDenotes.uplinkDelta]
      · dsimp only
        rw [(floatOfInt_last_iff hDown).mpr (fun delta h => hDeltas delta (List.mem_append_right _ h)),
          hLast, ← hDenotes.downlinkDelta]
      · dsimp only
        rw [hLast, ← hDenotes.closedAt]

-- Batches

theorem eventsOf_agrees_iff {parts : List Bytes} {ms : List EventMessage}
    (hDenotes : List.Forall₂ (fun part m => ∃ own, DenotesEvent own part m) parts ms) :
    (∃ events, eventsOf parts = .ok events ∧ List.Forall₂ EventAgrees events ms) ↔
      ∀ part ∈ parts, PlainEvent part := by
  induction hDenotes with
  | nil =>
    constructor
    · intro _
      simp
    · intro _
      exact ⟨[], rfl, List.Forall₂.nil⟩
  | @cons part m parts ms hPart hRest ih =>
    rcases hPart with ⟨own, hOwn⟩
    have hFirst := event_agrees_iff hOwn
    rw [List.forall_mem_cons, ← hFirst, ← ih, eventsOf]
    constructor
    · rintro ⟨events, hEvents, hAgree⟩
      rcases except_bind_ok hEvents with ⟨event, hEvent, hTail⟩
      rcases except_bind_ok hTail with ⟨rest, hOthers, hEq⟩
      cases hEq
      rcases List.forall₂_cons.mp hAgree with ⟨hAgrees, hAgreeRest⟩
      exact ⟨⟨event, hEvent, hAgrees⟩, ⟨rest, hOthers, hAgreeRest⟩⟩
    · rintro ⟨⟨event, hEvent, hAgrees⟩, ⟨rest, hOthers, hAgreeRest⟩⟩
      refine ⟨event :: rest, ?_, List.Forall₂.cons hAgrees hAgreeRest⟩
      rw [hEvent, hOthers]
      rfl

theorem toSigned64_eq_zero_iff {n : ℕ} (hn : n < 2 ^ 64) : toSigned64 n = 0 ↔ n = 0 := by
  rw [toSigned64]
  split <;> omega

theorem reset_agrees_iff (hValid : Valid eventsSchema records raw) :
    resetOf (valuesOf 2 (records.map fieldOf)) = lastBool 2 records ↔
      (valuesOf 2 (records.map fieldOf)).length ≤ 1 ∨
        (intValues 2 (records.map fieldOf)).getLast? ≠ some 0 := by
  have hEntry : (2, "reset", FieldType.bool) ∈ eventsSchema := by
    decide
  have hInts := hValid.numbers hEntry rfl
  have hBelow : ∀ n ∈ varints 2 records, n < 2 ^ 64 := fun n hn => varint_lt hValid.encodes hn
  rw [intValues, hInts, filterMap_ints, List.getLast?_map, lastBool, resetOf, List.length_map]
  rcases hNumbers : varints 2 records with _ | ⟨n, _ | ⟨second, rest⟩⟩
  · simp [cellOf, Cell.truth, Scalar.truth]
  · have hn : n < 2 ^ 64 := hBelow n (by simp [hNumbers])
    by_cases hZero : n = 0
    · simp [cellOf, Cell.truth, Scalar.truth, decodeKind, toSigned64, hZero]
    · simp [cellOf, Cell.truth, Scalar.truth, decodeKind, toSigned64_eq_zero_iff hn, hZero]
  · have hSome : ∃ m, (n :: second :: rest).getLast? = some m := ⟨_, List.getLast?_eq_some_getLast (by simp)⟩
    rcases hSome with ⟨n, hLast⟩
    have hn : n < 2 ^ 64 := by
      apply hBelow n
      rw [hNumbers]
      exact List.mem_of_getLast? hLast
    rw [hLast]
    simp [cellOf, Cell.truth, decodeKind, toSigned64_eq_zero_iff hn]

theorem batch_agrees_iff {m : EventsMessage} (hDenotes : DenotesEvents records raw m) :
    (∃ batch, decodeConnectionEvents raw = .ok batch ∧ BatchAgrees batch m) ↔
      PlainBatch raw := by
  have hValid := hDenotes.valid
  rw [decodeConnectionEvents_eq, PlainBatch]
  cases hRead : readFields raw with
  | error e =>
    constructor
    · rintro ⟨batch, hDecode, -⟩
      cases hDecode
    · rintro ⟨fields, hFields, -⟩
      cases hFields
  | ok fields =>
    have hFields := readFields_valid hValid hRead
    subst hFields
    have hParts : byteValues 1 (records.map fieldOf) =
        lens 1 records :=
      hValid.bytes (show (1, "events", FieldType.message) ∈ eventsSchema by decide) rfl
    have hEvents := eventsOf_agrees_iff hDenotes.events
    have hReset := reset_agrees_iff hValid
    rw [← hDenotes.reset] at hReset
    change (∃ batch, (eventsOf _ >>= _) = _ ∧ _) ↔ _
    rw [hParts]
    constructor
    · rintro ⟨batch, hBatch, hAgrees⟩
      rcases except_bind_ok hBatch with ⟨events, hOk, hEq⟩
      cases hEq
      refine ⟨_, rfl, hReset.mp hAgrees.reset, ?_⟩
      rw [hParts]
      exact hEvents.mp ⟨events, hOk, hAgrees.events⟩
    · rintro ⟨fields, hFields, hOnce, hPlain⟩
      cases hFields
      rw [hParts] at hPlain
      rcases hEvents.mpr hPlain with ⟨events, hOk, hAgree⟩
      refine ⟨⟨_, events⟩, ?_, ⟨hAgree, hReset.mpr hOnce⟩⟩
      rw [hOk]
      rfl

-- Other exceptions

/- The decoder answered, or raised its own error. -/
def Settles {α : Type} (result : Except Raised α) : Prop := ∀ message, result ≠ .error (.typeError message)

def Twice (number : ℕ) (fields : List (ℕ × Raw)) : Prop := 1 < (intValues number fields).length

/- The sole connection of an event has a wire to read. -/
def ConnectionReads (fields : List (ℕ × Raw)) : Prop :=
  ∀ part, byteValues 3 fields = [part] → ∃ own, readFields part = .ok own

/- A number of an event that is converted occurs again. -/
def TwiceCounted (fields : List (ℕ × Raw)) : Prop := Twice 4 fields ∨ Twice 5 fields ∨ Twice 6 fields

/- An event that the loop gets past. -/
def EventStands (raw : Bytes) : Prop := ∃ fields, readFields raw = .ok fields ∧
    ConnectionReads fields ∧ ¬ Twice 1 fields ∧
    ¬ TwiceCounted fields

/- An event that the loop stumbles over. -/
def EventTrips (raw : Bytes) : Prop := ∃ fields, readFields raw = .ok fields ∧
    (Twice 1 fields ∨ (ConnectionReads fields ∧ TwiceCounted fields))

/- The first event the loop does not get past trips it. -/
def Trips (raw : Bytes) : Prop := ∃ fields before part after,
    readFields raw = .ok fields ∧ byteValues 1 fields = before ++ part :: after ∧
      (∀ earlier ∈ before, EventStands earlier) ∧
      EventTrips part

theorem soleInt_twice (message : String) {values : List ℤ}
    (h : 1 < values.length) : soleInt message values = .error (.typeError message) := by
  match values with
  | [] => simp at h
  | [value] => simp at h
  | value :: second :: rest => rfl

theorem soleInt_once (message : String) {values : List ℤ}
    (h : ¬ 1 < values.length) : ∃ value, soleInt message values = .ok value := by
  match values with
  | [] => exact ⟨0, rfl⟩
  | [value] => exact ⟨value, rfl⟩
  | value :: second :: rest => simp at h

theorem soleConnection_reads_iff (fields : List (ℕ × Raw)) : (∃ connection,
      soleConnection (byteValues 3 fields) = .ok connection) ↔
      ConnectionReads fields := by
  rw [ConnectionReads]
  match byteValues 3 fields with
  | [] => simp [soleConnection]
  | [part] =>
    rw [soleConnection, decodeConnection, decodeMessage_eq]
    cases hRead : readFields part with
    | error e => simp [Except.map, hRead]
    | ok own => simp [Except.map, hRead]
  | part :: second :: rest => simp [soleConnection]

theorem onlyWire_soleConnection (parts : List Bytes) : OnlyWire (soleConnection parts) := by
  match parts with
  | [] => exact onlyWire_ok _
  | [part] =>
    intro e h
    rw [soleConnection, decodeConnection, decodeMessage_eq] at h
    cases hRead : readFields part with
    | error e' =>
      rw [hRead] at h
      cases h
      exact onlyWire_readFields part e hRead
    | ok own =>
      rw [hRead] at h
      cases h
  | part :: second :: rest => exact onlyWire_ok _

theorem eventOf_ok (fields : List (ℕ × Raw)) : (∃ event, eventOf fields = .ok event) ↔
      ConnectionReads fields ∧ ¬ Twice 1 fields ∧ ¬ TwiceCounted fields := by
  simp only [eventOf_ok_iff, ← soleConnection_reads_iff, Twice, TwiceCounted, not_or, not_lt]
  constructor
  · rintro ⟨event, connection, hConnection, hType, hUp, hDown, hClosed, -⟩
    exact ⟨⟨connection, hConnection⟩, hType, hUp, hDown, hClosed⟩
  · rintro ⟨⟨connection, hConnection⟩, hType, hUp, hDown, hClosed⟩
    exact ⟨_, connection, hConnection, hType, hUp, hDown, hClosed, rfl⟩

theorem eventOf_typeError (fields : List (ℕ × Raw)) :
    (∃ message, eventOf fields = .error (.typeError message)) ↔
      Twice 1 fields ∨ (ConnectionReads fields ∧ TwiceCounted fields) := by
  rw [eventOf]
  by_cases hType : Twice 1 fields
  · rw [soleInt_twice _ hType]
    exact ⟨fun _ => Or.inl hType, fun _ => ⟨_, rfl⟩⟩
  · rcases soleInt_once "%d format: a real number is required, not list" hType with ⟨type, hTypeOk⟩
    rw [hTypeOk]
    cases hSole : soleConnection (byteValues 3 fields) with
    | error e =>
      have hUnread : ¬ ConnectionReads fields := by
        rw [← soleConnection_reads_iff, hSole]
        rintro ⟨connection, h⟩
        cases h
      rcases onlyWire_soleConnection _ e hSole with ⟨message, rfl⟩
      constructor
      · rintro ⟨text, h⟩
        cases h
      · rintro (h | h)
        · exact absurd h hType
        · exact absurd h.1 hUnread
    | ok connection =>
      have hReads : ConnectionReads fields := (soleConnection_reads_iff fields).mp ⟨connection, hSole⟩
      rw [or_iff_right hType, and_iff_right hReads, TwiceCounted]
      by_cases hUp : Twice 4 fields
      · rw [soleInt_twice _ hUp]
        exact ⟨fun _ => Or.inl hUp, fun _ => ⟨_, rfl⟩⟩
      · rcases soleInt_once "float() argument must be a string or a real number, not 'list'"
          hUp with ⟨up, hUpOk⟩
        rw [hUpOk]
        by_cases hDown : Twice 5 fields
        · rw [soleInt_twice _ hDown]
          exact ⟨fun _ => Or.inr (Or.inl hDown), fun _ => ⟨_, rfl⟩⟩
        · rcases soleInt_once "float() argument must be a string or a real number, not 'list'"
            hDown with ⟨down, hDownOk⟩
          rw [hDownOk]
          by_cases hClosed : Twice 6 fields
          · rw [soleInt_twice _ hClosed]
            exact ⟨fun _ => Or.inr (Or.inr hClosed), fun _ => ⟨_, rfl⟩⟩
          · rcases soleInt_once
              "int() argument must be a string, a bytes-like object or a real number, not 'list'"
              hClosed with ⟨closed, hClosedOk⟩
            rw [hClosedOk]
            constructor
            · rintro ⟨message, h⟩
              cases h
            · rintro (h | h | h)
              · exact absurd h hUp
              · exact absurd h hDown
              · exact absurd h hClosed

theorem event_stands_iff (raw : Bytes) :
    (∃ event, decodeConnectionEvent raw = .ok event) ↔ EventStands raw := by
  rw [decodeConnectionEvent_eq, EventStands]
  cases hRead : readFields raw with
  | error e =>
    constructor
    · rintro ⟨event, h⟩
      cases h
    · rintro ⟨fields, h, -⟩
      cases h
  | ok fields =>
    refine (eventOf_ok fields).trans ?_
    constructor
    · intro h
      exact ⟨fields, rfl, h⟩
    · rintro ⟨own, hOwn, h⟩
      cases hOwn
      exact h

theorem event_trips_iff (raw : Bytes) : (∃ message, decodeConnectionEvent raw = .error (.typeError message)) ↔
      EventTrips raw := by
  rw [decodeConnectionEvent_eq, EventTrips]
  cases hRead : readFields raw with
  | error e =>
    rcases onlyWire_readFields raw e hRead with ⟨text, rfl⟩
    constructor
    · rintro ⟨message, h⟩
      cases h
    · rintro ⟨fields, h, -⟩
      cases h
  | ok fields =>
    refine (eventOf_typeError fields).trans ?_
    constructor
    · intro h
      exact ⟨fields, rfl, h⟩
    · rintro ⟨own, hOwn, h⟩
      cases hOwn
      exact h

theorem eventsOf_typeError_iff (parts : List Bytes) :
    (∃ message, eventsOf parts = .error (.typeError message)) ↔ ∃ before part after,
        parts = before ++ part :: after ∧ (∀ earlier ∈ before, EventStands earlier) ∧
          EventTrips part := by
  induction parts with
  | nil =>
    constructor
    · rintro ⟨message, h⟩
      cases h
    · rintro ⟨before, part, after, h, -⟩
      simp at h
  | cons raw rest ih =>
    have hStands := event_stands_iff raw
    have hTrips := event_trips_iff raw
    rw [eventsOf]
    cases hDecode : decodeConnectionEvent raw with
    | error e =>
      rw [hDecode] at hStands hTrips
      have hNot : ¬ EventStands raw := by
        rw [← hStands]
        rintro ⟨event, h⟩
        cases h
      constructor
      · rintro ⟨message, h⟩
        cases h
        exact ⟨[], raw, rest, rfl, by simp,
          hTrips.mp ⟨message, rfl⟩⟩
      · rintro ⟨before, part, after, hParts, hBefore, hPart⟩
        cases before with
        | nil =>
          cases hParts
          rcases hTrips.mpr hPart with ⟨message, h⟩
          cases h
          exact ⟨message, rfl⟩
        | cons first others =>
          cases hParts
          exact absurd (hBefore raw (by simp)) hNot
    | ok event =>
      rw [hDecode] at hStands hTrips
      have hStand : EventStands raw := hStands.mp ⟨event, rfl⟩
      have hNot : ¬ EventTrips raw := by
        rw [← hTrips]
        rintro ⟨message, h⟩
        cases h
      constructor
      · rintro ⟨message, h⟩
        have hRest : eventsOf rest = .error (.typeError message) := by
          rcases except_bind_error h with
            hError | ⟨own, hOwn, hTail⟩
          · cases hError
          · rcases except_bind_error hTail with
              hError | ⟨events, -, hPure⟩
            · exact hError
            · cases hPure
        rcases ih.mp ⟨message, hRest⟩ with ⟨before, part, after, rfl, hBefore, hPart⟩
        refine ⟨raw :: before, part, after, rfl, ?_, hPart⟩
        intro earlier hEarlier
        rcases List.mem_cons.mp hEarlier with rfl | hIn
        · exact hStand
        · exact hBefore earlier hIn
      · rintro ⟨before, part, after, hParts, hBefore, hPart⟩
        cases before with
        | nil =>
          cases hParts
          exact absurd hPart hNot
        | cons first others =>
          cases hParts
          rcases ih.mpr ⟨others, part, after, rfl, fun earlier h => hBefore earlier (by simp [h]),
            hPart⟩ with ⟨message, hRest⟩
          refine ⟨message, ?_⟩
          rw [hRest]
          rfl

theorem settles_iff (raw : Bytes) : Settles (decodeConnectionEvents raw) ↔ ¬ Trips raw := by
  have hTrips : (∃ message, decodeConnectionEvents raw = .error (.typeError message)) ↔ Trips raw := by
    rw [decodeConnectionEvents_eq, Trips]
    cases hRead : readFields raw with
    | error e =>
      rcases onlyWire_readFields raw e hRead with ⟨text, rfl⟩
      constructor
      · rintro ⟨message, h⟩
        cases h
      · rintro ⟨fields, before, part, after, h, -⟩
        cases h
    | ok fields =>
      have hEvents := eventsOf_typeError_iff (byteValues 1 fields)
      constructor
      · rintro ⟨message, h⟩
        rcases except_bind_error h with
          hError | ⟨own, hOwn, hTail⟩
        · cases hError
        · cases hOwn
          rcases except_bind_error hTail with
            hError | ⟨events, -, hPure⟩
          · rcases hEvents.mp ⟨message, hError⟩ with ⟨before, part, after, hRest⟩
            exact ⟨fields, before, part, after, rfl, hRest⟩
          · cases hPure
      · rintro ⟨own, before, part, after, hOwn, hRest⟩
        cases hOwn
        rcases hEvents.mpr ⟨before, part, after, hRest⟩ with ⟨message, hError⟩
        refine ⟨message, ?_⟩
        change (eventsOf (byteValues 1 fields) >>= _) = _
        rw [hError]
        rfl
  rw [← hTrips, not_exists]
  exact Iff.rfl

/-
  Of a serialization the decoder answers what it denotes if
  the batch is plain, and only then; of any other bytes it
  answers a batch or raises its own error unless an event
  trips it.
-/
theorem decoding_agrees_iff (raw : Bytes) : (∀ records m, DenotesEvents records raw m →
      ((∃ batch, decodeConnectionEvents raw = .ok batch ∧ BatchAgrees batch m) ↔ PlainBatch raw)) ∧
      (Settles (decodeConnectionEvents raw) ↔ ¬ Trips raw) := by
  constructor
  · intro records m hDenotes
    exact batch_agrees_iff hDenotes
  · exact settles_iff raw

-- One batch that is plain, and one that trips

theorem encodes_short_varint {number n : ℕ} {tag value : UInt8} {rest : Bytes}
    {records : List Record} (hNumber : 0 < number)
    (hTag : tag.toNat = number * 8 + 0) (hTagByte : tag.toNat < 128)
    (hValue : value.toNat = n) (hByte : value.toNat < 128)
    (hRest : Encodes records rest) : Encodes (⟨number, .varint n⟩ :: records) (tag :: value :: rest) := by
  have hTagSpells : Tag number 0 [tag] := by
    refine ⟨hNumber, by omega, ?_⟩
    rw [← hTag]
    exact ⟨.last hTagByte, by simp, by omega⟩
  subst hValue
  exact .varint hTagSpells ⟨.last hByte, by simp, by omega⟩ hRest

/- A field whose tag and length take one byte each. -/
theorem encodes_short_len {number : ℕ} {tag length : UInt8} {value rest : Bytes}
    {records : List Record} (hNumber : 0 < number)
    (hTag : tag.toNat = number * 8 + 2) (hTagByte : tag.toNat < 128)
    (hLength : length.toNat = value.length) (hByte : length.toNat < 128)
    (hRest : Encodes records rest) : Encodes (⟨number, .len value⟩ :: records)
      (tag :: length :: (value ++ rest)) := by
  have hTagSpells : Tag number 2 [tag] := by
    refine ⟨hNumber, by omega, ?_⟩
    rw [← hTag]
    exact ⟨.last hTagByte, by simp, by omega⟩
  have hSpells : Varint64 value.length [length] := by
    rw [← hLength]
    exact ⟨.last hByte, by simp, by omega⟩
  exact .len hTagSpells hSpells hRest

/- An `UPDATE` with a delta, in a batch that resets. -/
def updateEvent : Bytes := [8, 1, 32, 5]

def updateBatch : Bytes := [10, 4, 8, 1, 32, 5, 16, 1]

def updateMessage : EventsMessage where
  events :=
    [{ type := 1
       id := []
       connection := none
       uplinkDelta := 5
       downlinkDelta := 0
       closedAt := 0 }]
  reset := true

theorem denotes_updateBatch : DenotesEvents [⟨1, .len updateEvent⟩, ⟨2, .varint 1⟩]
      updateBatch updateMessage := by
  have hEvent : DenotesEvent [⟨1, .varint 1⟩, ⟨4, .varint 5⟩] updateEvent
      { type := 1
        id := []
        connection := none
        uplinkDelta := 5
        downlinkDelta := 0
        closedAt := 0 } := by
    refine ⟨⟨?_, ?_⟩, ?_, ?_, ?_, ?_, ?_, ?_⟩
    · exact encodes_short_varint (by decide) (by decide)
        (by decide) (by decide) (by decide)
        (encodes_short_varint (by decide) (by decide)
          (by decide) (by decide) (by decide) .nil)
    · simp [eventSchema, FieldType.Holds, signed64]
    · decide
    · decide
    · rfl
    · decide
    · decide
    · decide
  refine ⟨⟨?_, ?_⟩, ?_, ?_⟩
  · exact encodes_short_len (by decide) (by decide)
      (by decide) (by decide) (by decide)
      (encodes_short_varint (by decide) (by decide)
        (by decide) (by decide) (by decide) .nil)
  · simp [eventsSchema, FieldType.Holds]
  · exact .cons ⟨_, hEvent⟩ .nil
  · decide

theorem plain_updateBatch : PlainBatch updateBatch := by
  have hBatch : readFields updateBatch = .ok [(1, .bytes updateEvent), (2, .int 1)] := by
    decide +kernel
  have hEvent : readFields updateEvent = .ok [(1, .int 1), (4, .int 5)] := by
    decide +kernel
  refine ⟨_, hBatch, by decide, ?_⟩
  intro part hPart
  have hOnly : part = updateEvent := by simpa [byteValues, valuesOf, Raw.bytes?] using hPart
  subst hOnly
  refine ⟨_, hEvent, by decide, ?_, ?_⟩
  · decide
  · simp [byteValues, valuesOf, Raw.bytes?]

theorem decoding_agrees_updateBatch : ∃ batch, decodeConnectionEvents updateBatch = .ok batch ∧
      BatchAgrees batch updateMessage :=
  ((decoding_agrees_iff _).1 _ _ denotes_updateBatch).mpr plain_updateBatch

/- An event whose type occurs twice; the last one is `UPDATE`. -/
def retypedBatch : Bytes := [10, 4, 8, 0, 8, 1]

def retypedMessage : EventsMessage where
  events :=
    [{ type := 1
       id := []
       connection := none
       uplinkDelta := 0
       downlinkDelta := 0
       closedAt := 0 }]
  reset := false

theorem retypedBatch_trips : DenotesEvents [⟨1, .len [8, 0, 8, 1]⟩] retypedBatch retypedMessage ∧
      ¬ (∃ batch, decodeConnectionEvents retypedBatch = .ok batch ∧ BatchAgrees batch retypedMessage) ∧
      ¬ Settles (decodeConnectionEvents retypedBatch) := by
  have hRaises : decodeConnectionEvents retypedBatch = .error (.typeError
        "%d format: a real number is required, not list") := by
    decide +kernel
  have hEvent : DenotesEvent [⟨1, .varint 0⟩, ⟨1, .varint 1⟩] [8, 0, 8, 1]
      { type := 1
        id := []
        connection := none
        uplinkDelta := 0
        downlinkDelta := 0
        closedAt := 0 } := by
    refine ⟨⟨?_, ?_⟩, ?_, ?_, ?_, ?_, ?_, ?_⟩
    · exact encodes_short_varint (by decide) (by decide)
        (by decide) (by decide) (by decide)
        (encodes_short_varint (by decide) (by decide)
          (by decide) (by decide) (by decide) .nil)
    · simp [eventSchema, FieldType.Holds, signed64]
    · decide
    · decide
    · rfl
    · decide
    · decide
    · decide
  refine ⟨⟨⟨?_, ?_⟩, ?_, ?_⟩, ?_, ?_⟩
  · exact encodes_short_len (by decide) (by decide)
      (by decide) (by decide) (by decide) .nil
  · simp [eventsSchema, FieldType.Holds]
  · exact .cons ⟨_, hEvent⟩ .nil
  · decide
  · rintro ⟨batch, hOk, -⟩
    rw [hRaises] at hOk
    cases hOk
  · intro hSettles
    exact hSettles _ hRaises

end SingboxOps.ProtoWire
