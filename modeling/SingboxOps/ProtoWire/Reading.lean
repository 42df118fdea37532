import SingboxOps.ProtoWire.Decode
import Mathlib.Data.List.Induction

/-
  The decoder apart from its loop: the fields that a buffer
  spells, and the entry that the fields of a number leave.
-/

namespace SingboxOps.ProtoWire

-- Fields

/- The fields of a buffer, in their order. -/
def readFields (buf : Bytes) : Except Raised (List (ℕ × Raw)) := match buf with
  | [] => .ok []
  | byte :: tail =>
    match _hField : readField (byte :: tail) with
    | .error e => .error e
    | .ok (field, rest) => (readFields rest).map (field :: ·)
termination_by buf.length
decreasing_by exact readField_length _hField

theorem readFields_of_ok {buf rest : Bytes} {field : ℕ × Raw} (h : readField buf = .ok (field, rest)) :
    readFields buf = (readFields rest).map (field :: ·) := by
  cases buf with
  | nil => cases h
  | cons byte tail =>
    rw [readFields]
    split
    · rename_i e hField
      rw [h] at hField
      cases hField
    · rename_i field' rest' hField
      rw [h] at hField
      cases hField
      rfl

theorem readFields_of_error {buf : Bytes} {e : Raised} (hBuf : buf ≠ [])
    (h : readField buf = .error e) : readFields buf = .error e := by
  cases buf with
  | nil => exact absurd rfl hBuf
  | cons byte tail =>
    rw [readFields]
    split
    · rename_i e' hField
      rw [h] at hField
      cases hField
      rfl
    · rename_i field' rest' hField
      rw [h] at hField
      cases hField

theorem decodeLoop_eq (spec : Spec) (values : Values) (buf : Bytes) :
    decodeLoop spec values buf = (readFields buf).map (fun fields => fields.foldl (store spec) values) := by
  induction values, buf using decodeLoop.induct spec with
  | case1 values =>
    rw [decodeLoop, readFields]
    rfl
  | case2 values byte tail e hField =>
    rw [decodeLoop, readFields_of_error (by simp) hField]
    split
    · rename_i e' hField'
      rw [hField] at hField'
      cases hField'
      rfl
    · rename_i field' rest' hField'
      rw [hField] at hField'
      cases hField'
  | case3 values byte tail field rest hField ih =>
    rw [decodeLoop, readFields_of_ok hField]
    split
    · rename_i e' hField'
      rw [hField] at hField'
      cases hField'
    · rename_i field' rest' hField'
      rw [hField] at hField'
      cases hField'
      rw [ih]
      cases readFields rest <;> rfl

/- The dictionary that fields leave. -/
def stored (spec : Spec) (fields : List (ℕ × Raw)) : Values := fields.foldl (store spec) []

theorem decodeMessage_eq (buf : Bytes)
    (spec : Spec) : decodeMessage buf spec = (readFields buf).map (stored spec) :=
  decodeLoop_eq spec [] buf

/- A reader's only exception is the one of the wire. -/
def OnlyWire {α : Type} (result : Except Raised α) : Prop :=
  ∀ e, result = .error e → ∃ message, e = .protoDecode message

theorem onlyWire_decodeVarint (result shift : ℕ)
    (buf : Bytes) : OnlyWire (decodeVarint result shift buf) := by
  induction buf generalizing result shift with
  | nil =>
    intro e h
    cases h
    exact ⟨_, rfl⟩
  | cons byte tail ih =>
    intro e h
    rw [decodeVarint] at h
    split at h
    · cases h
    · split at h
      · cases h
        exact ⟨_, rfl⟩
      · exact ih _ _ e h

theorem onlyWire_takeBytes (count : ℕ) (short : String)
    (buf : Bytes) : OnlyWire (takeBytes count short buf) := by
  intro e h
  rw [takeBytes] at h
  split at h <;> cases h
  exact ⟨_, rfl⟩

theorem OnlyWire.bind {α β : Type} {x : Except Raised α} {f : α → Except Raised β} (hx : OnlyWire x)
    (hf : ∀ a, OnlyWire (f a)) : OnlyWire (x >>= f) := by
  intro e h
  rcases except_bind_error h with hError | ⟨a, -, hError⟩
  · exact hx e hError
  · exact hf a e hError

theorem onlyWire_ok {α : Type} (a : α) : OnlyWire (.ok a : Except Raised α) := by
  intro e h
  cases h

theorem onlyWire_readValue (wireType : ℕ) (buf : Bytes) : OnlyWire (readValue wireType buf) := by
  rw [readValue]
  split
  · exact (onlyWire_decodeVarint 0 0 buf).bind (fun a => onlyWire_ok _)
  · split
    · exact (onlyWire_decodeVarint 0 0 buf).bind (fun a => onlyWire_takeBytes _ _ _)
    · split
      · exact onlyWire_takeBytes _ _ _
      · split
        · exact onlyWire_takeBytes _ _ _
        · intro e h
          cases h
          exact ⟨_, rfl⟩

theorem onlyWire_readField (buf : Bytes) : OnlyWire (readField buf) := by
  exact (onlyWire_decodeVarint 0 0 buf).bind (fun a => (onlyWire_readValue _ _).bind (fun b => onlyWire_ok _))

theorem onlyWire_readFields (buf : Bytes) : OnlyWire (readFields buf) := by
  induction buf using readFields.induct with
  | case1 =>
    rw [readFields]
    exact onlyWire_ok _
  | case2 byte tail e hField =>
    rw [readFields_of_error (by simp) hField]
    intro e' h
    cases h
    exact onlyWire_readField _ e hField
  | case3 byte tail field rest hField ih =>
    rw [readFields_of_ok hField]
    intro e h
    cases hRest : readFields rest with
    | error e' =>
      rw [hRest] at h
      cases h
      exact ih e hRest
    | ok fields =>
      rw [hRest] at h
      cases h

-- Entries

/- The entry that values leave, one after the other. -/
def cellOf : List Scalar → Option Cell
  | [] => none
  | [value] => some (.one value)
  | values => some (.many values)

theorem cellOf_concat (values : List Scalar) (value : Scalar) : cellOf (values ++ [value]) =
      match cellOf values with
      | none => some (.one value)
      | some (.one first) => some (.many [first, value])
      | some (.many all) => some (.many (all ++ [value])) := by
  match values with
  | [] => rfl
  | [first] => rfl
  | first :: second :: rest => rfl

/- What a field gives to the entry of a name. -/
def valueFor (spec : Spec) (name : String) (field : ℕ × Raw) : Option Scalar :=
  match spec.get field.1 with
  | none => none
  | some (name', kind) => if name' = name then decodeKind kind field.2 else none

theorem get_store (spec : Spec) (values : Values) (field : ℕ × Raw) (name : String) :
    (store spec values field).get name =
      match valueFor spec name field with
      | none => values.get name
      | some value =>
        match values.get name with
        | none => some (.one value)
        | some (.one first) => some (.many [first, value])
        | some (.many all) => some (.many (all ++ [value])) := by
  rw [store, valueFor]
  cases spec.get field.1 with
  | none => rfl
  | some entry =>
    rcases entry with ⟨name', kind⟩
    dsimp only
    by_cases hName : name' = name
    · subst hName
      rw [if_pos rfl]
      cases decodeKind kind field.2 with
      | none => rfl
      | some value =>
        dsimp only
        cases values.get name' with
        | none => simp
        | some cell => cases cell <;> simp
    · rw [if_neg hName]
      cases decodeKind kind field.2 with
      | none => rfl
      | some value =>
        dsimp only
        cases values.get name' with
        | none => simp [hName]
        | some cell => cases cell <;> simp [hName]

theorem get_stored_eq (spec : Spec) (name : String) (fields : List (ℕ × Raw)) :
    (stored spec fields).get name = cellOf (fields.filterMap (valueFor spec name)) := by
  induction fields using List.reverseRecOn with
  | nil => rfl
  | append_singleton fields field ih =>
    rw [stored, List.foldl_append, List.foldl_cons, List.foldl_nil, get_store, List.filterMap_append]
    rw [stored] at ih
    rw [ih]
    cases hValue : valueFor spec name field with
    | none => simp [hValue]
    | some value =>
      rw [List.filterMap_cons_some hValue, List.filterMap_nil, cellOf_concat]

/- The values of a number, in their order. -/
def valuesOf (number : ℕ) (fields : List (ℕ × Raw)) : List Raw :=
  (fields.filter (fun f => f.1 = number)).map Prod.snd

/- A name that one number has, and no other. -/
structure Names (spec : Spec) (number : ℕ) (name : String) (kind : Kind) : Prop where
  has : spec.get number = some (name, kind)
  only : ∀ e ∈ spec, e.2.1 = name → e.1 = number

theorem get_stored {spec : Spec} {number : ℕ} {name : String} {kind : Kind}
    (hNames : Names spec number name kind)
    (fields : List (ℕ × Raw)) :
    (stored spec fields).get name = cellOf ((valuesOf number fields).filterMap (decodeKind kind)) := by
  rw [get_stored_eq]
  congr 1
  induction fields with
  | nil => rfl
  | cons field rest ih =>
    have hValue : valueFor spec name field =
        if field.1 = number then decodeKind kind field.2
        else none := by
      rw [valueFor]
      by_cases hNumber : field.1 = number
      · rw [if_pos hNumber, hNumber, hNames.has]
        exact if_pos rfl
      · rw [if_neg hNumber]
        cases hGet : spec.get field.1 with
        | none => rfl
        | some entry =>
          dsimp only
          rw [if_neg]
          intro hName
          exact hNumber (hNames.only (field.1, entry) (Dict.mem_of_get hGet) hName)
    by_cases hNumber : field.1 = number
    · rw [if_pos hNumber] at hValue
      rw [valuesOf, List.filter_cons_of_pos (by simp [hNumber]),
        List.map_cons, List.filterMap_cons, List.filterMap_cons,
        hValue, ← valuesOf, ih]
    · rw [if_neg hNumber] at hValue
      rw [valuesOf, List.filter_cons_of_neg (by simp [hNumber]),
        ← valuesOf, List.filterMap_cons_none hValue, ih]

theorem get_stored_none {spec : Spec} {name : String} (hNone : ∀ e ∈ spec, e.2.1 ≠ name)
    (fields : List (ℕ × Raw)) : (stored spec fields).get name = none := by
  rw [get_stored_eq]
  have hEmpty : fields.filterMap (valueFor spec name) = [] := by
    rw [List.filterMap_eq_nil_iff]
    intro field hField
    rw [valueFor]
    cases hGet : spec.get field.1 with
    | none => rfl
    | some entry => exact if_neg (hNone (field.1, entry) (Dict.mem_of_get hGet))
  rw [hEmpty]
  rfl

def Raw.int? : Raw → Option ℤ
  | int value => some value
  | bytes _ => none

def Raw.bytes? : Raw → Option Bytes
  | int _ => none
  | bytes value => some value

def intValues (number : ℕ) (fields : List (ℕ × Raw)) : List ℤ := (valuesOf number fields).filterMap Raw.int?

def byteValues (number : ℕ) (fields : List (ℕ × Raw)) : List Bytes :=
  (valuesOf number fields).filterMap Raw.bytes?

theorem filterMap_varint (values : List Raw) : values.filterMap (decodeKind .varint) =
      (values.filterMap Raw.int?).map Scalar.int := by
  rw [List.map_filterMap]
  congr 1
  funext raw
  cases raw <;> rfl

theorem filterMap_string (values : List Raw) : values.filterMap (decodeKind .string) =
      (values.filterMap Raw.bytes?).map (fun b => Scalar.text (utf8Replace b)) := by
  rw [List.map_filterMap]
  congr 1
  funext raw
  cases raw <;> rfl

theorem filterMap_message (values : List Raw) : values.filterMap (decodeKind .message) =
      (values.filterMap Raw.bytes?).map Scalar.bytes := by
  rw [List.map_filterMap]
  congr 1
  funext raw
  cases raw <;> rfl

-- Events

/- The value of a number that occurs at most once. -/
def soleInt (message : String) (values : List ℤ) : Except Raised ℤ := match values with
  | [] => .ok 0
  | [value] => .ok value
  | _ => .error (.typeError message)

theorem number_field {spec : Spec} {n : ℕ} {name : String}
    (hNames : Names spec n name .varint) (message : String)
    (fields : List (ℕ × Raw)) : number message (Values.field (stored spec fields) name (.int 0)) =
      soleInt message (intValues n fields) := by
  rw [Values.field, get_stored hNames, filterMap_varint, ← intValues]
  match intValues n fields with
  | [] => rfl
  | [value] => rfl
  | first :: second :: rest => rfl

/- The connection of an event, by its messages. -/
def soleConnection (parts : List Bytes) : Except Raised (Option Values) := match parts with
  | [raw] => (decodeConnection raw).map some
  | _ => .ok none

theorem connectionOf_stored (fields : List (ℕ × Raw)) :
    connectionOf (stored connectionEventSpec fields) = soleConnection (byteValues 3 fields) := by
  have hNames : Names connectionEventSpec 3 "connection" .message := by
    constructor <;> decide
  rw [connectionOf, get_stored hNames, filterMap_message, ← byteValues]
  match byteValues 3 fields with
  | [] => rfl
  | [raw] => rfl
  | first :: second :: rest => rfl

/- An event, by the fields it spells. -/
def eventOf (fields : List (ℕ × Raw)) : Except Raised Event := do
  let type ← soleInt "%d format: a real number is required, not list" (intValues 1 fields)
  let connection ← soleConnection (byteValues 3 fields)
  let uplinkDelta ← soleInt "float() argument must be a string or a real number, not 'list'"
    (intValues 4 fields)
  let downlinkDelta ← soleInt "float() argument must be a string or a real number, not 'list'"
    (intValues 5 fields)
  let closedAt ← soleInt "int() argument must be a string, a bytes-like object or a real number, not 'list'"
    (intValues 6 fields)
  return {
    type := eventTypeName type
    id := (cellOf ((byteValues 2 fields).map
      (fun b => .text (utf8Replace b)))).getD (.one (.text []))
    connection := connection
    uplinkDelta := floatOfInt uplinkDelta
    downlinkDelta := floatOfInt downlinkDelta
    closedAt := closedAt }

theorem decodeConnectionEvent_eq (raw : Bytes) : decodeConnectionEvent raw = readFields raw >>= eventOf := by
  have hType : Names connectionEventSpec 1 "type" .varint := by
    constructor <;> decide
  have hId : Names connectionEventSpec 2 "id" .string := by
    constructor <;> decide
  have hUp : Names connectionEventSpec 4 "uplink_delta" .varint := by
    constructor <;> decide
  have hDown : Names connectionEventSpec 5 "downlink_delta" .varint := by
    constructor <;> decide
  have hClosed : Names connectionEventSpec 6 "closed_at" .varint := by
    constructor <;> decide
  rw [decodeConnectionEvent, decodeMessage_eq]
  cases readFields raw with
  | error e => rfl
  | ok fields =>
    change (number _ (Values.field (stored _ fields) "type" _) >>= _) = eventOf fields
    rw [number_field hType, connectionOf_stored, eventOf,
      number_field hUp, number_field hDown, number_field hClosed]
    rw [Values.field, get_stored hId, filterMap_string, ← byteValues]

/- The raw events, each decoded, up to the first that fails. -/
def eventsOf : List Bytes → Except Raised (List Event)
  | [] => .ok []
  | raw :: rest => do
      let event ← decodeConnectionEvent raw
      let events ← eventsOf rest
      return event :: events

theorem decodeEach_bytes (parts : List Bytes) : decodeEach (parts.map Scalar.bytes) = eventsOf parts := by
  induction parts with
  | nil => rfl
  | cons raw rest ih => rw [List.map_cons, decodeEach, eventsOf, ih]

theorem items_cellOf (values : List Scalar) : ((cellOf values).map Cell.items).getD [] = values := by
  match values with
  | [] => rfl
  | [value] => rfl
  | first :: second :: rest => rfl

/- The truth of the entry that fields of kind `bool` leave. -/
def resetOf (values : List Raw) : Bool :=
  ((cellOf (values.filterMap (decodeKind .bool))).getD (.one (.bool false))).truth

theorem decodeConnectionEvents_eq (raw : Bytes) : decodeConnectionEvents raw = do
      let fields ← readFields raw
      let events ← eventsOf (byteValues 1 fields)
      return {
        reset := resetOf (valuesOf 2 fields)
        events := events } := by
  have hEvents : Names connectionEventsSpec 1 "events" .message := by
    constructor <;> decide
  have hReset : Names connectionEventsSpec 2 "reset" .bool := by
    constructor <;> decide
  rw [decodeConnectionEvents, decodeMessage_eq]
  cases readFields raw with
  | error e => rfl
  | ok fields =>
    change (decodeEach (((Dict.get (stored _ fields) "events").map Cell.items).getD []) >>= _) =
        (eventsOf (byteValues 1 fields) >>= _)
    rw [get_stored hEvents, filterMap_message, ← byteValues,
      items_cellOf, decodeEach_bytes, Values.field, get_stored hReset]
    rfl

end SingboxOps.ProtoWire
