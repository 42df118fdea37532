import SingboxOps.Lib.BoundedFloat
import SingboxOps.Lib.Utf8
import SingboxOps.Lib.Json.Parse

/-
  The exchange format: the files a journal reader leaves for
  the monitor, and the check every one of them must pass.

  A file that passes yields its header and its event records;
  one that does not yields a sanitized code.  A line that
  nests deeper than the interpreter's room for containers ends
  the check with `RecursionError` instead.
-/

namespace SingboxOps.JournalIngest

-- Closed Vocabularies

/- `CLASSES` -/
inductive JournalClass where
  | dns
  | dialTimeout
  | reset
  | netUnreachable
  | tlsHandshake
  | quicError
  | eofCancel
  | other
deriving DecidableEq

/- `PROTOS` -/
inductive JournalProto where
  | reality
  | hysteria2
  | other
deriving DecidableEq

/- `DCLS` -/
inductive JournalDcls where
  | https443
  | http80
  | quic
  | dns53
  | dot853
  | smtpish
  | other
deriving DecidableEq

/- `BOUNDS` -/
inductive Boundary where
  | none
  | coldStart
  | sourceGap
deriving DecidableEq

/- `JOURNAL_AUDIT_CODES` -/
inductive AuditCode where
  | sequenceGap
  | badJson
  | badName
  | badShape
  | empty
  | eventInvalid
  | headerInvalid
  | headerPosition
  | noHeader
  | notRegular
  | seqMismatch
  | tooLarge
  | unreadable
deriving DecidableEq

def JournalClass.all : List JournalClass :=
  [.dns, .dialTimeout, .reset, .netUnreachable, .tlsHandshake, .quicError, .eofCancel, .other]

def JournalClass.token : JournalClass → PyStr
  | .dns => pyStr "dns"
  | .dialTimeout => pyStr "dial_timeout"
  | .reset => pyStr "reset"
  | .netUnreachable => pyStr "net_unreachable"
  | .tlsHandshake => pyStr "tls_handshake"
  | .quicError => pyStr "quic_error"
  | .eofCancel => pyStr "eof_cancel"
  | .other => pyStr "other"

def JournalProto.all : List JournalProto := [.reality, .hysteria2, .other]

def JournalProto.token : JournalProto → PyStr
  | .reality => pyStr "Reality"
  | .hysteria2 => pyStr "Hysteria2"
  | .other => pyStr "OTHER"

def JournalDcls.all : List JournalDcls := [.https443, .http80, .quic, .dns53, .dot853, .smtpish, .other]

def JournalDcls.token : JournalDcls → PyStr
  | .https443 => pyStr "https443"
  | .http80 => pyStr "http80"
  | .quic => pyStr "quic"
  | .dns53 => pyStr "dns53"
  | .dot853 => pyStr "dot853"
  | .smtpish => pyStr "smtpish"
  | .other => pyStr "other"

def Boundary.all : List Boundary := [.none, .coldStart, .sourceGap]

def Boundary.token : Boundary → PyStr
  | .none => pyStr "NONE"
  | .coldStart => pyStr "COLD_START"
  | .sourceGap => pyStr "SOURCE_GAP"

def AuditCode.token : AuditCode → PyStr
  | .sequenceGap => pyStr "sequence_gap"
  | .badJson => pyStr "exchange_bad_json"
  | .badName => pyStr "exchange_bad_name"
  | .badShape => pyStr "exchange_bad_shape"
  | .empty => pyStr "exchange_empty"
  | .eventInvalid => pyStr "exchange_event_invalid"
  | .headerInvalid => pyStr "exchange_header_invalid"
  | .headerPosition => pyStr "exchange_header_position"
  | .noHeader => pyStr "exchange_no_header"
  | .notRegular => pyStr "exchange_not_regular"
  | .seqMismatch => pyStr "exchange_seq_mismatch"
  | .tooLarge => pyStr "exchange_too_large"
  | .unreadable => pyStr "exchange_unreadable"

/- The member of a vocabulary a text names. -/
def ofToken? {α : Type} (all : List α) (token : α → PyStr) (s : PyStr) : Option α :=
  all.find? (fun a => token a = s)

-- Records

variable {F : Type}

/- A JSON number: an int or a float. -/
inductive Num (F : Type) where
  | int (n : ℤ)
  | float (x : F)
deriving DecidableEq

/- The rational a number stands for. -/
def Num.toRat [PyFloat F] : Num F → ℚ
  | .int n => n
  | .float x => PyFloat.toRat x

/- A header line. -/
structure Header where
  seq : ℤ
  run : PyStr
  epoch : ℤ
  boundary : Boundary
  lines : ℤ
  eligible : ℤ
  infoDropped : ℤ
  nomatchDropped : ℤ
  priorityUnusable : ℤ
  pfail : ℤ
  limited : ℤ
deriving DecidableEq

/- An event line; a wire null is `none`. -/
structure Event (F : Type) where
  ts : Num F
  cls : JournalClass
  proto : JournalProto
  port : Option ℤ
  dcls : Option JournalDcls
  fp : Option PyStr
  n : ℤ
deriving DecidableEq

/- `_HEADER_KEYS` -/
def headerKeys : List PyStr := [pyStr "t", pyStr "v", pyStr "cv", pyStr "seq", pyStr "run",
    pyStr "epoch", pyStr "boundary", pyStr "lines",
    pyStr "eligible", pyStr "info_dropped",
    pyStr "nomatch_dropped", pyStr "priority_unusable",
    pyStr "pfail", pyStr "limited"]

/- `_EVENT_KEYS` -/
def eventKeys : List PyStr := [pyStr "t", pyStr "ts", pyStr "cls", pyStr "proto",
    pyStr "port", pyStr "dcls", pyStr "fp", pyStr "n"]

/- `set(obj) == keys` -/
def hasExactly {V : Type} (members : List (PyStr × V)) (keys : List PyStr) : Bool :=
  members.all (fun m => m.1 ∈ keys) && keys.all (fun k => (Json.getItem members k).isSome)

/- `obj[key]`, for a key the object has. -/
def field (members : List (PyStr × Json F)) (key : String) : Json F :=
  (Json.getItem members (pyStr key)).getD .null

/- `value == n` for an int `n`: numbers of one value are equal. -/
def eqInt [PyFloat F] (value : Json F) (n : ℤ) : Bool := match value with
  | .int m => m = n
  | .bool b => (if b then 1 else 0) = n
  | .float (.finite x) => PyFloat.toRat x = (n : ℚ)
  | _ => false

/- `value == text` -/
def eqStr (value : Json F) (text : PyStr) : Bool := match value with
  | .str s => s = text
  | _ => false

/- An int that is at least `low`; a bool is none. -/
def intFrom? (low : ℤ) (value : Json F) : Option ℤ := match value with
  | .int n => if low ≤ n then some n else none
  | _ => none

/- A text of so many lower-case hexadecimal digits. -/
def hexText? (length : ℕ) (value : Json F) : Option PyStr := match value with
  | .str s =>
    if s.length = length ∧
        s.all (fun c => (48 ≤ c && c ≤ 57) || (97 ≤ c && c ≤ 102)) then
      some s
    else none
  | _ => none

/- A member of a closed vocabulary. -/
def tokenOf? {α : Type} (all : List α) (token : α → PyStr) (value : Json F) : Option α :=
  match value with
  | .str s => ofToken? all token s
  | _ => none

/- `null`, or what a check makes of the value. -/
def nullOr? {α : Type} (check : Json F → Option α) (value : Json F) : Option (Option α) :=
  match value with
  | .null => some none
  | value => (check value).map some

variable [PyFloat F]

/- `validate_header`: the header an object is, if it is one. -/
def validateHeader (obj : List (PyStr × Json F)) : Option Header :=
  if !hasExactly obj headerKeys then none
  else if !eqStr (field obj "t") (pyStr "h") then none
  else if !eqInt (field obj "v") 1 then none
  else if !eqInt (field obj "cv") 1 then none
  else do
    let seq ← intFrom? 1 (field obj "seq")
    let run ← hexText? 32 (field obj "run")
    let epoch ← intFrom? 1 (field obj "epoch")
    let boundary ← tokenOf? Boundary.all Boundary.token (field obj "boundary")
    let lines ← intFrom? 0 (field obj "lines")
    let eligible ← intFrom? 0 (field obj "eligible")
    let infoDropped ← intFrom? 0 (field obj "info_dropped")
    let nomatchDropped ← intFrom? 0 (field obj "nomatch_dropped")
    let priorityUnusable ← intFrom? 0 (field obj "priority_unusable")
    let pfail ← intFrom? 0 (field obj "pfail")
    let limited ← intFrom? 0 (field obj "limited")
    pure { seq, run, epoch, boundary, lines, eligible,
           infoDropped, nomatchDropped, priorityUnusable,
           pfail, limited }

/- A timestamp between 0 and 1e11. -/
def timestamp? (value : Json F) : Option (Num F) := match value with
  | .int n => if n < 0 ∨ n > 10 ^ 11 then none else some (.int n)
  | .float (.finite x) =>
    if PyFloat.toRat x < 0 ∨ PyFloat.toRat x > 10 ^ 11 then none
    else some (.float x)
  | _ => none

/- A port number. -/
def port? (value : Json F) : Option ℤ := match value with
  | .int n => if 1 ≤ n ∧ n ≤ 65535 then some n else none
  | _ => none

/- `validate_event`: the event an object is, if it is one. -/
def validateEvent (obj : List (PyStr × Json F)) : Option (Event F) :=
  if !hasExactly obj eventKeys then none
  else if !eqStr (field obj "t") (pyStr "e") then none
  else do
    let ts ← timestamp? (field obj "ts")
    let cls ← tokenOf? JournalClass.all JournalClass.token (field obj "cls")
    let proto ← tokenOf? JournalProto.all JournalProto.token (field obj "proto")
    let port ← nullOr? port? (field obj "port")
    let dcls ← nullOr? (tokenOf? JournalDcls.all JournalDcls.token) (field obj "dcls")
    let fp ← nullOr? (hexText? 16) (field obj "fp")
    let n ← intFrom? 1 (field obj "n")
    -- fp only with `other`, a destination class only with a port
    if cls ≠ .other ∧ fp ≠ none then none
    else if dcls ≠ none ∧ port = none then none
    else pure { ts, cls, proto, port, dcls, fp, n }

-- Exchange Files

/- `text.split("\n")` -/
def splitText : PyStr → List PyStr
  | [] => [[]]
  | c :: rest =>
    if c = 10 then [] :: splitText rest
    else
      match splitText rest with
      | [] => [[c]]
      | line :: lines => (c :: line) :: lines

/- The lines of a body, without the one after a last newline. -/
def bodyLines (text : PyStr) : List PyStr :=
  let lines := splitText text
  if lines.getLast? = some [] then lines.dropLast else lines

/- What the lines read so far amount to. -/
structure Parsed (F : Type) where
  header : Option Header
  events : List (Event F)

/- An answer of the check: the records, or a code. -/
abbrev Checked (α : Type) : Type := Except Json.ParseError (Except AuditCode α)

/- One line of a body. -/
def parseLine (room : ℕ) (filenameSeq : ℕ) (index : ℕ) (parsed : Parsed F)
    (line : PyStr) : Checked (Parsed F) :=
  match (Json.loads room line : Except Json.ParseError (Json F)) with
  | .error .recursion => .error .recursion
  | .error .value => .ok (.error .badJson)
  | .ok (.obj obj) =>
    if eqStr ((Json.getItem obj (pyStr "t")).getD .null)
        (pyStr "h") then
      if index ≠ 0 ∨ parsed.header.isSome then
        .ok (.error .headerPosition)
      else
        match validateHeader obj with
        | none => .ok (.error .headerInvalid)
        | some header =>
          if header.seq ≠ filenameSeq then .ok (.error .seqMismatch)
          else .ok (.ok { parsed with header := some header })
    else
      match validateEvent obj with
      | none => .ok (.error .eventInvalid)
      | some event => .ok (.ok { parsed with events := parsed.events ++ [event] })
  | .ok _ => .ok (.error .badShape)

/- The lines of a body, one after the other. -/
def parseLines (room : ℕ) (filenameSeq : ℕ) : ℕ → Parsed F → List PyStr → Checked (Parsed F)
  | _, parsed, [] => .ok (.ok parsed)
  | index, parsed, line :: rest =>
    match parseLine room filenameSeq index parsed line with
    | .error e => .error e
    | .ok (.error code) => .ok (.error code)
    | .ok (.ok parsed) => parseLines room filenameSeq (index + 1) parsed rest

/-
  `parse_exchange_text`, with the records a valid body is read
  into.
-/
def parseExchangeText (room : ℕ) (filenameSeq : ℕ) (text : PyStr) : Checked (Header × List (Event F)) :=
  if text = [] then .ok (.error .empty)
  else
    let lines := bodyLines text
    if lines = [] then .ok (.error .empty)
    else
      match parseLines room filenameSeq 0 ⟨none, []⟩ lines with
      | .error e => .error e
      | .ok (.error code) => .ok (.error code)
      | .ok (.ok parsed) =>
        match parsed.header with
        | none => .ok (.error .noHeader)
        | some header => .ok (.ok (header, parsed.events))

def maxFileBytes : ℕ := 256 * 1024

/-
  What stands under a name when it is read: nothing a stat
  answers for, no regular file, or a regular file with its
  size and the bytes a read gets of it, if it gets any.
-/
inductive ExchangeFile where
  | missing
  | irregular
  | regular (size : ℕ) (content : Option Bytes)

/- Text mode turns every line ending into a newline. -/
def universalNewlines : PyStr → PyStr
  | [] => []
  | 13 :: 10 :: rest => 10 :: universalNewlines rest
  | 13 :: rest => 10 :: universalNewlines rest
  | c :: rest => c :: universalNewlines rest

/- The bytes a code point takes in UTF-8. -/
def utf8Size (c : ℕ) : ℕ :=
  if c < 0x80 then 1
  else if c < 0x800 then 2
  else if c < 0x10000 then 3
  else 4

/- The sequence number in a file's name. -/
def filenameSeq? (name : PyStr) : Option ℕ :=
  if name.take 3 = pyStr "ev-" then
    let rest := name.drop 3
    let digits := rest.takeWhile (fun c => (Json.digit? c).isSome)
    if rest.drop digits.length = pyStr ".jsonl" ∧
        1 ≤ digits.length ∧ digits.length ≤ 20 then
      some (digitsValue (digits.filterMap Json.digit?))
    else none
  else none

/-
  `read_and_validate`.  Bytes that are no text are settled by
  the caller as an unreadable file.
-/
def readAndValidate (room : ℕ) (name : PyStr) (filenameSeq : ℕ)
    (file : ExchangeFile) : Checked (Header × List (Event F)) :=
  match file with
  | .missing => .ok (.error .unreadable)
  | .irregular =>
    if (filenameSeq? name).isNone then .ok (.error .badName)
    else .ok (.error .notRegular)
  | .regular size content =>
    if (filenameSeq? name).isNone then .ok (.error .badName)
    else if size > maxFileBytes then .ok (.error .tooLarge)
    else
      match content.bind utf8Decode with
      | none => .ok (.error .unreadable)
      | some text =>
        let body := (universalNewlines text).take (maxFileBytes + 1)
        if (body.map utf8Size).sum > maxFileBytes then
          .ok (.error .tooLarge)
        else parseExchangeText room filenameSeq body

/-
  The exchange directory as a pass finds it: its names, if it
  can be listed, and what stands under each when it is read.
-/
structure Directory where
  names : Option (List PyStr)
  file : PyStr → ExchangeFile

/- `found[seq] = name` -/
def setFound (found : List (ℕ × PyStr)) (seq : ℕ) (name : PyStr) : List (ℕ × PyStr) :=
  (seq, name) :: found.filter (fun f => f.1 ≠ seq)

/- `scan_exchange_dir`, of the names that were listed. -/
def scanExchangeDir (names : List PyStr) : List (ℕ × PyStr) :=
  (names.insertionSort (· ≤ ·)).foldl (fun found name =>
      match filenameSeq? name with
      | none => found
      | some seq => setFound found seq name)
    []

end SingboxOps.JournalIngest
