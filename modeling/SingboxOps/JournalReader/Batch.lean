import SingboxOps.JournalIngest.Exchange
import SingboxOps.Lib.Dict
import SingboxOps.Lib.Json.Dumpable
import Mathlib.Data.Prod.Lex

/-
  The batch of a poll: what the reader makes of journal entries
  and the exchange body it writes.

  The regular expressions, the Unicode tables and the keyed
  hash are parameters; the token tables, the conversions and
  the aggregation are embedded.  A call that raises is `none`.
-/

namespace SingboxOps.JournalReader

open JournalIngest (Boundary JournalClass JournalProto JournalDcls
  Num)

-- Text

/- `str.isdigit` and `int` of a character. -/
structure Unicode where
  isDigit : ℕ → Bool
  decimal : ℕ → Option (Fin 10)

/- The levels a message starts with. -/
inductive Level where
  | error
  | warn
  | info
  | debug
deriving DecidableEq

/- 16 lower-case hexadecimal digits. -/
def FpShaped (fp : PyStr) : Prop :=
  fp.length = 16 ∧ fp.all (fun c => (48 ≤ c && c ≤ 57) || (97 ≤ c && c ≤ 102)) = true

abbrev Fingerprint := { fp : PyStr // FpShaped fp }

/- What the regular expressions and the hash answer. -/
structure TextRules (F : Type) where
  unicode : Unicode
  normalizeMessage : Json F → PyStr × Option Level
  dialTimeout : PyStr → Bool
  dialAddresses : PyStr → List PyStr
  blank : Json F → Bool
  buildTemplate : PyStr → PyStr
  residualUnsafe : PyStr → Bool
  fingerprint : PyStr → Fingerprint

/- `text.isdigit()` -/
def isDigits (u : Unicode) (text : PyStr) : Bool := !text.isEmpty && text.all u.isDigit

/- `int(text)`, of text that is all digits. -/
def pyInt? (u : Unicode) (text : PyStr) : Option ℕ :=
  if 4300 < text.length then none
  else
    (text.mapM u.decimal).map (fun ds => ds.foldl (fun n d => 10 * n + d.val) 0)

/- `token in text` -/
def occursIn (text token : PyStr) : Bool := text.tails.any (fun rest => token.isPrefixOf rest)

-- Classification

/- `_CLASS_ROWS` -/
def classRows : List (JournalClass × List PyStr) := [(.dns,
      [pyStr "no such host", pyStr "name resolution", pyStr "temporary failure in name resolution",
        pyStr "lookup ", pyStr "dns"]),
    (.dialTimeout, [pyStr "i/o timeout", pyStr "timeout exceeded",
        pyStr "deadline exceeded", pyStr "timeout waiting for",
        pyStr "timed out"]),
    (.reset, [pyStr "connection reset by peer", pyStr "reset by peer",
        pyStr "broken pipe", pyStr "forcibly closed"]),
    (.netUnreachable, [pyStr "network is unreachable", pyStr "host is unreachable", pyStr "no route to host",
        pyStr "cannot assign requested address"]),
    (.tlsHandshake, [pyStr "tls:", pyStr "handshake", pyStr "certificate",
        pyStr "x509", pyStr "bad record mac", pyStr "alert",
        pyStr "processed invalid"]),
    (.quicError, [pyStr "quic", pyStr "invalid packet", pyStr "connection id", pyStr "version negotiation"]),
    (.eofCancel, [pyStr "unexpected eof", pyStr "eof", pyStr "context canceled", pyStr "context cancelled",
        pyStr "use of closed", pyStr "connection is closed"])]

/- `_TAG_RULES`, then `_TOKEN_RULES` -/
def protocolRules : List (PyStr × JournalProto) :=
  [(pyStr "vless-in", .reality), (pyStr "hy2-in", .hysteria2),
    (pyStr "hysteria2", .hysteria2), (pyStr "hy2", .hysteria2),
    (pyStr "reality", .reality)]

/- `_PORT_TABLE` -/
def portClass : ℕ → JournalDcls
  | 443 => .https443
  | 80 => .http80
  | 53 => .dns53
  | 853 => .dot853
  | 25 => .smtpish
  | 465 => .smtpish
  | 587 => .smtpish
  | _ => .other

variable {F : Type}

def classifyFailure (r : TextRules F) (text : PyStr) : Option JournalClass := classRows.findSome? (fun row =>
    if (decide (row.1 = .dialTimeout) && r.dialTimeout text) ||
        row.2.any (occursIn text) then
      some row.1
    else none)

def attributeProtocol (text : PyStr) : JournalProto := (protocolRules.findSome? (fun rule =>
    if occursIn text rule.1 then some rule.2 else none)).getD .other

/- A port number. -/
abbrev Port := { n : ℕ // 1 ≤ n ∧ n ≤ 65535 }

/- The text after the last colon, if there is one. -/
def afterColon (token : PyStr) : Option PyStr :=
  if 58 ∈ token then
    some (token.reverse.takeWhile (fun c => c ≠ 58)).reverse
  else none

/- `token.rstrip(":,;")` -/
def stripPunctuation (token : PyStr) : PyStr :=
  (token.reverse.dropWhile (fun c => c = 58 || c = 44 || c = 59)).reverse

/- The port of one address token. -/
def portOf (u : Unicode) (token : PyStr) : Option (Option Port) :=
  match afterColon (stripPunctuation token) with
  | none => some none
  | some digits =>
    if isDigits u digits then
      (pyInt? u digits).map (fun n => if h : 1 ≤ n ∧ n ≤ 65535 then some ⟨n, h⟩ else none)
    else some none

/- The first token with a port. -/
def firstPort (u : Unicode) : List PyStr → Option (Option Port)
  | [] => some none
  | token :: rest =>
    match portOf u token with
    | none => none
    | some (some port) => some (some port)
    | some none => firstPort u rest

def extractPort (r : TextRules F) (text : PyStr) : Option (Option Port) :=
  firstPort r.unicode (r.dialAddresses text)

def destClassFor (port : Option Port) (text : PyStr) : Option JournalDcls := port.map (fun p =>
    if occursIn text (pyStr "quic") then .quic
    else portClass p.val)

-- Eligibility

/- What an eligible entry is counted as. -/
structure Eligible where
  cls : Option JournalClass
  proto : JournalProto
  port : Option Port
  dcls : Option JournalDcls
  text : PyStr
  dcls_port : port = none → dcls = none

inductive Decision where
  | dropInfo
  | dropNomatch (priorityUnusable : Bool)
  | eligible (e : Eligible)

def priorityInt (u : Unicode) (raw : Json F) : Option (Option ℕ) :=
  let inDomain := fun n : ℤ => if 0 ≤ n ∧ n ≤ 7 then some n.toNat else none
  match raw with
  | .int n => some (inDomain n)
  | .str s =>
    if isDigits u s && s.length == 1 then
      (pyInt? u s).map (fun n => inDomain n)
    else some none
  | _ => some none

def classifyEntry (r : TextRules F) (text : PyStr) : Option Eligible := (extractPort r text).map (fun port =>
    { cls := classifyFailure r text
      proto := attributeProtocol text
      port := port
      dcls := destClassFor port text
      text := text
      dcls_port := by
        rintro rfl
        rfl })

def isNull : Json F → Bool
  | .null => true
  | _ => false

def assess (r : TextRules F) (message priority : Json F) : Option Decision :=
  let (text, level) := r.normalizeMessage message
  match level with
  | some .error | some .warn => (classifyEntry r text).map .eligible
  | some .info | some .debug => some .dropInfo
  | none => do
      let e ← classifyEntry r text
      if e.cls.isSome then some (.eligible e)
      else
        let pri ← priorityInt r.unicode priority
        if pri.any (fun n => decide (n ≤ 4)) then some (.eligible e)
        else
          some (.dropNomatch (!isNull priority && !r.blank priority && pri.isNone))

-- Entries

/- A decoded line with a usable cursor; a missing field is null. -/
structure Entry (F : Type) where
  message : Json F
  priority : Json F
  realtime : Json F
  sourceRealtime : Json F

variable [BoundedFloat F]

/- `n / 1_000_000.0` -/
def seconds? (n : ℕ) : Option F := (floatOfInt? (n : ℤ)).map
    (fun x : F => PyFloat.round (PyFloat.toRat x / 10 ^ 6))

/- A timestamp field: unusable, or converted. -/
def fieldTs (u : Unicode) (raw : Json F) : Option (Option F) := match raw with
  | .str s =>
    if isDigits u s then ((pyInt? u s).bind seconds?).map some
    else some none
  | .int n => if 0 < n then (seconds? n.toNat).map some else some none
  | _ => some none

/- `_entry_ts` -/
def entryTs (u : Unicode) (e : Entry F) : Option (Option F) := match fieldTs u e.realtime with
  | none => none
  | some (some ts) => some (some ts)
  | some none => fieldTs u e.sourceRealtime

-- Batches

/- What is counted together. -/
structure Key where
  cls : JournalClass
  proto : JournalProto
  port : Option Port
  dcls : Option JournalDcls
  fp : Option Fingerprint
  fp_other : cls ≠ .other → fp = none
  dcls_port : port = none → dcls = none
deriving DecidableEq

/- A key of an eligible entry without a fingerprint. -/
def Eligible.key (e : Eligible) (cls : JournalClass) : Key :=
  ⟨cls, e.proto, e.port, e.dcls, none, fun _ => rfl, e.dcls_port⟩

/- A key of an eligible entry of no class. -/
def Eligible.fpKey (e : Eligible) (fp : Fingerprint) : Key :=
  ⟨.other, e.proto, e.port, e.dcls, some fp, fun h => absurd rfl h, e.dcls_port⟩

/- The key of what is only counted by its class. -/
def Key.ofClass (cls : JournalClass) : Key := ⟨cls, .other, none, none, none, fun _ => rfl, fun _ => rfl⟩

structure Group (F : Type) where
  first : F
  last : F
  count : ℕ

structure Batch (F : Type) where
  lines : ℕ
  pfail : ℕ
  eligible : ℕ
  infoDropped : ℕ
  nomatchDropped : ℕ
  priorityUnusable : ℕ
  limited : ℕ
  groups : Dict Key (Group F)
  fps : List Fingerprint

def Batch.empty : Batch F := ⟨0, 0, 0, 0, 0, 0, 0, [], []⟩

/- `MAX_FP_PER_WINDOW` -/
def maxFpPerWindow : ℕ := 16

/- `MAX_RECORDS_PER_FILE` -/
def maxRecordsPerFile : ℕ := 200

/- Count an entry under a key. -/
def Batch.add (b : Batch F) (key : Key) (ts : F) : Batch F :=
  { b with
    groups := match b.groups.get key with
      | none => b.groups.set key ⟨ts, ts, 1⟩
      | some g =>
        b.groups.set key
          { first :=
              if PyFloat.toRat ts < PyFloat.toRat g.first then ts
              else g.first
            last :=
              if PyFloat.toRat g.last < PyFloat.toRat ts then ts
              else g.last
            count := g.count + 1 } }

def Batch.limit (b : Batch F) : Batch F := { b with limited := b.limited + 1 }

/- An eligible entry of no class, by its fingerprint. -/
def Batch.addOther (r : TextRules F) (b : Batch F) (e : Eligible) (ts : F) : Batch F :=
  let template := r.buildTemplate e.text
  if r.residualUnsafe template then b.limit.add (e.key .other) ts
  else
    let fp := r.fingerprint template
    if fp ∈ b.fps then b.add (e.fpKey fp) ts
    else if maxFpPerWindow ≤ b.fps.length then
      -- a flood of templates is counted at class level
      b.limit.add (Key.ofClass .other) ts
    else { b with fps := b.fps ++ [fp] }.add (e.fpKey fp) ts

def absorb (r : TextRules F) (b : Batch F) (decision : Decision) (ts : F) : Batch F :=
  match decision with
  | .dropInfo => { b with infoDropped := b.infoDropped + 1 }
  | .dropNomatch unusable =>
    { b with
      nomatchDropped := b.nomatchDropped + 1
      priorityUnusable := b.priorityUnusable + if unusable then 1 else 0 }
  | .eligible e =>
    let b := { b with eligible := b.eligible + 1 }
    match e.cls with
    | some cls => b.add (e.key cls) ts
    | none => b.addOther r e ts

/- A line with a usable cursor. -/
def consumeEntry (r : TextRules F) (b : Batch F) (e : Entry F) : Option (Batch F) := do
  let b := { b with lines := b.lines + 1 }
  let ts ← entryTs r.unicode e
  match isNull e.message, ts with
  | false, some ts =>
    let decision ← assess r e.message e.priority
    some (absorb r b decision ts)
  | _, _ => some { b with pfail := b.pfail + 1 }

def consume (r : TextRules F) (es : List (Entry F)) : Option (Batch F) :=
  es.foldlM (consumeEntry r) Batch.empty

-- Records

/- A group as a record of the exchange. -/
def rowOf (e : Key × Group F) : JournalIngest.Event F where
  ts := .float e.2.first
  cls := e.1.cls
  proto := e.1.proto
  port := e.1.port.map (fun p => (p.val : ℤ))
  dcls := e.1.dcls
  fp := e.1.fp.map Subtype.val
  n := e.2.count

/- What the overflow folding sorts by. -/
abbrev RowKey : Type := ℤ ×ₗ PyStr ×ₗ PyStr ×ₗ ℤ ×ₗ PyStr ×ₗ PyStr

def rowKey (e : JournalIngest.Event F) : RowKey :=
  toLex (-e.n, toLex (e.cls.token, toLex (e.proto.token, toLex (e.port.getD 0,
      toLex ((e.dcls.map JournalDcls.token).getD [], e.fp.getD [])))))

def rowBefore (a b : JournalIngest.Event F) : Prop := rowKey a ≤ rowKey b

instance : DecidableRel (rowBefore (F := F)) :=
  fun a b => inferInstanceAs (Decidable (rowKey a ≤ rowKey b))

/- `a < b` of two timestamps. -/
def earlier (a b : Num F) : Bool := decide (a.toRat < b.toRat)

/- Fold one record into the bucket of its class. -/
def foldRow (fold : Dict JournalClass (Num F × ℤ))
    (row : JournalIngest.Event F) : Dict JournalClass (Num F × ℤ) :=
  let bucket := (fold.get row.cls).getD (row.ts, 0)
  fold.set row.cls (if earlier row.ts bucket.1 then row.ts else bucket.1, bucket.2 + row.n)

/- The record a class bucket becomes. -/
def foldedRow (e : JournalClass × (Num F × ℤ)) : JournalIngest.Event F where
  ts := e.2.1
  cls := e.1
  proto := .other
  port := none
  dcls := none
  fp := none
  n := e.2.2

/- The records that are kept where there are too many. -/
def keptRecords : ℕ := maxRecordsPerFile - JournalClass.all.length

def sortedRows (b : Batch F) : List (JournalIngest.Event F) := (b.groups.map rowOf).insertionSort rowBefore

/- The class buckets of the records beyond the kept ones. -/
def foldedBuckets (b : Batch F) : Dict JournalClass (Num F × ℤ) :=
  ((sortedRows b).drop keptRecords).foldl foldRow []

/- `_records`: the records, and the limited counter after. -/
def records (b : Batch F) : List (JournalIngest.Event F) × ℕ :=
  if b.groups.length ≤ maxRecordsPerFile then
    (b.groups.map rowOf, b.limited)
  else
    ((sortedRows b).take keptRecords ++ ((foldedBuckets b).insertionSort
        (fun x y => x.1.token ≤ y.1.token)).map foldedRow,
      b.limited + (b.groups.length - keptRecords))

-- The Exchange Body

/- The state a body is written for. -/
structure Position where
  seq : ℕ
  run : PyStr
  epoch : ℕ
  boundary : Boundary
  seq_pos : 1 ≤ seq
  epoch_pos : 1 ≤ epoch
  run_hex :
    run.length = 32 ∧ run.all (fun c => (48 ≤ c && c ≤ 57) || (97 ≤ c && c ≤ 102)) = true

def headerMembers (b : Batch F) (limited : ℕ) (p : Position) : List (PyStr × Json F) :=
  [(pyStr "t", .str (pyStr "h")), (pyStr "v", .int 1), (pyStr "cv", .int 1), (pyStr "seq", .int p.seq),
    (pyStr "run", .str p.run), (pyStr "epoch", .int p.epoch),
    (pyStr "boundary", .str p.boundary.token),
    (pyStr "lines", .int b.lines),
    (pyStr "eligible", .int b.eligible),
    (pyStr "info_dropped", .int b.infoDropped),
    (pyStr "nomatch_dropped", .int b.nomatchDropped),
    (pyStr "priority_unusable", .int b.priorityUnusable),
    (pyStr "pfail", .int b.pfail),
    (pyStr "limited", .int limited)]

/- A timestamp as it is written. -/
def numJson : Num F → Json F
  | .int n => .int n
  | .float x => .float (.finite x)

/- A value or null. -/
def orNull {α : Type} (f : α → Json F) : Option α → Json F
  | none => .null
  | some a => f a

def eventMembers (e : JournalIngest.Event F) : List (PyStr × Json F) :=
  [(pyStr "t", .str (pyStr "e")), (pyStr "ts", numJson e.ts), (pyStr "cls", .str e.cls.token),
    (pyStr "proto", .str e.proto.token),
    (pyStr "port", orNull .int e.port),
    (pyStr "dcls", orNull (fun d => .str d.token) e.dcls),
    (pyStr "fp", orNull .str e.fp), (pyStr "n", .int e.n)]

/- `json.dumps(obj, separators=(",", ":"), sort_keys=True)` -/
def dumps (members : List (PyStr × Json F)) : PyStr := Json.render (Json.sortKeys (.obj members))

/- `exchange_body`; `none` where it raises. -/
def exchangeBody (b : Batch F) (p : Position) : Option PyStr :=
  let (rows, limited) := records b
  let header := headerMembers b limited p
  if (JournalIngest.validateHeader header).isNone then none
  else if !Json.dumpable (.obj header) then none
  else if rows.any (fun e =>
      (JournalIngest.validateEvent (eventMembers e)).isNone ||
        !Json.dumpable (.obj (eventMembers e))) then none
  else
    some ((header :: rows.map eventMembers).flatMap (fun members => dumps members ++ [10]))

end SingboxOps.JournalReader
