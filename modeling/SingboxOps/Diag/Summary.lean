import SingboxOps.Lib.BoundedFloat
import SingboxOps.Lib.Json.Value
import Mathlib.Data.List.Dedup

/-
  The parsers of the failover recorder.

  A time is kept in microseconds from the epoch, and the text
  of a time as the second it names.  What the timestamp reader
  and the hash of the platform do is a parameter.
-/

namespace SingboxOps.Diag

variable {F : Type} [BoundedFloat F]

-- Timestamps

/- A parsed timestamp: local microseconds and its offset. -/
structure Stamp where
  micros : ℤ
  offset : Option ℤ
deriving DecidableEq

/-
  `str.strip`, `str.lower`, `datetime.fromisoformat` without the
  texts it refuses, the identity of a test URL under the key,
  and how deep the JSON reader can nest.
-/
structure Platform where
  strip : PyStr → PyStr
  lower : PyStr → PyStr
  fromIso : PyStr → Option Stamp
  testId : Option (PyStr → PyStr)
  room : ℕ

/- The exceptions that leave a cycle. -/
inductive Escape where
  | recursion
  | overflow
deriving DecidableEq

/- The first and the last microsecond a datetime can hold. -/
def minMicros : ℤ := -62135596800 * 10 ^ 6

def maxMicros : ℤ := 253402300800 * 10 ^ 6 - 1

def inCalendar (micros : ℤ) : Bool := decide (minMicros ≤ micros ∧ micros ≤ maxMicros)

/- `datetime.fromtimestamp(float(value), utc)`, its errors caught -/
def ofTimestamp : ExtFloat F → Option ℤ
  | .finite x =>
    let micros := roundHalfEven (PyFloat.toRat x * 10 ^ 6)
    if inCalendar micros then some micros else none
  | _ => none

/- `text.replace("Z", "+00:00")` -/
def replaceZ (text : PyStr) : PyStr := text.flatMap (fun c => if c = 90 then pyStr "+00:00" else [c])

/- `astimezone(utc)`; a naive stamp is taken for UTC. -/
def Stamp.toUtc (s : Stamp) : Except Escape ℤ := match s.offset with
  | none => .ok s.micros
  | some offset =>
    if inCalendar (s.micros - offset) then .ok (s.micros - offset)
    else .error .overflow

/- `parse_ts` -/
def parseTs (p : Platform) : Json F → Except Escape (Option ℤ)
  | .int n =>
    match (floatOfInt? n : Option F) with
    | some x => .ok (ofTimestamp (.finite x))
    | none => .ok none
  | .float x => .ok (ofTimestamp x)
  | .str text =>
    let stripped := p.strip text
    if stripped = [] then .ok none
    else
      match p.fromIso (replaceZ stripped) with
      | none => .ok none
      | some stamp => stamp.toUtc.map some
  | _ => .ok none

/- `iso_z`, as the second it names -/
def isoZ (micros : ℤ) : ℤ := micros / 10 ^ 6

-- Names

/- The bytes of a character in strict UTF-8. -/
def utf8Width (c : ℕ) : Option ℕ :=
  if c < 0x80 then some 1
  else if c < 0x800 then some 2
  else if 0xD800 ≤ c ∧ c < 0xE000 then none
  else if c < 0x10000 then some 3
  else some 4

def utf8Length : PyStr → Option ℕ
  | [] => some 0
  | c :: rest =>
    match utf8Width c, utf8Length rest with
    | some n, some m => some (n + m)
    | _, _ => none

def isControl (c : ℕ) : Bool := decide (c < 0x20 ∨ (0x7F ≤ c ∧ c ≤ 0x9F))

def nameMaxBytes : ℕ := 128

/- `safe_name` on text -/
def safeText (s : PyStr) : Bool := !s.isEmpty && (match utf8Length s with
      | some n => decide (n ≤ nameMaxBytes)
      | none => false) &&
    !s.any isControl

/- `safe_name` -/
def safeName : Json F → Option PyStr
  | .str s => if safeText s then some s else none
  | _ => none

/- `as_strict_bool` -/
def strictBool : Json F → Option Bool
  | .bool b => some b
  | _ => none

/- `entry.get(key)` -/
def member (members : List (PyStr × Json F)) (key : String) : Json F :=
  (Json.getItem members (pyStr key)).getD .null

def isNull : Json F → Bool
  | .null => true
  | _ => false

/- A value is there and is none of those asked for. -/
def misfit {α : Type} (value : Json F) (read : Option α) : ℕ :=
  if read.isNone && !isNull value then 1 else 0

-- Histories

structure Entry where
  ts : Option ℤ
  delayMs : ℤ
deriving DecidableEq

def histKeep : ℕ := 8

def delayMax : ℤ := 1000000

/- The delay of a history item, and the time beside it. -/
def historyItem : Json F → Option (ℤ × Json F)
  | .obj members =>
    match Json.getItem members (pyStr "delay") with
    | some (.int delay) =>
      if 0 ≤ delay ∧ delay ≤ delayMax then
        some (delay, member members "time")
      else none
    | _ => none
  | _ => none

/- The loop of `parse_history` over the items, latest first. -/
def historyLoop (p : Platform) : ℕ → List (Json F) → Except Escape (List Entry × ℕ × ℕ)
  | 0, _ => .ok ([], 0, 0)
  | _, [] => .ok ([], 0, 0)
  | keep + 1, item :: rest =>
    match historyItem item with
    | none => do
        let (entries, dropped, soft) ← historyLoop p (keep + 1) rest
        return (entries, dropped + 1, soft)
    | some (delay, time) => do
        let micros ← parseTs p time
        let (entries, dropped, soft) ← historyLoop p keep rest
        return (⟨micros.map isoZ, delay⟩ :: entries, dropped, soft + if micros.isNone then 1 else 0)

/- `parse_history`: the entries, newest last, and two counts. -/
def parseHistory (p : Platform) : Json F → Except Escape (List Entry × ℕ × ℕ)
  | .arr items => do
      let (entries, dropped, soft) ← historyLoop p histKeep items.reverse
      return (entries.reverse, dropped, soft)
  | _ => .ok ([], 0, 0)

-- Groups and Nodes

structure GroupRecord where
  name : PyStr
  type : Option PyStr
  now : Option PyStr
  members : List PyStr
  alive : Option Bool
deriving DecidableEq

structure UrlRecord where
  testId : PyStr
  alive : Option Bool
  history : List Entry
deriving DecidableEq

structure NodeRecord where
  name : PyStr
  type : Option PyStr
  alive : Option Bool
  history : List Entry
  extra : List UrlRecord
deriving DecidableEq

/- What was read of one subject, with what it counts. -/
structure Parsed (α : Type) where
  record : α
  missing : Bool
  broken : Bool
  invalid : ℕ
  truncated : Bool
deriving DecidableEq

def maxMembers : ℕ := 32

def obsCap : ℕ := 64

def nodeUrlKeep : ℕ := 8

/- The valid members of a group, each once, in order. -/
def memberNames (items : List (Json F)) : List PyStr := (items.filterMap safeName).dedup.insertionSort (· ≤ ·)

/- One group of `parse_proxies_summary`. -/
def parseGroup (p : Platform) (proxies : List (PyStr × Json F)) (name : PyStr) : Parsed GroupRecord :=
  match Json.getItem proxies name with
  | some (.obj entry) =>
    let type := safeName (member entry "type")
    let now := safeName (member entry "now")
    let alive := strictBool (member entry "alive")
    let items := match member entry "all" with
      | .arr items => items
      | _ => []
    let invalidAll := match member entry "all" with
      | .arr items => items.countP (fun v => (safeName v).isNone)
      | .null => 0
      | _ => 1
    let names := memberNames items
    { record :=
        ⟨name, type.map p.lower, now, names.take maxMembers, alive⟩
      missing := false
      broken := now.isNone && !isNull (member entry "now")
      invalid :=
        misfit (member entry "type") type +
          misfit (member entry "now") now +
          misfit (member entry "alive") alive + invalidAll
      truncated := decide (maxMembers < names.length) }
  | _ =>
    { record := ⟨name, none, none, [], none⟩
      missing := true
      broken := false
      invalid := 0
      truncated := false }

/- The histories of a node by test URL. -/
def parseUrls (p : Platform)
    (testId : PyStr → PyStr) : List (PyStr × Json F) → Except Escape (List UrlRecord × ℕ)
  | [] => .ok ([], 0)
  | (url, .obj detail) :: rest => do
      let (history, dropped, soft) ← parseHistory p (member detail "history")
      let (urls, invalid) ← parseUrls p testId rest
      return (⟨testId url, strictBool (member detail "alive"), history⟩ :: urls, dropped + soft + invalid)
  | _ :: rest => do
      let (urls, invalid) ← parseUrls p testId rest
      return (urls, invalid + 1)

def sortMembers (members : List (PyStr × Json F)) : List (PyStr × Json F) :=
  members.insertionSort Json.keyOrder

/- What a node's `extra` holds: records and two counts. -/
def parseExtra (p : Platform) (extra : Json F) : Except Escape (List UrlRecord × ℕ × Bool) :=
  match extra, p.testId with
  | .obj members, some testId => do
      let (urls, invalid) ← parseUrls p testId ((sortMembers members).take nodeUrlKeep)
      return (urls, invalid, decide (nodeUrlKeep < members.length))
  | .obj _, none => .ok ([], 0, false)
  | .null, _ => .ok ([], 0, false)
  | _, _ => .ok ([], 1, false)

/- One node of `parse_proxies_summary`. -/
def parseNode (p : Platform) (proxies : List (PyStr × Json F))
    (name : PyStr) : Except Escape (Parsed NodeRecord) :=
  match Json.getItem proxies name with
  | some (.obj entry) => do
      let type := safeName (member entry "type")
      let alive := strictBool (member entry "alive")
      let (history, dropped, soft) ← parseHistory p (member entry "history")
      let (extra, invalid, truncated) ← parseExtra p (member entry "extra")
      return {
        record := ⟨name, type.map p.lower, alive, history, extra⟩
        missing := false
        broken := false
        invalid :=
          misfit (member entry "type") type +
            misfit (member entry "alive") alive +
            dropped + soft + invalid
        truncated := truncated }
  | _ =>
    return {
      record := ⟨name, none, none, [], []⟩
      missing := true
      broken := false
      invalid := 0
      truncated := false }

def parseNodes (p : Platform) (proxies : List (PyStr × Json F)) :
    List PyStr → Except Escape (List (Parsed NodeRecord))
  | [] => .ok []
  | name :: rest => do
      let node ← parseNode p proxies name
      let nodes ← parseNodes p proxies rest
      return node :: nodes

-- The Summary

structure Summary where
  groups : List (Parsed GroupRecord)
  watched : List PyStr
  nodes : List (Parsed NodeRecord)
  invalidFields : ℕ
  truncated : Bool
deriving DecidableEq

/- The explicit nodes come first, then as many others as fit. -/
def watchedNames (explicit candidates : List PyStr) : List PyStr :=
  let others := (candidates.dedup.filter (fun name => decide (name ∉ explicit))).insertionSort (· ≤ ·)
  (explicit ++ others.take (obsCap - explicit.length)).insertionSort (· ≤ ·)

/- The members of a group and its selection. -/
def GroupRecord.candidates (g : GroupRecord) : List PyStr := g.members ++ g.now.toList

/- The explicit nodes with a usable name, each once. -/
def explicitNames (nodes : List PyStr) : List PyStr := (nodes.filter safeText).dedup

/- `payload["proxies"]`, where there is one -/
def proxiesOf : Json F → Option (List (PyStr × Json F))
  | .obj members =>
    match Json.getItem members (pyStr "proxies") with
    | some (.obj proxies) => some proxies
    | _ => none
  | _ => none

/- The observed set of a payload. -/
def observedNames (p : Platform) (groupNames nodes : List PyStr)
    (proxies : List (PyStr × Json F)) : List PyStr :=
  watchedNames (explicitNames nodes) (groupNames.flatMap
      (fun name => (parseGroup p proxies name).record.candidates))

/- `parse_proxies_summary`; `none` is an unusable payload. -/
def parseProxiesSummary (p : Platform) (groupNames nodes : List PyStr)
    (payload : Json F) : Except Escape (Option Summary) :=
  match proxiesOf payload with
  | none => .ok none
  | some proxies => do
      let groups := groupNames.map (parseGroup p proxies)
      let watched := observedNames p groupNames nodes proxies
      let parsed ← parseNodes p proxies watched
      let candidates := (groups.flatMap (fun g => g.record.candidates)).dedup
      let others := candidates.filter (fun name => decide (name ∉ explicitNames nodes))
      return some {
        groups := groups
        watched := watched
        nodes := parsed
        invalidFields :=
          nodes.countP (fun name => !safeText name) +
            (groups.map Parsed.invalid).sum +
            (parsed.map Parsed.invalid).sum
        truncated :=
          groups.any Parsed.truncated ||
            decide (obsCap - (explicitNames nodes).length < others.length) ||
            parsed.any Parsed.truncated }

-- Connections

structure ChainStat where
  node : PyStr
  activeChainCount : ℕ
  oldestStart : Option ℤ
  newestStart : Option ℤ
  invalidStartCount : ℕ
deriving DecidableEq

/- The chains of a connection, where it is a valid one. -/
def chainsOf : Json F → Option (List PyStr × Json F)
  | .obj members =>
    match Json.getItem members (pyStr "chains") with
    | some (.arr chains) =>
      some (chains.filterMap (fun c =>
          match c with
          | .str s => some s
          | _ => none),
        member members "start")
    | _ => none
  | _ => none

/- One more chain through the node; the stored seconds are read. -/
def ChainStat.add (st : ChainStat) (start : Option ℤ) : ChainStat := match start with
  | none =>
    { st with
      activeChainCount := st.activeChainCount + 1
      invalidStartCount := st.invalidStartCount + 1 }
  | some micros =>
    { st with
      activeChainCount := st.activeChainCount + 1
      oldestStart :=
        if st.oldestStart.all
            (fun s => decide (micros < s * 10 ^ 6)) then
          some (isoZ micros)
        else st.oldestStart
      newestStart :=
        if st.newestStart.all
            (fun s => decide (s * 10 ^ 6 < micros)) then
          some (isoZ micros)
        else st.newestStart }

/- The loop of `parse_connections_summary`. -/
def connectionLoop (p : Platform)
    (stats : List ChainStat) : List (Json F) → Except Escape (List ChainStat × ℕ)
  | [] => .ok (stats, 0)
  | item :: rest =>
    match chainsOf item with
    | none => do
        let (done, malformed) ← connectionLoop p stats rest
        return (done, malformed + 1)
    | some (chains, start) =>
      if stats.any (fun st => decide (st.node ∈ chains)) then do
        let micros ← parseTs p start
        connectionLoop p (stats.map (fun st => if st.node ∈ chains then st.add micros else st)) rest
      else connectionLoop p stats rest

/- `parse_connections_summary`; `none` is an unknown. -/
def parseConnectionsSummary (p : Platform) (watched : List PyStr)
    (payload : Json F) : Except Escape (Option (List ChainStat) × ℕ) :=
  let stats := watched.map (fun name => ⟨name, 0, none, none, 0⟩)
  match payload with
  | .obj members =>
    match Json.getItem members (pyStr "connections") with
    | some .null => .ok (some stats, 0)
    | some (.arr items) => do
        let (done, malformed) ← connectionLoop p stats items
        return (some done, malformed)
    | _ => .ok (none, 0)
  | _ => .ok (none, 0)

end SingboxOps.Diag
