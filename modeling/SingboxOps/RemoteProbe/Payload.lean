import SingboxOps.Lib.Json.Parse
import SingboxOps.Lib.Utf8

/-
  The canonical body of a sample and its closed schema.
-/

namespace SingboxOps.RemoteProbe

variable {F : Type} [FloatText F]

-- Constants

def p6Protocol : String := "p6-v1"
def ingestMethod : String := "POST"
def ingestPath : String := "/api/v1/remote-probes/ingest"
def bodyVersion : ℤ := 1
def seqMin : ℤ := 1
def seqMax : ℤ := 2 ^ 63 - 1
def maxBodyBytes : ℕ := 16 * 1024

def roles : List String := ["reality", "hy2"]

def activeOutcomes : List String := ["ok", "timeout", "unavailable", "invalid"]

def statusOk : String := "ok"

def statuses : List String := [statusOk, "failed"]

def errorCodes : List String := ["NONE", "timeout", "dns_failed", "connect_failed",
    "tls_failed", "bad_response", "protocol_failed",
    "parse_failed", "unavailable"]

def changeValues : List String := ["unchanged", "changed", "unknown"]

def evSources : List String := ["active_delay", "passive_cache"]

def slotKeys : List String := ["status", "latency_ms", "error_code"]

def egressKeys : List String := slotKeys ++ ["ip", "change"]

def activeKeys : List String := ["role", "source", "outcome", "delay_ms", "test_id", "independent"]

def mihomoKeys : List String := ["status"]

def flagsKeys : List String := ["truncated", "source_unavailable"]

def sampleKeys : List String := ["v", "probe_id", "run", "seq", "sample_epoch", "dns",
    "https", "vps_tcp", "egress", "mihomo_api", "active",
    "flags"]

def sourceTokens : List String := ["active_delay", "direct", "egress", "mihomo_api", "passive_cache"]

def mihomoApiStatuses : List String := ["ok", "unavailable", "invalid"]

def maxActiveEntries : ℕ := roles.length * 2
def maxSourceTokens : ℕ := sourceTokens.length
def maxTestIdLen : ℕ := 64

-- Values

/- The exceptions that leave a function of the payload code. -/
inductive PyError where
  | value
  | type
  | key
  | overflow
  | recursion
deriving DecidableEq

/- The value is the given text. -/
def isText (v : Json F) (s : String) : Bool := match v with
  | .str t => decide (t = pyStr s)
  | _ => false

/- `value in tokens`, for a tuple of texts. -/
def isOneOf (v : Json F) (tokens : List String) : Bool := tokens.any (isText v)

/- `value == n`: an integer, a boolean or a float. -/
def equalsInt (v : Json F) (n : ℤ) : Bool := match v with
  | .int m => decide (m = n)
  | .bool b => decide ((if b then 1 else 0) = n)
  | .float (.finite x) => decide (FloatText.toRat x = n)
  | _ => false

/- `set(members) == keys`, the keys of a dict being distinct. -/
def keysAre {V : Type} (members : List (PyStr × V)) (keys : List String) : Bool :=
  members.all (fun m => keys.any (fun k => m.1 == pyStr k)) &&
    keys.all (fun k => members.any (fun m => m.1 == pyStr k))

/- `members[key]`, or a `KeyError`. -/
def item {V : Type} (members : List (PyStr × V)) (key : String) : Except PyError V :=
  match Json.getItem members (pyStr key) with
  | some v => .ok v
  | none => .error .key

-- Grammar Gates

/- `[a-z0-9-]{1,64}` -/
def probeIdGrammar (s : PyStr) : Bool := s.all (fun c =>
      (97 ≤ c && c ≤ 122) || (48 ≤ c && c ≤ 57) || c == 45) &&
    1 ≤ s.length && s.length ≤ 64

/- `[0-9a-f]{32}` -/
def runGrammar (s : PyStr) : Bool := s.all (fun c =>
      (48 ≤ c && c ≤ 57) || (97 ≤ c && c ≤ 102)) &&
    s.length == 32

theorem mem_probeIdGrammar {s : PyStr} (h : probeIdGrammar s = true) : ∀ c ∈ s, 45 ≤ c ∧ c < 128 := by
  intro c hc
  simp only [probeIdGrammar, Bool.and_eq_true, List.all_eq_true] at h
  have hChar := h.1.1 c hc
  simp only [Bool.or_eq_true, Bool.and_eq_true, decide_eq_true_eq, beq_iff_eq] at hChar
  omega

theorem mem_runGrammar {s : PyStr} (h : runGrammar s = true) : ∀ c ∈ s, 48 ≤ c ∧ c < 128 := by
  intro c hc
  simp only [runGrammar, Bool.and_eq_true, List.all_eq_true] at h
  have hChar := h.1 c hc
  simp only [Bool.or_eq_true, Bool.and_eq_true, decide_eq_true_eq] at hChar
  omega

def validProbeId : Json F → Bool
  | .str s => probeIdGrammar s
  | _ => false

def validRun : Json F → Bool
  | .str s => runGrammar s
  | _ => false

def validSeq : Json F → Bool
  | .int n => decide (seqMin ≤ n ∧ n ≤ seqMax)
  | _ => false

/-
  `math.isfinite` raises `OverflowError` on an integer that
  is beyond every float.
-/
def validSampleEpoch : Json F → Except PyError Bool
  | .int n =>
    if 2 ^ 1024 - 2 ^ 970 ≤ |n| then .error .overflow
    else .ok (decide (0 ≤ n))
  | .float (.finite x) => .ok (decide (0 ≤ FloatText.toRat x))
  | _ => .ok false

-- Canonical Encoding

/-
  Sorted keys, compact separators, no NaN, ASCII-escaped; the
  text is ASCII, so its encoding is one byte a character.
-/
def canonicalBytes (v : Json F) : Except PyError Bytes :=
  if Json.dumpable (Json.sortKeys v) then
    .ok (asciiEncode (Json.render (Json.sortKeys v)))
  else .error .value

/- The exception a reader stops with. -/
def readError : Json.ParseError → PyError
  | .value => .value
  | .recursion => .recursion

/- `json.loads(raw.decode("utf-8"))` -/
def loadsBytes (room : ℕ) (raw : Bytes) : Except PyError (Json F) := match utf8Decode raw with
  | none => .error .value
  | some text =>
    match Json.loads room text with
    | .ok v => .ok v
    | .error e => .error (readError e)

-- Closed-Schema Validation

/- One problem, if the condition holds. -/
def problem (c : Bool) (text : String) : List String := if c then [text] else []

/- `None`, or an integer that is at least `low`. -/
def isNullOrAtLeast (low : ℤ) : Json F → Bool
  | .null => true
  | .int n => decide (low ≤ n)
  | _ => false

def isNull : Json F → Bool
  | .null => true
  | _ => false

def isBool : Json F → Bool
  | .bool _ => true
  | _ => false

def slotViolations (name : String) (slot : Json F) : Except PyError (List String) := match slot with
  | .obj members =>
    if keysAre members slotKeys then do
      let status ← item members "status"
      let latency ← item members "latency_ms"
      let code ← item members "error_code"
      return problem (!isOneOf status statuses) (name ++ ": status") ++
          problem (!isOneOf code errorCodes) (name ++ ": error_code") ++
          problem (!isNullOrAtLeast 0 latency) (name ++ ": latency_ms") ++
          if isText status statusOk then
            problem (!isText code "NONE" || isNull latency) (name ++ ": ok-invariant")
          else
            problem (isText code "NONE" || !isNull latency) (name ++ ": failed-invariant")
    else .ok [name ++ ": shape"]
  | _ => .ok [name ++ ": shape"]

/- The characters of an address. -/
def addressChars : PyStr := pyStr "0123456789abcdefABCDEF:."

def egressViolations (egress : Json F) : Except PyError (List String) := match egress with
  | .obj members =>
    if keysAre members egressKeys then do
      let slot ← slotViolations "egress"
        (.obj (members.filter (fun m => slotKeys.any (fun k => m.1 == pyStr k))))
      let ip ← item members "ip"
      let change ← item members "change"
      let status ← item members "status"
      let address := match ip with
        | .null => []
        | .str s =>
          problem (64 < s.length || s.any (fun c => !addressChars.contains c)) "egress: ip"
        | _ => ["egress: ip"]
      return slot ++ problem (!isOneOf change changeValues) "egress: change" ++ address ++
        problem (!isText status statusOk && !isNull ip) "egress: ip-on-failure"
    else .ok ["egress: shape"]
  | _ => .ok ["egress: shape"]

def mihomoViolations (mihomo : Json F) : Except PyError (List String) := match mihomo with
  | .obj members =>
    if keysAre members mihomoKeys then do
      let status ← item members "status"
      return problem (!isOneOf status mihomoApiStatuses) "mihomo_api"
    else .ok ["mihomo_api"]
  | _ => .ok ["mihomo_api"]

/- Lists and dicts cannot be members of a set. -/
def hashable : Json F → Bool
  | .arr _ => false
  | .obj _ => false
  | _ => true

/-
  Equality of hashable values.  The reader makes every NaN
  the same object, which a set finds again.
-/
def sameScalar (v w : Json F) : Bool := match v, w with
  | .null, .null => true
  | .str s, .str t => decide (s = t)
  | .int n, w => equalsInt w n
  | .bool b, w => equalsInt w (if b then 1 else 0)
  | .float (.finite x), .float (.finite y) => decide (FloatText.toRat x = FloatText.toRat y)
  | .float (.finite x), .int n => decide (FloatText.toRat x = n)
  | .float (.finite x), .bool b => decide (FloatText.toRat x = if b then 1 else 0)
  | .float .nan, .float .nan => true
  | .float (.infinite a), .float (.infinite b) => a == b
  | _, _ => false

/- The (role, source) pairs of the entries seen so far. -/
abbrev SeenPairs (F : Type) := List (Json F × Json F)

/- One entry, with the pairs seen before and after it. -/
def entryViolations (seen : SeenPairs F) (entry : Json F) : Except PyError (List String × SeenPairs F) :=
  match entry with
  | .obj members =>
    if keysAre members activeKeys then do
      let role ← item members "role"
      let source ← item members "source"
      let outcome ← item members "outcome"
      let delay ← item members "delay_ms"
      let testId ← item members "test_id"
      let independent ← item members "independent"
      if !(hashable role && hashable source) then .error .type
      else
        let again := seen.any (fun p => sameScalar p.1 role && sameScalar p.2 source)
        let independentTrue := match independent with
          | .bool b => b
          | _ => false
        let badId := match testId with
          | .str s => s.isEmpty || maxTestIdLen < s.length
          | _ => true
        return (problem (!isOneOf role roles || again) "active: role" ++
          (if !isOneOf source evSources then ["active: source"]
          else
            problem (isText source "active_delay" && !independentTrue) "active: active-not-independent") ++
          problem (!isOneOf outcome activeOutcomes) "active: outcome" ++
          problem (!isNullOrAtLeast 1 delay) "active: delay_ms" ++
          problem (isText outcome "ok" && isNull delay) "active: ok-without-delay" ++
          problem (!isText outcome "ok" && !isNull delay) "active: delay-without-ok" ++
          problem badId "active: test_id" ++
          problem (!isBool independent) "active: independent",
          (role, source) :: seen)
    else .ok (["active: entry-shape"], seen)
  | _ => .ok (["active: entry-shape"], seen)

def entriesViolations (seen : SeenPairs F) : List (Json F) → Except PyError (List String)
  | [] => .ok []
  | entry :: rest => do
      let first ← entryViolations seen entry
      let more ← entriesViolations first.2 rest
      return first.1 ++ more

def activeViolations (active : Json F) : Except PyError (List String) := match active with
  | .arr entries =>
    if maxActiveEntries < entries.length then .ok ["active: shape"]
    else entriesViolations [] entries
  | _ => .ok ["active: shape"]

def flagsViolations (flags : Json F) : Except PyError (List String) := match flags with
  | .obj members =>
    if keysAre members flagsKeys then do
      let truncated ← item members "truncated"
      let sources ← item members "source_unavailable"
      let badSources := match sources with
        | .arr tokens =>
          maxSourceTokens < tokens.length || tokens.any (fun t => !isOneOf t sourceTokens)
        | _ => true
      return problem (!isBool truncated) "flags: truncated" ++ problem badSources "flags: source_unavailable"
    else .ok ["flags: shape"]
  | _ => .ok ["flags: shape"]

/-
  The list of schema violations, empty for a valid sample.
  An epoch beyond every float and an unhashable role or
  source raise instead.
-/
def validateSample (sample : Json F) : Except PyError (List String) := match sample with
  | .obj members =>
    if keysAre members sampleKeys then do
      let v ← item members "v"
      let probeId ← item members "probe_id"
      let run ← item members "run"
      let seq ← item members "seq"
      let epoch ← item members "sample_epoch"
      let epochOk ← validSampleEpoch epoch
      let dns ← item members "dns"
      let dns ← slotViolations "dns" dns
      let https ← item members "https"
      let https ← slotViolations "https" https
      let vpsTcp ← item members "vps_tcp"
      let vpsTcp ← slotViolations "vps_tcp" vpsTcp
      let egress ← item members "egress"
      let egress ← egressViolations egress
      let mihomo ← item members "mihomo_api"
      let mihomo ← mihomoViolations mihomo
      let active ← item members "active"
      let active ← activeViolations active
      let flags ← item members "flags"
      let flags ← flagsViolations flags
      return problem (!equalsInt v bodyVersion || isBool v) "v" ++
        problem (!validProbeId probeId) "probe_id" ++
        problem (!validRun run) "run" ++
        problem (!validSeq seq) "seq" ++
        problem (!epochOk) "sample_epoch" ++
        dns ++ https ++ vpsTcp ++ egress ++ mihomo ++
        active ++ flags
    else .ok ["root: key-set"]
  | _ => .ok ["root: shape"]

end SingboxOps.RemoteProbe
