import SingboxOps.RemoteProbe.Signature
import SingboxOps.RemoteStore.Accept

/-
  The machine ingest plane: one signed request in, one closed
  answer out.

  The headers are the five strings the server extracts; the
  clocks, the registry a request reloads and what the database
  engine does meanwhile are the request's surroundings.
-/

namespace SingboxOps.RemoteIngest

open PyFloat RemoteProbe

-- Constants

def sentEpochFreshnessSeconds : ℚ := 300
def maxBuckets : ℕ := 512

def errUnauthorized : String := "unauthorized"
def errRateLimited : String := "rate_limited"
def errInvalidBody : String := "invalid_body"
def errNonCanonical : String := "non_canonical_body"
def errRemoteStore : String := "remote_store_unavailable"
def errConfigInvalid : String := "remote_config_invalid"
def successVersion : ℤ := 1

-- Answers

/- `{"error": code}`, or `{"v": version, "result": result}`. -/
inductive Payload where
  | error (code : String)
  | success (version : ℤ) (result : String)
deriving DecidableEq

/- The (status, payload, extra headers) of an answer. -/
structure Response where
  status : ℕ
  payload : Payload
  headers : List (String × PyStr)
deriving DecidableEq

/- An error code with no extra header. -/
def refuse (status : ℕ) (code : String) : Response := ⟨status, .error code, []⟩

/- The closed authentication failure. -/
def unauthorized : Response := refuse 401 errUnauthorized

def rateLimited (retryAfter : ℤ) : Response := ⟨429, .error errRateLimited,
    [("Retry-After", Json.intText (max 1 retryAfter))]⟩

/- The text of a verdict. -/
def verdictText : RemoteStore.Verdict → String
  | .accepted => "accepted"
  | .duplicate => "duplicate"
  | .equivocation => "equivocation"
  | .sampleEpochOutOfRange => "sample_epoch_out_of_range"
  | .sequenceNotIncreasing => "sequence_not_increasing"
  | .sampleEpochNotIncreasing => "sample_epoch_not_increasing"

/- The answer to a verdict of the store. -/
def answerVerdict (v : RemoteStore.Verdict) : Response := match v with
  | .accepted | .duplicate => ⟨200, .success successVersion (verdictText v), []⟩
  | .sampleEpochOutOfRange => refuse 400 (verdictText v)
  | _ => refuse 409 (verdictText v)

-- Rate Limits

variable {F : Type} [PyFloat F]

/- A bounded token bucket; its clock is read by the caller. -/
structure TokenBucket (F : Type) where
  rate : ℚ
  burst : ℚ
  tokens : F
  updated : F

/- A full bucket. -/
def TokenBucket.full (rate burst : ℚ) (now : F) : TokenBucket F := ⟨rate, burst, round burst, now⟩

/- The tokens at a moment. -/
def TokenBucket.refilled (b : TokenBucket F) (now : F) : F :=
  let idle : ℚ := max 0 (toRat (sub now (toRat b.updated)))
  let total : F := add b.tokens (toRat (round (idle * b.rate) : F))
  if b.burst ≤ toRat total then round b.burst else total

/-
  Take a token, or the whole seconds to wait for one:
  `max(1, int(needed) + (1 if needed % 1 else 0))`.
-/
def TokenBucket.check (b : TokenBucket F) (now : F) : (Bool × ℤ) × TokenBucket F :=
  let tokens := b.refilled now
  let updated := if toRat b.updated < toRat now then now else b.updated
  if 1 ≤ toRat tokens then
    ((true, 0), { b with tokens := sub tokens 1, updated := updated })
  else
    let needed : ℚ := toRat (round (toRat (round (1 - toRat tokens) : F) / b.rate) : F)
    ((false, max 1 (⌊needed⌋ + if Int.fract needed = 0 then 0
        else 1)),
      { b with tokens := tokens, updated := updated })

/- The buckets of authenticated identities and the global one. -/
structure RateLimiter (F : Type) where
  overall : TokenBucket F
  perProbe : List (PyStr × TokenBucket F)

/-
  The bucket of a probe, made on demand; the half of the
  keys that sort first goes when there are too many.
-/
def RateLimiter.bucket (l : RateLimiter F) (probeId : PyStr) (now : F) : TokenBucket F × RateLimiter F :=
  match Json.getItem l.perProbe probeId with
  | some b => (b, l)
  | none =>
    let kept :=
      if maxBuckets ≤ l.perProbe.length then
        let evicted := ((l.perProbe.map Prod.fst).insertionSort (· ≤ ·)).take (maxBuckets / 2)
        l.perProbe.filter (fun p => !evicted.contains p.1)
      else l.perProbe
    let b := TokenBucket.full 2 120 now
    (b, { l with perProbe := Json.setItem kept probeId b })

/- The moments the monotonic clock is read at. -/
structure Ticks (F : Type) where
  preauth : F
  created : F
  probe : F
  overall : F

/-
  The authenticated limits: the bucket of the probe, then the
  global one.
-/
def RateLimiter.admit (l : RateLimiter F) (probeId : PyStr) (t : Ticks F) : (Bool × ℤ) × RateLimiter F :=
  let found := l.bucket probeId t.created
  let one := found.1.check t.probe
  let l := { found.2 with
    perProbe := Json.setItem found.2.perProbe probeId one.2 }
  if one.1.1 then
    let all := l.overall.check t.overall
    (all.1, { l with overall := all.2 })
  else (one.1, l)

-- Headers

/- The five wire headers; a missing one is `none`. -/
structure Headers where
  probeId : Option PyStr
  sentEpoch : Option PyStr
  run : Option PyStr
  seq : Option PyStr
  signature : Option PyStr

/- The number a text of digits spells. -/
def digitsValue (text : PyStr) : ℤ := text.foldl (fun n c => 10 * n + ((c : ℤ) - 48)) 0

/-
  Canonical base-10 text of an integer in a range: one to
  nineteen digits that spell themselves.
-/
def parseCanonicalInt (text : PyStr) (minimum : ℤ) : Option ℤ :=
  if text.all (fun c => 48 ≤ c && c ≤ 57) = true ∧
      1 ≤ text.length ∧ text.length ≤ 19 then
    let value := digitsValue text
    if Json.intText value ≠ text ∨ value < minimum ∨ seqMax < value then none
    else some value
  else none

/- The headers of a request that passed the grammar. -/
structure Claim where
  probeId : PyStr
  sentEpoch : ℤ
  run : PyStr
  seq : ℤ
  signature : PyStr

/- The header grammar; anything else fails authentication. -/
def parseHeaders (h : Headers) : Option Claim := do
  let probeId ← h.probeId
  let run ← h.run
  let sentEpoch ← h.sentEpoch.bind (fun t => parseCanonicalInt t 0)
  let seq ← h.seq.bind (fun t => parseCanonicalInt t 1)
  let signature ← h.signature
  if probeIdGrammar probeId && runGrammar run &&
      !signature.isEmpty then
    some ⟨probeId, sentEpoch, run, seq, signature⟩
  else none

-- The Registry

/- A row of the registry; every loaded key has 32 bytes. -/
structure ProbeEntry where
  enabled : Bool
  key : Bytes
  keySize : key.length = 32

/- The entries a reload has published. -/
abbrev Registry := PyStr → Option ProbeEntry

/-
  What the reload under `live` came to: it could not have the
  lock, the text of the file nests deeper than the reader can
  follow (a `RecursionError`, which `load` does not catch), or
  it has published entries (none from a file it refuses).
-/
inductive Reload where
  | refused
  | nested
  | published (entries : Registry)

/- The entry that may authenticate a probe. -/
def Registry.enabled (r : Registry) (probeId : PyStr) : Option ProbeEntry :=
  (r probeId).filter (fun e => e.enabled)

-- The Body Gate

section BodyGate

variable {G : Type} [FloatText G]

/-
  Parse and validate a body.  Only a `ValueError` of the
  reader is caught, and validation stands outside of the
  `try`.
-/
def parseBody (room : ℕ) (rawBody : Bytes) : Except PyError (Option (Json G)) :=
  if rawBody = [] then .ok none
  else if maxBodyBytes < rawBody.length then .ok none
  else
    match (loadsBytes room rawBody : Except PyError (Json G)) with
    | .error .value => .ok none
    | .error e => .error e
    | .ok (.obj members) => do
        let problems ← validateSample (.obj members)
        return if problems = [] then some (.obj members)
          else none
    | .ok _ => .ok none

/- The body is the canonical encoding of the sample. -/
def isCanonical (sample : Json G) (rawBody : Bytes) : Except PyError Bool :=
  match canonicalBytes sample with
  | .error .value => .ok false
  | .error .type => .ok false
  | .error e => .error e
  | .ok again => .ok (decide (again = rawBody))

/- The sample names the identity its headers were signed for. -/
def matchesClaim (sample : Json G) (c : Claim) : Bool := match sample with
  | .obj members =>
    (match Json.getItem members (pyStr "probe_id") with
      | some (.str s) => decide (s = c.probeId)
      | _ => false) &&
    (match Json.getItem members (pyStr "run") with
      | some (.str s) => decide (s = c.run)
      | _ => false) &&
    (match Json.getItem members (pyStr "seq") with
      | some v => equalsInt v c.seq
      | _ => false)
  | _ => false

/- The epoch a sample hands to the store. -/
def sampleEpochOf (sample : Json G) : RemoteStore.SampleEpoch G := match sample with
  | .obj members =>
    match Json.getItem members (pyStr "sample_epoch") with
    | some (.int n) => .int n
    | some (.float (.finite x)) => .float x
    | _ => .invalid
  | _ => .invalid

/-
  Schema, identity match and canonical bytes: the sample, or
  the error code.
-/
def bodyGate (room : ℕ) (rawBody : Bytes) (c : Claim) : Except PyError (Except String (Json G)) := do
  match ← parseBody room rawBody with
  | none => return .error errInvalidBody
  | some sample =>
    if !matchesClaim sample c then return .error errInvalidBody
    else
      let canonical ← isCanonical sample rawBody
      if canonical then return .ok sample
      else return .error errNonCanonical

end BodyGate

-- The Plane

/-
  `time.time()`: the seconds of a clock that counts its
  nanoseconds in 64 signed bits.
-/
structure WallClock (F : Type) [PyFloat F] where
  now : F
  inRange : |toRat now| ≤ 2 ^ 34

/- What a plane keeps from one request to the next. -/
structure Plane (F : Type) where
  preauth : TokenBucket F
  limiter : RateLimiter F
  store : Option (RemoteStore.Store F Bytes)
  storeError : Option String
  capacityFailures : List (PyStr × String)

/- The surroundings of one request. -/
structure Env (F : Type) [PyFloat F] where
  crypto : Crypto
  lim : RemoteStore.Limits
  room : ℕ
  ticks : Ticks F
  clock : WallClock F
  registry : Reload
  engine : RemoteStore.Engine

/- The exception a failure of the store leaves as. -/
def storeAnswer (probeId : PyStr) (plane : Plane F)
    (e : RemoteStore.StoreError) : Except PyError Response × Plane F :=
  match e with
  | .overflow => (.error .overflow, plane)
  | .unavailable =>
    (.ok (refuse 503 errRemoteStore), { plane with storeError := some errRemoteStore })
  | e =>
    let code := e.code.getD errRemoteStore
    (.ok (refuse 503 code),
      { plane with
        capacityFailures := Json.setItem plane.capacityFailures probeId code })

/- The store classifies receipts before the new-sample bounds. -/
def commit (env : Env F) (rawBody : Bytes) (c : Claim) (sample : Json F)
    (plane : Plane F) : Except PyError Response × Plane F :=
  match plane.store with
  | none => (.ok (refuse 503 errRemoteStore), plane)
  | some store =>
    let result := RemoteStore.accept env.lim env.crypto.sha256 env.engine
      ⟨c.probeId, c.run, c.seq, sampleEpochOf sample, rawBody, env.clock.now⟩ store
    let plane := { plane with store := some result.2 }
    match result.1 with
    | .ok verdict =>
      if verdict = .accepted ∨ verdict = .duplicate then
        (.ok (answerVerdict verdict),
          { plane with
            capacityFailures :=
              plane.capacityFailures.filter
                (fun p => p.1 != c.probeId) })
      else (.ok (answerVerdict verdict), plane)
    | .error e => storeAnswer c.probeId plane e

/- Everything after the signature was found correct. -/
def admitted (env : Env F) (rawBody : Bytes) (c : Claim)
    (plane : Plane F) : Except PyError Response × Plane F :=
  let age := sub (round (c.sentEpoch : ℚ) : F) (toRat env.clock.now)
  if sentEpochFreshnessSeconds < |toRat age| then
    (.ok unauthorized, plane)
  else
    let charge := RateLimiter.admit plane.limiter c.probeId env.ticks
    let plane := { plane with limiter := charge.2 }
    if !charge.1.1 then (.ok (rateLimited charge.1.2), plane)
    else
      match (bodyGate env.room rawBody c : Except PyError (Except String (Json F))) with
      | .error e => (.error e, plane)
      | .ok (.error code) => (.ok (refuse 400 code), plane)
      | .ok (.ok sample) => commit env rawBody c sample plane

/-
  The verdict over a request whose registry is readable.  The
  dummy digests of a malformed or unknown identity are made
  and dropped.
-/
def handleLive (env : Env F) (registry : Registry) (rawBody : Bytes) (headers : Headers)
    (plane : Plane F) : Except PyError Response × Plane F :=
  match parseHeaders headers with
  | none => (.ok unauthorized, plane)
  | some c =>
    match registry.enabled c.probeId with
    | none => (.ok unauthorized, plane)
    | some entry =>
      match verifySignature env.crypto entry.key c.probeId
          c.sentEpoch c.run c.seq rawBody c.signature with
      | .error e => (.error e, plane)
      | .ok false => (.ok unauthorized, plane)
      | .ok true => admitted env rawBody c plane

/- The one machine entry point. -/
def handle (env : Env F) (rawBody : Bytes) (headers : Headers)
    (plane : Plane F) : Except PyError Response × Plane F :=
  let guard := plane.preauth.check env.ticks.preauth
  let plane := { plane with preauth := guard.2 }
  if !guard.1.1 then (.ok (rateLimited guard.1.2), plane)
  else
    match env.registry with
    | .refused => (.ok (refuse 503 errConfigInvalid), plane)
    | .nested => (.error .recursion, plane)
    | .published registry => handleLive env registry rawBody headers plane

end SingboxOps.RemoteIngest
