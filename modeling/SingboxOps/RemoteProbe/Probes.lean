import SingboxOps.RemoteProbe.Schema
import SingboxOps.RemoteProbe.Baseline
import SingboxOps.Lib.BoundedFloat

/-
  The direct probes of a cycle: what their workers come back
  with, the slots they make of it, and which slots the schema
  lets in.
-/

namespace SingboxOps.RemoteProbe.Collect

open PyFloat

-- Workers

/-
  `run_bounded`: the thread does not start, the worker is late
  and its answer is dropped, or it finishes.
-/
inductive Started (V : Type) where
  | unstarted
  | late
  | finished (value : V)

/- The exceptions that a probe tells apart. -/
inductive Raised where
  | gai
  | ssl
  | timeout
  | connection
  | os
  | http
  | other
deriving DecidableEq

/- A probe that ran: its clock readings and its request. -/
structure ProbeRun (F X : Type) where
  start : F
  stop : F
  result : Started (Except Raised X)

/- The error codes of a failed slot. -/
inductive Failure where
  | timeout
  | dnsFailed
  | connectFailed
  | tlsFailed
  | badResponse
  | protocolFailed
  | parseFailed
  | unavailable
deriving DecidableEq

def Failure.text : Failure → String
  | .timeout => "timeout"
  | .dnsFailed => "dns_failed"
  | .connectFailed => "connect_failed"
  | .tlsFailed => "tls_failed"
  | .badResponse => "bad_response"
  | .protocolFailed => "protocol_failed"
  | .parseFailed => "parse_failed"
  | .unavailable => "unavailable"

variable {F : Type} [PyFloat F]

-- Latencies

/- `LATENCY_MAX_MS` -/
def latencyMaxMs : ℤ := 120000

/- `int(round((stop - start) * 1000.0))` -/
def elapsedMs (start stop : F) : ℤ := roundHalfEven
    (toRat (round (toRat (sub stop (toRat start)) * 1000) : F))

/- A plausible latency. -/
def Measured (start stop : F) : Prop := 0 ≤ elapsedMs start stop ∧ elapsedMs start stop ≤ latencyMaxMs

instance (start stop : F) : Decidable (Measured start stop) := by
  unfold Measured
  infer_instance

/- `_latency_ms` -/
def latencyMs (start stop : F) : Option ℤ :=
  if Measured start stop then some (elapsedMs start stop) else none

-- Slots

def intOrNone : Option ℤ → Json F
  | some n => .int n
  | none => .null

def textOrNone : Option PyStr → Json F
  | some s => .str s
  | none => .null

def token (text : String) : Json F := .str (pyStr text)

/- A slot that succeeded, or failed with its code. -/
inductive Slot where
  | ok (latency : Option ℤ)
  | failed (code : Failure)
deriving DecidableEq

def Slot.members : Slot → List (PyStr × Json F)
  | .ok latency =>
    [(pyStr "status", token "ok"), (pyStr "latency_ms", intOrNone latency),
      (pyStr "error_code", token "NONE")]
  | .failed code =>
    [(pyStr "status", token "failed"), (pyStr "latency_ms", .null), (pyStr "error_code", token code.text)]

def changeText : EgressChange → String
  | .unknown => "unknown"
  | .changed => "changed"
  | .unchanged => "unchanged"

/- An egress slot. -/
inductive EgressResult where
  | ok (latency : Option ℤ) (ip : Option PyStr) (change : EgressChange)
  | failed (code : Failure)
deriving DecidableEq

/- The three fields of a plain slot. -/
def EgressResult.slot : EgressResult → Slot
  | .ok latency _ _ => .ok latency
  | .failed code => .failed code

def EgressResult.ip : EgressResult → Option PyStr
  | .ok _ ip _ => ip
  | .failed _ => none

def EgressResult.change : EgressResult → EgressChange
  | .ok _ _ change => change
  | .failed _ => .unknown

def EgressResult.members (r : EgressResult) : List (PyStr × Json F) := r.slot.members ++
    [(pyStr "ip", textOrNone r.ip), (pyStr "change", token (changeText r.change))]

-- Probes

section Probes

variable {X : Type}

/-
  A probe with the codes of its exceptions and of the answers
  that it refuses.
-/
def probe (raised : Raised → Failure) (refused : X → Option Failure) (run : ProbeRun F X) : Slot :=
  match run.result with
  | .unstarted => .failed .unavailable
  | .late => .failed .timeout
  | .finished (.error e) => .failed (raised e)
  | .finished (.ok x) =>
    match refused x with
    | some code => .failed code
    | none => .ok (latencyMs run.start run.stop)

def dnsRaised : Raised → Failure
  | .http => .unavailable
  | .other => .unavailable
  | _ => .dnsFailed

def httpsRaised : Raised → Failure
  | .ssl => .tlsFailed
  | .timeout => .timeout
  | .http => .badResponse
  | .other => .unavailable
  | _ => .connectFailed

/- As for HTTPS, with no clause for an `HTTPException`. -/
def egressRaised : Raised → Failure
  | .ssl => .tlsFailed
  | .timeout => .timeout
  | .http => .unavailable
  | .other => .unavailable
  | _ => .connectFailed

def tcpRaised : Raised → Failure
  | .timeout => .timeout
  | .http => .unavailable
  | .other => .unavailable
  | _ => .connectFailed

/- `probe_dns`, of whether a name has addresses. -/
def probeDns : ProbeRun F Bool → Slot :=
  probe dnsRaised (fun found => if found then none else some .dnsFailed)

/- The status codes that a profile may expect. -/
inductive ExpectedStatus where
  | s200
  | s204
deriving DecidableEq

def ExpectedStatus.code : ExpectedStatus → ℤ
  | .s200 => 200
  | .s204 => 204

/- `probe_https` -/
def probeHttps (expected : ExpectedStatus) : ProbeRun F ℤ → Slot :=
  probe httpsRaised (fun status => if status ≠ expected.code then some .badResponse else none)

/- `probe_tcp` -/
def probeTcp : ProbeRun F Unit → Slot := probe tcpRaised (fun _ => none)

end Probes

-- The Egress Probe

variable {A : Type}

def maxResponseBytes : ℕ := 4096

/- `text.split()` -/
def splitWords (text : PyStr) : List PyStr := (text.splitOnP isSpaceChar).filter (fun word => !word.isEmpty)

/- `text.replace(",", " ")` -/
def commasToSpaces (text : PyStr) : PyStr := text.map (fun c => if c = 44 then 32 else c)

/- The address that an answer is taken for. -/
def egressCandidate (ip : IpLibrary A) (strictIp : Bool) (text : PyStr) : Option PyStr :=
  if strictIp then canonicalGlobalIp ip text
  else
    (splitWords (commasToSpaces text)).find? (fun word => (canonicalGlobalIp ip word).isSome)

/- What is made of a status and a body. -/
def egressOf (ip : IpLibrary A) (strictIp : Bool) (previous : Option PyStr) (latency : Option ℤ) (status : ℤ)
    (body : Bytes) : EgressResult :=
  if status ≠ 200 ∨ (strictIp = true ∧ maxResponseBytes < body.length) then
    .failed .badResponse
  else
    match utf8Decode body with
    | none => .failed .parseFailed
    | some text =>
      match egressCandidate ip strictIp (stripText text) with
      | none => .failed .parseFailed
      | some candidate =>
        let address := canonicalGlobalIp ip candidate
        .ok latency address (classifyEgressChange ip previous address)

/- `probe_egress` -/
def probeEgressSlot (ip : IpLibrary A) (strictIp : Bool) (previous : Option PyStr)
    (run : ProbeRun F (ℤ × Bytes)) : EgressResult :=
  match run.result with
  | .unstarted => .failed .unavailable
  | .late => .failed .timeout
  | .finished (.error e) => .failed (egressRaised e)
  | .finished (.ok (status, body)) =>
    egressOf ip strictIp previous (latencyMs run.start run.stop) status body

-- The Schema of a Slot

omit [PyFloat F] in
theorem slot_valid (name : String) (slot : Slot) :
    slotViolations name (.obj (slot.members : List (PyStr × Json F))) = .ok [] ↔
      ∀ latency, slot = .ok latency → ∃ n, latency = some n ∧ 0 ≤ n := by
  cases slot with
  | failed code =>
    refine iff_of_true ?_ (fun latency h => (by cases h))
    cases code <;> rfl
  | ok latency =>
    have hForm : slotViolations name (.obj (Slot.members (.ok latency) : List (PyStr × Json F))) =
          .ok (problem (!isNullOrAtLeast 0 (intOrNone latency : Json F)) (name ++ ": latency_ms") ++
            problem (isNull (intOrNone latency : Json F)) (name ++ ": ok-invariant")) :=
      rfl
    rw [hForm, Except.ok.injEq, List.append_eq_nil_iff, problem_eq_nil, problem_eq_nil]
    cases latency with
    | none => simp [intOrNone, isNull]
    | some n => simp [intOrNone, isNull, isNullOrAtLeast]

/- The characters and the length of an address on the wire. -/
def AddressFits (a : PyStr) : Prop := a.length ≤ 64 ∧ ∀ c ∈ a, addressChars.contains c = true

instance (a : PyStr) : Decidable (AddressFits a) := by
  unfold AddressFits
  infer_instance

theorem addressFits_iff {a : PyStr} : problem (64 < a.length ||
        a.any (fun c => !addressChars.contains c)) "egress: ip" = [] ↔
      AddressFits a := by
  rw [problem_eq_nil, Bool.or_eq_false_iff, decide_eq_false_iff_not, not_lt, List.any_eq_false]
  simp [AddressFits]

omit [PyFloat F] in
theorem egress_valid (r : EgressResult) :
    egressViolations (.obj (r.members : List (PyStr × Json F))) = .ok [] ↔
      slotViolations "egress" (.obj (r.slot.members : List (PyStr × Json F))) = .ok [] ∧
        ∀ a, r.ip = some a → AddressFits a := by
  cases r with
  | failed code =>
    refine iff_of_true ?_ ⟨?_, fun a h => (by cases h)⟩
    · cases code <;> rfl
    · cases code <;> rfl
  | ok latency ip change =>
    obtain ⟨address, hForm, hFits⟩ : ∃ address : List String, egressViolations
            (.obj (EgressResult.members (.ok latency ip change) : List (PyStr × Json F))) =
          (slotViolations "egress" (.obj (Slot.members (.ok latency) : List (PyStr × Json F))) >>= fun slot =>
            .ok (slot ++ problem (!isOneOf (token (changeText change) : Json F) changeValues)
                "egress: change" ++ address ++
              problem (!true && !isNull (textOrNone ip : Json F)) "egress: ip-on-failure")) ∧
          (address = [] ↔ ∀ a, ip = some a → AddressFits a) := by
      refine ⟨_, rfl, ?_⟩
      cases ip with
      | none => exact iff_of_true rfl (fun a h => by cases h)
      | some a =>
        refine addressFits_iff.trans ⟨?_, fun h => h a rfl⟩
        intro h a' ha
        cases ha
        exact h
    have hChange : problem (!isOneOf (token (changeText change) : Json F) changeValues)
          "egress: change" = [] := by
      cases change <;> rfl
    have hOnFailure : problem (!true && !isNull (textOrNone ip : Json F)) "egress: ip-on-failure" = [] :=
      rfl
    rw [hForm, hChange, hOnFailure]
    constructor
    · intro h
      obtain ⟨slot, hSlot, hRest⟩ := except_bind_ok h
      have hNil := Except.ok.inj hRest
      simp only [List.append_nil, List.append_eq_nil_iff] at hNil
      obtain ⟨rfl, hAddress⟩ := hNil
      exact ⟨hSlot, hFits.mp hAddress⟩
    · rintro ⟨hSlot, hAddress⟩
      rw [show (EgressResult.ok latency ip change).slot = .ok latency
        from rfl] at hSlot
      rw [hSlot, ok_bind, hFits.mpr hAddress]
      rfl

-- What the Schema Asks of a Probe

theorem latencyMs_valid {start stop : F} :
    (∀ latency, Slot.ok (latencyMs start stop) = .ok latency → ∃ n, latency = some n ∧ 0 ≤ n) ↔
      Measured start stop := by
  constructor
  · intro h
    obtain ⟨n, hSome, -⟩ := h _ rfl
    by_contra hNot
    rw [latencyMs, if_neg hNot] at hSome
    cases hSome
  · intro hMeasured latency hLatency
    refine ⟨elapsedMs start stop, ?_, hMeasured.1⟩
    rw [← Slot.ok.inj hLatency, latencyMs, if_pos hMeasured]

/- A plain probe passes unless it succeeded with no latency. -/
theorem probe_valid {X : Type} (name : String) (raised : Raised → Failure) (refused : X → Option Failure)
    (run : ProbeRun F X) : slotViolations name
          (.obj ((probe raised refused run).members : List (PyStr × Json F))) = .ok [] ↔
      ∀ x, run.result = .finished (.ok x) → refused x = none →
        Measured run.start run.stop := by
  rw [slot_valid]
  obtain ⟨start, stop, result⟩ := run
  unfold probe
  cases result with
  | unstarted => simp
  | late => simp
  | finished answer =>
    cases answer with
    | error e => simp
    | ok x =>
      cases hRefused : refused x with
      | some code => simp [hRefused]
      | none =>
        simp only [hRefused]
        rw [latencyMs_valid]
        refine ⟨fun h _ _ _ => h, fun h => h x rfl hRefused⟩

/- The address that a body of status 200 is taken for. -/
def egressTaken (ip : IpLibrary A) (strictIp : Bool) (body : Bytes) : Option PyStr :=
  if strictIp = true ∧ maxResponseBytes < body.length then none
  else
    (utf8Decode body).bind (fun text => egressCandidate ip strictIp (stripText text))

theorem egressOf_taken {ip : IpLibrary A} {strictIp : Bool} {body : Bytes}
    {candidate : PyStr} (h : egressTaken ip strictIp body = some candidate)
    (previous : Option PyStr)
    (latency : Option ℤ) :
    egressOf ip strictIp previous latency 200 body =
      .ok latency (canonicalGlobalIp ip candidate) (classifyEgressChange ip previous
          (canonicalGlobalIp ip candidate)) := by
  unfold egressTaken at h
  split at h
  · cases h
  · rename_i hSize
    obtain ⟨text, hText, hCandidate⟩ := Option.bind_eq_some_iff.mp h
    have hPass : ¬ ((200 : ℤ) ≠ 200 ∨ (strictIp = true ∧ maxResponseBytes < body.length)) :=
      not_or.mpr ⟨not_not.mpr rfl, hSize⟩
    rw [egressOf, if_neg hPass]
    simp only [hText, hCandidate]

theorem egressOf_refused (ip : IpLibrary A) (strictIp : Bool) (status : ℤ) (body : Bytes)
    (h : status = 200 → egressTaken ip strictIp body = none) (previous : Option PyStr)
    (latency : Option ℤ) :
    ∃ code, egressOf ip strictIp previous latency status body = .failed code := by
  unfold egressOf
  split
  · exact ⟨_, rfl⟩
  · rename_i hPass
    obtain ⟨hStatus, hSize⟩ := not_or.mp hPass
    have hNone := h (not_not.mp hStatus)
    rw [egressTaken, if_neg hSize] at hNone
    cases hText : utf8Decode body with
    | none => exact ⟨_, rfl⟩
    | some text =>
      rw [hText, Option.bind_some] at hNone
      simp only [hNone]
      exact ⟨_, rfl⟩

/-
  The egress probe passes unless it took an address with no
  latency, or one that does not fit.
-/
theorem probeEgressSlot_valid (ip : IpLibrary A) (strictIp : Bool) (previous : Option PyStr)
    (run : ProbeRun F (ℤ × Bytes)) : egressViolations
          (.obj ((probeEgressSlot ip strictIp previous run).members : List (PyStr × Json F))) = .ok [] ↔
      ∀ body candidate, run.result = .finished (.ok (200, body)) →
        egressTaken ip strictIp body = some candidate →
        Measured run.start run.stop ∧ ∀ a, canonicalGlobalIp ip candidate = some a → AddressFits a := by
  rw [egress_valid, slot_valid]
  obtain ⟨start, stop, result⟩ := run
  unfold probeEgressSlot
  cases result with
  | unstarted => simp [EgressResult.slot, EgressResult.ip]
  | late => simp [EgressResult.slot, EgressResult.ip]
  | finished answer =>
    cases answer with
    | error e => simp [EgressResult.slot, EgressResult.ip]
    | ok answer =>
      obtain ⟨status, body⟩ := answer
      by_cases hTaken : status = 200 ∧ ∃ candidate, egressTaken ip strictIp body = some candidate
      · obtain ⟨rfl, candidate, hCandidate⟩ := hTaken
        simp only [egressOf_taken hCandidate, EgressResult.slot, EgressResult.ip]
        rw [latencyMs_valid]
        constructor
        · rintro ⟨hMeasured, hFits⟩ body' candidate' hBody hTaken
          cases hBody
          rw [hCandidate, Option.some.injEq] at hTaken
          exact ⟨hMeasured, hTaken ▸ hFits⟩
        · intro h
          exact h body candidate rfl hCandidate
      · obtain ⟨code, hFailed⟩ := egressOf_refused ip strictIp status body (fun hStatus => by
              by_contra hSome
              exact hTaken ⟨hStatus, Option.ne_none_iff_exists'.mp hSome⟩) previous (latencyMs start stop)
        simp only [hFailed, EgressResult.slot, EgressResult.ip]
        refine iff_of_true ⟨fun _ h => (by cases h), fun _ h => (by cases h)⟩ ?_
        intro body' candidate' hBody hCandidate
        cases hBody
        exact absurd ⟨rfl, candidate', hCandidate⟩ hTaken

end SingboxOps.RemoteProbe.Collect
