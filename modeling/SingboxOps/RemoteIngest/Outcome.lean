import SingboxOps.RemoteIngest.Total

/-
  The answer to a request, and the requests that get one.
-/

namespace SingboxOps.RemoteIngest

open PyFloat RemoteProbe

variable {F : Type} [PyFloat F] {env : Env F} {raw : Bytes}
variable {c : Claim} {plane : Plane F}

-- Closed Answers

/- The error codes of a refused body. -/
def bodyCodes : List String := [errInvalidBody, errNonCanonical]

/- The error codes of an unavailable plane. -/
def planeCodes : List String := [errRemoteStore, errConfigInvalid, "remote_run_capacity",
    "remote_receipt_capacity", "remote_storage_capacity"]

/- One of the answers the plane is documented to give. -/
inductive Closed : Response → Prop where
  | unauthorized : Closed unauthorized
  | rateLimited (wait : ℤ) : Closed (rateLimited wait)
  | body
      (code : String)
      (h : code ∈ bodyCodes) : Closed (refuse 400 code)
  | plane
      (code : String)
      (h : code ∈ planeCodes) : Closed (refuse 503 code)
  | verdict (v : RemoteStore.Verdict) : Closed (answerVerdict v)

/- The computation returns a closed answer. -/
def Answers (result : Except PyError Response) : Prop := ∃ r, result = .ok r ∧ Closed r

theorem answers_ok {r : Response} (h : Closed r) : Answers (.ok r) := ⟨r, rfl, h⟩

theorem not_answers_error (e : PyError) : ¬ Answers (.error e) := by
  rintro ⟨r, h, _⟩
  cases h

-- Headers

/- The fields of a claim are within their grammars. -/
structure WellFormed (c : Claim) : Prop where
  probeId : probeIdGrammar c.probeId = true
  run : runGrammar c.run = true
  sentEpoch : 0 ≤ c.sentEpoch
  seq : 1 ≤ c.seq ∧ c.seq ≤ seqMax

theorem parseCanonicalInt_bounds {text : PyStr} {minimum n : ℤ}
    (h : parseCanonicalInt text minimum = some n) : minimum ≤ n ∧ n ≤ seqMax := by
  unfold parseCanonicalInt at h
  simp only at h
  split_ifs at h with hDigits hBad
  cases h
  push Not at hBad
  exact hBad.2

theorem parseHeaders_wellFormed {headers : Headers} (h : parseHeaders headers = some c) : WellFormed c := by
  simp only [parseHeaders, Option.bind_eq_bind, Option.bind_eq_some_iff] at h
  rcases h with ⟨probeId, _, run, _, sentEpoch, ⟨_, _, hSent⟩, seq, ⟨_, _, hSeq⟩, signature, _, h⟩
  split at h
  · rename_i hGrammar
    cases h
    simp only [Bool.and_eq_true] at hGrammar
    exact ⟨hGrammar.1.1, hGrammar.1.2, (parseCanonicalInt_bounds hSent).1, parseCanonicalInt_bounds hSeq⟩
  · cases h

theorem signable_of_wellFormed (hc : WellFormed c)
    (entry : ProbeEntry) : Signable entry.key c.probeId c.sentEpoch c.run c.seq := by
  refine ⟨?_, hc.probeId, hc.run, hc.seq, hc.sentEpoch⟩
  intro hEmpty
  have hSize := entry.keySize
  rw [hEmpty] at hSize
  cases hSize

-- The Commit

theorem le_of_inWindow (clock : WallClock F) {n : ℤ}
    (h : RemoteStore.InWindow clock.now (n : ℚ)) : n ≤ 2 ^ 34 + 600 := by
  have hAhead := h.1
  have hNear := nearest (toRat clock.now + RemoteStore.futureSkewSeconds) clock.now
  have hSelf : toRat clock.now - (toRat clock.now + RemoteStore.futureSkewSeconds) = -300 := by
    unfold RemoteStore.futureSkewSeconds
    ring
  rw [hSelf] at hNear
  norm_num at hNear
  have hUp := (abs_le.mp hNear).2
  have hClock := (abs_le.mp clock.inRange).2
  change (n : ℚ) ≤ toRat (round (toRat clock.now + RemoteStore.futureSkewSeconds) : F)
    at hAhead
  unfold RemoteStore.futureSkewSeconds at hUp hAhead
  have hBound : (n : ℚ) ≤ ((2 ^ 34 + 600 : ℤ) : ℚ) := by
    push_cast
    linarith
  exact_mod_cast hBound

theorem sqlInteger_of_inWindow (clock : WallClock F) {n : ℤ} (hNonneg : 0 ≤ n)
    (h : RemoteStore.InWindow clock.now (n : ℚ)) : RemoteStore.SqlInteger n := by
  have hInt := le_of_inWindow clock h
  constructor
  · omega
  · omega

theorem bindable_of_accepts {sample : Json F} (hc : WellFormed c)
    (h : Accepts env.room raw sample) : Bindable (F := F)
      ⟨c.probeId, c.run, c.seq, sampleEpochOf sample, raw, env.clock.now⟩ := by
  have hValid := (accepts_iff.mp h).2.2.2.1
  have hEpoch : ∀ n, sampleEpochOf sample = .int n → 0 ≤ n ∧ n < 2 ^ 1024 - 2 ^ 970 := by
    intro n hn
    cases sample with
    | obj members =>
      have hKeys : keysAre members sampleKeys = true := by
        by_contra hNot
        rw [validateSample, if_neg hNot] at hValid
        cases hValid
      rcases hasFields_of_keysAre hKeys with ⟨x, hx⟩
      have hOk := ((validateSample_iff hx).mp hValid).sampleEpoch
      rw [sampleEpochOf, getItem_of_item hx.sampleEpoch] at hn
      cases hValue : x.sampleEpoch with
      | int m =>
        rw [hValue] at hn hOk
        cases hn
        rw [validSampleEpoch] at hOk
        split at hOk
        · cases hOk
        · rename_i hFits
          have hNonneg : 0 ≤ n := by simpa using hOk
          rw [abs_of_nonneg hNonneg] at hFits
          exact ⟨hNonneg, not_le.mp hFits⟩
      | float e =>
        rw [hValue] at hn
        cases e <;> cases hn
      | _ => rw [hValue] at hn; cases hn
    | _ => cases hValid
  refine ⟨?_, ?_, ?_⟩
  · have hSeq := hc.seq
    unfold seqMax at hSeq
    constructor
    · change -(2 ^ 63) ≤ c.seq
      omega
    · change c.seq < 2 ^ 63
      omega
  · cases hKind : sampleEpochOf sample with
    | int n =>
      have hn := hEpoch n hKind
      simp only [RemoteStore.SampleEpoch.overflows, decide_eq_false_iff_not, not_le]
      rw [abs_of_nonneg hn.1]
      exact hn.2
    | float x => rfl
    | invalid => rfl
  · intro n hn hWindow
    exact sqlInteger_of_inWindow env.clock (hEpoch n hn).1 hWindow

omit [PyFloat F] in
theorem storeAnswer_closed {e : RemoteStore.StoreError}
    (h : e ≠ .overflow) : Answers (storeAnswer c.probeId plane e).1 := by
  cases e with
  | overflow => exact absurd rfl h
  | _ =>
    apply answers_ok
    apply Closed.plane
    decide

theorem commit_closed {sample : Json F} (hc : WellFormed c)
    (h : Accepts env.room raw sample) : Answers (commit env raw c sample plane).1 := by
  unfold commit
  cases hStore : plane.store with
  | none =>
    apply answers_ok
    apply Closed.plane
    decide
  | some store =>
    simp only
    split
    · rename_i v hVerdict
      split
      · exact answers_ok (Closed.verdict v)
      · exact answers_ok (Closed.verdict v)
    · rename_i e hError
      apply storeAnswer_closed
      rintro rfl
      exact accept_ne_overflow (bindable_of_accepts hc h) hError

-- Behind the Signature

/- The request was signed within the freshness window. -/
def Fresh (env : Env F) (c : Claim) : Prop :=
  |toRat (sub (round (c.sentEpoch : ℚ) : F)
    (toRat env.clock.now))| ≤ sentEpochFreshnessSeconds

/- Both authenticated buckets have a token for the request. -/
def Admits (env : Env F) (plane : Plane F) (c : Claim) : Prop :=
  ( RateLimiter.admit plane.limiter c.probeId env.ticks).1.1 = true

theorem admitted_answers_iff (hc : WellFormed c) : Answers (admitted env raw c plane).1 ↔
      (Fresh env c → Admits env plane c → BodyReadable F env.room raw) := by
  unfold admitted Fresh Admits
  simp only
  split
  · rename_i hStale
    constructor
    · exact fun _ hFresh => absurd hStale (not_lt.mpr hFresh)
    · exact fun _ => answers_ok Closed.unauthorized
  · rename_i hFresh
    split
    · rename_i hDenied
      constructor
      · intro _ _ hAdmits
        rw [hAdmits] at hDenied
        cases hDenied
      · exact fun _ => answers_ok (Closed.rateLimited _)
    · rename_i hAdmits
      have hReach : ∀ p : Prop, (|toRat (sub (round (c.sentEpoch : ℚ) : F)
                (toRat env.clock.now))| ≤ sentEpochFreshnessSeconds →
              ( RateLimiter.admit plane.limiter c.probeId env.ticks).1.1 = true → p) ↔ p := by
        intro p
        constructor
        · exact fun h => h (not_lt.mp hFresh) (by simpa using hAdmits)
        · exact fun h _ _ => h
      rw [hReach, ← bodyGate_answers_iff (c := c)]
      split
      · rename_i e hGate
        constructor
        · exact fun h => absurd h (not_answers_error e)
        · rintro ⟨result, h⟩
          rw [hGate] at h
          cases h
      · rename_i code hGate
        constructor
        · exact fun _ => ⟨_, hGate⟩
        · intro _
          apply answers_ok
          apply Closed.body
          rcases bodyGate_code hGate with rfl | rfl
          · decide
          · decide
      · rename_i sample hGate
        constructor
        · exact fun _ => ⟨_, hGate⟩
        · exact fun _ => commit_closed hc (bodyGate_ok hGate).1

-- The Whole Request

/-
  A claim that an entry answers: its signature is ASCII text,
  and where it is the right one, the body can be read.
-/
def SafeClaim (env : Env F) (raw : Bytes) (plane : Plane F) (c : Claim) (entry : ProbeEntry) : Prop :=
  AsciiText c.signature ∧ (sign env.crypto entry.key c.probeId c.sentEpoch c.run c.seq raw = .ok c.signature →
      Fresh env c → Admits env plane c → BodyReadable F env.room raw)

/-
  Once the request has got past the guard, the registry's file
  does not nest too deep, and whatever the request claims of
  an enabled identity is safe.
-/
def SafeRequest (env : Env F) (raw : Bytes) (headers : Headers) (plane : Plane F) : Prop :=
  (plane.preauth.check env.ticks.preauth).1.1 = true → env.registry ≠ .nested ∧
    ∀ registry c entry, env.registry = .published registry → parseHeaders headers = some c →
      registry.enabled c.probeId = some entry → SafeClaim env raw plane c entry

variable {registry : Registry} {headers : Headers}

theorem handleLive_of_entry {entry : ProbeEntry} (hHeaders : parseHeaders headers = some c)
    (hEntry : registry.enabled c.probeId = some entry) :
    Answers (handleLive env registry raw headers plane).1 ↔
      SafeClaim env raw plane c entry := by
  have hc := parseHeaders_wellFormed hHeaders
  have hSignable := signable_of_wellFormed hc entry
  unfold handleLive SafeClaim
  rw [hHeaders]
  simp only
  rw [hEntry]
  simp only
  cases hVerify : verifySignature env.crypto entry.key c.probeId c.sentEpoch c.run c.seq raw c.signature with
  | error e =>
    constructor
    · exact fun h => absurd h (not_answers_error e)
    · rintro ⟨hAscii, _⟩
      have hOk : ∃ b, verifySignature env.crypto entry.key c.probeId
              c.sentEpoch c.run c.seq raw c.signature = .ok b :=
        verifySignature_ok_iff.mpr (fun _ => hAscii)
      rcases hOk with ⟨b, hb⟩
      rw [hVerify] at hb
      cases hb
  | ok b =>
    have hAscii : AsciiText c.signature := verifySignature_ok_iff.mp ⟨b, hVerify⟩ hSignable
    cases b with
    | false =>
      constructor
      · intro _
        refine ⟨hAscii, ?_⟩
        intro hSign
        rw [verifySignature_true_iff.mpr hSign] at hVerify
        cases hVerify
      · exact fun _ => answers_ok Closed.unauthorized
    | true =>
      have hSign := verifySignature_true_iff.mp hVerify
      have hRest : Answers (admitted env raw c plane).1 ↔ _ := admitted_answers_iff hc
      constructor
      · exact fun h => ⟨hAscii, fun _ => hRest.mp h⟩
      · exact fun h => hRest.mpr (h.2 hSign)

theorem handleLive_answers_iff : Answers (handleLive env registry raw headers plane).1 ↔
      ∀ c entry, parseHeaders headers = some c →
        registry.enabled c.probeId = some entry → SafeClaim env raw plane c entry := by
  cases hHeaders : parseHeaders headers with
  | none =>
    rw [handleLive, hHeaders]
    constructor
    · intro _ c entry h
      cases h
    · exact fun _ => answers_ok Closed.unauthorized
  | some c =>
    cases hEntry : registry.enabled c.probeId with
    | none =>
      rw [handleLive, hHeaders]
      simp only
      rw [hEntry]
      constructor
      · intro _ c' entry hc' hFound
        cases hc'
        rw [hEntry] at hFound
        cases hFound
      · exact fun _ => answers_ok Closed.unauthorized
    | some entry =>
      rw [handleLive_of_entry hHeaders hEntry]
      constructor
      · intro h c' entry' hc' hFound
        cases hc'
        rw [hEntry] at hFound
        cases hFound
        exact h
      · exact fun h => h c entry rfl hEntry

theorem handle_answers_iff : Answers (handle env raw headers plane).1 ↔
      SafeRequest env raw headers plane := by
  unfold handle SafeRequest
  simp only
  cases hGuard : (plane.preauth.check env.ticks.preauth).1.1 with
  | false =>
    constructor
    · intro _ h
      cases h
    · exact fun _ => answers_ok (Closed.rateLimited _)
  | true =>
    cases hRegistry : env.registry with
    | refused =>
      constructor
      · intro _ _
        refine ⟨nofun, ?_⟩
        intro registry c entry h
        cases h
      · intro _
        apply answers_ok
        apply Closed.plane
        decide
    | nested =>
      constructor
      · exact fun h => absurd h (not_answers_error _)
      · exact fun h => absurd rfl (h rfl).1
    | published registry =>
      simp only [Bool.not_true, Bool.false_eq_true, if_false]
      rw [handleLive_answers_iff]
      constructor
      · intro h _
        refine ⟨nofun, ?_⟩
        intro registry' c entry hSame
        cases hSame
        exact h c entry
      · exact fun h c entry => (h True.intro).2 registry c entry rfl

/-
  Validation returns a list unless the epoch is an integer no
  float holds or an entry cannot be hashed; verification
  returns a boolean unless a claim outside of ASCII meets a
  signature; and the plane answers exactly the safe requests.
-/
theorem ingest_answers_iff : (∀ sample : Json F,
      (∃ problems, validateSample sample = .ok problems) ↔ Checkable sample) ∧
      (∀ crypto secret probeId sentEpoch run seq raw claimed, (∃ b,
          verifySignature crypto secret probeId sentEpoch run seq raw claimed = .ok b) ↔
          (Signable secret probeId sentEpoch run seq → AsciiText claimed)) ∧
      (∀ (env : Env F) raw headers (plane : Plane F),
        Answers (handle env raw headers plane).1 ↔ SafeRequest env raw headers plane) :=
  ⟨fun _ => validateSample_answers_iff, fun _ _ _ _ _ _ _ _ => verifySignature_ok_iff,
    fun _ _ _ _ => handle_answers_iff⟩

-- Requests That Raise

/- A plane that was just started, without a store. -/
def startedPlane (now : F) : Plane F where
  preauth := .full 40 600 now
  limiter := ⟨.full 20 240 now, []⟩
  store := none
  storeError := none
  capacityFailures := []

/- One enabled identity, with a key of zeros. -/
def loneEntry : ProbeEntry := ⟨true, List.replicate 32 0, rfl⟩

/- The registry that knows at most the one probe. -/
def loneRegistry (probeId : PyStr) (entry : Option ProbeEntry) : Registry :=
  fun id => if id = probeId then entry else none

/- The surroundings of a request at the epoch. -/
def restingEnv (registry : Registry) : Env (Grid 1) where
  crypto := ⟨fun _ => List.replicate 32 0, fun _ _ => List.replicate 32 0⟩
  lim := {}
  room := 1000
  ticks := ⟨⟨0⟩, ⟨0⟩, ⟨0⟩, ⟨0⟩⟩
  clock := ⟨⟨0⟩, by norm_num [FloatText.toRat, Grid.toRat]⟩
  registry := .published registry
  engine := RemoteStore.idleEngine

/- Headers whose claimed signature is the letter é. -/
def accentedHeaders : Headers where
  probeId := some (pyStr "p")
  sentEpoch := some (pyStr "0")
  run := some (List.replicate 32 97)
  seq := some (pyStr "1")
  signature := some [233]

/- A sample-shaped body with an epoch beyond every float. -/
def hugeEpochSample : Json (Grid 1) := .obj (sampleKeys.map (fun k =>
    (pyStr k, if k = "sample_epoch" then .int (2 ^ 1024)
      else .null)))

/-
  A signature of é for an enabled identity raises `TypeError`,
  and the huge epoch raises `OverflowError`.
-/
theorem accented_signature_raises : (handle (restingEnv (loneRegistry (pyStr "p") loneEntry))
        [] accentedHeaders (startedPlane ⟨0⟩)).1 =
        .error .type ∧
      validateSample hugeEpochSample = .error .overflow := by
  decide +kernel

end SingboxOps.RemoteIngest
