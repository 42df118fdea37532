import SingboxOps.RemoteProbe.Payload

/-
  Signing and verifying a request.

  The two digests are parameters; what is signed and how a
  claimed signature is compared are the code's own.
-/

namespace SingboxOps.RemoteProbe

-- Digests

/- SHA-256, and HMAC-SHA256 of a key and a message. -/
structure Crypto where
  sha256 : Bytes → Bytes
  hmac : Bytes → Bytes → Bytes

/- `digest.hex()`, two lower-case digits a byte. -/
def hexdigest (digest : Bytes) : PyStr :=
  digest.flatMap (fun b => [Json.hexDigit (b.toNat / 16), Json.hexDigit (b.toNat % 16)])

/- Text of ASCII characters only. -/
def AsciiText (s : PyStr) : Prop := ∀ c ∈ s, c < 128

instance (s : PyStr) : Decidable (AsciiText s) := by
  unfold AsciiText
  infer_instance

theorem hexDigit_lt {d : ℕ} (hd : d < 16) : Json.hexDigit d < 128 := by
  unfold Json.hexDigit
  split <;> omega

theorem hexdigest_ascii (digest : Bytes) : AsciiText (hexdigest digest) := by
  intro c hc
  rcases List.mem_flatMap.mp hc with ⟨b, _, hDigit⟩
  have hByte : b.toNat < 256 := b.toNat_lt
  have hCases : c = Json.hexDigit (b.toNat / 16) ∨ c = Json.hexDigit (b.toNat % 16) := by
    simpa using hDigit
  rcases hCases with rfl | rfl
  · apply hexDigit_lt
    omega
  · apply hexDigit_lt
    omega

-- The Signing String

/- The frozen signing string, before it is encoded. -/
def signatureText (crypto : Crypto) (probeId : PyStr) (sentEpoch : ℤ) (run : PyStr) (seq : ℤ)
    (rawBody : Bytes) : PyStr :=
  pyStr p6Protocol ++ 10 :: pyStr ingestMethod ++ 10 :: pyStr ingestPath ++ 10 :: probeId ++
    10 :: Json.intText sentEpoch ++ 10 :: run ++
    10 :: Json.intText seq ++
    10 :: hexdigest (crypto.sha256 rawBody)

/- Every signed field is grammar-gated. -/
def signatureInput (crypto : Crypto) (probeId : PyStr) (sentEpoch : ℤ) (run : PyStr) (seq : ℤ)
    (rawBody : Bytes) : Except PyError Bytes :=
  if !probeIdGrammar probeId then .error .value
  else if !runGrammar run then .error .value
  else if ¬ (seqMin ≤ seq ∧ seq ≤ seqMax) then .error .value
  else if sentEpoch < 0 then .error .value
  else
    .ok (asciiEncode (signatureText crypto probeId sentEpoch run seq rawBody))

/- HMAC-SHA256 over the frozen input, lowercase hex. -/
def sign (crypto : Crypto) (secret : Bytes) (probeId : PyStr) (sentEpoch : ℤ) (run : PyStr) (seq : ℤ)
    (rawBody : Bytes) : Except PyError PyStr :=
  if secret = [] then .error .value
  else do
    let message ← signatureInput crypto probeId sentEpoch run seq rawBody
    return hexdigest (crypto.hmac secret message)

/-
  `hmac.compare_digest` of two texts, which raises
  `TypeError` unless both are ASCII.
-/
def compareDigest (a b : PyStr) : Except PyError Bool :=
  if AsciiText a ∧ AsciiText b then .ok (decide (a = b))
  else .error .type

/-
  Only the exceptions of signing are caught; the comparison
  stands outside of the `try`.
-/
def verifySignature (crypto : Crypto) (secret : Bytes) (probeId : PyStr) (sentEpoch : ℤ) (run : PyStr)
    (seq : ℤ) (rawBody : Bytes)
    (claimed : PyStr) : Except PyError Bool :=
  match sign crypto secret probeId sentEpoch run seq rawBody with
  | .error _ => .ok false
  | .ok expected => compareDigest expected claimed

-- What Verification Answers

variable {crypto : Crypto} {secret : Bytes} {probeId run : PyStr}
variable {sentEpoch seq : ℤ} {rawBody : Bytes}

/- The fields of a request that signing accepts. -/
structure Signable (secret : Bytes) (probeId : PyStr) (sentEpoch : ℤ) (run : PyStr)
    (seq : ℤ) : Prop where
  secret : secret ≠ []
  probeId : probeIdGrammar probeId = true
  run : runGrammar run = true
  seq : seqMin ≤ seq ∧ seq ≤ seqMax
  sentEpoch : 0 ≤ sentEpoch

theorem sign_ok_iff : (∃ expected, sign crypto secret probeId sentEpoch run seq rawBody = .ok expected) ↔
      Signable secret probeId sentEpoch run seq := by
  unfold sign signatureInput
  constructor
  · rintro ⟨expected, h⟩
    by_cases hSecret : secret = []
    · simp [hSecret] at h
    by_cases hProbe : probeIdGrammar probeId = true
    · by_cases hRun : runGrammar run = true
      · by_cases hSeq : seqMin ≤ seq ∧ seq ≤ seqMax
        · by_cases hSent : sentEpoch < 0
          · simp [hSecret, hProbe, hRun, hSeq, hSent, bind, Except.bind] at h
          · exact ⟨hSecret, hProbe, hRun, hSeq, not_lt.mp hSent⟩
        · rw [if_neg hSecret] at h
          simp [hProbe, hRun, hSeq, bind, Except.bind] at h
      · simp [hSecret, hProbe, hRun, bind, Except.bind] at h
    · simp [hSecret, hProbe, bind, Except.bind] at h
  · intro h
    refine ⟨hexdigest (crypto.hmac secret (asciiEncode
      (signatureText crypto probeId sentEpoch run seq rawBody))), ?_⟩
    rw [if_neg h.secret, if_neg (by simp [h.probeId]),
      if_neg (by simp [h.run]), if_neg (not_not.mpr h.seq),
      if_neg (not_lt.mpr h.sentEpoch)]
    rfl

theorem sign_ascii {expected : PyStr}
    (h : sign crypto secret probeId sentEpoch run seq rawBody = .ok expected) :
    AsciiText expected := by
  unfold sign at h
  split at h
  · cases h
  · cases hInput : signatureInput crypto probeId sentEpoch run seq rawBody with
    | error e => rw [hInput] at h; cases h
    | ok message =>
      rw [hInput] at h
      cases h
      exact hexdigest_ascii _

/-
  Verification answers unless signing succeeds and the claim
  is not ASCII.
-/
theorem verifySignature_ok_iff {claimed : PyStr} : (∃ b,
      verifySignature crypto secret probeId sentEpoch run seq rawBody claimed = .ok b) ↔
      (Signable secret probeId sentEpoch run seq → AsciiText claimed) := by
  unfold verifySignature
  cases hSign : sign crypto secret probeId sentEpoch run seq rawBody with
  | error e =>
    have hNot : ¬ Signable secret probeId sentEpoch run seq := by
      intro hFields
      have hExists : ∃ expected, sign crypto secret probeId sentEpoch run seq rawBody = .ok expected :=
        sign_ok_iff.mpr hFields
      rcases hExists with ⟨expected, h⟩
      rw [hSign] at h
      cases h
    exact ⟨fun _ h => absurd h hNot, fun _ => ⟨false, rfl⟩⟩
  | ok expected =>
    have hFields :
        Signable secret probeId sentEpoch run seq :=
      sign_ok_iff.mp ⟨expected, hSign⟩
    have hAscii := sign_ascii hSign
    simp only [compareDigest, hAscii, true_and]
    constructor
    · rintro ⟨b, h⟩ _
      by_contra hClaimed
      rw [if_neg hClaimed] at h
      cases h
    · intro h
      rw [if_pos (h hFields)]
      exact ⟨_, rfl⟩

theorem verifySignature_true_iff {claimed : PyStr} :
    verifySignature crypto secret probeId sentEpoch run seq rawBody claimed = .ok true ↔
      sign crypto secret probeId sentEpoch run seq rawBody = .ok claimed := by
  unfold verifySignature
  cases hSign : sign crypto secret probeId sentEpoch run seq rawBody with
  | error e => simp
  | ok expected =>
    have hAscii := sign_ascii hSign
    simp only [compareDigest, hAscii, true_and, Except.ok.injEq]
    constructor
    · intro h
      split at h
      · simpa using h
      · cases h
    · rintro rfl
      rw [if_pos hAscii]
      simp

end SingboxOps.RemoteProbe
