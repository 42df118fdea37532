import SingboxOps.RemoteIngest.Outcome

/-
  What a request without the correct signature can learn about
  the identity it names.

  Two registries that differ in that identity alone give such
  a request the same answer, unless its claimed signature is
  outside of ASCII: then an enabled identity raises.
-/

namespace SingboxOps.RemoteIngest

open PyFloat RemoteProbe

variable {F : Type} [PyFloat F] {env : Env F} {raw : Bytes}
variable {headers : Headers} {plane : Plane F} {registry : Registry}

/- The surroundings with another registry. -/
def Env.withRegistry (env : Env F) (registry : Registry) : Env F :=
  { env with registry := .published registry }

/- The request does not carry the signature of its identity. -/
def Incorrect (env : Env F) (raw : Bytes) (headers : Headers) (registry : Registry) : Prop :=
  ∀ c entry, parseHeaders headers = some c → registry.enabled c.probeId = some entry →
      sign env.crypto entry.key c.probeId c.sentEpoch c.run c.seq raw ≠ .ok c.signature

/- Two registries that differ in the named identity alone. -/
def AgreeOff (headers : Headers) (first second : Registry) : Prop :=
  ∀ id, headers.probeId ≠ some id → first id = second id

/-
  Both registries give the same closed answer before any
  authenticated token or the store is touched.
-/
def Uniform (env : Env F) (raw : Bytes) (headers : Headers) (plane : Plane F) : Prop :=
  ∀ first second, AgreeOff headers first second → Incorrect env raw headers first →
    Incorrect env raw headers second →
      let one := handle (env.withRegistry first) raw headers plane
      let two := handle (env.withRegistry second) raw headers plane
      one = two ∧ (one.1 = .ok unauthorized ∨ ∃ wait, one.1 = .ok (rateLimited wait)) ∧
        one.2.limiter = plane.limiter ∧
        one.2.store = plane.store

theorem probeId_of_parseHeaders {c : Claim}
    (h : parseHeaders headers = some c) : headers.probeId = some c.probeId := by
  simp only [parseHeaders, Option.bind_eq_bind, Option.bind_eq_some_iff] at h
  rcases h with ⟨probeId, hProbe, run, _, sentEpoch, _, seq, _, signature, _, h⟩
  split at h
  · cases h
    exact hProbe
  · cases h

theorem handleLive_incorrect (hIncorrect : Incorrect env raw headers registry)
    (hAscii : ∀ c, parseHeaders headers = some c → AsciiText c.signature) :
    handleLive env registry raw headers plane = (.ok unauthorized, plane) := by
  unfold handleLive
  cases hHeaders : parseHeaders headers with
  | none => rfl
  | some c =>
    simp only
    cases hEntry : registry.enabled c.probeId with
    | none => rfl
    | some entry =>
      simp only
      have hOk : ∃ b, verifySignature env.crypto entry.key c.probeId
              c.sentEpoch c.run c.seq raw c.signature = .ok b :=
        verifySignature_ok_iff.mpr (fun _ => hAscii c hHeaders)
      rcases hOk with ⟨b, hb⟩
      have hFalse : b = false := by
        cases b with
        | false => rfl
        | true =>
          exact absurd (verifySignature_true_iff.mp hb) (hIncorrect c entry hHeaders hEntry)
      rw [hb, hFalse]

theorem incorrect_of_not_ascii (h : ∀ c, parseHeaders headers = some c → ¬ AsciiText c.signature) :
    Incorrect env raw headers registry := by
  intro c entry hHeaders _ hSign
  exact h c hHeaders (sign_ascii hSign)

/-
  Nothing is learned about the identity exactly when a request
  past the guard with well-formed headers claims an ASCII
  signature.
-/
theorem uniform_iff (env : Env F) (raw : Bytes) (headers : Headers) (plane : Plane F) :
    Uniform env raw headers plane ↔ ((plane.preauth.check env.ticks.preauth).1.1 = true →
        ∀ c, parseHeaders headers = some c → AsciiText c.signature) := by
  constructor
  · intro h hGuard c hHeaders
    by_contra hNot
    have hProbe := probeId_of_parseHeaders hHeaders
    have hClaims : ∀ c', parseHeaders headers = some c' → ¬ AsciiText c'.signature := by
      intro c' hc'
      rw [hHeaders] at hc'
      cases hc'
      exact hNot
    -- an absent identity against an enabled one
    have hAgree : AgreeOff headers (loneRegistry c.probeId none) (loneRegistry c.probeId loneEntry) := by
      intro id hId
      have hNe : id ≠ c.probeId := by
        rintro rfl
        exact hId hProbe
      rw [loneRegistry, loneRegistry, if_neg hNe, if_neg hNe]
    have hBoth := h _ _ hAgree (incorrect_of_not_ascii hClaims) (incorrect_of_not_ascii hClaims)
    have hAnswers : Answers (handle (env.withRegistry (loneRegistry c.probeId none)) raw
          headers plane).1 := by
      rcases hBoth.2.1 with hOk | ⟨wait, hOk⟩
      · exact ⟨_, hOk, Closed.unauthorized⟩
      · exact ⟨_, hOk, Closed.rateLimited wait⟩
    rw [hBoth.1, handle_answers_iff] at hAnswers
    have hSafe := (hAnswers hGuard).2 _ c loneEntry rfl hHeaders
      (by simp [Registry.enabled, loneRegistry, loneEntry])
    exact hNot hSafe.1
  · intro h first second _ hFirst hSecond
    simp only
    unfold handle Env.withRegistry
    simp only
    cases hGuard : (plane.preauth.check env.ticks.preauth).1.1 with
    | false => exact ⟨rfl, Or.inr ⟨_, rfl⟩, rfl, rfl⟩
    | true =>
      have hAscii := h hGuard
      simp only [Bool.not_true, Bool.false_eq_true, if_false]
      let after := { plane with
        preauth := (plane.preauth.check env.ticks.preauth).2 }
      have hOne : handleLive (env.withRegistry first) first raw headers after = (.ok unauthorized, after) :=
        handleLive_incorrect hFirst hAscii
      have hTwo : handleLive (env.withRegistry second) second raw headers after = (.ok unauthorized, after) :=
        handleLive_incorrect hSecond hAscii
      unfold Env.withRegistry at hOne hTwo
      rw [hOne, hTwo]
      exact ⟨rfl, Or.inl rfl, rfl, rfl⟩

/-
  Where the claimed signature is é, an unknown identity gets a
  401 and an enabled one a `TypeError`.
-/
theorem accented_signature_tells : (handle (restingEnv (loneRegistry (pyStr "p") none)) []
        accentedHeaders (startedPlane ⟨0⟩)).1 =
        .ok unauthorized ∧
      (handle (restingEnv (loneRegistry (pyStr "p") loneEntry)) [] accentedHeaders (startedPlane ⟨0⟩)).1 =
        .error .type := by
  decide +kernel

end SingboxOps.RemoteIngest
