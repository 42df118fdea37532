import SingboxOps.RemoteIngest.Service

/-
  The agent and the plane together.

  What an agent encodes and signs with the key the registry
  holds for it is never refused for its signature or for its
  body: past the guard, the clock and the limits decide, and
  then the store does.
-/

namespace SingboxOps.RemoteIngest

open PyFloat RemoteProbe
open Json (canonical Proper)

variable {F : Type} [PyFloat F] {site : Site} {agentRoom : ℕ} {r : Posted F} {c : Claim}
variable {sample other : Json F} {plane : Plane F}

/-
  The request of an agent for a sample of its own: the body
  is its encoding, and the headers are the ones `sign_record`
  made with the key of the enabled entry.
-/
structure Honest (site : Site) (agentRoom : ℕ) (r : Posted F) (c : Claim)
    (sample : Json F) : Prop where
  proper : Proper sample
  encoded : encodeSample agentRoom sample = .ok r.raw
  names : matchesClaim sample c = true
  sent : ∃ (registry : Registry) (entry : ProbeEntry) (now : Json F)
      (headers : List (PyStr × PyStr)), r.registry = .published registry ∧
      registry.enabled c.probeId = some entry ∧
      canonicalSentEpoch now = .ok c.sentEpoch ∧
      sign site.crypto entry.key c.probeId c.sentEpoch c.run c.seq r.raw = .ok c.signature ∧
      signRecord site.crypto entry.key c.probeId c.run c.seq r.raw now = .ok headers ∧
      r.headers = extractHeaders headers

-- The Body

theorem obj_of_valid (hValid : validateSample sample = .ok []) : ∃ members, sample = .obj members := by
  cases sample with
  | obj members => exact ⟨members, rfl⟩
  | _ => cases hValid

theorem matchesClaim_congr (hValid : validateSample sample = .ok []) (hOther : validateSample other = .ok [])
    (h : ∀ key ∈ identityKeys, valueOf sample key = valueOf other key) :
    matchesClaim sample c = matchesClaim other c ∧ sampleEpochOf sample = sampleEpochOf other := by
  obtain ⟨members, rfl⟩ := obj_of_valid hValid
  obtain ⟨others, rfl⟩ := obj_of_valid hOther
  have hProbe : Json.getItem members (pyStr "probe_id") = _ := h "probe_id" (by decide)
  have hRun : Json.getItem members (pyStr "run") = _ := h "run" (by decide)
  have hSeq : Json.getItem members (pyStr "seq") = _ := h "seq" (by decide)
  have hEpoch : Json.getItem members (pyStr "sample_epoch") = _ := h "sample_epoch" (by decide)
  refine ⟨?_, ?_⟩
  · rw [matchesClaim, matchesClaim, hProbe, hRun, hSeq]
    rfl
  · rw [sampleEpochOf, sampleEpochOf, hEpoch]
    rfl

theorem bodyGate_of_accepts (h : Accepts site.room r.raw sample) (hNames : matchesClaim sample c = true) :
    bodyGate site.room r.raw c = .ok (.ok sample) := by
  unfold bodyGate
  rw [h.1, ok_bind]
  dsimp only
  rw [hNames, h.2]
  rfl

theorem Honest.gate (h : Honest site agentRoom r c sample) (hAgent : 3 ≤ agentRoom)
    (hServer : 3 ≤ site.room) :
    bodyGate site.room r.raw c = .ok (.ok (canonical sample)) ∧ Accepts site.room r.raw (canonical sample) ∧
      sampleEpochOf (canonical sample) = sampleEpochOf sample := by
  have hAccepts := accepts_of_encodeSample hAgent hServer h.proper h.encoded
  have hValid := (encodeSample_iff.mp h.encoded).1
  have hRead := (accepts_iff.mp hAccepts).2.2.2.1
  have hSame := matchesClaim_congr (c := c) hRead hValid
    (fun key hKey => valueOf_canonical hValid h.proper hKey)
  exact ⟨bodyGate_of_accepts hAccepts (hSame.1.trans h.names), hAccepts, hSame.2⟩

-- The Headers

theorem Honest.read (h : Honest site agentRoom r c sample)
    (hDigest : ∀ secret m, (site.crypto.hmac secret m).length = 32) :
    parseHeaders r.headers = if c.sentEpoch ≤ seqMax then some c else none := by
  obtain ⟨registry, entry, now, headers, _, _, hNow, hSign, hSend, hHeaders⟩ := h.sent
  obtain ⟨hSigned, m, hHex⟩ := sign_ok hSign
  have hSent : headers =
      requestHeaders c.probeId c.sentEpoch c.run c.seq c.signature := by
    unfold signRecord at hSend
    rw [hNow] at hSend
    dsimp only at hSend
    rw [hSign] at hSend
    exact (Except.ok.inj hSend).symm
  rw [hHeaders, hSent]
  apply parseHeaders_signed hSigned
  rw [hHex]
  apply hexdigest_ne_nil
  intro hNil
  have hLength := hDigest entry.key m
  rw [hNil] at hLength
  cases hLength

/- Past the guard, only the stamp is left to refuse. -/
theorem Honest.handled (h : Honest site agentRoom r c sample)
    (hDigest : ∀ secret m, (site.crypto.hmac secret m).length = 32)
    (hGuard : (plane.preauth.check r.ticks.preauth).1.1 = true) :
    handle (site.env r) r.raw r.headers plane =
      if c.sentEpoch ≤ seqMax then
        admitted (site.env r) r.raw c { plane with preauth := (plane.preauth.check r.ticks.preauth).2 }
      else
        (.ok unauthorized, { plane with preauth := (plane.preauth.check r.ticks.preauth).2 }) := by
  have hRead := h.read hDigest
  obtain ⟨registry, entry, _, _, hRegistry, hEntry, _, hSign, _, _⟩ := h.sent
  have hVerify := verifySignature_true_iff.mpr hSign
  have hFound : (site.env r).registry = .published registry := hRegistry
  have hToken : (plane.preauth.check (site.env r).ticks.preauth).1.1 = true := hGuard
  have hKey : verifySignature (site.env r).crypto entry.key c.probeId c.sentEpoch c.run c.seq
      r.raw c.signature = .ok true := hVerify
  unfold handle
  dsimp only
  rw [hToken, hFound]
  simp only [Bool.not_true, Bool.false_eq_true, if_false]
  unfold handleLive
  rw [hRead]
  split_ifs with hMax
  · dsimp only
    rw [hEntry]
    dsimp only
    rw [hKey]
    rfl
  · rfl

-- The Answer

/- What is committed is answered by the store alone. -/
theorem commit_answer {store : RemoteStore.Store F Bytes} (hStore : plane.store = some store)
    (hc : WellFormed c) (h : Accepts site.room r.raw sample) :
    (∀ v, (RemoteStore.accept site.lim site.crypto.sha256 r.engine (attempt r c sample) store).1 = .ok v →
      (commit (site.env r) r.raw c sample plane).1 = .ok (answerVerdict v)) ∧
    (∀ e, (RemoteStore.accept site.lim site.crypto.sha256 r.engine (attempt r c sample) store).1 = .error e →
      (commit (site.env r) r.raw c sample plane).1 = .ok (refuse 503 (e.code.getD errRemoteStore))) := by
  refine ⟨?_, ?_⟩
  · intro v hv
    unfold commit
    rw [hStore]
    dsimp only
    have hVerdict : (RemoteStore.accept (site.env r).lim (site.env r).crypto.sha256
        (site.env r).engine ⟨c.probeId, c.run, c.seq, sampleEpochOf sample, r.raw,
          (site.env r).clock.now⟩ store).1 = .ok v := hv
    rw [hVerdict]
    dsimp only
    split_ifs <;> rfl
  · intro e he
    have hError : (RemoteStore.accept (site.env r).lim (site.env r).crypto.sha256
        (site.env r).engine ⟨c.probeId, c.run, c.seq, sampleEpochOf sample, r.raw,
          (site.env r).clock.now⟩ store).1 = .error e := he
    have hBound : e ≠ .overflow := by
      rintro rfl
      have hBind : Bindable (F := F) ⟨c.probeId, c.run, c.seq, sampleEpochOf sample, r.raw,
          (site.env r).clock.now⟩ :=
        bindable_of_accepts hc h
      exact accept_ne_overflow hBind hError
    unfold commit
    rw [hStore]
    dsimp only
    rw [hError]
    cases e with
    | overflow => exact absurd rfl hBound
    | _ => rfl

section Admission

variable {env : Env F} {raw : Bytes}

theorem admitted_stale (h : ¬ Fresh env c) : admitted env raw c plane = (.ok unauthorized, plane) := by
  unfold admitted
  dsimp only
  rw [if_pos (not_le.mp h)]

theorem admitted_limited (hFresh : Fresh env c) (h : ¬ Admits env plane c) :
    (∃ wait, (admitted env raw c plane).1 = .ok (rateLimited wait)) ∧
      (admitted env raw c plane).2.store = plane.store := by
  have hDenied : ( RateLimiter.admit plane.limiter c.probeId env.ticks).1.1 = false := Bool.eq_false_iff.mpr h
  unfold admitted
  dsimp only
  rw [if_neg (not_lt.mpr hFresh), hDenied]
  exact ⟨⟨_, rfl⟩, rfl⟩

theorem admitted_gated (hFresh : Fresh env c) (hAdmits : Admits env plane c)
    (hGate : bodyGate env.room raw c = .ok (.ok sample)) :
    admitted env raw c plane = commit env raw c sample
      { plane with limiter := ( RateLimiter.admit plane.limiter c.probeId env.ticks).2 } := by
  have hCharge : ( RateLimiter.admit plane.limiter c.probeId env.ticks).1.1 = true := hAdmits
  unfold admitted
  dsimp only
  rw [if_neg (not_lt.mpr hFresh), hCharge, hGate]
  rfl

end Admission

/-
  An honest request that gets past the guard is refused as
  unauthorized exactly when its stamp is beyond the plane's
  range or not fresh, and is otherwise limited or answered
  with what the store says of the sample that was encoded;
  its body is never refused.
-/
theorem honest_request_answered (h : Honest site agentRoom r c sample)
    (hAgent : 3 ≤ agentRoom) (hServer : 3 ≤ site.room)
    (hDigest : ∀ secret m, (site.crypto.hmac secret m).length = 32)
    (hGuard : (plane.preauth.check r.ticks.preauth).1.1 = true) :
    let answer := handle (site.env r) r.raw r.headers plane
    (¬ (c.sentEpoch ≤ seqMax ∧ Fresh (site.env r) c) →
      answer.1 = .ok unauthorized ∧ answer.2.store = plane.store) ∧
    (c.sentEpoch ≤ seqMax → Fresh (site.env r) c → ¬ Admits (site.env r) plane c →
      (∃ wait, answer.1 = .ok (rateLimited wait)) ∧ answer.2.store = plane.store) ∧
    (c.sentEpoch ≤ seqMax → Fresh (site.env r) c → Admits (site.env r) plane c →
      (plane.store = none → answer.1 = .ok (refuse 503 errRemoteStore)) ∧
      ∀ store, plane.store = some store →
        let result := RemoteStore.accept site.lim site.crypto.sha256 r.engine (attempt r c sample) store
        answer.2.store = some result.2 ∧ (∀ v, result.1 = .ok v → answer.1 = .ok (answerVerdict v)) ∧
          ∀ e, result.1 = .error e → answer.1 = .ok (refuse 503 (e.code.getD errRemoteStore))) := by
  dsimp only
  rw [h.handled hDigest hGuard]
  refine ⟨?_, ?_, ?_⟩
  · intro hStale
    split_ifs with hMax
    · rw [admitted_stale (fun hFresh => hStale ⟨hMax, hFresh⟩)]
      exact ⟨rfl, rfl⟩
    · exact ⟨rfl, rfl⟩
  · intro hMax hFresh hDenied
    rw [if_pos hMax]
    exact admitted_limited hFresh hDenied
  · intro hMax hFresh hAdmits
    obtain ⟨hGate, hAccepts, hEpoch⟩ := h.gate hAgent hServer
    have hSame : attempt r c (canonical sample) = attempt r c sample := by
      rw [attempt, attempt, hEpoch]
    have hClaim : WellFormed c := by
      have hRead : parseHeaders r.headers = some c := by rw [h.read hDigest, if_pos hMax]
      exact parseHeaders_wellFormed hRead
    let guarded : Plane F := { plane with preauth := (plane.preauth.check r.ticks.preauth).2 }
    let charged : Plane F := { guarded with
      limiter := ( RateLimiter.admit plane.limiter c.probeId r.ticks).2 }
    have hLimits : Admits (site.env r) guarded c := hAdmits
    have hCommit : admitted (site.env r) r.raw c guarded =
        commit (site.env r) r.raw c (canonical sample) charged :=
      admitted_gated hFresh hLimits hGate
    rw [if_pos hMax, hCommit]
    refine ⟨?_, ?_⟩
    · intro hNone
      have hCharged : charged.store = none := hNone
      unfold commit
      rw [hCharged]
    · intro store hStore
      have hCharged : charged.store = some store := hStore
      have hAnswer := commit_answer hCharged hClaim hAccepts
      rw [hSame] at hAnswer
      refine ⟨?_, hAnswer⟩
      rw [commit_store, hSame]
      exact congrArg _ hStore

/- A plane that was just started on an empty database. -/
def edgePlane : Plane (Grid 1) := { startedPlane ⟨0⟩ with store := some .empty }

/- The first sample of the probe `edge` is accepted. -/
theorem honest_request_accepted :
    (handle (zeroSite.env edgeRequest) edgeRequest.raw edgeRequest.headers edgePlane).1 =
      .ok (answerVerdict .accepted) := by
  obtain ⟨members, hPresented⟩ : ∃ members, RemoteStore.Presented 1000 edgeAttempt members :=
    RemoteStore.presented_of_check (by decide +kernel)
  have hAccepts : Accepts 1000 edgeRequest.raw (.obj members) :=
    accepts_iff.mpr ⟨by decide +kernel, by decide +kernel, hPresented.loads,
      hPresented.valid, hPresented.canonical⟩
  have hNames : matchesClaim (.obj members) edgeClaim = true := by
    rw [matchesClaim, getItem_of_item hPresented.probeId, getItem_of_item hPresented.run,
      getItem_of_item hPresented.seq]
    decide
  have hEpoch : attempt edgeRequest edgeClaim (.obj members) = edgeAttempt := by
    obtain ⟨v, hValue, hItem⟩ := hPresented.epoch
    cases hValue
    rw [attempt, sampleEpochOf, getItem_of_item hItem]
    rfl
  obtain ⟨hProper, hEncoded⟩ := encodeSample_of_accepts (by decide : 3 ≤ 1000) hAccepts
  have hHonest : Honest zeroSite 1000 edgeRequest edgeClaim (.obj members) :=
    ⟨hProper, hEncoded, hNames, edgeRegistry, loneEntry, .int 0, _, rfl, rfl,
      by decide +kernel, by decide +kernel, by decide +kernel, rfl⟩
  have hGuard : (edgePlane.preauth.check edgeRequest.ticks.preauth).1.1 = true := by
    decide +kernel
  have hFresh : Fresh (zeroSite.env edgeRequest) edgeClaim := by
    unfold Fresh
    decide +kernel
  have hAdmits : Admits (zeroSite.env edgeRequest) edgePlane edgeClaim := by
    unfold Admits
    decide +kernel
  have hAnswer := (honest_request_answered hHonest (by decide) (by decide)
    (fun _ _ => rfl) hGuard).2.2 (by decide) hFresh hAdmits
  refine (hAnswer.2 .empty rfl).2.1 .accepted ?_
  rw [hEpoch]
  decide +kernel

end SingboxOps.RemoteIngest
