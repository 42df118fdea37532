import SingboxOps.RemoteIngest.Plane
import SingboxOps.RemoteProbe.Schema

/-
  The bodies the plane takes are the bodies an agent encodes.
-/

namespace SingboxOps.RemoteIngest

open RemoteProbe
open Json (canonical depth Proper)

variable {F : Type} [FloatText F] {room : ℕ} {raw : Bytes}
variable {sample : Json F}

/- The gate parses, validates and re-encodes a body. -/
def Accepts (room : ℕ) (raw : Bytes) (sample : Json F) : Prop :=
  parseBody room raw = .ok (some sample) ∧ isCanonical sample raw = .ok true

/- The value of a key of a sample. -/
def valueOf (sample : Json F) (key : String) : Option (Json F) := match sample with
  | .obj members => Json.getItem members (pyStr key)
  | _ => none

/- The keys an identity and its progress are read from. -/
def identityKeys : List String := ["probe_id", "run", "seq", "sample_epoch"]

-- Reading an Encoding

theorem loadsBytes_canonicalBytes (hBytes : canonicalBytes sample = .ok raw)
    (hRoom : depth sample ≤ room) : loadsBytes room raw = .ok (canonical sample) := by
  unfold canonicalBytes at hBytes
  split at hBytes
  · rename_i hDump
    cases hBytes
    have hAscii : ∀ c ∈ Json.render (Json.sortKeys sample), c < 128 := by
      intro c hc
      have hPrint := Json.printable_render (Json.sortKeys sample) c hc
      omega
    rw [loadsBytes, utf8Decode_asciiEncode hAscii]
    simp only
    rw [Json.loads_render hDump ((Json.depth_sortKeys sample).trans hRoom)]
    rfl
  · cases hBytes

theorem isCanonical_iff : isCanonical sample raw = .ok true ↔ canonicalBytes sample = .ok raw := by
  unfold isCanonical
  cases hBytes : canonicalBytes sample with
  | error e => cases e <;> simp
  | ok again => simp

theorem canonicalRoundtripOk_iff : canonicalRoundtripOk (F := F) room raw = .ok true ↔
      ∃ v : Json F, loadsBytes room raw = .ok v ∧ canonicalBytes v = .ok raw := by
  unfold canonicalRoundtripOk
  cases hLoads : (loadsBytes room raw : Except PyError (Json F)) with
  | error e => cases e <;> simp
  | ok v =>
    simp only [Except.ok.injEq, exists_eq_left']
    exact isCanonical_iff

theorem encodeSample_iff : encodeSample room sample = .ok raw ↔
      validateSample sample = .ok [] ∧ canonicalBytes sample = .ok raw ∧ raw.length ≤ maxBodyBytes ∧
        canonicalRoundtripOk (F := F) room raw = .ok true := by
  constructor
  · intro h
    rcases except_bind_ok h with ⟨problems, hValid, h⟩
    split at h
    · cases h
    · rename_i hNil
      rcases except_bind_ok h with ⟨bytes, hBytes, h⟩
      split at h
      · cases h
      · rename_i hSize
        rcases except_bind_ok h with ⟨stable, hStable, h⟩
        split at h
        · rename_i hTrue
          cases h
          rw [not_not.mp hNil] at hValid
          rw [hTrue] at hStable
          exact ⟨hValid, hBytes, not_lt.mp hSize, hStable⟩
        · cases h
  · rintro ⟨hValid, hBytes, hSize, hStable⟩
    rw [encodeSample, hValid, ok_bind, if_neg (by simp), hBytes,
      ok_bind, if_neg (not_lt.mpr hSize), hStable]
    rfl

theorem accepts_iff : Accepts room raw sample ↔ raw ≠ [] ∧ raw.length ≤ maxBodyBytes ∧
        loadsBytes room raw = .ok sample ∧
        validateSample sample = .ok [] ∧
        canonicalBytes sample = .ok raw := by
  unfold Accepts
  rw [isCanonical_iff]
  constructor
  · rintro ⟨hParse, hBytes⟩
    unfold parseBody at hParse
    split at hParse
    · cases hParse
    · rename_i hSome
      split at hParse
      · cases hParse
      · rename_i hSize
        split at hParse
        · cases hParse
        · cases hParse
        · rename_i members hLoads
          rcases except_bind_ok hParse with ⟨problems, hValid, hParse⟩
          have hPick := Except.ok.inj hParse
          split at hPick
          · rename_i hNil
            cases hPick
            rw [hNil] at hValid
            exact ⟨hSome, not_lt.mp hSize, hLoads, hValid, hBytes⟩
          · cases hPick
        · cases hParse
  · rintro ⟨hSome, hSize, hLoads, hValid, hBytes⟩
    refine ⟨?_, hBytes⟩
    cases sample with
    | obj members =>
      rw [parseBody, if_neg hSome, if_neg (not_lt.mpr hSize), hLoads]
      simp only
      rw [hValid]
      rfl
    | _ => cases hValid

-- Agreement

variable {agentRoom serverRoom : ℕ}

theorem canonicalBytes_ne_nil (hValid : validateSample sample = .ok [])
    (h : canonicalBytes sample = .ok raw) : raw ≠ [] := by
  rintro rfl
  cases sample with
  | obj members =>
    unfold canonicalBytes at h
    split at h
    · cases h
    · cases h
  | _ => cases hValid

theorem canonical_of_accepts (h : Accepts room raw sample) : canonical sample = sample := by
  rcases accepts_iff.mp h with ⟨_, _, hLoads, _, hBytes⟩
  have hDepth : depth sample ≤ room := by
    unfold loadsBytes at hLoads
    split at hLoads
    · cases hLoads
    · split at hLoads
      · rename_i hText
        cases hLoads
        exact Json.depth_loads hText
      · cases hLoads
  have hBack := loadsBytes_canonicalBytes hBytes hDepth
  rw [hLoads] at hBack
  exact (Except.ok.inj hBack).symm

theorem encodeSample_of_accepts (hAgent : 3 ≤ agentRoom) (h : Accepts serverRoom raw sample) :
    Proper sample ∧ encodeSample agentRoom sample = .ok raw := by
  have hSame := canonical_of_accepts h
  rcases accepts_iff.mp h with ⟨_, hSize, _, hValid, hBytes⟩
  have hProper : Proper sample := by
    rw [← hSame]
    exact Json.proper_reread _
  have hBack : loadsBytes agentRoom raw = .ok sample := by
    rw [loadsBytes_canonicalBytes hBytes ((depth_of_valid hValid hProper).trans hAgent), hSame]
  refine ⟨hProper, ?_⟩
  rw [encodeSample_iff, canonicalRoundtripOk_iff]
  exact ⟨hValid, hBytes, hSize, sample, hBack, hBytes⟩

theorem loadsBytes_of_encodeSample (hServer : 3 ≤ serverRoom) (hProper : Proper sample)
    (h : encodeSample agentRoom sample = .ok raw) :
    loadsBytes serverRoom raw = .ok (canonical sample) := by
  rcases encodeSample_iff.mp h with ⟨hValid, hBytes, _, _⟩
  exact loadsBytes_canonicalBytes hBytes ((depth_of_valid hValid hProper).trans hServer)

theorem accepts_of_encodeSample (hAgent : 3 ≤ agentRoom) (hServer : 3 ≤ serverRoom) (hProper : Proper sample)
    (h : encodeSample agentRoom sample = .ok raw) :
    Accepts serverRoom raw (canonical sample) := by
  have hLoads := loadsBytes_of_encodeSample hServer hProper h
  have hOwn := loadsBytes_of_encodeSample hAgent hProper h
  rcases encodeSample_iff.mp h with ⟨hValid, hBytes, hSize, hStable⟩
  rcases canonicalRoundtripOk_iff.mp hStable with ⟨v, hRead, hAgain⟩
  rw [hOwn] at hRead
  rw [← Except.ok.inj hRead] at hAgain
  exact accepts_iff.mpr ⟨canonicalBytes_ne_nil hValid hBytes, hSize, hLoads,
      validateSample_canonical hValid hProper, hAgain⟩

theorem valueOf_canonical (hValid : validateSample sample = .ok []) (hProper : Proper sample) {key : String}
    (hKey : key ∈ identityKeys) : valueOf (canonical sample) key = valueOf sample key := by
  cases sample with
  | obj members =>
    have hKeys : keysAre members sampleKeys = true := by
      by_contra hNot
      rw [validateSample, if_neg hNot] at hValid
      cases hValid
    rcases hasFields_of_keysAre hKeys with ⟨x, hx⟩
    have hOk := (validateSample_iff hx).mp hValid
    rcases canonical_members (by decide) hKeys hProper.1 with ⟨read, hRead, _, hItems⟩
    have hSame : ∀ {k : String} {v : Json F}, item members k = .ok v → Plain v →
            valueOf (.obj read) k = valueOf (.obj members) k := by
      intro k v hItem hPlain
      have hReadItem := hItems k v hItem
      rw [hPlain.1] at hReadItem
      rw [valueOf, valueOf, getItem_of_item hItem, getItem_of_item hReadItem]
    rw [hRead]
    simp only [identityKeys, List.mem_cons, List.not_mem_nil, or_false] at hKey
    rcases hKey with rfl | rfl | rfl | rfl
    · exact hSame hx.probeId (plain_of_validProbeId hOk.probeId)
    · exact hSame hx.run (plain_of_validRun hOk.run)
    · exact hSame hx.seq (plain_of_validSeq hOk.seq)
    · exact hSame hx.sampleEpoch (plain_of_validSampleEpoch hOk.sampleEpoch)
  | _ => cases hValid

/-
  The gate accepts exactly the encodings of the agent,
  encoding what an accepted body decodes to gives the body
  back, and an encoding determines the identity of its
  sample.  Both interpreters have room for the three
  containers a sample nests.
-/
theorem body_gate_agrees (hAgent : 3 ≤ agentRoom) (hServer : 3 ≤ serverRoom) : (∀ raw,
      (∃ sample : Json F, Accepts serverRoom raw sample) ↔
        ∃ sample : Json F, Proper sample ∧ encodeSample agentRoom sample = .ok raw) ∧
      (∀ raw, (∃ sample : Json F, Accepts serverRoom raw sample) →
          ((loadsBytes serverRoom raw : Except PyError (Json F)) >>= encodeSample agentRoom) = .ok raw) ∧
      (∀ (s t : Json F) raw, Proper s → Proper t → encodeSample agentRoom s = .ok raw →
          encodeSample agentRoom t = .ok raw → ∀ key ∈ identityKeys, valueOf s key = valueOf t key) := by
  refine ⟨?_, ?_, ?_⟩
  · intro raw
    constructor
    · rintro ⟨sample, h⟩
      exact ⟨sample, encodeSample_of_accepts hAgent h⟩
    · rintro ⟨sample, hProper, h⟩
      exact ⟨canonical sample, accepts_of_encodeSample hAgent hServer hProper h⟩
  · rintro raw ⟨sample, h⟩
    rw [(accepts_iff.mp h).2.2.1]
    exact (encodeSample_of_accepts hAgent h).2
  · intro s t raw hs ht hsBytes htBytes key hKey
    have hBoth : canonical s = canonical t := by
      have hFirst := loadsBytes_of_encodeSample hAgent hs hsBytes
      rw [loadsBytes_of_encodeSample hAgent ht htBytes] at hFirst
      exact (Except.ok.inj hFirst).symm
    rw [← valueOf_canonical (encodeSample_iff.mp hsBytes).1 hs hKey,
      ← valueOf_canonical (encodeSample_iff.mp htBytes).1 ht hKey, hBoth]

/- The interpreters' own limit leaves a thousand containers. -/
theorem body_gate_agrees_thousand : (3 ≤ 1000 ∧ 3 ≤ 1000) ∧ ∀ raw,
        (∃ sample : Json (Grid 1), Accepts 1000 raw sample) ↔
          ∃ sample : Json (Grid 1), Proper sample ∧ encodeSample 1000 sample = .ok raw :=
  ⟨by omega, (body_gate_agrees (by omega) (by omega)).1⟩

end SingboxOps.RemoteIngest
