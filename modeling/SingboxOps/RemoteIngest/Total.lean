import SingboxOps.RemoteIngest.BodyGate
import SingboxOps.RemoteStore.Cases

/-
  When the ingest plane answers.

  A request leaves by an exception on three paths: a claimed
  signature outside of ASCII, a body whose JSON nests deeper
  than the reader can follow, and a body whose validation
  converts an integer no float holds or hashes a container.
-/

namespace SingboxOps.RemoteIngest

open PyFloat RemoteProbe

-- Validation

section Validation

variable {F : Type} [FloatText F]

/- An epoch that can be tested for being finite. -/
def EpochFits (epoch : Json F) : Prop := ∀ n, epoch = .int n → |n| < 2 ^ 1024 - 2 ^ 970

/- An entry whose role and source can go into a set. -/
def EntryHashable (entry : Json F) : Prop := ∀ members, entry = .obj members →
    keysAre members activeKeys = true → ∀ v, item members "role" = .ok v ∨ item members "source" = .ok v →
        hashable v = true

/- A list of active entries that are all hashable. -/
def ActiveHashable (active : Json F) : Prop := ∀ entries, active = .arr entries →
    entries.length ≤ maxActiveEntries → ∀ entry ∈ entries, EntryHashable entry

/- A sample whose validation raises nothing. -/
def Checkable (sample : Json F) : Prop := ∀ members x, sample = .obj members → HasFields members x →
    EpochFits x.sampleEpoch ∧ ActiveHashable x.active

theorem validSampleEpoch_answers_iff
    {epoch : Json F} : (∃ b, validSampleEpoch epoch = .ok b) ↔ EpochFits epoch := by
  constructor
  · rintro ⟨b, h⟩ n rfl
    rw [validSampleEpoch] at h
    split at h
    · cases h
    · rename_i hFits
      exact not_le.mp hFits
  · intro h
    unfold validSampleEpoch
    split
    · rename_i n
      have hFits := h n rfl
      exact ⟨_, if_neg (not_le.mpr hFits)⟩
    · exact ⟨_, rfl⟩
    · exact ⟨_, rfl⟩

theorem slotViolations_answers (name : String)
    (slot : Json F) : ∃ problems, slotViolations name slot = .ok problems := by
  unfold slotViolations
  cases slot with
  | obj members =>
    simp only
    split
    · rename_i hKeys
      rcases item_of_keysAre hKeys (show "status" ∈ slotKeys by decide) with ⟨a, ha⟩
      rcases item_of_keysAre hKeys (show "latency_ms" ∈ slotKeys by decide) with ⟨b, hb⟩
      rcases item_of_keysAre hKeys (show "error_code" ∈ slotKeys by decide) with ⟨c, hc⟩
      rw [ha, hb, hc]
      exact ⟨_, rfl⟩
    · exact ⟨_, rfl⟩
  | _ => exact ⟨_, rfl⟩

theorem egressViolations_answers (egress : Json F) : ∃ problems, egressViolations egress = .ok problems := by
  unfold egressViolations
  cases egress with
  | obj members =>
    simp only
    split
    · rename_i hKeys
      rcases slotViolations_answers "egress"
        (.obj (members.filter (fun m => slotKeys.any (fun k => m.1 == pyStr k)))) with
        ⟨slot, hSlot⟩
      rcases item_of_keysAre hKeys (show "ip" ∈ egressKeys by decide) with ⟨a, ha⟩
      rcases item_of_keysAre hKeys (show "change" ∈ egressKeys by decide) with ⟨b, hb⟩
      rcases item_of_keysAre hKeys (show "status" ∈ egressKeys by decide) with ⟨c, hc⟩
      rw [hSlot, ha, hb, hc]
      exact ⟨_, rfl⟩
    · exact ⟨_, rfl⟩
  | _ => exact ⟨_, rfl⟩

theorem mihomoViolations_answers (mihomo : Json F) : ∃ problems, mihomoViolations mihomo = .ok problems := by
  unfold mihomoViolations
  cases mihomo with
  | obj members =>
    simp only
    split
    · rename_i hKeys
      rcases item_of_keysAre hKeys (show "status" ∈ mihomoKeys by decide) with ⟨a, ha⟩
      rw [ha]
      exact ⟨_, rfl⟩
    · exact ⟨_, rfl⟩
  | _ => exact ⟨_, rfl⟩

theorem flagsViolations_answers (flags : Json F) : ∃ problems, flagsViolations flags = .ok problems := by
  unfold flagsViolations
  cases flags with
  | obj members =>
    simp only
    split
    · rename_i hKeys
      rcases item_of_keysAre hKeys (show "truncated" ∈ flagsKeys by decide) with ⟨a, ha⟩
      rcases item_of_keysAre hKeys (show "source_unavailable" ∈ flagsKeys by decide) with ⟨b, hb⟩
      rw [ha, hb]
      exact ⟨_, rfl⟩
    · exact ⟨_, rfl⟩
  | _ => exact ⟨_, rfl⟩

theorem entryViolations_answers_iff {seen : SeenPairs F} {entry : Json F} :
    (∃ result, entryViolations seen entry = .ok result) ↔ EntryHashable entry := by
  unfold entryViolations EntryHashable
  cases entry with
  | obj members =>
    simp only [Json.obj.injEq, forall_eq']
    split
    · rename_i hKeys
      have hItem : ∀ k ∈ activeKeys, ∃ v, item members k = .ok v := fun k hk => item_of_keysAre hKeys hk
      rcases hItem "role" (by decide) with ⟨role, hRole⟩
      rcases hItem "source" (by decide) with ⟨source, hSource⟩
      rcases hItem "outcome" (by decide) with ⟨a, ha⟩
      rcases hItem "delay_ms" (by decide) with ⟨b, hb⟩
      rcases hItem "test_id" (by decide) with ⟨c, hc⟩
      rcases hItem "independent" (by decide) with ⟨d, hd⟩
      rw [hRole, hSource, ha, hb, hc, hd]
      simp only [ok_bind]
      constructor
      · rintro ⟨result, h⟩ _ v hv
        split at h
        · cases h
        · rename_i hHash
          have hBoth : hashable role = true ∧ hashable source = true := by
            simpa using hHash
          rcases hv with hv | hv
          · cases hv
            exact hBoth.1
          · cases hv
            exact hBoth.2
      · intro h
        have hRoleHash := h hKeys role (Or.inl rfl)
        have hSourceHash := h hKeys source (Or.inr rfl)
        rw [hRoleHash, hSourceHash, if_neg (by simp)]
        exact ⟨_, rfl⟩
    · rename_i hKeys
      exact ⟨fun _ hAll => absurd hAll hKeys, fun _ => ⟨_, rfl⟩⟩
  | _ => simp

theorem entriesViolations_answers_iff {entries : List (Json F)} {seen : SeenPairs F} :
    (∃ problems, entriesViolations seen entries = .ok problems) ↔ ∀ entry ∈ entries, EntryHashable entry := by
  induction entries generalizing seen with
  | nil => simp [entriesViolations]
  | cons entry rest ih =>
    rw [entriesViolations]
    constructor
    · rintro ⟨problems, h⟩ e he
      rcases except_bind_ok h with ⟨first, hFirst, h⟩
      rcases except_bind_ok h with ⟨more, hMore, _⟩
      rcases List.mem_cons.mp he with rfl | hRest
      · exact entryViolations_answers_iff.mp ⟨first, hFirst⟩
      · exact ih.mp ⟨more, hMore⟩ e hRest
    · intro h
      rcases entryViolations_answers_iff.mpr (h entry List.mem_cons_self) with ⟨first, hFirst⟩
      have hRest : ∃ problems, entriesViolations first.2 rest = .ok problems :=
        ih.mpr (fun e he => h e (List.mem_cons_of_mem _ he))
      rcases hRest with ⟨more, hMore⟩
      rw [hFirst, ok_bind, hMore]
      exact ⟨_, rfl⟩

theorem activeViolations_answers_iff {active : Json F} :
    (∃ problems, activeViolations active = .ok problems) ↔ ActiveHashable active := by
  unfold activeViolations ActiveHashable
  cases active with
  | arr entries =>
    simp only [Json.arr.injEq, forall_eq']
    split
    · rename_i hMany
      exact ⟨fun _ hFew => absurd hMany (not_lt.mpr hFew), fun _ => ⟨_, rfl⟩⟩
    · rename_i hFew
      rw [entriesViolations_answers_iff]
      exact ⟨fun h _ => h, fun h => h (not_lt.mp hFew)⟩
  | _ => simp

theorem validateSample_answers_iff {sample : Json F} :
    (∃ problems, validateSample sample = .ok problems) ↔ Checkable sample := by
  unfold Checkable
  cases sample with
  | obj members =>
    by_cases hKeys : keysAre members sampleKeys = true
    · rcases hasFields_of_keysAre hKeys with ⟨x, hx⟩
      have hOnly : ∀ y, HasFields members y → y = x := by
        intro y hy
        cases x
        cases y
        have hSame := fun {k : String} {v w : Json F} (hv : item members k = .ok v)
          (hw : item members k = .ok w) => Except.ok.inj (hv.symm.trans hw)
        simp only [SampleFields.mk.injEq]
        exact ⟨hSame hy.v hx.v, hSame hy.probeId hx.probeId, hSame hy.run hx.run, hSame hy.seq hx.seq,
          hSame hy.sampleEpoch hx.sampleEpoch,
          hSame hy.dns hx.dns, hSame hy.https hx.https,
          hSame hy.vpsTcp hx.vpsTcp,
          hSame hy.egress hx.egress,
          hSame hy.mihomoApi hx.mihomoApi,
          hSame hy.active hx.active,
          hSame hy.flags hx.flags⟩
      rcases slotViolations_answers "dns" x.dns with ⟨dns, hDns⟩
      rcases slotViolations_answers "https" x.https with ⟨https, hHttps⟩
      rcases slotViolations_answers "vps_tcp" x.vpsTcp with ⟨vps, hVps⟩
      rcases egressViolations_answers x.egress with ⟨egress, hEgress⟩
      rcases mihomoViolations_answers x.mihomoApi with ⟨api, hApi⟩
      rcases flagsViolations_answers x.flags with ⟨flags, hFlags⟩
      simp only [validateSample, hKeys, if_true, hx.v, hx.probeId,
        hx.run, hx.seq, hx.sampleEpoch, hx.dns, hx.https, hx.vpsTcp,
        hx.egress, hx.mihomoApi, hx.active, hx.flags, ok_bind, hDns,
        hHttps, hVps, hEgress, hApi, hFlags]
      constructor
      · rintro ⟨problems, h⟩ ms y hMs hy
        cases hMs
        rw [hOnly y hy]
        rcases except_bind_ok h with ⟨b, hEpoch, h⟩
        rcases except_bind_ok h with ⟨active, hActive, _⟩
        exact ⟨validSampleEpoch_answers_iff.mp ⟨b, hEpoch⟩, activeViolations_answers_iff.mp ⟨active, hActive⟩⟩
      · intro h
        rcases h members x rfl hx with ⟨hFits, hHash⟩
        rcases validSampleEpoch_answers_iff.mpr hFits with ⟨b, hEpoch⟩
        rcases activeViolations_answers_iff.mpr hHash with ⟨active, hActive⟩
        rw [hEpoch, ok_bind, hActive]
        exact ⟨_, rfl⟩
    · rw [validateSample, if_neg hKeys]
      constructor
      · rintro _ ms y hMs hy
        cases hMs
        exact absurd hy.keys hKeys
      · exact fun _ => ⟨_, rfl⟩
  | _ =>
    constructor
    · intro _ ms y hMs
      cases hMs
    · exact fun _ => ⟨_, rfl⟩

-- Bodies

/-
  A body the plane can parse and validate: what it nests can
  be followed, and what it stands for can be checked.
-/
def BodyReadable (F : Type) [FloatText F] (room : ℕ) (raw : Bytes) : Prop :=
  raw ≠ [] → raw.length ≤ maxBodyBytes → (loadsBytes room raw : Except PyError (Json F)) ≠ .error .recursion ∧
      ∀ sample : Json F, loadsBytes room raw = .ok sample → Checkable sample

theorem loadsBytes_error {room : ℕ} {raw : Bytes} {e : PyError}
    (h : (loadsBytes room raw : Except PyError (Json F)) = .error e) :
    e = .value ∨ e = .recursion := by
  unfold loadsBytes at h
  split at h
  · cases h
    exact Or.inl rfl
  · split at h
    · cases h
    · rename_i e' _
      cases h
      cases e' with
      | value => exact Or.inl rfl
      | recursion => exact Or.inr rfl

theorem parseBody_answers_iff {room : ℕ} {raw : Bytes} :
    (∃ o : Option (Json F), parseBody room raw = .ok o) ↔ BodyReadable F room raw := by
  unfold BodyReadable parseBody
  by_cases hSome : raw = []
  · rw [if_pos hSome]
    exact ⟨fun _ hNe => absurd hSome hNe, fun _ => ⟨_, rfl⟩⟩
  by_cases hSize : maxBodyBytes < raw.length
  · rw [if_neg hSome, if_pos hSize]
    exact ⟨fun _ _ hFits => absurd hSize (not_lt.mpr hFits), fun _ => ⟨_, rfl⟩⟩
  rw [if_neg hSome, if_neg hSize]
  cases hLoads : (loadsBytes room raw : Except PyError (Json F)) with
  | error e =>
    rcases loadsBytes_error hLoads with rfl | rfl
    · simp
    · simp [hSome, not_lt.mp hSize]
  | ok sample =>
    have hReadable : (raw ≠ [] → raw.length ≤ maxBodyBytes →
          (Except.ok sample : Except PyError (Json F)) ≠ .error .recursion ∧ ∀ s : Json F,
              (Except.ok sample : Except PyError (Json F)) = .ok s → Checkable s) ↔
          Checkable sample := by
      constructor
      · intro h
        exact (h hSome (not_lt.mp hSize)).2 sample rfl
      · intro h _ _
        refine ⟨by simp, ?_⟩
        intro s hs
        cases hs
        exact h
    rw [hReadable, ← validateSample_answers_iff]
    cases sample with
    | obj members =>
      constructor
      · rintro ⟨o, h⟩
        rcases except_bind_ok h with ⟨problems, hValid, _⟩
        exact ⟨problems, hValid⟩
      · rintro ⟨problems, hValid⟩
        simp only
        rw [hValid]
        exact ⟨_, rfl⟩
    | _ => exact ⟨fun _ => ⟨_, rfl⟩, fun _ => ⟨_, rfl⟩⟩

theorem isCanonical_answers (sample : Json F) (raw : Bytes) : ∃ b, isCanonical sample raw = .ok b := by
  unfold isCanonical canonicalBytes
  split
  · exact ⟨_, rfl⟩
  · exact ⟨_, rfl⟩
  · rename_i e hNotValue hNotType hBytes
    split at hBytes
    · cases hBytes
    · cases hBytes
      exact absurd rfl hNotValue
  · exact ⟨_, rfl⟩

theorem bodyGate_answers_iff {room : ℕ} {raw : Bytes}
    {c : Claim} : (∃ result : Except String (Json F), bodyGate room raw c = .ok result) ↔
      BodyReadable F room raw := by
  rw [← parseBody_answers_iff]
  unfold bodyGate
  constructor
  · rintro ⟨result, h⟩
    rcases except_bind_ok h with ⟨o, hParse, _⟩
    exact ⟨o, hParse⟩
  · rintro ⟨o, hParse⟩
    rw [hParse, ok_bind]
    cases o with
    | none => exact ⟨_, rfl⟩
    | some sample =>
      simp only
      split
      · exact ⟨_, rfl⟩
      · rcases isCanonical_answers sample raw with ⟨b, hb⟩
        rw [hb, ok_bind]
        split
        · exact ⟨_, rfl⟩
        · exact ⟨_, rfl⟩

/-
  What the gate lets through is an accepted body that names
  the claimed identity.
-/
theorem bodyGate_ok {room : ℕ} {raw : Bytes} {c : Claim} {sample : Json F}
    (h : bodyGate room raw c = .ok (.ok sample)) :
    Accepts room raw sample ∧ matchesClaim sample c = true := by
  unfold bodyGate at h
  rcases except_bind_ok h with ⟨o, hParse, h⟩
  cases o with
  | none => cases h
  | some s =>
    simp only at h
    split at h
    · cases h
    · rename_i hMatch
      rcases except_bind_ok h with ⟨b, hb, h⟩
      split at h
      · rename_i hTrue
        cases h
        rw [hTrue] at hb
        exact ⟨⟨hParse, hb⟩, by simpa using hMatch⟩
      · cases h

theorem bodyGate_code {room : ℕ} {raw : Bytes} {c : Claim} {code : String}
    (h : bodyGate (G := F) room raw c = .ok (.error code)) :
    code = errInvalidBody ∨ code = errNonCanonical := by
  unfold bodyGate at h
  rcases except_bind_ok h with ⟨o, hParse, h⟩
  cases o with
  | none =>
    cases h
    exact Or.inl rfl
  | some s =>
    simp only at h
    split at h
    · cases h
      exact Or.inl rfl
    · rcases except_bind_ok h with ⟨b, hb, h⟩
      split at h
      · cases h
      · cases h
        exact Or.inr rfl

end Validation

-- The Store

section StoreCalls

open RemoteStore

variable {F H : Type} [PyFloat F] {lim : Limits} {sha256 : Bytes → H}
variable {engine : Engine} {a : Attempt F}

theorem savepoint_overflow {newRun : Bool} {t : Tables F H}
    (h : savepoint lim sha256 engine a newRun t = .error .overflow) :
    a.sampleEpoch.bindReal = .error .overflow := by
  have physical : ∀ m, physicalAdmission lim m ≠ .error .overflow := by
    intro m hm
    simp only [physicalAdmission, reserveWorkingSpace] at hm
    split_ifs at hm <;> cases hm
  have inserted : ∀ (p : Prop) [Decidable p] (t₁ : Tables F H), (if p then Except.ok t₁
          else .error StoreError.unavailable) ≠ .error .overflow := by
    intro p _ t₁ hp
    cases except_guard_error hp
  unfold savepoint at h
  rcases except_bind_error h with h | ⟨_, _, h⟩
  · exact absurd h (physical _)
  rcases except_bind_error h with h | ⟨_, _, h⟩
  · unfold admitRun at h
    split_ifs at h
    rcases except_bind_error h with h | ⟨_, _, h⟩
    · exact h
    · exact absurd h (inserted _ _)
  rcases except_bind_error h with h | ⟨_, _, h⟩
  · exact absurd h (inserted _ _)
  rcases except_bind_error h with h | ⟨_, _, h⟩
  · exact h
  rcases except_bind_error h with h | ⟨_, _, h⟩
  · exact absurd h (inserted _ _)
  rcases except_bind_error h with h | ⟨_, _, h⟩
  · exact absurd h (physical _)
  · cases h

/-
  The numbers of an attempt can be bound to a statement
  whenever they get as far.
-/
structure Bindable (a : Attempt F) : Prop where
  seq : SqlInteger a.seq
  fits : a.sampleEpoch.overflows = false
  epoch : ∀ n, a.sampleEpoch = .int n → InWindow a.now n → SqlInteger n

theorem admitNew_ne_overflow {state : Option (RunRow F)} {pruned : ℕ} {t : Tables F H}
    (hBind : a.sampleEpoch.bindReal ≠ .error .overflow) :
    admitNew lim sha256 engine a state pruned t ≠ .error .overflow := by
  intro h
  unfold admitNew at h
  simp only at h
  split at h
  · cases h
  · split at h
    · cases h
    · cases h
    · rename_i hSave
      cases h
      exact hBind (savepoint_overflow hSave)

variable [DecidableEq H]

theorem acceptBody_ne_overflow {t : Tables F H}
    (ha : Bindable a) : acceptBody lim sha256 engine a t ≠ .error .overflow := by
  intro h
  unfold acceptBody at h
  simp only at h
  rw [if_neg (not_not.mpr ha.seq)] at h
  split at h
  · split_ifs at h
  · split at h
    · cases h
    · rename_i epoch hValue
      rw [ha.fits, if_neg Bool.false_ne_true] at h
      split_ifs at h with hNeg hBack hStale hOut
      · apply admitNew_ne_overflow _ h
        intro hBind
        cases hEpoch : a.sampleEpoch with
        | int n =>
          rw [hEpoch] at hBind hValue
          cases hValue
          have hInt := ha.epoch n hEpoch hOut
          rw [SampleEpoch.bindReal, if_pos hInt] at hBind
          cases hBind
        | float x => rw [hEpoch] at hBind; cases hBind
        | invalid => rw [hEpoch] at hBind; cases hBind

theorem accept_ne_overflow {s : Store F H}
    (ha : Bindable a) : (accept lim sha256 engine a s).1 ≠ .error .overflow := by
  have hLocked : (acceptLocked lim sha256 engine a s).1 ≠ .error .overflow := by
    unfold acceptLocked transaction
    cases engine.fault with
    | some f => cases f <;> simp
    | none =>
      simp only
      cases hBody : acceptBody lim sha256 engine a s.tables with
      | error e =>
        intro h
        cases h
        exact acceptBody_ne_overflow ha hBody
      | ok committed =>
        rcases committed with ⟨⟨outcome, n⟩, t'⟩
        intro h
        change outcome = .error .overflow at h
        rcases acceptBody_cases hBody with ⟨hOk, _⟩ | ⟨_, _, hErr⟩
        · rw [hOk] at h
          cases h
        · rcases hErr _ h with hBad | hBad | hBad
          · cases hBad
          · cases hBad
          · cases hBad
  unfold accept
  split
  · unfold acceptRepair transaction
    cases engine.repairFault with
    | some f => cases f <;> simp
    | none => simp
  · exact hLocked

end StoreCalls

end SingboxOps.RemoteIngest
