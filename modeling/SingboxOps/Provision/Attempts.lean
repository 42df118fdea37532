import SingboxOps.Provision.Invariant

/-
  Every operation, up to its checkpoint and after it.
-/

namespace SingboxOps.Provision

open ClientManagement (isRun probePattern)

variable {digest : PyStr → { s : PyStr // hexPattern 64 s = true }}
variable {d : Disk} {env : Env}

-- Loading

/- A ledger an operation works on: the durable one, or none yet. -/
structure Loaded (d : Disk) (l : Ledger) : Prop where
  sound : l.Sound
  source : d.ledger = some l ∨ (d.ledger = none ∧ l.records = [])

theorem Loaded.ledger {l : Ledger} (h : Loaded d l) {r : Row} (hr : r ∈ l.records) : d.ledger = some l := by
  rcases h.source with hSome | ⟨_, hNone⟩
  · exact hSome
  · rw [hNone] at hr
    exact (List.not_mem_nil hr).elim

theorem Loaded.grown {l : Ledger} (h : Loaded d l) : Grown d.rows l.records := by
  rcases h.source with hSome | ⟨hNone, _⟩
  · rw [Disk.rows_of hSome]
    exact .refl _
  · rw [Disk.rows, hNone]
    exact fun _ hr => (List.not_mem_nil hr).elim

theorem sound_empty {b : Binding} (h : b.wellFormed = true) : (⟨b, []⟩ : Ledger).Sound where
  count := Nat.zero_le _
  binding := h
  wellFormed _ hr := (List.not_mem_nil hr).elim
  coherent _ hr := (List.not_mem_nil hr).elim
  settled _ hr := (List.not_mem_nil hr).elim
  probes := .nil
  enrollments := .nil
  slots := .nil

theorem load_ok {binding : Option Binding} {state : Option Ledger} (h : load d binding = .ok state) :
    (d.ledger = none ∧ state = binding.map (fun b => ⟨b, []⟩)) ∨
      (d.ledger.isSome = true ∧ state = d.ledger) := by
  unfold load at h
  cases hLedger : d.ledger with
  | none =>
    rw [hLedger] at h
    exact .inl ⟨rfl, (Except.ok.inj h).symm⟩
  | some l =>
    rw [hLedger] at h
    dsimp only at h
    cases hCheck : checkLedger binding l with
    | error e =>
      rw [hCheck] at h
      exact nomatch h
    | ok l' =>
      rw [hCheck] at h
      refine .inr ⟨rfl, ?_⟩
      rw [← (valid_of_checkLedger hCheck).1]
      exact (Except.ok.inj h).symm

theorem loadBound_bind {α : Type} {J : Disk → Prop} {x : Ledger → Action α}
    {Q : Except ErrorCode α → Disk → Prop} (hSound : d.Sound)
    (hOk : ∀ l, Loaded d l → Triple J d (x l) Q)
    (hError : ∀ e, Q (.error e) d) : Triple J d (loadBound env >>= x) Q := by
  refine Triple.bind (Q := fun res c => c = d ∧ ∀ l, res = .ok l → Loaded d l) ?_ ?_ ?_
  · unfold loadBound
    refine Triple.ofExcept_bind ?_ (fun _ _ => ⟨rfl, fun _ h => nomatch h⟩)
    intro b hBinding
    refine Triple.get ?_
    refine Triple.ofExcept_bind ?_ (fun _ _ => ⟨rfl, fun _ h => nomatch h⟩)
    intro state hState
    refine Triple.pure ⟨rfl, ?_⟩
    rintro _ ⟨⟩
    have hFormed : b.wellFormed = true := by
      unfold readBinding at hBinding
      cases hEnv : env.binding with
      | none =>
        rw [hEnv] at hBinding
        exact nomatch hBinding
      | some bound =>
        rw [hEnv] at hBinding
        rw [← Except.ok.inj hBinding]
        exact bound.property
    rcases load_ok hState with ⟨hNone, hEmpty⟩ | ⟨hSome, hSame⟩
    · rw [hEmpty]
      exact ⟨sound_empty hFormed, .inr ⟨hNone, rfl⟩⟩
    · rcases Option.isSome_iff_exists.mp hSome with ⟨l, hLedger⟩
      rw [hSame, hLedger]
      exact ⟨(hSound l hLedger).1, .inl hLedger⟩
  · rintro l _ ⟨rfl, hLoaded⟩
    exact hOk l (hLoaded l rfl)
  · rintro e _ ⟨rfl, _⟩
    exact hError e

theorem save_bind {α : Type} {J : Disk → Prop} {l : Ledger} {c : Disk}
    {x : Unit → Action α} {Q : Except ErrorCode α → Disk → Prop}
    (hSaved : l.encodedSize ≤ maxStateBytes →
        J { c with ledger := some l } ∧ Triple J { c with ledger := some l } (x ()) Q)
    (hLarge : maxStateBytes < l.encodedSize → Q (.error .capacity) c) :
    Triple J c (save l >>= x) Q := by
  unfold save
  by_cases hSize : maxStateBytes < l.encodedSize
  · rw [if_pos hSize]
    refine Triple.bind (Q := fun res c' => res = .error .capacity ∧ c' = c)
      (Triple.fail ⟨rfl, rfl⟩) (fun _ _ h => nomatch h.1) ?_
    rintro e _ ⟨h, rfl⟩
    rw [Except.error.inj h]
    exact hLarge hSize
  · rw [if_neg hSize]
    have hRest := hSaved (not_lt.mp hSize)
    exact Triple.change_bind hRest.1 hRest.2

-- Attempts

/-
  What an attempt ends with: it was early, and a checkpoint
  goes on from a durable ledger.
-/
def Attempted (d : Disk) (res : Except ErrorCode Attempt) (c : Disk) : Prop :=
  Early d c ∧ ∀ k, res = .ok (.checkpoint k) → (∃ l, c.ledger = some l) ∧ Ended c k

theorem Attempted.error {c : Disk} (h : Early d c) (e : ErrorCode) : Attempted d (.error e) c :=
  ⟨h, fun _ h => nomatch h⟩

theorem Attempted.answer {c : Disk} (h : Early d c) (r : Response) : Attempted d (.ok (.answer r)) c :=
  ⟨h, fun _ h => nomatch h⟩

/-
  Publishing a durable ledger and confirming some of its
  records.  What the checkpoint says of them goes into `P`.
-/
theorem publish_confirm {c : Disk} {l : Ledger} {rows : List Row}
    {after : Except ErrorCode Response} (hEarly : Early d c) (hLedger : c.ledger = some l)
    (hRows : rows ⊆ l.records) : Triple (Early d) c (publish l >>= fun _ => confirm env l rows after)
      (fun res c' =>
        Attempted d res c' ∧ ∀ a, res = .ok a → ∃ k f, a = .checkpoint k ∧ k.after = after ∧
              Confirms (rows.map fun r => r.probeId) f ∧
              k.ledger = l.mapRows f) := by
  have hPublish := (publish_spec (l := l) (s := c)).mono
      (fun _ h => hEarly.trans (Early.published hEarly.sound hLedger h))
      (fun _ _ h => h)
  refine Triple.bind hPublish ?_ ?_
  · rintro _ c1 ⟨hPublished, hPurged⟩
    have hEarly1 : Early d c1 := hEarly.trans (Early.published hEarly.sound hLedger hPublished)
    have hLedger1 : c1.ledger = some l := hPublished.ledger.trans hLedger
    have hPurged1 : Purged l c c1 := hPurged rfl
    have hPurgedSame : Purged l c1 c1 := ⟨hPurged1.own, fun e he _ => he⟩
    refine (confirm_spec hEarly1 hLedger1 hRows hPurgedSame).mono (fun _ h => h) ?_
    rintro res _ ⟨rfl, hOk⟩
    refine ⟨⟨hEarly1, ?_⟩, ?_⟩
    · intro k hk
      rcases hOk _ hk with ⟨k', f, hSame, _, _, _, hEnded⟩
      cases hSame
      exact ⟨⟨l, hLedger1⟩, hEnded⟩
    · intro a ha
      rcases hOk a ha with ⟨k, f, hSame, hAfter, hf, hMap, _⟩
      exact ⟨k, f, hSame, hAfter, hf, hMap⟩
  · rintro e c1 ⟨hPublished, _⟩
    exact ⟨.error (hEarly.trans (Early.published hEarly.sound hLedger hPublished)) e, fun _ h => nomatch h⟩

-- Enrollment

theorem probePattern_token {token : PyStr}
    (h : hexPattern 32 token = true) : probePattern (pyStr "p6-" ++ token) = true := by
  simp only [hexPattern, isRun, Bool.and_eq_true, decide_eq_true_eq] at h
  simp only [probePattern, isRun, Bool.and_eq_true, decide_eq_true_eq]
  have hPrefix : pyStr "p6-" = [112, 54, 45] := rfl
  rw [hPrefix]
  refine ⟨⟨?_, ?_⟩, ?_⟩
  · rw [List.all_append, Bool.and_eq_true]
    refine ⟨rfl, List.all_eq_true.mpr ?_⟩
    intro c hc
    have hHex := List.all_eq_true.mp h.1.1 c hc
    simp only [Bool.or_eq_true, Bool.and_eq_true, decide_eq_true_eq, beq_iff_eq] at hHex ⊢
    omega
  · rw [List.length_append, List.length_cons]
    omega
  · rw [List.length_append]
    have hLength : [112, 54, 45].length = 3 := rfl
    omega

theorem newRow_wellFormed {e : Enrollment}
    (h : e.wellFormed = true) : (newRow digest env e).wellFormed = true := by
  simp only [Enrollment.wellFormed, Bool.and_eq_true] at h
  simp only [newRow, Identity.wellFormed, Bool.and_eq_true]
  exact ⟨⟨⟨⟨⟨⟨⟨h.1.1.1.1.1, h.1.1.1.1.2⟩, h.1.1.1.2⟩, (digest e.idempotencyKey).property⟩,
    probePattern_token env.token.property⟩,
    env.secret.property⟩, h.1.2⟩, h.2⟩

theorem addRow_spec {e : Enrollment} {l : Ledger}
    (hSound : d.Sound) (hLoaded : Loaded d l) (hFormed : e.wellFormed = true)
    (hNew : ∀ r ∈ l.records, r.enrollment ≠ (digest e.idempotencyKey).val) :
    Triple (Early d) d (addRow digest env e l) (fun res c =>
      Early d c ∧ ∀ p, res = .ok p → c.ledger = some p.1 ∧ p.2 ∈ p.1.records) := by
  have hNone : ∀ e : ErrorCode, Early d d ∧ ∀ p : Ledger × Row, Except.error e = .ok p →
            d.ledger = some p.1 ∧ p.2 ∈ p.1.records :=
    fun _ => ⟨.refl hSound, fun _ h => nomatch h⟩
  unfold addRow
  refine Triple.ensure_bind (fun hSlot => ?_) (fun _ => hNone _)
  refine Triple.ensure_bind (fun hCount => ?_) (fun _ => hNone _)
  refine Triple.get ?_
  refine Triple.ofExcept_bind (fun registry _ => ?_) (fun _ _ => hNone _)
  refine Triple.ensure_bind (fun _ => ?_) (fun _ => hNone _)
  refine Triple.ensure_bind (fun hFresh => ?_) (fun _ => hNone _)
  have hGrownSound : ({ l with records := l.records ++ [newRow digest env e] } : Ledger).Sound := by
    refine hLoaded.sound.append (of_decide_eq_true hCount)
      (newRow_wellFormed hFormed) ⟨rfl, rfl, rfl⟩ ?_ hNew ?_
    · simp only [isFresh, Bool.and_eq_true] at hFresh
      exact of_decide_eq_true hFresh.1.1
    · intro r hr hSame
      have hOther := List.all_eq_true.mp hSlot r hr
      simp only [Identity.slot, newRow, Prod.mk.injEq] at hSame
      simp only [hSame.1, hSame.2.1, hSame.2.2, beq_self_eq_true, Bool.and_self, Bool.not_true] at hOther
      exact Bool.noConfusion hOther
  refine save_bind ?_ (fun _ => hNone _)
  intro hSize
  have hEarly : Early d
        { d with
          ledger :=
            some
              { l with
                records := l.records ++ [newRow digest env e] } } := by
    refine Early.save hGrownSound hSize (hLoaded.grown.trans (Grown.append _ _)) ?_
    intro r hr hVerified
    rcases List.mem_append.mp hr with hr | hr
    · rw [Disk.rows_of (hLoaded.ledger hr)]
      exact ⟨r, hr, rfl, hVerified⟩
    · rw [List.mem_singleton.mp hr] at hVerified
      exact Verified.noConfusion hVerified
  refine ⟨hEarly, Triple.pure ⟨hEarly, ?_⟩⟩
  rintro _ ⟨⟩
  exact ⟨rfl, List.mem_append_right _ List.mem_cons_self⟩

theorem findOrAdd_spec {e : Enrollment} {l : Ledger} (hSound : d.Sound) (hLoaded : Loaded d l)
    (hFormed : e.wellFormed = true) :
    Triple (Early d) d (findOrAdd digest env e l) (fun res c =>
      Early d c ∧ ∀ p, res = .ok p → c.ledger = some p.1 ∧ p.2 ∈ p.1.records) := by
  unfold findOrAdd
  cases hFind : l.records.find? (fun r => decide (r.enrollment = (digest e.idempotencyKey).val)) with
  | none =>
    refine addRow_spec hSound hLoaded hFormed ?_
    intro r hr
    have hNot := List.find?_eq_none.mp hFind r hr
    rw [decide_eq_true_eq] at hNot
    exact hNot
  | some row =>
    have hRow := List.mem_of_find?_eq_some hFind
    refine Triple.ensure_bind (fun _ => ?_) (fun _ => ⟨.refl hSound, fun _ h => nomatch h⟩)
    refine Triple.pure ⟨.refl hSound, ?_⟩
    rintro _ ⟨⟩
    exact ⟨hLoaded.ledger hRow, hRow⟩

theorem enroll_spec {e : Enrollment}
    (hSound : d.Sound) : Triple (Early d) d (enroll digest env e) (Attempted d) := by
  have hNone : ∀ e, Attempted d (.error e) d := fun e => .error (.refl hSound) e
  unfold enroll
  refine Triple.ensure_bind (fun hFormed => ?_) (fun _ => hNone _)
  refine Triple.ensure_bind (fun _ => ?_) (fun _ => hNone _)
  refine loadBound_bind hSound (fun l hLoaded => ?_) hNone
  refine Triple.bind (findOrAdd_spec hSound hLoaded hFormed) ?_ ?_
  · rintro ⟨l', row⟩ c ⟨hEarly, hOk⟩
    rcases hOk _ rfl with ⟨hLedger, hRow⟩
    refine (publish_confirm hEarly hLedger ?_).mono (fun _ h => h) (fun _ _ h => h.1)
    intro r hr
    rw [List.mem_singleton.mp hr]
    exact hRow
  · rintro e c ⟨hEarly, _⟩
    exact .error hEarly e

-- Revocation

/- The intent of a revocation, record by record. -/
def Selection.intent (s : Selection) (r : Row) : Row := if s.selects r then r.revoke else r

theorem keeps_intent (s : Selection) : Keeps s.intent where
  identity r := by
    unfold Selection.intent Row.revoke
    split
    · split <;> rfl
    · rfl
  coherent r h := by
    unfold Selection.intent Row.revoke
    split
    · split
      · exact h
      · rfl
    · exact h
  settled r h := by
    unfold Selection.intent Row.revoke
    split
    · split
      · exact h
      · exact fun _ => rfl
    · exact h
  revoked r h := by
    unfold Selection.intent Row.revoke
    rw [if_pos h, ite_self]
    exact h

theorem desired_intent {s : Selection} {r : Row}
    (h : s.selects r = true) : (s.intent r).desired = .revoked := by
  unfold Selection.intent Row.revoke
  rw [if_pos h]
  split
  · assumption
  · rfl

theorem selects_congr (s : Selection) {r q : Row}
    (h : r.toIdentity = q.toIdentity) : s.selects r = s.selects q := by
  unfold Selection.selects
  rw [h]

/-
  What a revocation that is about to succeed has confirmed:
  every selected record is verified as revoked.
-/
def Revokes (s : Selection) (k : Checkpoint) : Prop := ∀ n, k.after = .ok (.revoked n) →
    ∀ r ∈ k.ledger.records, s.selects r = true → r.verified = .revoked

theorem revokes_of_confirms {s : Selection} {intent : Ledger} {f : Row → Row} {k : Checkpoint}
    (hSound : intent.Sound)
    (hDesired : ∀ r ∈ intent.records, s.selects r = true → r.desired = .revoked)
    (hf : Confirms ((if ((intent.records.filter s.selects).filter
              (fun r => r.verified == .pending)).isEmpty then
            (intent.records.filter s.selects).getLast?.toList
          else
            ((intent.records.filter s.selects).filter (fun r => r.verified == .pending)).take
                maxConfirmations).map fun r => r.probeId) f)
    (hMap : k.ledger = intent.mapRows f)
    (hAfter : k.after =
        if maxConfirmations <
            ((intent.records.filter s.selects).filter (fun r => r.verified == .pending)).length then
          .error .confirmPending
        else .ok (.revoked (intent.records.filter s.selects).length)) :
    Revokes s k := by
  intro n hOk r hr hSelected
  rw [hMap] at hr
  rcases List.mem_map.mp hr with ⟨q, hq, rfl⟩
  have hSelectedQ : s.selects q = true := by
    rw [← selects_congr s (hf.identity q)]
    exact hSelected
  have hRevoked := hDesired q hq hSelectedQ
  have hMem : q ∈ intent.records.filter s.selects := List.mem_filter.mpr ⟨hq, hSelectedQ⟩
  rcases hf.verified q with ⟨_, hV⟩ | ⟨hNot, hSame⟩
  · rw [hV, hRevoked]
    rfl
  · rw [hSame]
    cases hVerified : q.verified with
    | revoked => rfl
    | active =>
      have hCoherent := hSound.coherent q hq
      rw [Row.coherent, hRevoked, hVerified] at hCoherent
      exact Bool.noConfusion hCoherent
    | pending =>
      -- a pending record is in the batch that was confirmed
      have hPending : q ∈ (intent.records.filter s.selects).filter (fun r => r.verified == .pending) := by
        refine List.mem_filter.mpr ⟨hMem, ?_⟩
        rw [hVerified]
        rfl
      have hFew : ¬ maxConfirmations < ((intent.records.filter s.selects).filter
              (fun r => r.verified == .pending)).length := by
        intro hMany
        rw [if_pos hMany, hOk] at hAfter
        cases hAfter
      rw [if_neg] at hNot
      · rw [List.take_of_length_le (not_lt.mp hFew)] at hNot
        exact (hNot (List.mem_map_of_mem (f := fun r : Row => r.probeId) hPending)).elim
      · intro hEmpty
        rw [List.isEmpty_iff.mp hEmpty] at hPending
        exact List.not_mem_nil hPending

/-
  What a revocation ends with: nothing to do, or a checkpoint
  in which every selected record is verified as revoked.
-/
def RevokeAttempted (d : Disk) (s : Selection) (res : Except ErrorCode Attempt) (c : Disk) : Prop :=
  Attempted d res c ∧ (∀ r, res = .ok (.answer r) → c.ledger = none) ∧
    ∀ k, res = .ok (.checkpoint k) → Revokes s k

theorem revoke_spec (env : Env) (s : Selection)
    (hSound : d.Sound) : Triple (Early d) d (revoke env s) (RevokeAttempted d s) := by
  have hNone : ∀ e, RevokeAttempted d s (.error e) d :=
    fun e => ⟨.error (.refl hSound) e, (fun _ h => nomatch h), (fun _ h => nomatch h)⟩
  unfold revoke
  refine Triple.ensure_bind (fun _ => ?_) (fun _ => hNone _)
  refine Triple.ensure_bind (fun _ => ?_) (fun _ => hNone _)
  refine Triple.get ?_
  refine Triple.ofExcept_bind (fun state hState => ?_) (fun _ _ => hNone _)
  cases state with
  | none =>
    refine Triple.ensure_bind (fun _ => ?_) (fun _ => hNone _)
    refine Triple.pure ⟨.answer (.refl hSound) _, ?_, fun _ h => nomatch h⟩
    intro _ _
    rcases load_ok hState with ⟨h, _⟩ | ⟨hSome, h⟩
    · exact h
    · rw [← h] at hSome
      exact nomatch hSome
  | some l =>
    have hLedger : d.ledger = some l := by
      rcases load_ok hState with ⟨_, h⟩ | ⟨_, h⟩
      · exact nomatch h
      · exact h.symm
    have hIntent : l.revoke s = l.mapRows s.intent := rfl
    have hIntentSound : (l.revoke s).Sound := hIntent ▸ (hSound l hLedger).1.mapRows (keeps_intent s)
    refine Triple.ensure_bind (fun _ => ?_) (fun _ => hNone _)
    refine save_bind ?_ (fun _ => hNone _)
    intro hSize
    have hEarly : Early d { d with ledger := some (l.revoke s) } := by
      refine Early.save hIntentSound hSize ?_ ?_
      · rw [Disk.rows_of hLedger, hIntent]
        exact .mapRows (keeps_intent s) l
      · rw [Disk.rows_of hLedger, hIntent]
        intro r hr hVerified
        rcases List.mem_map.mp hr with ⟨q, hq, rfl⟩
        refine ⟨q, hq, ?_, ?_⟩
        · rw [(keeps_intent s).identity q]
        · unfold Selection.intent Row.revoke at hVerified
          split at hVerified
          · split at hVerified
            · exact hVerified
            · exact Verified.noConfusion hVerified
          · exact hVerified
    refine ⟨hEarly, ?_⟩
    have hDesired : ∀ r ∈ (l.revoke s).records, s.selects r = true → r.desired = .revoked := by
      rw [hIntent]
      intro r hr hSelected
      rcases List.mem_map.mp hr with ⟨q, hq, rfl⟩
      rw [selects_congr s ((keeps_intent s).identity q)] at hSelected
      exact desired_intent hSelected
    refine (publish_confirm hEarly rfl ?_).mono (fun _ h => h) ?_
    · intro r hr
      split at hr
      · exact List.mem_of_mem_filter (List.mem_of_getLast? (Option.mem_toList.mp hr))
      · exact List.mem_of_mem_filter (List.mem_of_mem_filter (List.mem_of_mem_take hr))
    · rintro res c ⟨hAttempted, hOk⟩
      refine ⟨hAttempted, ?_, ?_⟩
      · intro r hr
        rcases hOk _ hr with ⟨k, _, hSame, _⟩
        exact nomatch hSame
      · intro k hk
        rcases hOk _ hk with ⟨k', f, hSame, hAfter, hf, hMap⟩
        cases hSame
        exact revokes_of_confirms hIntentSound hDesired hf hMap hAfter

end SingboxOps.Provision
