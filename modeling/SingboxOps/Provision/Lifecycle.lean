import SingboxOps.Provision.Attempts

/-
  The steps of the provisioner and its two laws.

  The ledger law holds over every run: what is saved loads, no
  record is lost, and an enrollment that is repeated meets its
  own record.  Revocation is permanent over every run, and it
  is complete in the runs in which no operation is cut between
  its checkpoint and the last key file it has to delete.
-/

namespace SingboxOps.Provision

variable {digest : PyStr → { s : PyStr // hexPattern 64 s = true }}
variable {d : Disk} {env : Env}

-- The Other Operations

theorem resume_spec {s : Slot} (hSound : d.Sound) : Triple (Early d) d (resume env s) (Attempted d) := by
  have hNone : ∀ e, Attempted d (.error e) d := fun e => .error (.refl hSound) e
  unfold resume
  refine Triple.ensure_bind (fun _ => ?_) (fun _ => hNone _)
  refine Triple.ensure_bind (fun _ => ?_) (fun _ => hNone _)
  refine loadBound_bind hSound (fun l hLoaded => ?_) hNone
  cases hRow : l.rowAt s with
  | none => exact Triple.fail (hNone _)
  | some row =>
    have hMem : row ∈ l.records := List.mem_of_find?_eq_some hRow
    refine Triple.ensure_bind (fun _ => ?_) (fun _ => hNone _)
    refine (publish_confirm (.refl hSound) (hLoaded.ledger hMem) ?_).mono (fun _ h => h) (fun _ _ h => h.1)
    intro r hr
    rw [List.mem_singleton.mp hr]
    exact hMem

theorem listing_spec {name : PyStr} {cursor : Option PyStr}
    (hSound : d.Sound) : Triple (Early d) d (listing env name cursor) (Attempted d) := by
  have hNone : ∀ e, Attempted d (.error e) d := fun e => .error (.refl hSound) e
  unfold listing
  refine Triple.ensure_bind (fun _ => ?_) (fun _ => hNone _)
  refine Triple.ensure_bind (fun _ => ?_) (fun _ => hNone _)
  refine Triple.get ?_
  refine Triple.ofExcept_bind (fun state _ => ?_) (fun _ _ => hNone _)
  cases state with
  | none => exact Triple.pure (.answer (.refl hSound) _)
  | some l => exact Triple.pure (.answer (.refl hSound) _)

/-
  An export changes nothing, and what it gives is the material
  of a live record.
-/
theorem exportMaterial_spec (env : Env) (s : Slot)
    (hSound : d.Sound) : Triple (Early d) d (exportMaterial env s) (fun res c =>
      Attempted d res c ∧ c = d ∧ ∀ a, res = .ok a → ∃ m, a = .answer (.material m) ∧
            ∃ r ∈ d.rows, r.desired = .active ∧ m.probeId = r.probeId ∧ m.secret = r.secret) := by
  have hNone : ∀ e : ErrorCode, Attempted d (.error e) d ∧ d = d ∧
          ∀ a : Attempt, Except.error e = .ok a → ∃ m, a = .answer (.material m) ∧
              ∃ r ∈ d.rows, r.desired = .active ∧ m.probeId = r.probeId ∧ m.secret = r.secret :=
    fun e => ⟨.error (.refl hSound) e, rfl, (fun _ h => nomatch h)⟩
  unfold exportMaterial
  refine Triple.ensure_bind (fun _ => ?_) (fun _ => hNone _)
  refine Triple.ensure_bind (fun _ => ?_) (fun _ => hNone _)
  refine loadBound_bind hSound (fun l hLoaded => ?_) hNone
  cases hRow : l.rowAt s with
  | none => exact Triple.fail (hNone _)
  | some row =>
    have hMem : row ∈ l.records := List.mem_of_find?_eq_some hRow
    refine Triple.ensure_bind (fun hLive => ?_) (fun _ => hNone _)
    refine Triple.get ?_
    refine Triple.ofExcept_bind (fun registry _ => ?_) (fun _ _ => hNone _)
    refine Triple.ensure_bind (fun _ => ?_) (fun _ => hNone _)
    refine Triple.ensure_bind (fun _ => ?_) (fun _ => hNone _)
    refine Triple.ensure_bind (fun _ => ?_) (fun _ => hNone _)
    refine Triple.ensure_bind (fun _ => ?_) (fun _ => hNone _)
    refine Triple.pure ⟨.answer (.refl hSound) _, rfl, ?_⟩
    rintro _ ⟨⟩
    refine ⟨_, rfl, row, ?_, ?_, rfl, rfl⟩
    · rw [Disk.rows_of (hLoaded.ledger hMem)]
      exact hMem
    · exact beq_iff_eq.mp (Bool.and_eq_true_iff.mp hLive).1

theorem attempt_spec (digest : PyStr → { s : PyStr // hexPattern 64 s = true }) (env : Env) (call : Call)
    (hSound : d.Sound) : Triple (Early d) d (attempt digest env call) (Attempted d) := by
  cases call with
  | enroll e => exact enroll_spec hSound
  | revoke s =>
    exact (revoke_spec env s hSound).mono (fun _ h => h) (fun _ _ h => h.1)
  | resume s => exact resume_spec hSound
  | list name cursor => exact listing_spec hSound
  | exportMaterial s =>
    exact (exportMaterial_spec env s hSound).mono (fun _ h => h) (fun _ _ h => h.1)

-- After the Checkpoint

/- What a crash after the checkpoint finds. -/
structure Late (d c : Disk) : Prop where
  sound : c.Sound
  progress : Progress d c

theorem Early.late {c : Disk} (h : Early d c) : Late d c := ⟨h.sound, h.progress⟩

/- The key files that are left. -/
def keysLeft (keys : Dict PyStr PyStr) (doomed : List PyStr) : Dict PyStr PyStr :=
  doomed.foldl (fun keys probeId => keys.pop probeId) keys

theorem get_keysLeft (keys : Dict PyStr PyStr) (doomed : List PyStr)
    (probeId : PyStr) :
    (keysLeft keys doomed).get probeId =
      if probeId ∈ doomed then none else keys.get probeId := by
  induction doomed generalizing keys with
  | nil => rfl
  | cons first rest ih =>
    rw [keysLeft, List.foldl_cons]
    change (keysLeft (keys.pop first) rest).get probeId = _
    rw [ih, Dict.get_pop]
    by_cases hRest : probeId ∈ rest
    · rw [if_pos hRest, if_pos (List.mem_cons_of_mem _ hRest)]
    · rw [if_neg hRest]
      by_cases hFirst : first = probeId
      · rw [if_pos hFirst, if_pos (hFirst ▸ List.mem_cons_self)]
      · rw [if_neg hFirst, if_neg]
        exact List.not_mem_cons_of_ne_of_not_mem (Ne.symm hFirst) hRest

/- The checkpoint is saved and some key files are deleted. -/
def Checkpoint.saved (k : Checkpoint) (c : Disk) (deleted : List PyStr) : Disk :=
  { c with
    ledger := some k.ledger
    keys := keysLeft c.keys deleted }

theorem Ended.late {c : Disk} {k : Checkpoint}
    (hEnded : Ended c k) (hEarly : Early d c) (hSize : k.ledger.encodedSize ≤ maxStateBytes)
    (deleted : List PyStr) : Late d (k.saved c deleted) where
  sound := by
    intro l hLedger
    have hSame : k.ledger = l := Option.some.inj hLedger
    exact hSame ▸ ⟨hEnded.sound, hSize⟩
  progress := hEarly.progress.trans ⟨hEnded.grown, fun _ _ _ h => h⟩

/-
  Once the key files that are not deleted yet are not there,
  every verified revocation has lost its key file.
-/
theorem Ended.keysGone {c : Disk} {k : Checkpoint}
    (hEnded : Ended c k) (hKeys : KeysGone c) (deleted : List PyStr)
    (hLeft : ∀ probeId ∈ k.doomed, probeId ∉ deleted → c.keys.get probeId = none) :
    KeysGone (k.saved c deleted) := by
  intro r hr hVerified
  change (keysLeft c.keys deleted).get r.probeId = none
  rw [get_keysLeft]
  by_cases hDeleted : r.probeId ∈ deleted
  · rw [if_pos hDeleted]
  · rw [if_neg hDeleted]
    rcases hEnded.doomed r hr hVerified with hDoomed | hOld
    · exact hLeft _ hDoomed hDeleted
    · rcases hOld with ⟨q, hq, hProbe, hRevoked⟩
      rw [← hProbe]
      exact hKeys q hq hRevoked

theorem deleteKeys_seen (doomed : List PyStr)
    (s : Disk) :
    (deleteKeys doomed).answer s = .ok () ∧
      (deleteKeys doomed).final s = { s with keys := keysLeft s.keys doomed } ∧
      ∀ (j : ℕ) (c : Disk), ((deleteKeys doomed).seen s)[j]? = some c →
          c = { s with
            keys := keysLeft s.keys (doomed.take (j + 1)) } := by
  induction doomed generalizing s with
  | nil => exact ⟨rfl, rfl, fun j c h => nomatch h⟩
  | cons probeId rest ih =>
    rcases ih { s with keys := s.keys.pop probeId } with ⟨hAnswer, hFinal, hSeen⟩
    refine ⟨hAnswer, hFinal, ?_⟩
    intro j c hc
    change ({ s with keys := s.keys.pop probeId } ::
      (deleteKeys rest).seen { s with keys := s.keys.pop probeId })[j]? = some c at hc
    cases j with
    | zero => exact (Option.some.inj hc).symm
    | succ j => exact hSeen j c hc

/-
  The checkpoint cannot be saved, or it is, and then the key
  files go one by one.
-/
theorem settle_cases (k : Checkpoint) (c : Disk) : (maxStateBytes < k.ledger.encodedSize ∧
        (settle k).answer c = .error .capacity ∧
        (settle k).final c = c ∧ (settle k).seen c = []) ∨
      (k.ledger.encodedSize ≤ maxStateBytes ∧ (settle k).answer c = k.after ∧
        (settle k).final c = k.saved c k.doomed ∧
        ∀ (j : ℕ) (c' : Disk), ((settle k).seen c)[j]? = some c' → c' = k.saved c (k.doomed.take j)) := by
  rcases Nat.lt_or_ge maxStateBytes k.ledger.encodedSize with
    hSize | hSize
  · left
    have hSave : save k.ledger = Op.fail .capacity := if_pos hSize
    unfold settle
    rw [hSave]
    exact ⟨hSize, rfl, rfl, rfl⟩
  · right
    have hSave : save k.ledger = Op.change (fun d => { d with ledger := some k.ledger }) :=
      if_neg (not_lt.mpr hSize)
    have hDelete := deleteKeys_seen k.doomed { c with ledger := some k.ledger }
    have hRun : settle k c = (k.after, k.saved c k.doomed, { c with ledger := some k.ledger } ::
              (deleteKeys k.doomed).seen { c with ledger := some k.ledger }) := by
      unfold settle
      rw [hSave]
      rcases hDelete with ⟨hAnswer, hFinal, _⟩
      unfold Op.answer at hAnswer
      unfold Op.final at hFinal
      unfold Op.seen
      rcases hKeys : deleteKeys k.doomed { c with ledger := some k.ledger }
        with ⟨res, last, seen⟩
      rw [hKeys] at hAnswer hFinal
      dsimp only at hAnswer hFinal
      simp only [bind, Op.change, hKeys, hAnswer, hFinal]
      cases k.after with
      | ok r => simp [Op.ofExcept, pure, Checkpoint.saved]
      | error e => simp [Op.ofExcept, Op.fail, Checkpoint.saved]
    unfold Op.answer Op.final Op.seen
    rw [hRun]
    refine ⟨hSize, rfl, rfl, ?_⟩
    intro j c' hc'
    cases j with
    | zero =>
      rw [← Option.some.inj hc', List.take_zero]
      rfl
    | succ j => exact hDelete.2.2 j c' hc'

-- Steps

/-
  An operation is not cut between its checkpoint and the last
  key file it has to delete.
-/
def orderly (digest : PyStr → { s : PyStr // hexPattern 64 s = true }) (d : Disk) (i : Input) : Bool :=
  match i.cut with
  | some (.late j) =>
    match (attempt digest i.env i.call).answer d with
    | .ok (.checkpoint k) =>
      (k.doomed.drop j).all (fun probeId =>
        (((attempt digest i.env i.call).final d).keys.get probeId).isNone)
    | _ => true
  | _ => true

theorem operation_eq (digest : PyStr → { s : PyStr // hexPattern 64 s = true }) (env : Env) (call : Call)
    (d : Disk) :
    ((∃ e, (attempt digest env call).answer d = .error e ∧ (operation digest env call).answer d = .error e) ∧
      (operation digest env call).final d = (attempt digest env call).final d) ∨
      ∃ a, (attempt digest env call).answer d = .ok a ∧ (operation digest env call).answer d =
          (finish a).answer ((attempt digest env call).final d) ∧
        (operation digest env call).final d = (finish a).final ((attempt digest env call).final d) := by
  unfold operation Op.answer Op.final
  simp only [bind]
  rcases hRun : attempt digest env call d with ⟨res, c, seen⟩
  cases res with
  | error e => exact .inl ⟨⟨e, rfl, rfl⟩, rfl⟩
  | ok a => exact .inr ⟨a, rfl, rfl, rfl⟩

/-
  Every step, whole or cut, leaves a sound disk and makes
  progress; an orderly one leaves no key file behind.
-/
theorem step_sound (digest : PyStr → { s : PyStr // hexPattern 64 s = true }) (i : Input) (hSound : d.Sound) :
    Late d (step digest d i).2 ∧ (orderly digest d i = true → KeysGone d → KeysGone (step digest d i).2) := by
  have hSpec := attempt_spec digest i.env i.call hSound
  have hEarly := hSpec.post.1
  unfold step
  rcases hCut : i.cut with _ | cut
  · dsimp only
    rcases operation_eq digest i.env i.call d with ⟨_, hFinal⟩ | ⟨a, hAnswer, _, hFinal⟩
    · rw [hFinal]
      exact ⟨hEarly.late, fun _ => hEarly.keys⟩
    · rw [hFinal]
      cases a with
      | answer r => exact ⟨hEarly.late, fun _ => hEarly.keys⟩
      | checkpoint k =>
        have hEnded := (hSpec.post.2 k hAnswer).2
        change Late d ((settle k).final _) ∧ (_ → _ → KeysGone ((settle k).final _))
        rcases settle_cases k ((attempt digest i.env i.call).final d) with
          ⟨_, _, hSame, _⟩ | ⟨hSize, _, hSaved, _⟩
        · rw [hSame]
          exact ⟨hEarly.late, fun _ => hEarly.keys⟩
        · rw [hSaved]
          refine ⟨hEnded.late hEarly hSize _, ?_⟩
          intro _ hKeys
          exact hEnded.keysGone (hEarly.keys hKeys) _ (fun _ hMem hNot => (hNot hMem).elim)
  · cases cut with
    | early j =>
      dsimp only
      have hSeen : Early d ((d :: (attempt digest i.env i.call).seen d).getD j d) := by
        rw [List.getD_eq_getElem?_getD]
        cases hAt : (d :: (attempt digest i.env i.call).seen d)[j]? with
        | none => exact .refl hSound
        | some c =>
          rcases List.mem_cons.mp (List.mem_of_getElem? hAt) with rfl | hMem
          · exact .refl hSound
          · exact hSpec.seen c hMem
      exact ⟨hSeen.late, fun _ => hSeen.keys⟩
    | late j =>
      dsimp only
      cases hAnswer : (attempt digest i.env i.call).answer d with
      | error e => exact ⟨(Early.refl hSound).late, fun _ h => h⟩
      | ok a =>
        cases a with
        | answer r => exact ⟨(Early.refl hSound).late, fun _ h => h⟩
        | checkpoint k =>
          have hEnded := (hSpec.post.2 k hAnswer).2
          dsimp only
          rw [List.getD_eq_getElem?_getD]
          cases hAt : ((settle k).seen ((attempt digest i.env i.call).final d))[j]? with
          | none => exact ⟨hEarly.late, fun _ => hEarly.keys⟩
          | some c =>
            rcases settle_cases k ((attempt digest i.env i.call).final d)
              with ⟨_, _, _, hNil⟩ | ⟨hSize, _, _, hEach⟩
            · rw [hNil] at hAt
              exact nomatch hAt
            · rw [Option.getD_some, hEach j c hAt]
              refine ⟨hEnded.late hEarly hSize _, ?_⟩
              intro hOrderly hKeys
              refine hEnded.keysGone (hEarly.keys hKeys) _ ?_
              intro probeId hMem hNot
              unfold orderly at hOrderly
              rw [hCut] at hOrderly
              dsimp only at hOrderly
              rw [hAnswer] at hOrderly
              have hRest : probeId ∈ k.doomed.drop j := by
                rw [← List.take_append_drop j k.doomed, List.mem_append] at hMem
                exact hMem.resolve_left hNot
              exact Option.isNone_iff_eq_none.mp (List.all_eq_true.mp hOrderly probeId hRest)

-- Repeated Enrollments

/- An enrollment whose key the ledger knows meets its record. -/
theorem findOrAdd_known {e : Enrollment} {l : Ledger} {r : Row} (hLoaded : Loaded d l) (hr : r ∈ d.rows)
    (hKey : (digest e.idempotencyKey).val = r.enrollment) :
    r ∈ l.records ∧ findOrAdd digest env e l = (do
          Op.ensure (e.sameAs r) .idempotencyConflict
          pure (l, r)) := by
  have hMem : r ∈ l.records := by
    rcases hLoaded.source with hSome | ⟨hNone, _⟩
    · rw [Disk.rows_of hSome] at hr
      exact hr
    · rw [Disk.rows, hNone] at hr
      exact (List.not_mem_nil hr).elim
  refine ⟨hMem, ?_⟩
  unfold findOrAdd
  cases hFind : l.records.find? (fun r => decide (r.enrollment = (digest e.idempotencyKey).val)) with
  | none =>
    have hNot := List.find?_eq_none.mp hFind r hMem
    rw [decide_eq_true_eq] at hNot
    exact (hNot hKey.symm).elim
  | some row =>
    have hRow := List.mem_of_find?_eq_some hFind
    have hSame := List.find?_some hFind
    rw [decide_eq_true_eq] at hSame
    have hEq : row = r := hLoaded.sound.eq_of_enrollment hRow hMem (hSame.trans hKey)
    rw [hEq]

theorem enroll_same (env : Env) {e : Enrollment} {r : Row} (hSound : d.Sound) (hr : r ∈ d.rows)
    (hKey : (digest e.idempotencyKey).val = r.enrollment) :
    Triple (fun _ => True) d (enroll digest env e) (fun res _ => ∀ a, res = .ok a →
        ∃ k p, a = .checkpoint k ∧ k.after = .ok (.device p) ∧ p.probeId = r.probeId) := by
  have hNone : ∀ (e : ErrorCode) (a : Attempt), Except.error e = .ok a →
        ∃ k p, a = .checkpoint k ∧ k.after = .ok (.device p) ∧ p.probeId = r.probeId :=
    fun _ _ h => nomatch h
  unfold enroll
  refine Triple.ensure_bind (fun _ => ?_) (fun _ => hNone _)
  refine Triple.ensure_bind (fun _ => ?_) (fun _ => hNone _)
  refine loadBound_bind hSound (fun l hLoaded => ?_) (fun _ => hNone _)
  rw [(findOrAdd_known hLoaded hr hKey).2]
  refine Triple.bind (Q := fun res (_ : Disk) => ∀ p, res = .ok p → p = (l, r)) ?_ ?_ (fun _ _ _ => hNone _)
  · refine Triple.ensure_bind (fun _ => ?_) (fun _ _ h => nomatch h)
    refine Triple.pure ?_
    rintro _ ⟨⟩
    rfl
  · intro p c hp
    rw [hp p rfl]
    refine Triple.bind (Q := fun _ _ => True) ⟨fun _ _ => trivial, trivial⟩ ?_ (fun _ _ _ => hNone _)
    intro _ c' _
    unfold confirm
    refine Triple.ofExcept_bind (fun confirmed _ => ?_) (fun _ _ => hNone _)
    refine Triple.pure ?_
    rintro _ ⟨⟩
    exact ⟨_, _, rfl, rfl, rfl⟩

theorem enroll_conflict (env : Env) {e : Enrollment} {r : Row} (hSound : d.Sound) (hr : r ∈ d.rows)
    (hKey : (digest e.idempotencyKey).val = r.enrollment)
    (hOther : e.sameAs r = false) : Triple (fun c => c = d) d (enroll digest env e)
      (fun res c => c = d ∧ ∃ code, res = .error code) := by
  unfold enroll
  refine Triple.ensure_bind (fun _ => ?_) (fun _ => ⟨rfl, _, rfl⟩)
  refine Triple.ensure_bind (fun _ => ?_) (fun _ => ⟨rfl, _, rfl⟩)
  refine loadBound_bind hSound (fun l hLoaded => ?_) (fun _ => ⟨rfl, _, rfl⟩)
  rw [(findOrAdd_known hLoaded hr hKey).2, hOther]
  refine Triple.bind (Q := fun res (c : Disk) => c = d ∧ ∃ code, res = .error code) ?_ ?_ ?_
  · exact Triple.ensure_bind (fun h => nomatch h) (fun _ => ⟨rfl, _, rfl⟩)
  · rintro _ _ ⟨_, _, h⟩
    exact nomatch h
  · rintro e' _ ⟨rfl, _⟩
    exact ⟨rfl, e', rfl⟩

-- The Ledger Law

/-
  The ledger that is saved loads; its records stay apart and
  fit together; no step loses one; and the key of a record
  meets that record.
-/
structure LedgerLaw (digest : PyStr → { s : PyStr // hexPattern 64 s = true }) (d : Disk) : Prop where
  loads : ∀ l, d.ledger = some l → load d none = .ok (some l)
  probes : (d.rows.map fun r => r.probeId).Nodup
  enrollments : (d.rows.map fun r => r.enrollment).Nodup
  slots : (d.rows.map fun r => r.slot).Nodup
  verified : ∀ r ∈ d.rows, r.desired = .revoked → r.verified ≠ .active
  epoch : ∀ r ∈ d.rows, r.verified = .pending ↔ r.verifiedEpoch = none
  kept : ∀ (i : Input), ∀ r ∈ d.rows, ∃ r' ∈ (step digest d i).2.rows, r'.toIdentity = r.toIdentity
  same : ∀ r ∈ d.rows, ∀ (e : Enrollment) (env : Env) (cut : Option Cut),
      (digest e.idempotencyKey).val = r.enrollment → ∀ res,
          (step digest d ⟨.enroll e, env, cut⟩).1 = .answered (.ok res) →
            ∃ p, res = .device p ∧ p.probeId = r.probeId
  conflict : ∀ r ∈ d.rows, ∀ (e : Enrollment) (env : Env) (cut : Option Cut),
      (digest e.idempotencyKey).val = r.enrollment → e.sameAs r = false → (∀ res,
            (step digest d ⟨.enroll e, env, cut⟩).1 ≠ .answered (.ok res)) ∧
            (step digest d ⟨.enroll e, env, cut⟩).2 = d

theorem coherent_iff (r : Row) : r.coherent = true ↔ (r.desired = .revoked → r.verified ≠ .active) ∧
        (r.verified = .pending ↔ r.verifiedEpoch = none) := by
  rcases r with ⟨i, desired, verified, epoch⟩
  cases desired <;> cases verified <;> cases epoch <;>
    simp [Row.coherent]

theorem answer_of_checkpoint {call : Call} {res : Response}
    (hRes : (operation digest env call).answer d = .ok res) :
    ∃ a, (attempt digest env call).answer d = .ok a ∧ (a = .answer res ∨
        ∃ k, a = .checkpoint k ∧ k.after = .ok res ∧ (operation digest env call).final d =
            k.saved ((attempt digest env call).final d) k.doomed) := by
  rcases operation_eq digest env call d with ⟨⟨e, _, hError⟩, _⟩ | ⟨a, hAnswer, hSame, hFinal⟩
  · rw [hRes] at hError
    exact nomatch hError
  · refine ⟨a, hAnswer, ?_⟩
    rw [hRes] at hSame
    cases a with
    | answer r =>
      have h : Except.ok res = Except.ok r := hSame
      exact .inl (congrArg Attempt.answer (Except.ok.inj h).symm)
    | checkpoint k =>
      refine .inr ⟨k, rfl, ?_⟩
      rcases settle_cases k ((attempt digest env call).final d) with
        ⟨_, hError, _, _⟩ | ⟨_, hAfter, hSaved, _⟩
      · change Except.ok res = (settle k).answer _ at hSame
        rw [hError] at hSame
        exact nomatch hSame
      · refine ⟨?_, hFinal.trans hSaved⟩
        rw [← hAfter]
        exact hSame.symm

theorem of_answered {i : Input} {r : Except ErrorCode Response} (h : (step digest d i).1 = .answered r) :
    i.cut = none ∧ (operation digest i.env i.call).answer d = r := by
  unfold step at h
  rcases hCut : i.cut with _ | cut
  · rw [hCut] at h
    exact ⟨rfl, Reply.answered.inj h⟩
  · rw [hCut] at h
    cases cut with
    | early j => exact nomatch h
    | late j =>
      dsimp only at h
      split at h
      · exact nomatch h
      · exact nomatch h

theorem Disk.Sound.rows {P : List Row → Prop} (hSound : d.Sound) (hNone : P [])
    (hLedger : ∀ l : Ledger, l.Sound → P l.records) : P d.rows := by
  cases hCase : d.ledger with
  | none =>
    rw [Disk.rows, hCase]
    exact hNone
  | some l =>
    rw [Disk.rows_of hCase]
    exact hLedger l (hSound l hCase).1

theorem ledgerLaw_of_sound (hSound : d.Sound) : LedgerLaw digest d := by
  have hRows : ∀ r ∈ d.rows, ∃ l, d.ledger = some l ∧ l.Sound ∧ l.records = d.rows := by
    intro r hr
    cases hLedger : d.ledger with
    | none =>
      rw [Disk.rows, hLedger] at hr
      exact (List.not_mem_nil hr).elim
    | some l => exact ⟨l, rfl, (hSound l hLedger).1, (Disk.rows_of hLedger).symm⟩
  refine ⟨?_, ?_, ?_, ?_, ?_, ?_, ?_, ?_, ?_⟩
  · intro l hLedger
    have hl := hSound l hLedger
    exact load_of_valid hLedger (hl.1.valid hl.2)
  · exact hSound.rows (P := fun rows => (rows.map fun r => r.probeId).Nodup) .nil fun l hl => hl.probes
  · exact hSound.rows (P := fun rows => (rows.map fun r => r.enrollment).Nodup) .nil
      fun l hl => hl.enrollments
  · exact hSound.rows (P := fun rows => (rows.map fun r => r.slot).Nodup) .nil fun l hl => hl.slots
  · intro r hr
    rcases hRows r hr with ⟨l, _, hl, hSame⟩
    exact ((coherent_iff r).mp (hl.coherent r (hSame ▸ hr))).1
  · intro r hr
    rcases hRows r hr with ⟨l, _, hl, hSame⟩
    exact ((coherent_iff r).mp (hl.coherent r (hSame ▸ hr))).2
  · intro i r hr
    rcases (step_sound digest i hSound).1.progress.grown r hr with ⟨r', hr', hSame, _⟩
    exact ⟨r', hr', hSame⟩
  · intro r hr e env cut hKey res hRes
    rcases answer_of_checkpoint (of_answered hRes).2 with ⟨a, hAnswer, hEnd⟩
    have hPost := (enroll_same env hSound hr hKey).post
    rcases hPost a hAnswer with ⟨k, p, rfl, hAfter, hProbe⟩
    rcases hEnd with h | ⟨k', hSame, hAfter', _⟩
    · cases h
    · cases hSame
      rw [hAfter] at hAfter'
      exact ⟨p, (Except.ok.inj hAfter').symm, hProbe⟩
  · intro r hr e env cut hKey hOther
    have hSpec := enroll_conflict env hSound hr hKey hOther
    rcases hSpec.post with ⟨hFinal, code, hError⟩
    constructor
    · intro res hRes
      rcases answer_of_checkpoint (of_answered hRes).2 with ⟨a, hAnswer, _⟩
      change (enroll digest env e).answer d = .ok a at hAnswer
      rw [hError] at hAnswer
      cases hAnswer
    · unfold step
      cases cut with
      | none =>
        dsimp only
        rcases operation_eq digest env (.enroll e) d with ⟨_, hSame⟩ | ⟨a, hAnswer, _⟩
        · rw [hSame]
          exact hFinal
        · change (enroll digest env e).answer d = .ok a at hAnswer
          rw [hError] at hAnswer
          cases hAnswer
      | some cut =>
        cases cut with
        | early j =>
          change (d :: (enroll digest env e).seen d).getD j d = d
          rw [List.getD_eq_getElem?_getD]
          cases hAt : (d :: (enroll digest env e).seen d)[j]? with
          | none => rfl
          | some c =>
            rcases List.mem_cons.mp (List.mem_of_getElem? hAt) with h | h
            · exact h
            · exact hSpec.seen c h
        | late j =>
          have hError' : (attempt digest env (.enroll e)).answer d = .error code := hError
          dsimp only
          rw [hError']

/- The disks some run of the provisioner leads to. -/
def DiskReachable (digest : PyStr → { s : PyStr // hexPattern 64 s = true })
    (registry : Option (List RegistryRow)) (keys : Dict PyStr PyStr)
    (d : Disk) : Prop :=
  Reachable (step digest) (fun _ _ => True) (Disk.start registry keys) d

theorem start_sound (registry : Option (List RegistryRow))
    (keys : Dict PyStr PyStr) : (Disk.start registry keys).Sound :=
  fun _ h => nomatch h

theorem DiskReachable.sound {registry : Option (List RegistryRow)} {keys : Dict PyStr PyStr}
    (hReach : DiskReachable digest registry keys d) : d.Sound :=
  hReach.invariant (start_sound registry keys) (fun _ i h _ => (step_sound digest i h).1.sound)

/- The ledger law holds in every run, with any cuts. -/
theorem ledger_law (digest : PyStr → { s : PyStr // hexPattern 64 s = true })
    (registry : Option (List RegistryRow)) (keys : Dict PyStr PyStr) (d : Disk)
    (hReach : DiskReachable digest registry keys d) : LedgerLaw digest d :=
  ledgerLaw_of_sound hReach.sound

-- The Revocation Law

/-
  Revocation is permanent: whatever operations follow, the
  record stays revoked and its probe stays out of the registry
  once it is; and no export gives its material.  That its
  secret is not given either takes that no other record has
  drawn the same one.
-/
structure RevocationLaw (digest : PyStr → { s : PyStr // hexPattern 64 s = true })
    (d : Disk) : Prop where
  stays : ∀ r ∈ d.rows, r.desired = .revoked → ∀ is : List Input,
      ∃ r' ∈ (finalState (step digest) d is).rows, r'.toIdentity = r.toIdentity ∧ r'.desired = .revoked
  absent : ∀ r ∈ d.rows, r.desired = .revoked → ¬ d.Publishes r.probeId → ∀ is : List Input,
        ¬ (finalState (step digest) d is).Publishes r.probeId
  notExported : ∀ r ∈ d.rows, r.desired = .revoked → ∀ i s m, i.call = .exportMaterial s →
      (step digest d i).1 = .answered (.ok (.material m)) → m.probeId ≠ r.probeId ∧
          ((∀ q ∈ d.rows, q.secret = r.secret → q = r) → m.secret ≠ r.secret)

/-
  A revocation that succeeds is complete: every record selected
  is verified as revoked, not published, and without key file.
-/
def Complete (digest : PyStr → { s : PyStr // hexPattern 64 s = true }) (d : Disk) (i : Input) : Prop :=
  ∀ s n, i.call = .revoke s → (step digest d i).1 = .answered (.ok (.revoked n)) →
      ∀ r ∈ (step digest d i).2.rows, s.selects r = true →
        r.desired = .revoked ∧ r.verified = .revoked ∧ ¬ (step digest d i).2.Publishes r.probeId ∧
          (step digest d i).2.keys.get r.probeId = none

theorem progress_finalState (digest : PyStr → { s : PyStr // hexPattern 64 s = true }) (hSound : d.Sound)
    (is : List Input) : Progress d (finalState (step digest) d is) := by
  induction is generalizing d with
  | nil => exact .refl d
  | cons i rest ih =>
    have hStep := (step_sound digest i hSound).1
    exact hStep.progress.trans (ih hStep.sound)

theorem revocationLaw_of_sound (hSound : d.Sound) : RevocationLaw digest d := by
  refine ⟨?_, ?_, ?_⟩
  · intro r hr hRevoked is
    rcases (progress_finalState digest hSound is).grown r hr with ⟨r', hr', hSame, hStays⟩
    exact ⟨r', hr', hSame, hStays hRevoked⟩
  · intro r hr hRevoked hAbsent is
    exact (progress_finalState digest hSound is).registry r hr hRevoked hAbsent
  · intro r hr hRevoked i s m hCall hRes
    rcases answer_of_checkpoint (of_answered hRes).2 with ⟨a, hAnswer, hEnd⟩
    have hPost := (exportMaterial_spec i.env s hSound).post
    rw [hCall] at hAnswer
    rcases hPost.2.2 a hAnswer with ⟨m', rfl, q, hq, hActive, hProbe, hSecret⟩
    have hSame : m' = m := by
      rcases hEnd with h | ⟨k, h, _⟩
      · cases h
        rfl
      · exact nomatch h
    rw [hSame] at hProbe hSecret
    have hOther : q ≠ r := by
      intro h
      rw [h, hRevoked] at hActive
      exact Desired.noConfusion hActive
    constructor
    · intro hEq
      cases hLedger : d.ledger with
      | none =>
        rw [Disk.rows, hLedger] at hr
        exact (List.not_mem_nil hr).elim
      | some l =>
        rw [Disk.rows_of hLedger] at hr hq
        exact hOther ((hSound l hLedger).1.eq_of_probe hq hr (hProbe.symm.trans hEq))
    · intro hDistinct hEq
      exact hOther (hDistinct q hq (hSecret.symm.trans hEq))

theorem complete_of_keysGone (i : Input) (hSound : d.Sound) (hKeys : KeysGone d) : Complete digest d i := by
  intro s n hCall hRes r hr hSelected
  rcases of_answered hRes with ⟨hCut, hOperation⟩
  have hFinal : (step digest d i).2 = (operation digest i.env i.call).final d := by
    unfold step
    rw [hCut]
  have hGone : KeysGone (step digest d i).2 := by
    refine (step_sound digest i hSound).2 ?_ hKeys
    unfold orderly
    rw [hCut]
  have hSpec := (revoke_spec i.env s hSound).post
  rcases answer_of_checkpoint hOperation with ⟨a, hAnswer, hEnd⟩
  rcases hEnd with hSame | ⟨k, hSame, hAfter, hSaved⟩
  · -- nothing was ever enrolled
    have hNone : ((attempt digest i.env i.call).final d).ledger = none := by
      rw [hCall]
      rw [hCall] at hAnswer
      exact hSpec.2.1 _ (hAnswer.trans (congrArg Except.ok hSame))
    have hLast : (step digest d i).2 = (attempt digest i.env i.call).final d := by
      rw [hFinal]
      rcases operation_eq digest i.env i.call d with ⟨_, h⟩ | ⟨a', hAnswer', _, h⟩
      · exact h
      · have hEq : a' = a := Except.ok.inj (hAnswer'.symm.trans hAnswer)
        rw [h, hEq, hSame]
        rfl
    rw [hLast, Disk.rows, hNone] at hr
    exact (List.not_mem_nil hr).elim
  · have hCheckpoint : (attempt digest i.env i.call).answer d = .ok (.checkpoint k) :=
      hAnswer.trans (congrArg Except.ok hSame)
    have hEnded := ((attempt_spec digest i.env i.call hSound).post.2 k hCheckpoint).2
    have hRevokes : Revokes s k := by
      refine hSpec.2.2 k ?_
      rw [hCall] at hCheckpoint
      exact hCheckpoint
    have hDisk := hFinal.trans hSaved
    have hMem : r ∈ k.ledger.records := by
      rw [hDisk] at hr
      exact hr
    have hVerified := hRevokes n hAfter r hMem hSelected
    have hDesired := hEnded.sound.settled r hMem hVerified
    refine ⟨hDesired, hVerified, ?_, hGone r hr hVerified⟩
    rw [hDisk]
    exact hEnded.purged r hMem hDesired

/- The disks a run without disorderly cuts leads to. -/
def OrderlyReachable (digest : PyStr → { s : PyStr // hexPattern 64 s = true })
    (registry : Option (List RegistryRow)) (keys : Dict PyStr PyStr)
    (d : Disk) : Prop :=
  Reachable (step digest) (fun d i => orderly digest d i = true) (Disk.start registry keys) d

theorem OrderlyReachable.keysGone {registry : Option (List RegistryRow)} {keys : Dict PyStr PyStr}
    (hReach : OrderlyReachable digest registry keys d) : d.Sound ∧ KeysGone d := by
  refine hReach.invariant (I := fun d => d.Sound ∧ KeysGone d)
    ⟨start_sound registry keys, fun _ h => (List.not_mem_nil h).elim⟩ ?_
  intro d i h hOrderly
  have hStep := step_sound digest i h.1
  exact ⟨hStep.1.sound, hStep.2 hOrderly h.2⟩

/-
  In every run revocation is permanent.  In every run in which
  no operation is cut between its checkpoint and the last key
  file it has to delete, a revocation that succeeds is
  complete.
-/
theorem revocation_law (digest : PyStr → { s : PyStr // hexPattern 64 s = true })
    (registry : Option (List RegistryRow)) (keys : Dict PyStr PyStr)
    (d : Disk) :
    (DiskReachable digest registry keys d → RevocationLaw digest d) ∧
      (OrderlyReachable digest registry keys d → ∀ i, Complete digest d i) := by
  constructor
  · exact fun hReach => revocationLaw_of_sound hReach.sound
  · intro hReach i
    have hInv := hReach.keysGone
    exact complete_of_keysGone i hInv.1 hInv.2

-- Two Devices Revoked Twice

/- The hash of the keys below, `sha256(key).hexdigest()`. -/
def sampleDigest (key : PyStr) : { s : PyStr // hexPattern 64 s = true } :=
  if key = pyStr "enroll-key-000001" then
    ⟨pyStr "1050f4a996ab04b56adad25a4e46616e" ++ pyStr "94c8abf7b443b7a406a7c341e8a75f90", by decide⟩
  else
    ⟨pyStr "fd8bf862192e29366bea0c2ac84189cd" ++ pyStr "3eb1b5ce921d1f5f4e19f548d5452a03", by decide⟩

def sampleBinding : { b : Binding // b.wellFormed = true } := ⟨⟨List.replicate 32 48,
    pyStr "https://192.0.2.1:8443/api/v1/remote-probes/ingest",
    List.replicate 64 49⟩, by decide⟩

theorem hexPattern_replicate (n c : ℕ)
    (hc : (48 ≤ c && c ≤ 57) = true) : hexPattern n (List.replicate n c) = true := by
  simp only [hexPattern, ClientManagement.isRun, Bool.and_eq_true, decide_eq_true_eq, List.length_replicate,
    le_refl, and_true, List.all_eq_true]
  intro x hx
  rw [List.eq_of_mem_replicate hx]
  simp only [Bool.or_eq_true]
  exact .inl hc

/- Everything outside goes well; the texts are of one digit. -/
def sampleEnv (c : ℕ) (hc : (48 ≤ c && c ≤ 57) = true) : Env where
  free := true
  binding := some sampleBinding
  token := ⟨List.replicate 32 c, hexPattern_replicate 32 c hc⟩
  secret := ⟨List.replicate 64 c, hexPattern_replicate 64 c hc⟩
  proof _ := true
  now _ := 1000
  certificateOk := true

def sampleEnrollment (device key : String) : Enrollment :=
  ⟨pyStr "alice", pyStr device, List.replicate 64 50, pyStr key, pyStr "site", pyStr "path"⟩

/- All devices of the client are revoked. -/
def revokeAll (cut : Option Cut) : Input := ⟨.revoke ⟨pyStr "alice", none, none, none⟩,
    sampleEnv 48 (by decide), cut⟩

/- Two devices are enrolled and then revoked. -/
def enrollThenRevoke (cut : Option Cut) : List Input :=
  [⟨.enroll (sampleEnrollment "phone" "enroll-key-000001"), sampleEnv 48 (by decide), none⟩,
    ⟨.enroll (sampleEnrollment "laptop" "enroll-key-000002"), sampleEnv 49 (by decide), none⟩,
    revokeAll cut]

theorem ledger_law_enrollThenRevoke : LedgerLaw sampleDigest
      (finalState (step sampleDigest) (Disk.start none []) (enrollThenRevoke (some (.late 0)))) :=
  ledger_law sampleDigest none [] _ ⟨_, trace_history _ _ _⟩

/- Every step of a run is orderly. -/
def orderlyRun (digest : PyStr → { s : PyStr // hexPattern 64 s = true }) (d : Disk) : List Input → Bool
  | [] => true
  | i :: rest => orderly digest d i && orderlyRun digest (step digest d i).2 rest

theorem reachable_of_orderlyRun {registry : Option (List RegistryRow)} {keys : Dict PyStr PyStr}
    {is : List Input} (hReach : OrderlyReachable digest registry keys d)
    (h : orderlyRun digest d is = true) : OrderlyReachable digest registry keys
      (finalState (step digest) d is) := by
  induction is generalizing d with
  | nil => exact hReach
  | cons i rest ih =>
    rw [orderlyRun, Bool.and_eq_true] at h
    exact ih (hReach.step_of i h.1) h.2

theorem revocation_law_enrollThenRevoke : RevocationLaw sampleDigest
        (finalState (step sampleDigest) (Disk.start none []) (enrollThenRevoke none)) ∧
      Complete sampleDigest (finalState (step sampleDigest) (Disk.start none [])
          (enrollThenRevoke none)) (revokeAll none) :=
  ⟨(revocation_law sampleDigest none [] _).1 ⟨_, trace_history _ _ _⟩,
    (revocation_law sampleDigest none [] _).2 (reachable_of_orderlyRun Reachable.refl (by decide)) _⟩

/-
  The first revocation is cut after its checkpoint; the second
  succeeds, and the first device still has its key file.
-/
theorem cutRevocation_incomplete : ¬ ∀ d, DiskReachable sampleDigest none [] d →
      ∀ i, Complete sampleDigest d i := by
  intro hAll
  have hRun := hAll (finalState (step sampleDigest) (Disk.start none []) (enrollThenRevoke (some (.late 0))))
      ⟨_, trace_history _ _ _⟩ (revokeAll none)
      ⟨pyStr "alice", none, none, none⟩ 2 rfl (by decide +kernel)
  have hLeft : ∃ r ∈ (step sampleDigest (finalState (step sampleDigest) (Disk.start none [])
            (enrollThenRevoke (some (.late 0))))
          (revokeAll none)).2.rows,
        (⟨pyStr "alice", none, none, none⟩ : Selection).selects r = true ∧
          (step sampleDigest (finalState (step sampleDigest) (Disk.start none [])
              (enrollThenRevoke (some (.late 0))))
            (revokeAll none)).2.keys.get r.probeId ≠ none := by
    decide +kernel
  rcases hLeft with ⟨r, hr, hSelected, hKey⟩
  exact hKey (hRun r hr hSelected).2.2.2

end SingboxOps.Provision
