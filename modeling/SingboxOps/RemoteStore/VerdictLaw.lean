import SingboxOps.RemoteStore.Cases

/-
  The verdict a retained receipt determines, and what a call
  that accepts nothing leaves behind.
-/

namespace SingboxOps.RemoteStore

open PyFloat

variable {F H : Type} [PyFloat F] [DecidableEq H]

-- Receipt Keys

/- Receipts have distinct keys with bindable sequences. -/
structure ReceiptKeys (t : Tables F H) : Prop where
  nodup : (t.receipts.map ReceiptRow.key).Nodup
  integer : ∀ p ∈ t.receipts, SqlInteger p.seq

theorem receiptKeys_prune {lim : Limits} {now : F} {prospective : ℤ} {t : Tables F H}
    (hKeys : ReceiptKeys t) : ReceiptKeys (prune lim now prospective t).1 := by
  constructor
  · rw [prune_receipts]
    exact hKeys.nodup.sublist (List.filter_sublist.map ReceiptRow.key)
  · intro p hp
    exact hKeys.integer p (mem_prune_receipts.mp hp).1

theorem receiptKeys_admitted {lim : Limits} {sha256 : Bytes → H} {engine : Engine}
    {a : Attempt F} {epoch : ℚ} {t t' : Tables F H} (hKeys : ReceiptKeys t)
    (hAdmitted : Admitted lim sha256 engine a epoch t t') : ReceiptKeys t' := by
  rcases hAdmitted.inserted with ⟨n, hAdmit⟩
  rcases savepoint_ok hAdmit with ⟨stored, t₁, _, rfl, _, _, _, _, _, _, rfl⟩
  apply receiptKeys_prune
  have hFirst : ReceiptKeys (prune lim a.now (a.body.length + sampleRowCharge) t).1 := receiptKeys_prune hKeys
  constructor
  · rw [List.map_append, List.map_singleton]
    refine List.Nodup.append hFirst.nodup (List.nodup_singleton _) ?_
    intro key hKey hNew
    rw [List.mem_singleton.mp hNew] at hKey
    rcases List.mem_map.mp hKey with ⟨p, hp, hEq⟩
    exact hAdmitted.noReceipt p (mem_prune_receipts.mp hp).1 hEq
  · intro p hp
    rcases List.mem_append.mp hp with hOld | hNew
    · exact hFirst.integer p hOld
    · rw [List.mem_singleton.mp hNew]
      exact hAdmitted.seqInteger

theorem receiptKeys_reachable {lim : Limits} {sha256 : Bytes → H}
    {guard : Store F H → Call F → Prop} {s : Store F H}
    (hReach : Reachable (step lim sha256) guard Store.empty s) : ReceiptKeys s.tables :=
  reachable_tables ⟨List.nodup_nil, fun _ hp => by cases hp⟩
    (fun _ _ _ hKeys => receiptKeys_prune hKeys)
    (fun _ _ _ _ _ hKeys => ⟨hKeys.nodup, hKeys.integer⟩)
    (fun _ _ _ _ _ _ hKeys hAdmitted =>
      receiptKeys_admitted (receiptKeys_prune hKeys) hAdmitted)
    hReach

-- The Verdict of a Receipt

/- The verdict a stored receipt gives a body. -/
def receiptVerdict (sha256 : Bytes → H) (p : ReceiptRow F H) (body : Bytes) : Verdict :=
  if p.bodyHash = sha256 body then .duplicate
  else .equivocation

theorem find?_receipt {receipts : List (ReceiptRow F H)} {p : ReceiptRow F H}
    (hNodup : (receipts.map ReceiptRow.key).Nodup)
    (hp : p ∈ receipts) : receipts.find? (fun q => q.key == p.key) = some p := by
  induction receipts with
  | nil => cases hp
  | cons q rest ih =>
    rw [List.map_cons, List.nodup_cons] at hNodup
    rcases List.mem_cons.mp hp with rfl | hRest
    · simp
    · have hNe : q.key ≠ p.key := by
        intro hEq
        apply hNodup.1
        rw [hEq]
        exact List.mem_map_of_mem hRest
      rw [List.find?_cons_of_neg (by simpa using hNe)]
      exact ih hNodup.2 hRest

/- A committed call answers by the retained receipt alone. -/
theorem accept_of_receipt {lim : Limits} {sha256 : Bytes → H} {engine : Engine}
    {a : Attempt F} {s : Store F H} {p : ReceiptRow F H} (hKeys : ReceiptKeys s.tables)
    (hp : p ∈ (prune lim a.now 0 s.tables).1.receipts)
    (hKey : p.key = (a.probeId, a.run, a.seq))
    (hEngine : engine.fault = none) :
    (accept lim sha256 engine a s).1 = .ok (receiptVerdict sha256 p a.body) := by
  have hPruned : ReceiptKeys (prune lim a.now 0 s.tables).1 := receiptKeys_prune hKeys
  have hSeq : SqlInteger a.seq := by
    have hInteger := hPruned.integer p hp
    simp only [ReceiptRow.key, Prod.mk.injEq] at hKey
    rwa [hKey.2.2] at hInteger
  have hFind : (prune lim a.now 0 s.tables).1.receipts.find? (fun q => q.key == (a.probeId, a.run, a.seq)) =
        some p := by
    rw [← hKey]
    exact find?_receipt hPruned.nodup hp
  have hBody : ∃ t, acceptBody lim sha256 engine a s.tables =
        .ok ((.ok (receiptVerdict sha256 p a.body), (prune lim a.now 0 s.tables).2), t) := by
    unfold acceptBody receiptVerdict
    simp only [hFind]
    rw [if_neg (not_not.mpr hSeq)]
    split_ifs
    · exact ⟨_, rfl⟩
    · exact ⟨_, rfl⟩
  rcases hBody with ⟨t, hBody⟩
  simp [accept, acceptLocked, transaction, hEngine, hBody]

/-
  A call the engine aborted raises; the error is a typed one
  only when the database was full.
-/
theorem accept_of_fault (lim : Limits) (sha256 : Bytes → H) (a : Attempt F) (s : Store F H)
    {engine : Engine} {f : Fault}
    (hFault : engine.fault = some f) :
    ∃ e, (accept lim sha256 engine a s).1 = .error e ∧ (e.IsCapacity → f = .full ∧ e = .storageCapacity) := by
  cases f with
  | full =>
    have hAccept : accept lim sha256 engine a s = acceptRepair engine a s := by
      simp [accept, acceptLocked, transaction, hFault]
    rw [hAccept]
    unfold acceptRepair transaction
    cases engine.repairFault with
    | none => exact ⟨_, rfl, fun _ => ⟨rfl, rfl⟩⟩
    | some g =>
      cases g with
      | full => exact ⟨_, rfl, fun _ => ⟨rfl, rfl⟩⟩
      | other => exact ⟨_, rfl, fun h => by simp [StoreError.IsCapacity] at h⟩
  | other =>
    refine ⟨.unavailable, ?_, fun h => by simp [StoreError.IsCapacity] at h⟩
    simp [accept, acceptLocked, transaction, hFault]

-- The Verdict Law

/-
  For every reachable store and every call.  A receipt that
  is retained after the legal expiry at `now` decides the
  verdict by the hash alone whenever the engine completes
  the transaction.  A call that returns another verdict than
  `accepted`, or a typed capacity error, leaves the tables as
  the pruning at `now` leaves them, up to the activity of the
  run it names; only when the engine itself rolled the
  transaction back are they the unpruned ones instead.
-/
theorem accept_verdict_law {lim : Limits} {sha256 : Bytes → H}
    {guard : Store F H → Call F → Prop} {s : Store F H}
    (hReach : Reachable (step lim sha256) guard Store.empty s) (engine : Engine)
    (a : Attempt F) : (∀ p ∈ (prune lim a.now 0 s.tables).1.receipts, p.key = (a.probeId, a.run, a.seq) →
      (∀ v, (accept lim sha256 engine a s).1 = .ok v → v = receiptVerdict sha256 p a.body) ∧
      (engine.fault = none → (accept lim sha256 engine a s).1 = .ok (receiptVerdict sha256 p a.body))) ∧
    ((accept lim sha256 engine a s).1 ≠ .ok .accepted →
      (∀ e, (accept lim sha256 engine a s).1 = .error e → e.IsCapacity) →
      (engine.fault = none ∧ Touched a (prune lim a.now 0 s.tables).1
          (accept lim sha256 engine a s).2.tables) ∨
      (engine.fault = some .full ∧ (accept lim sha256 engine a s).1 = .error .storageCapacity ∧
        Touched a s.tables (accept lim sha256 engine a s).2.tables)) := by
  have hKeys := receiptKeys_reachable hReach
  constructor
  · intro p hp hKey
    refine ⟨?_, accept_of_receipt hKeys hp hKey⟩
    intro v hv
    cases hFault : engine.fault with
    | none =>
      rw [accept_of_receipt hKeys hp hKey hFault] at hv
      exact (Except.ok.inj hv).symm
    | some f =>
      rcases accept_of_fault lim sha256 a s hFault with ⟨e, he, _⟩
      rw [he] at hv
      cases hv
  · intro hNot hCapacity
    rcases accept_cases lim sha256 engine a s with
      ⟨hAccepted, _⟩ | ⟨_, hFault, hTouched⟩ | ⟨hTouched, e, he, hWhy⟩
    · exact absurd hAccepted hNot
    · exact Or.inl ⟨hFault, hTouched⟩
    · right
      have hTyped := hCapacity e he
      rcases hWhy with hSome | hUntyped
      · rcases Option.ne_none_iff_exists'.mp hSome with ⟨f, hFault⟩
        rcases accept_of_fault lim sha256 a s hFault with ⟨e', he', hFull⟩
        have hSame : e' = e := by
          rw [he'] at he
          exact Except.error.inj he
        rw [hSame] at hFull
        rcases hFull hTyped with ⟨rfl, rfl⟩
        exact ⟨hFault, he, hTouched⟩
      · exact absurd hTyped hUntyped

theorem reachable_first_call (lim : Limits) (sha256 : Bytes → H)
    (c : Call F) : Reachable (step lim sha256) (fun _ _ => True)
      Store.empty (step lim sha256 Store.empty c).2 :=
  Reachable.refl.step_of c True.intro

/- The law at a duplicate, its receipt still retained. -/
theorem accept_verdict_law_at_duplicate :
    let a : Attempt (Grid 1) := ⟨pyStr "edge", pyStr "r", 1, .int 1000000, [123, 125], ⟨1000000⟩⟩
    let s : Store (Grid 1) Bytes := (step {} id Store.empty (.accept a idleEngine)).2
    (accept {} id idleEngine a s).1 = .ok .duplicate := by
  intro a s
  have hReach : Reachable (step {} id) (fun _ _ => True) Store.empty s :=
    reachable_first_call {} id (.accept a idleEngine)
  have hLaw := (accept_verdict_law hReach idleEngine a).1 ⟨pyStr "edge", pyStr "r", 1, [123, 125], ⟨1000000⟩⟩
    (by decide +kernel) rfl
  exact hLaw.2 rfl

/-
  A full database rolls the pruning back with the rest: a
  sample that pruning at the clock of the call would remove
  is still stored after the capacity error.
-/
theorem accept_full_keeps_expired_sample : ¬ ∀ (s : Store (Grid 1) Bytes),
      Reachable (step {} id) (fun _ _ => True) Store.empty s →
      ∀ engine a, (accept {} id engine a s).1 ≠ .ok .accepted →
        (∀ e, (accept {} id engine a s).1 = .error e → e.IsCapacity) →
        (accept {} id engine a s).2.tables.samples = (prune {} a.now 0 s.tables).1.samples := by
  intro hClaim
  let first : Attempt (Grid 1) := ⟨pyStr "edge", pyStr "r", 1, .int 1000000, [123, 125], ⟨1000000⟩⟩
  let late : Attempt (Grid 1) := ⟨pyStr "edge", pyStr "r", 2, .int 1604901, [123, 125], ⟨1604901⟩⟩
  let full : Engine := { idleEngine with fault := some .full }
  let s : Store (Grid 1) Bytes := (step {} id Store.empty (.accept first idleEngine)).2
  have hReach : Reachable (step {} id) (fun _ _ => True) Store.empty s :=
    reachable_first_call {} id (.accept first idleEngine)
  have hFull : (accept {} id full late s).1 = .error .storageCapacity := by
    decide
  have hKept : (accept {} id full late s).2.tables.samples ≠ (prune {} late.now 0 s.tables).1.samples := by
    decide +kernel
  refine hKept (hClaim s hReach full late ?_ ?_)
  · rw [hFull]
    intro hOk
    cases hOk
  · intro e he
    rw [hFull] at he
    cases he
    exact Or.inr (Or.inr rfl)

end SingboxOps.RemoteStore
