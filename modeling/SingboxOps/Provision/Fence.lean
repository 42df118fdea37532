import SingboxOps.Lib.Dict
import SingboxOps.Lib.Text
import SingboxOps.Lib.Trace

/-
  The registry lock between the ingest of the Monitor and the
  provisioner.

  One request at a time is handled under the registry's
  lifecycle lock, and one operation at a time under the
  provision lock; their steps interleave in any order.  The
  gate file is locked shared by a request that finds it, and
  exclusively by an operation that publishes.
-/

namespace SingboxOps.Fence

-- State

/- A request, by its probe and the key it is signed with. -/
structure Request where
  probeId : PyStr
  key : PyStr
deriving DecidableEq

/- A record of the device ledger. -/
structure Record where
  probeId : PyStr
  secret : PyStr
  revoked : Bool
deriving DecidableEq

/-
  A new row of the remote store.  The rest is for reasoning
  only: whether the probe's revocation had released the lock,
  and whether the registry had the probe from the
  authentication up to the commit.
-/
structure Accepted where
  request : Request
  fenced : Bool
  steady : Bool
deriving DecidableEq

/- `RemoteIngest.handle`, under `RemoteRegistry.live`. -/
inductive IngestPhase where
  | idle
  | checked (r : Request) (sawGate : Bool)
  | reading (r : Request) (locked : Bool)
  | configured (r : Request) (locked : Bool) (probes : List PyStr)
  | loaded (r : Request) (locked : Bool)
      (entries : List (PyStr × PyStr))
  | authenticated (r : Request) (locked steady : Bool)
deriving DecidableEq

/- An operation of the provisioner around `_publish`. -/
inductive WriterPhase where
  | idle
  | entered
  | gated
  | holding
  | keysWritten
  | published
  | released
deriving DecidableEq

/-
  The gate file, the registry, the key files, the ledger and
  the two parties.  The last three fields but the rows are for
  reasoning only: the probes that were ever published, and the
  revoked ones whose publication has released the lock.
-/
structure World where
  gate : Bool
  registry : List PyStr
  keys : Dict PyStr PyStr
  ledger : List Record
  ingest : IngestPhase
  writer : WriterPhase
  written : List PyStr
  fenced : List PyStr
  accepted : List Accepted
deriving DecidableEq

/- Before the provisioner ever ran. -/
def World.start (gate : Bool) (registry : List PyStr) (keys : Dict PyStr PyStr) : World :=
  ⟨gate, registry, keys, [], .idle, .idle, [], [], []⟩

namespace World

variable (w : World)

/- The probes of the ledger. -/
def own : List PyStr := w.ledger.map Record.probeId

/- The ledger has a record the request is signed for. -/
def Signed (r : Request) : Prop := ∃ a ∈ w.ledger, a.probeId = r.probeId ∧ a.secret = r.key

instance (r : Request) : Decidable (w.Signed r) := by
  unfold Signed
  infer_instance

end World

/- The request holds the shared lock. -/
def IngestPhase.holdsLock : IngestPhase → Bool
  | reading _ locked => locked
  | configured _ locked _ => locked
  | loaded _ locked _ => locked
  | authenticated _ locked _ => locked
  | _ => false

/- The request that goes on without the lock. -/
def IngestPhase.unlocked : IngestPhase → Option Request
  | checked r false => some r
  | reading r false => some r
  | configured r false _ => some r
  | loaded r false _ => some r
  | authenticated r false _ => some r
  | _ => none

/- The operation holds the exclusive lock. -/
def WriterPhase.holdsLock : WriterPhase → Bool
  | holding | keysWritten | published => true
  | _ => false

-- Steps

inductive Input where
  | arrive (r : Request)
  | acquireShared
  | enterUnlocked
  | readConfig
  | readKeys
  | authenticate
  | commit (stored : Bool)
  | refuse
  | enroll (probeId secret : PyStr)
  | revoke (selected : List PyStr)
  | resume
  | createGate
  | acquireExclusive
  | writeKeys
  | writeRegistry
  | release
  | deleteKeys
  | die
deriving DecidableEq

/- The key file of a live record, unless it is there. -/
def writeKey (keys : Dict PyStr PyStr) (a : Record) : Dict PyStr PyStr :=
  if a.revoked || (keys.get a.probeId).isSome then keys
  else keys.set a.probeId a.secret

/- The registry `_publish` writes. -/
def publishedRegistry (w : World) : List PyStr := w.registry.filter (fun p => decide (p ∉ w.own)) ++
    (w.ledger.filter (fun a => !a.revoked)).map Record.probeId

/- The registry is replaced while a request may be served. -/
def IngestPhase.watch (registry : List PyStr) : IngestPhase → IngestPhase
  | authenticated r locked steady =>
    .authenticated r locked (steady && decide (r.probeId ∈ registry))
  | phase => phase

/- The exclusive lock goes after the registry was written. -/
def World.fence (w : World) (writer : WriterPhase) : World :=
  { w with
    writer := writer
    fenced := w.fenced ++ (w.ledger.filter (fun a => a.revoked)).map Record.probeId }

/- What the loaded keys say of a request. -/
def loadEntries (keys : Dict PyStr PyStr) (probes : List PyStr) : List (PyStr × PyStr) :=
  probes.filterMap (fun p => (keys.get p).map (fun k => (p, k)))

/- A new record, unless something knows its probe. -/
def enrollRecord (w : World) (probeId secret : PyStr) : World :=
  if probeId ∈ w.own ∨ probeId ∈ w.registry ∨ (w.keys.get probeId).isSome = true then w
  else
    { w with
      writer := .entered
      ledger := w.ledger ++ [⟨probeId, secret, false⟩] }

/- Records that are to be revoked. -/
def revokeRecords (ledger : List Record) (selected : List PyStr) : List Record :=
  ledger.map (fun a => if a.probeId ∈ selected then { a with revoked := true } else a)

/- The steps of a request. -/
def stepIngest (w : World) : Input → World
  | .arrive r =>
    match w.ingest with
    | .idle => { w with ingest := .checked r w.gate }
    | _ => w
  | .acquireShared =>
    match w.ingest with
    | .checked r true =>
      if w.writer.holdsLock then w
      else { w with ingest := .reading r true }
    | _ => w
  | .enterUnlocked =>
    match w.ingest with
    | .checked r false => { w with ingest := .reading r false }
    | _ => w
  | .readConfig =>
    match w.ingest with
    | .reading r locked => { w with ingest := .configured r locked w.registry }
    | _ => w
  | .readKeys =>
    match w.ingest with
    | .configured r locked probes =>
      { w with ingest := .loaded r locked (loadEntries w.keys probes) }
    | _ => w
  | .authenticate =>
    match w.ingest with
    | .loaded r locked entries =>
      if (r.probeId, r.key) ∈ entries then
        { w with
          ingest := .authenticated r locked (decide (r.probeId ∈ w.registry)) }
      else { w with ingest := .idle }
    | _ => w
  | .commit stored =>
    match w.ingest with
    | .authenticated r _ steady =>
      { w with
        ingest := .idle
        accepted :=
          if stored then
            w.accepted ++ [⟨r, decide (r.probeId ∈ w.fenced), steady⟩]
          else w.accepted }
    | _ => w
  | .refuse => { w with ingest := .idle }
  | _ => w

/- The steps of an operation. -/
def stepWriter (w : World) : Input → World
  | .enroll probeId secret => if w.writer = .idle then enrollRecord w probeId secret else w
  | .revoke selected =>
    if w.writer = .idle then
      { w with
        writer := .entered
        ledger := revokeRecords w.ledger selected }
    else w
  | .resume => if w.writer = .idle then { w with writer := .entered } else w
  | .createGate =>
    if w.writer = .entered then
      { w with writer := .gated, gate := true }
    else w
  | .acquireExclusive =>
    if w.writer = .gated ∧ w.ingest.holdsLock = false then
      { w with writer := .holding }
    else w
  | .writeKeys =>
    if w.writer = .holding then
      { w with
        writer := .keysWritten
        keys := w.ledger.foldl writeKey w.keys }
    else w
  | .writeRegistry =>
    if w.writer = .keysWritten then
      { w with
        writer := .published
        registry := publishedRegistry w
        ingest := w.ingest.watch (publishedRegistry w)
        written := w.written ++ publishedRegistry w }
    else w
  | .release => if w.writer = .published then w.fence .released else w
  | .deleteKeys =>
    if w.writer = .released then
      { w with
        writer := .idle
        keys :=
          (w.ledger.filter (fun a => a.revoked)).foldl
            (fun keys a => keys.pop a.probeId) w.keys }
    else w
  | .die =>
    -- the kernel releases the locks of a dead process
    if w.writer = .published then w.fence .idle
    else { w with writer := .idle }
  | _ => w

/- One step of either party. -/
def step (w : World) (i : Input) : Unit × World := ((), stepWriter (stepIngest w i) i)

/- The request that is being served. -/
def IngestPhase.request : IngestPhase → Option Request
  | idle => none
  | checked r _ => some r
  | reading r _ => some r
  | configured r _ _ => some r
  | loaded r _ _ => some r
  | authenticated r _ _ => some r

/-
  Keys are secret and random: a request is signed with the key
  of a record only after the record was published, since its
  key is handed out then; and a new key is not one that a
  request was signed with before.
-/
def causal (w : World) : Input → Bool
  | .arrive r => !decide (w.Signed r) || decide (r.probeId ∈ w.written)
  | .enroll probeId secret =>
    w.ingest.request.all (fun r => !(decide (r.probeId = probeId) && decide (r.key = secret)))
  | _ => true

-- The Invariant

/- What the phases of a request know of the registry. -/
def IngestPhase.Ok (w : World) : IngestPhase → Prop
  | configured _ locked probes =>
    ∀ p ∈ probes, (p ∈ w.registry ∨ p ∈ w.own) ∧ (locked = true → p ∈ w.registry)
  | loaded _ locked entries =>
    ∀ e ∈ entries, ((e.1 ∈ w.registry ∧ e.1 ∉ w.own) ∨ w.Signed ⟨e.1, e.2⟩) ∧
        (locked = true → e.1 ∈ w.registry)
  | authenticated r locked steady =>
    r.probeId ∈ w.registry ∧ (locked = true ∨ r.probeId ∉ w.own) ∧ steady = true
  | _ => True

structure Inv (w : World) : Prop where
  unique : ∀ a ∈ w.ledger, ∀ b ∈ w.ledger, a.probeId = b.probeId → a = b
  keys : ∀ a ∈ w.ledger, ∀ k, w.keys.get a.probeId = some k → k = a.secret
  written : ∀ p ∈ w.own, p ∈ w.registry → p ∈ w.written
  writtenGate : ∀ p ∈ w.written, w.gate = true
  writerGate : w.writer ≠ .idle → w.writer ≠ .entered → w.gate = true
  fencedOut : ∀ p ∈ w.fenced, p ∉ w.registry
  fencedOwn : ∀ p ∈ w.fenced, p ∈ w.own
  fencedRevoked : ∀ a ∈ w.ledger, a.probeId ∈ w.fenced → a.revoked = true
  purged : w.writer = .published → ∀ a ∈ w.ledger, a.revoked = true → a.probeId ∉ w.registry
  exclusive : w.writer.holdsLock = true → w.ingest.holdsLock = false
  unsigned : ∀ r, w.ingest.unlocked = some r → ¬ w.Signed r
  ingest : w.ingest.Ok w
  accepted : ∀ a ∈ w.accepted, a.fenced = false ∧ a.steady = true

theorem start_inv (gate : Bool) (registry : List PyStr)
    (keys : Dict PyStr PyStr) : Inv (World.start gate registry keys) where
  unique _ h := (List.not_mem_nil h).elim
  keys _ h := (List.not_mem_nil h).elim
  written _ h := (List.not_mem_nil h).elim
  writtenGate _ h := (List.not_mem_nil h).elim
  writerGate h := (h rfl).elim
  fencedOut _ h := (List.not_mem_nil h).elim
  fencedOwn _ h := (List.not_mem_nil h).elim
  fencedRevoked _ h := (List.not_mem_nil h).elim
  purged h := nomatch h
  exclusive h := nomatch h
  unsigned _ h := nomatch h
  ingest := trivial
  accepted _ h := (List.not_mem_nil h).elim

variable {w : World}

theorem mem_own {a : Record} (h : a ∈ w.ledger) : a.probeId ∈ w.own := List.mem_map_of_mem h

theorem Inv.withIngest (hInv : Inv w)
    {phase : IngestPhase} (hExclusive : w.writer.holdsLock = true → phase.holdsLock = false)
    (hUnsigned : ∀ r, phase.unlocked = some r → ¬ w.Signed r)
    (hOk : phase.Ok { w with ingest := phase }) : Inv { w with ingest := phase } :=
  ⟨hInv.unique, hInv.keys, hInv.written, hInv.writtenGate, hInv.writerGate, hInv.fencedOut, hInv.fencedOwn,
    hInv.fencedRevoked, hInv.purged, hExclusive, hUnsigned, hOk,
    hInv.accepted⟩

theorem Inv.toIdle (hInv : Inv w) : Inv { w with ingest := .idle } :=
  hInv.withIngest (fun _ => rfl) (fun _ h => nomatch h) trivial

theorem Inv.stepIngest (hInv : Inv w) (i : Input) (hCausal : causal w i = true) : Inv (stepIngest w i) := by
  have hOk := hInv.ingest
  have hExclusive := hInv.exclusive
  have hUnsigned := hInv.unsigned
  unfold Fence.stepIngest
  cases i with
  | arrive r =>
    dsimp only
    cases hPhase : w.ingest with
    | idle =>
      refine hInv.withIngest (fun _ => rfl) ?_ trivial
      intro r' hr hSigned
      cases hGate : w.gate with
      | true =>
        rw [hGate] at hr
        exact nomatch hr
      | false =>
        rw [hGate] at hr
        rw [← Option.some.inj hr] at hSigned
        simp only [causal, hSigned, decide_true, Bool.not_true, Bool.false_or, decide_eq_true_eq] at hCausal
        have hTrue := hInv.writtenGate _ hCausal
        rw [hGate] at hTrue
        exact nomatch hTrue
    | _ => exact hInv
  | acquireShared =>
    dsimp only
    cases hPhase : w.ingest with
    | checked r sawGate =>
      cases sawGate with
      | false => exact hInv
      | true =>
        dsimp only
        by_cases hHeld : w.writer.holdsLock = true
        · rw [if_pos hHeld]
          exact hInv
        · rw [if_neg hHeld]
          exact hInv.withIngest (fun h => (hHeld h).elim) (fun _ h => nomatch h) trivial
    | _ => exact hInv
  | enterUnlocked =>
    dsimp only
    cases hPhase : w.ingest with
    | checked r sawGate =>
      cases sawGate with
      | true => exact hInv
      | false =>
        refine hInv.withIngest (fun _ => rfl) ?_ trivial
        intro r' hr
        rw [hPhase] at hUnsigned
        exact hUnsigned r' hr
    | _ => exact hInv
  | readConfig =>
    dsimp only
    cases hPhase : w.ingest with
    | reading r locked =>
      rw [hPhase] at hUnsigned hExclusive
      refine hInv.withIngest hExclusive ?_ (fun p hp => ⟨.inl hp, fun _ => hp⟩)
      intro r' hr
      cases locked with
      | true => exact nomatch hr
      | false => exact hUnsigned r' hr
    | _ => exact hInv
  | readKeys =>
    dsimp only
    cases hPhase : w.ingest with
    | configured r locked probes =>
      rw [hPhase] at hUnsigned hExclusive hOk
      refine hInv.withIngest hExclusive ?_ ?_
      · intro r' hr
        cases locked with
        | true => exact nomatch hr
        | false => exact hUnsigned r' hr
      · intro e he
        rcases List.mem_filterMap.mp he with ⟨p, hp, hEntry⟩
        rcases Option.map_eq_some_iff.mp hEntry with ⟨k, hKey, rfl⟩
        have hKnown := hOk p hp
        refine ⟨?_, hKnown.2⟩
        by_cases hOwn : p ∈ w.own
        · right
          rcases List.mem_map.mp hOwn with ⟨a, ha, rfl⟩
          exact ⟨a, ha, rfl, (hInv.keys a ha k hKey).symm⟩
        · exact .inl ⟨hKnown.1.resolve_right hOwn, hOwn⟩
    | _ => exact hInv
  | authenticate =>
    dsimp only
    cases hPhase : w.ingest with
    | loaded r locked entries =>
      rw [hPhase] at hUnsigned hExclusive hOk
      dsimp only
      by_cases hEntry : (r.probeId, r.key) ∈ entries
      · rw [if_pos hEntry]
        have hKnown := hOk _ hEntry
        have hPublished : r.probeId ∈ w.registry ∧ (locked = true ∨ r.probeId ∉ w.own) := by
          rcases hKnown.1 with hForeign | hSigned
          · exact ⟨hForeign.1, .inr hForeign.2⟩
          · cases locked with
            | true => exact ⟨hKnown.2 rfl, .inl rfl⟩
            | false => exact (hUnsigned r rfl hSigned).elim
        refine hInv.withIngest hExclusive ?_ ⟨hPublished.1, hPublished.2, decide_eq_true hPublished.1⟩
        intro r' hr
        cases locked with
        | true => exact nomatch hr
        | false => exact hUnsigned r' hr
      · rw [if_neg hEntry]
        exact hInv.toIdle
    | _ => exact hInv
  | commit stored =>
    dsimp only
    cases hPhase : w.ingest with
    | authenticated r locked steady =>
      rw [hPhase] at hOk
      have hIdle := hInv.toIdle
      refine ⟨hIdle.unique, hIdle.keys, hIdle.written, hIdle.writtenGate, hIdle.writerGate, hIdle.fencedOut,
        hIdle.fencedOwn, hIdle.fencedRevoked, hIdle.purged,
        hIdle.exclusive, hIdle.unsigned, trivial, ?_⟩
      intro a ha
      cases stored with
      | false => exact hInv.accepted a ha
      | true =>
        rcases List.mem_append.mp ha with hOld | hNew
        · exact hInv.accepted a hOld
        · rw [List.mem_singleton.mp hNew]
          refine ⟨decide_eq_false ?_, hOk.2.2⟩
          exact fun h => hInv.fencedOut _ h hOk.1
    | _ => exact hInv
  | refuse => exact hInv.toIdle
  | _ => exact hInv

-- The Provisioner

theorem IngestPhase.Ok.transfer {w' : World} {phase : IngestPhase}
    (h : phase.Ok w) (hRegistry : w'.registry = w.registry)
    (hOwn : ∀ p ∈ w.own, p ∈ w'.own) (hNew : ∀ p ∈ w.registry, p ∈ w'.own → p ∈ w.own)
    (hSigned : ∀ r, w.Signed r → w'.Signed r) : phase.Ok w' := by
  cases phase with
  | configured r locked probes =>
    intro p hp
    rw [hRegistry]
    exact ⟨(h p hp).1.imp_right (hOwn p), (h p hp).2⟩
  | loaded r locked entries =>
    intro e he
    rw [hRegistry]
    refine ⟨?_, (h e he).2⟩
    rcases (h e he).1 with hForeign | hKnown
    · exact .inl ⟨hForeign.1, fun hp => hForeign.2 (hNew _ hForeign.1 hp)⟩
    · exact .inr (hSigned _ hKnown)
  | authenticated r locked steady =>
    refine ⟨hRegistry ▸ h.1, ?_, h.2.2⟩
    exact h.2.1.imp_right (fun hForeign hp => hForeign (hNew _ h.1 hp))
  | _ => trivial

theorem Inv.enrollRecord (hInv : Inv w) {probeId secret : PyStr}
    (hFresh : ∀ r, w.ingest.request = some r → ¬ (r.probeId = probeId ∧ r.key = secret)) :
    Inv (enrollRecord w probeId secret) := by
  unfold Fence.enrollRecord
  by_cases hTaken : probeId ∈ w.own ∨ probeId ∈ w.registry ∨ (w.keys.get probeId).isSome = true
  · rw [if_pos hTaken]
    exact hInv
  · rw [if_neg hTaken]
    rw [not_or, not_or] at hTaken
    rcases hTaken with ⟨hOwn, hRegistry, hKey⟩
    have hCases : ∀ a ∈ w.ledger ++ [(⟨probeId, secret, false⟩ : Record)],
          a ∈ w.ledger ∨ a = ⟨probeId, secret, false⟩ := by
      intro a ha
      exact (List.mem_append.mp ha).imp_right List.mem_singleton.mp
    have hOwnCases : ∀ p ∈ (w.ledger ++ [(⟨probeId, secret, false⟩ : Record)]).map Record.probeId,
          p ∈ w.own ∨ p = probeId := by
      intro p hp
      rcases List.mem_map.mp hp with ⟨a, ha, rfl⟩
      rcases hCases a ha with hOld | rfl
      · exact .inl (mem_own hOld)
      · exact .inr rfl
    refine ⟨?_, ?_, ?_, hInv.writtenGate, fun _ h => (h rfl).elim,
      hInv.fencedOut, ?_, ?_, (fun h => nomatch h),
      (fun h => nomatch h), ?_, ?_, hInv.accepted⟩
    · intro a ha b hb hSame
      rcases hCases a ha with hOldA | rfl <;>
        rcases hCases b hb with hOldB | rfl
      · exact hInv.unique a hOldA b hOldB hSame
      · have hSameId : a.probeId = probeId := hSame
        exact (hOwn (hSameId ▸ mem_own hOldA)).elim
      · have hSameId : b.probeId = probeId := hSame.symm
        exact (hOwn (hSameId ▸ mem_own hOldB)).elim
      · rfl
    · intro a ha k hGet
      rcases hCases a ha with hOld | rfl
      · exact hInv.keys a hOld k hGet
      · exact (hKey (Option.isSome_iff_exists.mpr ⟨k, hGet⟩)).elim
    · intro p hp hPublished
      rcases hOwnCases p hp with hOld | rfl
      · exact hInv.written p hOld hPublished
      · exact (hRegistry hPublished).elim
    · intro p hp
      rcases List.mem_map.mp (hInv.fencedOwn p hp) with ⟨a, ha, hSame⟩
      exact List.mem_map.mpr ⟨a, List.mem_append_left _ ha, hSame⟩
    · intro a ha hFenced
      rcases hCases a ha with hOld | rfl
      · exact hInv.fencedRevoked a hOld hFenced
      · exact (hOwn (hInv.fencedOwn _ hFenced)).elim
    · rintro r hr ⟨a, ha, hProbe, hSecret⟩
      rcases hCases a ha with hOld | rfl
      · exact hInv.unsigned r hr ⟨a, hOld, hProbe, hSecret⟩
      · refine hFresh r ?_ ⟨hProbe.symm, hSecret.symm⟩
        change w.ingest.unlocked = some r at hr
        cases hPhase : w.ingest with
        | idle =>
          rw [hPhase] at hr
          exact nomatch hr
        | checked r' sawGate =>
          rw [hPhase] at hr
          cases sawGate with
          | true => exact nomatch hr
          | false => exact hr
        | reading r' locked =>
          rw [hPhase] at hr
          cases locked with
          | true => exact nomatch hr
          | false => exact hr
        | configured r' locked probes =>
          rw [hPhase] at hr
          cases locked with
          | true => exact nomatch hr
          | false => exact hr
        | loaded r' locked entries =>
          rw [hPhase] at hr
          cases locked with
          | true => exact nomatch hr
          | false => exact hr
        | authenticated r' locked steady =>
          rw [hPhase] at hr
          cases locked with
          | true => exact nomatch hr
          | false => exact hr
    · refine hInv.ingest.transfer rfl ?_ ?_ ?_
      · intro p hp
        rcases List.mem_map.mp hp with ⟨a, ha, hSame⟩
        exact List.mem_map.mpr ⟨a, List.mem_append_left _ ha, hSame⟩
      · intro p hp hOwn'
        rcases hOwnCases p hOwn' with hOld | rfl
        · exact hOld
        · exact (hRegistry hp).elim
      · rintro r ⟨a, ha, hSame⟩
        exact ⟨a, List.mem_append_left _ ha, hSame⟩

theorem mem_revokeRecords {ledger : List Record} {selected : List PyStr} {b : Record}
    (h : b ∈ revokeRecords ledger selected) :
    ∃ a ∈ ledger, b.probeId = a.probeId ∧ b.secret = a.secret ∧ (a.revoked = true → b.revoked = true) ∧
      b = (if a.probeId ∈ selected then
        { a with revoked := true } else a) := by
  rcases List.mem_map.mp h with ⟨a, ha, rfl⟩
  refine ⟨a, ha, ?_⟩
  by_cases hSelected : a.probeId ∈ selected
  · rw [if_pos hSelected]
    exact ⟨rfl, rfl, fun _ => rfl, rfl⟩
  · rw [if_neg hSelected]
    exact ⟨rfl, rfl, fun h => h, rfl⟩

theorem own_revokeRecords (ledger : List Record) (selected : List PyStr) :
    (revokeRecords ledger selected).map Record.probeId = ledger.map Record.probeId := by
  unfold revokeRecords
  rw [List.map_map]
  refine List.map_congr_left ?_
  intro a _
  change (if a.probeId ∈ selected then
    { a with revoked := true } else a).probeId = a.probeId
  split <;> rfl

theorem Inv.revokeRecords (hInv : Inv w) (selected : List PyStr) : Inv
      { w with
        writer := .entered
        ledger := revokeRecords w.ledger selected } := by
  have hOwn := own_revokeRecords w.ledger selected
  refine ⟨?_, ?_, ?_, hInv.writtenGate, fun _ h => (h rfl).elim, hInv.fencedOut, ?_, ?_, (fun h => nomatch h),
    (fun h => nomatch h), ?_, ?_, hInv.accepted⟩
  · intro a ha b hb hSame
    rcases mem_revokeRecords ha with ⟨a', ha', hA, _, _, hEqA⟩
    rcases mem_revokeRecords hb with ⟨b', hb', hB, _, _, hEqB⟩
    have hEq : a' = b' := hInv.unique a' ha' b' hb' (hA.symm.trans (hSame.trans hB))
    rw [hEqA, hEqB, hEq]
  · intro a ha k hGet
    rcases mem_revokeRecords ha with ⟨a', ha', hA, hSecret, _⟩
    rw [hSecret]
    rw [hA] at hGet
    exact hInv.keys a' ha' k hGet
  · intro p hp hPublished
    refine hInv.written p ?_ hPublished
    unfold World.own at hp ⊢
    rw [← hOwn]
    exact hp
  · intro p hp
    unfold World.own
    rw [hOwn]
    exact hInv.fencedOwn p hp
  · intro a ha hFenced
    rcases mem_revokeRecords ha with ⟨a', ha', hA, _, hStays, _⟩
    rw [hA] at hFenced
    exact hStays (hInv.fencedRevoked a' ha' hFenced)
  · rintro r hr ⟨a, ha, hProbe, hSecret⟩
    rcases mem_revokeRecords ha with ⟨a', ha', hA, hS, _⟩
    exact hInv.unsigned r hr ⟨a', ha', hA.symm.trans hProbe, hS.symm.trans hSecret⟩
  · refine hInv.ingest.transfer rfl ?_ ?_ ?_
    · intro p hp
      unfold World.own
      rw [hOwn]
      exact hp
    · intro p _ hp
      unfold World.own at hp
      rw [hOwn] at hp
      exact hp
    · rintro r ⟨a, ha, hProbe, hSecret⟩
      refine ⟨_, List.mem_map_of_mem ha, ?_, ?_⟩
      · rw [← hProbe]
        split <;> rfl
      · rw [← hSecret]
        split <;> rfl

/- The operation goes on; nothing else changed. -/
theorem Inv.withWriter (hInv : Inv w)
    {writer : WriterPhase} {gate : Bool} (hGate : w.gate = true → gate = true)
    (hWriter : writer ≠ .idle → writer ≠ .entered → gate = true)
    (hPublished : writer ≠ .published)
    (hExclusive : writer.holdsLock = true → w.ingest.holdsLock = false) :
    Inv { w with writer := writer, gate := gate } where
  unique := hInv.unique
  keys := hInv.keys
  written := hInv.written
  writtenGate p hp := hGate (hInv.writtenGate p hp)
  writerGate := hWriter
  fencedOut := hInv.fencedOut
  fencedOwn := hInv.fencedOwn
  fencedRevoked := hInv.fencedRevoked
  purged h := (hPublished h).elim
  exclusive := hExclusive
  unsigned := hInv.unsigned
  ingest := hInv.ingest.transfer rfl (fun _ h => h) (fun _ _ h => h) (fun _ h => h)
  accepted := hInv.accepted

theorem get_writeKeys {ledger : List Record} {keys : Dict PyStr PyStr} {p k : PyStr}
    (h : (ledger.foldl writeKey keys).get p = some k) :
    keys.get p = some k ∨ ∃ a ∈ ledger, a.probeId = p ∧ a.secret = k := by
  induction ledger generalizing keys with
  | nil => exact .inl h
  | cons a rest ih =>
    rcases ih h with hOld | ⟨b, hb, hSame⟩
    · unfold writeKey at hOld
      split at hOld
      · exact .inl hOld
      · rw [Dict.get_set] at hOld
        by_cases hProbe : a.probeId = p
        · rw [if_pos hProbe] at hOld
          exact .inr ⟨a, List.mem_cons_self, hProbe, Option.some.inj hOld⟩
        · rw [if_neg hProbe] at hOld
          exact .inl hOld
    · exact .inr ⟨b, List.mem_cons_of_mem _ hb, hSame⟩

theorem get_deleteKeys {records : List Record} {keys : Dict PyStr PyStr} {p k : PyStr}
    (h : (records.foldl (fun keys a => keys.pop a.probeId) keys).get p = some k) :
    keys.get p = some k := by
  induction records generalizing keys with
  | nil => exact h
  | cons a rest ih =>
    have hRest := ih h
    rw [Dict.get_pop] at hRest
    split at hRest
    · cases hRest
    · exact hRest

theorem Inv.withKeys (hInv : Inv w) {keys : Dict PyStr PyStr}
    (hKeys : ∀ a ∈ w.ledger, ∀ k, keys.get a.probeId = some k → k = a.secret) :
    Inv { w with keys := keys } :=
  ⟨hInv.unique, hKeys, hInv.written, hInv.writtenGate, hInv.writerGate, hInv.fencedOut, hInv.fencedOwn,
    hInv.fencedRevoked, hInv.purged, hInv.exclusive,
    hInv.unsigned,
    hInv.ingest.transfer rfl (fun _ h => h) (fun _ _ h => h) (fun _ h => h),
    hInv.accepted⟩

theorem Inv.fence (hInv : Inv w) (hWriter : w.writer = .published) {writer : WriterPhase}
    (hIdle : writer = .idle ∨ writer = .released) : Inv (w.fence writer) := by
  have hGate : w.gate = true := hInv.writerGate (by rw [hWriter]; exact WriterPhase.noConfusion)
      (by rw [hWriter]; exact WriterPhase.noConfusion)
  have hCases : ∀ p ∈ (w.fence writer).fenced,
        p ∈ w.fenced ∨ ∃ a ∈ w.ledger, a.revoked = true ∧ a.probeId = p := by
    intro p hp
    rcases List.mem_append.mp hp with hOld | hNew
    · exact .inl hOld
    · rcases List.mem_map.mp hNew with ⟨a, ha, hSame⟩
      exact .inr ⟨a, (List.mem_filter.mp ha).1, (List.mem_filter.mp ha).2, hSame⟩
  refine ⟨hInv.unique, hInv.keys, hInv.written, hInv.writtenGate,
    fun _ _ => hGate, ?_, ?_, ?_, ?_, ?_, hInv.unsigned,
    hInv.ingest.transfer rfl (fun _ h => h) (fun _ _ h => h) (fun _ h => h),
    hInv.accepted⟩
  · intro p hp
    rcases hCases p hp with hOld | ⟨a, ha, hRevoked, rfl⟩
    · exact hInv.fencedOut p hOld
    · exact hInv.purged hWriter a ha hRevoked
  · intro p hp
    rcases hCases p hp with hOld | ⟨a, ha, _, rfl⟩
    · exact hInv.fencedOwn p hOld
    · exact mem_own ha
  · intro a ha hFenced
    rcases hCases _ hFenced with hOld | ⟨b, hb, hRevoked, hSame⟩
    · exact hInv.fencedRevoked a ha hOld
    · rw [← hInv.unique b hb a ha hSame]
      exact hRevoked
  · intro h
    rcases hIdle with rfl | rfl
    · exact nomatch h
    · exact nomatch h
  · intro h
    rcases hIdle with rfl | rfl
    · exact nomatch h
    · exact nomatch h

theorem watch_holdsLock (registry : List PyStr)
    (phase : IngestPhase) : (phase.watch registry).holdsLock = phase.holdsLock := by
  cases phase <;> rfl

theorem watch_unlocked (registry : List PyStr)
    (phase : IngestPhase) : (phase.watch registry).unlocked = phase.unlocked := by
  cases phase with
  | authenticated r locked steady => cases locked <;> rfl
  | _ => rfl

theorem mem_publishedRegistry {p : PyStr} (h : p ∈ publishedRegistry w) :
    (p ∈ w.registry ∧ p ∉ w.own) ∨ ∃ a ∈ w.ledger, a.revoked = false ∧ a.probeId = p := by
  rcases List.mem_append.mp h with hForeign | hLive
  · exact .inl ⟨(List.mem_filter.mp hForeign).1, of_decide_eq_true (List.mem_filter.mp hForeign).2⟩
  · rcases List.mem_map.mp hLive with ⟨a, ha, hSame⟩
    refine .inr ⟨a, (List.mem_filter.mp ha).1, ?_, hSame⟩
    have hNot := (List.mem_filter.mp ha).2
    rw [Bool.not_eq_true'] at hNot
    exact hNot

theorem foreign_published {p : PyStr} (h : p ∈ w.registry) (hForeign : p ∉ w.own) : p ∈ publishedRegistry w :=
  List.mem_append_left _ (List.mem_filter.mpr ⟨h, decide_eq_true hForeign⟩)

theorem Inv.writeRegistry (hInv : Inv w) (hWriter : w.writer = .keysWritten) : Inv
      { w with
        writer := .published
        registry := publishedRegistry w
        ingest := w.ingest.watch (publishedRegistry w)
        written := w.written ++ publishedRegistry w } := by
  have hGate : w.gate = true := hInv.writerGate (by rw [hWriter]; exact WriterPhase.noConfusion)
      (by rw [hWriter]; exact WriterPhase.noConfusion)
  have hUnlocked : w.ingest.holdsLock = false := hInv.exclusive (by rw [hWriter]; rfl)
  refine ⟨hInv.unique, hInv.keys, ?_, fun _ _ => hGate,
    fun _ _ => hGate, ?_, hInv.fencedOwn, hInv.fencedRevoked, ?_,
    ?_, ?_, ?_, hInv.accepted⟩
  · exact fun p _ h => List.mem_append_right _ h
  · intro p hp hPublished
    rcases mem_publishedRegistry hPublished with
      hForeign | ⟨a, ha, hLive, rfl⟩
    · exact hInv.fencedOut p hp hForeign.1
    · have hRevoked := hInv.fencedRevoked a ha hp
      rw [hLive] at hRevoked
      exact nomatch hRevoked
  · intro _ a ha hRevoked hPublished
    rcases mem_publishedRegistry hPublished with
      hForeign | ⟨b, hb, hLive, hSame⟩
    · exact hForeign.2 (mem_own ha)
    · rw [hInv.unique b hb a ha hSame, hRevoked] at hLive
      exact nomatch hLive
  · intro _
    dsimp only
    rw [watch_holdsLock]
    exact hUnlocked
  · intro r hr
    dsimp only at hr
    rw [watch_unlocked] at hr
    exact hInv.unsigned r hr
  · have hOk := hInv.ingest
    dsimp only
    cases hPhase : w.ingest with
    | configured r locked probes =>
      rw [hPhase] at hOk hUnlocked
      intro p hp
      change locked = false at hUnlocked
      refine ⟨?_, fun h => ?_⟩
      · by_cases hOwn : p ∈ w.own
        · exact .inr hOwn
        · exact .inl (foreign_published ((hOk p hp).1.resolve_right hOwn) hOwn)
      · rw [hUnlocked] at h
        exact nomatch h
    | loaded r locked entries =>
      rw [hPhase] at hOk hUnlocked
      intro e he
      change locked = false at hUnlocked
      refine ⟨?_, fun h => ?_⟩
      · rcases (hOk e he).1 with hForeign | hSigned
        · exact .inl ⟨foreign_published hForeign.1 hForeign.2, hForeign.2⟩
        · exact .inr hSigned
      · rw [hUnlocked] at h
        exact nomatch h
    | authenticated r locked steady =>
      rw [hPhase] at hOk hUnlocked
      change locked = false at hUnlocked
      have hForeign : r.probeId ∉ w.own := by
        rcases hOk.2.1 with h | h
        · rw [hUnlocked] at h
          exact nomatch h
        · exact h
      have hStays := foreign_published hOk.1 hForeign
      refine ⟨hStays, .inr hForeign, ?_⟩
      rw [hOk.2.2, Bool.true_and]
      exact decide_eq_true hStays
    | _ => trivial

theorem Inv.stepWriter (hInv : Inv w) (i : Input) (hCausal : causal w i = true) : Inv (stepWriter w i) := by
  have hGate : w.writer ≠ .idle → w.writer ≠ .entered → w.gate = true := hInv.writerGate
  unfold Fence.stepWriter
  cases i with
  | enroll probeId secret =>
    dsimp only
    by_cases hIdle : w.writer = .idle
    · rw [if_pos hIdle]
      refine hInv.enrollRecord ?_
      intro r hr
      rw [causal, hr, Option.all_some] at hCausal
      simp only [Bool.not_eq_true', Bool.and_eq_false_iff, decide_eq_false_iff_not] at hCausal
      exact not_and_or.mpr hCausal
    · rw [if_neg hIdle]
      exact hInv
  | revoke selected =>
    dsimp only
    by_cases hIdle : w.writer = .idle
    · rw [if_pos hIdle]
      exact hInv.revokeRecords selected
    · rw [if_neg hIdle]
      exact hInv
  | resume =>
    dsimp only
    by_cases hIdle : w.writer = .idle
    · rw [if_pos hIdle]
      exact hInv.withWriter id (fun _ h => (h rfl).elim) WriterPhase.noConfusion (fun h => nomatch h)
    · rw [if_neg hIdle]
      exact hInv
  | createGate =>
    dsimp only
    by_cases hEntered : w.writer = .entered
    · rw [if_pos hEntered]
      exact hInv.withWriter (fun _ => rfl) (fun _ _ => rfl) WriterPhase.noConfusion (fun h => nomatch h)
    · rw [if_neg hEntered]
      exact hInv
  | acquireExclusive =>
    dsimp only
    by_cases hGated : w.writer = .gated ∧ w.ingest.holdsLock = false
    · rw [if_pos hGated]
      have hTrue : w.gate = true := by
        refine hGate ?_ ?_ <;> rw [hGated.1] <;>
          exact WriterPhase.noConfusion
      exact hInv.withWriter id (fun _ _ => hTrue) WriterPhase.noConfusion (fun _ => hGated.2)
    · rw [if_neg hGated]
      exact hInv
  | writeKeys =>
    dsimp only
    by_cases hHolding : w.writer = .holding
    · rw [if_pos hHolding]
      have hTrue : w.gate = true := by
        refine hGate ?_ ?_ <;> rw [hHolding] <;>
          exact WriterPhase.noConfusion
      have hKeys : ∀ a ∈ w.ledger, ∀ k, (w.ledger.foldl writeKey w.keys).get a.probeId = some k →
              k = a.secret := by
        intro a ha k hGet
        rcases get_writeKeys hGet with hOld | ⟨b, hb, hSame, hk⟩
        · exact hInv.keys a ha k hOld
        · rw [← hk, hInv.unique b hb a ha hSame]
      exact (hInv.withKeys hKeys).withWriter id (fun _ _ => hTrue) WriterPhase.noConfusion
        (fun _ => hInv.exclusive (by rw [hHolding]; rfl))
    · rw [if_neg hHolding]
      exact hInv
  | writeRegistry =>
    dsimp only
    by_cases hKeys : w.writer = .keysWritten
    · rw [if_pos hKeys]
      exact hInv.writeRegistry hKeys
    · rw [if_neg hKeys]
      exact hInv
  | release =>
    dsimp only
    by_cases hPublished : w.writer = .published
    · rw [if_pos hPublished]
      exact hInv.fence hPublished (.inr rfl)
    · rw [if_neg hPublished]
      exact hInv
  | deleteKeys =>
    dsimp only
    by_cases hReleased : w.writer = .released
    · rw [if_pos hReleased]
      exact (hInv.withKeys (fun a ha k h =>
        hInv.keys a ha k (get_deleteKeys h))).withWriter id (fun h => (h rfl).elim) WriterPhase.noConfusion
          (fun h => nomatch h)
    · rw [if_neg hReleased]
      exact hInv
  | die =>
    dsimp only
    by_cases hPublished : w.writer = .published
    · rw [if_pos hPublished]
      exact hInv.fence hPublished (.inl rfl)
    · rw [if_neg hPublished]
      exact hInv.withWriter id (fun h => (h rfl).elim) WriterPhase.noConfusion (fun h => nomatch h)
  | _ => exact hInv

theorem causal_stepIngest {i : Input} (h : causal w i = true) :
    causal (stepIngest w i) i = true ∨ stepWriter (stepIngest w i) i = stepIngest w i := by
  cases i with
  | enroll probeId secret => exact .inl h
  | arrive r => exact .inr rfl
  | _ => exact .inl rfl

/- Every step of either party keeps the invariant. -/
theorem Inv.step (hInv : Inv w) (i : Input) (hCausal : causal w i = true) : Inv (step w i).2 := by
  have hIngest := hInv.stepIngest i hCausal
  change Inv (Fence.stepWriter (Fence.stepIngest w i) i)
  rcases causal_stepIngest hCausal with h | h
  · exact hIngest.stepWriter i h
  · rw [h]
    exact hIngest

-- Runs

/- The worlds a causal run leads to. -/
def FenceReachable (gate : Bool) (registry : List PyStr) (keys : Dict PyStr PyStr) (w : World) : Prop :=
  Reachable step (fun w i => causal w i = true) (World.start gate registry keys) w

/-
  In every interleaving: a row of a probe was committed before
  the lock was released by its revocation, and the registry had
  the probe from the authentication up to the commit.
-/
theorem revocation_fences_ingest (gate : Bool) (registry : List PyStr) (keys : Dict PyStr PyStr) (w : World)
    (hReach : FenceReachable gate registry keys w) :
    ∀ a ∈ w.accepted, a.fenced = false ∧ a.steady = true := by
  have hInv : Inv w := hReach.invariant (start_inv gate registry keys) (fun _ i h hCausal => h.step i hCausal)
  exact hInv.accepted

/- Every step of a run is causal. -/
def causalRun (w : World) : List Input → Bool
  | [] => true
  | i :: rest => causal w i && causalRun (step w i).2 rest

theorem reachable_of_causalRun {gate : Bool} {registry : List PyStr} {keys : Dict PyStr PyStr}
    {is : List Input} (hReach : FenceReachable gate registry keys w)
    (h : causalRun w is = true) :
    FenceReachable gate registry keys (finalState step w is) := by
  induction is generalizing w with
  | nil => exact hReach
  | cons i rest ih =>
    rw [causalRun, Bool.and_eq_true] at h
    exact ih (hReach.step_of i h.1) h.2

/-
  A device is enrolled and one of its requests is committed
  while a revocation waits; a later request is refused.
-/
def ingestAndRevoke : List Input := [.enroll [112] [107], .createGate, .acquireExclusive,
    .writeKeys, .writeRegistry, .release, .deleteKeys,
    .arrive ⟨[112], [107]⟩, .acquireShared, .readConfig,
    .revoke [[112]], .createGate, .readKeys, .acquireExclusive,
    .authenticate, .commit true, .acquireExclusive, .writeKeys,
    .writeRegistry, .release, .arrive ⟨[112], [107]⟩,
    .acquireShared, .readConfig, .readKeys, .authenticate,
    .commit true]

theorem revocation_fences_ingest_ingestAndRevoke :
    (finalState step (World.start false [] []) ingestAndRevoke).accepted = [⟨⟨[112], [107]⟩, false, true⟩] ∧
    ∀ a ∈ (finalState step (World.start false [] []) ingestAndRevoke).accepted,
      a.fenced = false ∧ a.steady = true :=
  ⟨by decide,
    revocation_fences_ingest false [] [] _ (reachable_of_causalRun Reachable.refl (by decide))⟩

end SingboxOps.Fence
