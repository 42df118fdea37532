import SingboxOps.RemoteIngest.Outcome
import SingboxOps.RemoteIngest.SignedHeaders
import SingboxOps.RemoteStore.Reopen

/-
  The ingest plane over whole runs.

  Requests of anyone, calls that only prune and restarts of
  the process come in any order.  The rows on the disk come
  from requests an enabled key signed, and the database they
  make up is accepted whenever it is opened again.
-/

namespace SingboxOps.RemoteIngest

open PyFloat RemoteProbe
open RemoteStore (Tables Store Fault Admitted Touched Consistent Presented prune activity)

variable {F : Type} [PyFloat F]

-- The Service

/- What the requests of one installation have in common. -/
structure Site where
  crypto : Crypto
  lim : RemoteStore.Limits
  room : ℕ

/- One request, with what the process finds around it. -/
structure Posted (F : Type) [PyFloat F] where
  raw : Bytes
  headers : Headers
  ticks : Ticks F
  clock : WallClock F
  registry : Reload
  engine : RemoteStore.Engine

/- The surroundings `handle` is called in. -/
def Site.env (site : Site) (r : Posted F) : Env F :=
  ⟨site.crypto, site.lim, site.room, r.ticks, r.clock, r.registry, r.engine⟩

/-
  A request, a call that only enforces retention (every read
  and every status does), or a new process.
-/
inductive Event (F : Type) [PyFloat F] where
  | request (r : Posted F)
  | retention (now : F) (fault : Option Fault)
  | restart (now tick : F) (fault : Option Fault)

/- The plane of the process, and the database file. -/
structure Service (F : Type) where
  plane : Plane F
  disk : Tables F Bytes

/- A machine with an empty database and no store open yet. -/
def Service.fresh (tick : F) : Service F := ⟨startedPlane tick, .empty⟩

/-
  `RemoteStore.open`: the row checks, then one retention
  transaction.  A database that fails either is refused.
-/
def openStore (site : Site) (now : F) (fault : Option Fault)
    (disk : Tables F Bytes) : Option (Store F Bytes) :=
  match RemoteStore.verifyRows site.room site.crypto.sha256 disk with
  | .ok true =>
    let result := RemoteStore.enforceRetention site.lim fault now ⟨disk, false, 0⟩
    match result.1 with
    | .ok _ => some result.2
    | .error _ => none
  | _ => none

/- The constructor; a refused store leaves the plane without. -/
def start (site : Site) (now tick : F) (fault : Option Fault) (disk : Tables F Bytes) : Service F :=
  match openStore site now fault disk with
  | some store => ⟨{ startedPlane tick with store := some store }, store.tables⟩
  | none =>
    ⟨{ startedPlane tick with storeError := some "remote store open refused" }, disk⟩

/- One event. -/
def serve (site : Site) (s : Service F) : Event F → Option (Except PyError Response) × Service F
  | .request r =>
    let result := handle (site.env r) r.raw r.headers s.plane
    (some result.1, ⟨result.2, (result.2.store.map (fun store => store.tables)).getD s.disk⟩)
  | .retention now fault =>
    match s.plane.store with
    | none => (none, s)
    | some store =>
      let result := RemoteStore.enforceRetention site.lim fault now store
      (none, ⟨{ s.plane with store := some result.2 }, result.2.tables⟩)
  | .restart now tick fault => (none, start site now tick fault s.disk)

-- Authentic Requests

/-
  An enabled key signed the headers together with the body,
  not long ago, and the body is the canonical encoding of a
  sample of the very identity.
-/
structure Authentic (site : Site) (r : Posted F) (c : Claim) (sample : Json F) : Prop where
  read : parseHeaders r.headers = some c
  signed : ∃ registry entry, r.registry = .published registry ∧ registry.enabled c.probeId = some entry ∧
      sign site.crypto entry.key c.probeId c.sentEpoch c.run c.seq r.raw = .ok c.signature
  fresh : Fresh (site.env r) c
  accepts : Accepts site.room r.raw sample
  names : matchesClaim sample c = true

/- What the plane asks the store to accept. -/
def attempt (r : Posted F) (c : Claim) (sample : Json F) : RemoteStore.Attempt F :=
  ⟨c.probeId, c.run, c.seq, sampleEpochOf sample, r.raw, r.clock.now⟩

variable {site : Site} {r : Posted F} {c : Claim} {sample : Json F} {plane : Plane F}

omit [PyFloat F] in
theorem storeAnswer_store (probeId : PyStr) (plane : Plane F) (e : RemoteStore.StoreError) :
    (storeAnswer probeId plane e).2.store = plane.store := by
  cases e <;> rfl

theorem commit_store : (commit (site.env r) r.raw c sample plane).2.store =
      plane.store.map (fun store => (RemoteStore.accept site.lim site.crypto.sha256 r.engine
        (attempt r c sample) store).2) := by
  unfold commit
  cases hStore : plane.store with
  | none => exact hStore
  | some store =>
    simp only [Option.map_some]
    split
    · split <;> rfl
    · exact storeAnswer_store _ _ _

/-
  A request leaves the store as it was, or it is authentic
  and its sample was handed to the store.
-/
theorem handle_store (site : Site) (r : Posted F) (plane : Plane F) :
    (handle (site.env r) r.raw r.headers plane).2.store = plane.store ∨ ∃ c sample, Authentic site r c sample ∧
      (handle (site.env r) r.raw r.headers plane).2.store =
        plane.store.map (fun store => (RemoteStore.accept site.lim site.crypto.sha256
          r.engine (attempt r c sample) store).2) := by
  unfold handle
  dsimp only
  split
  · exact Or.inl rfl
  split
  · exact Or.inl rfl
  · exact Or.inl rfl
  rename_i registry hRegistry
  unfold handleLive
  split
  · exact Or.inl rfl
  rename_i c hRead
  split
  · exact Or.inl rfl
  rename_i entry hEntry
  split
  · exact Or.inl rfl
  · exact Or.inl rfl
  rename_i hVerify
  unfold admitted
  dsimp only
  split
  · exact Or.inl rfl
  rename_i hFresh
  split
  · exact Or.inl rfl
  split
  · exact Or.inl rfl
  · exact Or.inl rfl
  rename_i sample hGate
  have hAccepts := bodyGate_ok hGate
  refine Or.inr ⟨c, sample, ⟨hRead, ⟨registry, entry, hRegistry, hEntry, ?_⟩,
    not_lt.mp hFresh, hAccepts.1, hAccepts.2⟩, commit_store⟩
  exact verifySignature_true_iff.mp hVerify

-- One Event

/- The process and the file agree on the rows. -/
def Service.Synced (s : Service F) : Prop := ∀ store, s.plane.store = some store → store.tables = s.disk

/- What one event may do to the rows. -/
inductive Change (site : Site) (e : Event F) (t : Tables F Bytes) :
    Tables F Bytes → Prop where
  | kept : Change site e t t
  | pruned (now : F) : Change site e t (prune site.lim now 0 t).1
  | touched {r : Posted F} {c : Claim} {sample : Json F} {t₀ t' : Tables F Bytes}
      (hEvent : e = .request r) (hAuth : Authentic site r c sample)
      (hFrom : t₀ = t ∨ t₀ = (prune site.lim r.clock.now 0 t).1)
      (hTouched : Touched (attempt r c sample) t₀ t') : Change site e t t'
  | admitted {r : Posted F} {c : Claim} {sample : Json F} {q : ℚ} {t' : Tables F Bytes}
      (hEvent : e = .request r) (hAuth : Authentic site r c sample)
      (hAdmitted : Admitted site.lim site.crypto.sha256 r.engine (attempt r c sample) q
          (prune site.lim r.clock.now 0 t).1 t') : Change site e t t'

theorem change_enforceRetention (site : Site) (e : Event F) (fault : Option Fault) (now : F)
    (store : Store F Bytes) : Change site e store.tables
      (RemoteStore.enforceRetention site.lim fault now store).2.tables := by
  rcases RemoteStore.enforceRetention_tables site.lim fault now store with h | h
  · rw [h]
    exact .kept
  · rw [h]
    exact .pruned now

theorem openStore_some {now : F} {fault : Option Fault} {disk : Tables F Bytes}
    {store : Store F Bytes} (h : openStore site now fault disk = some store) :
    store = (RemoteStore.enforceRetention site.lim fault now ⟨disk, false, 0⟩).2 := by
  unfold openStore at h
  split at h
  · dsimp only at h
    split at h
    · exact (Option.some.inj h).symm
    · cases h
  · cases h

theorem change_serve (site : Site) (s : Service F) (e : Event F) (hSync : s.Synced) :
    (serve site s e).2.Synced ∧ Change site e s.disk (serve site s e).2.disk := by
  cases e with
  | request r =>
    have hSynced : (serve site s (.request r)).2.Synced := by
      intro store hStore
      change (handle (site.env r) r.raw r.headers s.plane).2.store = some store at hStore
      change store.tables = ((handle (site.env r) r.raw r.headers s.plane).2.store.map
        (fun store => store.tables)).getD s.disk
      rw [hStore]
      rfl
    refine ⟨hSynced, ?_⟩
    change Change site (.request r) s.disk (((handle (site.env r) r.raw r.headers s.plane).2.store.map
        (fun store => store.tables)).getD s.disk)
    rcases handle_store site r s.plane with hKept | ⟨c, sample, hAuth, hStore⟩
    · rw [hKept]
      cases hStore : s.plane.store with
      | none => exact .kept
      | some store =>
        rw [Option.map_some, Option.getD_some, hSync store hStore]
        exact .kept
    · rw [hStore]
      cases hStore : s.plane.store with
      | none => exact .kept
      | some store =>
        rw [Option.map_some, Option.map_some, Option.getD_some, ← hSync store hStore]
        rcases RemoteStore.accept_cases site.lim site.crypto.sha256 r.engine (attempt r c sample) store with
          ⟨_, _, q, hAdmitted⟩ | ⟨_, _, hTouched⟩ | ⟨hTouched, _⟩
        · exact .admitted rfl hAuth hAdmitted
        · exact .touched rfl hAuth (Or.inr rfl) hTouched
        · exact .touched rfl hAuth (Or.inl rfl) hTouched
  | retention now fault =>
    cases hStore : s.plane.store with
    | none =>
      have hSame : (serve site s (.retention now fault)).2 = s := by
        simp only [serve, hStore]
      rw [hSame]
      exact ⟨hSync, .kept⟩
    | some store =>
      have hNext : (serve site s (.retention now fault)).2 =
          ⟨{ s.plane with
              store := some (RemoteStore.enforceRetention site.lim fault now store).2 },
            (RemoteStore.enforceRetention site.lim fault now store).2.tables⟩ := by
        simp only [serve, hStore]
      rw [hNext, ← hSync store hStore]
      refine ⟨?_, change_enforceRetention site _ fault now store⟩
      intro store' h
      cases h
      rfl
  | restart now tick fault =>
    change (start site now tick fault s.disk).Synced ∧
      Change site _ s.disk (start site now tick fault s.disk).disk
    unfold start
    cases hOpen : openStore site now fault s.disk with
    | none =>
      refine ⟨?_, .kept⟩
      intro store h
      cases h
    | some store =>
      rw [openStore_some hOpen]
      refine ⟨?_, change_enforceRetention site _ fault now ⟨s.disk, false, 0⟩⟩
      intro store' h
      cases h
      rfl

-- Where the Rows Come From

variable {events : List (Event F)} {e : Event F} {t t' : Tables F Bytes}

/-
  Every row was asked for by an authentic request among the
  events: its key, its digest, its body and its epochs are
  the ones of that request.
-/
structure Backed (site : Site) (events : List (Event F)) (t : Tables F Bytes) : Prop where
  run : ∀ row ∈ t.runs, ∃ r c sample, Event.request r ∈ events ∧ Authentic site r c sample ∧
      row.key = (c.probeId, c.run) ∧ row.maxSeq = c.seq ∧
      (sampleEpochOf sample).bindReal = .ok row.maxSampleEpoch
  receipt : ∀ row ∈ t.receipts, ∃ r c sample, Event.request r ∈ events ∧ Authentic site r c sample ∧
      row.key = (c.probeId, c.run, c.seq) ∧ row.bodyHash = site.crypto.sha256 r.raw ∧
      row.acceptedEpoch = r.clock.now
  sample : ∀ row ∈ t.samples, ∃ r c sample, Event.request r ∈ events ∧ Authentic site r c sample ∧
      row.key = (c.probeId, c.run, c.seq) ∧ row.bodyHash = site.crypto.sha256 r.raw ∧
      row.body = r.raw ∧ row.receivedEpoch = r.clock.now ∧
      (sampleEpochOf sample).bindReal = .ok row.sampleEpoch

theorem Backed.mono {later : List (Event F)} (h : Backed site events t)
    (hEvents : events ⊆ later) (hRuns : t'.runs ⊆ t.runs)
    (hReceipts : t'.receipts ⊆ t.receipts) (hSamples : t'.samples ⊆ t.samples) :
    Backed site later t' where
  run row hRow := by
    obtain ⟨r, c, sample, hEvent, hRest⟩ := h.run row (hRuns hRow)
    exact ⟨r, c, sample, hEvents hEvent, hRest⟩
  receipt row hRow := by
    obtain ⟨r, c, sample, hEvent, hRest⟩ := h.receipt row (hReceipts hRow)
    exact ⟨r, c, sample, hEvents hEvent, hRest⟩
  sample row hRow := by
    obtain ⟨r, c, sample, hEvent, hRest⟩ := h.sample row (hSamples hRow)
    exact ⟨r, c, sample, hEvents hEvent, hRest⟩

theorem Backed.pruned (h : Backed site events t) (now : F) (prospective : ℤ) :
    Backed site events (prune site.lim now prospective t).1 :=
  h.mono (List.Subset.refl _) (fun _ hRow => (RemoteStore.mem_prune_runs.mp hRow).1)
    (fun _ hRow => (RemoteStore.mem_prune_receipts.mp hRow).1)
    (fun _ hRow => (RemoteStore.prune_samples_subset hRow).1)

theorem Backed.activity (h : Backed site events t) (probeId run : PyStr) (now : F) :
    Backed site events (activity probeId run now t) where
  run row hRow := by
    obtain ⟨old, hOld, hKey, hSeq, hEpoch, _⟩ := RemoteStore.exists_of_mem_activity hRow
    rw [hKey, hSeq, hEpoch]
    exact h.run old hOld
  receipt := h.receipt
  sample := h.sample

theorem Backed.admitted {q : ℚ} (h : Backed site events t)
    (hEvent : Event.request r ∈ events) (hAuth : Authentic site r c sample)
    (hAdmitted : Admitted site.lim site.crypto.sha256 r.engine (attempt r c sample) q
      (prune site.lim r.clock.now 0 t).1 t') : Backed site events t' := by
  obtain ⟨n, hInserted⟩ := hAdmitted.inserted
  obtain ⟨epoch, t₁, hEpoch, hFirst, _, _, _, _, _, _, hLast⟩ := RemoteStore.savepoint_ok hInserted
  have hKept : Backed site events t₁ := by
    rw [hFirst]
    exact (h.pruned r.clock.now 0).pruned r.clock.now _
  rw [hLast]
  refine Backed.pruned ⟨?_, ?_, ?_⟩ r.clock.now 0
  · intro row hRow
    obtain ⟨old, hOld, _, ⟨hKey, hSame⟩ | ⟨hOther, hSame⟩⟩ := RemoteStore.exists_of_mem_admittedRuns hRow
    · refine ⟨r, c, sample, hEvent, hAuth, hKey, ?_, ?_⟩
      · rw [hSame]
        rfl
      · rw [hSame]
        exact hEpoch
    · rw [hSame]
      rcases List.mem_append.mp hOld with hOld | hNew
      · exact hKept.run old hOld
      · -- the only run that can be new is the one of the request
        split_ifs at hNew
        · rw [hSame, List.mem_singleton.mp hNew] at hOther
          exact absurd rfl hOther
        · cases hNew
  · intro row hRow
    rcases List.mem_append.mp hRow with hOld | hNew
    · exact hKept.receipt row hOld
    · rw [List.mem_singleton.mp hNew]
      exact ⟨r, c, sample, hEvent, hAuth, rfl, rfl, rfl⟩
  · intro row hRow
    rcases List.mem_append.mp hRow with hOld | hNew
    · exact hKept.sample row hOld
    · rw [List.mem_singleton.mp hNew]
      exact ⟨r, c, sample, hEvent, hAuth, rfl, rfl, rfl, rfl, hEpoch⟩

theorem Change.backed (hChange : Change site e t t') (h : Backed site events t) :
    Backed site (events ++ [e]) t' := by
  have hLater : Backed site (events ++ [e]) t :=
    h.mono (List.subset_append_left _ _) (List.Subset.refl _) (List.Subset.refl _) (List.Subset.refl _)
  have hLast : e ∈ events ++ [e] := List.mem_append_right _ List.mem_cons_self
  cases hChange with
  | kept => exact hLater
  | pruned now => exact hLater.pruned now 0
  | @touched r c sample t₀ _ _ _ hFrom hTouched =>
    have hBefore : Backed site (events ++ [e]) t₀ := by
      rcases hFrom with rfl | rfl
      · exact hLater
      · exact hLater.pruned _ 0
    rcases hTouched with rfl | rfl
    · exact hBefore
    · exact hBefore.activity _ _ _
  | admitted hEvent hAuth hAdmitted =>
    rw [hEvent] at hLast hLater ⊢
    exact hLater.admitted hLast hAuth hAdmitted

/-
  Whatever is sent to the plane, and whatever fails and is
  restarted, every row on the disk stems from an authentic
  request of the run.
-/
theorem stored_rows_signed (site : Site) (tick : F) (events : List (Event F)) :
    Backed site events (finalState (serve site) (Service.fresh tick) events).disk := by
  have hRun : (finalState (serve site) (Service.fresh tick) events).Synced ∧
      Backed site ((history (serve site) (Service.fresh tick) events).map Prod.fst)
        (finalState (serve site) (Service.fresh tick) events).disk := by
    refine (trace_history (serve site) (Service.fresh tick) events).history_invariant
      (I := fun h s => s.Synced ∧ Backed site (h.map Prod.fst) s.disk) ?_ ?_
    · refine ⟨?_, ?_, ?_, ?_⟩
      · intro store h
        cases h
      all_goals
        intro row hRow
        cases hRow
    · rintro h s e ⟨hSync, hBacked⟩ _
      obtain ⟨hNext, hChange⟩ := change_serve site s e hSync
      refine ⟨hNext, ?_⟩
      rw [List.map_append]
      exact hChange.backed hBacked
  rw [map_fst_history] at hRun
  exact hRun.2

-- Opening Again

theorem Authentic.presented (hAuth : Authentic site r c sample) {q : ℚ}
    (hValue : (sampleEpochOf sample).value? = some q) :
    ∃ members, Presented site.room (attempt r c sample) members := by
  obtain ⟨_, _, hLoads, hValid, hBytes⟩ := accepts_iff.mp hAuth.accepts
  have hNames := hAuth.names
  cases sample with
  | obj members =>
    have hKeys : keysAre members sampleKeys = true := by
      by_contra hNot
      rw [validateSample, if_neg hNot] at hValid
      cases hValid
    rcases hasFields_of_keysAre hKeys with ⟨x, hx⟩
    have hOk := (validateSample_iff hx).mp hValid
    rw [matchesClaim, getItem_of_item hx.probeId, getItem_of_item hx.run,
      getItem_of_item hx.seq, Bool.and_eq_true, Bool.and_eq_true] at hNames
    obtain ⟨⟨hProbe, hRun⟩, hSeq⟩ := hNames
    refine ⟨members, hLoads, hValid, hBytes, ?_, ?_, ?_, ?_⟩
    · cases hText : x.probeId with
      | str s =>
        rw [hText] at hProbe
        rw [hx.probeId, hText, of_decide_eq_true hProbe]
        rfl
      | _ => rw [hText] at hProbe; cases hProbe
    · cases hText : x.run with
      | str s =>
        rw [hText] at hRun
        rw [hx.run, hText, of_decide_eq_true hRun]
        rfl
      | _ => rw [hText] at hRun; cases hRun
    · have hInt := hOk.seq
      cases hNumber : x.seq with
      | int n =>
        rw [hNumber] at hSeq
        rw [hx.seq, hNumber, of_decide_eq_true hSeq]
        rfl
      | _ => rw [hNumber] at hInt; cases hInt
    · rw [sampleEpochOf, getItem_of_item hx.sampleEpoch] at hValue
      change ∃ v, RemoteStore.epochValue (sampleEpochOf (.obj members)) = some v ∧ _
      rw [sampleEpochOf, getItem_of_item hx.sampleEpoch, hx.sampleEpoch]
      cases hEpoch : x.sampleEpoch with
      | int n => exact ⟨_, rfl, rfl⟩
      | float y =>
        rw [hEpoch] at hValue
        cases y with
        | finite y => exact ⟨_, rfl, rfl⟩
        | nan => cases hValue
        | infinite negative => cases hValue
      | _ => rw [hEpoch] at hValue; cases hValue
  | _ => cases hValid

theorem representable_of_window (hExact : ∀ n : ℤ, |n| ≤ 2 ^ 53 → toRat (round n : F) = n)
    (clock : WallClock F) {a : RemoteStore.SampleEpoch F} {q : ℚ} (hValue : a.value? = some q)
    (hNonneg : 0 ≤ q) (hWindow : RemoteStore.InWindow clock.now q) :
    RemoteStore.Representable F a := by
  cases a with
  | int n =>
    cases hValue
    have hUpper := le_of_inWindow clock hWindow
    have hLower : 0 ≤ n := by exact_mod_cast hNonneg
    apply hExact
    rw [abs_of_nonneg hLower]
    omega
  | float x => exact True.intro
  | invalid => exact True.intro

theorem Change.consistent (hExact : ∀ n : ℤ, |n| ≤ 2 ^ 53 → toRat (round n : F) = n)
    (hClock : ∀ r, e = .request r → 0 ≤ toRat r.clock.now)
    (hChange : Change site e t t') (h : Consistent site.room site.crypto.sha256 t) :
    Consistent site.room site.crypto.sha256 t' := by
  cases hChange with
  | kept => exact h
  | pruned now => exact RemoteStore.consistent_prune h site.lim now 0
  | @touched r c sample t₀ _ _ _ hFrom hTouched =>
    have hBefore : Consistent site.room site.crypto.sha256 t₀ := by
      rcases hFrom with rfl | rfl
      · exact h
      · exact RemoteStore.consistent_prune h site.lim _ 0
    rcases hTouched with rfl | rfl
    · exact hBefore
    · exact RemoteStore.consistent_activity hBefore _ _ _
  | @admitted r c sample q _ hEvent hAuth hAdmitted =>
    obtain ⟨members, hPresented⟩ := hAuth.presented hAdmitted.value
    exact RemoteStore.consistent_admitted (RemoteStore.consistent_prune h site.lim _ 0) hPresented
      (representable_of_window hExact r.clock hAdmitted.value hAdmitted.nonneg hAdmitted.window)
      (hClock r hEvent) hAdmitted

theorem openStore_of_verified {disk : Tables F Bytes}
    (h : RemoteStore.verifyRows site.room site.crypto.sha256 disk = .ok true) (now : F) :
    ∃ store, openStore site now none disk = some store := by
  unfold openStore
  rw [h]
  exact ⟨_, rfl⟩

/-
  Where floats hold the integers of 53 bits and no request is
  served at a negative time, the rows always pass the checks
  of the next start: whatever was sent, a process that starts
  with a working engine has its store.
-/
theorem disk_reopens (site : Site) (tick : F) (events : List (Event F))
    (hExact : ∀ n : ℤ, |n| ≤ 2 ^ 53 → toRat (round n : F) = n)
    (hClock : ∀ r, Event.request r ∈ events → 0 ≤ toRat r.clock.now) :
    let s := finalState (serve site) (Service.fresh tick) events
    RemoteStore.verifyRows site.room site.crypto.sha256 s.disk = .ok true ∧ ∀ now tick', ∃ store,
        (serve site s (.restart now tick' none)).2.plane.store = some store := by
  have hRun : (finalState (serve site) (Service.fresh tick) events).Synced ∧
      Consistent site.room site.crypto.sha256 (finalState (serve site) (Service.fresh tick) events).disk := by
    induction events using List.reverseRecOn with
    | nil =>
      refine ⟨?_, RemoteStore.consistent_empty _ _⟩
      intro store h
      cases h
    | append_singleton events e ih =>
      obtain ⟨hSync, hInv⟩ := ih (fun r hr => hClock r (List.mem_append_left _ hr))
      rw [finalState_append]
      obtain ⟨hNext, hChange⟩ := change_serve site _ e hSync
      refine ⟨hNext, hChange.consistent hExact ?_ hInv⟩
      rintro r rfl
      exact hClock r (List.mem_append_right _ List.mem_cons_self)
  have hVerified := RemoteStore.verifyRows_of_consistent hRun.2
  refine ⟨hVerified, ?_⟩
  intro now tick'
  obtain ⟨store, hOpen⟩ := openStore_of_verified hVerified now
  refine ⟨store, ?_⟩
  change (start site now tick' none _).plane.store = some store
  rw [start, hOpen]

-- One Probe

/- Every digest is 32 zeros. -/
def zeroSite : Site := ⟨⟨fun _ => List.replicate 32 0, fun _ _ => List.replicate 32 0⟩, {}, 1000⟩

/- The first sample of the probe `edge`, at the epoch. -/
def edgeAttempt : RemoteStore.Attempt (Grid 1) := RemoteStore.plainAttempt 0 ⟨0⟩

def edgeClaim : Claim where
  probeId := edgeAttempt.probeId
  sentEpoch := 0
  run := edgeAttempt.run
  seq := 1
  signature := hexdigest (List.replicate 32 0)

def edgeRegistry : Registry := loneRegistry (pyStr "edge") (some loneEntry)

/- The request that sends it. -/
def edgeRequest : Posted (Grid 1) where
  raw := edgeAttempt.body
  headers := extractHeaders (requestHeaders edgeClaim.probeId 0 edgeClaim.run 1 edgeClaim.signature)
  ticks := (restingEnv edgeRegistry).ticks
  clock := (restingEnv edgeRegistry).clock
  registry := .published edgeRegistry
  engine := RemoteStore.idleEngine

theorem disk_reopens_edge : ∃ store, (serve zeroSite (finalState (serve zeroSite) (Service.fresh ⟨0⟩)
      [.restart ⟨0⟩ ⟨0⟩ none, .request edgeRequest]) (.restart ⟨1⟩ ⟨1⟩ none)).2.plane.store = some store := by
  have hExact : ∀ n : ℤ, |n| ≤ 2 ^ 53 → toRat (round n : Grid 1) = n := by
    intro n _
    have hGrid : (n : ℚ) = toRat (⟨n⟩ : Grid 1) := by
      simp [toRat, FloatText.toRat, Grid.toRat]
    rw [hGrid, round_toRat]
  have hClock : ∀ r, Event.request r ∈
      [Event.restart (⟨0⟩ : Grid 1) ⟨0⟩ none, .request edgeRequest] → 0 ≤ toRat r.clock.now := by
    intro r hr
    rcases List.mem_cons.mp hr with hr | hr
    · cases hr
    · cases List.mem_singleton.mp hr
      decide +kernel
  exact (disk_reopens zeroSite ⟨0⟩ _ hExact hClock).2 ⟨1⟩ ⟨1⟩

end SingboxOps.RemoteIngest
