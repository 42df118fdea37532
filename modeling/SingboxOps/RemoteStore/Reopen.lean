import SingboxOps.RemoteStore.Cases
import SingboxOps.RemoteProbe.Payload

/-
  The row checks of a reopened store.

  Every call keeps the tables consistent under any clock.
  The one check a call can break compares an integer epoch
  with the float its column rounded it to.
-/

namespace SingboxOps.RemoteStore

open PyFloat RemoteProbe

variable {F H : Type} [PyFloat F] [DecidableEq H]

-- The Reopen Gate

/- `PRAGMA foreign_key_check` finds nothing. -/
def foreignKeyCheck (t : Tables F H) : Bool := t.receipts.all (fun p =>
      t.runs.any (fun r => r.key == p.runKey)) &&
    t.samples.all (fun s => t.receipts.any (fun p => p.key == s.key))

/- Every run has a receipt at `max_seq` and none above it. -/
def progressionCheck (t : Tables F H) : Bool := t.runs.all (fun r =>
    t.receipts.any (fun p =>
        p.key == (r.probeId, r.run, r.maxSeq)) &&
      t.receipts.all (fun q => !(q.runKey == r.key) || decide (q.seq ≤ r.maxSeq)))

/- Every sample agrees with its receipt and its run. -/
def evidenceCheck (t : Tables F H) : Bool := t.samples.all (fun s => t.receipts.all (fun p =>
    t.runs.all (fun r =>
      !(p.key == s.key && r.key == s.runKey) || (decide (s.bodyHash = p.bodyHash) &&
          decide (toRat s.sampleEpoch ≤ toRat r.maxSampleEpoch) &&
          (!(s.seq == r.maxSeq) ||
            decide (toRat s.sampleEpoch = toRat r.maxSampleEpoch))))))

/- The state a run row must be in. -/
def runStateCheck (r : RunRow F) : Bool := probeIdGrammar r.probeId && runGrammar r.run &&
    decide (1 ≤ r.maxSeq ∧ r.maxSeq ≤ 2 ^ 63 - 1) &&
    decide (0 ≤ toRat r.maxSampleEpoch) &&
    decide (0 ≤ toRat r.createdEpoch) &&
    decide (0 ≤ toRat r.lastActivityEpoch) &&
    decide (toRat r.createdEpoch ≤ toRat r.lastActivityEpoch)

/- The state a receipt must be in, next to its run. -/
def receiptStateCheck (t : Tables F H) : Bool := t.receipts.all (fun p => t.runs.all (fun r =>
    !(r.key == p.runKey) || (decide (1 ≤ p.seq) &&
        decide (0 ≤ toRat p.acceptedEpoch) &&
        decide (toRat p.acceptedEpoch ≤ toRat r.lastActivityEpoch))))

/- `sample["sample_epoch"] == epoch`, for a stored float. -/
def epochEquals (v : Json F) (epoch : F) : Bool := match v with
  | .int n => decide ((n : ℚ) = toRat epoch)
  | .float (.finite x) => decide (toRat x = toRat epoch)
  | _ => false

/- The identity a stored body names is that of its row. -/
def identityCheck (members : List (PyStr × Json F)) (s : SampleRow F H) : Except PyError Bool := do
  let probeId ← item members "probe_id"
  let run ← item members "run"
  let seq ← item members "seq"
  let epoch ← item members "sample_epoch"
  return sameScalar probeId (.str s.probeId) && sameScalar run (.str s.run) && sameScalar seq (.int s.seq) &&
    epochEquals epoch s.sampleEpoch

/- The body of a stored sample, read and checked again. -/
def sampleCheck (room : ℕ) (sha256 : Bytes → H) (s : SampleRow F H) : Except PyError Bool := do
  let sample : Json F ← loadsBytes room s.body
  let problems ← validateSample sample
  match problems, sample with
  | [], .obj members => do
      let canonical ← canonicalBytes sample
      let identity ← identityCheck members s
      return decide (canonical = s.body) &&
        decide (sha256 s.body = s.bodyHash) && identity &&
        decide (0 ≤ toRat s.receivedEpoch)
  | _, _ => return false

/- Every stored sample passes. -/
def samplesCheck (room : ℕ) (sha256 : Bytes → H) : List (SampleRow F H) → Except PyError Bool
  | [] => .ok true
  | s :: rest => do
      let good ← sampleCheck room sha256 s
      if good then samplesCheck room sha256 rest
      else return false

/-
  The row checks of `_verify_schema`; the store is refused
  when they do not return true.
-/
def verifyRows (room : ℕ) (sha256 : Bytes → H) (t : Tables F H) : Except PyError Bool :=
  if foreignKeyCheck t && progressionCheck t &&
      evidenceCheck t && t.runs.all runStateCheck &&
      receiptStateCheck t then
    samplesCheck room sha256 t.samples
  else .ok false

-- Presented Attempts

/- The JSON value an epoch argument was read as. -/
def epochValue : SampleEpoch F → Option (Json F)
  | .int n => some (.int n)
  | .float x => some (.float (.finite x))
  | .invalid => none

/-
  The caller of `accept` presents a canonical, validated body
  whose own fields are the arguments.
-/
structure Presented (room : ℕ) (a : Attempt F) (members : List (PyStr × Json F)) : Prop where
  loads : loadsBytes room a.body = .ok (.obj members)
  valid : validateSample (.obj members) = .ok []
  canonical : canonicalBytes (.obj members) = .ok a.body
  probeId : item members "probe_id" = .ok (.str a.probeId)
  run : item members "run" = .ok (.str a.run)
  seq : item members "seq" = .ok (.int a.seq)
  epoch : ∃ v, epochValue a.sampleEpoch = some v ∧ item members "sample_epoch" = .ok v

/- The member of that name is the text. -/
def namesText (members : List (PyStr × Json F)) (key : String) (text : PyStr) : Bool :=
  match item members key with
  | .ok (.str s) => decide (s = text)
  | _ => false

/- The member of that name is the integer. -/
def namesInt (members : List (PyStr × Json F)) (key : String) (n : ℤ) : Bool :=
  match item members key with
  | .ok (.int m) => decide (m = n)
  | _ => false

/- The member of that name is the epoch argument. -/
def namesEpoch (members : List (PyStr × Json F)) (key : String) (arg : SampleEpoch F) : Bool :=
  match arg, item members key with
  | .int n, .ok (.int m) => decide (m = n)
  | .float x, .ok (.float (.finite y)) => decide (toRat y = toRat x)
  | _, _ => false

/- `Presented`, computed from the body. -/
def presentedCheck (room : ℕ) (a : Attempt F) : Bool := match loadsBytes room a.body with
  | .ok (.obj members) =>
    decide (validateSample (.obj members) = .ok []) &&
      decide (canonicalBytes (.obj members) = .ok a.body) &&
      namesText members "probe_id" a.probeId &&
      namesText members "run" a.run &&
      namesInt members "seq" a.seq &&
      namesEpoch members "sample_epoch" a.sampleEpoch
  | _ => false

theorem presented_of_check {room : ℕ} {a : Attempt F}
    (h : presentedCheck room a = true) : ∃ members, Presented room a members := by
  have hText : ∀ members key text,
        namesText members key text = true → item members key = .ok (.str text : Json F) := by
    intro members key text h
    unfold namesText at h
    split at h
    · next s hItem => rw [hItem, of_decide_eq_true h]
    · cases h
  have hInt : ∀ members key n, namesInt members key n = true → item members key = .ok (.int n : Json F) := by
    intro members key n h
    unfold namesInt at h
    split at h
    · next m hItem => rw [hItem, of_decide_eq_true h]
    · cases h
  have hEpoch : ∀ members key (arg : SampleEpoch F), namesEpoch members key arg = true →
          ∃ v, epochValue arg = some v ∧ item members key = .ok v := by
    intro members key arg h
    unfold namesEpoch at h
    split at h
    · next n m hItem =>
      rw [of_decide_eq_true h] at hItem
      exact ⟨_, rfl, hItem⟩
    · next x y hItem =>
      rw [toRat_injective (of_decide_eq_true h)] at hItem
      exact ⟨_, rfl, hItem⟩
    · cases h
  unfold presentedCheck at h
  split at h
  · next members hLoads =>
    simp only [Bool.and_eq_true, decide_eq_true_eq] at h
    rcases h with ⟨⟨⟨⟨⟨hValid, hCanonical⟩, hProbe⟩, hRun⟩, hSeq⟩, hArg⟩
    exact ⟨members, hLoads, hValid, hCanonical, hText _ _ _ hProbe, hText _ _ _ hRun, hInt _ _ _ hSeq,
      hEpoch _ _ _ hArg⟩
  · cases h

/- An epoch argument that its column stores unchanged. -/
def Representable (F : Type) [PyFloat F] : SampleEpoch F → Prop
  | .int n => toRat (PyFloat.round n : F) = n
  | _ => True

/- The identity fields of a valid sample pass their grammars. -/
theorem grammar_of_validateSample {members : List (PyStr × Json F)} {probeId run : PyStr}
    (hValid : validateSample (.obj members) = .ok [])
    (hProbe : item members "probe_id" = .ok (.str probeId))
    (hRun : item members "run" = .ok (.str run)) :
    probeIdGrammar probeId = true ∧ runGrammar run = true := by
  simp only [validateSample] at hValid
  have hKeys : keysAre members sampleKeys = true := by
    by_contra hKeys
    rw [if_neg hKeys] at hValid
    cases hValid
  rw [if_pos hKeys] at hValid
  rcases except_bind_ok hValid with ⟨_, _, h⟩
  rcases except_bind_ok h with ⟨probe, hProbe', h⟩
  rcases except_bind_ok h with ⟨run', hRun', h⟩
  rw [hProbe] at hProbe'
  rw [hRun] at hRun'
  cases hProbe'
  cases hRun'
  -- the other seventeen parts only add problems of their own
  iterate 17 rcases except_bind_ok h with ⟨_, _, h⟩
  have hNil := Except.ok.inj h
  simp only [List.append_eq_nil_iff] at hNil
  have hGood : ∀ (c : Bool) (text : String), problem (!c) text = [] → c = true := by
    intro c text h
    cases c with
    | true => rfl
    | false => cases h
  exact ⟨hGood _ _ hNil.1.1.1.1.1.1.1.1.1.1.2, hGood _ _ hNil.1.1.1.1.1.1.1.1.1.2⟩

/- The row of an accepted presented attempt passes again. -/
theorem sampleCheck_of_presented {room : ℕ} {sha256 : Bytes → H} {a : Attempt F}
    {members : List (PyStr × Json F)} {epoch : F}
    (hPresented : Presented room a members) (hExact : Representable F a.sampleEpoch)
    (hEpoch : a.sampleEpoch.bindReal = .ok epoch)
    (hNow : 0 ≤ toRat a.now) : sampleCheck room sha256
      (⟨a.probeId, a.run, a.seq, epoch, a.now, sha256 a.body, a.body⟩ : SampleRow F H) = .ok true := by
  rcases hPresented.epoch with ⟨v, hKind, hItem⟩
  have hEquals : epochEquals v epoch = true := by
    cases hArg : a.sampleEpoch with
    | int n =>
      rw [hArg] at hKind hEpoch hExact
      cases hKind
      rcases except_guard_ok hEpoch with ⟨_, rfl⟩
      exact decide_eq_true hExact.symm
    | float x =>
      rw [hArg] at hKind hEpoch
      cases hKind
      cases hEpoch
      exact decide_eq_true rfl
    | invalid =>
      rw [hArg] at hKind
      cases hKind
  have hIdentity : identityCheck members (⟨a.probeId, a.run, a.seq, epoch, a.now,
          sha256 a.body, a.body⟩ : SampleRow F H) =
        .ok true := by
    simp [identityCheck, hPresented.probeId, hPresented.run,
      hPresented.seq, hItem, hEquals, sameScalar, equalsInt,
      bind, Except.bind, pure, Except.pure]
  simp [sampleCheck, hPresented.loads, hPresented.valid,
    hPresented.canonical, hIdentity, hNow, bind, Except.bind,
    pure, Except.pure]

-- Consistent Tables

/- The facts about the tables that every call keeps. -/
structure Consistent (room : ℕ) (sha256 : Bytes → H) (t : Tables F H) : Prop where
  runKeys : (t.runs.map RunRow.key).Nodup
  receiptRun : ∀ p ∈ t.receipts, ∃ r ∈ t.runs, r.key = p.runKey
  sampleReceipt : ∀ s ∈ t.samples, ∃ p ∈ t.receipts, p.key = s.key
  highReceipt : ∀ r ∈ t.runs, ∃ p ∈ t.receipts, p.key = (r.probeId, r.run, r.maxSeq)
  noneAbove : ∀ r ∈ t.runs, ∀ p ∈ t.receipts, p.runKey = r.key → p.seq ≤ r.maxSeq
  hash : ∀ s ∈ t.samples, ∀ p ∈ t.receipts, p.key = s.key → s.bodyHash = p.bodyHash
  epochLe :
    ∀ s ∈ t.samples, ∀ r ∈ t.runs, r.key = s.runKey → toRat s.sampleEpoch ≤ toRat r.maxSampleEpoch
  epochEq : ∀ s ∈ t.samples, ∀ r ∈ t.runs, r.key = s.runKey →
      s.seq = r.maxSeq → s.sampleEpoch = r.maxSampleEpoch
  runState : ∀ r ∈ t.runs, runStateCheck r = true
  receiptSeq : ∀ p ∈ t.receipts, 1 ≤ p.seq ∧ 0 ≤ toRat p.acceptedEpoch
  receiptActivity : ∀ p ∈ t.receipts, ∀ r ∈ t.runs, r.key = p.runKey →
      toRat p.acceptedEpoch ≤ toRat r.lastActivityEpoch
  sampleState : ∀ s ∈ t.samples, sampleCheck room sha256 s = .ok true

theorem ReceiptRow.runKey_of_key {p : ReceiptRow F H} {probeId run : PyStr} {seq : ℤ}
    (h : p.key = (probeId, run, seq)) : p.runKey = (probeId, run) ∧ p.seq = seq := by
  simp only [ReceiptRow.key, Prod.mk.injEq] at h
  rcases h with ⟨rfl, rfl, rfl⟩
  exact ⟨rfl, rfl⟩

theorem consistent_empty (room : ℕ) (sha256 : Bytes → H) : Consistent room sha256 (.empty : Tables F H) := by
  constructor <;> simp [Tables.empty]

theorem run_eq_of_key {runs : List (RunRow F)} (hKeys : (runs.map RunRow.key).Nodup) {r r' : RunRow F}
    (hr : r ∈ runs) (hr' : r' ∈ runs)
    (hKey : r.key = r'.key) : r = r' :=
  List.inj_on_of_nodup_map hKeys hr hr' hKey

theorem consistent_prune {room : ℕ} {sha256 : Bytes → H} {t : Tables F H}
    (hInv : Consistent room sha256 t) (lim : Limits) (now : F)
    (prospective : ℤ) : Consistent room sha256 (prune lim now prospective t).1 where
  runKeys := by
    rw [prune_runs]
    exact hInv.runKeys.sublist (List.filter_sublist.map RunRow.key)
  receiptRun := by
    intro p hp
    rcases mem_prune_receipts.mp hp with ⟨hOld, hLive⟩
    rcases hInv.receiptRun p hOld with ⟨r, hr, hKey⟩
    exact ⟨r, mem_prune_runs.mpr ⟨hr, hLive r hr hKey⟩, hKey⟩
  sampleReceipt := by
    intro s hs
    rcases prune_samples_subset hs with ⟨hOld, hKept⟩
    rcases hInv.sampleReceipt s hOld with ⟨p, hp, hKey⟩
    exact ⟨p, hKept p hp hKey, hKey⟩
  highReceipt := by
    intro r hr
    rcases mem_prune_runs.mp hr with ⟨hOld, hLive⟩
    rcases hInv.highReceipt r hOld with ⟨p, hp, hKey⟩
    refine ⟨p, mem_prune_receipts.mpr ⟨hp, ?_⟩, hKey⟩
    intro r' hr' hKey'
    have hSame : r' = r := by
      apply run_eq_of_key hInv.runKeys hr' hOld
      rw [hKey', (ReceiptRow.runKey_of_key hKey).1]
      rfl
    rw [hSame]
    exact hLive
  noneAbove := fun r hr p hp =>
    hInv.noneAbove r (mem_prune_runs.mp hr).1 p (mem_prune_receipts.mp hp).1
  hash := fun s hs p hp =>
    hInv.hash s (prune_samples_subset hs).1 p (mem_prune_receipts.mp hp).1
  epochLe := fun s hs r hr =>
    hInv.epochLe s (prune_samples_subset hs).1 r (mem_prune_runs.mp hr).1
  epochEq := fun s hs r hr =>
    hInv.epochEq s (prune_samples_subset hs).1 r (mem_prune_runs.mp hr).1
  runState := fun r hr => hInv.runState r (mem_prune_runs.mp hr).1
  receiptSeq := fun p hp => hInv.receiptSeq p (mem_prune_receipts.mp hp).1
  receiptActivity := fun p hp r hr =>
    hInv.receiptActivity p (mem_prune_receipts.mp hp).1 r (mem_prune_runs.mp hr).1
  sampleState := fun s hs => hInv.sampleState s (prune_samples_subset hs).1

theorem runStateCheck_iff (r : RunRow F) : runStateCheck r = true ↔ probeIdGrammar r.probeId = true ∧
      runGrammar r.run = true ∧
      (1 ≤ r.maxSeq ∧ r.maxSeq ≤ 2 ^ 63 - 1) ∧
      0 ≤ toRat r.maxSampleEpoch ∧
      0 ≤ toRat r.createdEpoch ∧
      0 ≤ toRat r.lastActivityEpoch ∧
      toRat r.createdEpoch ≤ toRat r.lastActivityEpoch := by
  simp only [runStateCheck, Bool.and_eq_true, decide_eq_true_eq, and_assoc]

theorem consistent_activity {room : ℕ} {sha256 : Bytes → H} {t : Tables F H}
    (hInv : Consistent room sha256 t) (probeId run : PyStr)
    (now : F) : Consistent room sha256 (activity probeId run now t) where
  runKeys := by
    have hSame : (activity probeId run now t).runs.map RunRow.key = t.runs.map RunRow.key := by
      rw [activity, List.map_map]
      apply List.map_congr_left
      intro r _
      simp only [Function.comp]
      split_ifs <;> rfl
    rw [hSame]
    exact hInv.runKeys
  receiptRun := by
    intro p hp
    rcases hInv.receiptRun p hp with ⟨r, hr, hKey⟩
    refine ⟨_, List.mem_map_of_mem hr, ?_⟩
    split_ifs <;> exact hKey
  sampleReceipt := hInv.sampleReceipt
  highReceipt := by
    intro r hr
    rcases exists_of_mem_activity hr with ⟨r₀, hOld, hKey, hSeq, _⟩
    rcases hInv.highReceipt r₀ hOld with ⟨p, hp, hHigh⟩
    simp only [RunRow.key, Prod.mk.injEq] at hKey
    exact ⟨p, hp, by rw [hHigh, hKey.1, hKey.2, hSeq]⟩
  noneAbove := by
    intro r hr p hp hRun
    rcases exists_of_mem_activity hr with ⟨r₀, hOld, hKey, hSeq, _⟩
    rw [hSeq]
    exact hInv.noneAbove r₀ hOld p hp (hRun.trans hKey)
  hash := hInv.hash
  epochLe := by
    intro s hs r hr hRun
    rcases exists_of_mem_activity hr with ⟨r₀, hOld, hKey, _, hEpoch, _⟩
    rw [hEpoch]
    exact hInv.epochLe s hs r₀ hOld (hKey.symm.trans hRun)
  epochEq := by
    intro s hs r hr hRun hAt
    rcases exists_of_mem_activity hr with ⟨r₀, hOld, hKey, hSeq, hEpoch, _⟩
    rw [hEpoch]
    exact hInv.epochEq s hs r₀ hOld (hKey.symm.trans hRun) (hAt.trans hSeq)
  runState := by
    intro r hr
    rcases exists_of_mem_activity hr with ⟨r₀, hOld, hKey, hSeq, hEpoch, hCreated, hLe⟩
    simp only [RunRow.key, Prod.mk.injEq] at hKey
    have hState := (runStateCheck_iff r₀).mp (hInv.runState r₀ hOld)
    rw [runStateCheck_iff, hKey.1, hKey.2, hSeq, hEpoch, hCreated]
    rcases hState with ⟨hProbe, hRun, hMax, hMaxEpoch, hNonneg, hLast, hOrder⟩
    exact ⟨hProbe, hRun, hMax, hMaxEpoch, hNonneg, hLast.trans hLe, hOrder.trans hLe⟩
  receiptSeq := hInv.receiptSeq
  receiptActivity := by
    intro p hp r hr hRun
    rcases exists_of_mem_activity hr with ⟨r₀, hOld, hKey, _, _, _, hLe⟩
    exact (hInv.receiptActivity p hp r₀ hOld (hKey.symm.trans hRun)).trans hLe
  sampleState := hInv.sampleState

-- Admission

theorem exists_of_mem_admittedRuns {a : Attempt F} {epoch : F} {runs : List (RunRow F)} {r : RunRow F}
    (hr : r ∈ admittedRuns a epoch runs) :
    ∃ r₀ ∈ runs, r.key = r₀.key ∧ (r.key = (a.probeId, a.run) ∧
        r = { r₀ with
          maxSeq := a.seq
          maxSampleEpoch := epoch
          lastActivityEpoch := maxReal r₀.lastActivityEpoch a.now } ∨
        r.key ≠ (a.probeId, a.run) ∧ r = r₀) := by
  rcases List.mem_map.mp hr with ⟨r₀, hMem, rfl⟩
  refine ⟨r₀, hMem, ?_⟩
  split_ifs with hKey
  · exact ⟨rfl, Or.inl ⟨hKey, rfl⟩⟩
  · exact ⟨rfl, Or.inr ⟨hKey, rfl⟩⟩

theorem bindReal_eq_round {arg : SampleEpoch F} {epoch : F} {q : ℚ} (hBind : arg.bindReal = .ok epoch)
    (hValue : arg.value? = some q) : epoch = PyFloat.round q := by
  cases arg with
  | int n =>
    rcases except_guard_ok hBind with ⟨_, rfl⟩
    cases hValue
    rfl
  | float x =>
    cases hBind
    cases hValue
    rw [round_toRat]
  | invalid => cases hValue

section Inserted

variable {room : ℕ} {sha256 : Bytes → H} {a : Attempt F} {epoch : F}
variable {t : Tables F H} {extra : List (RunRow F)}

/- The three rows of an admission, and the rewritten run. -/
def insertedTables (sha256 : Bytes → H) (a : Attempt F) (epoch : F) (extra : List (RunRow F))
    (t : Tables F H) : Tables F H where
  runs := admittedRuns a epoch (t.runs ++ extra)
  receipts := t.receipts ++ [⟨a.probeId, a.run, a.seq, sha256 a.body, a.now⟩]
  samples := t.samples ++ [⟨a.probeId, a.run, a.seq, epoch, a.now, sha256 a.body, a.body⟩]

/-
  What an admission found and checked: a new run only where
  none is stored, no receipt of the tuple, and an older
  high-water of its run.
-/
structure Insertable (a : Attempt F) (epoch : F) (extra : List (RunRow F)) (t : Tables F H) : Prop where
  extraRun : ∀ r ∈ extra, r = ⟨a.probeId, a.run, a.seq, epoch, a.now, a.now⟩ ∧
        ∀ r' ∈ t.runs, r'.key ≠ (a.probeId, a.run)
  extraNodup : extra.Nodup
  hasRun : ∃ r ∈ t.runs ++ extra, r.key = (a.probeId, a.run)
  noReceipt : ∀ p ∈ t.receipts, p.key ≠ (a.probeId, a.run, a.seq)
  progress : ∀ r ∈ t.runs, r.key = (a.probeId, a.run) →
      r.maxSeq < a.seq ∧ toRat r.maxSampleEpoch ≤ toRat epoch
  seq : 1 ≤ a.seq ∧ a.seq ≤ 2 ^ 63 - 1
  epochNonneg : 0 ≤ toRat epoch
  nowNonneg : 0 ≤ toRat a.now
  grammar : probeIdGrammar a.probeId = true ∧ runGrammar a.run = true

theorem baseRun (hInv : Consistent room sha256 t) (hIns : Insertable a epoch extra t) {r : RunRow F}
    (hr : r ∈ t.runs ++ extra) :
    runStateCheck r = true ∧ (r.key ≠ (a.probeId, a.run) → r ∈ t.runs) := by
  rcases List.mem_append.mp hr with hOld | hNew
  · exact ⟨hInv.runState r hOld, fun _ => hOld⟩
  · have hRow := (hIns.extraRun r hNew).1
    subst hRow
    refine ⟨?_, fun hNe => absurd rfl hNe⟩
    rw [runStateCheck_iff]
    exact ⟨hIns.grammar.1, hIns.grammar.2, hIns.seq, hIns.epochNonneg, hIns.nowNonneg, hIns.nowNonneg,
      le_refl _⟩

theorem storedRun (hInv : Consistent room sha256 t) {p : ReceiptRow F H} (hp : p ∈ t.receipts)
    (hRun : p.runKey = (a.probeId, a.run)) : ∃ r ∈ t.runs, r.key = (a.probeId, a.run) := by
  rcases hInv.receiptRun p hp with ⟨r, hr, hKey⟩
  exact ⟨r, hr, hKey.trans hRun⟩

theorem sample_key_ne (hInv : Consistent room sha256 t)
    (hIns : Insertable a epoch extra t) {s : SampleRow F H}
    (hs : s ∈ t.samples) : s.key ≠ (a.probeId, a.run, a.seq) := by
  intro hKey
  rcases hInv.sampleReceipt s hs with ⟨p, hp, hSame⟩
  exact hIns.noReceipt p hp (hSame.trans hKey)

theorem consistent_inserted (hInv : Consistent room sha256 t) (hIns : Insertable a epoch extra t)
    (hSample : sampleCheck room sha256 (⟨a.probeId, a.run, a.seq, epoch, a.now,
          sha256 a.body, a.body⟩ : SampleRow F H) =
        .ok true) :
    Consistent room sha256 (insertedTables sha256 a epoch extra t) where
  runKeys := by
    have hSame : (insertedTables sha256 a epoch extra t).runs.map RunRow.key =
          (t.runs ++ extra).map RunRow.key := by
      rw [insertedTables, admittedRuns, List.map_map]
      apply List.map_congr_left
      intro r _
      simp only [Function.comp]
      split_ifs <;> rfl
    rw [hSame, List.map_append]
    refine hInv.runKeys.append ?_ ?_
    · apply hIns.extraNodup.map_on
      intro r hr r' hr' _
      rw [(hIns.extraRun r hr).1, (hIns.extraRun r' hr').1]
    · intro key hOld hNew
      rcases List.mem_map.mp hOld with ⟨r, hr, rfl⟩
      rcases List.mem_map.mp hNew with ⟨r', hr', hKey⟩
      rcases hIns.extraRun r' hr' with ⟨rfl, hFresh⟩
      exact hFresh r hr hKey.symm
  receiptRun := by
    have hImage : ∀ r ∈ t.runs ++ extra,
          ∃ r' ∈ (insertedTables sha256 a epoch extra t).runs, r'.key = r.key := by
      intro r hr
      refine ⟨_, List.mem_map_of_mem hr, ?_⟩
      split_ifs <;> rfl
    intro p hp
    rcases List.mem_append.mp hp with hOld | hNew
    · rcases hInv.receiptRun p hOld with ⟨r, hr, hKey⟩
      rcases hImage r (List.mem_append_left _ hr) with ⟨r', hr', hSame⟩
      exact ⟨r', hr', hSame.trans hKey⟩
    · rcases hIns.hasRun with ⟨r, hr, hKey⟩
      rcases hImage r hr with ⟨r', hr', hSame⟩
      refine ⟨r', hr', ?_⟩
      rw [List.mem_singleton.mp hNew]
      exact hSame.trans hKey
  sampleReceipt := by
    intro s hs
    rcases List.mem_append.mp hs with hOld | hNew
    · rcases hInv.sampleReceipt s hOld with ⟨p, hp, hKey⟩
      exact ⟨p, List.mem_append_left _ hp, hKey⟩
    · refine ⟨_, List.mem_append_right _ (List.mem_singleton_self _), ?_⟩
      rw [List.mem_singleton.mp hNew]
      rfl
  highReceipt := by
    intro r hr
    rcases exists_of_mem_admittedRuns hr with ⟨r₀, hBase, hKey, ⟨hRun, rfl⟩ | ⟨hRun, rfl⟩⟩
    · refine ⟨_, List.mem_append_right _ (List.mem_singleton_self _), ?_⟩
      simp only [RunRow.key, Prod.mk.injEq] at hRun
      simp only [ReceiptRow.key, Prod.mk.injEq]
      exact ⟨hRun.1.symm, hRun.2.symm, trivial⟩
    · rcases hInv.highReceipt r ((baseRun hInv hIns hBase).2 hRun) with ⟨p, hp, hHigh⟩
      exact ⟨p, List.mem_append_left _ hp, hHigh⟩
  noneAbove := by
    intro r hr p hp hPair
    rcases exists_of_mem_admittedRuns hr with ⟨r₀, hBase, hKey, ⟨hRun, rfl⟩ | ⟨hRun, rfl⟩⟩
    · rcases List.mem_append.mp hp with hOld | hNew
      · rcases storedRun hInv hOld (hPair.trans hRun) with ⟨r₁, hr₁, hKey₁⟩
        have hLe := hInv.noneAbove r₁ hr₁ p hOld ((hPair.trans hRun).trans hKey₁.symm)
        exact hLe.trans (hIns.progress r₁ hr₁ hKey₁).1.le
      · rw [List.mem_singleton.mp hNew]
    · rcases List.mem_append.mp hp with hOld | hNew
      · exact hInv.noneAbove r ((baseRun hInv hIns hBase).2 hRun) p hOld hPair
      · rw [List.mem_singleton.mp hNew] at hPair
        exact absurd hPair.symm hRun
  hash := by
    intro s hs p hp hKey
    rcases List.mem_append.mp hs with hOld | hNew
    · rcases List.mem_append.mp hp with hOld' | hNew'
      · exact hInv.hash s hOld p hOld' hKey
      · rw [List.mem_singleton.mp hNew'] at hKey
        exact absurd hKey.symm (sample_key_ne hInv hIns hOld)
    · rcases List.mem_append.mp hp with hOld' | hNew'
      · rw [List.mem_singleton.mp hNew] at hKey
        exact absurd hKey (hIns.noReceipt p hOld')
      · rw [List.mem_singleton.mp hNew, List.mem_singleton.mp hNew']
  epochLe := by
    intro s hs r hr hPair
    rcases exists_of_mem_admittedRuns hr with ⟨r₀, hBase, hKey, ⟨hRun, rfl⟩ | ⟨hRun, rfl⟩⟩
    · rcases List.mem_append.mp hs with hOld | hNew
      · rcases hInv.sampleReceipt s hOld with ⟨p, hp, hSame⟩
        have hOwner : p.runKey = s.runKey := (ReceiptRow.runKey_of_key hSame).1
        rcases storedRun hInv hp ((hOwner.trans hPair.symm).trans hRun) with ⟨r₁, hr₁, hKey₁⟩
        have hLe := hInv.epochLe s hOld r₁ hr₁ (hKey₁.trans (hRun.symm.trans hPair))
        exact hLe.trans (hIns.progress r₁ hr₁ hKey₁).2
      · rw [List.mem_singleton.mp hNew]
    · rcases List.mem_append.mp hs with hOld | hNew
      · exact hInv.epochLe s hOld r ((baseRun hInv hIns hBase).2 hRun) hPair
      · rw [List.mem_singleton.mp hNew] at hPair
        exact absurd hPair hRun
  epochEq := by
    intro s hs r hr hPair hAt
    rcases exists_of_mem_admittedRuns hr with ⟨r₀, hBase, hKey, ⟨hRun, rfl⟩ | ⟨hRun, rfl⟩⟩
    · rcases List.mem_append.mp hs with hOld | hNew
      · have hSame : s.key = (a.probeId, a.run, a.seq) := by
          have hOwner := hPair.symm.trans hRun
          simp only [SampleRow.runKey, Prod.mk.injEq] at hOwner
          simp only [SampleRow.key, Prod.mk.injEq]
          exact ⟨hOwner.1, hOwner.2, hAt⟩
        exact absurd hSame (sample_key_ne hInv hIns hOld)
      · rw [List.mem_singleton.mp hNew]
    · rcases List.mem_append.mp hs with hOld | hNew
      · exact hInv.epochEq s hOld r ((baseRun hInv hIns hBase).2 hRun) hPair hAt
      · rw [List.mem_singleton.mp hNew] at hPair
        exact absurd hPair hRun
  runState := by
    intro r hr
    rcases exists_of_mem_admittedRuns hr with ⟨r₀, hBase, hKey, ⟨hRun, rfl⟩ | ⟨hRun, rfl⟩⟩
    · have hState := (runStateCheck_iff r₀).mp (baseRun hInv hIns hBase).1
      rcases hState with ⟨hProbe, hRunOk, _, _, hNonneg, hLast, hOrder⟩
      rw [runStateCheck_iff]
      have hUp := le_maxReal_left r₀.lastActivityEpoch a.now
      exact ⟨hProbe, hRunOk, hIns.seq, hIns.epochNonneg, hNonneg, hLast.trans hUp, hOrder.trans hUp⟩
    · exact (baseRun hInv hIns hBase).1
  receiptSeq := by
    intro p hp
    rcases List.mem_append.mp hp with hOld | hNew
    · exact hInv.receiptSeq p hOld
    · rw [List.mem_singleton.mp hNew]
      exact ⟨hIns.seq.1, hIns.nowNonneg⟩
  receiptActivity := by
    intro p hp r hr hPair
    rcases exists_of_mem_admittedRuns hr with ⟨r₀, hBase, hKey, ⟨hRun, rfl⟩ | ⟨hRun, rfl⟩⟩
    · rcases List.mem_append.mp hp with hOld | hNew
      · rcases storedRun hInv hOld (hPair.symm.trans hRun) with ⟨r₁, hr₁, hKey₁⟩
        rcases List.mem_append.mp hBase with hOld' | hNew'
        · exact (hInv.receiptActivity p hOld r₀ hOld' (hKey.symm.trans hPair)).trans (le_maxReal_left _ _)
        · exact absurd hKey₁ ((hIns.extraRun r₀ hNew').2 r₁ hr₁)
      · rw [List.mem_singleton.mp hNew]
        exact le_maxReal_right _ _
    · rcases List.mem_append.mp hp with hOld | hNew
      · exact hInv.receiptActivity p hOld r ((baseRun hInv hIns hBase).2 hRun) hPair
      · rw [List.mem_singleton.mp hNew] at hPair
        exact absurd hPair hRun
  sampleState := by
    intro s hs
    rcases List.mem_append.mp hs with hOld | hNew
    · exact hInv.sampleState s hOld
    · rw [List.mem_singleton.mp hNew]
      exact hSample

end Inserted

/- An accepted presented attempt keeps the tables consistent. -/
theorem consistent_admitted {room : ℕ} {sha256 : Bytes → H} {lim : Limits} {engine : Engine}
    {a : Attempt F} {members : List (PyStr × Json F)} {q : ℚ}
    {t t' : Tables F H} (hInv : Consistent room sha256 t)
    (hPresented : Presented room a members)
    (hExact : Representable F a.sampleEpoch) (hNow : 0 ≤ toRat a.now)
    (hAdmitted : Admitted lim sha256 engine a q t t') : Consistent room sha256 t' := by
  rcases hAdmitted.inserted with ⟨n, hSavepoint⟩
  rcases savepoint_ok hSavepoint with ⟨epoch, t₁, hBind, hFirst, hSeq, hNonneg, _, _, hFresh, hHas, rfl⟩
  have hInv₁ : Consistent room sha256 t₁ := by
    rw [hFirst]
    exact consistent_prune hInv _ _ _
  have hRound := bindReal_eq_round hBind hAdmitted.value
  refine consistent_prune ?_ lim a.now 0
  refine consistent_inserted hInv₁ ?_ (sampleCheck_of_presented hPresented hExact hBind hNow)
  constructor
  · intro r hr
    split_ifs at hr with hNew
    · exact ⟨List.mem_singleton.mp hr, hFresh hNew⟩
    · cases hr
  · split_ifs
    · exact List.nodup_singleton _
    · exact List.nodup_nil
  · exact hHas
  · intro p hp
    rw [hFirst] at hp
    exact hAdmitted.noReceipt p (mem_prune_receipts.mp hp).1
  · intro r hr hKey
    rw [hFirst] at hr
    have hOld := (mem_prune_runs.mp hr).1
    have hSome : (t.runs.find? (fun r => r.key == (a.probeId, a.run))).isSome = true := by
      rw [List.find?_isSome]
      exact ⟨r, hOld, by simpa using hKey⟩
    rcases Option.isSome_iff_exists.mp hSome with ⟨r₀, hFind⟩
    have hKey₀ := List.find?_some hFind
    rw [beq_iff_eq] at hKey₀
    have hSame : r = r₀ := run_eq_of_key hInv.runKeys hOld (List.mem_of_find?_eq_some hFind)
        (hKey.trans hKey₀.symm)
    have hProgress := hAdmitted.progress r₀ hFind
    rw [hSame, hRound]
    exact ⟨hProgress.1, le_round_of_le hProgress.2.le⟩
  · exact ⟨hSeq, by
      have hUpper := hAdmitted.seqInteger.2
      omega⟩
  · exact hNonneg
  · exact hNow
  · exact grammar_of_validateSample hPresented.valid hPresented.probeId hPresented.run

-- Reachable Stores

/-
  An accept call presents a canonical validated body at a
  time that is not negative.
-/
def PresentedCall (room : ℕ) (_ : Store F H) (c : Call F) : Prop :=
  ∀ a engine, c = .accept a engine → 0 ≤ toRat a.now ∧ ∃ members, Presented room a members

/-
  An epoch inside the window of a new sample is, besides, one
  that the column can represent.
-/
def ExactCall (room : ℕ) (s : Store F H) (c : Call F) : Prop := PresentedCall room s c ∧
    ∀ a engine, c = .accept a engine →
      ∀ q, a.sampleEpoch.value? = some q → InWindow a.now q → Representable F a.sampleEpoch

theorem consistent_reachable {room : ℕ} {lim : Limits} {sha256 : Bytes → H} {s : Store F H}
    (hReach : Reachable (step lim sha256) (ExactCall room) Store.empty s) :
    Consistent room sha256 s.tables := by
  refine reachable_tables (I := Consistent room sha256) (consistent_empty room sha256) ?_ ?_ ?_ hReach
  · intro s c _ hInv
    exact consistent_prune hInv _ _ _
  · intro s a engine t _ hInv
    exact consistent_activity hInv _ _ _
  · intro s a engine q t' hCall hInv hAdmitted
    rcases hCall.1 a engine rfl with ⟨hNow, members, hPresented⟩
    exact consistent_admitted (consistent_prune hInv lim a.now 0) hPresented
      (hCall.2 a engine rfl q hAdmitted.value hAdmitted.window) hNow hAdmitted

theorem samplesCheck_of_all {room : ℕ} {sha256 : Bytes → H} {samples : List (SampleRow F H)}
    (hAll : ∀ s ∈ samples, sampleCheck room sha256 s = .ok true) :
    samplesCheck room sha256 samples = .ok true := by
  induction samples with
  | nil => rfl
  | cons s rest ih =>
    rw [samplesCheck, hAll s (by simp)]
    exact ih (fun s' hs' => hAll s' (by simp [hs']))

theorem verifyRows_of_consistent {room : ℕ} {sha256 : Bytes → H} {t : Tables F H}
    (hInv : Consistent room sha256 t) : verifyRows room sha256 t = .ok true := by
  have hForeign : foreignKeyCheck t = true := by
    simp only [foreignKeyCheck, Bool.and_eq_true, List.all_eq_true, List.any_eq_true, beq_iff_eq]
    exact ⟨hInv.receiptRun, hInv.sampleReceipt⟩
  have hProgression : progressionCheck t = true := by
    simp only [progressionCheck, Bool.and_eq_true, List.all_eq_true,
      List.any_eq_true, beq_iff_eq, Bool.or_eq_true,
      Bool.not_eq_true', decide_eq_true_eq, beq_eq_false_iff_ne]
    intro r hr
    refine ⟨hInv.highReceipt r hr, fun p hp => ?_⟩
    by_cases hKey : p.runKey = r.key
    · exact Or.inr (hInv.noneAbove r hr p hp hKey)
    · exact Or.inl hKey
  have hEvidence : evidenceCheck t = true := by
    simp only [evidenceCheck, List.all_eq_true, Bool.or_eq_true,
      Bool.not_eq_true', Bool.and_eq_true, Bool.and_eq_false_iff,
      beq_eq_false_iff_ne, decide_eq_true_eq]
    intro s hs p hp r hr
    by_cases hKey : p.key = s.key
    · by_cases hRun : r.key = s.runKey
      · right
        refine ⟨⟨hInv.hash s hs p hp hKey, hInv.epochLe s hs r hr hRun⟩, ?_⟩
        by_cases hAt : s.seq = r.maxSeq
        · right
          rw [hInv.epochEq s hs r hr hRun hAt]
        · exact Or.inl hAt
      · exact Or.inl (Or.inr hRun)
    · exact Or.inl (Or.inl hKey)
  have hReceipts : receiptStateCheck t = true := by
    simp only [receiptStateCheck, List.all_eq_true, Bool.or_eq_true, Bool.not_eq_true', Bool.and_eq_true,
      beq_eq_false_iff_ne, decide_eq_true_eq]
    intro p hp r hr
    by_cases hKey : r.key = p.runKey
    · exact Or.inr ⟨hInv.receiptSeq p hp, hInv.receiptActivity p hp r hr hKey⟩
    · exact Or.inl hKey
  have hRuns : t.runs.all runStateCheck = true := List.all_eq_true.mpr hInv.runState
  rw [verifyRows, hForeign, hProgression, hEvidence, hRuns, hReceipts]
  exact samplesCheck_of_all hInv.sampleState

/-
  Every store that calls with representable epochs reach is
  accepted by the row checks when it is opened again.
-/
theorem verifyRows_reachable {room : ℕ} {lim : Limits} {sha256 : Bytes → H} {s : Store F H}
    (hReach : Reachable (step lim sha256) (ExactCall room) Store.empty s) :
    verifyRows room sha256 s.tables = .ok true :=
  verifyRows_of_consistent (consistent_reachable hReach)

/- A probe result that took a millisecond. -/
def plainSlot (more : List (PyStr × Json F)) : Json F :=
  .obj ([(pyStr "status", .str (pyStr "ok")), (pyStr "latency_ms", .int 1),
    (pyStr "error_code", .str (pyStr "NONE"))] ++ more)

/- The first sample of a run, with an integer epoch. -/
def plainSample (run : PyStr) (epoch : ℤ) : Json F := .obj [(pyStr "v", .int 1),
    (pyStr "probe_id", .str (pyStr "edge")),
    (pyStr "run", .str run),
    (pyStr "seq", .int 1),
    (pyStr "sample_epoch", .int epoch),
    (pyStr "dns", plainSlot []),
    (pyStr "https", plainSlot []),
    (pyStr "vps_tcp", plainSlot []),
    (pyStr "egress", plainSlot [(pyStr "ip", .null), (pyStr "change", .str (pyStr "unknown"))]),
    (pyStr "mihomo_api", .obj [(pyStr "status", .str (pyStr "ok"))]),
    (pyStr "active", .arr []),
    (pyStr "flags", .obj [(pyStr "truncated", .bool false), (pyStr "source_unavailable", .arr [])])]

/- The attempt that presents it. -/
def plainAttempt (epoch : ℤ) (now : F) : Attempt F :=
  let run := List.replicate 32 97
  { probeId := pyStr "edge"
    run := run
    seq := 1
    sampleEpoch := .int epoch
    body := asciiEncode
      (Json.render (Json.sortKeys (plainSample (F := F) run epoch)))
    now := now }

/- A first sample whose epoch fits its column. -/
theorem verifyRows_reachable_of_first : verifyRows 10 id
      (step {} (id : Bytes → Bytes) Store.empty (.accept (plainAttempt 1000000 (⟨500000⟩ : Grid 2))
          idleEngine)).2.tables = .ok true := by
  apply verifyRows_reachable
  refine Reachable.step_of Reachable.refl _ ⟨?_, ?_⟩
  · intro a engine hCall
    cases hCall
    exact ⟨by decide +kernel,
      presented_of_check (by decide +kernel)⟩
  · intro a engine hCall q _ _
    cases hCall
    change toRat (PyFloat.round 1000000 : Grid 2) = 1000000
    decide +kernel

/-
  An integer epoch between two floats is rounded by its
  column, and the body no longer names the stored epoch: the
  store such a call leaves is refused.
-/
theorem verifyRows_refuses_rounded_epoch : ¬ ∀ s : Store (Grid 2) Bytes,
      Reachable (step {} id) (PresentedCall 10) Store.empty s →
      verifyRows 10 id s.tables = .ok true := by
  intro hClaim
  have hGood := hClaim (step {} id Store.empty (.accept (plainAttempt 9007199254740995 ⟨4503599627370496⟩)
        idleEngine)).2
    (by
      refine Reachable.step_of Reachable.refl _ ?_
      intro a engine hCall
      cases hCall
      exact ⟨by decide +kernel, presented_of_check (by decide +kernel)⟩)
  revert hGood
  decide +kernel

end SingboxOps.RemoteStore
