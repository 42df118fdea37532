import SingboxOps.JournalIngest.Pass
import SingboxOps.Lib.Trace

/-
  Every sequence number is settled exactly once.

  The numbers the passes of a run settled are those from one
  to the terminal, in ascending order; the counters of the
  continuity row count them by disposition.
-/

namespace SingboxOps.JournalIngest

variable {F : Type} [PyFloat F]

/- The number of entries with a disposition. -/
def countOf (d : Disposition) (log : List Settlement) : ℕ := log.countP (fun x => x.disposition = d)

theorem countOf_append (d : Disposition)
    (xs ys : List Settlement) : countOf d (xs ++ ys) = countOf d xs + countOf d ys :=
  List.countP_append

/-
  The log holds the numbers below `seq`, the ledger counts
  them, and its runs lie below `seq` too.
-/
structure Settled (log : List Settlement) (seq : ℕ) (t : Ledger F) : Prop where
  numbers : log.map Settlement.seq = List.range' 1 (seq - 1)
  positive : 1 ≤ seq
  runs : ∀ r ∈ t.runs, r.seq < seq
  state : ∃ st, t.state = some st ∧ st.terminalSeq = (seq : ℤ) - 1 ∧ st.gapsTotal = countOf .gap log ∧
      st.rejectedTotal = countOf .rejected log

theorem count_dispositions (log : List Settlement) : log.length =
      countOf .gap log + countOf .rejected log + countOf .applied log := by
  induction log with
  | nil => rfl
  | cons x log ih =>
    rcases x with ⟨seq, d⟩
    simp only [countOf, List.countP_cons, List.length_cons] at ih ⊢
    cases d <;> simp <;> omega

-- What a Statement Does

omit [PyFloat F] in
theorem updateIngestState_ok {bound : List ℤ} {f : IngestState F → IngestState F}
    {t t' : Ledger F} {st : IngestState F}
    (h : updateIngestState bound f t = .ok ((), t'))
    (hState : t.state = some st) : t' = { t with state := some (f st) } := by
  rw [updateIngestState, hState] at h
  dsimp only at h
  split at h
  · split at h
    · cases h
      rfl
    · cases h
  · cases h

omit [PyFloat F] in
theorem insertAudit_ok {rows : List (AuditRow F)} {t t' : Ledger F}
    (h : insertAudit rows t = .ok ((), t')) : t' = { t with audit := t.audit ++ rows } := by
  rw [insertAudit] at h
  split at h
  · cases h
    rfl
  · cases h

omit [PyFloat F] in
theorem insertRun_ok {r : JournalRun F} {t t' : Ledger F}
    (h : insertRun r t = .ok ((), t')) : t' = { t with runs := t.runs ++ [r] } := by
  rw [insertRun] at h
  split at h
  · split at h
    · cases h
      rfl
    · cases h
  · cases h

theorem insertEvents_ok {es : List (JournalEvent F)} {t t' : Ledger F}
    (h : insertEvents es t = .ok ((), t')) : t' = { t with events := t.events ++ es } := by
  rw [insertEvents] at h
  split at h
  · split at h
    · cases h
      rfl
    · cases h
  · cases h

-- What a Settlement Leaves

variable {log : List Settlement} {seq : ℕ} {t : Ledger F}

/- The log grows by the next numbers. -/
omit [PyFloat F] in
theorem Settled.extend {u : Ledger F} (h : Settled log seq t) (more : List Settlement)
    (hMore : more.map Settlement.seq = List.range' seq more.length)
    (hRuns : ∀ r ∈ u.runs, r.seq < (seq + more.length : ℕ))
    {st : IngestState F} (hState : u.state = some st)
    (hTerminal : st.terminalSeq = ((seq + more.length : ℕ) : ℤ) - 1)
    (hGaps : st.gapsTotal = countOf .gap log + countOf .gap more)
    (hRejected : st.rejectedTotal = countOf .rejected log + countOf .rejected more) :
    Settled (log ++ more) (seq + more.length) u := by
  have hPositive := h.positive
  refine ⟨?_, by omega, hRuns, st, hState, hTerminal, ?_, ?_⟩
  · rw [List.map_append, h.numbers, hMore]
    have hStart : seq = 1 + (seq - 1) := by omega
    have hLength : seq + more.length - 1 = (seq - 1) + more.length := by
      omega
    rw [hLength, ← List.range'_append_1, ← hStart]
  · rw [hGaps, countOf_append]
    exact (Nat.cast_add _ _).symm
  · rw [hRejected, countOf_append]
    exact (Nat.cast_add _ _).symm

/- The entries a gap adds to the log. -/
def gapLog (seq nxt : ℕ) : List Settlement := (List.range' seq (nxt - seq)).map (fun s => ⟨s, .gap⟩)

@[simp] theorem length_gapLog (seq nxt : ℕ) : (gapLog seq nxt).length = nxt - seq := by
  simp [gapLog]

theorem map_seq_gapLog (seq nxt : ℕ) : (gapLog seq nxt).map Settlement.seq = List.range' seq (nxt - seq) := by
  rw [gapLog, List.map_map]
  exact List.map_id _

theorem countOf_gapLog (d : Disposition)
    (seq nxt : ℕ) : countOf d (gapLog seq nxt) = if d = .gap then nxt - seq else 0 := by
  rw [countOf, gapLog, List.countP_map]
  split
  · rename_i hd
    subst hd
    rw [List.countP_eq_length.mpr]
    · exact List.length_range'
    · intro s _
      rfl
  · rename_i hd
    apply List.countP_eq_zero.mpr
    intro s _ hs
    exact hd (of_decide_eq_true hs).symm

theorem journalSettleGap_settled {nxt : ℕ} (h : Settled log seq t) (hBelow : seq < nxt) (memory : ℕ)
    (now : F) : Returns t (journalSettleGap memory seq nxt now)
      (fun _ t' => Settled (log ++ gapLog seq nxt) nxt t') := by
  rcases h.state with ⟨st, hState, hTerminal, hGaps, hRejected⟩
  apply Returns.bind_ofExcept
  intro rows hRows
  apply Returns.bind_execute
  intro _ t1 hInsert
  have hAudit := insertAudit_ok hInsert
  subst hAudit
  apply Returns.bind_execute
  intro _ t2 hUpdate
  have hMoved := updateIngestState_ok hUpdate hState
  subst hMoved
  apply Returns.commit
  have hEnd : nxt = seq + (gapLog seq nxt).length := by
    rw [length_gapLog]
    omega
  have hSettled := h.extend
    (u := { t with
      audit := t.audit ++ rows
      state := some
        { st with
          terminalSeq := (nxt : ℤ) - 1
          gapsTotal := st.gapsTotal + ((nxt : ℤ) - seq)
          updatedEpoch := now } })
    (gapLog seq nxt) (by rw [map_seq_gapLog, length_gapLog])
    (by
      intro r hr
      have hRun := h.runs r hr
      push_cast
      omega)
    rfl
    (by rw [← hEnd])
    (by
      dsimp only
      rw [hGaps, countOf_gapLog, if_pos rfl]
      omega)
    (by
      dsimp only
      rw [hRejected, countOf_gapLog]
      simp)
  rw [← hEnd] at hSettled
  exact hSettled

theorem journalSettleRejected_settled (h : Settled log seq t) (code : AuditCode)
    (now : F) : Returns t (journalSettleRejected seq code now)
      (fun _ t' => Settled (log ++ [⟨seq, .rejected⟩]) (seq + 1) t') := by
  rcases h.state with ⟨st, hState, hTerminal, hGaps, hRejected⟩
  apply Returns.bind_execute
  intro _ t1 hInsert
  have hAudit := insertAudit_ok hInsert
  subst hAudit
  apply Returns.bind_execute
  intro _ t2 hUpdate
  have hMoved := updateIngestState_ok hUpdate hState
  subst hMoved
  apply Returns.commit
  apply h.extend [⟨seq, .rejected⟩] rfl _ rfl
  · push_cast
    simp
  · dsimp only
    rw [hGaps]
    simp [countOf]
  · dsimp only
    rw [hRejected]
    simp [countOf]
  · intro r hr
    have hRun := h.runs r hr
    push_cast
    simp only [List.length_singleton]
    omega

theorem journalApply_settled (h : Settled log seq t) (header : Header) (records : List (Event F))
    (now : F) : Returns t (journalApplyLocked header records seq now)
      (fun _ t' => Settled (log ++ [⟨seq, .applied⟩]) (seq + 1) t') := by
  rcases h.state with ⟨st, hState, hTerminal, hGaps, hRejected⟩
  apply Returns.bind_execute
  intro _ t1 hRunInsert
  have hRuns := insertRun_ok hRunInsert
  subst hRuns
  apply Returns.bind_execute
  intro _ t2 hEventInsert
  have hEvents := insertEvents_ok hEventInsert
  subst hEvents
  apply Returns.bind_execute
  intro _ t3 hUpdate
  have hMoved := updateIngestState_ok hUpdate hState
  subst hMoved
  apply Returns.commit
  apply h.extend [⟨seq, .applied⟩] rfl _ rfl
  · push_cast
    simp
  · dsimp only
    rw [hGaps]
    simp [countOf]
  · dsimp only
    rw [hRejected]
    simp [countOf]
  · intro r hr
    simp only [List.length_singleton]
    push_cast
    rcases List.mem_append.mp hr with hOld | hNew
    · have hRun := h.runs r hOld
      omega
    · have hRow := List.mem_singleton.mp hNew
      rw [hRow]
      dsimp only [runRow]
      omega

-- What a Pass Leaves

/-
  A pass begun on `origin` has come to `p`: its settlements
  continue the log, and without one the ledger is as it was.
-/
structure Come (log : List Settlement) (origin : Ledger F) (p : Progress F) : Prop where
  settled : Settled (log ++ p.settled) p.seq p.ledger
  untouched : p.settled = [] → p.ledger = origin

/- How far a stage came, whether or not it stopped the pass. -/
def progress (stage : Stage F) : Progress F := match stage with
  | .ok p => p
  | .error (_, p) => p

/- Wherever a stage ends, it has come there. -/
def Sound (log : List Settlement) (origin : Ledger F) (stage : Stage F) : Prop :=
  Come log origin (progress stage)

variable {origin : Ledger F}

omit [PyFloat F] in
theorem settle_sound {p : Progress F} (h : Come log origin p)
    {work : Work F Unit} {landed : Progress F → Progress F}
    (hWork : Returns p.ledger work (fun _ t' =>
        Come log origin (landed { p with ledger := t', faults := p.faults.tail }))) :
    Sound log origin (settle work landed p) := by
  unfold settle
  cases hRun : transact work (p.faults.headD []) p.ledger with
  | mk result ledger =>
    cases result with
    | ok a =>
      have hLanded := transact_ok hWork (congrArg Prod.fst hRun)
      rw [hRun] at hLanded
      exact hLanded
    | error e => cases e <;> exact ⟨h.settled, h.untouched⟩

omit [PyFloat F] in
theorem Sound.bind {x : Stage F} {f : Progress F → Stage F} (hx : Sound log origin x)
    (hf : ∀ p, Come log origin p → Sound log origin (f p)) : Sound log origin (x.bind f) := by
  cases x with
  | ok p => exact hf p hx
  | error e => exact hx

theorem settleGap_sound {p : Progress F} (h : Come log origin p) (host : Host) (now : F)
    (nxt : ℕ) : Sound log origin (settleGap host now nxt p) := by
  unfold settleGap
  by_cases hNext : nxt ≤ p.seq
  · rw [if_pos hNext]
    exact h
  · rw [if_neg hNext]
    apply settle_sound h
    apply Returns.mono (journalSettleGap_settled h.settled (by omega) host.memory now)
    intro _ t' hSettled
    constructor
    · dsimp only
      rw [← List.append_assoc]
      exact hSettled
    · intro hNil
      have hLength := congrArg List.length hNil
      simp only [List.length_append, List.length_map, List.length_range', List.length_nil] at hLength
      omega

theorem settleFile_sound {p : Progress F} (h : Come log origin p) (host : Host) (now : F) (name : PyStr)
    (file : ExchangeFile) : Sound log origin (settleFile host now name file p) := by
  unfold settleFile
  split
  · exact h
  · apply settle_sound h
    apply Returns.mono (journalSettleRejected_settled h.settled
      _ now)
    intro _ t' hSettled
    constructor
    · dsimp only
      rw [← List.append_assoc]
      exact hSettled
    · intro hNil
      simp at hNil
  · apply settle_sound h
    apply Returns.mono (journalApply_settled h.settled _ _ now)
    intro _ t' hSettled
    constructor
    · dsimp only
      rw [← List.append_assoc]
      exact hSettled
    · intro hNil
      simp at hNil

theorem passLoop_sound (host : Host)
    (now : F) (file : PyStr → ExchangeFile) (files : List (ℕ × PyStr)) {p : Progress F}
    (h : Come log origin p) : Sound log origin (passLoop host now file files p) := by
  induction files generalizing p with
  | nil => exact h
  | cons f rest ih =>
    rcases f with ⟨nxt, name⟩
    rw [passLoop]
    apply Sound.bind (settleGap_sound h host now nxt)
    intro q hq
    apply Sound.bind (settleFile_sound hq host now name _)
    intro q' hq'
    exact ih hq'

omit [PyFloat F] in
theorem Settled.start (h : Settled log seq t)
    (faults : List (List Bool)) : Come log t ⟨t, seq, {}, faults, []⟩ := by
  constructor
  · dsimp only
    rw [List.append_nil]
    exact h
  · intro _
    rfl

/- What a publication leaves: more numbers in the log. -/
structure Published (log : List Settlement) (t : Ledger F) (r : PassReport × Store F) : Prop where
  settled : ∃ seq, Settled (log ++ r.1.settled) seq r.2.ledger
  untouched : r.1.settled = [] → r.2.ledger = t

theorem journalIngestPass_left (h : Settled log seq t) (host : Host) (dir : Directory) (now : F)
    (faults : List (List Bool)) :
    let p := progress (journalIngestPass host dir now faults t)
    (∃ seq', Settled (log ++ p.settled) seq' p.ledger) ∧ (p.settled = [] → p.ledger = t) := by
  have hEmpty : Settled (log ++ []) seq t := by
    rw [List.append_nil]
    exact h
  rcases h.state with ⟨st, hState, hTerminal, _, _⟩
  have hSeq : st.terminalSeq.toNat + 1 = seq := by
    have hPositive := h.positive
    omega
  unfold journalIngestPass
  dsimp only
  split
  · exact ⟨⟨seq, hEmpty⟩, fun _ => rfl⟩
  · rw [hState]
    dsimp only
    cases dir.names with
    | none => exact ⟨⟨seq, hEmpty⟩, fun _ => rfl⟩
    | some names =>
      dsimp only
      rw [hSeq]
      have hLoop := passLoop_sound host now dir.file (pendingFiles st.terminalSeq.toNat names)
        (h.start faults.tail)
      exact ⟨⟨_, hLoop.settled⟩, hLoop.untouched⟩

/- How far the pass of a publication comes. -/
def publishedProgress (pub : Publication F) (store : Store F) : Progress F := progress
    (journalIngestPass pub.host pub.dir pub.now pub.faults store.ledger)

theorem journalIngestPublishGate_eq (pub : Publication F) (store : Store F) :
    (journalIngestPublishGate pub store = (PassReport.skipped, store)) ∨
      ((journalIngestPublishGate pub store).1.settled = (publishedProgress pub store).settled ∧
        (journalIngestPublishGate pub store).2.ledger = (publishedProgress pub store).ledger) := by
  unfold journalIngestPublishGate publishedProgress
  split
  · exact Or.inl rfl
  · right
    dsimp only
    cases journalIngestPass pub.host pub.dir pub.now pub.faults store.ledger with
    | ok p => exact ⟨rfl, rfl⟩
    | error e =>
      rcases e with ⟨stop, p⟩
      cases stop with
      | blocked => exact ⟨rfl, rfl⟩
      | raised e => exact ⟨rfl, rfl⟩

theorem journalIngestPublishGate_published {store : Store F} (h : Settled log seq store.ledger)
    (pub : Publication F) : Published log store.ledger (journalIngestPublishGate pub store) := by
  rcases journalIngestPublishGate_eq pub store with
    hSkipped | ⟨hSettled, hLedger⟩
  · rw [hSkipped]
    constructor
    · refine ⟨seq, ?_⟩
      rw [PassReport.skipped, List.append_nil]
      exact h
    · intro _
      rfl
  · have hLeft := journalIngestPass_left h pub.host pub.dir pub.now pub.faults
    dsimp only at hLeft
    constructor
    · rw [hSettled, hLedger]
      exact hLeft.1
    · rw [hSettled, hLedger]
      exact hLeft.2

/- A pass that was blocked says so, at the number it is at. -/
def Marked (stage : Stage F) : Prop := match stage with
  | .ok p => p.result.blockedAt = none
  | .error (.blocked, p) => p.result.blockedAt = some p.seq
  | .error (.raised _, _) => True

omit [PyFloat F] in
theorem settle_marked {p : Progress F} (work : Work F Unit) {landed : Progress F → Progress F}
    (hLanded : ∀ q : Progress F, q.result = p.result → (landed q).result.blockedAt = none) :
    Marked (settle work landed p) := by
  unfold settle
  cases transact work (p.faults.headD []) p.ledger with
  | mk result ledger =>
    cases result with
    | ok a => exact hLanded _ rfl
    | error e =>
      cases e with
      | storage => exact rfl
      | overflow => exact True.intro
      | memory => exact True.intro
      | recursion => exact True.intro
      | schema => exact True.intro
      | exchangeUnreadable => exact True.intro

omit [PyFloat F] in
theorem Marked.bind {x : Stage F} {f : Progress F → Stage F} (hx : Marked x)
    (hf : ∀ p, p.result.blockedAt = none → Marked (f p)) : Marked (x.bind f) := by
  cases x with
  | ok p => exact hf p hx
  | error e => exact hx

theorem settleGap_marked {p : Progress F} (h : p.result.blockedAt = none) (host : Host) (now : F)
    (nxt : ℕ) : Marked (settleGap host now nxt p) := by
  unfold settleGap
  split
  · exact h
  · apply settle_marked
    intro q hq
    dsimp only
    rw [hq]
    exact h

theorem settleFile_marked {p : Progress F}
    (h : p.result.blockedAt = none) (host : Host) (now : F) (name : PyStr)
    (file : ExchangeFile) : Marked (settleFile host now name file p) := by
  unfold settleFile
  split
  · exact True.intro
  · apply settle_marked
    intro q hq
    dsimp only
    rw [hq]
    exact h
  · apply settle_marked
    intro q hq
    dsimp only
    rw [hq]
    exact h

theorem passLoop_marked (host : Host)
    (now : F) (file : PyStr → ExchangeFile) (files : List (ℕ × PyStr)) {p : Progress F}
    (h : p.result.blockedAt = none) : Marked (passLoop host now file files p) := by
  induction files generalizing p with
  | nil => exact h
  | cons f rest ih =>
    rcases f with ⟨nxt, name⟩
    rw [passLoop]
    apply Marked.bind (settleGap_marked h host now nxt)
    intro q hq
    apply Marked.bind (settleFile_marked hq host now name _)
    intro q' hq'
    exact ih hq'

omit [PyFloat F] in
theorem retainRows_settled (h : Settled log seq t) (keepRun : JournalRun F → Bool)
    (keepAudit : AuditRow F → Bool) : Settled log seq (retainRows keepRun keepAudit t) :=
  ⟨h.numbers, h.positive, fun r hr => h.runs r (List.mem_of_mem_filter hr), h.state⟩

theorem step_settled {store : Store F} (h : Settled log seq store.ledger)
    (i : Input F) : ∃ seq', Settled (log ++ (step store i).1.settled) seq' (step store i).2.ledger := by
  cases i with
  | publish pub => exact (journalIngestPublishGate_published h pub).settled
  | crash pub => exact (journalIngestPublishGate_published h pub).settled
  | retain keepRun keepAudit =>
    refine ⟨seq, ?_⟩
    rw [step, PassReport.skipped, List.append_nil]
    exact retainRows_settled h keepRun keepAudit

-- Files That Are Settled

/- A name that is no exchange file at or below a number. -/
def namesAbove (terminal : ℕ) (name : PyStr) : Bool := match filenameSeq? name with
  | none => true
  | some seq => decide (terminal < seq)

/- The scan of a list of names, above a number. -/
def scanNames (names : List PyStr) (found : List (ℕ × PyStr)) : List (ℕ × PyStr) :=
  names.foldl (fun found name =>
      match filenameSeq? name with
      | none => found
      | some seq => setFound found seq name)
    found

/- A file at or below the number leaves the rest as it is. -/
theorem filter_setFound {terminal seq : ℕ} (found : List (ℕ × PyStr))
    (name : PyStr) : (setFound found seq name).filter (fun f => terminal < f.1) =
      if terminal < seq then
        setFound (found.filter (fun f => terminal < f.1)) seq name
      else found.filter (fun f => terminal < f.1) := by
  unfold setFound
  rw [List.filter_cons]
  split
  · rename_i hAbove
    rw [if_pos (of_decide_eq_true hAbove)]
    congr 1
    rw [List.filter_filter, List.filter_filter]
    apply List.filter_congr
    intro f _
    exact Bool.and_comm _ _
  · rename_i hBelow
    have hLe : ¬ terminal < seq := by simpa using hBelow
    rw [if_neg hLe, List.filter_filter]
    apply List.filter_congr
    intro f _
    by_cases hf : terminal < f.1
    · have hNe : f.1 ≠ seq := by omega
      simp [hf, hNe]
    · simp [hf]

theorem scanNames_filter (terminal : ℕ) (names : List PyStr) (found : List (ℕ × PyStr)) :
    (scanNames names found).filter (fun f => terminal < f.1) =
      scanNames (names.filter (namesAbove terminal)) (found.filter (fun f => terminal < f.1)) := by
  induction names generalizing found with
  | nil => rfl
  | cons name names ih =>
    rw [List.filter_cons]
    unfold scanNames at ih ⊢
    rw [List.foldl_cons]
    cases hSeq : filenameSeq? name with
    | none =>
      have hAbove : namesAbove terminal name = true := by rw [namesAbove, hSeq]
      rw [if_pos hAbove, List.foldl_cons, hSeq]
      exact ih found
    | some seq =>
      dsimp only
      rw [ih, filter_setFound]
      by_cases hLt : terminal < seq
      · have hAbove : namesAbove terminal name = true := by
          rw [namesAbove, hSeq]
          exact decide_eq_true hLt
        rw [if_pos hLt, if_pos hAbove, List.foldl_cons, hSeq]
      · have hBelow : ¬ namesAbove terminal name = true := by
          rw [namesAbove, hSeq]
          simpa using hLt
        rw [if_neg hLt, if_neg hBelow]

theorem scanNames_above {terminal : ℕ} {names : List PyStr} {found : List (ℕ × PyStr)}
    (hFound : ∀ f ∈ found, terminal < f.1 → namesAbove terminal f.2)
    {f : ℕ × PyStr} (hMem : f ∈ scanNames names found)
    (hAbove : terminal < f.1) : namesAbove terminal f.2 := by
  induction names generalizing found with
  | nil => exact hFound f hMem hAbove
  | cons name names ih =>
    unfold scanNames at hMem ih
    rw [List.foldl_cons] at hMem
    cases hSeq : filenameSeq? name with
    | none =>
      rw [hSeq] at hMem
      exact ih hFound hMem
    | some seq =>
      rw [hSeq] at hMem
      apply ih _ hMem
      intro g hg hLt
      rcases List.mem_cons.mp hg with rfl | hOld
      · rw [namesAbove, hSeq]
        exact decide_eq_true hLt
      · exact hFound g (List.mem_of_mem_filter hOld) hLt

theorem pendingFiles_filter (terminal : ℕ) (names : List PyStr) :
    pendingFiles terminal (names.filter (namesAbove terminal)) =
      pendingFiles terminal names := by
  have hSorted : (names.filter (namesAbove terminal)).insertionSort (· ≤ ·) =
        (names.insertionSort (· ≤ ·)).filter (namesAbove terminal) := by
    apply List.Perm.eq_of_pairwise' (List.pairwise_insertionSort _ _)
    · exact (List.pairwise_insertionSort _ names).filter _
    · exact (List.perm_insertionSort _ _).trans ((List.perm_insertionSort _ names).symm.filter _)
  have hScan : ∀ l : List PyStr, scanExchangeDir l = scanNames (l.insertionSort (· ≤ ·)) [] := fun _ => rfl
  unfold pendingFiles
  rw [hScan, hScan, hSorted, scanNames_filter, scanNames_filter, List.filter_filter]
  congr 2
  apply List.filter_congr
  intro name _
  exact Bool.and_self _

theorem pendingFiles_above {terminal : ℕ} {names : List PyStr} {f : ℕ × PyStr}
    (hMem : f ∈ pendingFiles terminal names) : namesAbove terminal f.2 := by
  have hFilter := (List.mem_insertionSort _).mp hMem
  rw [List.mem_filter] at hFilter
  apply scanNames_above _ hFilter.1 (of_decide_eq_true hFilter.2)
  intro g hg
  cases hg

theorem passLoop_congr (host : Host) (now : F) {file file' : PyStr → ExchangeFile} (files : List (ℕ × PyStr))
    (hFiles : ∀ f ∈ files, file f.2 = file' f.2)
    (p : Progress F) : passLoop host now file files p = passLoop host now file' files p := by
  induction files generalizing p with
  | nil => rfl
  | cons f rest ih =>
    rcases f with ⟨nxt, name⟩
    have hHead : file name = file' name := hFiles _ List.mem_cons_self
    have hRest : ∀ q : Progress F, passLoop host now file rest q = passLoop host now file' rest q :=
      ih (fun f hf => hFiles f (List.mem_cons_of_mem _ hf))
    rw [passLoop, passLoop, hHead]
    simp only [hRest]

-- Runs

omit [PyFloat F] in
theorem Settled.numbers_more {t' : Ledger F} {more : List Settlement} {seq' : ℕ} (h : Settled log seq t)
    (h' : Settled (log ++ more) seq' t') :
    more.map Settlement.seq = List.range' seq more.length ∧ seq' = seq + more.length := by
  have hPositive := h.positive
  have hPositive' := h'.positive
  have hNumbers := h'.numbers
  rw [List.map_append, h.numbers] at hNumbers
  have hLength := congrArg List.length hNumbers
  simp only [List.length_append, List.length_range', List.length_map] at hLength
  have hEnd : seq' - 1 = (seq - 1) + more.length := by omega
  refine ⟨?_, by omega⟩
  rw [hEnd, ← List.range'_append_1] at hNumbers
  have hMore := List.append_cancel_left hNumbers
  have hStart : 1 + (seq - 1) = seq := by omega
  rw [hStart] at hMore
  exact hMore

theorem Settled.below_unsettled {t' : Ledger F} {more : List Settlement} {seq' n : ℕ}
    (h : Settled log seq t) (h' : Settled (log ++ more) seq' t') (hAbove : seq ≤ n)
    (hUnsettled : n ∉ more.map Settlement.seq) : ∀ x ∈ more, x.seq < n := by
  intro x hx
  have hNumbers := (h.numbers_more h').1
  rw [hNumbers, List.mem_range'_1] at hUnsettled
  have hMem : x.seq ∈ more.map Settlement.seq := List.mem_map_of_mem hx
  rw [hNumbers, List.mem_range'_1] at hMem
  omega

/- The number a pass reports as blocked is the next one. -/
theorem journalIngestPublishGate_blocked {store : Store F}
    (h : Settled log seq store.ledger) (pub : Publication F)
    {result : PassResult} {n : ℕ}
    (hResult : (journalIngestPublishGate pub store).1.result = some result)
    (hBlocked : result.blockedAt = some n) : n = seq +
      (journalIngestPublishGate pub store).1.settled.length := by
  rcases h.state with ⟨st, hState, hTerminal, _, _⟩
  have hSeq : st.terminalSeq.toNat + 1 = seq := by
    have hPositive := h.positive
    omega
  unfold journalIngestPublishGate journalIngestPass at hResult ⊢
  dsimp only at hResult ⊢
  split
  · rename_i hSkip
    rw [if_pos hSkip] at hResult
    cases hResult
  · rename_i hRun
    rw [if_neg hRun] at hResult
    by_cases hFault : (pub.faults.headD []).headD false = true
    · rw [if_pos hFault] at hResult
      cases hResult
    · rw [if_neg hFault, hState] at hResult ⊢
      dsimp only at hResult ⊢
      cases hNames : pub.dir.names with
      | none =>
        rw [hNames] at hResult
        cases hResult
      | some names =>
        rw [hNames] at hResult
        dsimp only at hResult ⊢
        rw [hSeq] at hResult ⊢
        have hSound := passLoop_sound pub.host pub.now pub.dir.file (pendingFiles st.terminalSeq.toNat names)
          (h.start pub.faults.tail)
        have hMarked := passLoop_marked pub.host pub.now pub.dir.file
          (pendingFiles st.terminalSeq.toNat names)
          (p := ⟨store.ledger, seq, {}, pub.faults.tail, []⟩)
          rfl
        revert hResult hSound hMarked
        cases passLoop pub.host pub.now pub.dir.file (pendingFiles st.terminalSeq.toNat names)
            ⟨store.ledger, seq, {}, pub.faults.tail, []⟩ with
        | ok p =>
          intro hResult _ hMarked
          cases hResult
          rw [Marked, hBlocked] at hMarked
          cases hMarked
        | error e =>
          rcases e with ⟨stop, p⟩
          intro hResult hSound hMarked
          cases stop with
          | raised e => cases hResult
          | blocked =>
            cases hResult
            rw [Marked, hBlocked] at hMarked
            cases hMarked
            exact (h.numbers_more hSound.settled).2

/- Files at or below the terminal make no difference. -/
theorem journalIngestPublishGate_above {store : Store F} {st : IngestState F}
    (hState : store.ledger.state = some st) (pub : Publication F)
    {names : List PyStr} (hNames : pub.dir.names = some names) (file : PyStr → ExchangeFile)
    (hFile : ∀ name, namesAbove st.terminalSeq.toNat name → file name = pub.dir.file name) :
    journalIngestPublishGate
        { pub with
          dir :=
            ⟨some (names.filter
              (namesAbove st.terminalSeq.toNat)), file⟩ }
        store =
      journalIngestPublishGate pub store := by
  have hPass : journalIngestPass pub.host ⟨some (names.filter (namesAbove st.terminalSeq.toNat)), file⟩
          pub.now pub.faults store.ledger =
        journalIngestPass pub.host pub.dir pub.now pub.faults
          store.ledger := by
    unfold journalIngestPass
    rw [hState, hNames]
    dsimp only
    rw [pendingFiles_filter]
    rw [passLoop_congr pub.host pub.now _ (fun f hf => hFile f.2 (pendingFiles_above hf))]
  unfold journalIngestPublishGate
  dsimp only
  rw [hPass]
  rfl

omit [PyFloat F] in
theorem freshStore_settled (now : F) : Settled [] 1 (freshStore now).ledger := by
  refine ⟨rfl, le_refl 1, ?_, _, rfl, rfl, rfl, rfl⟩
  intro r hr
  cases hr

/- The log of a history. -/
def logOf (h : List (Input F × PassReport)) : List Settlement := h.flatMap (fun x => x.2.settled)

theorem run_settled (now : F) (inputs : List (Input F)) : ∃ seq,
      Settled (logOf (history step (freshStore now) inputs)) seq
        (finalState step (freshStore now) inputs).ledger := by
  apply (trace_history step (freshStore now) inputs).history_invariant
    (I := fun h store => ∃ seq, Settled (logOf h) seq store.ledger)
  · exact ⟨1, freshStore_settled now⟩
  · rintro h store i ⟨seq, hSettled⟩ _
    have hLog : logOf (h ++ [(i, (step store i).1)]) = logOf h ++ (step store i).1.settled := by
      simp [logOf]
    rw [hLog]
    exact step_settled hSettled i

/-
  After any run from a fresh store the passes have settled
  exactly the numbers up to the terminal, in ascending order,
  each once, and the counters add up.  And whatever comes
  next: the terminal does not fall; a number that is left
  unsettled stops the pass, and so does one that is reported
  as blocked; a publication that settles nothing changes no
  table; and what stands under the names of numbers up to the
  terminal makes no difference.
-/
theorem settlement_exactly_once (now : F) (inputs : List (Input F)) :
    let store := finalState step (freshStore now) inputs
    let log := logOf (history step (freshStore now) inputs)
    ∃ st, store.ledger.state = some st ∧ 0 ≤ st.terminalSeq ∧
      log.map Settlement.seq = List.range' 1 st.terminalSeq.toNat ∧
      (log.map Settlement.seq).Pairwise (· < ·) ∧
      st.terminalSeq = st.gapsTotal + st.rejectedTotal + countOf .applied log ∧
      (∀ i : Input F, (∃ st', (step store i).2.ledger.state = some st' ∧ st.terminalSeq ≤ st'.terminalSeq) ∧
        (∀ n : ℕ, st.terminalSeq < n → n ∉ (step store i).1.settled.map Settlement.seq →
          ∀ x ∈ (step store i).1.settled, x.seq < n)) ∧
      ∀ pub : Publication F, (∀ result n, (step store (.publish pub)).1.result = some result →
          result.blockedAt = some n →
          st.terminalSeq < n ∧ ∀ x ∈ (step store (.publish pub)).1.settled, x.seq < n) ∧
        ((step store (.publish pub)).1.settled = [] → (step store (.publish pub)).2.ledger = store.ledger) ∧
        ∀ names file, pub.dir.names = some names →
          (∀ name, namesAbove st.terminalSeq.toNat name → file name = pub.dir.file name) →
          step store (.publish
              { pub with
                dir :=
                  ⟨some (names.filter
                    (namesAbove st.terminalSeq.toNat)), file⟩ }) =
            step store (.publish pub) := by
  intro store log
  rcases run_settled now inputs with ⟨seq, hSettled⟩
  change Settled log seq store.ledger at hSettled
  rcases hSettled.state with ⟨st, hState, hTerminal, hGaps, hRejected⟩
  have hPositive := hSettled.positive
  have hSeq : st.terminalSeq.toNat = seq - 1 := by omega
  refine ⟨st, hState, by omega, ?_, ?_, ?_, ?_, ?_⟩
  · rw [hSeq]
    exact hSettled.numbers
  · rw [hSettled.numbers]
    exact List.pairwise_lt_range'
  · have hCount := count_dispositions log
    have hLength := congrArg List.length hSettled.numbers
    rw [List.length_map, List.length_range'] at hLength
    omega
  · intro i
    rcases step_settled hSettled i with ⟨seq', hStep⟩
    have hMore := hSettled.numbers_more hStep
    constructor
    · rcases hStep.state with ⟨st', hState', hTerminal', _, _⟩
      refine ⟨st', hState', ?_⟩
      omega
    · intro n hn hUnsettled
      exact hSettled.below_unsettled hStep (by omega) hUnsettled
  · intro pub
    have hPublished := journalIngestPublishGate_published hSettled pub
    refine ⟨?_, hPublished.untouched, ?_⟩
    · intro result n hResult hBlocked
      have hNext := journalIngestPublishGate_blocked hSettled pub hResult hBlocked
      rcases hPublished.settled with ⟨seq', hStep⟩
      have hNumbers := (hSettled.numbers_more hStep).1
      constructor
      · omega
      · intro x hx
        have hMem : x.seq ∈ (step store (.publish pub)).1.settled.map
              Settlement.seq :=
          List.mem_map_of_mem hx
        rw [step, hNumbers, List.mem_range'_1] at hMem
        omega
    · intro names file hNames hFile
      exact journalIngestPublishGate_above hState pub hNames file hFile

end SingboxOps.JournalIngest
