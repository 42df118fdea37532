import SingboxOps.JournalIngest.Settlement

/-
  Which directories a pass gets through.

  On a storage that fails nothing, a pass settles every file
  above the terminal exactly when each of them is digestible:
  its number is one a column can hold, the gap before it fits
  in memory, its check ends, and the integers it would have
  the store bind are of 64 bits.
-/

namespace SingboxOps.JournalIngest

variable {F : Type} [PyFloat F]

-- What the Check Lets Through

/- The bounds of a header that passed the check. -/
structure Header.Valid (h : Header) : Prop where
  run : h.run.length = 32
  epoch : 1 ≤ h.epoch
  lines : 0 ≤ h.lines
  eligible : 0 ≤ h.eligible
  infoDropped : 0 ≤ h.infoDropped
  nomatchDropped : 0 ≤ h.nomatchDropped
  priorityUnusable : 0 ≤ h.priorityUnusable
  pfail : 0 ≤ h.pfail
  limited : 0 ≤ h.limited

/- The bounds of an event that passed the check. -/
structure Event.Valid (e : Event F) : Prop where
  ts : 0 ≤ e.ts.toRat
  port : ∀ p ∈ e.port, 1 ≤ p ∧ p ≤ 65535
  fp : ∀ fp ∈ e.fp, fingerprintShaped fp = true
  n : 1 ≤ e.n
  fpOther : e.fp = none ∨ e.cls = .other
  dclsPort : e.dcls = none ∨ e.port ≠ none

omit [PyFloat F] in
theorem intFrom?_some {low n : ℤ} {value : Json F} (h : intFrom? low value = some n) : low ≤ n := by
  unfold intFrom? at h
  split at h
  · split at h
    · rename_i hLow
      cases h
      exact hLow
    · cases h
  · cases h

omit [PyFloat F] in
theorem hexText?_some {length : ℕ} {value : Json F} {s : PyStr} (h : hexText? length value = some s) :
    s.length = length ∧ s.all (fun c => (48 ≤ c && c ≤ 57) || (97 ≤ c && c ≤ 102)) = true := by
  unfold hexText? at h
  split at h
  · split at h
    · rename_i hShape
      cases h
      exact hShape
    · cases h
  · cases h

omit [PyFloat F] in
theorem port?_some {value : Json F} {p : ℤ} (h : port? value = some p) : 1 ≤ p ∧ p ≤ 65535 := by
  unfold port? at h
  split at h
  · split at h
    · rename_i hRange
      cases h
      exact hRange
    · cases h
  · cases h

theorem timestamp?_some {value : Json F} {ts : Num F} (h : timestamp? value = some ts) : 0 ≤ ts.toRat := by
  unfold timestamp? at h
  split at h
  · split at h
    · cases h
    · rename_i hRange
      cases h
      rw [not_or, not_lt] at hRange
      rw [Num.toRat]
      exact_mod_cast hRange.1
  · split at h
    · cases h
    · rename_i hRange
      cases h
      rw [not_or, not_lt] at hRange
      exact hRange.1
  · cases h

omit [PyFloat F] in
theorem nullOr?_some {α : Type} {check : Json F → Option α} {value : Json F}
    {r : Option α} {P : α → Prop} (hCheck : ∀ a, check value = some a → P a)
    (h : nullOr? check value = some r) : ∀ a ∈ r, P a := by
  intro a ha
  unfold nullOr? at h
  split at h
  · cases h
    cases ha
  · cases hValue : check value with
    | none =>
      rw [hValue] at h
      cases h
    | some b =>
      rw [hValue] at h
      cases h
      cases ha
      exact hCheck _ hValue

theorem validateHeader_valid {obj : List (PyStr × Json F)} {header : Header}
    (h : validateHeader obj = some header) : header.Valid := by
  unfold validateHeader at h
  split_ifs at h
  simp only [Option.bind_eq_bind, Option.bind_eq_some_iff] at h
  rcases h with ⟨seq, _, run, hRun, epoch, hEpoch, boundary, _,
    lines, hLines, eligible, hEligible, infoDropped, hInfo,
    nomatchDropped, hNomatch, priorityUnusable, hPriority,
    pfail, hPfail, limited, hLimited, hHeader⟩
  cases hHeader
  exact
    { run := (hexText?_some hRun).1
      epoch := intFrom?_some hEpoch
      lines := intFrom?_some hLines
      eligible := intFrom?_some hEligible
      infoDropped := intFrom?_some hInfo
      nomatchDropped := intFrom?_some hNomatch
      priorityUnusable := intFrom?_some hPriority
      pfail := intFrom?_some hPfail
      limited := intFrom?_some hLimited }

theorem validateEvent_valid {obj : List (PyStr × Json F)} {event : Event F}
    (h : validateEvent obj = some event) : event.Valid := by
  unfold validateEvent at h
  by_cases hKeys : (!hasExactly obj eventKeys) = true
  · rw [if_pos hKeys] at h
    cases h
  · rw [if_neg hKeys] at h
    by_cases hKind : (!eqStr (field obj "t") (pyStr "e")) = true
    · rw [if_pos hKind] at h
      cases h
    · rw [if_neg hKind] at h
      simp only [Option.bind_eq_bind, Option.bind_eq_some_iff] at h
      rcases h with ⟨ts, hTs, cls, _, proto, _, port, hPort, dcls, _, fp, hFp, n, hn, hEvent⟩
      split_ifs at hEvent with hOther hDcls
      cases hEvent
      rw [not_and_or, not_not, not_not] at hOther
      rw [not_and_or, not_not] at hDcls
      have hShaped : ∀ s, hexText? 16 (field obj "fp") = some s → fingerprintShaped s = true := by
        intro s hs
        rw [fingerprintShaped, Bool.and_eq_true, decide_eq_true_eq]
        exact hexText?_some hs
      exact
        { ts := timestamp?_some hTs
          port := nullOr?_some (fun p => port?_some) hPort
          fp := nullOr?_some hShaped hFp
          n := intFrom?_some hn
          fpOther := hOther.symm
          dclsPort := hDcls }

/- What the lines read so far amount to passed the check. -/
structure Parsed.Valid (parsed : Parsed F) : Prop where
  header : ∀ h ∈ parsed.header, h.Valid
  events : ∀ e ∈ parsed.events, e.Valid

theorem parseLine_valid {room filenameSeq index : ℕ} {parsed parsed' : Parsed F}
    {line : PyStr} (hValid : parsed.Valid)
    (h : parseLine room filenameSeq index parsed line = .ok (.ok parsed')) :
    parsed'.Valid := by
  unfold parseLine at h
  split at h
  · cases h
  · cases h
  · split at h
    · split at h
      · cases h
      · split at h
        · cases h
        · rename_i header hHeader
          split at h
          · cases h
          · cases h
            constructor
            · intro h' hMem
              cases hMem
              exact validateHeader_valid hHeader
            · exact hValid.events
    · split at h
      · cases h
      · rename_i event hEvent
        cases h
        constructor
        · exact hValid.header
        · intro e hMem
          rcases List.mem_append.mp hMem with hOld | hNew
          · exact hValid.events e hOld
          · rw [List.mem_singleton.mp hNew]
            exact validateEvent_valid hEvent
  · cases h

theorem parseLines_valid {room filenameSeq index : ℕ} {parsed parsed' : Parsed F}
    {lines : List PyStr} (hValid : parsed.Valid)
    (h : parseLines room filenameSeq index parsed lines = .ok (.ok parsed')) :
    parsed'.Valid := by
  induction lines generalizing index parsed with
  | nil =>
    cases h
    exact hValid
  | cons line rest ih =>
    rw [parseLines] at h
    split at h
    · cases h
    · cases h
    · rename_i next hLine
      exact ih (parseLine_valid hValid hLine) h

theorem readAndValidate_valid {room filenameSeq : ℕ} {name : PyStr} {file : ExchangeFile}
    {header : Header} {records : List (Event F)}
    (h : readAndValidate room name filenameSeq file = .ok (.ok (header, records))) :
    header.Valid ∧ ∀ e ∈ records, e.Valid := by
  have hText : ∀ body : PyStr, parseExchangeText room filenameSeq body = .ok (.ok (header, records)) →
        header.Valid ∧ ∀ e ∈ records, e.Valid := by
    intro body hBody
    unfold parseExchangeText at hBody
    split at hBody
    · cases hBody
    · dsimp only at hBody
      split at hBody
      · cases hBody
      · split at hBody
        · cases hBody
        · cases hBody
        · rename_i parsed hParsed
          have hStart : (⟨none, []⟩ : Parsed F).Valid := by
            constructor
            · intro h' hMem
              cases hMem
            · intro e hMem
              cases hMem
          have hValid := parseLines_valid hStart hParsed
          split at hBody
          · cases hBody
          · rename_i header' hHeader
            cases hBody
            exact ⟨hValid.header _ hHeader, hValid.events⟩
  unfold readAndValidate at h
  split at h
  · cases h
  · split at h
    · cases h
    · cases h
  · split at h
    · cases h
    · split at h
      · cases h
      · split at h
        · cases h
        · dsimp only at h
          split at h
          · cases h
          · exact hText _ h

-- What the Columns Hold

/- The integers of a header, apart from its number. -/
def Header.integers (h : Header) : List ℤ := [h.epoch, h.lines, h.eligible, h.infoDropped,
    h.nomatchDropped, h.priorityUnusable, h.pfail, h.limited]

/-
  The integers of a header and the sum of its events' counts
  are of 64 bits.
-/
def FitsColumns (header : Header) (records : List (Event F)) : Prop :=
  (∀ n ∈ header.integers, n < int64Limit) ∧ (records.map Event.n).sum < int64Limit

theorem bindable_iff (ns : List ℤ) : bindable ns = true ↔ ∀ n ∈ ns, -int64Limit ≤ n ∧ n < int64Limit := by
  rw [bindable, List.all_eq_true]
  apply forall₂_congr
  intro n _
  rw [Bool.and_eq_true, decide_eq_true_eq, decide_eq_true_eq]

theorem bindable_of_nonneg {ns : List ℤ} (hNonneg : ∀ n ∈ ns, 0 ≤ n)
    (hBelow : ∀ n ∈ ns, n < int64Limit) : bindable ns = true := by
  rw [bindable_iff]
  intro n hn
  refine ⟨?_, hBelow n hn⟩
  have h := hNonneg n hn
  have hLimit : 0 < int64Limit := by decide
  omega

theorem length_le_sum {ns : List ℤ} (h : ∀ n ∈ ns, 1 ≤ n) : (ns.length : ℤ) ≤ ns.sum := by
  induction ns with
  | nil => exact le_refl 0
  | cons n ns ih =>
    have hHead := h n List.mem_cons_self
    have hRest := ih (fun m hm => h m (List.mem_cons_of_mem _ hm))
    rw [List.length_cons, List.sum_cons]
    push_cast
    omega

theorem le_sum_of_mem {ns : List ℤ} (h : ∀ n ∈ ns, 1 ≤ n) {n : ℤ} (hMem : n ∈ ns) : n ≤ ns.sum := by
  apply List.single_le_sum _ n hMem
  intro m hm
  have hPositive := h m hm
  omega

omit [PyFloat F] in
theorem counts_positive {records : List (Event F)}
    (hRecords : ∀ e ∈ records, 1 ≤ e.n) : ∀ n ∈ records.map Event.n, 1 ≤ n := by
  intro n hn
  rcases List.mem_map.mp hn with ⟨e, he, rfl⟩
  exact hRecords e he

theorem runRow_checked {header : Header} {records : List (Event F)}
    (hHeader : header.Valid) (hRecords : ∀ e ∈ records, e.Valid) (seq : ℕ)
    (now : F) : (runRow header records seq now).Checked := by
  have hCounts := counts_positive (fun e he => (hRecords e he).n)
  have hLength := length_le_sum hCounts
  refine ⟨hHeader.run, hHeader.epoch, hHeader.lines, hHeader.eligible, hHeader.infoDropped,
    hHeader.nomatchDropped, hHeader.priorityUnusable,
    hHeader.pfail, hHeader.limited, ?_, ?_⟩
  · exact Int.natCast_nonneg _
  · dsimp only [runRow]
    omega

theorem eventRow_checked {e : Event F} (h : e.Valid) (seq : ℕ) : (eventRow seq e).Checked := by
  refine ⟨PyFloat.round_nonneg h.ts, ?_, h.fp, h.n, h.fpOther, ?_⟩
  · dsimp only [eventRow]
    cases hPort : e.port with
    | none => exact ⟨le_refl 0, by decide⟩
    | some p =>
      have hRange := h.port p hPort
      rw [Option.getD_some]
      omega
  · rcases h.dclsPort with hNone | hPort
    · exact Or.inl hNone
    · right
      dsimp only [eventRow]
      cases hValue : e.port with
      | none => exact absurd hValue hPort
      | some p =>
        have hRange := h.port p hValue
        rw [Option.getD_some]
        omega

/- What an accepted file would bind is what its columns hold. -/
theorem runRow_bindable_iff {header : Header} {records : List (Event F)}
    (hHeader : header.Valid) (hRecords : ∀ e ∈ records, e.Valid) (seq : ℕ)
    (now : F) :
    bindable (runRow header records seq now).integers = true ↔
      (seq : ℤ) < int64Limit ∧ FitsColumns header records := by
  have hCounts := counts_positive (fun e he => (hRecords e he).n)
  have hLength := length_le_sum hCounts
  rw [List.length_map] at hLength
  have hChecked := runRow_checked hHeader hRecords seq now
  rcases hChecked with ⟨_, h1, h2, h3, h4, h5, h6, h7, h8, h9, h10⟩
  dsimp only [runRow] at h1 h2 h3 h4 h5 h6 h7 h8 h9 h10
  constructor
  · intro hBind
    rw [bindable_iff] at hBind
    have hBelow := fun n hn => (hBind n hn).2
    simp only [JournalRun.integers, runRow, List.mem_cons,
      List.not_mem_nil, or_false, forall_eq_or_imp, forall_eq]
      at hBelow
    rcases hBelow with ⟨b0, b1, b2, b3, b4, b5, b6, b7, b8, b9, b10⟩
    refine ⟨b0, ?_, b10⟩
    simp only [Header.integers, List.mem_cons, List.not_mem_nil, or_false, forall_eq_or_imp, forall_eq]
    exact ⟨b1, b2, b3, b4, b5, b6, b7, b8⟩
  · rintro ⟨hSeq, hInts, hSum⟩
    simp only [Header.integers, List.mem_cons, List.not_mem_nil, or_false, forall_eq_or_imp, forall_eq]
      at hInts
    rcases hInts with ⟨b1, b2, b3, b4, b5, b6, b7, b8⟩
    apply bindable_of_nonneg
    · simp only [JournalRun.integers, runRow, List.mem_cons,
        List.not_mem_nil, or_false, forall_eq_or_imp, forall_eq]
      omega
    · simp only [JournalRun.integers, runRow, List.mem_cons,
        List.not_mem_nil, or_false, forall_eq_or_imp, forall_eq]
      omega

-- Settlements That Land

variable {log : List Settlement} {seq : ℕ} {t : Ledger F}

/- The continuity row may be moved forward, and the move kept. -/
omit [PyFloat F] in
theorem updateIngestState_runs (h : Settled log seq t)
    {bound : List ℤ} (hBound : bindable bound = true) {f : IngestState F → IngestState F}
    (hChecked : ∀ st : IngestState F, 0 ≤ st.terminalSeq → 0 ≤ st.gapsTotal → 0 ≤ st.rejectedTotal →
        (f st).Checked)
    {u : Ledger F}
    (hState : u.state = t.state) : ∃ t', Runs .storage 2 u
      (do execute (updateIngestState bound f); commit) () t' := by
  rcases h.state with ⟨st, hRow, hTerminal, hGaps, hRejected⟩
  have hPositive := h.positive
  have hUpdate : updateIngestState bound f u = .ok ((), { u with state := some (f st) }) := by
    rw [updateIngestState, if_pos hBound, hState, hRow]
    dsimp only
    rw [if_pos (hChecked st (by omega) (by omega) (by omega))]
  refine ⟨{ u with state := some (f st) }, ?_⟩
  apply Runs.bind (n := 1) (m := 1) (Runs.execute hUpdate)
  exact Runs.commit

omit [PyFloat F] in
theorem insertAudit_lands {rows : List (AuditRow F)} (hRows : ∀ r ∈ rows, 0 ≤ r.seq ∧ r.seq < int64Limit)
    (t : Ledger F) : insertAudit rows t = .ok ((), { t with audit := t.audit ++ rows }) := by
  have hAll : rows.all (fun r => bindable [r.seq]) = true := by
    rw [List.all_eq_true]
    intro r hr
    have hRange := hRows r hr
    apply bindable_of_nonneg
    · simp only [List.mem_singleton, forall_eq]
      exact hRange.1
    · simp only [List.mem_singleton, forall_eq]
      exact hRange.2
  rw [insertAudit, if_pos hAll]

theorem journalSettleGap_lands (h : Settled log seq t)
    {nxt memory : ℕ} (hBelow : seq < nxt) (hMemory : nxt - seq ≤ memory)
    (hColumn : (nxt : ℤ) ≤ int64Limit)
    (now : F) : ∃ t', Lands t (journalSettleGap memory seq nxt now) () t' := by
  have hPositive := h.positive
  let rows : List (AuditRow F) := (List.range' seq (nxt - seq)).map
      (fun skipped : ℕ => ⟨now, .gap, skipped, .sequenceGap⟩)
  have hRows : gapRows memory seq nxt now = .ok rows := if_pos hMemory
  have hInsert : insertAudit rows t = .ok ((), { t with audit := t.audit ++ rows }) := by
    apply insertAudit_lands
    intro r hr
    rcases List.mem_map.mp hr with ⟨s, hs, rfl⟩
    rw [List.mem_range'_1] at hs
    dsimp only
    omega
  have hBound : bindable [(nxt : ℤ) - 1, (nxt : ℤ) - seq] = true := by
    apply bindable_of_nonneg
    · simp only [List.mem_cons, List.not_mem_nil, or_false, forall_eq_or_imp, forall_eq]
      omega
    · simp only [List.mem_cons, List.not_mem_nil, or_false, forall_eq_or_imp, forall_eq]
      omega
  have hUpdate := updateIngestState_runs h hBound (f := fun st =>
      { st with
        terminalSeq := (nxt : ℤ) - 1
        gapsTotal := st.gapsTotal + ((nxt : ℤ) - seq)
        updatedEpoch := now })
    (by
      intro st h1 h2 h3
      refine ⟨?_, ?_, h3⟩
      · dsimp only
        omega
      · dsimp only
        omega)
    (u := { t with audit := t.audit ++ rows }) rfl
  rcases hUpdate with ⟨t', hUpdate⟩
  refine ⟨t', ?_⟩
  apply Lands.bind (Lands.ofExcept hRows)
  exact Lands.bind (Lands.execute hInsert) hUpdate.lands

theorem journalSettleRejected_lands (h : Settled log seq t)
    (hColumn : (seq : ℤ) < int64Limit) (code : AuditCode)
    (now : F) : ∃ t', Lands t (journalSettleRejected seq code now) () t' := by
  have hInsert : insertAudit [⟨now, .rejected, seq, code⟩] t =
      .ok ((), { t with
        audit := t.audit ++ [⟨now, .rejected, seq, code⟩] }) := by
    apply insertAudit_lands
    intro r hr
    rw [List.mem_singleton.mp hr]
    dsimp only
    omega
  have hBound : bindable [(seq : ℤ)] = true := by
    apply bindable_of_nonneg
    · simp only [List.mem_singleton, forall_eq]
      omega
    · simp only [List.mem_singleton, forall_eq]
      exact hColumn
  have hUpdate := updateIngestState_runs h hBound (f := fun st =>
      { st with
        terminalSeq := seq
        rejectedTotal := st.rejectedTotal + 1
        updatedEpoch := now })
    (by
      intro st h1 h2 h3
      refine ⟨?_, h2, ?_⟩
      · dsimp only
        omega
      · dsimp only
        omega)
    (u := { t with
      audit := t.audit ++ [⟨now, .rejected, seq, code⟩] }) rfl
  rcases hUpdate with ⟨t', hUpdate⟩
  refine ⟨t', ?_⟩
  exact Lands.bind (Lands.execute hInsert) hUpdate.lands

theorem journalApply_runs (h : Settled log seq t) (hColumn : (seq : ℤ) < int64Limit)
    {header : Header} {records : List (Event F)}
    (hHeader : header.Valid) (hRecords : ∀ e ∈ records, e.Valid)
    (hFits : FitsColumns header records)
    (now : F) : ∃ t', Runs .storage 4 t (journalApplyLocked header records seq now) () t' := by
  have hNew : (runRow header records seq now).seq ∉
        t.runs.map JournalRun.seq := by
    intro hMem
    rcases List.mem_map.mp hMem with ⟨r, hr, hEq⟩
    have hBelow := h.runs r hr
    rw [hEq] at hBelow
    exact lt_irrefl _ hBelow
  have hInsert : insertRun (runRow header records seq now) t =
        .ok ((), { t with
          runs := t.runs ++ [runRow header records seq now] }) := by
    rw [insertRun, if_pos ((runRow_bindable_iff hHeader hRecords seq now).mpr ⟨hColumn, hFits⟩),
      if_pos ⟨runRow_checked hHeader hRecords seq now, hNew⟩]
  have hCounts := counts_positive (fun e he => (hRecords e he).n)
  have hBindable : (records.map (eventRow seq)).all (fun e => bindable [e.seq, e.port, e.n]) = true := by
    rw [List.all_eq_true]
    intro r hr
    rcases List.mem_map.mp hr with ⟨e, he, rfl⟩
    have hChecked := eventRow_checked (hRecords e he) seq
    have hn : e.n ≤ (records.map Event.n).sum := le_sum_of_mem hCounts (List.mem_map_of_mem he)
    have hSum := hFits.2
    have hPort := hChecked.2.1
    have hPositive := (hRecords e he).n
    have hLimit : (65535 : ℤ) < int64Limit := by decide
    apply bindable_of_nonneg
    · simp only [List.mem_cons, List.not_mem_nil, or_false, forall_eq_or_imp, forall_eq]
      refine ⟨?_, hPort.1, ?_⟩
      · dsimp only [eventRow]
        omega
      · dsimp only [eventRow]
        omega
    · simp only [List.mem_cons, List.not_mem_nil, or_false, forall_eq_or_imp, forall_eq]
      refine ⟨hColumn, ?_, ?_⟩
      · omega
      · dsimp only [eventRow]
        omega
  have hEvents : ∀ r ∈ records.map (eventRow seq), r.Checked := by
    intro r hr
    rcases List.mem_map.mp hr with ⟨e, he, rfl⟩
    exact eventRow_checked (hRecords e he) seq
  have hInsertEvents : ∀ t' : Ledger F, insertEvents (records.map (eventRow seq)) t' =
        .ok ((), { t' with
          events := t'.events ++ records.map (eventRow seq) }) := by
    intro t'
    rw [insertEvents, if_pos hBindable, if_pos hEvents]
  have hBound : bindable [(seq : ℤ)] = true := by
    apply bindable_of_nonneg
    · simp only [List.mem_singleton, forall_eq]
      omega
    · simp only [List.mem_singleton, forall_eq]
      exact hColumn
  have hUpdate := updateIngestState_runs h hBound (f := fun st =>
      { st with
        terminalSeq := seq
        lastConsumedSeq := some (seq : ℤ)
        updatedEpoch := now })
    (by
      intro st h1 h2 h3
      refine ⟨?_, h2, h3⟩
      dsimp only
      omega)
    (u :=
      { t with
        runs := t.runs ++ [runRow header records seq now]
        events := t.events ++ records.map (eventRow seq) }) rfl
  rcases hUpdate with ⟨t', hUpdate⟩
  refine ⟨t', ?_⟩
  apply Runs.bind (n := 1) (m := 3) (Runs.execute hInsert)
  apply Runs.bind (n := 1) (m := 2) (Runs.execute (hInsertEvents _))
  exact hUpdate

-- Digestible Directories

/- The check of a file ends, and what it accepts can be bound. -/
def Swallowed (F : Type) [PyFloat F] (room : ℕ) (name : PyStr) (seq : ℕ) (file : ExchangeFile) : Prop :=
  match
      (readAndValidate room name seq file : Checked (Header × List (Event F))) with
  | .error _ => False
  | .ok (.error _) => True
  | .ok (.ok (header, records)) => FitsColumns header records

/-
  From a number on, each gap fits in memory and each file has
  a number of 64 bits and is swallowed.
-/
def Digestible (F : Type) [PyFloat F] (host : Host)
    (file : PyStr → ExchangeFile) : ℕ → List (ℕ × PyStr) → Prop
  | _, [] => True
  | seq, (nxt, name) :: rest =>
    nxt - seq ≤ host.memory ∧ (nxt : ℤ) < int64Limit ∧ Swallowed F host.room name nxt (file name) ∧
      Digestible F host file (nxt + 1) rest

/- Files in strictly ascending order, from a number on. -/
def Ascending (seq : ℕ) (files : List (ℕ × PyStr)) : Prop :=
  (∀ f ∈ files, seq ≤ f.1) ∧ files.Pairwise (fun a b => a.1 < b.1)

theorem Ascending.tail {nxt : ℕ} {name : PyStr} {files : List (ℕ × PyStr)}
    (h : Ascending seq ((nxt, name) :: files)) : Ascending (nxt + 1) files := by
  have hPairs := List.pairwise_cons.mp h.2
  exact ⟨fun f hf => hPairs.1 f hf, hPairs.2⟩

/- The number is settled, and not as a gap. -/
def SettledIn (settled : List Settlement) (n : ℕ) : Prop := ∃ x ∈ settled, x.seq = n ∧ x.disposition ≠ .gap

theorem SettledIn.mono {settled : List Settlement} {n : ℕ} (h : SettledIn settled n)
    (more : List Settlement) : SettledIn (settled ++ more) n := by
  rcases h with ⟨x, hMem, hSeq, hGap⟩
  exact ⟨x, List.mem_append_left _ hMem, hSeq, hGap⟩

-- A Stage That Went Through

variable {host : Host} {now : F} {p q : Progress F}

omit [PyFloat F] in
theorem settle_ok {work : Work F Unit} {landed : Progress F → Progress F} (h : settle work landed p = .ok q) :
    (transact work (p.faults.headD []) p.ledger).1 = .ok () ∧ ∃ ledger,
        q = landed { p with ledger, faults := p.faults.tail } := by
  unfold settle at h
  cases hRun : transact work (p.faults.headD []) p.ledger with
  | mk result ledger =>
    rw [hRun] at h
    cases result with
    | ok a =>
      cases h
      exact ⟨rfl, ledger, rfl⟩
    | error e => cases e <;> cases h

theorem settleGap_ok {nxt : ℕ} (hNext : p.seq ≤ nxt) (h : settleGap host now nxt p = .ok q) :
    q.seq = nxt ∧ nxt - p.seq ≤ host.memory ∧ ∃ more, q.settled = p.settled ++ more := by
  unfold settleGap at h
  split at h
  · rename_i hLe
    cases h
    have hEq : p.seq = nxt := by omega
    refine ⟨hEq, by omega, [], ?_⟩
    rw [List.append_nil]
  · rcases settle_ok h with ⟨hRun, ledger, rfl⟩
    have hRows : Returns p.ledger (journalSettleGap host.memory p.seq nxt now)
          (fun _ _ => nxt - p.seq ≤ host.memory) := by
      apply Returns.bind_ofExcept
      intro rows hRows
      unfold gapRows at hRows
      split at hRows
      · rename_i hMemory
        apply Returns.bind_execute
        intro _ t1 _
        apply Returns.bind_execute
        intro _ t2 _
        exact Returns.commit hMemory
      · cases hRows
    exact ⟨rfl, transact_ok hRows hRun, _, rfl⟩

omit [PyFloat F] in
theorem journalSettleRejected_bound (t : Ledger F) (seq : ℕ) (code : AuditCode)
    (now : F) : Returns t (journalSettleRejected seq code now) (fun _ _ => (seq : ℤ) < int64Limit) := by
  apply Returns.bind_execute
  intro _ t1 hInsert
  have hSeq : (seq : ℤ) < int64Limit := by
    unfold insertAudit at hInsert
    split at hInsert
    · rename_i hBind
      have h := List.all_eq_true.mp hBind _ (List.mem_singleton_self _)
      rw [bindable_iff] at h
      exact (h _ (List.mem_singleton_self _)).2
    · cases hInsert
  apply Returns.bind_execute
  intro _ t2 _
  exact Returns.commit hSeq

theorem journalApply_bound (t : Ledger F) (header : Header) (records : List (Event F)) (seq : ℕ)
    (now : F) : Returns t (journalApplyLocked header records seq now)
      (fun _ _ => bindable (runRow header records seq now).integers = true) := by
  apply Returns.bind_execute
  intro _ t1 hInsert
  have hBind : bindable (runRow header records seq now).integers = true := by
    unfold insertRun at hInsert
    split at hInsert
    · rename_i hBind
      exact hBind
    · cases hInsert
  apply Returns.bind_execute
  intro _ t2 _
  apply Returns.bind_execute
  intro _ t3 _
  exact Returns.commit hBind

theorem settleFile_ok {name : PyStr} {file : ExchangeFile} (h : settleFile host now name file p = .ok q) :
    (p.seq : ℤ) < int64Limit ∧ Swallowed F host.room name p.seq file ∧ q.seq = p.seq + 1 ∧
      ∃ d, d ≠ Disposition.gap ∧ q.settled = p.settled ++ [⟨p.seq, d⟩] := by
  unfold settleFile at h
  split at h
  · cases h
  · rename_i code hCode
    have hSwallowed : Swallowed F host.room name p.seq file := by
      unfold Swallowed
      rw [hCode]
      exact True.intro
    rcases settle_ok h with ⟨hRun, ledger, rfl⟩
    have hSeq := transact_ok (journalSettleRejected_bound p.ledger p.seq code now) hRun
    exact ⟨hSeq, hSwallowed, rfl, .rejected, by decide, rfl⟩
  · rename_i header records hRead
    rcases settle_ok h with ⟨hRun, ledger, rfl⟩
    have hBind := transact_ok (journalApply_bound p.ledger header records p.seq now) hRun
    have hValid := readAndValidate_valid hRead
    rw [runRow_bindable_iff hValid.1 hValid.2] at hBind
    have hSwallowed : Swallowed F host.room name p.seq file := by
      unfold Swallowed
      rw [hRead]
      exact hBind.2
    exact ⟨hBind.1, hSwallowed, rfl, .applied, by decide, rfl⟩

omit [PyFloat F] in
theorem stage_bind_ok {x : Stage F} {f : Progress F → Stage F}
    (h : x.bind f = .ok q) : ∃ p, x = .ok p ∧ f p = .ok q := by
  cases x with
  | ok p => exact ⟨p, rfl, h⟩
  | error e => cases h

theorem passLoop_ok {file : PyStr → ExchangeFile} {files : List (ℕ × PyStr)}
    (hAscending : Ascending p.seq files)
    (h : passLoop host now file files p = .ok q) :
    Digestible F host file p.seq files ∧ (∃ more, q.settled = p.settled ++ more) ∧
      ∀ f ∈ files, SettledIn q.settled f.1 := by
  induction files generalizing p with
  | nil =>
    cases h
    refine ⟨True.intro, ⟨[], ?_⟩, ?_⟩
    · rw [List.append_nil]
    · intro f hf
      cases hf
  | cons f rest ih =>
    rcases f with ⟨nxt, name⟩
    rw [passLoop] at h
    rcases stage_bind_ok h with ⟨p1, hGap, h1⟩
    rcases stage_bind_ok h1 with ⟨p2, hFile, h2⟩
    have hNext : p.seq ≤ nxt := hAscending.1 _ List.mem_cons_self
    rcases settleGap_ok hNext hGap with ⟨hSeq1, hMemory, more1, hMore1⟩
    rcases settleFile_ok hFile with ⟨hColumn, hSwallowed, hSeq2, d, hd, hMore2⟩
    rw [hSeq1] at hColumn hSwallowed hSeq2 hMore2
    have hTail : Ascending p2.seq rest := by
      rw [hSeq2]
      exact hAscending.tail
    rcases ih hTail h2 with ⟨hRest, ⟨more3, hMore3⟩, hAll⟩
    rw [hSeq2] at hRest
    refine ⟨⟨hMemory, hColumn, hSwallowed, hRest⟩, ?_, ?_⟩
    · rw [hMore3, hMore2, hMore1, List.append_assoc, List.append_assoc]
      exact ⟨_, rfl⟩
    · intro f hf
      rcases List.mem_cons.mp hf with rfl | hRestMem
      · rw [hMore3]
        apply SettledIn.mono
        refine ⟨⟨nxt, d⟩, ?_, rfl, hd⟩
        rw [hMore2]
        exact List.mem_append_right _ (List.mem_singleton_self _)
      · exact hAll f hRestMem

-- A Stage That Goes Through

variable {origin : Ledger F}

omit [PyFloat F] in
theorem settle_lands {work : Work F Unit} {landed : Progress F → Progress F} (hFaults : p.faults = [])
    (hWork : ∃ t', Lands p.ledger work () t') :
    ∃ ledger, settle work landed p = .ok (landed { p with ledger, faults := [] }) := by
  rcases hWork with ⟨t', hLands⟩
  refine ⟨t', ?_⟩
  unfold settle
  rw [hFaults, List.headD_nil, transact_lands hLands, List.tail_nil]

theorem passLoop_lands {file : PyStr → ExchangeFile} {files : List (ℕ × PyStr)}
    (hCome : Come log origin p) (hFaults : p.faults = []) (hAscending : Ascending p.seq files)
    (hDigestible : Digestible F host file p.seq files) :
    ∃ q, passLoop host now file files p = .ok q := by
  induction files generalizing p with
  | nil => exact ⟨p, rfl⟩
  | cons f rest ih =>
    rcases f with ⟨nxt, name⟩
    rcases hDigestible with ⟨hMemory, hColumn, hSwallowed, hRest⟩
    have hNext : p.seq ≤ nxt := hAscending.1 _ List.mem_cons_self
    -- the gap before the file
    have hGap : ∃ p1, settleGap host now nxt p = .ok p1 ∧ p1.seq = nxt ∧ p1.faults = [] := by
      unfold settleGap
      split
      · exact ⟨p, rfl, by omega, hFaults⟩
      · have hBelow : p.seq < nxt := by omega
        rcases settle_lands hFaults (journalSettleGap_lands hCome.settled hBelow
              hMemory hColumn.le now) with ⟨ledger, hSettle⟩
        exact ⟨_, hSettle, rfl, rfl⟩
    rcases hGap with ⟨p1, hGap, hSeq1, hFaults1⟩
    have hCome1 : Come log origin p1 := by
      have hSound := settleGap_sound hCome host now nxt
      rw [hGap] at hSound
      exact hSound
    -- the file itself
    have hFile : ∃ p2, settleFile host now name (file name) p1 = .ok p2 ∧
          p2.seq = nxt + 1 ∧ p2.faults = [] := by
      unfold Swallowed at hSwallowed
      rw [← hSeq1] at hSwallowed hColumn
      unfold settleFile
      rw [← hSeq1]
      split
      · rename_i e hRead
        rw [hRead] at hSwallowed
        exact absurd hSwallowed id
      · rename_i code hRead
        rcases settle_lands hFaults1 (journalSettleRejected_lands hCome1.settled hColumn
              code now) with ⟨ledger, hSettle⟩
        exact ⟨_, hSettle, rfl, rfl⟩
      · rename_i header records hRead
        rw [hRead] at hSwallowed
        have hValid := readAndValidate_valid hRead
        rcases settle_lands hFaults1 ((journalApply_runs hCome1.settled hColumn
              hValid.1 hValid.2 hSwallowed now).imp (fun _ hRuns => hRuns.lands)) with
          ⟨ledger, hSettle⟩
        exact ⟨_, hSettle, rfl, rfl⟩
    rcases hFile with ⟨p2, hFile, hSeq2, hFaults2⟩
    have hCome2 : Come log origin p2 := by
      have hSound := settleFile_sound hCome1 host now name (file name)
      rw [hFile] at hSound
      exact hSound
    have hTail : Ascending p2.seq rest := by
      rw [hSeq2]
      exact hAscending.tail
    rw [← hSeq2] at hRest
    rcases ih hCome2 hFaults2 hTail hRest with ⟨q, hLoop⟩
    refine ⟨q, ?_⟩
    rw [passLoop, hGap]
    change (settleFile host now name (file name) p1).bind _ = _
    rw [hFile]
    exact hLoop

-- The Files a Pass Finds

theorem mem_keys_setFound (found : List (ℕ × PyStr)) (n : ℕ) (name : PyStr)
    (m : ℕ) : m ∈ (setFound found n name).map Prod.fst ↔ m = n ∨ m ∈ found.map Prod.fst := by
  rw [setFound, List.map_cons, List.mem_cons]
  constructor
  · rintro (hEq | hMem)
    · exact Or.inl hEq
    · right
      rcases List.mem_map.mp hMem with ⟨f, hf, rfl⟩
      exact List.mem_map_of_mem (List.mem_of_mem_filter hf)
  · rintro (hEq | hMem)
    · exact Or.inl hEq
    · by_cases hEq : m = n
      · exact Or.inl hEq
      · right
        rcases List.mem_map.mp hMem with ⟨f, hf, rfl⟩
        apply List.mem_map_of_mem
        rw [List.mem_filter]
        exact ⟨hf, decide_eq_true hEq⟩

theorem mem_keys_scanNames {names : List PyStr} {found : List (ℕ × PyStr)} {n : ℕ}
    (h : n ∈ found.map Prod.fst ∨ ∃ name ∈ names, filenameSeq? name = some n) :
    n ∈ (scanNames names found).map Prod.fst := by
  induction names generalizing found with
  | nil =>
    rcases h with h | ⟨name, hMem, _⟩
    · exact h
    · cases hMem
  | cons name names ih =>
    unfold scanNames at ih ⊢
    rw [List.foldl_cons]
    apply ih
    rcases h with hFound | ⟨name', hMem, hName⟩
    · left
      cases hSeq : filenameSeq? name with
      | none => exact hFound
      | some m =>
        dsimp only
        rw [mem_keys_setFound]
        exact Or.inr hFound
    · rcases List.mem_cons.mp hMem with rfl | hRest
      · left
        rw [hName]
        dsimp only
        rw [mem_keys_setFound]
        exact Or.inl rfl
      · exact Or.inr ⟨name', hRest, hName⟩

theorem nodup_scanNames (names : List PyStr) {found : List (ℕ × PyStr)}
    (h : (found.map Prod.fst).Nodup) : ((scanNames names found).map Prod.fst).Nodup := by
  induction names generalizing found with
  | nil => exact h
  | cons name names ih =>
    unfold scanNames at ih ⊢
    rw [List.foldl_cons]
    apply ih
    cases filenameSeq? name with
    | none => exact h
    | some n =>
      dsimp only
      rw [setFound, List.map_cons, List.nodup_cons]
      constructor
      · intro hMem
        rcases List.mem_map.mp hMem with ⟨f, hf, hEq⟩
        have hNe := (List.mem_filter.mp hf).2
        exact of_decide_eq_true hNe hEq
      · exact h.sublist (List.filter_sublist.map Prod.fst)

theorem pendingFiles_ascending (terminal : ℕ)
    (names : List PyStr) : Ascending (terminal + 1) (pendingFiles terminal names) := by
  have hPerm : (pendingFiles terminal names).Perm
      ((scanExchangeDir names).filter (fun f => terminal < f.1)) :=
    List.perm_insertionSort _ _
  constructor
  · intro f hf
    have hFilter := hPerm.mem_iff.mp hf
    exact of_decide_eq_true (List.mem_filter.mp hFilter).2
  · have hScan : ((scanExchangeDir names).map Prod.fst).Nodup := by
      apply nodup_scanNames
      exact List.nodup_nil
    have hNodup : ((pendingFiles terminal names).map Prod.fst).Nodup := by
      rw [(hPerm.map Prod.fst).nodup_iff]
      exact hScan.sublist (List.filter_sublist.map Prod.fst)
    have hTotal : Std.Total (fun a b : ℕ × PyStr => a.1 ≤ b.1) := ⟨fun a b => le_total a.1 b.1⟩
    have hTrans : IsTrans (ℕ × PyStr) (fun a b : ℕ × PyStr => a.1 ≤ b.1) :=
      ⟨fun a b c hab hbc => le_trans hab hbc⟩
    have hSorted : (pendingFiles terminal names).Pairwise (fun a b => a.1 ≤ b.1) :=
      List.pairwise_insertionSort _ _
    rw [List.Nodup, List.pairwise_map] at hNodup
    exact (hSorted.and hNodup).imp (fun h => lt_of_le_of_ne h.1 h.2)

theorem mem_pendingFiles {terminal n : ℕ} {names : List PyStr} {name : PyStr}
    (hMem : name ∈ names) (hName : filenameSeq? name = some n)
    (hAbove : terminal < n) : ∃ f ∈ pendingFiles terminal names, f.1 = n := by
  have hSorted : name ∈ names.insertionSort (· ≤ ·) := (List.mem_insertionSort _).mpr hMem
  have hKey : n ∈ (scanExchangeDir names).map Prod.fst := mem_keys_scanNames (Or.inr ⟨name, hSorted, hName⟩)
  rcases List.mem_map.mp hKey with ⟨f, hf, rfl⟩
  refine ⟨f, ?_, rfl⟩
  rw [pendingFiles, List.mem_insertionSort, List.mem_filter]
  exact ⟨hf, decide_eq_true hAbove⟩

-- Exactly the Digestible Directories

/- The terminal of a ledger. -/
def terminalSeq (t : Ledger F) : ℕ := match t.state with
  | none => 0
  | some st => st.terminalSeq.toNat

/-
  A pass that neither stopped nor is blocked, and applied or
  rejected every file named above the terminal.
-/
def SettlesEvery (terminal : ℕ) (names : List PyStr) (stage : Stage F) : Prop := match stage with
  | .error _ => False
  | .ok p =>
    p.result.blockedAt = none ∧ ∀ name ∈ names, ∀ n ∈ filenameSeq? name, terminal < n → SettledIn p.settled n

/-
  After any run, on a storage that fails no statement, a pass
  over a directory that can be listed settles every file above
  the terminal if and only if the directory is digestible from
  there on.
-/
theorem pass_settles_every_file_iff (created now : F)
    (inputs : List (Input F)) (host : Host) (names : List PyStr)
    (file : PyStr → ExchangeFile) :
    let ledger := (finalState step (freshStore created) inputs).ledger
    SettlesEvery (terminalSeq ledger) names (journalIngestPass host ⟨some names, file⟩ now [] ledger) ↔
      Digestible F host file (terminalSeq ledger + 1) (pendingFiles (terminalSeq ledger) names) := by
  intro ledger
  rcases run_settled created inputs with ⟨seq, hSettled⟩
  change Settled _ seq ledger at hSettled
  rcases hSettled.state with ⟨st, hState, hTerminal, _, _⟩
  have hPositive := hSettled.positive
  have hSeq : terminalSeq ledger + 1 = seq := by
    rw [terminalSeq, hState]
    dsimp only
    omega
  have hPass : journalIngestPass host ⟨some names, file⟩ now [] ledger =
        passLoop host now file (pendingFiles (terminalSeq ledger) names) ⟨ledger, seq, {}, [], []⟩ := by
    rw [← hSeq]
    unfold journalIngestPass terminalSeq
    rw [hState]
    rfl
  have hAscending := pendingFiles_ascending (terminalSeq ledger) names
  rw [hPass]
  rw [hSeq] at hAscending ⊢
  constructor
  · intro hEvery
    cases hLoop : passLoop host now file (pendingFiles (terminalSeq ledger) names)
        ⟨ledger, seq, {}, [], []⟩ with
    | error e =>
      rw [hLoop] at hEvery
      exact absurd hEvery id
    | ok p => exact (passLoop_ok hAscending hLoop).1
  · intro hDigestible
    rcases passLoop_lands (hSettled.start []) rfl hAscending hDigestible with ⟨q, hLoop⟩
    have hMarked := passLoop_marked host now file (pendingFiles (terminalSeq ledger) names)
      (p := ⟨ledger, seq, {}, [], []⟩) rfl
    rw [hLoop] at hMarked ⊢
    refine ⟨hMarked, ?_⟩
    intro name hName n hn hAbove
    rcases mem_pendingFiles hName hn hAbove with ⟨f, hf, rfl⟩
    exact (passLoop_ok hAscending hLoop).2.2 f hf

/-
  One file with the largest number a name can spell stops the
  first pass of a fresh store: the gap before it fits in no
  list the interpreter can hold.
-/
theorem largest_name_not_settled : ¬ SettlesEvery 0 [pyStr "ev-99999999999999999999.jsonl"]
      (journalIngestPass ⟨1000, 2 ^ 60⟩ ⟨some [pyStr "ev-99999999999999999999.jsonl"],
          fun _ => .regular 0 (some [])⟩
        (⟨0⟩ : Grid 1) [] (freshLedger ⟨0⟩)) := by
  have hFiles : pendingFiles 0 [pyStr "ev-99999999999999999999.jsonl"] =
        [(99999999999999999999, pyStr "ev-99999999999999999999.jsonl")] := by
    decide
  have hPass : journalIngestPass ⟨1000, 2 ^ 60⟩
          ⟨some [pyStr "ev-99999999999999999999.jsonl"], fun _ => .regular 0 (some [])⟩
          (⟨0⟩ : Grid 1) [] (freshLedger ⟨0⟩) =
        .error (.raised .memory, ⟨freshLedger ⟨0⟩, 1, {}, [], []⟩) := by
    change passLoop _ _ _ (pendingFiles 0 _) _ = _
    rw [hFiles]
    rfl
  rw [hPass]
  exact id

end SingboxOps.JournalIngest
