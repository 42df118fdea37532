import SingboxOps.JournalIngest.PoisonHead

/-
  The pure ingest contract, and when the pass over the database
  keeps to it.
-/

namespace SingboxOps.JournalIngest

-- The Contract

/- What a number is settled as, with the code of a rejection. -/
inductive Verdict where
  | applied
  | rejected (code : AuditCode)
  | gap
deriving DecidableEq

def Verdict.disposition : Verdict → Disposition
  | applied => .applied
  | rejected _ => .rejected
  | gap => .gap

/-
  The result of `settle`, and besides the order in which the
  numbers were settled.
-/
structure ContractResult where
  terminal : ℕ
  gaps : ℕ := 0
  rejected : ℕ := 0
  consumed : ℕ := 0
  lastConsumed : Option ℕ := none
  blockedAt : Option ℕ := none
  rejectedCodes : List (ℕ × AuditCode) := []
  settled : List (ℕ × Verdict) := []
deriving DecidableEq

/- The loop was left at a failed apply, or by an exception. -/
inductive ContractStop where
  | blocked
  | undecodable
  | recursion
  | unreadable
deriving DecidableEq

/- The bytes that are read of a file are no text. -/
def Undecodable (name : PyStr) : ExchangeFile → Prop
  | .regular size (some bytes) =>
    (filenameSeq? name).isSome ∧ size ≤ maxFileBytes ∧ utf8Decode bytes = none
  | _ => False

instance (name : PyStr) (file : ExchangeFile) :
    Decidable (Undecodable name file) := by
  unfold Undecodable
  split <;> infer_instance

variable (F : Type) [PyFloat F]

/- The contract's `read_and_validate`, which may raise. -/
def contractRead (room : ℕ) (name : PyStr) (seq : ℕ) (file : ExchangeFile) :
    Except ContractStop (Except AuditCode (Header × List (Event F))) :=
  if Undecodable name file then .error .undecodable
  else
    match (readAndValidate room name seq file : Checked (Header × List (Event F))) with
    | .error _ => .error .recursion
    | .ok answer => .ok answer

/- Count the interval that is skipped before a file. -/
def contractGap (seq nxt : ℕ) (c : ContractResult) : ContractResult :=
  if nxt ≤ seq then c
  else
    { c with
      gaps := c.gaps + (nxt - seq)
      terminal := nxt - 1
      settled := c.settled ++ (List.range' seq (nxt - seq)).map (fun s => (s, .gap)) }

/-
  The loop of `settle`, along the files from the terminal on;
  `fails` says at which numbers `apply_fn` raises.
-/
def contractLoop (room : ℕ) (fails : ℕ → Bool) (file : PyStr → ExchangeFile) :
    List (ℕ × PyStr) → ℕ → ContractResult → Except (ContractStop × ContractResult) ContractResult
  | [], _, c => .ok c
  | (nxt, name) :: rest, seq, c =>
    let c := contractGap seq nxt c
    match contractRead F room name nxt (file name) with
    | .error stop => .error (stop, c)
    | .ok (.error code) =>
      contractLoop room fails file rest (nxt + 1)
        { c with
          terminal := nxt
          rejected := c.rejected + 1
          rejectedCodes := c.rejectedCodes ++ [(nxt, code)]
          settled := c.settled ++ [(nxt, .rejected code)] }
    | .ok (.ok _) =>
      if fails nxt then
        .error (.blocked, { c with blockedAt := some nxt })
      else
        contractLoop room fails file rest (nxt + 1)
          { c with
            terminal := nxt
            lastConsumed := some nxt
            consumed := c.consumed + 1
            settled := c.settled ++ [(nxt, .applied)] }

/- `settle` -/
def contractSettle (room : ℕ) (fails : ℕ → Bool) (dir : Directory)
    (terminal : ℕ) : Except (ContractStop × ContractResult) ContractResult :=
  match dir.names with
  | none => .error (.unreadable, { terminal := terminal })
  | some names =>
    contractLoop F room fails dir.file (pendingFiles terminal names) (terminal + 1) { terminal := terminal }

-- Passes Whose Applies May Fail

/-
  For each number, how the storage answers the statements of
  the transaction that applies its file.
-/
abbrev Answers := ℕ → List Bool

/- The transaction that applies the file has four statements. -/
def Answers.fails (answers : Answers) (seq : ℕ) : Bool := failsWithin 4 (answers seq)

/- The answers in the order of a pass's transactions. -/
def Answers.script (room : ℕ) (file : PyStr → ExchangeFile)
    (answers : Answers) : ℕ → List (ℕ × PyStr) → List (List Bool)
  | _, [] => []
  | seq, (nxt, name) :: rest =>
    let own :=
      match (readAndValidate room name nxt (file name) :
          Checked (Header × List (Event F))) with
      | .ok (.ok _) => answers nxt
      | _ => []
    (if nxt ≤ seq then [] else [[]]) ++ own :: answers.script room file (nxt + 1) rest

variable {F}

/- A pass in which only the transactions of applies may fail. -/
def passUnder (answers : Answers) (host : Host) (dir : Directory) (now : F) (ledger : Ledger F) : Stage F :=
  let terminal := terminalSeq ledger
  journalIngestPass host dir now ([] :: answers.script F host.room dir.file (terminal + 1)
        (pendingFiles terminal (dir.names.getD [])))
    ledger

-- Keeping to the Contract

/- The audit row of a settled number. -/
def auditRow (now : F) : ℕ × Verdict → Option (AuditRow F)
  | (_, .applied) => none
  | (seq, .rejected code) => some ⟨now, .rejected, seq, code⟩
  | (seq, .gap) => some ⟨now, .gap, seq, .sequenceGap⟩

/-
  A pass over a ledger came as far as the contract: the same
  numbers in the same order with the same codes, the same
  counts, the same block and the same terminal.
-/
structure Matches (now : F) (ledger : Ledger F) (p : Progress F) (c : ContractResult) : Prop where
  result : p.result = ⟨c.consumed, c.gaps, c.rejected, c.blockedAt⟩
  settled : p.settled = c.settled.map (fun x => ⟨x.1, x.2.disposition⟩)
  audit : p.ledger.audit = ledger.audit ++ c.settled.filterMap (auditRow now)
  terminal : terminalSeq p.ledger = c.terminal

/- Both end alike, having come equally far. -/
def KeepsTo (now : F) (ledger : Ledger F) :
    Stage F → Except (ContractStop × ContractResult) ContractResult → Prop
  | .ok p, .ok c => Matches now ledger p c
  | .error (.blocked, p), .error (.blocked, c) => Matches now ledger p c
  | .error (.raised .recursion, p), .error (.recursion, c) => Matches now ledger p c
  | .error (.raised .exchangeUnreadable, p),
      .error (.unreadable, c) => Matches now ledger p c
  | _, _ => False

/- What the numbers of a gap ask of the database. -/
def GapFits (host : Host) (seq nxt : ℕ) : Prop := seq < nxt → nxt - seq ≤ host.memory ∧ (nxt : ℤ) ≤ int64Limit

variable (F)

/-
  From a number on, up to where the contract stops: the list
  of a gap fits in memory and its numbers in 64 bits, bytes
  that are read are text, a rejected number has 64 bits, and
  so have the numbers of an accepted file and the sum of its
  counts, unless the storage fails its first statement.
-/
def Storable (host : Host) (answers : Answers) (file : PyStr → ExchangeFile) : ℕ → List (ℕ × PyStr) → Prop
  | _, [] => True
  | seq, (nxt, name) :: rest =>
    GapFits host seq nxt ∧
    ¬ Undecodable name (file name) ∧
    match (readAndValidate host.room name nxt (file name) :
        Checked (Header × List (Event F))) with
    | .error _ => True
    | .ok (.error _) => (nxt : ℤ) < int64Limit ∧ Storable host answers file (nxt + 1) rest
    | .ok (.ok (header, records)) =>
      (answers nxt).headD false = true ∨ ((nxt : ℤ) < int64Limit ∧ FitsColumns header records ∧
          (answers.fails nxt = false → Storable host answers file (nxt + 1) rest))

variable {F}

-- Transactions That Stop

section Transactions

variable {α β : Type} {t : Ledger F}

omit [PyFloat F] in
theorem transact_ofExcept (x : Except IngestError α) (f : α → Work F β) (faults : List Bool) :
    transact (Tx.ofExcept x >>= f) faults t =
      match x with
      | .error e => (.error e, t)
      | .ok a => transact (f a) faults t := by
  cases x <;> rfl

omit [PyFloat F] in
theorem transact_execute_error {statement : Ledger F → Except IngestError (Unit × Ledger F)}
    {e : IngestError} (h : statement t = .error e) (f : Unit → Work F β) {faults : List Bool}
    (hFaults : faults.headD false = false) :
    transact (execute statement >>= f) faults t = (.error e, t) := by
  have hRun : (execute statement >>= f) ⟨t, faults⟩ = .error e := by
    change (execute statement ⟨t, faults⟩ >>= fun r => f r.1 r.2) = _
    unfold execute Tx.execute
    dsimp only
    rw [if_neg (by rw [hFaults]; exact Bool.false_ne_true), h]
    rfl
  unfold transact
  rw [hRun]

omit [PyFloat F] in
theorem transact_execute_failed (statement : Ledger F → Except IngestError (Unit × Ledger F))
    (f : Unit → Work F β) {faults : List Bool}
    (hFaults : faults.headD false = true) :
    transact (execute statement >>= f) faults t = (.error .storage, t) := by
  have hRun : (execute statement >>= f) ⟨t, faults⟩ = .error .storage := by
    change (execute statement ⟨t, faults⟩ >>= fun r => f r.1 r.2) = _
    unfold execute Tx.execute
    dsimp only
    rw [if_pos hFaults]
    rfl
  unfold transact
  rw [hRun]

omit [PyFloat F] in
theorem insertAudit_overflow {rows : List (AuditRow F)} {r : AuditRow F} (hIn : r ∈ rows)
    (hLarge : int64Limit ≤ r.seq) : insertAudit rows t = .error .overflow := by
  unfold insertAudit
  rw [if_neg]
  intro hAll
  have hBind := List.all_eq_true.mp hAll r hIn
  rw [bindable_iff] at hBind
  have hBelow := (hBind r.seq (List.mem_singleton_self _)).2
  omega

end Transactions

-- What a Settlement Writes

section Stages

variable {log : List Settlement} {origin ledger t : Ledger F}
variable {seq : ℕ} {host : Host} {now : F} {p q : Progress F}
variable {c : ContractResult}

omit [PyFloat F] in
theorem terminalSeq_settled (h : Settled log seq t) : terminalSeq t = seq - 1 := by
  obtain ⟨st, hState, hTerminal, _⟩ := h.state
  unfold terminalSeq
  rw [hState]
  dsimp only
  omega

omit [PyFloat F] in
theorem updateIngestState_audit {bound : List ℤ} {f : IngestState F → IngestState F} {t' : Ledger F}
    (h : updateIngestState bound f t = .ok ((), t')) : t'.audit = t.audit := by
  unfold updateIngestState at h
  split at h
  · split at h
    · cases h
      rfl
    · split at h
      · cases h
        rfl
      · cases h
  · cases h

theorem journalSettleGap_audit (memory seq nxt : ℕ)
    (now : F) : Returns t (journalSettleGap memory seq nxt now)
      (fun _ t' => t'.audit = t.audit ++ (List.range' seq (nxt - seq)).map
          (fun skipped : ℕ => ⟨now, .gap, skipped, .sequenceGap⟩)) := by
  apply Returns.bind_ofExcept
  intro rows hRows
  unfold gapRows at hRows
  split at hRows
  · cases hRows
    apply Returns.bind_execute
    intro _ t1 hInsert
    rw [insertAudit_ok hInsert]
    apply Returns.bind_execute
    intro _ t2 hUpdate
    have hAudit := updateIngestState_audit hUpdate
    exact Returns.commit hAudit
  · cases hRows

theorem journalSettleRejected_audit (seq : ℕ) (code : AuditCode)
    (now : F) : Returns t (journalSettleRejected seq code now)
      (fun _ t' => t'.audit = t.audit ++ [⟨now, .rejected, seq, code⟩]) := by
  apply Returns.bind_execute
  intro _ t1 hInsert
  rw [insertAudit_ok hInsert]
  apply Returns.bind_execute
  intro _ t2 hUpdate
  have hAudit := updateIngestState_audit hUpdate
  exact Returns.commit hAudit

theorem journalApply_audit (header : Header) (records : List (Event F)) (seq : ℕ)
    (now : F) : Returns t (journalApplyLocked header records seq now) (fun _ t' => t'.audit = t.audit) := by
  apply Returns.bind_execute
  intro _ t1 hRun
  rw [insertRun_ok hRun]
  apply Returns.bind_execute
  intro _ t2 hEvents
  rw [insertEvents_ok hEvents]
  apply Returns.bind_execute
  intro _ t3 hUpdate
  have hAudit := updateIngestState_audit hUpdate
  exact Returns.commit hAudit

-- Gaps

theorem Matches.gap (h : Matches now ledger p c)
    (hCome : Come log origin q) {nxt : ℕ} (hBelow : p.seq < nxt) (hSeq : q.seq = nxt)
    (hResult : q.result = { p.result with gaps := p.result.gaps + (nxt - p.seq) })
    (hSettled : q.settled = p.settled ++ (List.range' p.seq (nxt - p.seq)).map (fun s => ⟨s, .gap⟩))
    (hAudit : q.ledger.audit = p.ledger.audit ++ (List.range' p.seq (nxt - p.seq)).map
        (fun skipped : ℕ => ⟨now, .gap, skipped, .sequenceGap⟩)) :
    Matches now ledger q (contractGap p.seq nxt c) := by
  unfold contractGap
  rw [if_neg (Nat.not_le.mpr hBelow)]
  constructor
  · rw [hResult, h.result]
  · rw [hSettled, h.settled, List.map_append, List.map_map]
    rfl
  · have hRows : ∀ numbers : List ℕ, (numbers.map (fun s => (s, Verdict.gap))).filterMap (auditRow now) =
          numbers.map (fun skipped : ℕ => ⟨now, .gap, skipped, .sequenceGap⟩) := by
      intro numbers
      induction numbers with
      | nil => rfl
      | cons n numbers ih =>
        rw [List.map_cons, List.map_cons, List.filterMap_cons_some (f := auditRow now) rfl, ih]
    rw [hAudit, h.audit, List.filterMap_append, hRows, List.append_assoc]
  · rw [terminalSeq_settled hCome.settled, hSeq]

theorem settleGap_fits (hCome : Come log origin p)
    (hMatches : Matches now ledger p c) {nxt : ℕ} (hNext : p.seq ≤ nxt)
    {more : List (List Bool)}
    (hFaults : p.faults = (if nxt ≤ p.seq then [] else [[]]) ++ more)
    (hFits : GapFits host p.seq nxt) :
    ∃ q, settleGap host now nxt p = .ok q ∧ q.seq = nxt ∧ q.faults = more ∧
      Matches now ledger q (contractGap p.seq nxt c) := by
  have hSound := settleGap_sound hCome host now nxt
  unfold settleGap at hSound ⊢
  by_cases hLe : nxt ≤ p.seq
  · rw [if_pos hLe] at hFaults ⊢
    refine ⟨p, rfl, le_antisymm hNext hLe, hFaults, ?_⟩
    unfold contractGap
    rw [if_pos hLe]
    exact hMatches
  · rw [if_neg hLe] at hFaults hSound ⊢
    have hBelow : p.seq < nxt := Nat.lt_of_not_le hLe
    obtain ⟨t', hLands⟩ := journalSettleGap_lands hCome.settled hBelow (hFits hBelow).1 (hFits hBelow).2 now
    have hHead : p.faults.headD [] = [] := by rw [hFaults]; rfl
    have hTail : p.faults.tail = more := by rw [hFaults]; rfl
    have hRun := transact_lands hLands
    have hAudit := transact_ok (journalSettleGap_audit host.memory p.seq nxt now) (congrArg Prod.fst hRun)
    rw [hRun] at hAudit
    unfold settle at hSound ⊢
    rw [hHead, hRun] at hSound ⊢
    refine ⟨_, rfl, rfl, hTail, ?_⟩
    exact hMatches.gap hSound hBelow rfl rfl rfl hAudit

theorem settleGap_unfit {nxt : ℕ} {more : List (List Bool)}
    (hFaults : p.faults = (if nxt ≤ p.seq then [] else [[]]) ++ more)
    (hFits : ¬ GapFits host p.seq nxt) :
    settleGap host now nxt p = .error (.raised .memory, p) ∨
      settleGap host now nxt p = .error (.raised .overflow, p) := by
  unfold GapFits at hFits
  rw [Classical.not_imp, not_and_or] at hFits
  obtain ⟨hBelow, hFits⟩ := hFits
  have hHead : p.faults.headD [] = [] := by
    rw [hFaults, if_neg (Nat.not_le.mpr hBelow)]
    rfl
  unfold settleGap
  rw [if_neg (Nat.not_le.mpr hBelow)]
  unfold settle journalSettleGap
  rw [hHead, transact_ofExcept]
  by_cases hMemory : nxt - p.seq ≤ host.memory
  · right
    have hLarge := hFits.resolve_left (fun h => h hMemory)
    unfold gapRows
    rw [if_pos hMemory]
    dsimp only
    rw [transact_execute_error (insertAudit_overflow (r := ⟨now, .gap, ((nxt - 1 : ℕ) : ℤ), .sequenceGap⟩)
      ?_ ?_) _ rfl]
    · refine List.mem_map.mpr ⟨nxt - 1, ?_, rfl⟩
      rw [List.mem_range'_1]
      omega
    · dsimp only
      omega
  · left
    unfold gapRows
    rw [if_neg hMemory]

-- Files

/- A file that is settled on both sides. -/
theorem Matches.file (h : Matches now ledger p c) (hCome : Come log origin q)
    {v : Verdict} {c' : ContractResult} (hSeq : q.seq = p.seq + 1)
    (hResult : q.result = ⟨c'.consumed, c'.gaps, c'.rejected, c'.blockedAt⟩)
    (hSettled : q.settled = p.settled ++ [⟨p.seq, v.disposition⟩])
    (hAudit : q.ledger.audit = p.ledger.audit ++ [(p.seq, v)].filterMap (auditRow now))
    (hOrder : c'.settled = c.settled ++ [(p.seq, v)])
    (hTerminal : c'.terminal = p.seq) : Matches now ledger q c' := by
  constructor
  · exact hResult
  · rw [hSettled, hOrder, h.settled, List.map_append]
    rfl
  · rw [hAudit, hOrder, h.audit, List.filterMap_append, List.append_assoc]
  · rw [terminalSeq_settled hCome.settled, hSeq, hTerminal]
    rfl

omit [PyFloat F] in
theorem Matches.blocked (h : Matches now ledger p c) (n : ℕ) : Matches now ledger
      { p with result := { p.result with blockedAt := some n } }
      { c with blockedAt := some n } := by
  constructor
  · dsimp only
    rw [h.result]
  · exact h.settled
  · exact h.audit
  · exact h.terminal

theorem settleFile_rejected (hCome : Come log origin p) (hMatches : Matches now ledger p c)
    {name : PyStr} {file : ExchangeFile} {code : AuditCode}
    {more : List (List Bool)} (hFaults : p.faults = [] :: more)
    (hRead : (readAndValidate host.room name p.seq file :
      Checked (Header × List (Event F))) = .ok (.error code))
    (hColumn : (p.seq : ℤ) < int64Limit) :
    ∃ q, settleFile host now name file p = .ok q ∧ q.seq = p.seq + 1 ∧ q.faults = more ∧ Matches now ledger q
        { c with
          terminal := p.seq
          rejected := c.rejected + 1
          rejectedCodes := c.rejectedCodes ++ [(p.seq, code)]
          settled := c.settled ++ [(p.seq, .rejected code)] } := by
  have hSound := settleFile_sound hCome host now name file
  obtain ⟨t', hLands⟩ := journalSettleRejected_lands hCome.settled hColumn code now
  have hRun := transact_lands hLands
  have hAudit := transact_ok (journalSettleRejected_audit p.seq code now) (congrArg Prod.fst hRun)
  rw [hRun] at hAudit
  unfold settleFile at hSound ⊢
  rw [hRead] at hSound ⊢
  dsimp only at hSound ⊢
  unfold settle at hSound ⊢
  rw [hFaults, List.headD_cons, hRun] at hSound ⊢
  refine ⟨_, rfl, rfl, rfl, ?_⟩
  refine hMatches.file (v := .rejected code) hSound rfl ?_ rfl hAudit rfl rfl
  rw [hMatches.result]
  rfl

theorem settleFile_unbound {name : PyStr} {file : ExchangeFile} {code : AuditCode}
    {more : List (List Bool)} (hFaults : p.faults = [] :: more)
    (hRead : (readAndValidate host.room name p.seq file :
      Checked (Header × List (Event F))) = .ok (.error code))
    (hColumn : ¬ (p.seq : ℤ) < int64Limit) :
    settleFile host now name file p = .error (.raised .overflow, p) := by
  unfold settleFile
  rw [hRead]
  dsimp only
  unfold settle journalSettleRejected
  rw [hFaults, List.headD_cons, transact_execute_error (insertAudit_overflow
      (r := ⟨now, .rejected, p.seq, code⟩)
      (List.mem_singleton_self _) (Int.not_lt.mp hColumn)) _ rfl]

/- The transaction of an accepted file, by what the storage does. -/
theorem settleFile_accepted (hCome : Come log origin p) (hMatches : Matches now ledger p c)
    {name : PyStr} {file : ExchangeFile} {header : Header}
    {records : List (Event F)} {answers : Answers} {more : List (List Bool)}
    (hFaults : p.faults = answers p.seq :: more)
    (hRead : (readAndValidate host.room name p.seq file :
      Checked (Header × List (Event F))) = .ok (.ok (header, records)))
    (hColumn : (p.seq : ℤ) < int64Limit)
    (hFits : FitsColumns header records) :
    (answers.fails p.seq = true ∧ settleFile host now name file p = .error (.blocked,
          { p with result := { p.result with blockedAt := some p.seq } })) ∨
      (answers.fails p.seq = false ∧ ∃ q, settleFile host now name file p = .ok q ∧
          q.seq = p.seq + 1 ∧ q.faults = more ∧
          Matches now ledger q
            { c with
              terminal := p.seq
              lastConsumed := some p.seq
              consumed := c.consumed + 1
              settled := c.settled ++ [(p.seq, .applied)] }) := by
  have hSound := settleFile_sound hCome host now name file
  have hValid := readAndValidate_valid hRead
  obtain ⟨t', hRuns⟩ := journalApply_runs hCome.settled hColumn hValid.1 hValid.2 hFits now
  have hRun := hRuns.transact_eq (answers p.seq)
  unfold settleFile at hSound ⊢
  rw [hRead] at hSound ⊢
  dsimp only at hSound ⊢
  unfold settle at hSound ⊢
  rw [hFaults, List.headD_cons] at hSound ⊢
  change (failsWithin 4 (answers p.seq) = true ∧ _) ∨ (failsWithin 4 (answers p.seq) = false ∧ _)
  cases hFails : failsWithin 4 (answers p.seq) with
  | true =>
    rw [hFails, if_pos rfl] at hRun
    rw [hRun]
    exact Or.inl ⟨rfl, rfl⟩
  | false =>
    rw [hFails, if_neg Bool.false_ne_true] at hRun
    have hAudit := transact_ok (journalApply_audit header records p.seq now) (congrArg Prod.fst hRun)
    rw [hRun] at hAudit hSound ⊢
    refine Or.inr ⟨rfl, _, rfl, rfl, rfl, ?_⟩
    refine hMatches.file (v := .applied) hSound rfl ?_ rfl ?_
      rfl rfl
    · rw [hMatches.result]
      rfl
    · exact hAudit.trans (List.append_nil _).symm

/- What cannot be bound is raised, unless the storage fails. -/
theorem settleFile_unfit {name : PyStr} {file : ExchangeFile} {header : Header}
    {records : List (Event F)} {answers : Answers} {more : List (List Bool)}
    (hFaults : p.faults = answers p.seq :: more)
    (hRead : (readAndValidate host.room name p.seq file :
      Checked (Header × List (Event F))) = .ok (.ok (header, records)))
    (hFits : ¬ ((p.seq : ℤ) < int64Limit ∧ FitsColumns header records)) :
    settleFile host now name file p =
      if (answers p.seq).headD false = true then
        .error (.blocked, { p with result := { p.result with blockedAt := some p.seq } })
      else .error (.raised .overflow, p) := by
  have hValid := readAndValidate_valid hRead
  have hInsert : insertRun (runRow header records p.seq now) p.ledger = .error .overflow := by
    unfold insertRun
    rw [if_neg]
    rw [runRow_bindable_iff hValid.1 hValid.2]
    exact hFits
  unfold settleFile
  rw [hRead]
  dsimp only
  unfold settle journalApplyLocked
  rw [hFaults, List.headD_cons]
  split_ifs with hFirst
  · rw [transact_execute_failed _ _ hFirst]
  · rw [transact_execute_error hInsert _ (Bool.not_eq_true _ ▸ hFirst)]

-- The Loops

theorem contractRead_eq {room : ℕ} {name : PyStr} {seq : ℕ} {file : ExchangeFile}
    (h : ¬ Undecodable name file) :
    contractRead F room name seq file =
      match (readAndValidate room name seq file : Checked (Header × List (Event F))) with
      | .error _ => .error .recursion
      | .ok answer => .ok answer :=
  if_neg h

omit [PyFloat F] in
theorem not_keepsTo_raised {e : IngestError} (hE : e = .memory ∨ e = .overflow)
    (end' : Except (ContractStop × ContractResult) ContractResult) :
    ¬ KeepsTo now ledger (.error (.raised e, p)) end' := by
  rcases hE with rfl | rfl <;>
    · rcases end' with ⟨stop, c⟩ | c
      · cases stop <;> exact id
      · exact id

omit [PyFloat F] in
theorem not_keepsTo_undecodable (stage : Stage F) :
    ¬ KeepsTo now ledger stage (.error (.undecodable, c)) := by
  rcases stage with ⟨stop, q⟩ | q
  · rcases stop with _ | e
    · exact id
    · cases e <;> exact id
  · exact id

theorem passLoop_keeps_iff {answers : Answers} {file : PyStr → ExchangeFile}
    {files : List (ℕ × PyStr)} (hCome : Come log origin p)
    (hAscending : Ascending p.seq files)
    (hFaults : p.faults = answers.script F host.room file p.seq files)
    (hMatches : Matches now ledger p c) :
    KeepsTo now ledger (passLoop host now file files p)
        (contractLoop F host.room answers.fails file files p.seq c) ↔
      Storable F host answers file p.seq files := by
  induction files generalizing p c with
  | nil => exact iff_of_true hMatches True.intro
  | cons f rest ih =>
    rcases f with ⟨nxt, name⟩
    rw [Answers.script] at hFaults
    rw [passLoop, contractLoop, Storable]
    have hNext : p.seq ≤ nxt := hAscending.1 _ List.mem_cons_self
    by_cases hFits : GapFits host p.seq nxt
    case neg =>
      refine iff_of_false ?_ (fun h => hFits h.1)
      have hGap : settleGap host now nxt p = .error (.raised .memory, p) ∨
            settleGap host now nxt p = .error (.raised .overflow, p) :=
        settleGap_unfit hFaults hFits
      rcases hGap with hGap | hGap
      · rw [hGap]
        exact not_keepsTo_raised (Or.inl rfl) _
      · rw [hGap]
        exact not_keepsTo_raised (Or.inr rfl) _
    obtain ⟨q, hGap, hSeq, hRest, hQ⟩ := settleGap_fits hCome hMatches hNext hFaults hFits
    have hComeQ : Come log origin q := by
      have hSound := settleGap_sound hCome host now nxt
      rw [hGap] at hSound
      exact hSound
    rw [hGap]
    change KeepsTo now ledger ((settleFile host now name (file name) q).bind _) _ ↔ _
    rw [and_iff_right hFits]
    generalize contractGap p.seq nxt c = c at hQ ⊢
    subst hSeq
    by_cases hText : Undecodable name (file name)
    · rw [contractRead, if_pos hText]
      exact iff_of_false (not_keepsTo_undecodable _) (fun h => h.1 hText)
    rw [contractRead_eq hText, and_iff_right hText]
    -- what the rest needs, once the file is settled
    have hTail : ∀ {q' : Progress F} {c' : ContractResult}, settleFile host now name (file name) q = .ok q' →
        q'.seq = q.seq + 1 →
        q'.faults = answers.script F host.room file (q.seq + 1) rest →
        Matches now ledger q' c' → (KeepsTo now ledger ((settleFile host now name (file name) q).bind
              (fun q' => passLoop host now file rest q'))
            (contractLoop F host.room answers.fails file rest (q.seq + 1) c') ↔
            Storable F host answers file (q.seq + 1) rest) := by
      intro q' c' hFile hSeq' hFaults' hMatches'
      have hSound := settleFile_sound hComeQ host now name (file name)
      rw [hFile] at hSound ⊢
      rw [← hSeq'] at hFaults' ⊢
      exact ih hSound (hSeq' ▸ hAscending.tail) hFaults' hMatches'
    cases hRead : (readAndValidate host.room name q.seq (file name) : Checked (Header × List (Event F))) with
    | error e =>
      have hFile : settleFile host now name (file name) q = .error (.raised .recursion, q) := by
        unfold settleFile
        rw [hRead]
      rw [hFile]
      exact iff_of_true hQ True.intro
    | ok answer =>
      rw [hRead] at hRest
      cases answer with
      | error code =>
        dsimp only at hRest ⊢
        by_cases hColumn : (q.seq : ℤ) < int64Limit
        · obtain ⟨q', hFile, hSeq', hFaults', hMatches'⟩ := settleFile_rejected hComeQ hQ hRest hRead hColumn
          rw [and_iff_right hColumn]
          exact hTail hFile hSeq' hFaults' hMatches'
        · rw [settleFile_unbound hRest hRead hColumn]
          exact iff_of_false (not_keepsTo_raised (Or.inr rfl) _) (fun h => hColumn h.1)
      | ok accepted =>
        rcases accepted with ⟨header, records⟩
        dsimp only at hRest ⊢
        by_cases hBinds : (q.seq : ℤ) < int64Limit ∧ FitsColumns header records
        · rcases settleFile_accepted hComeQ hQ hRest hRead hBinds.1 hBinds.2 with
            ⟨hFails, hFile⟩ | ⟨hFails, q', hFile, hSeq', hFaults', hMatches'⟩
          · rw [hFile, if_pos hFails]
            refine iff_of_true (hQ.blocked _) (Or.inr ⟨hBinds.1, hBinds.2, fun h => ?_⟩)
            rw [hFails] at h
            cases h
          · rw [if_neg (by rw [hFails]; exact Bool.false_ne_true),
              hTail hFile hSeq' hFaults' hMatches']
            constructor
            · exact fun h => Or.inr ⟨hBinds.1, hBinds.2, fun _ => h⟩
            · rintro (hFirst | ⟨_, _, h⟩)
              · unfold Answers.fails failsWithin at hFails
                rw [hFirst] at hFails
                cases hFails
              · exact h hFails
        · rw [settleFile_unfit hRest hRead hBinds]
          split_ifs with hFirst hFails hFails
          · exact iff_of_true (hQ.blocked _) (Or.inl hFirst)
          · exfalso
            apply hFails
            unfold Answers.fails failsWithin
            rw [hFirst, Bool.true_or]
          · refine iff_of_false (not_keepsTo_raised (Or.inr rfl) _) ?_
            rintro (h | h)
            · exact hFirst h
            · exact hBinds ⟨h.1, h.2.1⟩
          · refine iff_of_false (not_keepsTo_raised (Or.inr rfl) _) ?_
            rintro (h | h)
            · exact hFirst h
            · exact hBinds ⟨h.1, h.2.1⟩

-- Running Again

/- What a run of the contract came to. -/
def contractResult : Except (ContractStop × ContractResult) ContractResult → ContractResult
  | .ok c => c
  | .error (_, c) => c

/-
  With no failures left a second pass settles nothing after
  one that went through, and nothing below the block after one
  that was blocked.
-/
def PassAgain (host : Host) (dir : Directory) (now : F) : Stage F → Prop
  | .ok p =>
    (progress (passUnder (fun _ => []) host dir now p.ledger)).settled = []
  | .error (.blocked, p) =>
    ∀ b, p.result.blockedAt = some b → ∀ x ∈ (progress
        (passUnder (fun _ => []) host dir now p.ledger)).settled, b ≤ x.seq
  | _ => True

variable (F) in
/- The same of the contract. -/
def ContractAgain (room : ℕ) (dir : Directory) : Except (ContractStop × ContractResult) ContractResult → Prop
  | .ok c =>
    (contractResult (contractSettle F room (fun _ => false) dir c.terminal)).settled = []
  | .error (.blocked, c) =>
    ∀ b, c.blockedAt = some b → ∀ x ∈ (contractResult
        (contractSettle F room (fun _ => false) dir c.terminal)).settled, b ≤ x.1
  | _ => True

omit [PyFloat F] in
theorem Settled.later {more : List Settlement} {seq' : ℕ} {t' : Ledger F} (h : Settled log seq t)
    (h' : Settled (log ++ more) seq' t') : ∀ x ∈ more, seq ≤ x.seq ∧ x.seq < seq' := by
  have hNumbers := h'.numbers
  have hPositive := h.positive
  have hLength : log.length = seq - 1 := by
    have hCount := congrArg List.length h.numbers
    rwa [List.length_map, List.length_range'] at hCount
  have hMore : more.map Settlement.seq = (List.range' 1 (seq' - 1)).drop (seq - 1) := by
    rw [← hNumbers, List.map_append, ← hLength]
    exact (List.drop_left' (List.length_map _)).symm
  intro x hIn
  have hMem := List.mem_map_of_mem (f := Settlement.seq) hIn
  rw [hMore, List.drop_range', List.mem_range'_1] at hMem
  omega

omit [PyFloat F] in
theorem Settled.le {more : List Settlement} {seq' : ℕ} {t' : Ledger F} (h : Settled log seq t)
    (h' : Settled (log ++ more) seq' t') : seq ≤ seq' := by
  have hFirst := congrArg List.length h.numbers
  have hLast := congrArg List.length h'.numbers
  have hPositive := h.positive
  have hPositive' := h'.positive
  simp only [List.length_map, List.length_append, List.length_range'] at hFirst hLast
  omega

theorem passUnder_come (h : Settled log seq t) (answers : Answers) (host : Host) (dir : Directory)
    (now : F) : ∀ x ∈ (progress (passUnder answers host dir now t)).settled, seq ≤ x.seq := by
  unfold passUnder
  dsimp only
  intro x hIn
  obtain ⟨⟨seq', hSettled⟩, _⟩ := journalIngestPass_left h host dir now
      ([] :: answers.script F host.room dir.file (terminalSeq t + 1)
        (pendingFiles (terminalSeq t) (dir.names.getD [])))
  exact (h.later hSettled x hIn).1

theorem pendingFiles_done {terminal later : ℕ} {names : List PyStr} (hLe : terminal ≤ later)
    (hBelow : ∀ f ∈ pendingFiles terminal names, f.1 ≤ later) :
    pendingFiles later names = [] := by
  rw [List.eq_nil_iff_forall_not_mem]
  intro f hIn
  rw [pendingFiles, List.mem_insertionSort, List.mem_filter] at hIn
  have hAbove : later < f.1 := of_decide_eq_true hIn.2
  have hFirst : f ∈ pendingFiles terminal names := by
    rw [pendingFiles, List.mem_insertionSort, List.mem_filter]
    exact ⟨hIn.1, decide_eq_true (by omega)⟩
  have hLast := hBelow f hFirst
  omega

theorem contractRead_stop {room : ℕ} {name : PyStr} {file : ExchangeFile} {stop : ContractStop}
    (h : contractRead F room name seq file = .error stop) :
    stop = .undecodable ∨ stop = .recursion := by
  unfold contractRead at h
  split_ifs at h
  · cases h
    exact Or.inl rfl
  · split at h <;> cases h
    exact Or.inr rfl

/- Where a run of the contract over some files ends. -/
theorem contractLoop_spec (room : ℕ) (fails : ℕ → Bool) (file : PyStr → ExchangeFile)
    {files : List (ℕ × PyStr)} (hAscending : Ascending seq files)
    (hSeq : c.terminal + 1 = seq) : (∃ more, (contractResult
        (contractLoop F room fails file files seq c)).settled = c.settled ++ more ∧ ∀ x ∈ more, seq ≤ x.1) ∧
      match contractLoop F room fails file files seq c with
      | .ok c' => c.terminal ≤ c'.terminal ∧ ∀ f ∈ files, f.1 ≤ c'.terminal
      | .error (.blocked, c') => c'.blockedAt = some (c'.terminal + 1)
      | _ => True := by
  induction files generalizing seq c with
  | nil => exact ⟨⟨[], (List.append_nil _).symm, nofun⟩, le_rfl, nofun⟩
  | cons f rest ih =>
    rcases f with ⟨nxt, name⟩
    rw [contractLoop]
    have hNext : seq ≤ nxt := hAscending.1 _ List.mem_cons_self
    -- the gap, if there is one
    obtain ⟨gap, hGap, hGapFrom⟩ :
        ∃ gap, (contractGap seq nxt c).settled = c.settled ++ gap ∧ ∀ x ∈ gap, seq ≤ x.1 := by
      unfold contractGap
      split_ifs with hLe
      · exact ⟨[], (List.append_nil _).symm, nofun⟩
      · refine ⟨_, rfl, fun x hIn => ?_⟩
        obtain ⟨s, hs, rfl⟩ := List.mem_map.mp hIn
        exact (List.mem_range'_1.mp hs).1
    have hTerminal : (contractGap seq nxt c).terminal + 1 = nxt := by
      unfold contractGap
      split_ifs with hLe
      · omega
      · dsimp only
        omega
    generalize contractGap seq nxt c = c₁ at *
    -- what the rest adds behind the file's own settlement
    have hTail : ∀ {c₂ : ContractResult} {v : Verdict}, c₂.terminal = nxt →
        c₂.settled = c₁.settled ++ [(nxt, v)] → (∃ more, (contractResult
              (contractLoop F room fails file rest (nxt + 1) c₂)).settled =
              c.settled ++ more ∧ ∀ x ∈ more, seq ≤ x.1) ∧
            match contractLoop F room fails file rest (nxt + 1) c₂ with
            | .ok c' => c.terminal ≤ c'.terminal ∧
                ∀ f ∈ (nxt, name) :: rest, f.1 ≤ c'.terminal
            | .error (.blocked, c') => c'.blockedAt = some (c'.terminal + 1)
            | _ => True := by
      intro c₂ v hDone hSettled
      obtain ⟨⟨more, hMore, hFrom⟩, hEnd⟩ := ih (c := c₂) hAscending.tail (by rw [hDone])
      refine ⟨⟨gap ++ (nxt, v) :: more, ?_, ?_⟩, ?_⟩
      · rw [hMore, hSettled, hGap]
        simp only [List.append_assoc, List.singleton_append]
      · intro x hIn
        rcases List.mem_append.mp hIn with hIn | hIn
        · exact hGapFrom x hIn
        · rcases List.mem_cons.mp hIn with rfl | hIn
          · exact hNext
          · have hLater := hFrom x hIn
            omega
      · cases hLoop : contractLoop F room fails file rest (nxt + 1) c₂ with
        | ok c' =>
          rw [hLoop] at hEnd
          obtain ⟨hLe, hBelow⟩ := hEnd
          refine ⟨by omega, fun f hIn => ?_⟩
          rcases List.mem_cons.mp hIn with rfl | hIn
          · omega
          · exact hBelow f hIn
        | error e =>
          rw [hLoop] at hEnd
          rcases e with ⟨stop, c'⟩
          cases stop <;> exact hEnd
    cases hRead : contractRead F room name nxt (file name) with
    | error stop =>
      refine ⟨⟨gap, hGap, hGapFrom⟩, ?_⟩
      rcases contractRead_stop hRead with rfl | rfl <;> exact True.intro
    | ok answer =>
      cases answer with
      | error code => exact hTail rfl rfl
      | ok accepted =>
        dsimp only
        split_ifs with hFails
        · exact ⟨⟨gap, hGap, hGapFrom⟩, by dsimp only; rw [hTerminal]⟩
        · exact hTail rfl rfl

theorem contractSettle_again (room : ℕ) (fails : ℕ → Bool) (dir : Directory)
    (terminal : ℕ) : ContractAgain F room dir (contractSettle F room fails dir terminal) := by
  unfold contractSettle
  cases hNames : dir.names with
  | none => exact True.intro
  | some names =>
    dsimp only
    have hSpec := contractLoop_spec (F := F) room fails dir.file (c := { terminal := terminal })
      (pendingFiles_ascending terminal names) rfl
    cases hLoop : contractLoop F room fails dir.file (pendingFiles terminal names) (terminal + 1)
        { terminal := terminal } with
    | ok c =>
      rw [hLoop] at hSpec
      change (contractResult (contractSettle F room _ dir c.terminal)).settled = []
      unfold contractSettle
      rw [hNames]
      dsimp only
      rw [pendingFiles_done hSpec.2.1 hSpec.2.2]
      rfl
    | error e =>
      rw [hLoop] at hSpec
      rcases e with ⟨stop, c⟩
      cases stop with
      | blocked =>
        intro b hBlock x hIn
        have hAt : c.blockedAt = some (c.terminal + 1) := hSpec.2
        rw [hAt] at hBlock
        cases hBlock
        unfold contractSettle at hIn
        rw [hNames] at hIn
        dsimp only at hIn
        obtain ⟨⟨more, hMore, hFrom⟩, _⟩ := contractLoop_spec (F := F) room (fun _ => false) dir.file
            (c := { terminal := c.terminal })
            (pendingFiles_ascending c.terminal names) rfl
        rw [hMore, List.nil_append] at hIn
        exact hFrom x hIn
      | undecodable => exact True.intro
      | recursion => exact True.intro
      | unreadable => exact True.intro

/- The pass of a ledger that was left by earlier ones. -/
theorem passUnder_eq (h : Settled log seq t) (answers : Answers) (host : Host) (dir : Directory) (now : F) :
    passUnder answers host dir now t =
      match dir.names with
      | none =>
        .error (.raised .exchangeUnreadable, ⟨t, 0, {}, answers.script F host.room dir.file seq
            (pendingFiles (seq - 1) []), []⟩)
      | some names =>
        passLoop host now dir.file (pendingFiles (seq - 1) names)
          ⟨t, seq, {}, answers.script F host.room dir.file seq (pendingFiles (seq - 1) names), []⟩ := by
  have hTerminal := terminalSeq_settled h
  have hPositive := h.positive
  obtain ⟨st, hState, _⟩ := h.state
  have hRow : st.terminalSeq.toNat = seq - 1 := by
    unfold terminalSeq at hTerminal
    rw [hState] at hTerminal
    exact hTerminal
  have hNext : seq - 1 + 1 = seq := by omega
  unfold passUnder journalIngestPass
  dsimp only
  rw [hTerminal, hNext, hState]
  simp only [List.headD_cons, List.headD_nil, Bool.false_eq_true, if_false, List.tail_cons]
  rw [hRow, hNext]
  cases dir.names <;> rfl

theorem matches_start (h : Settled log seq t) (faults : List (List Bool))
    (n : ℕ) : Matches now t ⟨t, n, {}, faults, []⟩ { terminal := seq - 1 } :=
  ⟨rfl, rfl, (List.append_nil _).symm, terminalSeq_settled h⟩

theorem passUnder_again (h : Settled log seq t) (answers : Answers) (host : Host) (dir : Directory)
    (now later : F) : PassAgain host dir later (passUnder answers host dir now t) := by
  have hLeft := journalIngestPass_left h host dir now
    ([] :: answers.script F host.room dir.file (terminalSeq t + 1)
      (pendingFiles (terminalSeq t) (dir.names.getD [])))
  have hPositive := h.positive
  have hPass := passUnder_eq h answers host dir now
  cases hNames : dir.names with
  | none =>
    rw [hNames] at hPass
    rw [hPass]
    exact True.intro
  | some names =>
    rw [hNames] at hPass
    dsimp only at hPass
    have hFirst : Come log t ⟨t, seq, {}, answers.script F host.room dir.file seq
          (pendingFiles (seq - 1) names), []⟩ :=
      h.start _
    have hAscending := pendingFiles_ascending (seq - 1) names
    rw [show seq - 1 + 1 = seq by omega] at hAscending
    have hSound := passLoop_sound host now dir.file (pendingFiles (seq - 1) names) hFirst
    rw [hPass]
    cases hLoop : passLoop host now dir.file (pendingFiles (seq - 1) names)
        ⟨t, seq, {}, answers.script F host.room dir.file seq (pendingFiles (seq - 1) names), []⟩ with
    | ok p =>
      rw [hLoop] at hSound
      have hCome : Come log t p := hSound
      obtain ⟨_, _, hAll⟩ := passLoop_ok hAscending hLoop
      have hDone : pendingFiles (p.seq - 1) names = [] := by
        refine pendingFiles_done (show seq - 1 ≤ p.seq - 1 from ?_) ?_
        · have hLe := h.le hCome.settled
          omega
        · intro f hIn
          obtain ⟨x, hx, hSeq, _⟩ := hAll f hIn
          have hLater := h.later hCome.settled x hx
          omega
      change (progress (passUnder _ host dir later p.ledger)).settled = []
      rw [passUnder_eq hCome.settled, hNames]
      dsimp only
      rw [hDone]
      rfl
    | error e =>
      rw [hLoop] at hSound
      have hCome : Come log t e.2 := hSound
      rcases e with ⟨stop, p⟩
      cases stop with
      | raised e => exact True.intro
      | blocked =>
        intro b hBlock x hIn
        have hMarked := passLoop_marked host now dir.file (pendingFiles (seq - 1) names)
          (p := ⟨t, seq, {}, answers.script F host.room dir.file seq (pendingFiles (seq - 1) names), []⟩)
          rfl
        rw [hLoop] at hMarked
        have hAt : p.result.blockedAt = some p.seq := hMarked
        rw [hAt] at hBlock
        cases hBlock
        exact passUnder_come hCome.settled (fun _ => []) host dir later x hIn

theorem passUnder_keeps_iff (h : Settled log seq t) (answers : Answers) (host : Host) (dir : Directory)
    (now : F) : KeepsTo now t (passUnder answers host dir now t)
        (contractSettle F host.room answers.fails dir (seq - 1)) ↔
      ∀ names, dir.names = some names → Storable F host answers dir.file seq
          (pendingFiles (seq - 1) names) := by
  have hPositive := h.positive
  have hNext : seq - 1 + 1 = seq := by omega
  rw [passUnder_eq h answers host dir now]
  unfold contractSettle
  cases dir.names with
  | none => exact iff_of_true (matches_start h _ _) nofun
  | some names =>
    have hAscending := pendingFiles_ascending (seq - 1) names
    rw [hNext] at hAscending
    dsimp only
    rw [hNext]
    refine (passLoop_keeps_iff (h.start _) hAscending rfl (matches_start h _ _)).trans ?_
    exact ⟨fun hStorable names' hNames => by
      cases hNames
      exact hStorable, fun hAll => hAll names rfl⟩

end Stages

-- Exactly the Storable Directories

/-
  After any run, a pass in which the applies of some numbers
  fail keeps to the contract whose apply function fails at the
  same numbers if and only if the directory is storable; and
  of both, a run without failures settles again only what was
  blocked.
-/
theorem pass_keeps_contract_iff (created now later : F)
    (inputs : List (Input F)) (host : Host) (dir : Directory)
    (answers : Answers) :
    let ledger := (finalState step (freshStore created) inputs).ledger
    (KeepsTo now ledger (passUnder answers host dir now ledger)
        (contractSettle F host.room answers.fails dir (terminalSeq ledger)) ↔
      ∀ names, dir.names = some names → Storable F host answers dir.file (terminalSeq ledger + 1)
          (pendingFiles (terminalSeq ledger) names)) ∧
      PassAgain host dir later (passUnder answers host dir now ledger) ∧
      ContractAgain F host.room dir (contractSettle F host.room answers.fails dir (terminalSeq ledger)) := by
  intro ledger
  rcases run_settled created inputs with ⟨seq, hSettled⟩
  change Settled _ seq ledger at hSettled
  have hPositive := hSettled.positive
  have hTerminal := terminalSeq_settled hSettled
  have hNext : seq - 1 + 1 = seq := by omega
  refine ⟨?_, passUnder_again hSettled answers host dir now later, contractSettle_again _ _ _ _⟩
  rw [hTerminal, hNext]
  exact passUnder_keeps_iff hSettled answers host dir now

/-
  One empty file with a far number: the contract counts the
  gap, and the pass over a fresh database needs a list that no
  memory holds.
-/
theorem far_file_differs : ¬ KeepsTo (⟨0⟩ : Grid 1) (freshLedger ⟨0⟩)
      (passUnder (fun _ => []) ⟨1000, 2 ^ 60⟩ ⟨some [pyStr "ev-9000000000000000000.jsonl"],
          fun _ => .regular 0 (some [])⟩ ⟨0⟩ (freshLedger ⟨0⟩))
      (contractSettle (Grid 1) 1000 (fun _ => false) ⟨some [pyStr "ev-9000000000000000000.jsonl"],
          fun _ => .regular 0 (some [])⟩ 0) := by
  have hFiles : pendingFiles 0 [pyStr "ev-9000000000000000000.jsonl"] =
        [(9000000000000000000, pyStr "ev-9000000000000000000.jsonl")] := by
    decide
  have hPass : passUnder (fun _ => []) ⟨1000, 2 ^ 60⟩
          ⟨some [pyStr "ev-9000000000000000000.jsonl"], fun _ => .regular 0 (some [])⟩
          (⟨0⟩ : Grid 1) (freshLedger ⟨0⟩) =
        .error (.raised .memory, ⟨freshLedger ⟨0⟩, 1, {}, [[], []], []⟩) := by
    change passLoop _ _ _ (pendingFiles 0 _) ⟨_, _, _, Answers.script _ _ _ _ _ (pendingFiles 0 _), _⟩ = _
    rw [hFiles]
    rfl
  rw [hPass]
  exact not_keepsTo_raised (Or.inl rfl) _

end SingboxOps.JournalIngest
