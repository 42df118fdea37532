import SingboxOps.AuditTrail.Model

/-
  One audit record for each attempt.

  An attempt that is not recorded yet has a journal.  The
  invariant leaves out the attempt a run has just dispatched,
  until it has its journal or its record.
-/

namespace SingboxOps.AuditTrail

-- The Law

/- The attempt's journal is there for reconciliation. -/
def Trail.Holds (t : Trail) (a : Attempt) : Prop :=
  a.nonce = none ∧ t.journals.get a.requestId = some a.generation

/-
  Every complete line is an object, no two attempts share an
  audit id, none has two records, and one whose journal is gone
  has a durable record.
-/
structure Law (t : Trail) : Prop where
  objects : ∀ line ∈ t.file.lines, isObject line = true
  distinct : (t.attempts.map Attempt.auditId).Nodup
  atMostOne : ∀ a ∈ t.attempts, (t.file.records a.auditId).length ≤ 1
  cleared : ∀ a ∈ t.attempts, t.file.Recorded a.auditId ∨ t.Holds a

/- Every attempt has exactly one record, and it is durable. -/
def Complete (t : Trail) : Prop := ∀ a ∈ t.attempts,
    (t.file.records a.auditId).length = 1 ∧ t.file.Recorded a.auditId

-- The Condition

/- The append leaves nothing that is not durable. -/
def Append.Clean : Append → Prop
  | durable => True
  | nothing => True
  | _ => False

def Append.isShort : Append → Bool
  | short _ => true
  | _ => false

/- The ids are those of an attempt, whose journal none replaced. -/
def Trail.Known (t : Trail) (requestId : PyStr) (generation : ℕ) : Prop :=
  ⟨requestId, generation, none⟩ ∈ t.attempts ∧ ∀ g, t.journals.get requestId = some g → g = generation

def Earlier.Fit (t : Trail) : Earlier → Prop
  | .none => True
  | .finalize requestId generation how _ => t.Known requestId generation ∧ how.Clean
  | .journal requestId generation => t.Known requestId generation

/-
  Neither the audit id nor the journal of the run is another
  attempt's, and no raw request id has had it in it.  A run
  with a journal is not cut before it has written it; another
  is not cut and has a durable append.
-/
def Run.Fit (t : Trail) (r : Run) (cut : Option ℕ) : Prop := r.attempt ∉ t.attempts ∧
    (∀ line ∈ t.file.lines, quotes r.attempt.auditId line = false) ∧
    t.journals.get r.attempt.requestId = none ∧
    match r.course with
    | .journalled => r.attempt.nonce = none ∧ r.how.Clean ∧ cut ≠ some 0
    | .plain earlier => earlier.Fit t ∧ r.how = .durable ∧ cut = none

def Fit (t : Trail) : Input → Prop
  | .worker r cut => r.Fit t cut
  | .connection _ _ within how => how.isShort = false ∧
    ∀ a ∈ t.attempts, a.auditId ∈ within → t.file.Recorded a.auditId
  | .reconcile repairs _ => ∀ requestId, (repairs requestId).how.Clean
  | .powerLoss _ torn => torn = []

-- Files of Whole Records

namespace AuditFile

variable {f : AuditFile} {id other : AuditId}

@[simp] theorem bears_record (id other : AuditId) (within : List AuditId) :
    bears id (record other within) = decide (other = id) := by
  simp [bears, record]

@[simp] theorem quotes_record (id other : AuditId) (within : List AuditId) :
    quotes id (record other within) = decide (id ∈ within) := by
  simp [quotes, record]

theorem records_eq_nil (h : f.has id = false) : f.records id = [] := by
  apply List.filter_eq_nil_iff.mpr
  intro line hLine hBears
  refine Bool.eq_false_iff.mp h (List.any_eq_true.mpr ⟨line, hLine, ?_⟩)
  exact Bool.or_eq_true_iff.mpr (.inl hBears)

theorem records_of_lines {g : AuditFile} {within : List AuditId}
    (h : g.lines = f.lines ++ [record other within]) (id : AuditId) :
    g.records id = f.records id ++ if other = id then [record other within] else [] := by
  unfold records
  rw [h, List.filter_append]
  by_cases hSame : other = id
  · rw [if_pos hSame, List.filter_cons_of_pos]
    · rfl
    · rw [bears_record]
      exact decide_eq_true hSame
  · rw [if_neg hSame, List.filter_cons_of_neg]
    · rfl
    · rw [bears_record]
      exact fun hBears => hSame (of_decide_eq_true hBears)

theorem lines_append_durable (hTorn : f.torn = []) (id : AuditId) (within : List AuditId) :
    (f.append id within .durable).lines = f.lines ++ [record id within] := by
  simp [append, lines, hTorn]

theorem lines_append_unsynced (hTorn : f.torn = []) (id : AuditId) (within : List AuditId) :
    (f.append id within .unsynced).lines = f.lines ++ [record id within] := by
  simp [append, lines, hTorn]

theorem recorded_append (h : f.Recorded other) (id : AuditId) (within : List AuditId)
    (how : Append) : (f.append id within how).Recorded other := by
  rcases h with ⟨line, hLine, hBears⟩
  refine ⟨line, ?_, hBears⟩
  cases how with
  | durable => exact List.mem_append_left _ (List.mem_append_left _ hLine)
  | unsynced => exact hLine
  | nothing => exact hLine
  | short named => exact hLine

theorem recorded_append_self (hTorn : f.torn = []) (id : AuditId) (within : List AuditId) :
    (f.append id within .durable).Recorded id := by
  refine ⟨record id within, ?_, ?_⟩
  · simp [append, hTorn]
  · rw [bears_record]
    exact decide_eq_true rfl

end AuditFile

-- The Invariant

/-
  The attempt `due` has neither a journal nor a record yet.
  Only records of connections wait for a barrier.
-/
structure Inv (due : Option Attempt) (t : Trail) : Prop where
  torn : t.file.torn = []
  single : ∀ line ∈ t.file.lines, ∃ id within, line = record id within
  waiting : ∀ line ∈ t.file.unsynced, ∃ pid seq within, line = record (.conn pid seq) within
  once : ∀ a : Attempt, (t.file.records a.auditId).length ≤ 1
  quoted : ∀ line ∈ t.file.lines, ∀ a ∈ t.attempts, quotes a.auditId line = true → t.file.Recorded a.auditId
  distinct : t.attempts.Nodup
  journals : ∀ requestId generation,
      t.journals.get requestId = some generation → ⟨requestId, generation, none⟩ ∈ t.attempts
  settled : ∀ a ∈ t.attempts, due ≠ some a → t.file.Recorded a.auditId ∨ t.Holds a

theorem auditId_injective : Function.Injective Attempt.auditId := by
  rintro ⟨_, _, _⟩ ⟨_, _, _⟩ h
  cases h
  rfl

variable {t : Trail} {due : Option Attempt} {a : Attempt}

namespace Inv

theorem start : Inv none Trail.start where
  torn := rfl
  single _ h := (List.not_mem_nil h).elim
  waiting _ h := (List.not_mem_nil h).elim
  once _ := Nat.zero_le 1
  quoted _ h := (List.not_mem_nil h).elim
  distinct := List.nodup_nil
  journals _ _ h := (Option.some_ne_none _ h.symm).elim
  settled _ h := (List.not_mem_nil h).elim

theorem law (h : Inv none t) : Law t where
  objects line hLine := by
    rcases h.single line hLine with ⟨id, within, rfl⟩
    rfl
  distinct := h.distinct.map auditId_injective
  atMostOne a _ := h.once a
  cleared a ha := h.settled a ha (fun hDue => nomatch hDue)

theorem recorded_of_has (h : Inv due t) (ha : a ∈ t.attempts)
    (hHas : t.file.has a.auditId = true) : t.file.Recorded a.auditId := by
  rcases List.any_eq_true.mp hHas with ⟨line, hLine, hNames⟩
  rcases Bool.or_eq_true_iff.mp hNames with hBears | hQuotes
  · rcases List.mem_append.mp hLine with hSynced | hWaiting
    · exact ⟨line, hSynced, hBears⟩
    · rcases h.waiting line hWaiting with ⟨pid, seq, within, rfl⟩
      rw [AuditFile.bears_record] at hBears
      exact AuditId.noConfusion (of_decide_eq_true hBears)
  · exact h.quoted line hLine a ha hQuotes

theorem settle (h : Inv (some a) t) (hSettled : t.file.Recorded a.auditId ∨ t.Holds a) : Inv none t :=
  { h with
    settled := by
      intro b hb _
      by_cases hSame : a = b
      · rw [← hSame]
        exact hSettled
      · exact h.settled b hb (fun hDue => hSame (Option.some.inj hDue)) }

theorem dispatch (h : Inv none t) (hFresh : a ∉ t.attempts)
    (hUnquoted : ∀ line ∈ t.file.lines, quotes a.auditId line = false) :
    Inv (some a) (t.dispatch a) where
  torn := h.torn
  single := h.single
  waiting := h.waiting
  once := h.once
  quoted line hLine b hb hQuotes := by
    rcases List.mem_cons.mp hb with hNew | hOld
    · rw [hNew, hUnquoted line hLine] at hQuotes
      exact Bool.noConfusion hQuotes
    · exact h.quoted line hLine b hOld hQuotes
  distinct := List.nodup_cons.mpr ⟨hFresh, h.distinct⟩
  journals requestId generation hGet := List.mem_cons_of_mem _ (h.journals requestId generation hGet)
  settled b hb hDue := by
    rcases List.mem_cons.mp hb with hNew | hOld
    · exact (hDue (congrArg some hNew.symm)).elim
    · exact h.settled b hOld (fun hNone => nomatch hNone)

theorem append_own (h : Inv due t)
    (hNone : t.file.has a.auditId = false) : Inv due (t.append a.auditId [] .durable) where
  torn := rfl
  single line hLine := by
    have hLines := AuditFile.lines_append_durable h.torn a.auditId []
    have hMem : line ∈ t.file.lines ++ [record a.auditId []] := hLines ▸ hLine
    rcases List.mem_append.mp hMem with hOld | hNew
    · exact h.single line hOld
    · exact ⟨a.auditId, [], List.mem_singleton.mp hNew⟩
  waiting _ hLine := (List.not_mem_nil hLine).elim
  once b := by
    have hRecords := AuditFile.records_of_lines (AuditFile.lines_append_durable h.torn a.auditId []) b.auditId
    change ((t.file.append a.auditId [] .durable).records b.auditId).length ≤ 1
    rw [hRecords]
    by_cases hSame : a.auditId = b.auditId
    · rw [if_pos hSame, ← hSame, AuditFile.records_eq_nil hNone]
      exact Nat.le_refl 1
    · rw [if_neg hSame, List.append_nil]
      exact h.once b
  quoted line hLine b hb hQuotes := by
    have hLines := AuditFile.lines_append_durable h.torn a.auditId []
    have hMem : line ∈ t.file.lines ++ [record a.auditId []] := hLines ▸ hLine
    rcases List.mem_append.mp hMem with hOld | hNew
    · exact AuditFile.recorded_append (h.quoted line hOld b hb hQuotes) _ _ _
    · rw [List.mem_singleton.mp hNew, AuditFile.quotes_record] at hQuotes
      exact (List.not_mem_nil (of_decide_eq_true hQuotes)).elim
  distinct := h.distinct
  journals := h.journals
  settled b hb hDue := (h.settled b hb hDue).imp_left (fun hRec => AuditFile.recorded_append hRec _ _ _)

theorem connection (h : Inv due t) (pid seq : ℕ) {within : List AuditId} {how : Append}
    (hWhole : how.isShort = false)
    (hWithin : ∀ b ∈ t.attempts, b.auditId ∈ within → t.file.Recorded b.auditId) :
    Inv due (t.append (.conn pid seq) within how) := by
  have hKept : ∀ b : Attempt, t.file.Recorded b.auditId →
      (t.file.append (.conn pid seq) within how).Recorded b.auditId :=
    fun b hRec => AuditFile.recorded_append hRec _ _ _
  have hGrow : ∀ g : AuditFile, g.lines = t.file.lines ++ [record (.conn pid seq) within] →
        (∀ line ∈ g.lines, ∃ id within, line = record id within) ∧
          (∀ b : Attempt, (g.records b.auditId).length ≤ 1) ∧
          ∀ line ∈ g.lines, ∀ b ∈ t.attempts, quotes b.auditId line = true →
            (t.file.append (.conn pid seq) within how).Recorded b.auditId := by
    intro g hLines
    refine ⟨?_, ?_, ?_⟩
    · intro line hLine
      rw [hLines] at hLine
      rcases List.mem_append.mp hLine with hOld | hNew
      · exact h.single line hOld
      · exact ⟨_, _, List.mem_singleton.mp hNew⟩
    · intro b
      rw [AuditFile.records_of_lines hLines, if_neg (fun hSame => nomatch hSame), List.append_nil]
      exact h.once b
    · intro line hLine b hb hQuotes
      rw [hLines] at hLine
      rcases List.mem_append.mp hLine with hOld | hNew
      · exact hKept b (h.quoted line hOld b hb hQuotes)
      · rw [List.mem_singleton.mp hNew, AuditFile.quotes_record] at hQuotes
        exact hKept b (hWithin b hb (of_decide_eq_true hQuotes))
  have hSettled : ∀ b ∈ t.attempts, due ≠ some b →
        (t.file.append (.conn pid seq) within how).Recorded b.auditId ∨ t.Holds b :=
    fun b hb hDue => (h.settled b hb hDue).imp_left (hKept b)
  cases how with
  | durable =>
    rcases hGrow _ (AuditFile.lines_append_durable h.torn _ _) with ⟨hSingle, hOnce, hQuoted⟩
    exact ⟨rfl, hSingle, fun _ hLine => (List.not_mem_nil hLine).elim, hOnce,
      hQuoted, h.distinct, h.journals, hSettled⟩
  | unsynced =>
    rcases hGrow _ (AuditFile.lines_append_unsynced h.torn _ _) with ⟨hSingle, hOnce, hQuoted⟩
    refine ⟨rfl, hSingle, ?_, hOnce, hQuoted, h.distinct, h.journals, hSettled⟩
    intro line hLine
    rcases List.mem_append.mp hLine with hOld | hNew
    · exact h.waiting line hOld
    · refine ⟨pid, seq, within, ?_⟩
      rw [List.mem_singleton.mp hNew, h.torn]
      rfl
  | nothing => exact h
  | short named => exact Bool.noConfusion hWhole

theorem losePower (h : Inv due t) (kept : ℕ) : Inv due { t with file := t.file.losePower kept [] } := by
  have hLines : (t.file.losePower kept []).lines.Sublist t.file.lines :=
    (List.Sublist.refl _).append (List.take_sublist kept _)
  exact
    { torn := rfl
      single := fun line hLine => h.single line (hLines.subset hLine)
      waiting := fun line hLine => h.waiting line (List.mem_of_mem_take hLine)
      once := fun b => Nat.le_trans (hLines.filter _).length_le (h.once b)
      quoted := fun line hLine => h.quoted line (hLines.subset hLine)
      distinct := h.distinct
      journals := h.journals
      settled := h.settled }

theorem setJournal (h : Inv due t)
    {requestId : PyStr} {generation : ℕ} (hMem : ⟨requestId, generation, none⟩ ∈ t.attempts)
    (hSame : ∀ g, t.journals.get requestId = some g → g = generation) :
    Inv due (t.setJournal requestId generation) :=
  { h with
    journals := by
      intro other g hGet
      change (t.journals.set requestId generation).get other = some g at hGet
      rw [Dict.get_set] at hGet
      split at hGet
      · rename_i hKey
        rw [← hKey, ← Option.some.inj hGet]
        exact hMem
      · exact h.journals other g hGet
    settled := by
      intro b hb hDue
      refine (h.settled b hb hDue).imp_right ?_
      rintro ⟨hNonce, hGet⟩
      refine ⟨hNonce, ?_⟩
      change (t.journals.set requestId generation).get
        b.requestId = some b.generation
      rw [Dict.get_set]
      split
      · rename_i hKey
        rw [← hKey] at hGet
        rw [hSame b.generation hGet]
      · exact hGet }

theorem clearJournal (h : Inv due t) {requestId : PyStr} (hRecorded :
      ∀ g, t.journals.get requestId = some g → t.file.Recorded (.worker requestId g none)) :
    Inv due (t.clearJournal requestId) :=
  { h with
    journals := by
      intro other g hGet
      change (t.journals.pop requestId).get other = some g at hGet
      rw [Dict.get_pop] at hGet
      split at hGet
      · exact (Option.some_ne_none g hGet.symm).elim
      · exact h.journals other g hGet
    settled := by
      intro b hb hDue
      rcases h.settled b hb hDue with hRec | ⟨hNonce, hGet⟩
      · exact .inl hRec
      · by_cases hKey : requestId = b.requestId
        · rw [← hKey] at hGet
          have hRec := hRecorded b.generation hGet
          rw [hKey, ← hNonce] at hRec
          exact .inl hRec
        · refine .inr ⟨hNonce, ?_⟩
          change (t.journals.pop requestId).get b.requestId = some b.generation
          rw [Dict.get_pop, if_neg hKey]
          exact hGet }

end Inv

-- The Operations

/- The same attempts, and no durable record is lost. -/
structure Later (t t' : Trail) : Prop where
  attempts : t'.attempts = t.attempts
  recorded : ∀ id, t.file.Recorded id → t'.file.Recorded id

namespace Later

theorem refl (t : Trail) : Later t t := ⟨rfl, fun _ h => h⟩

theorem trans {t t' t'' : Trail} (hFirst : Later t t') (hSecond : Later t' t'') : Later t t'' :=
  ⟨hSecond.attempts.trans hFirst.attempts, fun id h => hSecond.recorded id (hFirst.recorded id h)⟩

end Later

/- An audit of an attempt, at the end. -/
structure AuditPost (due : Option Attempt) (a : Attempt) (how : Append) (t : Trail)
    (result : Except Empty Bool)
    (t' : Trail) : Prop where
  inv : Inv due t'
  later : Later t t'
  journals : t'.journals = t.journals
  present : result = .ok true → t'.file.Recorded a.auditId
  durable : how = .durable → t'.file.Recorded a.auditId

theorem wAudit_spec (h : Inv due t) (ha : a ∈ t.attempts) {how : Append}
    (hClean : how.Clean) : Triple (Inv due) t (wAudit a.auditId how) (AuditPost due a how t) := by
  apply Triple.get
  cases hHas : t.file.has a.auditId with
  | true =>
    rw [if_pos rfl]
    have hRec := h.recorded_of_has ha hHas
    exact Triple.pure ⟨h, Later.refl t, rfl, fun _ => hRec, fun _ => hRec⟩
  | false =>
    rw [if_neg Bool.false_ne_true]
    cases how with
    | durable =>
      have hInv := h.append_own hHas
      have hRec : (t.append a.auditId [] .durable).file.Recorded a.auditId :=
        AuditFile.recorded_append_self h.torn a.auditId []
      refine Triple.change_bind hInv (Triple.pure ?_)
      exact ⟨hInv, ⟨rfl, fun _ hOld => AuditFile.recorded_append hOld _ _ _⟩,
        rfl, fun _ => hRec, fun _ => hRec⟩
    | nothing =>
      refine Triple.change_bind h (Triple.pure ?_)
      exact ⟨h, Later.refl t, rfl, fun hTrue => Bool.noConfusion (Except.ok.inj hTrue),
        fun hDurable => Append.noConfusion hDurable⟩
    | unsynced => exact hClean.elim
    | short named => exact hClean.elim

/- The journal under a request id may go once `a` is recorded. -/
def Clearable (t : Trail) (a : Attempt) : Prop := ∀ g, t.journals.get a.requestId = some g →
    a = ⟨a.requestId, g, none⟩ ∨ t.file.Recorded (.worker a.requestId g none)

/- An audit and the removal of a journal, at the end. -/
structure ClearPost (due : Option Attempt) (a : Attempt) (how : Append) (t t' : Trail) : Prop where
  inv : Inv due t'
  later : Later t t'
  durable : how = .durable → t'.file.Recorded a.auditId

theorem journalClear_spec (h : Inv due t) {requestId : PyStr} (hRecorded :
      ∀ g, t.journals.get requestId = some g → t.file.Recorded (.worker requestId g none))
    (removed : Bool) : Triple (Inv due) t (journalClear requestId removed)
      (fun _ t' => Inv due t' ∧ t'.attempts = t.attempts ∧ t'.file = t.file) := by
  cases removed with
  | true =>
    have hInv := h.clearJournal hRecorded
    exact Triple.change hInv ⟨hInv, rfl, rfl⟩
  | false => exact Triple.pure ⟨h, rfl, rfl⟩

theorem auditThenClear_spec (h : Inv due t)
    (ha : a ∈ t.attempts) {how : Append} (hClean : how.Clean) (hClearable : Clearable t a)
    (clear removed : Bool) : Triple (Inv due) t (auditThenClear a.auditId a.requestId how clear removed)
      (fun _ => ClearPost due a how t) := by
  refine Triple.bind (wAudit_spec h ha hClean) ?_ (fun e => nomatch e)
  intro present t' hPost
  cases hClear : present && clear with
  | false =>
    rw [if_neg Bool.false_ne_true]
    exact Triple.pure ⟨hPost.inv, hPost.later, hPost.durable⟩
  | true =>
    rw [if_pos rfl]
    have hPresent : present = true := (Bool.and_eq_true _ _ ▸ hClear).1
    have hRec := hPost.present (congrArg Except.ok hPresent)
    -- the journal is the attempt's own or of one recorded before
    have hRecorded : ∀ g, t'.journals.get a.requestId = some g →
          t'.file.Recorded (.worker a.requestId g none) := by
      intro g hGet
      rw [hPost.journals] at hGet
      rcases hClearable g hGet with hOwn | hOther
      · rw [hOwn] at hRec
        exact hRec
      · exact hPost.later.recorded _ hOther
    refine (journalClear_spec hPost.inv hRecorded removed).mono (fun _ hc => hc) ?_
    rintro _ t'' ⟨hInv, hAttempts, hFile⟩
    refine ⟨hInv, ⟨?_, ?_⟩, ?_⟩
    · rw [hAttempts]
      exact hPost.later.attempts
    · intro id hOld
      rw [hFile]
      exact hPost.later.recorded id hOld
    · intro hDurable
      rw [hFile]
      exact hPost.durable hDurable

theorem clearable_of_known {requestId : PyStr} {generation : ℕ}
    (h : t.Known requestId generation) : Clearable t ⟨requestId, generation, none⟩ := by
  intro g hGet
  rw [h.2 g hGet]
  exact .inl rfl

theorem settleEarlier_spec (h : Inv due t) {earlier : Earlier}
    (hFit : earlier.Fit t) : Triple (Inv due) t (settleEarlier earlier)
      (fun _ t' => Inv due t' ∧ Later t t') := by
  cases earlier with
  | none => exact Triple.pure ⟨h, Later.refl t⟩
  | finalize requestId generation how removed =>
    exact (auditThenClear_spec h hFit.1.1 hFit.2 (clearable_of_known hFit.1) true removed).mono
      (fun _ hc => hc) (fun _ _ hPost => ⟨hPost.inv, hPost.later⟩)
  | journal requestId generation =>
    have hInv := h.setJournal hFit.1 hFit.2
    exact Triple.change hInv ⟨hInv, rfl, fun _ hOld => hOld⟩

theorem reconcileJournal_spec (h : Inv none t) (requestId : PyStr) {repair : Repair}
    (hClean : repair.how.Clean) : Triple (Inv none) t (reconcileJournal requestId repair)
      (fun _ t' => Inv none t' ∧ Later t t' ∧ (repair.how = .durable →
          ∀ a ∈ t.attempts, a.requestId = requestId → t'.file.Recorded a.auditId)) := by
  apply Triple.get
  cases hGet : t.journals.get requestId with
  | none =>
    refine Triple.pure ⟨h, Later.refl t, ?_⟩
    rintro - a ha rfl
    rcases h.settled a ha (fun hDue => nomatch hDue) with
      hRec | ⟨-, hHolds⟩
    · exact hRec
    · rw [hGet] at hHolds
      exact (Option.some_ne_none _ hHolds.symm).elim
  | some generation =>
    have hMem := h.journals requestId generation hGet
    have hClearable : Clearable t ⟨requestId, generation, none⟩ := by
      intro g hOther
      rw [hGet] at hOther
      rw [Option.some.inj hOther]
      exact .inl rfl
    refine (auditThenClear_spec h hMem hClean hClearable
      repair.proven repair.removed).mono (fun _ hc => hc) ?_
    intro _ t' hPost
    refine ⟨hPost.inv, hPost.later, ?_⟩
    intro hDurable a ha hId
    rcases h.settled a ha (fun hDue => nomatch hDue) with
      hRec | ⟨hNonce, hHolds⟩
    · exact hPost.later.recorded _ hRec
    · rw [hId, hGet] at hHolds
      have hOwn : a = ⟨requestId, generation, none⟩ := by
        rcases a with ⟨_, _, _⟩
        cases hNonce
        cases hId
        rw [Option.some.inj hHolds]
      rw [hOwn]
      exact hPost.durable hDurable

/- By induction on the journals that were listed. -/
theorem reconcile_spec (h : Inv none t)
    {repairs : PyStr → Repair} (hClean : ∀ requestId, (repairs requestId).how.Clean)
    (requestIds : List PyStr) : Triple (Inv none) t (reconcile repairs requestIds)
      (fun _ t' => Inv none t' ∧ Later t t' ∧ ((∀ requestId, (repairs requestId).how = .durable) →
          ∀ a ∈ t.attempts, a.requestId ∈ requestIds → t'.file.Recorded a.auditId)) := by
  induction requestIds generalizing t with
  | nil =>
    exact Triple.pure ⟨h, Later.refl t, fun _ _ _ hMem => (List.not_mem_nil hMem).elim⟩
  | cons requestId rest ih =>
    refine Triple.bind (reconcileJournal_spec h requestId (hClean requestId)) ?_ (fun e => nomatch e)
    rintro _ t' ⟨hInv, hLater, hFirst⟩
    refine (ih hInv).mono (fun _ hc => hc) ?_
    rintro _ t'' ⟨hInv', hLater', hRest⟩
    refine ⟨hInv', hLater.trans hLater', ?_⟩
    intro hDurable a ha hMem
    rcases List.mem_cons.mp hMem with hHere | hThere
    · exact hLater'.recorded _ (hFirst (hDurable requestId) a ha hHere)
    · have ha' : a ∈ t'.attempts := by
        rw [hLater.attempts]
        exact ha
      exact hRest hDurable a ha' hThere

-- Runs of the Worker

theorem leave_of_triple {x : Step Unit} {J : Trail → Prop} (h : Triple J t x (fun _ t' => J t'))
    (cut : Option ℕ) : J (leave x cut t) := by
  cases cut with
  | none => exact h.post
  | some n =>
    change J (((x.seen t)[n]?).getD (x.final t))
    cases hSeen : (x.seen t)[n]? with
    | none => exact h.post
    | some c => exact h.seen c (List.mem_of_getElem? hSeen)

theorem leave_change {f : Trail → Trail} {x : Unit → Step Unit} {J : Trail → Prop}
    (h : Triple J (f t) (x ()) (fun _ t' => J t'))
    {cut : Option ℕ}
    (hCut : cut ≠ some 0) : J (leave (Op.change f >>= x) cut t) := by
  cases cut with
  | none => exact h.post
  | some n =>
    cases n with
    | zero => exact (hCut rfl).elim
    | succ n => exact leave_of_triple h (some n)

/- A run with a journal, from its dispatch on. -/
theorem journalled_spec (h : Inv none t) {r : Run} (hFresh : r.attempt ∉ t.attempts)
    (hUnquoted : ∀ line ∈ t.file.lines, quotes r.attempt.auditId line = false)
    (hVacant : t.journals.get r.attempt.requestId = none) (hNonce : r.attempt.nonce = none)
    (hClean : r.how.Clean) : Triple (Inv none) (t.dispatch r.attempt) (do
        Op.change (fun t => t.setJournal r.attempt.requestId r.attempt.generation)
        finish r)
      (fun _ => Inv none) := by
  have hOwn : r.attempt = ⟨r.attempt.requestId, r.attempt.generation, none⟩ := by
    rw [← hNonce]
  have hMem : r.attempt ∈ (t.dispatch r.attempt).attempts := List.mem_cons_self
  have hHolds : ((t.dispatch r.attempt).setJournal r.attempt.requestId
        r.attempt.generation).Holds r.attempt := by
    refine ⟨hNonce, ?_⟩
    change (t.journals.set _ _).get _ = _
    rw [Dict.get_set, if_pos rfl]
  have hInv : Inv none ((t.dispatch r.attempt).setJournal r.attempt.requestId r.attempt.generation) := by
    refine ((h.dispatch hFresh hUnquoted).setJournal (by rw [← hOwn]; exact hMem) ?_).settle (.inr hHolds)
    intro g hGet
    exact (Option.some_ne_none g (hGet.symm.trans hVacant)).elim
  refine Triple.change_bind hInv ?_
  have hClearable : Clearable ((t.dispatch r.attempt).setJournal r.attempt.requestId r.attempt.generation)
        r.attempt := by
    intro g hGet
    rw [hHolds.2] at hGet
    rw [← Option.some.inj hGet]
    exact .inl hOwn
  exact (auditThenClear_spec hInv hMem hClean hClearable (!r.keep) r.removed).mono (fun _ hc => hc)
    (fun _ _ hPost => hPost.inv)

/- A run without one, from its dispatch to its end. -/
theorem plain_spec (h : Inv none t) {r : Run} (hFresh : r.attempt ∉ t.attempts)
    (hUnquoted : ∀ line ∈ t.file.lines, quotes r.attempt.auditId line = false)
    (hVacant : t.journals.get r.attempt.requestId = none)
    {earlier : Earlier} (hEarlier : earlier.Fit t)
    (hDurable : r.how = .durable) : Triple (fun _ => True) (t.dispatch r.attempt) (do
        settleEarlier earlier
        finish r)
      (fun _ => Inv none) := by
  have hFit : earlier.Fit (t.dispatch r.attempt) := by
    cases earlier with
    | none => trivial
    | finalize requestId generation how removed =>
      exact ⟨⟨List.mem_cons_of_mem _ hEarlier.1.1, hEarlier.1.2⟩, hEarlier.2⟩
    | journal requestId generation => exact ⟨List.mem_cons_of_mem _ hEarlier.1, hEarlier.2⟩
  refine Triple.bind ((settleEarlier_spec (h.dispatch hFresh hUnquoted) hFit).mono
      (fun _ _ => trivial) (fun _ _ hPost => hPost)) ?_
    (fun e => nomatch e)
  rintro _ t' ⟨hInv, hLater⟩
  -- an earlier attempt under this request id was recorded before
  have hClearable : Clearable t' r.attempt := by
    intro g hGet
    have hMem := hInv.journals _ g hGet
    rw [hLater.attempts] at hMem
    rcases List.mem_cons.mp hMem with hOwn | hOld
    · exact .inl hOwn.symm
    · right
      apply hLater.recorded
      rcases h.settled _ hOld (fun hDue => nomatch hDue) with
        hRec | ⟨-, hHolds⟩
      · exact hRec
      · exact (Option.some_ne_none g (hHolds.symm.trans hVacant)).elim
  have hMem : r.attempt ∈ t'.attempts := by
    rw [hLater.attempts]
    exact List.mem_cons_self
  have hClean : r.how.Clean := by
    rw [hDurable]
    trivial
  exact (auditThenClear_spec hInv hMem hClean hClearable (!r.keep) r.removed).mono (fun _ _ => trivial)
    (fun _ _ hPost => hPost.inv.settle (.inl (hPost.durable hDurable)))

theorem Inv.worker (h : Inv none t) {r : Run} {cut : Option ℕ}
    (hFit : r.Fit t cut) : Inv none (leave (worker r) cut t) := by
  rcases r with ⟨attempt, course, how, keep, removed⟩
  rcases hFit with ⟨hFresh, hUnquoted, hVacant, hCourse⟩
  cases course with
  | journalled =>
    exact leave_change (journalled_spec (r := ⟨attempt, .journalled, how, keep, removed⟩)
        h hFresh hUnquoted hVacant hCourse.1 hCourse.2.1)
      hCourse.2.2
  | plain earlier =>
    have hCut : cut = none := hCourse.2.2
    rw [hCut]
    exact (plain_spec (r := ⟨attempt, .plain earlier, how, keep, removed⟩)
      h hFresh hUnquoted hVacant hCourse.1 hCourse.2.1).post

theorem Inv.step (h : Inv none t) (input : Input) (hFit : Fit t input) : Inv none (step t input).2 := by
  cases input with
  | worker r cut => exact h.worker hFit
  | connection pid seq within how => exact h.connection pid seq hFit.1 hFit.2
  | reconcile repairs cut =>
    exact leave_of_triple ((reconcile_spec h hFit _).mono (fun _ hc => hc) (fun _ _ hPost => hPost.1)) cut
  | powerLoss kept torn =>
    have hTorn : torn = [] := hFit
    rw [hTorn]
    exact h.losePower kept

end SingboxOps.AuditTrail
