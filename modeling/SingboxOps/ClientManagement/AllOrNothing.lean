import SingboxOps.ClientManagement.Commit

/-
  A commit is all or nothing.

  Before the rename the live file is the old configuration;
  the rename finds the evidence a recovery needs; after it a
  commit succeeds, or the backup comes back.  The one exception
  is a reload that finds no service to tell.
-/

namespace SingboxOps.ClientManagement

-- The Law

/- The journal says `replace` and names a backup of the old. -/
def Evidence.Sound (old : Bytes) (e : Evidence) : Prop := ∃ path,
    e.journal = some ⟨.replace, path⟩ ∧ e.backup = some (path, old)

/- The disk before a commit. -/
def TxWorld.start (old : Bytes) (candidate : Option Bytes) (journal : Option JournalRecord)
    (tx : TxState) : TxWorld :=
  ⟨old, candidate, none, none, journal, tx, none, []⟩

/-
  What a crash may find.  The live file is the old one or the
  candidate, and the old one until the rename; when the hook is
  set, the rename found the evidence.
-/
structure Safe (o : CommitOutcomes) (old : Bytes) (candidate : Option Bytes) (c : TxWorld) : Prop where
  live : c.live = old ∨ candidate = some c.live
  before : c.installed = none → c.live = old
  evidence : ∀ e, c.installed = some e → o.hookSet = true → e.Sound old

/-
  The engine is all or nothing: at every crash point, when it
  returns 0 and when it returns 1.
-/
structure AllOrNothing (o : CommitOutcomes) (old : Bytes) (candidate : Option Bytes)
    (s : TxWorld) : Prop where
  crash : ∀ c ∈ (commitServerConfig o).seen s, Safe o old candidate c
  success :
    (commitServerConfig o).answer s = .ok () →
      candidate = some ((commitServerConfig o).final s).live ∧ (o.wasRunning = true →
          ((commitServerConfig o).final s).tx.healthVerified = true ∧
            ((commitServerConfig o).final s).live ∈ ((commitServerConfig o).final s).reloads)
  failure :
    (commitServerConfig o).answer s = .error () → ((commitServerConfig o).final s).live = old ∨
        (((commitServerConfig o).final s).tx.phase = .rollbackManual ∧
          ((commitServerConfig o).final s).tx.rollbackOk = some false)

namespace CommitOutcomes

variable (o : CommitOutcomes)

/- A phase is journalled, or there is no hook to do it. -/
def journals (phase : TxPhase) : Bool := !o.hookSet || decide (o.hook phase = .stored)

/- The candidate passes. -/
def checks (candidate : Option Bytes) : Bool :=
  candidate.isSome && o.problems == some [] && (o.journals .check && o.checkOk)

/- The live file is backed up. -/
def backs : Bool := o.backupPath.isSome && o.backupCopy.ok && o.backupModeOk && o.journals .backup

/- The candidate becomes the live file. -/
def replaces : Bool := o.journals .replace && o.renameOk

/- The service is well after nothing was reloaded. -/
def verifiesNothing : Bool := o.journals .reload && (!o.reload.active && !o.reload.found) &&
    (o.journals .health && reloadHealthOk o.health)

/-
  The service was running and the candidate was installed; the
  reload found neither an active unit nor a process, and told
  nobody; then the service was well.
-/
def Missed (candidate : Option Bytes) : Prop :=
  o.checks candidate = true ∧ o.backs = true ∧ o.replaces = true ∧ o.wasRunning = true ∧
    o.verifiesNothing = true

instance (candidate : Option Bytes) :
    Decidable (o.Missed candidate) := by
  unfold Missed
  infer_instance

end CommitOutcomes

-- Parts of a Step

section Parts

variable {J : TxWorld → Prop} {s : TxWorld} {o : CommitOutcomes}

theorem orReturn_spec {ok : Bool} {cleanup : Tx Unit} {Q : Except Unit Unit → TxWorld → Prop}
    (hOk : ok = true → Q (.ok ()) s)
    (hFailed : ok = false → Triple J s cleanup (fun _ s' => Q (.error ()) s')) :
    Triple J s (orReturn ok cleanup) Q := by
  unfold orReturn
  cases ok with
  | true => exact Triple.pure (hOk rfl)
  | false =>
    refine Triple.bind (hFailed rfl) ?_ ?_
    · intro _ s' hError
      exact Triple.fail hError
    · intro _ s' hError
      exact hError

theorem orReturn_bind {α : Type} {ok : Bool} {cleanup : Tx Unit} {x : Unit → Tx α}
    {Q : Except Unit α → TxWorld → Prop}
    (hOk : ok = true → Triple J s (x ()) Q)
    (hFailed : ok = false → Triple J s cleanup (fun _ s' => Q (.error ()) s')) :
    Triple J s (orReturn ok cleanup >>= x) Q := by
  cases ok with
  | true =>
    refine Triple.bind (Q := fun r s' => r = .ok () ∧ s' = s) (Triple.pure ⟨rfl, rfl⟩) ?_
      (fun _ _ h => nomatch h.1)
    rintro _ _ ⟨-, rfl⟩
    exact hOk rfl
  | false =>
    refine Triple.bind (Q := fun r s' => r = .error () ∧ Q (.error ()) s') ?_ (fun _ _ h => nomatch h.1)
      (fun _ _ h => h.2)
    refine orReturn_spec Bool.noConfusion ?_
    intro _
    exact (hFailed rfl).mono (fun _ h => h) (fun _ _ h => ⟨rfl, h⟩)

theorem cmTxJournalPhase_spec {phase : TxPhase}
    (hJ : ∀ journal, J { s.setPhase phase with journal := journal }) :
    Triple J s (cmTxJournalPhase o phase) (fun r s' =>
      r = .ok (o.journals phase) ∧ ∃ journal, s' = { s.setPhase phase with journal := journal } ∧
            (o.hookSet = true → o.journals phase = true → journal = some ⟨phase, s.tx.backupPath⟩)) := by
  unfold cmTxJournalPhase
  refine Triple.change_bind (hJ s.journal) ?_
  unfold CommitOutcomes.journals
  by_cases hSet : o.hookSet = true
  · rw [if_pos hSet, hSet]
    cases hHook : o.hook phase with
    | stored =>
      refine Triple.change_bind (hJ _) ?_
      exact Triple.pure ⟨rfl, _, rfl, fun _ _ => rfl⟩
    | unsure =>
      refine Triple.change_bind (hJ _) ?_
      exact Triple.pure ⟨rfl, _, rfl, fun _ h => nomatch h⟩
    | lost => exact Triple.pure ⟨rfl, _, rfl, fun _ h => nomatch h⟩
  · rw [if_neg hSet]
    have hUnset : o.hookSet = false := Bool.not_eq_true _ ▸ hSet
    rw [hUnset]
    exact Triple.pure ⟨rfl, _, rfl, fun h => nomatch h⟩

/- A copy leaves its target alone or with something in it. -/
theorem copyTo_spec (write : Bytes → TxWorld → TxWorld) (hWrite : ∀ a b w, write a (write b w) = write a w)
    (hJ : ∀ bytes, J (write bytes s)) (source : Bytes)
    (copy : CopyOutcome) : Triple J s (copyTo write source copy) (fun r s' =>
      r = .ok copy.ok ∧ (s' = s ∨ ∃ bytes, s' = write bytes s) ∧ (copy.ok = true → s' = write source s)) := by
  have hAll : ∀ (partials : List Bytes) (s' : TxWorld), (s' = s ∨ ∃ bytes, s' = write bytes s) →
          Triple J s' (writeAll write partials) (fun r s'' =>
            r = .ok () ∧ (s'' = s ∨ ∃ bytes, s'' = write bytes s)) := by
    intro partials
    induction partials with
    | nil => exact fun s' h => Triple.pure ⟨rfl, h⟩
    | cons bytes rest ih =>
      intro s' h
      have hNext : write bytes s' = write bytes s := by
        rcases h with h | ⟨other, h⟩
        · rw [h]
        · rw [h, hWrite]
      unfold writeAll
      refine Triple.change_bind (hNext ▸ hJ bytes) ?_
      exact ih _ (.inr ⟨bytes, hNext⟩)
  unfold copyTo
  refine Triple.bind (hAll copy.partials s (.inl rfl)) ?_ (fun _ _ h => nomatch h.1)
  rintro _ s' ⟨-, hSame⟩
  have hNext : write source s' = write source s := by
    rcases hSame with h | ⟨other, h⟩
    · rw [h]
    · rw [h, hWrite]
  cases copy.ok with
  | false => exact Triple.pure ⟨rfl, hSame, fun h => nomatch h⟩
  | true =>
    refine Triple.change_bind (hNext ▸ hJ source) ?_
    exact Triple.pure ⟨rfl, .inr ⟨source, hNext⟩, fun _ => hNext⟩

/- A reload tells the service, or finds none. -/
theorem reloadRunningSingbox_spec {reload : ReloadOutcome}
    (hJ : J s.reloaded) : Triple J s (reloadRunningSingbox reload) (fun r s' =>
      ∃ ok, r = .ok ok ∧ (s' = s ∨ s' = s.reloaded) ∧ (ok = true →
          s' = if reload.active || reload.found then s.reloaded
            else s) ∧
        (ok = false → (reload.active || reload.found) = true)) := by
  have hTell : Triple J s (do
          Op.change TxWorld.reloaded
          pure true : Tx Bool)
        (fun r s' => r = .ok true ∧ s' = s.reloaded) :=
    Triple.change_bind hJ (Triple.pure ⟨rfl, rfl⟩)
  rcases reload with ⟨active, reloadOk, found, hupOk⟩
  unfold reloadRunningSingbox
  cases active with
  | true =>
    cases reloadOk with
    | true =>
      refine hTell.mono (fun _ h => h) ?_
      rintro _ _ ⟨rfl, rfl⟩
      exact ⟨true, rfl, .inr rfl, fun _ => rfl, fun h => nomatch h⟩
    | false =>
      exact Triple.pure ⟨false, rfl, .inl rfl, Bool.noConfusion, fun _ => rfl⟩
  | false =>
    cases found with
    | true =>
      cases hupOk with
      | true =>
        refine hTell.mono (fun _ h => h) ?_
        rintro _ _ ⟨rfl, rfl⟩
        exact ⟨true, rfl, .inr rfl, fun _ => rfl, fun h => nomatch h⟩
      | false =>
        exact Triple.pure ⟨false, rfl, .inl rfl, Bool.noConfusion, fun _ => rfl⟩
    | false =>
      exact Triple.pure ⟨true, rfl, .inl rfl, fun _ => rfl, fun h => nomatch h⟩

end Parts

-- Before the Rename

section Stages

variable {o : CommitOutcomes} {old cand : Bytes}
variable {candidate : Option Bytes} {s : TxWorld}

/- Nothing was renamed and nothing was reloaded. -/
structure Before (old : Bytes) (w : TxWorld) : Prop where
  live : w.live = old
  installed : w.installed = none
  reloads : w.reloads = []

theorem Before.safe (h : Before old s) : Safe o old candidate s where
  live := .inl h.live
  before _ := h.live
  evidence e hInstalled := by
    rw [h.installed] at hInstalled
    exact (Option.some_ne_none e hInstalled.symm).elim

theorem rmCandidate_spec (hBefore : Before old s) :
    Triple (Safe o old candidate) s rmCandidate (fun _ s' => Before old s') := by
  have hDropped : Before old s.dropCandidate := ⟨hBefore.live, hBefore.installed, hBefore.reloads⟩
  exact Triple.change hDropped.safe hDropped

theorem rmBackup_spec (hBefore : Before old s) : Triple (Safe o old candidate) s rmBackup
      (fun _ s' => Before old s') := by
  have hDropped : Before old s.dropBackup.dropCandidate := ⟨hBefore.live, hBefore.installed, hBefore.reloads⟩
  exact Triple.change hDropped.safe hDropped

theorem Before.journal (hBefore : Before old s) (phase : TxPhase) (journal : Option JournalRecord) :
    Before old { s.setPhase phase with journal := journal } :=
  ⟨hBefore.live, hBefore.installed, hBefore.reloads⟩

/-
  A stage before the rename that depends on `ok`: it passes
  with `Q`, or the commit returns 1.
-/
def Passes (old : Bytes) (ok : Bool) (Q : TxWorld → Prop) (r : Except Unit Unit) (w : TxWorld) : Prop :=
  match r with
  | .ok _ => ok = true ∧ Q w
  | .error _ => ok = false ∧ Before old w

theorem rmCandidate_fails (hBefore : Before old s) {ok : Bool} {Q : TxWorld → Prop}
    (hOk : ok = false) : Triple (Safe o old candidate) s rmCandidate
      (fun _ s' => Passes old ok Q (.error ()) s') :=
  (rmCandidate_spec hBefore).mono (fun _ h => h) (fun _ _ h => ⟨hOk, h⟩)

theorem rmBackup_fails (hBefore : Before old s) {ok : Bool} {Q : TxWorld → Prop}
    (hOk : ok = false) : Triple (Safe o old candidate) s rmBackup
      (fun _ s' => Passes old ok Q (.error ()) s') :=
  (rmBackup_spec hBefore).mono (fun _ h => h) (fun _ _ h => ⟨hOk, h⟩)

theorem checkCandidate_spec (hBefore : Before old s) (hCandidate : s.candidate = candidate) :
    Triple (Safe o old candidate) s (checkCandidate o) (Passes old (o.checks candidate)
        (fun w => Before old w ∧ w.candidate = candidate)) := by
  unfold checkCandidate
  have hReset : Before old { s with tx := TxState.reset } :=
    ⟨hBefore.live, hBefore.installed, hBefore.reloads⟩
  have hPhase : Before old (TxWorld.setPhase { s with tx := TxState.reset } .candidate) :=
    ⟨hBefore.live, hBefore.installed, hBefore.reloads⟩
  refine Triple.change_bind hReset.safe ?_
  refine Triple.change_bind hPhase.safe ?_
  refine Triple.get ?_
  have hIsSome : (TxWorld.setPhase { s with tx := TxState.reset }
        .candidate).candidate.isSome = candidate.isSome :=
    congrArg Option.isSome hCandidate
  rw [hIsSome]
  refine orReturn_bind ?_ ?_
  · intro hSome
    refine orReturn_bind ?_ ?_
    · intro hProblems
      refine Triple.bind (cmTxJournalPhase_spec (fun journal => (hPhase.journal _ journal).safe)) ?_
        (fun _ _ h => nomatch h.1)
      rintro ok s' ⟨hOk, journal, rfl, -⟩
      have hJournals : ok = o.journals .check := Except.ok.inj hOk
      rw [hJournals]
      refine orReturn_spec ?_ ?_
      · intro hChecked
        refine ⟨?_, hPhase.journal _ journal, hCandidate⟩
        rw [CommitOutcomes.checks, hSome, hProblems, hChecked]
        rfl
      · intro hFailed
        refine rmCandidate_fails (hPhase.journal _ journal) ?_
        rw [CommitOutcomes.checks, hFailed, Bool.and_false]
    · intro hFailed
      refine rmCandidate_fails hPhase ?_
      rw [CommitOutcomes.checks, hFailed, Bool.and_false, Bool.false_and]
  · intro hNone
    refine Triple.pure ⟨?_, hPhase⟩
    rw [CommitOutcomes.checks, hNone, Bool.false_and, Bool.false_and]

/- The backup holds the old bytes under its name. -/
structure BackedUp (old : Bytes) (candidate : Option Bytes) (w : TxWorld) : Prop where
  before : Before old w
  candidate : w.candidate = candidate
  backup : w.backup = some (w.tx.backupPath, old)

theorem backupConfig_spec (hBefore : Before old s) (hCandidate : s.candidate = candidate) :
    Triple (Safe o old candidate) s (backupConfig o) (Passes old o.backs (BackedUp old candidate)) := by
  unfold backupConfig
  cases hPath : o.backupPath with
  | none =>
    refine orReturn_spec Bool.noConfusion ?_
    intro _
    refine rmCandidate_fails hBefore ?_
    rw [CommitOutcomes.backs, hPath]
    rfl
  | some path =>
    have hIsSome : o.backupPath.isSome = true := by
      rw [hPath]
      rfl
    have hNamed : Before old (s.nameBackup path) := ⟨hBefore.live, hBefore.installed, hBefore.reloads⟩
    have hWritten : ∀ bytes, Before old ((s.nameBackup path).setBackup path bytes) :=
      fun _ => ⟨hBefore.live, hBefore.installed, hBefore.reloads⟩
    refine Triple.change_bind hNamed.safe ?_
    refine Triple.get ?_
    refine Triple.bind (copyTo_spec (fun bytes w => w.setBackup path bytes) (fun _ _ _ => rfl)
        (fun bytes => (hWritten bytes).safe) _ _) ?_
      (fun _ _ h => nomatch h.1)
    rintro ok s1 ⟨hOk, hSame, hCopied⟩
    have hCopyOk : ok = o.backupCopy.ok := Except.ok.inj hOk
    rw [hCopyOk]
    have hBefore1 : Before old s1 := by
      rcases hSame with h | ⟨bytes, h⟩
      · rw [h]
        exact hNamed
      · rw [h]
        exact hWritten bytes
    refine orReturn_bind ?_ ?_
    · intro hCopy
      have hState := hCopied hCopy
      refine orReturn_bind ?_ ?_
      · intro hMode
        refine Triple.bind (cmTxJournalPhase_spec (fun journal => (hBefore1.journal _ journal).safe)) ?_
          (fun _ _ h => nomatch h.1)
        rintro ok s2 ⟨hOk, journal, rfl, -⟩
        have hJournals : ok = o.journals .backup := Except.ok.inj hOk
        rw [hJournals]
        refine orReturn_spec ?_ ?_
        · intro hJournal
          refine ⟨?_, hBefore1.journal _ journal, ?_, ?_⟩
          · rw [CommitOutcomes.backs, hIsSome, hCopy, hMode, hJournal]
            rfl
          · rw [hState]
            exact hCandidate
          · rw [hState]
            change some (path, s.live) = some (path, old)
            rw [hBefore.live]
        · intro hFailed
          refine rmBackup_fails (hBefore1.journal _ journal) ?_
          rw [CommitOutcomes.backs, hFailed, Bool.and_false]
      · intro hFailed
        refine rmBackup_fails hBefore1 ?_
        rw [CommitOutcomes.backs, hFailed, Bool.and_false, Bool.false_and]
    · intro hFailed
      refine rmCandidate_fails hBefore1 ?_
      rw [CommitOutcomes.backs, hFailed, Bool.and_false, Bool.false_and, Bool.false_and]

-- After the Rename

/-
  The candidate was renamed with the evidence there; the live
  file is it or the old one, and the backup is still there.
-/
structure After (o : CommitOutcomes) (old cand : Bytes) (w : TxWorld) : Prop where
  live : w.live = old ∨ w.live = cand
  installed : ∃ e, w.installed = some e ∧ (o.hookSet = true → e.Sound old)
  backup : ∃ path, w.backup = some (path, old)

theorem After.safe (h : After o old cand s) : Safe o old (some cand) s where
  live := by
    rcases h.live with hOld | hNew
    · exact .inl hOld
    · exact .inr (congrArg some hNew.symm)
  before hNone := by
    rcases h.installed with ⟨e, hInstalled, _⟩
    rw [hNone] at hInstalled
    exact (Option.some_ne_none e hInstalled.symm).elim
  evidence e hSome hSet := by
    rcases h.installed with ⟨e', hInstalled, hSound⟩
    rw [hSome] at hInstalled
    exact Option.some.inj hInstalled ▸ hSound hSet

theorem After.of_same {s' : TxWorld} (h : After o old cand s) (hLive : s'.live = s.live)
    (hInstalled : s'.installed = s.installed)
    (hBackup : s'.backup = s.backup) : After o old cand s' :=
  ⟨hLive ▸ h.live, hInstalled ▸ h.installed, hBackup ▸ h.backup⟩

theorem After.safe_of_same {s' : TxWorld} (h : After o old cand s) (hLive : s'.live = s.live)
    (hInstalled : s'.installed = s.installed)
    (hBackup : s'.backup = s.backup) : Safe o old (some cand) s' :=
  (h.of_same hLive hInstalled hBackup).safe

/- The candidate is live, and so much was reloaded. -/
structure Live (o : CommitOutcomes) (old cand : Bytes) (reloads : List Bytes) (w : TxWorld) : Prop where
  after : After o old cand w
  live : w.live = cand
  reloads : w.reloads = reloads

theorem Live.of_same {s' : TxWorld} {reloads : List Bytes}
    (h : Live o old cand reloads s) (hLive : s'.live = s.live)
    (hInstalled : s'.installed = s.installed) (hBackup : s'.backup = s.backup)
    (hReloads : s'.reloads = s.reloads) : Live o old cand reloads s' :=
  ⟨h.after.of_same hLive hInstalled hBackup, hLive.trans h.live, hReloads.trans h.reloads⟩

theorem replaceConfig_spec (hBacked : BackedUp old (some cand) s) :
    Triple (Safe o old (some cand)) s (replaceConfig o) (Passes old o.replaces (Live o old cand [])) := by
  unfold replaceConfig
  refine Triple.bind (cmTxJournalPhase_spec (fun journal => (hBacked.before.journal _ journal).safe))
    ?_ (fun _ _ h => nomatch h.1)
  rintro ok s1 ⟨hOk, journal, rfl, hRecord⟩
  have hJournals : ok = o.journals .replace := Except.ok.inj hOk
  have hBefore1 := hBacked.before.journal .replace journal
  rw [hJournals]
  refine orReturn_bind ?_ ?_
  · intro hReplaces
    have hJournalled : o.journals .replace = true := (Bool.and_eq_true_iff.mp hReplaces).1
    have hSound : o.hookSet = true → Evidence.Sound old ⟨journal, s.backup⟩ := by
      intro hSet
      exact ⟨s.tx.backupPath, hRecord hSet hJournalled, hBacked.backup⟩
    have hCand : (TxWorld.install { s.setPhase .replace with journal := journal }).live =
          cand := by
      change s.candidate.getD s.live = cand
      rw [hBacked.candidate]
      rfl
    have hLive : Live o old cand [] (TxWorld.install { s.setPhase .replace with journal := journal }) :=
      ⟨⟨.inr hCand, ⟨_, rfl, hSound⟩, ⟨_, hBacked.backup⟩⟩, hCand, hBacked.before.reloads⟩
    refine Triple.change_bind hLive.after.safe ?_
    refine Triple.change ?_ ⟨hReplaces, ?_⟩
    · exact hLive.after.safe_of_same rfl rfl rfl
    · exact hLive.of_same rfl rfl rfl rfl
  · intro hFailed
    exact rmCandidate_fails hBefore1 hFailed

theorem After.reloadRunningSingbox (hAfter : After o old cand s)
    (reload : ReloadOutcome) : Triple (Safe o old (some cand)) s
      (ClientManagement.reloadRunningSingbox reload)
      (fun r s' =>
        ∃ ok, r = .ok ok ∧ (s' = s ∨ s' = s.reloaded) ∧ (ok = true →
            s' = if reload.active || reload.found then s.reloaded
              else s) ∧
          (ok = false → (reload.active || reload.found) = true)) :=
  reloadRunningSingbox_spec (hAfter.safe_of_same rfl rfl rfl)

/- What the verified reload has told. -/
def CommitOutcomes.told (o : CommitOutcomes) : Bool := o.reload.active || o.reload.found

/-
  The reload stage leaves the candidate live.  When it is good
  the service was told, if it was found at all; when it is not,
  it was not the stage that verifies nothing.
-/
theorem reloadAndVerify_spec (hLive : Live o old cand [] s) :
    Triple (Safe o old (some cand)) s (reloadAndVerify o) (fun r s' =>
        ∃ good, r = .ok good ∧ (good = true → Live o old cand (if o.told then [cand] else []) s' ∧
              (o.told = false → o.verifiesNothing = true)) ∧
          (good = false → After o old cand s' ∧ o.verifiesNothing = false)) := by
  unfold reloadAndVerify
  refine Triple.bind (cmTxJournalPhase_spec (fun journal => (hLive.after.safe_of_same rfl rfl rfl))) ?_
    (fun _ _ h => nomatch h.1)
  rintro ok s1 ⟨hOk, journal, hSame1, -⟩
  have hLive1 : Live o old cand [] s1 := by
    rw [hSame1]
    exact hLive.of_same rfl rfl rfl rfl
  have hJournals : ok = o.journals .reload := Except.ok.inj hOk
  rw [hJournals]
  cases hReload : o.journals .reload with
  | false =>
    refine Triple.pure ⟨false, rfl, Bool.noConfusion, ?_⟩
    intro _
    refine ⟨hLive1.after, ?_⟩
    rw [CommitOutcomes.verifiesNothing, hReload]
    rfl
  | true =>
    refine Triple.bind (hLive1.after.reloadRunningSingbox o.reload) ?_ (fun _ _ h => nomatch h.choose_spec.1)
    rintro ok s2 ⟨ok', hOk', hSame, hTrue, hFalse⟩
    cases hOk'
    cases ok with
    | false =>
      refine Triple.pure ⟨false, rfl, Bool.noConfusion, ?_⟩
      intro _
      constructor
      · rcases hSame with h | h
        · exact h ▸ hLive1.after
        · exact h ▸ hLive1.after.of_same rfl rfl rfl
      · have hTold := hFalse rfl
        rw [CommitOutcomes.verifiesNothing, ← Bool.not_or, hTold,
          Bool.not_true, Bool.and_false, Bool.false_and]
    | true =>
      have hLive2 : Live o old cand (if o.told then [cand] else []) s2 := by
        rw [hTrue rfl]
        unfold CommitOutcomes.told
        cases o.reload.active || o.reload.found with
        | false => exact hLive1
        | true =>
          refine ⟨hLive1.after.of_same rfl rfl rfl, hLive1.live, ?_⟩
          change s1.reloads ++ [s1.live] = [cand]
          rw [hLive1.reloads, hLive1.live]
          rfl
      refine Triple.bind (cmTxJournalPhase_spec (fun journal => (hLive2.after.safe_of_same rfl rfl rfl))) ?_
        (fun _ _ h => nomatch h.1)
      rintro ok s3 ⟨hOk, journal, hSame3, -⟩
      have hLive3 : Live o old cand (if o.told then [cand] else []) s3 := by
        rw [hSame3]
        exact hLive2.of_same rfl rfl rfl rfl
      have hHealth : ok = o.journals .health := Except.ok.inj hOk
      refine Triple.pure ⟨_, rfl, ?_, ?_⟩
      · intro hGood
        refine ⟨hLive3, ?_⟩
        intro hTold
        rw [hHealth] at hGood
        rw [CommitOutcomes.verifiesNothing, hReload, ← Bool.not_or, hGood]
        unfold CommitOutcomes.told at hTold
        rw [hTold]
        rfl
      · intro hBad
        refine ⟨hLive3.after, ?_⟩
        rw [hHealth] at hBad
        rw [CommitOutcomes.verifiesNothing, hBad, Bool.and_false]

theorem restoreFileAtomically_spec (hAfter : After o old cand s)
    (restore : RestoreOutcome) : Triple (Safe o old (some cand)) s (restoreFileAtomically restore)
      (fun r s' => ∃ ok, r = .ok ok ∧ After o old cand s' ∧ (ok = true → s'.live = old)) := by
  unfold restoreFileAtomically
  cases restore.regular with
  | false => exact Triple.pure ⟨false, rfl, hAfter, Bool.noConfusion⟩
  | true =>
    cases restore.tempOk with
    | false => exact Triple.pure ⟨false, rfl, hAfter, Bool.noConfusion⟩
    | true =>
      rcases hAfter.backup with ⟨path, hBackup⟩
      have hTemp : After o old cand (s.setTemp []) := hAfter.of_same rfl rfl rfl
      have hWritten : ∀ bytes, Safe o old (some cand) ((s.setTemp []).setTemp bytes) :=
        fun _ => hTemp.safe_of_same rfl rfl rfl
      refine Triple.change_bind hTemp.safe ?_
      refine Triple.get ?_
      refine Triple.bind (copyTo_spec (fun bytes w => w.setTemp bytes) (fun _ _ _ => rfl) hWritten _ _) ?_
        (fun _ _ h => nomatch h.1)
      rintro copied s1 ⟨hOk, hSame, hCopied⟩
      have hCopyOk : copied = restore.copy.ok := Except.ok.inj hOk
      have hAfter1 : After o old cand s1 := by
        rcases hSame with h | ⟨bytes, h⟩
        · rw [h]
          exact hTemp
        · rw [h]
          exact hTemp.of_same rfl rfl rfl
      by_cases hGood : (copied && restore.modeOk && restore.renameOk) = true
      · rw [if_pos hGood]
        have hCopy : restore.copy.ok = true := by
          rw [← hCopyOk]
          exact (Bool.and_eq_true_iff.mp (Bool.and_eq_true_iff.mp hGood).1).1
        have hLive : s1.restore.live = old := by
          rw [hCopied hCopy]
          change (s.backup.map Prod.snd).getD [] = old
          rw [hBackup]
          rfl
        have hRestored : After o old cand s1.restore := ⟨.inl hLive, hAfter1.installed, hAfter1.backup⟩
        refine Triple.change_bind hRestored.safe ?_
        exact Triple.pure ⟨_, rfl, hRestored, fun _ => hLive⟩
      · rw [if_neg hGood]
        refine Triple.change_bind (hAfter1.safe_of_same rfl rfl rfl) ?_
        exact Triple.pure ⟨false, rfl, hAfter1.of_same rfl rfl rfl, Bool.noConfusion⟩

/- The commit returned 1: the old file, or an operator. -/
def Failed (old : Bytes) (w : TxWorld) : Prop :=
  w.live = old ∨ (w.tx.phase = .rollbackManual ∧ w.tx.rollbackOk = some false)

theorem rollBack_spec (hAfter : After o old cand s) : Triple (Safe o old (some cand)) s (rollBack o)
      (fun r s' => r = .error () ∧ Failed old s') := by
  unfold rollBack
  refine Triple.change_bind (hAfter.safe_of_same rfl rfl rfl) ?_
  refine Triple.bind (cmTxJournalPhase_spec (fun journal => hAfter.safe_of_same rfl rfl rfl)) ?_
    (fun _ _ h => nomatch h.1)
  rintro ok s1 ⟨-, journal, hSame1, -⟩
  have hAfter1 : After o old cand s1 := by
    rw [hSame1]
    exact hAfter.of_same rfl rfl rfl
  refine Triple.bind (restoreFileAtomically_spec hAfter1 o.restore) ?_ (fun _ _ h => nomatch h.choose_spec.1)
  rintro ok s2 ⟨ok', hOk', hAfter2, hRestored⟩
  cases hOk'
  refine orReturn_bind ?_ ?_
  · intro hOk
    have hLive2 : s2.live = old := hRestored hOk
    have hNoted : After o old cand
          { s2 with
            tx :=
              { s2.tx with
                rollbackOk := some true, changed := false } } :=
      hAfter2.of_same rfl rfl rfl
    refine Triple.change_bind hNoted.safe ?_
    refine Triple.bind (hNoted.reloadRunningSingbox o.reloadBack) ?_ (fun _ _ h => nomatch h.choose_spec.1)
    rintro reloaded s3 ⟨_, _, hSame, -, -⟩
    have hAfter3 : After o old cand s3 := by
      rcases hSame with h | h
      · exact h ▸ hAfter2.of_same rfl rfl rfl
      · exact h ▸ hAfter2.of_same rfl rfl rfl
    have hLive3 : s3.live = old := by
      rcases hSame with h | h
      · exact h ▸ hLive2
      · exact h ▸ hLive2
    dsimp only
    by_cases hWell : (reloaded && reloadHealthOk o.healthBack) = true
    · rw [if_pos hWell]
      exact Triple.change_bind (hAfter3.safe_of_same rfl rfl rfl) (Triple.fail ⟨rfl, .inl hLive3⟩)
    · rw [if_neg hWell]
      exact Triple.change_bind (hAfter3.safe_of_same rfl rfl rfl) (Triple.fail ⟨rfl, .inl hLive3⟩)
  · intro _
    exact Triple.change (hAfter2.safe_of_same rfl rfl rfl) ⟨rfl, .inr ⟨rfl, rfl⟩⟩

-- The Commit

/-
  A commit from start to end.  Success leaves the candidate
  live; the reload then told the service, or it was the stage
  that verifies nothing.
-/
theorem commitServerConfig_spec (hBefore : Before old s) (hCandidate : s.candidate = candidate) :
    Triple (Safe o old candidate) s (commitServerConfig o) (fun r s' =>
        match r with
        | .ok _ =>
          candidate = some s'.live ∧ (o.wasRunning = true → s'.tx.healthVerified = true ∧
                ((s'.live ∈ s'.reloads ∧ ¬ o.Missed candidate) ∨ (s'.live ∉ s'.reloads ∧ o.Missed candidate)))
        | .error _ => Failed old s' ∧ ¬ o.Missed candidate) := by
  unfold commitServerConfig
  refine Triple.bind (checkCandidate_spec hBefore hCandidate) ?_ ?_
  · rintro _ s1 ⟨hChecks, hBefore1, hCandidate1⟩
    refine Triple.bind (backupConfig_spec hBefore1 hCandidate1) ?_ ?_
    · rintro _ s2 ⟨hBacks, hBacked⟩
      obtain ⟨cand, rfl⟩ : ∃ cand, candidate = some cand := by
        cases candidate with
        | none => exact nomatch hChecks
        | some cand => exact ⟨cand, rfl⟩
      refine Triple.bind (replaceConfig_spec hBacked) ?_ ?_
      · rintro _ s3 ⟨hReplaces, hLive3⟩
        by_cases hRunning : o.wasRunning = true
        · rw [if_pos hRunning]
          have hNoted : Live o old cand []
                { s3 with
                  tx := { s3.tx with reloadPerformed := true } } :=
            hLive3.of_same rfl rfl rfl rfl
          refine Triple.change_bind hNoted.after.safe ?_
          refine Triple.bind (reloadAndVerify_spec hNoted) ?_ (fun _ _ h => nomatch h.choose_spec.1)
          rintro good s4 ⟨_, hGood, hTrue, hFalse⟩
          cases hGood
          cases good with
          | true =>
            rcases hTrue rfl with ⟨hLive4, hNothing⟩
            refine Triple.change (hLive4.after.safe_of_same rfl rfl rfl) ?_
            refine ⟨congrArg some hLive4.live.symm, ?_⟩
            intro _
            refine ⟨rfl, ?_⟩
            change (s4.live ∈ s4.reloads ∧ ¬ o.Missed (some cand)) ∨
                (s4.live ∉ s4.reloads ∧ o.Missed (some cand))
            rw [hLive4.live, hLive4.reloads]
            cases hTold : o.told with
            | true =>
              refine .inl ⟨List.mem_singleton.mpr rfl, ?_⟩
              rintro ⟨_, _, _, _, hVerifies⟩
              rw [CommitOutcomes.verifiesNothing, ← Bool.not_or] at hVerifies
              unfold CommitOutcomes.told at hTold
              rw [hTold, Bool.not_true, Bool.and_false, Bool.false_and] at hVerifies
              exact Bool.noConfusion hVerifies
            | false =>
              refine .inr ⟨List.not_mem_nil, ?_⟩
              exact ⟨hChecks, hBacks, hReplaces, hRunning, hNothing hTold⟩
          | false =>
            rcases hFalse rfl with ⟨hAfter4, hNothing⟩
            refine (rollBack_spec hAfter4).mono (fun _ h => h) ?_
            rintro _ s5 ⟨rfl, hFailed⟩
            refine ⟨hFailed, ?_⟩
            rintro ⟨_, _, _, _, hVerifies⟩
            rw [hNothing] at hVerifies
            exact Bool.noConfusion hVerifies
        · rw [if_neg hRunning]
          exact Triple.pure ⟨congrArg some hLive3.live.symm, fun h => (hRunning h).elim⟩
      · rintro _ s3 ⟨hFailed, hBefore3⟩
        refine ⟨.inl hBefore3.live, ?_⟩
        rintro ⟨_, _, hReplaces, _⟩
        rw [hFailed] at hReplaces
        exact Bool.noConfusion hReplaces
    · rintro _ s2 ⟨hFailed, hBefore2⟩
      refine ⟨.inl hBefore2.live, ?_⟩
      rintro ⟨_, hBacks, _⟩
      rw [hFailed] at hBacks
      exact Bool.noConfusion hBacks
  · rintro _ s1 ⟨hFailed, hBefore1⟩
    refine ⟨.inl hBefore1.live, ?_⟩
    rintro ⟨hChecks, _⟩
    rw [hFailed] at hChecks
    exact Bool.noConfusion hChecks

end Stages

theorem before_start (old : Bytes) (candidate : Option Bytes) (journal : Option JournalRecord)
    (tx : TxState) : Before old (TxWorld.start old candidate journal tx) :=
  ⟨rfl, rfl, rfl⟩

/-
  The engine is all or nothing, exactly unless the reload of a
  running service told nobody and the service was well after.
-/
theorem allOrNothing_iff (o : CommitOutcomes)
    (old : Bytes) (candidate : Option Bytes) (journal : Option JournalRecord)
    (tx : TxState) : AllOrNothing o old candidate (TxWorld.start old candidate journal tx) ↔
      ¬ o.Missed candidate := by
  have hSpec := commitServerConfig_spec (o := o) (before_start old candidate journal tx) rfl
  have hPost := hSpec.post
  constructor
  · intro hAll hMissed
    cases hAnswer : (commitServerConfig o).answer (TxWorld.start old candidate journal tx) with
    | error e =>
      rw [hAnswer] at hPost
      exact hPost.2 hMissed
    | ok u =>
      rw [hAnswer] at hPost
      have hRunning : o.wasRunning = true := hMissed.2.2.2.1
      have hReload := (hAll.success hAnswer).2 hRunning
      rcases (hPost.2 hRunning).2 with h | h
      · exact h.2 hMissed
      · exact h.1 hReload.2
  · intro hNot
    refine ⟨hSpec.seen, ?_, ?_⟩
    · intro hAnswer
      rw [hAnswer] at hPost
      refine ⟨hPost.1, ?_⟩
      intro hRunning
      rcases hPost.2 hRunning with ⟨hHealth, h | h⟩
      · exact ⟨hHealth, h.1⟩
      · exact (hNot h.2).elim
    · intro hAnswer
      rw [hAnswer] at hPost
      exact hPost.1

-- A Reload that Tells Nobody

/- Every step goes well but the probes of the reload. -/
def flakyProbe : CommitOutcomes where
  problems := some []
  hookSet := true
  hook _ := .stored
  checkOk := true
  active := true
  found := true
  backupPath := some (pyStr "bak")
  backupCopy := ⟨[], true⟩
  backupModeOk := true
  renameOk := true
  reload := ⟨false, true, false, true⟩
  health := ⟨true, true⟩
  restore := ⟨true, true, ⟨[], true⟩, true, true, true⟩
  reloadBack := ⟨true, true, true, true⟩
  healthBack := ⟨true, true⟩

/- The commit returns 0, and nobody was told to reload. -/
theorem flakyProbe_notAllOrNothing : ¬ AllOrNothing flakyProbe [1] (some [2])
      (TxWorld.start [1] (some [2]) none TxState.reset) := by
  intro hAll
  have hReload := (hAll.success (by decide)).2 (by decide)
  revert hReload
  decide

end SingboxOps.ClientManagement
