import SingboxOps.Lib.Op
import SingboxOps.Lib.Text
import Mathlib.Tactic.Common

/-
  The commit engine of the server configuration.

  Every external step of a commit answers as it likes: the
  outcomes are given beforehand, and the engine is an operation
  on what is on disk.  Its error is return code 1.
-/

namespace SingboxOps.ClientManagement

-- What Is on Disk

/- `CM_TX_PHASE` -/
inductive TxPhase where
  | parse
  | candidate
  | check
  | backup
  | replace
  | reload
  | health
  | rollback
  | rollbackManual
deriving DecidableEq

/- The transaction variables, `CM_TX_…`. -/
structure TxState where
  phase : TxPhase
  changed : Bool
  reloadPerformed : Bool
  rollbackAttempted : Bool
  rollbackOk : Option Bool
  healthVerified : Bool
  backupPath : PyStr
deriving DecidableEq

/- `cm_transaction_reset` -/
def TxState.reset : TxState := ⟨.parse, false, false, false, none, false, []⟩

/- What the journal hook records. -/
structure JournalRecord where
  phase : TxPhase
  backupPath : PyStr
deriving DecidableEq

/- What the journal and the backup were at a moment. -/
structure Evidence where
  journal : Option JournalRecord
  backup : Option (PyStr × Bytes)
deriving DecidableEq

/-
  The files of a commit and its variables.  The last two fields
  are for reasoning only: the evidence there was just before
  the candidate was renamed to the live file, and what was live
  at each reload that was carried out.
-/
structure TxWorld where
  live : Bytes
  candidate : Option Bytes
  backup : Option (PyStr × Bytes)
  temp : Option Bytes
  journal : Option JournalRecord
  tx : TxState
  installed : Option Evidence
  reloads : List Bytes
deriving DecidableEq

namespace TxWorld

variable (w : TxWorld)

def setPhase (phase : TxPhase) : TxWorld := { w with tx := { w.tx with phase := phase } }

def writeJournal (phase : TxPhase) : TxWorld := { w with journal := some ⟨phase, w.tx.backupPath⟩ }

def dropCandidate : TxWorld := { w with candidate := none }

def setBackup (path : PyStr) (bytes : Bytes) : TxWorld := { w with backup := some (path, bytes) }

def setTemp (bytes : Bytes) : TxWorld := { w with temp := some bytes }

/- A backup was named. -/
def nameBackup (path : PyStr) : TxWorld :=
  { w with
    backup := some (path, [])
    tx := { w.tx with backupPath := path } }

/- The backup and its name go. -/
def dropBackup : TxWorld :=
  { w with
    backup := none
    tx := { w.tx with backupPath := [] } }

/- `mv` of the candidate to the live file. -/
def install : TxWorld :=
  { w with
    live := w.candidate.getD w.live
    candidate := none
    installed := some ⟨w.journal, w.backup⟩ }

/- `mv` of the restored copy to the live file. -/
def restore : TxWorld := { w with live := w.temp.getD w.live, temp := none }

/- The running service was told to reload. -/
def reloaded : TxWorld := { w with reloads := w.reloads ++ [w.live] }

/- The rollback needs an operator. -/
def manual : TxWorld :=
  { w with
    tx :=
      { w.tx with
        phase := .rollbackManual
        rollbackOk := some false } }

end TxWorld

-- Outcomes

/-
  A call of the journal hook: the record is durable when it
  returns 0, and may be when it does not.
-/
inductive HookOutcome where
  | stored
  | unsure
  | lost
deriving DecidableEq

/- A copy: what the target holds on the way, and the result. -/
structure CopyOutcome where
  partials : List Bytes
  ok : Bool

/- The steps of `reload_running_singbox`. -/
structure ReloadOutcome where
  active : Bool
  reloadOk : Bool
  found : Bool
  hupOk : Bool

/- The probes of `reload_health_ok`. -/
structure HealthOutcome where
  active : Bool
  found : Bool

/- The steps of `restore_file_atomically`. -/
structure RestoreOutcome where
  regular : Bool
  tempOk : Bool
  copy : CopyOutcome
  modeOk : Bool
  renameOk : Bool
  same : Bool

/- How every external step of a commit ends. -/
structure CommitOutcomes where
  problems : Option (List PyStr)
  hookSet : Bool
  hook : TxPhase → HookOutcome
  checkOk : Bool
  active : Bool
  found : Bool
  backupPath : Option PyStr
  backupCopy : CopyOutcome
  backupModeOk : Bool
  renameOk : Bool
  reload : ReloadOutcome
  health : HealthOutcome
  restore : RestoreOutcome
  reloadBack : ReloadOutcome
  healthBack : HealthOutcome

-- Steps

/- A part of a commit: its error is return code 1. -/
abbrev Tx (α : Type) := Op Unit TxWorld α

/- `return 1` unless a step went well, after a cleanup. -/
def orReturn (ok : Bool) (cleanup : Tx Unit) : Tx Unit :=
  if ok then pure ()
  else do
    cleanup
    Op.fail ()

/- `cm_tx_journal_phase` -/
def cmTxJournalPhase (o : CommitOutcomes) (phase : TxPhase) : Tx Bool := do
  Op.change (fun w => w.setPhase phase)
  if o.hookSet then
    match o.hook phase with
    | .stored => do
        Op.change (fun w => w.writeJournal phase)
        pure true
    | .unsure => do
        Op.change (fun w => w.writeJournal phase)
        pure false
    | .lost => pure false
  else pure true

/- What a copy leaves in its target on the way. -/
def writeAll (write : Bytes → TxWorld → TxWorld) : List Bytes → Tx Unit
  | [] => pure ()
  | bytes :: rest => do
      Op.change (write bytes)
      writeAll write rest

/- `cp -a` -/
def copyTo (write : Bytes → TxWorld → TxWorld) (source : Bytes) (o : CopyOutcome) : Tx Bool := do
  writeAll write o.partials
  if o.ok then do
    Op.change (write source)
    pure true
  else pure false

/- `reload_running_singbox` -/
def reloadRunningSingbox (o : ReloadOutcome) : Tx Bool :=
  if o.active then
    if o.reloadOk then do
      Op.change TxWorld.reloaded
      pure true
    else pure false
  else if o.found then
    if o.hupOk then do
      Op.change TxWorld.reloaded
      pure true
    else pure false
  else pure true

/- `reload_health_ok` -/
def reloadHealthOk (o : HealthOutcome) : Bool := o.active || o.found

/- `restore_file_atomically` -/
def restoreFileAtomically (o : RestoreOutcome) : Tx Bool :=
  if !o.regular then pure false
  else if !o.tempOk then pure false
  else do
    Op.change (fun w => w.setTemp [])
    let w ← Op.get
    let copied ← copyTo (fun bytes w => w.setTemp bytes) ((w.backup.map Prod.snd).getD []) o.copy
    if copied && o.modeOk && o.renameOk then do
      Op.change TxWorld.restore
      pure o.same
    else do
      Op.change (fun w => { w with temp := none })
      pure false

-- The Commit

def rmCandidate : Tx Unit := Op.change TxWorld.dropCandidate

def rmBackup : Tx Unit := Op.change (fun w => w.dropBackup.dropCandidate)

/- The checks of the candidate. -/
def checkCandidate (o : CommitOutcomes) : Tx Unit := do
  Op.change (fun w => { w with tx := TxState.reset })
  Op.change (fun w => w.setPhase .candidate)
  let w ← Op.get
  orReturn w.candidate.isSome (pure ())
  orReturn (o.problems == some []) rmCandidate
  let journalled ← cmTxJournalPhase o .check
  orReturn (journalled && o.checkOk) rmCandidate

/- The backup of the live file. -/
def backupConfig (o : CommitOutcomes) : Tx Unit := match o.backupPath with
  | none => orReturn false rmCandidate
  | some path => do
      Op.change (fun w => w.nameBackup path)
      let w ← Op.get
      let copied ← copyTo (fun bytes w => w.setBackup path bytes) w.live o.backupCopy
      orReturn copied rmCandidate
      orReturn o.backupModeOk rmBackup
      let journalled ← cmTxJournalPhase o .backup
      orReturn journalled rmBackup

/- The irreversible step. -/
def replaceConfig (o : CommitOutcomes) : Tx Unit := do
  let journalled ← cmTxJournalPhase o .replace
  orReturn (journalled && o.renameOk) rmCandidate
  Op.change TxWorld.install
  Op.change (fun w => { w with tx := { w.tx with changed := true } })

/- The service takes the new configuration and is well. -/
def reloadAndVerify (o : CommitOutcomes) : Tx Bool := do
  let journalled ← cmTxJournalPhase o .reload
  if !journalled then pure false
  else
    let reloaded ← reloadRunningSingbox o.reload
    if !reloaded then pure false
    else
      let journalled ← cmTxJournalPhase o .health
      pure (journalled && reloadHealthOk o.health)

/- Back to the old configuration; this returns 1 in any case. -/
def rollBack (o : CommitOutcomes) : Tx Unit := do
  Op.change (fun w => { w with tx := { w.tx with rollbackAttempted := true } })
  let _ ← cmTxJournalPhase o .rollback
  let restored ← restoreFileAtomically o.restore
  orReturn restored (Op.change TxWorld.manual)
  Op.change (fun w =>
    { w with
      tx := { w.tx with rollbackOk := some true, changed := false } })
  let reloaded ← reloadRunningSingbox o.reloadBack
  if reloaded && reloadHealthOk o.healthBack then
    Op.change (fun w => { w with tx := { w.tx with healthVerified := true } })
  else Op.change TxWorld.manual
  Op.fail ()

/- The service was running before the commit. -/
def CommitOutcomes.wasRunning (o : CommitOutcomes) : Bool := o.active || o.found

/- `commit_server_config` -/
def commitServerConfig (o : CommitOutcomes) : Tx Unit := do
  checkCandidate o
  backupConfig o
  replaceConfig o
  if o.wasRunning then do
    Op.change (fun w => { w with tx := { w.tx with reloadPerformed := true } })
    let good ← reloadAndVerify o
    if good then
      Op.change (fun w => { w with tx := { w.tx with healthVerified := true } })
    else rollBack o
  else pure ()

end SingboxOps.ClientManagement
