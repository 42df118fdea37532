import SingboxOps.Lib.Interrupt
import SingboxOps.ProfileVault.Files

/-
  The operations of the profile vault.

  An operation checks its arguments and the vault, and then
  changes the vault step by step; a fault or a crash can stop
  it after any step.  The removal of a tree stops after some
  of its objects, in any order, or removes the directory.
-/

namespace SingboxOps.ProfileVault

open RemoteProbe (hexdigest)

variable {F : Type} [FloatText F]

-- Arguments

/- `controller_secret`: the UTF-8 bytes of a text in order. -/
inductive Controller where
  | absent
  | refused
  | given (data : Bytes)
deriving DecidableEq

/- The arguments of `import_profile`; `none` is no bytes. -/
structure Enrollment (F : Type) where
  manifest : Json F
  secret : Option Bytes
  certificate : PyStr
  controller : Controller

/-
  What an operation meets.  It is stopped after `steps`
  changes, by a crash or by an exception, which is given as
  that of the system; a tree is removed whole, or only the
  objects named.
-/
structure Meeting where
  lockFree : Bool
  spoolFree : Bool
  walkOk : Bool
  uuid : PyStr
  torn : ℕ
  steps : ℕ
  crash : Bool
  stageRemoval : Option (List PyStr)
  removal : Option (List PyStr)
deriving DecidableEq

inductive Answer where
  | imported (key : PyStr) (created : Bool)
  | done
deriving DecidableEq

inductive Outcome where
  | answered (answer : Except VaultError Answer)
  | crashed
deriving DecidableEq

-- Changes

abbrev Change := Vault → Option Vault

/- A change within a directory that is there. -/
def inDir (name : PyStr) (f : Dir → Option Dir) : Change := fun v =>
    match v.get name with
    | none => none
    | some d => (f d).map (fun d => v.set name d)

/- `O_CREAT | O_EXCL` -/
def create (name : PyStr) (d : Dir) : Option Dir := match d.get name with
  | some _ => none
  | none => some (d.set name (.file []))

def fill (name : PyStr) (data : Bytes) (d : Dir) : Option Dir := some (d.set name (.file data))

/- `_write`; a crash can leave the file empty or torn. -/
def writeFile (dir name : PyStr) (data : Bytes) (torn : ℕ) : List Change :=
  [inDir dir (create name), inDir dir (fill name (data.take torn)), inDir dir (fill name data)]

/- `security.mkdir` of a directory of the root -/
def makeDir (name : PyStr) : Change := fun v =>
    match v.get name with
    | some _ => some v
    | none => some (v.set name [])

def makeSpool (d : Dir) : Option Dir := match d.get (pyStr "spool") with
  | some .dir => some d
  | some (.file _) => none
  | none => some (d.set (pyStr "spool") .dir)

/- One rename of the staged directory. -/
def publish (stage key : PyStr) : Change := fun v =>
    match v.get stage with
    | none => none
    | some d => some ((v.pop stage).set key d)

/- `_fsync_dir` -/
def syncDir : Change := fun v => some v

/- `os.replace` of one file of a directory by another -/
def replaceFile (source target : PyStr) (d : Dir) : Option Dir := match d.get source with
  | some (.file data) => some ((Dict.pop d source).set target (.file data))
  | _ => none

/- The objects of a directory that a removal did not reach. -/
def removeFrom (names : List PyStr) (d : Dir) : Dir := d.filter (fun e => decide (e.1 ∉ names))

/- `shutil.rmtree`, whether it came to its end. -/
def removeTree (v : Vault) (name : PyStr) (removal : Option (List PyStr)) : Bool × Vault :=
  match removal with
  | none => (true, v.pop name)
  | some names =>
    match v.get name with
    | none => (false, v)
    | some d => (false, v.set name (removeFrom names d))

-- Import

def stageName (uuid : PyStr) : PyStr := stagePrefix ++ uuid

/- The secret and the credential, as far as they are checked. -/
def importSecret (a : Enrollment F) : Except VaultError Bytes := match a.secret with
  | none => .error .config
  | some secret =>
    if secret.length = 32 ∧ a.controller ≠ .refused then .ok secret
    else .error .config

/- A number of the language; `inr` is an infinity by its sign. -/
def numberOf (value : Json F) : Option (ℚ ⊕ Bool) := match value with
  | .bool b => some (.inl (if b then 1 else 0))
  | .int n => some (.inl n)
  | .float (.finite x) => some (.inl (FloatText.toRat x))
  | .float (.infinite negative) => some (.inr negative)
  | _ => none

mutual

/- `==` on the values of a document -/
def same : Json F → Json F → Bool
  | .null, .null => true
  | .str s, .str t => decide (s = t)
  | .arr items, .arr others => sameItems items others
  | .obj members, .obj others =>
    decide (members.length = others.length) && sameMembers members others
  | value, other =>
    match numberOf value, numberOf other with
    | some x, some y => decide (x = y)
    | _, _ => false

def sameItems : List (Json F) → List (Json F) → Bool
  | [], [] => true
  | v :: rest, w :: others => same v w && sameItems rest others
  | _, _ => false

def sameMembers : List (PyStr × Json F) → List (PyStr × Json F) → Bool
  | [], _ => true
  | (k, v) :: rest, others =>
    (match Json.getItem others k with
      | some w => same v w
      | none => false) && sameMembers rest others

end

/- An identity the vault has must be the same in every part. -/
def existing (c : Checks F) (a : Enrollment F) (key : PyStr) (secret : Bytes)
    (d : Dir) : Except VaultError Answer := do
  let manifest ← load c key d
  let stored ← readSecret d
  let certificate ← readCertificate d
  if same manifest a.manifest &&
      decide (stored = hexdigest secret) &&
      decide (certificate = a.certificate) then
    match a.controller with
    | .given data =>
      match d.get (pyStr "mihomo.key") with
      | none =>
        if data = [] then .ok (.imported key false)
        else .error .config
      | some (.file original) =>
        if original.length ≤ 4096 then
          match utf8Decode original with
          | none => .error (.python .value)
          | some _ =>
            if original = data then .ok (.imported key false)
            else .error .config
        else .error .storage
      | some .dir => .error .storage
    | _ => .ok (.imported key false)
  else .error .config

/- The files of a new profile, in the order they are written. -/
def profileFiles (a : Enrollment F) (secret : Bytes) : List (PyStr × Except VaultError Bytes) :=
  [(pyStr "profile.json", canonical a.manifest), (pyStr "ingest.key", .ok (secretBytes secret)),
    (pyStr "server.pem", encodeAscii a.certificate),
    (pyStr "control.json", .ok (controlBytes (F := F) true))] ++
  match a.controller with
  | .given (b :: data) => [(pyStr "mihomo.key", .ok (b :: data))]
  | _ => []

/- A text that cannot be encoded stops the staging. -/
def stageFile (stage : PyStr) (torn : ℕ) (file : PyStr × Except VaultError Bytes) : List Change :=
  match file.2 with
  | .ok data => writeFile stage file.1 data torn
  | .error _ => [fun _ => none]

def enrollPlan (a : Enrollment F) (e : Meeting) (key : PyStr) (secret : Bytes) : List Change :=
  makeDir (stageName e.uuid) :: ((profileFiles a secret).flatMap (stageFile (stageName e.uuid) e.torn) ++
    [inDir (stageName e.uuid) makeSpool, publish (stageName e.uuid) key, syncDir])

/- The stage is removed where an exception comes before its end. -/
def enrolled (e : Meeting) (key : PyStr) (staged : Bool × Vault) : Outcome × Vault := match staged with
  | (true, v) => (.answered (.ok (.imported key true)), v)
  | (false, v) =>
    if e.crash then (.crashed, v)
    else
      (.answered (.error .os), (removeTree v (stageName e.uuid) e.stageRemoval).2)

def importProfile (c : Checks F) (a : Enrollment F) (e : Meeting) (v : Vault) : Outcome × Vault :=
  match importSecret a with
  | .error error => (.answered (.error error), v)
  | .ok secret =>
    match c.validate a.manifest a.certificate with
    | .error error => (.answered (.error error), v)
    | .ok key =>
      if e.lockFree then
        match v.get key with
        | some d => (.answered (existing c a key secret d), v)
        | none =>
          if maxProfiles ≤ slots v then (.answered (.error .config), v)
          else
            enrolled e key (perform (enrollPlan a e key secret) e.steps v)
      else (.answered (.error .spool), v)

-- Control and Purge

def controlTemp (uuid : PyStr) : PyStr := pyStr ".control-" ++ uuid

def controlPlan (e : Meeting) (key : PyStr) (value : Bool) : List Change :=
  writeFile key (controlTemp e.uuid) (controlBytes (F := F) value) e.torn ++
    [inDir key (replaceFile (controlTemp e.uuid) (pyStr "control.json")), syncDir]

/- How an operation ends that leaves its own files behind. -/
def leftOutcome (e : Meeting) (performed : Bool × Vault) : Outcome × Vault := match performed with
  | (true, v) => (.answered (.ok .done), v)
  | (false, v) => (if e.crash then .crashed else .answered (.error .os), v)

/- `set_enabled`; `none` stands for a value that is no boolean. -/
def setEnabled (c : Checks F) (key : PyStr) (value : Option Bool) (e : Meeting)
    (v : Vault) : Outcome × Vault :=
  match value with
  | none => (.answered (.error .config), v)
  | some value =>
    if e.lockFree then
      match profileDir v key with
      | .error error => (.answered (.error error), v)
      | .ok d =>
        match load c key d with
        | .error error => (.answered (.error error), v)
        | .ok _ =>
          leftOutcome e (perform (controlPlan (F := F) e key value) e.steps v)
    else (.answered (.error .spool), v)

def spoolLock : PyStr := pyStr "spool/spool.lock"

/- `spool_lock.acquire()` opens the file, and makes it. -/
def openSpoolLock (d : Dir) : Option Dir := match d.get spoolLock with
  | some (.file _) => some d
  | some .dir => none
  | none => some (d.set spoolLock (.file []))

/- What lets `purge` go on to the spool. -/
def purgeable (c : Checks F) (key : PyStr) (d : Dir) : Except VaultError Unit := match load c key d with
  | .error error => .error error
  | .ok _ =>
    match enabled c d with
    | .error error => .error error
    | .ok true => .error .config
    | .ok false =>
      match d.get (pyStr "spool") with
      | some .dir => .ok ()
      | some (.file _) => .error .storage
      | none => .error .os

/- The lock of the spool was held, and every object looked at. -/
def removeProfile (e : Meeting) (key : PyStr) (v : Vault) : Outcome × Vault :=
  if e.spoolFree then
    if e.walkOk then
      match removeTree v key e.removal with
      | (true, v) => (.answered (.ok .done), v)
      | (false, v) => (if e.crash then .crashed else .answered (.error .os), v)
    else (.answered (.error .storage), v)
  else (.answered (.error .spool), v)

def purge (c : Checks F) (key : PyStr) (e : Meeting) (v : Vault) : Outcome × Vault :=
  if e.lockFree then
    match profileDir v key with
    | .error error => (.answered (.error error), v)
    | .ok d =>
      match purgeable c key d with
      | .error error => (.answered (.error error), v)
      | .ok () =>
        match perform [inDir key openSpoolLock] e.steps v with
        | (true, v) => removeProfile e key v
        | (false, v) => leftOutcome e (false, v)
  else (.answered (.error .spool), v)

-- Runs

inductive Call (F : Type) where
  | importProfile (a : Enrollment F)
  | setEnabled (key : PyStr) (value : Option Bool)
  | purge (key : PyStr)

def step (c : Checks F) (v : Vault) (input : Call F × Meeting) : Outcome × Vault := match input with
  | (.importProfile a, e) => importProfile c a e v
  | (.setEnabled key value, e) => setEnabled c key value e v
  | (.purge key, e) => purge c key e v

end SingboxOps.ProfileVault
