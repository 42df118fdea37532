import SingboxOps.Lib.Dict
import SingboxOps.Lib.Json.Value
import SingboxOps.Lib.StoredZip
import Mathlib.Algebra.BigOperators.Group.List.Basic

/-
  Manifests of the Windows distribution, and the archives they
  describe.

  SHA-256, the JSON parser and the pass over the members of a
  ZIP archive are given by `Checks`.
-/

namespace SingboxOps.Distribution

variable {F : Type}

def MAX_ARCHIVE : ℕ := 64 * 1024 * 1024

def MAX_MANIFEST : ℕ := 32768

def MAX_FILES : ℕ := 68

def MAX_ARTIFACT_BYTES : ℕ := 4 * 1024 * 1024

-- Names

def isDigit (c : ℕ) : Bool := decide (48 ≤ c) && decide (c ≤ 57)

/- `[0-9a-f]{n}` -/
def isHex (n : ℕ) (s : PyStr) : Bool :=
  decide (s.length = n) && s.all (fun c => isDigit c || (decide (97 ≤ c) && decide (c ≤ 102)))

/- `[0-9A-F]{40}` -/
def isPublisher (s : PyStr) : Bool :=
  decide (s.length = 40) && s.all (fun c => isDigit c || (decide (65 ≤ c) && decide (c ≤ 70)))

def Hex (n : ℕ) : Type := { s : PyStr // isHex n s = true }

instance (n : ℕ) : DecidableEq (Hex n) :=
  inferInstanceAs (DecidableEq { s : PyStr // isHex n s = true })

/- A version is named by the digest of its archive. -/
abbrev Digest := Hex 64

/- `uuid.uuid4().hex` -/
abbrev StageId := Hex 32

def Hex.of? (n : ℕ) (s : PyStr) : Option (Hex n) :=
  if h : isHex n s = true then some ⟨s, h⟩ else none

@[simp] theorem Hex.of?_val {n : ℕ} (name : Hex n) : Hex.of? n name.val = some name := by
  unfold Hex.of?
  rw [dif_pos name.property]
  rfl

theorem Hex.of?_eq_some {n : ℕ} {s : PyStr} {name : Hex n} (h : Hex.of? n s = some name) : s = name.val := by
  unfold Hex.of? at h
  split at h
  · cases h
    rfl
  · cases h

/- A text of this form begins so, and the rest satisfies `p`. -/
def startsWith (lead : PyStr) (p : PyStr → Bool) (s : PyStr) : Bool :=
  decide (s.take lead.length = lead) && p (s.drop lead.length)

/- `P6RemoteProbe|P6InstallerFixture[0-9a-f]{32}` -/
def isInstallation (s : PyStr) : Bool :=
  decide (s = pyStr "P6RemoteProbe") || startsWith (pyStr "P6InstallerFixture") (isHex 32) s

/- `[A-Za-z0-9_.-]` -/
def isRuntimeChar (c : ℕ) : Bool := isDigit c || (decide (65 ≤ c) && decide (c ≤ 90)) ||
    (decide (97 ≤ c) && decide (c ≤ 122)) || [95, 46, 45].contains c

/- The pattern of a file's name. -/
def isFileName (s : PyStr) : Bool := [pyStr "P6Setup.exe", pyStr "Setup.ps1", pyStr "payload.cat",
    pyStr "payload/release.json", pyStr "payload/p6-agent.pyz",
    pyStr "payload/p6-installer.pyz"].contains s ||
    startsWith (pyStr "payload/runtime/") (fun rest => !rest.isEmpty && rest.all isRuntimeChar) s

-- Records

/- The members of a dictionary with exactly these keys. -/
def membersOf (keys : List PyStr) (value : Json F) : Option (List (PyStr × Json F)) := match value with
  | .obj members =>
    if members.all (fun e => keys.contains e.1) &&
        keys.all (fun key => (Json.getItem members key).isSome) then
      some members
    else none
  | _ => none

def textAt (members : List (PyStr × Json F)) (key : PyStr) : Option PyStr :=
  match Json.getItem members key with
  | some (.str s) => some s
  | _ => none

/- `type(value) is int and 0 < value <= limit` -/
def sizeAt (members : List (PyStr × Json F)) (key : PyStr) (limit : ℕ) : Option ℕ :=
  match Json.getItem members key with
  | some (.int n) => if 0 < n ∧ n ≤ (limit : ℤ) then some n.toNat else none
  | _ => none

def hexAt (members : List (PyStr × Json F)) (key : PyStr) (n : ℕ) : Option (Hex n) :=
  (textAt members key).bind (Hex.of? n)

/- `type(value) is int and value == 1` -/
def versionOne (members : List (PyStr × Json F)) : Bool := match Json.getItem members (pyStr "v") with
  | some (.int n) => decide (n = 1)
  | _ => false

structure Artifact where
  version : PyStr
  sha256 : Digest
  size : ℕ
deriving DecidableEq

def validateManifest (value : Json F) : Option Artifact := do
  let members ← membersOf [pyStr "v", pyStr "version", pyStr "sha256", pyStr "size"] value
  let version ← textAt members (pyStr "version")
  let sha256 ← hexAt members (pyStr "sha256") 64
  let size ← sizeAt members (pyStr "size") MAX_ARTIFACT_BYTES
  if versionOne members &&
      startsWith (pyStr "p6-agent-source-1-") (isHex 16) version &&
      decide (version = pyStr "p6-agent-source-1-" ++ sha256.val.take 16) then
    some ⟨version, sha256, size⟩
  else none

structure Record where
  sha256 : Digest
  size : ℕ
deriving DecidableEq

def validateRecord (value : Json F) : Option Record := do
  let members ← membersOf [pyStr "sha256", pyStr "size"] value
  let sha256 ← hexAt members (pyStr "sha256") 64
  let size ← sizeAt members (pyStr "size") MAX_ARCHIVE
  some ⟨sha256, size⟩

-- Manifests

inductive Scope where
  | production
  | lab
deriving DecidableEq

structure Manifest where
  scope : Scope
  publisher : PyStr
  installation : PyStr
  timestamped : Bool
  release : Digest
  artifact : Artifact
  archive : Digest
  size : ℕ
  files : Dict PyStr Record
deriving DecidableEq

def KEYS : List PyStr := [pyStr "v", pyStr "kind", pyStr "scope", pyStr "publisher",
    pyStr "installation", pyStr "timestamped", pyStr "release",
    pyStr "artifact", pyStr "archive", pyStr "files"]

/- The files that every distribution holds. -/
def requiredFiles : List PyStr := [pyStr "P6Setup.exe", pyStr "Setup.ps1", pyStr "payload.cat",
    pyStr "payload/release.json", pyStr "payload/p6-agent.pyz",
    pyStr "payload/p6-installer.pyz",
    pyStr "payload/runtime/python.exe",
    pyStr "payload/runtime/pythonw.exe",
    pyStr "payload/runtime/python313.dll",
    pyStr "payload/runtime/python313._pth",
    pyStr "payload/runtime/python313.zip"]

/- The name of a file is known, and its size within its own bound. -/
def fileFits (name : PyStr) (record : Record) : Bool := isFileName name &&
    !([pyStr "P6Setup.exe", pyStr "Setup.ps1", pyStr "payload.cat", pyStr "payload/p6-installer.pyz",
        pyStr "payload/p6-agent.pyz"].contains name &&
      decide (4 * 1024 * 1024 < record.size)) &&
    !(decide (name = pyStr "payload/release.json") &&
      decide (MAX_MANIFEST < record.size))

def filesFit (files : Dict PyStr Record) : Bool :=
  decide (8 ≤ files.length) && decide (files.length ≤ MAX_FILES) &&
    requiredFiles.all (fun name => (files.get name).isSome) &&
    files.all (fun e => fileFits e.1 e.2) &&
    decide ((files.map (fun e => e.2.size)).sum ≤ MAX_ARCHIVE)

def scopeAt (members : List (PyStr × Json F)) : Option Scope :=
  (textAt members (pyStr "scope")).bind (fun s =>
    if s = pyStr "production" then some .production
    else if s = pyStr "lab" then some .lab
    else none)

def flagAt (members : List (PyStr × Json F)) (key : PyStr) : Option Bool :=
  match Json.getItem members key with
  | some (.bool b) => some b
  | _ => none

def filesAt (members : List (PyStr × Json F)) : Option (Dict PyStr Record) :=
  match Json.getItem members (pyStr "files") with
  | some (.obj files) => files.mapM (fun e => (validateRecord e.2).map (fun r => (e.1, r)))
  | _ => none

def validateManifestRecord (value : Json F) : Option Manifest := do
  let members ← membersOf KEYS value
  let kind ← textAt members (pyStr "kind")
  let scope ← scopeAt members
  let publisher ← textAt members (pyStr "publisher")
  let timestamped ← flagAt members (pyStr "timestamped")
  let release ← hexAt members (pyStr "release") 64
  let installation ← textAt members (pyStr "installation")
  let artifact ← (Json.getItem members (pyStr "artifact")).bind validateManifest
  let archive ← (Json.getItem members (pyStr "archive")).bind validateRecord
  let files ← filesAt members
  if versionOne members &&
      decide (kind = pyStr "p6-windows-distribution/1") &&
      isPublisher publisher &&
      !(decide (scope = .production) && !timestamped) &&
      isInstallation installation &&
      !(decide (scope = .production) && !decide (installation = pyStr "P6RemoteProbe")) &&
      filesFit files then
    some
      { scope, publisher, installation, timestamped, release, artifact,
        files, archive := archive.sha256, size := archive.size }
  else none

-- Archives

/-
  SHA-256; `object_json`; and what `zipfile.ZipFile` finds of
  the members in the archive, which agrees with the manifest.
-/
structure Checks (F : Type) where
  sha256 : Bytes → PyStr
  objectJson : Bytes → Option (Json F)
  inventory : Bytes → Manifest → Bool

/- `validate_manifest_record(object_json(raw))` -/
def Checks.manifest (c : Checks F) (raw : Bytes) : Option Manifest :=
  (c.objectJson raw).bind validateManifestRecord

/- The end of the central directory, as `<4s4H2LH`. -/
def endFits (raw : Bytes) : Bool :=
  let tail := raw.drop (raw.length - 22)
  decide (tail.take 4 = [80, 75, 5, 6]) &&
    decide (fieldAt tail 4 2 = 0) && decide (fieldAt tail 6 2 = 0) &&
    decide (fieldAt tail 8 2 = fieldAt tail 10 2) &&
    decide (8 ≤ fieldAt tail 10 2) &&
    decide (fieldAt tail 10 2 ≤ MAX_FILES) &&
    decide (fieldAt tail 12 4 ≤ 65536) &&
    decide (fieldAt tail 16 4 + fieldAt tail 12 4 = raw.length - 22) &&
    decide (fieldAt tail 20 2 = 0)

/- `verify_archive` raises nothing. -/
def verifyArchive (c : Checks F) (raw : Bytes) (m : Manifest) : Bool :=
  decide (raw.length = m.size) && decide (22 ≤ raw.length) &&
    decide (raw.length ≤ MAX_ARCHIVE) && endFits raw &&
    decide (c.sha256 raw = m.archive.val) && c.inventory raw m

theorem length_of_verifyArchive {c : Checks F} {raw : Bytes} {m : Manifest}
    (h : verifyArchive c raw m = true) : raw.length ≤ MAX_ARCHIVE := by
  unfold verifyArchive at h
  simp only [Bool.and_eq_true, decide_eq_true_eq] at h
  exact h.1.1.1.2

end SingboxOps.Distribution
