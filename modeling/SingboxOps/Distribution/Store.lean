import SingboxOps.Distribution.Manifest
import SingboxOps.Lib.Interrupt

/-
  The published distributions of the Windows client.

  A root directory holds the versions that are retained, the
  stages of commands that have not finished, and the pointer
  to the current version.
-/

namespace SingboxOps.Distribution

variable {F : Type}

-- The Root Directory

/- `exact` is the mode 0644. -/
structure File where
  raw : Bytes
  exact : Bool
deriving DecidableEq

/- A directory for a version; `exact` is the mode 0755. -/
structure Folder where
  manifest : Option File
  archive : Option File
  exact : Bool
deriving DecidableEq

inductive Stage where
  | pointer (file : File)
  | folder (folder : Folder)
deriving DecidableEq

structure Root where
  current : Option Digest
  versions : Dict Digest Folder
  stages : Dict StageId Stage

/- A file of at most this size, with the mode 0644. -/
def File.fits (file : File) (limit : ℕ) : Bool := file.exact && decide (file.raw.length ≤ limit)

/- The manifest of a version that is complete and verifies. -/
def Folder.release (c : Checks F) (folder : Folder) (name : Digest) : Option Manifest :=
  match folder.manifest, folder.archive with
  | some manifest, some archive =>
    if folder.exact && manifest.fits MAX_MANIFEST &&
        archive.fits MAX_ARCHIVE then
      match c.manifest manifest.raw with
      | none => none
      | some m =>
        if m.archive = name ∧ verifyArchive c archive.raw m = true then
          some m
        else none
    else none
  | _, _ => none

def Root.release (c : Checks F) (root : Root) (name : Digest) : Option Manifest :=
  (root.versions.get name).bind (fun folder => folder.release c name)

/- `open_release` of any artifact -/
def openRelease (c : Checks F) (root : Root) : Option Manifest := root.current.bind (root.release c)

-- Changes

abbrev Change := Root → Option Root

def Root.setStage (root : Root) (id : StageId) (stage : Stage) : Root :=
  { root with stages := root.stages.set id stage }

def Root.popStage (root : Root) (id : StageId) : Root := { root with stages := root.stages.pop id }

def Root.setVersion (root : Root) (name : Digest) (folder : Folder) : Root :=
  { root with versions := root.versions.set name folder }

def Root.popVersion (root : Root) (name : Digest) : Root := { root with versions := root.versions.pop name }

def dropStage (id : StageId) : Change := fun root => some (root.popStage id)

def dropVersion (name : Digest) : Change := fun root => some (root.popVersion name)

/- `os.rename` of a stage; a version of that name is in its way. -/
def renameStage (id : StageId) (name : Digest) : Change := fun root =>
    match root.stages.get id, root.versions.get name with
    | some (.folder folder), none => some ((root.popStage id).setVersion name folder)
    | _, _ => none

/- `os.replace` of the pointer -/
def replacePointer (id : StageId) (name : Digest) : Change :=
  fun root => some { root.popStage id with current := some name }

-- Publish

/- `{'publisher': ..., 'archive_sha256': ...}` -/
structure Lab where
  publisher : PyStr
  archive : PyStr
deriving DecidableEq

/-
  The arguments of `publish`, what its files hold, the random
  names it draws, and how far its writes get before the last
  one.  `loose` says that the process creates files with a
  mode that is not exact, until it sets the mode.
-/
structure Publish where
  expectedDigest : PyStr
  publisher : PyStr
  scope : Scope
  artifact : Artifact
  replaceLab : Option Lab
  promoteLab : Option Lab
  raw : Bytes
  package : Bytes
  stage : StageId
  pointer : StageId
  written : ℕ
  loose : Bool

def Publish.previous (p : Publish) : Option Lab := p.promoteLab.or p.replaceLab

def Publish.targetScope (p : Publish) : Scope :=
  if p.promoteLab.isSome then .production else .lab

/- The arguments are of their kinds. -/
def Publish.wellFormed (p : Publish) : Bool := isHex 64 p.expectedDigest && isPublisher p.publisher &&
    !(p.replaceLab.isSome && p.promoteLab.isSome) &&
    match p.previous with
    | none => true
    | some lab =>
      isPublisher lab.publisher && isHex 64 lab.archive && !decide (lab.publisher = p.publisher) &&
        decide (p.scope = p.targetScope)

/- The manifest that was asked for. -/
def Publish.manifest (c : Checks F) (p : Publish) : Option Manifest :=
  if decide (p.raw.length ≤ MAX_MANIFEST) &&
      decide (c.sha256 p.raw = p.expectedDigest) then
    match c.manifest p.raw with
    | none => none
    | some m =>
      if m.publisher = p.publisher ∧ m.scope = p.scope ∧
          m.artifact = p.artifact then
        some m
      else none
  else none

/- The root holds complete versions and nothing unfinished. -/
def admits (c : Checks F) (root : Root) : Bool :=
  decide (root.versions.length ≤ 2) && decide (root.stages = []) &&
    root.versions.all (fun e => (e.2.release c e.1).isSome)

/- The lab release that a command names, where it is retained. -/
def Root.named (c : Checks F) (root : Root) (lab : Lab) : Option Manifest :=
  (Hex.of? 64 lab.archive).bind (root.release c)

/- The trust that the command may change, or must keep. -/
def trusts (c : Checks F) (root : Root) (p : Publish) (m : Manifest) : Bool := match p.previous with
  | some lab =>
    match root.named c lab, openRelease c root with
    | some old, some current =>
      !decide (lab.archive = m.archive.val) &&
        decide (old.publisher = lab.publisher) &&
        decide (old.scope = .lab) &&
        (if current.publisher = lab.publisher ∧ current.archive.val = lab.archive then
          decide (current.scope = .lab)
        else
          decide (current.publisher = p.publisher) &&
            decide (current.archive = m.archive) &&
            decide (current.scope = p.targetScope))
    | _, _ => false
  | none =>
    match root.current with
    | none => true
    | some _ =>
      match openRelease c root with
      | none => false
      | some current =>
        decide (current.publisher = p.publisher) &&
          decide (current.scope = p.scope)

/- The version is there as asked for, or there is room for it. -/
def fitsIn (c : Checks F) (root : Root) (p : Publish) (m : Manifest) : Bool :=
  match root.versions.get m.archive with
  | none => decide (root.versions.length < 2)
  | some folder =>
    decide (folder.manifest.map File.raw = some p.raw) &&
      folder.archive.any (fun file => verifyArchive c file.raw m)

/- `canonical({'v': 1, 'archive_sha256': identity})` -/
def pointerText (name : Digest) : Bytes :=
  (pyStr "\x7b\"archive_sha256\":\"" ++ name.val ++ pyStr "\",\"v\":1\x7d").map UInt8.ofNat

/- A file is created, gets its mode, and is written. -/
def writing (loose : Bool) (written : ℕ) (raw : Bytes) : List File :=
  [⟨[], !loose⟩, ⟨[], true⟩, ⟨raw.take written, true⟩, ⟨raw, true⟩]

/- The version as it is renamed. -/
def Publish.folder (p : Publish) : Folder := ⟨some ⟨p.raw, true⟩, some ⟨p.package, true⟩, true⟩

/- The stage of a version, as it is filled. -/
def Publish.stages (p : Publish) : List Stage := [.folder ⟨none, none, false⟩] ++
    (writing p.loose p.written p.package).map (fun file =>
      .folder ⟨none, some file, false⟩) ++
    (writing p.loose p.written p.raw).map (fun file =>
      .folder ⟨some file, some ⟨p.package, true⟩, false⟩) ++
    [.folder p.folder]

def stagePlan (p : Publish) (m : Manifest) : List Change :=
  putting (Root.setStage · p.stage) p.stages ++ [renameStage p.stage m.archive]

/- The stage of the pointer, as it is written. -/
def Publish.pointers (p : Publish) (m : Manifest) : List Stage :=
  (writing p.loose p.written (pointerText m.archive)).map .pointer

def pointerPlan (p : Publish) (m : Manifest) : List Change :=
  putting (Root.setStage · p.pointer) (p.pointers m) ++ [replacePointer p.pointer m.archive]

/- What `publish` does, where it does not refuse. -/
def publish (c : Checks F) (root : Root) (p : Publish) : Option (List Change) :=
  if p.wellFormed then
    match p.manifest c with
    | none => none
    | some m =>
      if admits c root && trusts c root p m && fitsIn c root p m &&
          verifyArchive c p.package m then
        some ((if (root.versions.get m.archive).isSome then []
          else stagePlan p m) ++ pointerPlan p m)
      else none
  else none

-- Retire

/- The files of a folder are removed, in either order. -/
def emptied (folder : Folder) (archiveFirst : Bool) : List Folder :=
  let archive :=
    if folder.archive.isSome then [{ folder with archive := none }]
    else []
  let manifest :=
    if folder.manifest.isSome then [{ folder with manifest := none }]
    else []
  let both := [{ folder with manifest := none, archive := none }]
  match folder.archive, folder.manifest with
  | some _, some _ => (if archiveFirst then archive else manifest) ++ both
  | some _, none => archive
  | none, some _ => manifest
  | none, none => []

/- `retire` of a version -/
def retire (c : Checks F) (root : Root) (selector : PyStr) (archiveFirst : Bool) : Option (List Change) :=
  match Hex.of? 64 selector with
  | none => none
  | some name =>
    match openRelease c root, root.versions.get name with
    | some current, some folder =>
      if current.archive ≠ name ∧
          (folder.release c name).isSome = true then
        some (putting (Root.setVersion · name) (emptied folder archiveFirst) ++ [dropVersion name])
      else none
    | _, _ => none

/- What `retire` asks of the files of a stage. -/
def Folder.removable (folder : Folder) : Bool := folder.manifest.all (File.fits · MAX_MANIFEST) &&
    folder.archive.all (File.fits · MAX_ARCHIVE)

def Stage.removable : Stage → Bool
  | .pointer file => file.fits 256
  | .folder dir => dir.removable

/- The stage loses its files before it goes. -/
def Stage.emptied (stage : Stage) (archiveFirst : Bool) : List Stage := match stage with
  | .pointer _ => []
  | .folder dir => (Distribution.emptied dir archiveFirst).map .folder

/- `retire` of a stage -/
def retireStage (root : Root) (selector : PyStr) (archiveFirst : Bool) : Option (List Change) :=
  match Hex.of? 32 selector with
  | none => none
  | some id =>
    match root.stages.get id with
    | none => none
    | some stage =>
      if stage.removable then
        some (putting (Root.setStage · id) (stage.emptied archiveFirst) ++ [dropStage id])
      else none

-- Commands

/- `archiveFirst` is the order in which a set of names comes. -/
inductive Command where
  | publish (p : Publish)
  | retire (selector : PyStr) (archiveFirst : Bool)
  | retireStage (selector : PyStr) (archiveFirst : Bool)

def plan (c : Checks F) (root : Root) (command : Command) : Option (List Change) := match command with
  | .publish p => publish c root p
  | .retire selector archiveFirst => retire c root selector archiveFirst
  | .retireStage selector archiveFirst => retireStage root selector archiveFirst

/- A command, and after how many changes it crashes, if ever. -/
structure Input where
  command : Command
  crash : Option ℕ

inductive Outcome where
  | refused
  | finished
  | crashed
deriving DecidableEq

def step (c : Checks F) (root : Root) (input : Input) : Outcome × Root :=
  match plan c root input.command with
  | none => (.refused, root)
  | some changes =>
    let left := perform changes (input.crash.getD changes.length) root
    (if left.1 then .finished else .crashed, left.2)

def Root.empty : Root := ⟨none, [], []⟩

end SingboxOps.Distribution
