import SingboxOps.Distribution.Trust

/-
  What a crash leaves behind, and whether it can be removed.
-/

namespace SingboxOps.Distribution

variable {F : Type} {c : Checks F} {root : Root}

-- Stages

theorem writing_fits {loose : Bool} {written limit k : ℕ} {raw : Bytes} {file : File}
    (hAt : (writing loose written raw)[k]? = some file) (hMode : loose = true → k ≠ 0)
    (hLength : raw.length ≤ limit) : file.fits limit = true := by
  have hTake : (raw.take written).length ≤ limit := by
    rw [List.length_take]
    exact (min_le_right _ _).trans hLength
  rcases k with _ | _ | _ | _ | k
  · cases hAt
    have hNot : loose = false := by
      cases loose with
      | false => rfl
      | true => exact absurd rfl (hMode rfl)
    simp [File.fits, hNot]
  · cases hAt
    simp [File.fits]
  · cases hAt
    simpa [File.fits] using hTake
  · cases hAt
    simpa [File.fits] using hLength
  · cases hAt

/- The stage of a version can be removed, but where a file has no mode. -/
theorem stages_removable {p : Publish} {k : ℕ} {stage : Stage}
    (hAt : p.stages[k]? = some stage) (hMode : p.loose = true → k ≠ 1 ∧ k ≠ 5)
    (hRaw : p.raw.length ≤ MAX_MANIFEST)
    (hPackage : p.package.length ≤ MAX_ARCHIVE) : stage.removable = true := by
  have hWhole : File.fits ⟨p.package, true⟩ MAX_ARCHIVE = true := by
    simpa [File.fits] using hPackage
  have hManifest : File.fits ⟨p.raw, true⟩ MAX_MANIFEST = true := by
    simpa [File.fits] using hRaw
  have hArchiveAt : ∀ j file, (writing p.loose p.written p.package)[j]? = some file →
        k = j + 1 → file.fits MAX_ARCHIVE = true := by
    intro j file hFile hIndex
    refine writing_fits hFile (fun hLoose hZero => ?_) hPackage
    exact (hMode hLoose).1 (by omega)
  have hManifestAt : ∀ j file, (writing p.loose p.written p.raw)[j]? = some file →
        k = j + 5 → file.fits MAX_MANIFEST = true := by
    intro j file hFile hIndex
    refine writing_fits hFile (fun hLoose hZero => ?_) hRaw
    exact (hMode hLoose).2 (by omega)
  rcases k with _ | _ | _ | _ | _ | _ | _ | _ | _ | _ | k
  · cases hAt
    rfl
  · cases hAt
    simpa [Stage.removable, Folder.removable] using hArchiveAt 0 _ rfl rfl
  · cases hAt
    simpa [Stage.removable, Folder.removable] using hArchiveAt 1 _ rfl rfl
  · cases hAt
    simpa [Stage.removable, Folder.removable] using hArchiveAt 2 _ rfl rfl
  · cases hAt
    simpa [Stage.removable, Folder.removable] using hWhole
  · cases hAt
    simpa [Stage.removable, Folder.removable, hWhole] using hManifestAt 0 _ rfl rfl
  · cases hAt
    simpa [Stage.removable, Folder.removable, hWhole] using hManifestAt 1 _ rfl rfl
  · cases hAt
    simpa [Stage.removable, Folder.removable, hWhole] using hManifestAt 2 _ rfl rfl
  · cases hAt
    simp [Stage.removable, Folder.removable, hWhole, hManifest]
  · cases hAt
    simp [Stage.removable, Folder.removable, Publish.folder, hWhole, hManifest]
  · cases hAt

theorem length_pointerText (name : Digest) : (pointerText name).length ≤ 256 := by
  have hLength : name.val.length = 64 := by
    have hHex := name.property
    unfold isHex at hHex
    simp only [Bool.and_eq_true, decide_eq_true_eq] at hHex
    exact hHex.1
  unfold pointerText
  rw [List.length_map, List.length_append, List.length_append, hLength]
  decide

theorem pointers_removable {p : Publish} {m : Manifest} {k : ℕ} {stage : Stage}
    (hAt : (p.pointers m)[k]? = some stage)
    (hMode : p.loose = true → k ≠ 0) : stage.removable = true := by
  unfold Publish.pointers at hAt
  rw [List.getElem?_map] at hAt
  obtain ⟨file, hFile, rfl⟩ := Option.map_eq_some_iff.mp hAt
  exact writing_fits hFile hMode (length_pointerText m.archive)

theorem emptied_removable {stage left : Stage} {archiveFirst : Bool} (hRemovable : stage.removable = true)
    (hLeft : left ∈ stage.emptied archiveFirst) : left.removable = true := by
  cases stage with
  | pointer file => cases hLeft
  | folder dir =>
    rcases dir with ⟨manifest, archive, exact⟩
    obtain ⟨dir, hDir, rfl⟩ := List.mem_map.mp hLeft
    simp only [Stage.removable, Folder.removable, Bool.and_eq_true] at hRemovable ⊢
    unfold emptied at hDir
    cases manifest with
    | none =>
      cases archive with
      | none => cases hDir
      | some archive =>
        cases List.mem_singleton.mp hDir
        exact ⟨rfl, rfl⟩
    | some manifest =>
      cases archive with
      | none =>
        cases List.mem_singleton.mp hDir
        exact ⟨rfl, rfl⟩
      | some archive =>
        cases archiveFirst with
        | true =>
          rcases List.mem_cons.mp hDir with rfl | hDir
          · exact ⟨hRemovable.1, rfl⟩
          · cases List.mem_singleton.mp hDir
            exact ⟨rfl, rfl⟩
        | false =>
          rcases List.mem_cons.mp hDir with rfl | hDir
          · exact ⟨rfl, hRemovable.2⟩
          · cases List.mem_singleton.mp hDir
            exact ⟨rfl, rfl⟩

theorem length_emptied {folder : Folder} {name : Digest} (h : (folder.release c name).isSome = true)
    (archiveFirst : Bool) : (emptied folder archiveFirst).length = 2 := by
  obtain ⟨m, hRelease⟩ := Option.isSome_iff_exists.mp h
  obtain ⟨manifest, archive, rfl, -⟩ := Folder.release_iff.mp hRelease
  cases archiveFirst <;> rfl

-- Clean Roots

/- Every version is complete, and every stage can be removed. -/
structure Clean (c : Checks F) (root : Root) : Prop where
  whole : ∀ name folder, root.versions.get name = some folder → (folder.release c name).isSome = true
  stages : ∀ id stage, root.stages.get id = some stage → stage.removable = true

/-
  After how many changes of `publish` a file has been created
  whose mode has not been set.
-/
def unset (root : Root) (m : Manifest) : List ℕ :=
  if (root.versions.get m.archive).isSome then [1] else [2, 6, 12]

/- The command is not cut after so many changes, where it may be cut. -/
def Spared (c : Checks F) (root : Root) (command : Command) (n : ℕ) : Prop := match command with
  | .publish p => ∀ m, p.manifest c = some m → p.loose = true → n ∉ unset root m
  | .retire _ _ => n ≠ 1 ∧ n ≠ 2
  | .retireStage _ _ => True

/-
  A crash does not fall between the files of a version that is
  retired, nor between the creation of a file and its mode
  where the two differ.
-/
def Guard (c : Checks F) (root : Root) (input : Input) : Prop := ∀ n, input.crash = some n →
    (plan c root input.command).isSome = true → Spared c root input.command n

theorem clean_empty : Clean c Root.empty where
  whole := fun name folder h => by cases h
  stages := fun id stage h => by cases h

theorem Clean.setStage (hClean : Clean c root) {id : StageId} {stage : Stage}
    (hStage : stage.removable = true) : Clean c (root.setStage id stage) := by
  refine ⟨hClean.whole, fun id' stage' h => ?_⟩
  simp only [Root.setStage, Dict.get_set] at h
  split at h
  · cases h
    exact hStage
  · exact hClean.stages id' stage' h

theorem Clean.popStage (hClean : Clean c root) (id : StageId) : Clean c (root.popStage id) := by
  refine ⟨hClean.whole, fun id' stage h => ?_⟩
  simp only [Root.popStage, Dict.get_pop] at h
  split at h
  · cases h
  · exact hClean.stages id' stage h

theorem Clean.popVersion (hClean : Clean c root) (name : Digest) : Clean c (root.popVersion name) := by
  refine ⟨fun name' folder h => ?_, hClean.stages⟩
  simp only [Root.popVersion, Dict.get_pop] at h
  split at h
  · cases h
  · exact hClean.whole name' folder h

theorem Clean.retained {p : Publish} {m : Manifest} (hClean : Clean c root)
    (hAdmitted : Admitted c root p m) : Clean c (p.retained root m) := by
  unfold Publish.retained
  split
  · exact hClean
  · refine ⟨fun name folder h => ?_, hClean.stages⟩
    simp only [Root.setVersion, Dict.get_set] at h
    split at h
    · rename_i hName
      cases h
      rw [← hName, hAdmitted.folder_release]
      rfl
    · exact hClean.whole name folder h

theorem publish_length {p : Publish} {changes : List Change} (h : publish c root p = some changes) :
    ∃ m, p.manifest c = some m ∧ changes.length = if (root.versions.get m.archive).isSome then 5 else 16 := by
  obtain ⟨m, hAdmitted, rfl⟩ := publish_eq_some h
  refine ⟨m, hAdmitted.asked, ?_⟩
  split <;> rfl

theorem publishCut_clean {p : Publish} {m : Manifest} {n : ℕ} {left : Root}
    (hClean : Clean c root) (hAdmitted : Admitted c root p m)
    (hMode : p.loose = true → n ∉ unset root m)
    (hCut : PublishCut root p m n left) : Clean c left := by
  cases hCut with
  | untouched => exact hClean
  | staged hNew hAt hStage =>
    refine hClean.setStage (stages_removable hStage ?_
      (manifest_eq_some hAdmitted.asked).1 hAdmitted.package_length)
    intro hLoose
    have hNot := hMode hLoose
    simp only [unset, hNew, hAt, Option.isSome_none, Bool.false_eq_true, if_false, List.mem_cons,
      List.not_mem_nil, or_false, not_or] at hNot
    omega
  | retained => exact hClean.retained hAdmitted
  | pointed hAt hStage =>
    refine (hClean.retained hAdmitted).setStage (pointers_removable hStage ?_)
    rintro hLoose rfl
    refine hMode hLoose ?_
    rw [hAt]
    unfold unset Publish.offset
    split
    · exact List.mem_singleton.mpr rfl
    · simp [Publish.stages, writing]
  | selected =>
    have hRetained := hClean.retained hAdmitted
    exact ⟨hRetained.whole, hRetained.stages⟩

theorem retireCut_clean {selector : PyStr} {archiveFirst : Bool} {name : Digest}
    {folder : Folder} {n : ℕ} {left : Root} (hClean : Clean c root)
    (hRetired : Retired c root selector name folder) (hFirst : n ≠ 1) (hSecond : n ≠ 2)
    (hCut : RetireCut root name folder archiveFirst n left) : Clean c left := by
  cases hCut with
  | untouched => exact hClean
  | @halved k _ hAt hLeft =>
    exfalso
    have hBound := (List.getElem?_eq_some_iff.mp hLeft).1
    rw [length_emptied hRetired.whole] at hBound
    omega
  | removed => exact hClean.popVersion name

theorem step_clean (hClean : Clean c root) (input : Input)
    (hGuard : Guard c root input) : Clean c (step c root input).2 := by
  rcases step_cases c root input with hRefused | ⟨changes, hPlan, hLeft⟩
  · rw [hRefused]
    exact hClean
  · rw [hLeft]
    rcases input with ⟨command, crash⟩
    have hSpared : ∀ n, crash = some n → Spared c root command n :=
      fun n hCrash => hGuard n hCrash (by rw [hPlan]; rfl)
    cases command with
    | publish p =>
      obtain ⟨m, hAdmitted, hCut⟩ := publish_cut hPlan _
      refine publishCut_clean hClean hAdmitted (fun hLoose => ?_) hCut
      cases crash with
      | some n => exact hSpared n rfl m hAdmitted.asked hLoose
      | none =>
        obtain ⟨m', hAsked, hLength⟩ := publish_length hPlan
        cases hAdmitted.asked.symm.trans hAsked
        dsimp only [Option.getD_none]
        rw [hLength]
        unfold unset
        split <;> decide
    | retire selector archiveFirst =>
      obtain ⟨name, folder, hRetired, hCut⟩ := retire_cut hPlan _
      have hNot : crash.getD changes.length ≠ 1 ∧ crash.getD changes.length ≠ 2 := by
        cases crash with
        | some n => exact hSpared n rfl
        | none =>
          obtain ⟨name', folder', hRetired', rfl⟩ := retire_eq_some hPlan
          have hTwo := length_emptied hRetired'.whole archiveFirst
          simp [putting, hTwo]
      exact retireCut_clean hClean hRetired hNot.1 hNot.2 hCut
    | retireStage selector archiveFirst =>
      obtain ⟨id, stage, hGet, hRemovable, hCut⟩ := retireStage_cut hPlan _
      rcases hCut with hEq | ⟨left, hLeft, hEq⟩ | hEq
      · rw [hEq]
        exact hClean
      · rw [hEq]
        exact hClean.setStage (emptied_removable hRemovable hLeft)
      · rw [hEq]
        exact hClean.popStage id

-- The Law

/- What holds of a root that commands and crashes have led to. -/
structure Law (c : Checks F) (root : Root) : Prop where
  valid : ∀ name, root.current = some name → ∃ m manifest archive, openRelease c root = some m ∧
      m.archive = name ∧
      root.versions.get name = some ⟨some manifest, some archive, true⟩ ∧
      c.manifest manifest.raw = some m ∧
      verifyArchive c archive.raw m = true
  stays : ∀ input, root.current.isSome = true → (step c root input).2.current.isSome = true
  trust : ∀ input current next, openRelease c root = some current →
    openRelease c (step c root input).2 = some next →
      (next.publisher = current.publisher ∧ next.scope = current.scope) ∨ Replaces input.command current
  production : ∀ inputs current, openRelease c root = some current → current.scope = .production →
      ∃ next, openRelease c (finalState (step c) root inputs) = some next ∧
        next.publisher = current.publisher ∧ next.scope = .production
  few : root.versions.length ≤ 2
  keeps : ∀ name archiveFirst crash, root.current = some name →
    step c root ⟨.retire name.val archiveFirst, crash⟩ = (.refused, root)
  stage : ∀ id archiveFirst, (root.stages.get id).isSome = true →
      step c root ⟨.retireStage id.val archiveFirst, none⟩ = (.finished, root.popStage id)
  version : ∀ name current archiveFirst, root.current = some current →
    (root.versions.get name).isSome = true →
    name ≠ current → step c root ⟨.retire name.val archiveFirst, none⟩ = (.finished, root.popVersion name)
  again : root.stages = [] → admits c root = true

theorem retire_current {name : Digest} (h : root.current = some name) (archiveFirst : Bool)
    (crash : Option ℕ) :
    step c root ⟨.retire name.val archiveFirst, crash⟩ = (.refused, root) := by
  have hRefused : retire c root name.val archiveFirst = none := by
    cases hRetire : retire c root name.val archiveFirst with
    | none => rfl
    | some changes =>
      obtain ⟨name', _, hRetired, -⟩ := retire_eq_some hRetire
      cases Subtype.ext hRetired.selector
      exact absurd h hRetired.other
  simp only [step, plan, hRefused]

theorem retireStage_finishes (hClean : Clean c root) {id : StageId} (h : (root.stages.get id).isSome = true)
    (archiveFirst : Bool) :
    step c root ⟨.retireStage id.val archiveFirst, none⟩ = (.finished, root.popStage id) := by
  obtain ⟨stage, hGet⟩ := Option.isSome_iff_exists.mp h
  have hPlan : retireStage root id.val archiveFirst =
        some (putting (Root.setStage · id) (stage.emptied archiveFirst) ++ [dropStage id]) := by
    unfold retireStage
    rw [Hex.of?_val]
    dsimp only
    rw [hGet]
    dsimp only
    rw [if_pos (hClean.stages id stage hGet)]
  have hDone : perform (putting (Root.setStage · id) (stage.emptied archiveFirst) ++ [dropStage id])
        ((stage.emptied archiveFirst).length + 1) root =
        (true, root.popStage id) :=
    perform_dropped (Root.setStage · id) (Root.popStage · id) (fun s x => popStage_setStage s id x) _ root
  have hLength : (putting (Root.setStage · id) (stage.emptied archiveFirst) ++ [dropStage id]).length =
        (stage.emptied archiveFirst).length + 1 := by
    simp [putting]
  simp only [step, plan, hPlan, Option.getD_none, hLength, hDone, if_true]

theorem retire_finishes (hSound : Sound c root)
    (hClean : Clean c root) {name current : Digest} (hCurrent : root.current = some current)
    (h : (root.versions.get name).isSome = true) (hOther : name ≠ current)
    (archiveFirst : Bool) :
    step c root ⟨.retire name.val archiveFirst, none⟩ = (.finished, root.popVersion name) := by
  obtain ⟨folder, hGet⟩ := Option.isSome_iff_exists.mp h
  obtain ⟨m, hOpen, hName, -⟩ := hSound.opens hCurrent
  have hPlan : retire c root name.val archiveFirst = some (putting (Root.setVersion · name)
            (emptied folder archiveFirst) ++ [dropVersion name]) := by
    unfold retire
    rw [Hex.of?_val]
    dsimp only
    rw [hOpen, hGet]
    dsimp only
    rw [if_pos]
    exact ⟨fun hEq => hOther (hEq.symm.trans hName), hClean.whole name folder hGet⟩
  have hDone : perform (putting (Root.setVersion · name) (emptied folder archiveFirst) ++ [dropVersion name])
        ((emptied folder archiveFirst).length + 1) root =
        (true, root.popVersion name) :=
    perform_dropped (Root.setVersion · name) (Root.popVersion · name)
      (fun s x => popVersion_setVersion s name x) _ root
  have hLength : (putting (Root.setVersion · name) (emptied folder archiveFirst) ++
          [dropVersion name]).length =
        (emptied folder archiveFirst).length + 1 := by
    simp [putting]
  simp only [step, plan, hPlan, Option.getD_none, hLength, hDone, if_true]

theorem Sound.law (hSound : Sound c root) (hClean : Clean c root) : Law c root where
  valid := by
    intro name hName
    obtain ⟨m, hOpen, hArchive, hRelease⟩ := hSound.opens hName
    obtain ⟨folder, hGet, hFolder⟩ := release_eq_some hRelease
    obtain ⟨manifest, archive, rfl, -, -, hValid, -, hVerified⟩ := Folder.release_iff.mp hFolder
    exact ⟨m, manifest, archive, hOpen, hArchive, hGet, hValid, hVerified⟩
  stays := by
    intro input hSome
    cases step_moves c root input with
    | kept hCurrent _ =>
      rw [hCurrent]
      exact hSome
    | selected p m _ _ hCurrent _ =>
      rw [hCurrent]
      rfl
  trust := by
    intro input current next hOpen hNext
    obtain ⟨next', hNext', hTrust⟩ := trust_step input hOpen
    cases hNext.symm.trans hNext'
    exact hTrust
  production := fun inputs current hOpen hProduction =>
    production_stays hOpen hProduction inputs
  few := hSound.few
  keeps := fun name archiveFirst crash h => retire_current h archiveFirst crash
  stage := fun id archiveFirst h => retireStage_finishes hClean h archiveFirst
  version := fun name current archiveFirst hCurrent h hOther =>
    retire_finishes hSound hClean hCurrent h hOther archiveFirst
  again := by
    intro hIdle
    refine admits_iff.mpr ⟨hSound.few, hIdle, ?_⟩
    rintro ⟨name, folder⟩ hMem
    exact hClean.whole name folder (Dict.get_of_mem hSound.nodup hMem)

/-
  Where no crash falls between the files of a version that is
  retired, or between a file and its mode, the pointer is
  valid, its trust changes only for a lab release that is
  named, and what a crash leaves can be removed.
-/
theorem distribution_law {h : List (Input × Outcome)}
    (hTrace : Trace (step c) (Guard c) Root.empty h root) : Law c root := by
  have hInv : Sound c root ∧ Clean c root := hTrace.invariant (I := fun root => Sound c root ∧ Clean c root)
      ⟨sound_empty, clean_empty⟩
      (fun _ input hInv hGuard => ⟨step_sound hInv.1 input, step_clean hInv.2 input hGuard⟩)
  exact hInv.1.law hInv.2

-- Runs

def digestOf (k : Fin 10) : Digest := ⟨List.replicate 64 (48 + k.val), by revert k; decide⟩

def stageOf (k : Fin 10) : StageId := ⟨List.replicate 32 (48 + k.val), by revert k; decide⟩

def publisherOf (scope : Scope) : PyStr := match scope with
  | .lab => List.replicate 40 65
  | .production => List.replicate 40 66

def scopeOf (k : ℕ) : Scope := if k < 5 then .lab else .production

def artifactOf (k : Fin 10) : Artifact where
  version := pyStr "p6-agent-source-1-" ++ (digestOf k).val.take 16
  sha256 := digestOf k
  size := 1

def recordJson (k : Fin 10) (size : ℤ) : Json Unit :=
  .obj [(pyStr "sha256", .str (digestOf k).val), (pyStr "size", .int size)]

/- The record of a release, its archive of 22 bytes and `k` more. -/
def manifestJson (k : Fin 10) : Json Unit := .obj [(pyStr "v", .int 1),
    (pyStr "kind", .str (pyStr "p6-windows-distribution/1")),
    (pyStr "scope", .str (match scopeOf k with
      | .lab => pyStr "lab"
      | .production => pyStr "production")),
    (pyStr "publisher", .str (publisherOf (scopeOf k))),
    (pyStr "installation", .str (pyStr "P6RemoteProbe")),
    (pyStr "timestamped", .bool true),
    (pyStr "release", .str (digestOf k).val),
    (pyStr "artifact", .obj [(pyStr "v", .int 1), (pyStr "version", .str (artifactOf k).version),
      (pyStr "sha256", .str (digestOf k).val),
      (pyStr "size", .int 1)]),
    (pyStr "archive", recordJson k (22 + k.val)),
    (pyStr "files", .obj (requiredFiles.map (fun name => (name, recordJson k 1))))]

/- An end of central directory that follows `k` bytes. -/
def archiveOf (k : Fin 10) : Bytes := List.replicate k.val 0 ++
    [80, 75, 5, 6, 0, 0, 0, 0, 8, 0, 8, 0, 0, 0, 0, 0, UInt8.ofNat k.val, 0, 0, 0, 0, 0]

/- Manifests and archives are told by their lengths. -/
def numbered : Checks Unit where
  sha256 := fun raw =>
    (digestOf (Fin.ofNat 10 (if raw.length < 22 then raw.length else raw.length - 22))).val
  objectJson := fun raw => some (manifestJson (Fin.ofNat 10 raw.length))
  inventory := fun _ _ => true

def publishing (k : Fin 10) (promoteLab : Option Lab) : Publish where
  expectedDigest := (digestOf k).val
  publisher := publisherOf (scopeOf k)
  scope := scopeOf k
  artifact := artifactOf k
  replaceLab := none
  promoteLab := promoteLab
  raw := List.replicate k.val 123
  package := archiveOf k
  stage := stageOf 0
  pointer := stageOf 1
  written := 0
  loose := false

/- The promotion of a lab crashes, and is made again. -/
def promoted : List Input :=
  let promotion := publishing 6 (some ⟨publisherOf .lab, (digestOf 1).val⟩)
  [⟨.publish (publishing 1 none), none⟩, ⟨.publish promotion, some 5⟩,
    ⟨.retireStage (stageOf 0).val true, none⟩,
    ⟨.publish promotion, none⟩]

theorem distribution_law_promoted : (openRelease numbered
        (finalState (step numbered) Root.empty promoted)).map
        Manifest.scope = some .production ∧
      Law numbered (finalState (step numbered) Root.empty promoted) := by
  refine ⟨by decide, distribution_law (trace_guarded ?_)⟩
  have hUncut : ∀ root command, Guard numbered root ⟨command, none⟩ := fun root command n h => by cases h
  refine ⟨hUncut _ _, ?_, hUncut _ _, hUncut _ _, trivial⟩
  intro n h _ m _ hLoose
  cases hLoose

/- The retirement of the other version crashes between its files. -/
def halfRetired : Root := finalState (step numbered) Root.empty
    [⟨.publish (publishing 1 none), none⟩, ⟨.publish (publishing 2 none), none⟩,
      ⟨.retire (digestOf 1).val true, some 1⟩]

theorem halfRetired_refused : halfRetired.current = some (digestOf 2) ∧
      (halfRetired.versions.get (digestOf 1)).isSome = true ∧
      (step numbered halfRetired ⟨.retire (digestOf 1).val true, none⟩).1 = .refused := by
  decide

theorem distribution_law_fails : ¬ ∀ (F : Type) (c : Checks F) (inputs : List Input),
      Law c (finalState (step c) Root.empty inputs) := by
  intro h
  obtain ⟨hCurrent, hStored, hRefused⟩ := halfRetired_refused
  have hLaw : Law numbered halfRetired := h Unit numbered _
  have hFinishes := hLaw.version (digestOf 1) (digestOf 2) true hCurrent hStored (by decide)
  rw [hFinishes] at hRefused
  cases hRefused

end SingboxOps.Distribution
