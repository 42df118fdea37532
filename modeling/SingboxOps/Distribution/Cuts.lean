import SingboxOps.Distribution.Store

/-
  What a command leaves behind, wherever it is cut.
-/

namespace SingboxOps.Distribution

variable {F : Type} {c : Checks F} {root : Root}

-- Roots

section Roots

variable (root) (name : Digest) (id : StageId)

@[simp] theorem setStage_setStage (stage stage' : Stage) :
    (root.setStage id stage).setStage id stage' = root.setStage id stage' := by
  simp [Root.setStage, Dict.set_set]

@[simp] theorem popStage_setStage
    (stage : Stage) : (root.setStage id stage).popStage id = root.popStage id := by
  simp [Root.setStage, Root.popStage, Dict.pop_set]

@[simp] theorem setVersion_setVersion (folder folder' : Folder) :
    (root.setVersion name folder).setVersion name folder' = root.setVersion name folder' := by
  simp [Root.setVersion, Dict.set_set]

@[simp] theorem popVersion_setVersion (folder : Folder) :
    (root.setVersion name folder).popVersion name = root.popVersion name := by
  simp [Root.setVersion, Root.popVersion, Dict.pop_set]

end Roots

theorem popStage_of_idle (hIdle : root.stages = []) (id : StageId) : root.popStage id = root := by
  cases root
  cases hIdle
  rfl

theorem release_eq_some {name : Digest} {m : Manifest} (h : root.release c name = some m) :
    ∃ folder, root.versions.get name = some folder ∧ folder.release c name = some m :=
  Option.bind_eq_some_iff.mp h

/- A version is complete, and both of its files verify. -/
theorem Folder.release_iff {folder : Folder} {name : Digest} {m : Manifest} :
    folder.release c name = some m ↔ ∃ manifest archive,
        folder = ⟨some manifest, some archive, true⟩ ∧ manifest.fits MAX_MANIFEST = true ∧
          archive.fits MAX_ARCHIVE = true ∧
          c.manifest manifest.raw = some m ∧
          m.archive = name ∧
          verifyArchive c archive.raw m = true := by
  rcases folder with ⟨manifest, archive, exact⟩
  unfold Folder.release
  cases manifest with
  | none => simp
  | some manifest =>
    cases archive with
    | none => simp
    | some archive =>
      cases hValid : c.manifest manifest.raw with
      | none => simp [hValid]
      | some valid =>
        simp only [hValid]
        constructor
        · intro h
          split at h
          · rename_i hFits
            simp only [Bool.and_eq_true] at hFits
            obtain ⟨⟨hExact, hManifest⟩, hArchive⟩ := hFits
            subst hExact
            split at h
            · rename_i hSame
              cases h
              exact ⟨manifest, archive, rfl, hManifest, hArchive, hValid, hSame⟩
            · cases h
          · cases h
        · rintro ⟨_, _, hEq, hManifest, hArchive, hValid', hSame⟩
          cases hEq
          cases hValid.symm.trans hValid'
          rw [if_pos (by simp [hManifest, hArchive]), if_pos hSame]

theorem Folder.release_archive {folder : Folder} {name : Digest} {m : Manifest}
    (h : folder.release c name = some m) : m.archive = name := by
  obtain ⟨_, _, _, _, _, _, hName, _⟩ := Folder.release_iff.mp h
  exact hName

theorem openRelease_eq_some {m : Manifest} (h : openRelease c root = some m) :
    root.current = some m.archive ∧ root.release c m.archive = some m := by
  obtain ⟨name, hCurrent, hRelease⟩ := Option.bind_eq_some_iff.mp h
  obtain ⟨folder, -, hFolder⟩ := release_eq_some hRelease
  cases Folder.release_archive hFolder
  exact ⟨hCurrent, hRelease⟩

theorem openRelease_of_current {name : Digest}
    (h : root.current = some name) : openRelease c root = root.release c name := by
  rw [openRelease, h]
  rfl

-- Publish

/- What `publish` has checked before its first change. -/
structure Admitted (c : Checks F) (root : Root) (p : Publish) (m : Manifest) : Prop where
  formed : p.wellFormed = true
  asked : p.manifest c = some m
  admits : admits c root = true
  trusts : trusts c root p m = true
  fits : fitsIn c root p m = true
  verified : verifyArchive c p.package m = true

theorem publish_eq_some {p : Publish} {changes : List Change} (h : publish c root p = some changes) :
    ∃ m, Admitted c root p m ∧ changes = (if (root.versions.get m.archive).isSome then []
          else stagePlan p m) ++ pointerPlan p m := by
  unfold publish at h
  split at h
  · rename_i hFormed
    split at h
    · cases h
    · rename_i m hAsked
      split at h
      · rename_i hChecks
        simp only [Bool.and_eq_true] at hChecks
        cases h
        exact ⟨m, ⟨hFormed, hAsked, hChecks.1.1.1, hChecks.1.1.2, hChecks.1.2, hChecks.2⟩, rfl⟩
      · cases h
  · cases h

theorem manifest_eq_some {p : Publish} {m : Manifest} (h : p.manifest c = some m) :
    p.raw.length ≤ MAX_MANIFEST ∧ c.manifest p.raw = some m ∧
      m.publisher = p.publisher ∧ m.scope = p.scope := by
  unfold Publish.manifest at h
  split at h
  · rename_i hRaw
    simp only [Bool.and_eq_true, decide_eq_true_eq] at hRaw
    split at h
    · cases h
    · rename_i valid hValid
      split at h
      · rename_i hSame
        cases h
        exact ⟨hRaw.1, hValid, hSame.1, hSame.2.1⟩
      · cases h
  · cases h

theorem admits_iff : admits c root = true ↔ root.versions.length ≤ 2 ∧ root.stages = [] ∧
        ∀ e ∈ root.versions, (e.2.release c e.1).isSome = true := by
  simp [admits, and_assoc]

namespace Admitted

variable {p : Publish} {m : Manifest}

theorem idle (h : Admitted c root p m) : root.stages = [] := (admits_iff.mp h.admits).2.1

theorem package_length (h : Admitted c root p m) : p.package.length ≤ MAX_ARCHIVE :=
  length_of_verifyArchive h.verified

theorem folder_release (h : Admitted c root p m) : p.folder.release c m.archive = some m := by
  obtain ⟨hLength, hValid, -⟩ := manifest_eq_some h.asked
  exact Folder.release_iff.mpr ⟨_, _, rfl, by simp [File.fits, hLength],
    by simp [File.fits, h.package_length],
    hValid, rfl, h.verified⟩

theorem retained_release (h : Admitted c root p m) {folder : Folder}
    (hGet : root.versions.get m.archive = some folder) :
    folder.release c m.archive = some m := by
  have hWhole := (admits_iff.mp h.admits).2.2 _ (Dict.mem_of_get hGet)
  obtain ⟨m', hRelease⟩ := Option.isSome_iff_exists.mp hWhole
  obtain ⟨manifest, archive, rfl, -, -, hValid', -, -⟩ := Folder.release_iff.mp hRelease
  have hFits := h.fits
  simp only [fitsIn, hGet, Bool.and_eq_true, decide_eq_true_eq, Option.map_some, Option.some.injEq] at hFits
  obtain ⟨-, hValid, -⟩ := manifest_eq_some h.asked
  rw [hFits.1, hValid] at hValid'
  cases hValid'
  exact hRelease

end Admitted

/- The root with the version that is published. -/
def Publish.retained (p : Publish) (root : Root) (m : Manifest) : Root :=
  if (root.versions.get m.archive).isSome then root
  else root.setVersion m.archive p.folder

/- The changes before the ones of the pointer. -/
def Publish.offset (p : Publish) (root : Root) (m : Manifest) : ℕ :=
  if (root.versions.get m.archive).isSome then 0
  else p.stages.length + 1

inductive PublishCut (root : Root) (p : Publish) (m : Manifest) (n : ℕ) : Root → Prop where
  | untouched : PublishCut root p m n root
  | staged {k : ℕ} {stage : Stage} :
      root.versions.get m.archive = none →
      n = k + 1 →
      p.stages[k]? = some stage →
      PublishCut root p m n (root.setStage p.stage stage)
  | retained : PublishCut root p m n (p.retained root m)
  | pointed {k : ℕ} {stage : Stage} :
      n = p.offset root m + (k + 1) →
      (p.pointers m)[k]? = some stage →
      PublishCut root p m n ((p.retained root m).setStage p.pointer stage)
  | selected :
      PublishCut root p m n { p.retained root m with current := some m.archive }

theorem pointerPlan_cut (p : Publish) (m : Manifest) (hIdle : root.stages = []) (n : ℕ) :
    (perform (pointerPlan p m) n root).2 = root ∨ (∃ k stage, n = k + 1 ∧ (p.pointers m)[k]? = some stage ∧
        (perform (pointerPlan p m) n root).2 = root.setStage p.pointer stage) ∨
      (perform (pointerPlan p m) n root).2 = { root with current := some m.archive } := by
  have hCut := perform_dropping (Root.setStage · p.pointer) (fun s x y => setStage_setStage s p.pointer x y)
      (fun root => { root.popStage p.pointer with current := some m.archive })
      (fun s x => by rw [popStage_setStage])
      (p.pointers m) n root
  rw [popStage_of_idle hIdle] at hCut
  rcases hCut with ⟨-, hStart⟩ | hCut | hEnd
  · exact .inl hStart
  · exact .inr (.inl hCut)
  · exact .inr (.inr hEnd)

theorem renameStage_of_folder {p : Publish} {m : Manifest} (hIdle : root.stages = [])
    (hNew : root.versions.get m.archive = none) : renameStage p.stage m.archive
        (root.setStage p.stage (.folder p.folder)) =
      some (root.setVersion m.archive p.folder) := by
  have hStage : (root.setStage p.stage (.folder p.folder)).stages.get p.stage = some (.folder p.folder) := by
    simp [Root.setStage]
  have hVersion : (root.setStage p.stage (.folder p.folder)).versions.get m.archive = none := hNew
  simp only [renameStage, hStage, hVersion, popStage_setStage, popStage_of_idle hIdle]

theorem publish_cut {p : Publish} {changes : List Change} (h : publish c root p = some changes) (n : ℕ) :
    ∃ m, Admitted c root p m ∧ PublishCut root p m n (perform changes n root).2 := by
  obtain ⟨m, hAdmitted, rfl⟩ := publish_eq_some h
  refine ⟨m, hAdmitted, ?_⟩
  have hIdle := hAdmitted.idle
  cases hGet : root.versions.get m.archive with
  | some folder =>
    have hSame : p.retained root m = root := by simp [Publish.retained, hGet]
    have hOffset : p.offset root m = 0 := by simp [Publish.offset, hGet]
    rw [Option.isSome_some, if_pos rfl, List.nil_append]
    rcases pointerPlan_cut p m hIdle n with
      hEq | ⟨k, stage, hAt, hStage, hEq⟩ | hEq
    · rw [hEq]
      exact .untouched
    · have hPointed : (perform (pointerPlan p m) n root).2 =
            (p.retained root m).setStage p.pointer stage := by
        rw [hEq, hSame]
      rw [hPointed]
      refine .pointed (k := k) ?_ hStage
      rw [hOffset, hAt, Nat.zero_add]
    · have hSelected : (perform (pointerPlan p m) n root).2 =
            { p.retained root m with current := some m.archive } := by
        rw [hEq, hSame]
      rw [hSelected]
      exact .selected
  | none =>
    have hRetained : p.retained root m = root.setVersion m.archive p.folder := by
      simp [Publish.retained, hGet]
    have hOffset : p.offset root m = p.stages.length + 1 := by simp [Publish.offset, hGet]
    rw [Option.isSome_none, if_neg Bool.false_ne_true, stagePlan, List.append_assoc]
    rcases perform_putting (Root.setStage · p.stage) (fun s x y => setStage_setStage s p.stage x y)
        p.stages ([renameStage p.stage m.archive] ++ pointerPlan p m)
        n root with
      ⟨-, hEq⟩ | ⟨k, stage, hAt, hStage, hEq⟩ | ⟨k, hAt, hEq⟩
    · rw [hEq]
      exact .untouched
    · rw [hEq]
      exact .staged hGet hAt hStage
    · have hLast : p.stages.foldl (Root.setStage · p.stage) root = root.setStage p.stage (.folder p.folder) :=
        foldl_put_concat (Root.setStage · p.stage) (fun s x y => setStage_setStage s p.stage x y) _ _ root
      rw [hEq, hLast, List.singleton_append, perform, renameStage_of_folder hIdle hGet, ← hRetained]
      have hIdle' : (p.retained root m).stages = [] := by
        rw [hRetained]
        exact hIdle
      rcases pointerPlan_cut p m hIdle' k with
        hEq | ⟨j, stage, hAt', hStage, hEq⟩ | hEq
      · dsimp only
        rw [hEq]
        exact .retained
      · dsimp only
        rw [hEq]
        refine .pointed (k := j) ?_ hStage
        rw [hOffset, hAt, hAt']
        omega
      · dsimp only
        rw [hEq]
        exact .selected

-- Retire

/- What `retire` has checked of a version. -/
structure Retired (c : Checks F) (root : Root) (selector : PyStr) (name : Digest)
    (folder : Folder) : Prop where
  selector : selector = name.val
  stored : root.versions.get name = some folder
  whole : (folder.release c name).isSome = true
  other : root.current ≠ some name
  pointed : root.current.isSome = true

theorem retire_eq_some {selector : PyStr} {archiveFirst : Bool} {changes : List Change}
    (h : retire c root selector archiveFirst = some changes) :
    ∃ name folder, Retired c root selector name folder ∧ changes =
        putting (Root.setVersion · name) (emptied folder archiveFirst) ++ [dropVersion name] := by
  unfold retire at h
  split at h
  · cases h
  · rename_i name hName
    split at h
    · rename_i current folder hOpen hGet
      split at h
      · rename_i hChecks
        cases h
        obtain ⟨hCurrent, -⟩ := openRelease_eq_some hOpen
        refine ⟨name, folder, ⟨Hex.of?_eq_some hName, hGet, hChecks.2, ?_, by rw [hCurrent]; rfl⟩, rfl⟩
        intro hEq
        rw [hCurrent] at hEq
        exact hChecks.1 (Option.some.inj hEq)
      · cases h
    · cases h

inductive RetireCut (root : Root) (name : Digest) (folder : Folder) (archiveFirst : Bool)
    (n : ℕ) : Root → Prop where
  | untouched : RetireCut root name folder archiveFirst n root
  | halved {k : ℕ} {left : Folder} :
      n = k + 1 →
      (emptied folder archiveFirst)[k]? = some left →
      RetireCut root name folder archiveFirst n (root.setVersion name left)
  | removed : RetireCut root name folder archiveFirst n (root.popVersion name)

theorem retire_cut {selector : PyStr} {archiveFirst : Bool} {changes : List Change}
    (h : retire c root selector archiveFirst = some changes)
    (n : ℕ) :
    ∃ name folder, Retired c root selector name folder ∧
      RetireCut root name folder archiveFirst n (perform changes n root).2 := by
  obtain ⟨name, folder, hRetired, rfl⟩ := retire_eq_some h
  refine ⟨name, folder, hRetired, ?_⟩
  rcases perform_dropping (Root.setVersion · name) (fun s x y => setVersion_setVersion s name x y)
      (Root.popVersion · name)
      (fun s x => popVersion_setVersion s name x)
      (emptied folder archiveFirst) n root with
    ⟨-, hEq⟩ | ⟨k, left, hAt, hLeft, hEq⟩ | hEq
  · exact Eq.subst (motive := RetireCut root name folder archiveFirst n) hEq.symm .untouched
  · exact Eq.subst (motive := RetireCut root name folder archiveFirst n) hEq.symm (.halved hAt hLeft)
  · exact Eq.subst (motive := RetireCut root name folder archiveFirst n) hEq.symm .removed

theorem retireStage_eq_some {selector : PyStr} {archiveFirst : Bool} {changes : List Change}
    (h : retireStage root selector archiveFirst = some changes) :
    ∃ id stage, root.stages.get id = some stage ∧ stage.removable = true ∧ changes =
        putting (Root.setStage · id) (stage.emptied archiveFirst) ++ [dropStage id] := by
  unfold retireStage at h
  split at h
  · cases h
  · rename_i id hId
    split at h
    · cases h
    · rename_i stage hGet
      split at h
      · rename_i hRemovable
        cases h
        exact ⟨id, stage, hGet, hRemovable, rfl⟩
      · cases h

/- A stage is emptied and goes; nothing else changes. -/
theorem retireStage_cut {selector : PyStr} {archiveFirst : Bool} {changes : List Change}
    (h : retireStage root selector archiveFirst = some changes)
    (n : ℕ) :
    ∃ id stage, root.stages.get id = some stage ∧ stage.removable = true ∧
      ((perform changes n root).2 = root ∨ (∃ left ∈ stage.emptied archiveFirst,
          (perform changes n root).2 = root.setStage id left) ∨
        (perform changes n root).2 = root.popStage id) := by
  obtain ⟨id, stage, hGet, hRemovable, rfl⟩ := retireStage_eq_some h
  refine ⟨id, stage, hGet, hRemovable, ?_⟩
  rcases perform_dropping (Root.setStage · id) (fun s x y => setStage_setStage s id x y) (Root.popStage · id)
      (fun s x => popStage_setStage s id x)
      (stage.emptied archiveFirst) n root with
    ⟨-, hEq⟩ | ⟨k, left, -, hLeft, hEq⟩ | hEq
  · exact .inl hEq
  · exact .inr (.inl ⟨left, List.mem_of_getElem? hLeft, hEq⟩)
  · exact .inr (.inr hEq)

end SingboxOps.Distribution
