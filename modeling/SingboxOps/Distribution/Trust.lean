import SingboxOps.Distribution.Cuts
import SingboxOps.Lib.Trace

/-
  The pointer and the trust it carries, over whole runs.
-/

namespace SingboxOps.Distribution

variable {F : Type} {c : Checks F} {root : Root}

/- The pointer names a release, and two versions have room. -/
structure Sound (c : Checks F) (root : Root) : Prop where
  nodup : root.versions.keys.Nodup
  few : root.versions.length ≤ 2
  valid : ∀ name, root.current = some name → ∃ m, root.release c name = some m

theorem sound_empty : Sound c Root.empty where
  nodup := List.nodup_nil
  few := Nat.zero_le 2
  valid := fun name h => by cases h

theorem Sound.opens (hSound : Sound c root) {name : Digest} (h : root.current = some name) :
    ∃ m, openRelease c root = some m ∧ m.archive = name ∧ root.release c name = some m := by
  obtain ⟨m, hRelease⟩ := hSound.valid name h
  obtain ⟨folder, -, hFolder⟩ := release_eq_some hRelease
  refine ⟨m, ?_, Folder.release_archive hFolder, hRelease⟩
  rw [openRelease_of_current h, hRelease]

theorem step_cases (c : Checks F) (root : Root) (input : Input) : step c root input = (.refused, root) ∨
      ∃ changes, plan c root input.command = some changes ∧ (step c root input).2 =
          (perform changes (input.crash.getD changes.length) root).2 := by
  unfold step
  cases hPlan : plan c root input.command with
  | none => exact .inl rfl
  | some changes => exact .inr ⟨changes, rfl, rfl⟩

-- Versions

theorem release_setVersion {name other : Digest} (hOther : name ≠ other) (folder : Folder) :
    (root.setVersion name folder).release c other = root.release c other := by
  simp [Root.release, Root.setVersion, hOther]

theorem release_setVersion_self (name : Digest) (folder : Folder) :
    (root.setVersion name folder).release c name = folder.release c name := by
  simp [Root.release, Root.setVersion]

theorem release_popVersion {name other : Digest} (hOther : name ≠ other) :
    (root.popVersion name).release c other = root.release c other := by
  simp [Root.release, Root.popVersion, hOther]

theorem length_setVersion {name : Digest} {old : Folder} (h : root.versions.get name = some old)
    (folder : Folder) :
    (root.setVersion name folder).versions.length = root.versions.length := by
  have hSame : (root.versions.set name folder).keys = root.versions.keys := Dict.keys_set_of_get_some h
  have hKeys := congrArg List.length hSame
  rw [Dict.keys, Dict.keys, List.length_map, List.length_map] at hKeys
  exact hKeys

theorem release_retained {name : Digest} {m' : Manifest} (p : Publish) (m : Manifest)
    (h : root.release c name = some m') : (p.retained root m).release c name = some m' := by
  unfold Publish.retained
  split
  · exact h
  · rename_i hNew
    rw [release_setVersion _ p.folder, h]
    rintro rfl
    obtain ⟨folder, hGet, -⟩ := release_eq_some h
    rw [hGet] at hNew
    exact hNew rfl

theorem Admitted.release {p : Publish} {m : Manifest}
    (h : Admitted c root p m) : (p.retained root m).release c m.archive = some m := by
  unfold Publish.retained
  split
  · rename_i hOld
    obtain ⟨folder, hGet⟩ := Option.isSome_iff_exists.mp hOld
    rw [Root.release, hGet]
    exact h.retained_release hGet
  · rw [release_setVersion_self]
    exact h.folder_release

theorem Admitted.few {p : Publish} {m : Manifest}
    (h : Admitted c root p m) : (p.retained root m).versions.length ≤ 2 := by
  unfold Publish.retained
  split
  · exact (admits_iff.mp h.admits).1
  · rename_i hNew
    rw [Option.not_isSome_iff_eq_none] at hNew
    have hRoom := h.fits
    simp only [fitsIn, hNew, decide_eq_true_eq] at hRoom
    have hSet : (root.setVersion m.archive p.folder).versions = root.versions ++ [(m.archive, p.folder)] :=
      Dict.set_of_get_none hNew p.folder
    rw [hSet, List.length_append]
    exact hRoom

theorem nodup_retained (hNodup : root.versions.keys.Nodup) (p : Publish)
    (m : Manifest) : (p.retained root m).versions.keys.Nodup := by
  unfold Publish.retained
  split
  · exact hNodup
  · exact Dict.nodup_set hNodup m.archive p.folder

theorem current_retained (p : Publish) (m : Manifest) : (p.retained root m).current = root.current := by
  unfold Publish.retained
  split <;> rfl

-- The Pointer

/- What a step does to the pointer and to the release it names. -/
inductive Moves (c : Checks F) (root : Root) (command : Command) (left : Root) : Prop where
  | kept :
      left.current = root.current →
      (∀ name m, root.current = some name → root.release c name = some m → left.release c name = some m) →
      Moves c root command left
  | selected (p : Publish) (m : Manifest) :
      command = .publish p →
      Admitted c root p m →
      left.current = some m.archive →
      left.release c m.archive = some m →
      Moves c root command left

theorem publishCut_moves {p : Publish} {m : Manifest} {n : ℕ} {left : Root} (hAdmitted : Admitted c root p m)
    (hCut : PublishCut root p m n left) : Moves c root (.publish p) left := by
  cases hCut with
  | untouched => exact .kept rfl (fun name m _ h => h)
  | staged => exact .kept rfl (fun name m _ h => h)
  | retained =>
    exact .kept (current_retained p m) (fun name m' _ h => release_retained p m h)
  | pointed =>
    exact .kept (current_retained p m) (fun name m' _ h => release_retained p m h)
  | selected => exact .selected p m rfl hAdmitted rfl hAdmitted.release

theorem retireCut_moves {selector : PyStr} {archiveFirst : Bool} {name : Digest}
    {folder : Folder} {n : ℕ} {left : Root} (hRetired : Retired c root selector name folder)
    (hCut : RetireCut root name folder archiveFirst n left) :
    Moves c root (.retire selector archiveFirst) left := by
  have hOther : ∀ current, root.current = some current → name ≠ current := by
    rintro current hCurrent rfl
    exact hRetired.other hCurrent
  cases hCut with
  | untouched => exact .kept rfl (fun name m _ h => h)
  | halved =>
    refine .kept rfl (fun current m hCurrent h => ?_)
    rw [release_setVersion (hOther current hCurrent), h]
  | removed =>
    refine .kept rfl (fun current m hCurrent h => ?_)
    rw [release_popVersion (hOther current hCurrent), h]

theorem step_moves (c : Checks F) (root : Root)
    (input : Input) : Moves c root input.command (step c root input).2 := by
  rcases step_cases c root input with hRefused | ⟨changes, hPlan, hLeft⟩
  · rw [hRefused]
    exact .kept rfl (fun name m _ h => h)
  · rw [hLeft]
    rcases input with ⟨command, crash⟩
    cases command with
    | publish p =>
      obtain ⟨m, hAdmitted, hCut⟩ := publish_cut hPlan _
      exact publishCut_moves hAdmitted hCut
    | retire selector archiveFirst =>
      obtain ⟨name, folder, hRetired, hCut⟩ := retire_cut hPlan _
      exact retireCut_moves hRetired hCut
    | retireStage selector archiveFirst =>
      obtain ⟨id, stage, -, -, hCut⟩ := retireStage_cut hPlan _
      rcases hCut with hEq | ⟨left, -, hEq⟩ | hEq
      · rw [hEq]
        exact .kept rfl (fun name m _ h => h)
      · rw [hEq]
        exact .kept rfl (fun name m _ h => h)
      · rw [hEq]
        exact .kept rfl (fun name m _ h => h)

/- The versions are few, each with a name of its own. -/
def Shaped (root : Root) : Prop := root.versions.keys.Nodup ∧ root.versions.length ≤ 2

theorem publishCut_shaped {p : Publish} {m : Manifest} {n : ℕ} {left : Root}
    (hShaped : Shaped root) (hAdmitted : Admitted c root p m)
    (hCut : PublishCut root p m n left) : Shaped left := by
  have hRetained : Shaped (p.retained root m) := ⟨nodup_retained hShaped.1 p m, hAdmitted.few⟩
  cases hCut with
  | untouched => exact hShaped
  | staged => exact hShaped
  | retained => exact hRetained
  | pointed => exact hRetained
  | selected => exact hRetained

theorem retireCut_shaped {selector : PyStr} {archiveFirst : Bool} {name : Digest}
    {folder : Folder} {n : ℕ} {left : Root} (hShaped : Shaped root)
    (hRetired : Retired c root selector name folder)
    (hCut : RetireCut root name folder archiveFirst n left) : Shaped left := by
  cases hCut with
  | untouched => exact hShaped
  | halved =>
    refine ⟨Dict.nodup_set hShaped.1 name _, ?_⟩
    rw [length_setVersion hRetired.stored]
    exact hShaped.2
  | removed =>
    exact ⟨Dict.nodup_pop hShaped.1 name, (List.length_filter_le _ _).trans hShaped.2⟩

theorem step_shaped (hShaped : Shaped root) (input : Input) : Shaped (step c root input).2 := by
  rcases step_cases c root input with hRefused | ⟨changes, hPlan, hLeft⟩
  · rw [hRefused]
    exact hShaped
  · rw [hLeft]
    rcases input with ⟨command, crash⟩
    cases command with
    | publish p =>
      obtain ⟨m, hAdmitted, hCut⟩ := publish_cut hPlan _
      exact publishCut_shaped hShaped hAdmitted hCut
    | retire selector archiveFirst =>
      obtain ⟨name, folder, hRetired, hCut⟩ := retire_cut hPlan _
      exact retireCut_shaped hShaped hRetired hCut
    | retireStage selector archiveFirst =>
      obtain ⟨id, stage, -, -, hCut⟩ := retireStage_cut hPlan _
      rcases hCut with hEq | ⟨left, -, hEq⟩ | hEq
      · rw [hEq]
        exact hShaped
      · rw [hEq]
        exact hShaped
      · rw [hEq]
        exact hShaped

theorem step_sound (hSound : Sound c root) (input : Input) : Sound c (step c root input).2 := by
  obtain ⟨hNodup, hFew⟩ := step_shaped ⟨hSound.nodup, hSound.few⟩ input
  refine ⟨hNodup, hFew, ?_⟩
  intro name hName
  cases step_moves c root input with
  | kept hCurrent hRelease =>
    rw [hCurrent] at hName
    obtain ⟨m, h⟩ := hSound.valid name hName
    exact ⟨m, hRelease name m hName h⟩
  | selected p m _ _ hCurrent hRelease =>
    rw [hCurrent] at hName
    cases hName
    exact ⟨m, hRelease⟩

-- Trust

/- The command names the selected lab release as the previous one. -/
def Replaces (command : Command) (current : Manifest) : Prop :=
  ∃ p lab, command = .publish p ∧ p.previous = some lab ∧ lab.publisher = current.publisher ∧
    lab.archive = current.archive.val ∧ current.scope = .lab

theorem Admitted.trust {p : Publish} {m current : Manifest} (h : Admitted c root p m)
    (hOpen : openRelease c root = some current) :
    (m.publisher = current.publisher ∧ m.scope = current.scope) ∨ Replaces (.publish p) current := by
  obtain ⟨-, -, hPublisher, hScope⟩ := manifest_eq_some h.asked
  have hTrusts := h.trusts
  unfold Distribution.trusts at hTrusts
  cases hPrevious : p.previous with
  | none =>
    obtain ⟨hCurrent, -⟩ := openRelease_eq_some hOpen
    simp only [hPrevious, hCurrent, hOpen, Bool.and_eq_true, decide_eq_true_eq] at hTrusts
    exact .inl ⟨hPublisher.trans hTrusts.1.symm, hScope.trans hTrusts.2.symm⟩
  | some lab =>
    have hFormed := h.formed
    simp only [Publish.wellFormed, hPrevious, Bool.and_eq_true, decide_eq_true_eq] at hFormed
    cases hNamed : root.named c lab with
    | none => simp [hPrevious, hNamed] at hTrusts
    | some old =>
      simp only [hPrevious, hNamed, hOpen, Bool.and_eq_true, decide_eq_true_eq] at hTrusts
      by_cases hSelected : current.publisher = lab.publisher ∧ current.archive.val = lab.archive
      · rw [if_pos hSelected, decide_eq_true_eq] at hTrusts
        exact .inr ⟨p, lab, rfl, hPrevious, hSelected.1.symm, hSelected.2.symm, hTrusts.2⟩
      · rw [if_neg hSelected, Bool.and_eq_true, Bool.and_eq_true, decide_eq_true_eq, decide_eq_true_eq,
          decide_eq_true_eq] at hTrusts
        refine .inl ⟨hPublisher.trans hTrusts.2.1.1.symm, ?_⟩
        rw [hScope, hFormed.2.2, hTrusts.2.2]

theorem trust_step (input : Input) {current : Manifest} (hOpen : openRelease c root = some current) :
    ∃ next, openRelease c (step c root input).2 = some next ∧
      ((next.publisher = current.publisher ∧ next.scope = current.scope) ∨
        Replaces input.command current) := by
  obtain ⟨hCurrent, hRelease⟩ := openRelease_eq_some hOpen
  cases step_moves c root input with
  | kept hSame hKeeps =>
    refine ⟨current, ?_, .inl ⟨rfl, rfl⟩⟩
    rw [openRelease_of_current (hSame.trans hCurrent)]
    exact hKeeps _ current hCurrent hRelease
  | selected p m hCommand hAdmitted hSelected hRelease' =>
    refine ⟨m, ?_, ?_⟩
    · rw [openRelease_of_current hSelected]
      exact hRelease'
    · rw [hCommand]
      exact hAdmitted.trust hOpen

theorem production_stays {current : Manifest}
    (hOpen : openRelease c root = some current) (hProduction : current.scope = .production)
    (inputs : List Input) :
    ∃ next, openRelease c (finalState (step c) root inputs) = some next ∧
      next.publisher = current.publisher ∧ next.scope = .production := by
  induction inputs generalizing root current with
  | nil => exact ⟨current, hOpen, rfl, hProduction⟩
  | cons input inputs ih =>
    obtain ⟨next, hNext, hTrust⟩ := trust_step input hOpen
    rcases hTrust with ⟨hPublisher, hScope⟩ | hReplaces
    · obtain ⟨last, hLast, hSame, hStill⟩ := ih hNext (hScope.trans hProduction)
      exact ⟨last, hLast, hSame.trans hPublisher, hStill⟩
    · obtain ⟨_, _, _, _, _, _, hLab⟩ := hReplaces
      cases hProduction.symm.trans hLab

end SingboxOps.Distribution
