import SingboxOps.RemoteProbe.Chain
import Mathlib.Data.List.Flatten

/-
  Compaction: files are rewritten without resolved lines.

  A file that was rewritten keeps every line that owns an id
  past the cursor, byte for byte and in its place.
-/

namespace SingboxOps.RemoteProbe

variable {F : Type} [PyFloat F] {cfg : Config}

-- Directories

/- Only the files of the directory may differ. -/
def FilesOnly (s s' : Spool F) : Prop := ∃ file, s' = { s with disk := { s.disk with file := file } }

theorem FilesOnly.refl (s : Spool F) : FilesOnly s s := ⟨s.disk.file, rfl⟩

theorem FilesOnly.trans {a b c : Spool F} (hFirst : FilesOnly a b)
    (hSecond : FilesOnly b c) : FilesOnly a c := by
  rcases hFirst with ⟨file, rfl⟩
  rcases hSecond with ⟨file', rfl⟩
  exact ⟨file', rfl⟩

theorem filesOnly_setFile (s : Spool F) (i : ℕ)
    (content : Option Bytes) : FilesOnly s (s.setFile i content) :=
  ⟨Function.update s.disk.file i content, rfl⟩

theorem FilesOnly.state {s s' : Spool F} (h : FilesOnly s s') :
    s'.state = s.state ∧ s'.rotatedOut = s.rotatedOut ∧
      s'.opened = s.opened ∧ s'.blockedId = s.blockedId := by
  rcases h with ⟨file, rfl⟩
  exact ⟨rfl, rfl, rfl, rfl⟩

theorem le_of_mem_recordPaths {disk : Disk} {i : ℕ} (h : i ∈ recordPaths cfg disk) : i ≤ cfg.maxFiles := by
  rcases List.mem_append.mp h with hOld | hZero
  · have hSlot := (List.mem_filter.mp hOld).1
    rw [List.mem_reverse] at hSlot
    rcases List.mem_map.mp hSlot with ⟨j, hj, rfl⟩
    have hLt := List.mem_range.mp hj
    omega
  · rw [List.mem_singleton.mp hZero]
    exact Nat.zero_le _

-- Scanning

/- A scan leaves its ceiling and its blocker behind. -/
def Spool.scanned (s : Spool F) (sc : Scan F) : Spool F :=
  { s with idCeiling := sc.last, blockedId := sc.blocked }

theorem scanRecords_ok {s : Spool F} {sc : Scan F} {J : Spool F → Prop} (hScan :
      scanPaths cfg s.disk s.state.resolvedThrough (recordPaths cfg s.disk) = .ok sc)
    (hSeen : J (s.scanned sc)) : Triple J s (scanRecords cfg) (fun r s' =>
      r = .ok sc.found ∧ s' = s.scanned sc) := by
  unfold scanRecords
  apply Triple.get
  rw [hScan]
  refine Triple.bind (Q := fun r s' => r = .ok sc ∧ s' = s) (Triple.ofExcept ⟨rfl, rfl⟩) ?_ ?_
  · rintro a s' ⟨hEq, rfl⟩
    cases hEq
    refine Triple.bind (Q := fun r s'' =>
      r = .ok () ∧ s'' = s'.scanned sc)
      (Triple.change hSeen ⟨rfl, rfl⟩) ?_ ?_
    · rintro _ s'' ⟨_, rfl⟩
      exact Triple.pure ⟨rfl, rfl⟩
    · rintro e s'' ⟨hEq, _⟩
      cases hEq
  · rintro e s' ⟨hEq, _⟩
    cases hEq

theorem scanRecords_error {s : Spool F} {e : Failure} {J : Spool F → Prop} (hScan :
      scanPaths (F := F) cfg s.disk s.state.resolvedThrough (recordPaths cfg s.disk) = .error e) :
    Triple J s (scanRecords cfg) (fun r s' => r = .error e ∧ s' = s) := by
  unfold scanRecords
  apply Triple.get
  rw [hScan]
  refine Triple.bind (Q := fun r s' =>
    r = .error e ∧ s' = s) (Triple.ofExcept ⟨rfl, rfl⟩) ?_ ?_
  · rintro a s' ⟨hEq, _⟩
    cases hEq
  · rintro e' s' ⟨hEq, rfl⟩
    cases hEq
    exact ⟨rfl, rfl⟩

-- Lines That Stay

variable (F) in
/- A line that owns an id past the cursor. -/
def keptLine (cfg : Config) (resolved : ℕ) (line : Bytes) : Bool := !line.isEmpty &&
    match recoverRecordId F cfg.room line with
    | .ok (some id) => decide (resolved < id)
    | _ => false

variable (F) in
/- A line a scan and a compaction can go past. -/
def Owned (cfg : Config) (line : Bytes) : Prop :=
  (∃ r : Record F, decodeRecord cfg.room line = .ok (some r)) ∨ ∃ id, CorruptAt F cfg id line

theorem keepLines_cons {resolved : ℕ} {line : Bytes} (hOwned : line = [] ∨ Owned F cfg line)
    (rest : List Bytes) :
    keepLines (F := F) cfg resolved (line :: rest) =
      if keptLine F cfg resolved line then
        (keepLines (F := F) cfg resolved rest).map (line :: ·)
      else keepLines (F := F) cfg resolved rest := by
  rw [keepLines]
  by_cases hNil : line = []
  · rw [if_pos hNil, hNil]
    rfl
  · rw [if_neg hNil]
    have hKept : ∀ id, recoverRecordId F cfg.room line = .ok (some id) →
          keptLine F cfg resolved line = decide (resolved < id) := by
      intro id hRecover
      rw [keptLine, hRecover]
      simp [hNil]
    rcases hOwned with hEmpty | ⟨r, hDecode⟩ | ⟨id, hCorrupt⟩
    · exact absurd hEmpty hNil
    · rw [hDecode, hKept _ (recoverRecordId_of_decodeRecord hDecode).1]
      simp only
      by_cases hOld : r.recordId ≤ resolved
      · rw [if_pos hOld, if_neg (by simp [hOld])]
      · rw [if_neg hOld, if_pos (by simp; omega)]
    · rw [hCorrupt.1, hCorrupt.2, hKept _ hCorrupt.2]
      simp only
      by_cases hOld : id ≤ resolved
      · rw [if_pos hOld, if_neg (by simp [hOld])]
      · rw [if_neg hOld, if_pos (by simp; omega)]

theorem owned_of_keepLines {resolved : ℕ} {line : Bytes} {rest keep : List Bytes}
    (h : keepLines (F := F) cfg resolved (line :: rest) = .ok keep) :
    line = [] ∨ Owned F cfg line := by
  rw [keepLines] at h
  by_cases hNil : line = []
  · exact Or.inl hNil
  · right
    rw [if_neg hNil] at h
    cases hDecode : decodeRecord (F := F) cfg.room line with
    | error e =>
      simp only [hDecode] at h
      cases h
    | ok decoded =>
      cases decoded with
      | some r => exact Or.inl ⟨r, hDecode⟩
      | none =>
        cases hRecover : recoverRecordId F cfg.room line with
        | error e =>
          simp only [hDecode, hRecover] at h
          cases h
        | ok recovered =>
          cases recovered with
          | none =>
            simp only [hDecode, hRecover] at h
            cases h
          | some id => exact Or.inr ⟨id, hDecode, hRecover⟩

theorem keepLines_ok {resolved : ℕ} {lines keep : List Bytes}
    (h : keepLines (F := F) cfg resolved lines = .ok keep) :
    keep = lines.filter (keptLine F cfg resolved) := by
  induction lines generalizing keep with
  | nil => exact (Except.ok.inj h).symm
  | cons line rest ih =>
    rw [keepLines_cons (owned_of_keepLines h)] at h
    rw [List.filter_cons]
    by_cases hKept : keptLine F cfg resolved line = true
    · rw [if_pos hKept] at h ⊢
      cases hRest : keepLines (F := F) cfg resolved rest with
      | error e =>
        rw [hRest] at h
        cases h
      | ok kept =>
        rw [hRest] at h
        rw [← ih hRest]
        exact (Except.ok.inj h).symm
    · rw [if_neg hKept] at h ⊢
      exact ih h

theorem keepLines_of_owned (resolved : ℕ) {lines : List Bytes}
    (hOwned : ∀ line ∈ lines, line = [] ∨ Owned F cfg line) :
    ∃ keep, keepLines (F := F) cfg resolved lines = .ok keep := by
  induction lines with
  | nil => exact ⟨[], rfl⟩
  | cons line rest ih =>
    rcases ih (fun l hl => hOwned l (by simp [hl])) with ⟨keep, hKeep⟩
    rw [keepLines_cons (hOwned line (by simp)), hKeep]
    split_ifs
    · exact ⟨line :: keep, rfl⟩
    · exact ⟨keep, rfl⟩

-- Thinned Layouts

variable (F) in
/- Some lines that need not stay are gone. -/
structure Thinned (cfg : Config) (resolved : ℕ) (lay lay' : Layout) : Prop where
  sub : ∀ i, (lay'.lines i).Sublist (lay.lines i)
  kept : ∀ i, (lay'.lines i).filter (keptLine F cfg resolved) = (lay.lines i).filter (keptLine F cfg resolved)
  tail : lay'.tail = lay.tail

theorem Thinned.refl (resolved : ℕ) (lay : Layout) : Thinned F cfg resolved lay lay :=
  ⟨fun _ => List.Sublist.refl _, fun _ => rfl, rfl⟩

theorem Thinned.trans {resolved : ℕ} {a b c : Layout} (hFirst : Thinned F cfg resolved a b)
    (hSecond : Thinned F cfg resolved b c) : Thinned F cfg resolved a c where
  sub := fun i => (hSecond.sub i).trans (hFirst.sub i)
  kept := fun i => (hSecond.kept i).trans (hFirst.kept i)
  tail := hSecond.tail.trans hFirst.tail

theorem thinned_update (resolved : ℕ) (lay : Layout) (i : ℕ) : Thinned F cfg resolved lay
      ⟨Function.update lay.lines i ((lay.lines i).filter (keptLine F cfg resolved)), lay.tail⟩ := by
  constructor
  · intro j
    by_cases hj : j = i
    · subst hj
      simp only [Function.update_self]
      exact List.filter_sublist
    · simp only [Function.update_of_ne hj]
      exact List.Sublist.refl _
  · intro j
    by_cases hj : j = i
    · subst hj
      simp only [Function.update_self, List.filter_filter, Bool.and_self]
    · simp only [Function.update_of_ne hj]
  · rfl

theorem length_joinLines_sublist {xs ys : List Bytes}
    (h : xs.Sublist ys) : (joinLines xs).length ≤ (joinLines ys).length :=
  (h.flatMap _).length_le

-- Compaction

variable (F) in
/- A state of a compaction: only lines that may go are gone. -/
def Compacting (cfg : Config) (s : Spool F) (lay : Layout) (c : Spool F) : Prop := FilesOnly s c ∧
    ∃ lay', Laid cfg c.disk lay' ∧ Thinned F cfg s.state.resolvedThrough lay lay'

theorem Compacting.trans {a b c : Spool F} {lay lay' : Layout}
    (hFiles : FilesOnly a b) (hThinned : Thinned F cfg a.state.resolvedThrough lay lay')
    (hSecond : Compacting F cfg b lay' c) : Compacting F cfg a lay c := by
  rcases hSecond with ⟨hFiles', lay'', hLaid, hThinned'⟩
  have hState : b.state = a.state := by
    rcases hFiles with ⟨file, rfl⟩
    rfl
  rw [hState] at hThinned'
  exact ⟨hFiles.trans hFiles', lay'', hLaid, hThinned.trans hThinned'⟩

theorem laid_compact {disk : Disk} {lay : Layout} (hLaid : Laid cfg disk lay) (hTail : lay.tail = []) {i : ℕ}
    (hi : i ≤ cfg.maxFiles) (p : Bytes → Bool) {content : Option Bytes}
    (hContent : content.getD [] = joinLines ((lay.lines i).filter p)) : Laid cfg
      { disk with file := Function.update disk.file i content }
      ⟨Function.update lay.lines i ((lay.lines i).filter p), lay.tail⟩ := by
  apply hLaid.setFile hi
  · intro _
    rfl
  · rw [hContent, hTail, ite_self, List.append_nil]
  · have hOld := hLaid.fits i
    have hLess := length_joinLines_sublist (List.filter_sublist (p := p) (l := lay.lines i))
    rw [Layout.content, hTail, ite_self, List.append_nil] at hOld
    rw [hContent]
    exact hLess.trans hOld
  · intro line hLine
    exact hLaid.noBreak i line (List.mem_of_mem_filter hLine)
  · exact hLaid.noBreak_tail

theorem compactPaths_triple (paths : List ℕ)
    {s : Spool F} {lay : Layout} (hLaid : Laid cfg s.disk lay) (hTail : lay.tail = [])
    (hPaths : ∀ i ∈ paths, i ≤ cfg.maxFiles) :
    Triple (Compacting F cfg s lay) s (compactPaths cfg paths)
      (fun r s' => Compacting F cfg s lay s' ∧ ((∀ i, ∀ line ∈ lay.lines i, line = [] ∨ Owned F cfg line) →
          r = .ok ())) := by
  induction paths generalizing s lay with
  | nil => exact Triple.pure ⟨⟨.refl s, lay, hLaid, .refl _ lay⟩, fun _ => rfl⟩
  | cons i rest ih =>
    have hi := hPaths i (by simp)
    have hRest : ∀ j ∈ rest, j ≤ cfg.maxFiles := fun j hj => hPaths j (by simp [hj])
    unfold compactPaths
    apply Triple.get
    by_cases hFile : (s.disk.file i).isNone = true
    · rw [if_pos hFile]
      exact ih hLaid hTail hRest
    · rw [if_neg hFile]
      have hLines : splitLines (readChainMember cfg s.disk i) = lay.lines i := by
        rw [splitLines_read hLaid, hTail, fragment, if_pos rfl, List.append_nil, Function.update_eq_self]
      rw [hLines]
      cases hKeep : keepLines (F := F) cfg s.state.resolvedThrough (lay.lines i) with
      | error e =>
        refine Triple.bind (Q := fun r s' =>
          r = .error e ∧ s' = s)
          (Triple.ofExcept ⟨rfl, rfl⟩) ?_ ?_
        · rintro keep s' ⟨hEq, _⟩
          cases hEq
        · rintro e' s' ⟨_, rfl⟩
          refine ⟨⟨.refl s', lay, hLaid, .refl _ lay⟩, ?_⟩
          intro hOwned
          rcases keepLines_of_owned (F := F) s'.state.resolvedThrough (hOwned i) with ⟨keep, hOk⟩
          rw [hKeep] at hOk
          cases hOk
      | ok keep =>
        have hFilter := keepLines_ok hKeep
        refine Triple.bind (Q := fun r s' =>
          r = .ok keep ∧ s' = s)
          (Triple.ofExcept ⟨rfl, rfl⟩) ?_ ?_
        · rintro keep' s' ⟨hEq, rfl⟩
          cases hEq
          -- the file after its rewrite
          have hStep : ∀ content : Option Bytes, content.getD [] = joinLines keep →
                Laid cfg (s'.setFile i content).disk ⟨Function.update lay.lines i keep, lay.tail⟩ := by
            intro content hContent
            rw [hFilter] at hContent ⊢
            exact laid_compact hLaid hTail hi _ hContent
          have hThinned : Thinned F cfg s'.state.resolvedThrough lay
                ⟨Function.update lay.lines i keep, lay.tail⟩ := by
            rw [hFilter]
            exact thinned_update _ lay i
          have hRewrite : ∀ content : Option Bytes, content.getD [] = joinLines keep →
                Triple (Compacting F cfg s' lay) s' (do
                    Op.change (Spool.setFile i content)
                    compactPaths cfg rest)
                  (fun r s'' =>
                    Compacting F cfg s' lay s'' ∧
                    ((∀ i, ∀ line ∈ lay.lines i, line = [] ∨ Owned F cfg line) → r = .ok ())) := by
            intro content hContent
            have hNew := hStep content hContent
            have hFiles := filesOnly_setFile s' i content
            refine Triple.bind (Q := fun r s'' =>
              r = .ok () ∧ s'' = s'.setFile i content)
              ?_ ?_ ?_
            · exact Triple.change ⟨hFiles, _, hNew, hThinned⟩ ⟨rfl, rfl⟩
            · rintro _ s'' ⟨_, rfl⟩
              refine (ih hNew hTail hRest).mono ?_ ?_
              · intro c hc
                exact Compacting.trans hFiles hThinned hc
              · rintro r s'' ⟨hEnd, hOk⟩
                refine ⟨Compacting.trans hFiles hThinned hEnd, ?_⟩
                intro hOwned
                apply hOk
                intro j line hLine
                exact hOwned j line ((hThinned.sub j).subset hLine)
            · rintro e s'' ⟨hEq, _⟩
              cases hEq
          by_cases hGone : keep = [] ∧ i ≠ 0
          · rw [if_pos hGone]
            apply hRewrite none
            rw [hGone.1]
            rfl
          · rw [if_neg hGone]
            exact hRewrite (some (joinLines keep)) rfl
        · rintro e s' ⟨hEq, _⟩
          cases hEq

end SingboxOps.RemoteProbe
