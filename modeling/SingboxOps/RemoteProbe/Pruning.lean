import SingboxOps.RemoteProbe.Compact
import SingboxOps.Lib.ExactRat

/-
  Pruning of any chain: the files hold any bytes, lines that
  do not decode keep their ids, and the times of records
  follow no order.

  A compaction leaves exactly the lines past the cursor, so
  the passes over age and bytes can be told on the list of
  the chain's lines.
-/

namespace SingboxOps.RemoteProbe

variable {F : Type} [PyFloat F] {cfg : Config}

-- Counted Ends

/- The cursor after some records have expired. -/
def expiredTo (s : Spool F) (cursor count : ℕ) : Spool F := s.setState fun st =>
    { st with
      resolvedThrough := cursor
      expiredTotal := st.expiredTotal + count }

/- The oldest live record is dropped. -/
def droppedTo (s : Spool F) (cursor : ℕ) : Spool F := s.setState fun st =>
    { st with
      resolvedThrough := cursor
      budgetDroppedTotal := st.budgetDroppedTotal + 1 }

/-
  No record outlives an earlier one: among those past the
  cursor, the ones that are too old come first.
-/
def AgeOrdered (cfg : Config) (now : ExtFloat F) (rs : List (Record F)) : Prop := rs.Pairwise fun a b =>
    olderThan cfg.maxAge now b.queuedEpoch = true → olderThan cfg.maxAge now a.queuedEpoch = true

-- The Bytes of a Chain

theorem flat_joinLines (f : ℕ → List Bytes)
    (n : ℕ) : flat (fun i => joinLines (f i)) n = joinLines (flat f n) := by
  induction n with
  | zero => rfl
  | succ n ih => rw [flat, flat, joinLines_append, ih]

theorem physical_laid {disk : Disk} {lay : Layout} (hLaid : Laid cfg disk lay) (hTail : lay.tail = []) :
    physicalChainBytes cfg disk = (joinLines (lay.chain cfg)).length := by
  have hContent : ∀ i, (disk.file i).getD [] = joinLines (lay.lines i) := by
    intro i
    rw [hLaid.content, Layout.content, hTail, ite_self, List.append_nil]
  have hFlat : (recordPaths cfg disk).flatMap (fun i => joinLines (lay.lines i)) =
        flat (fun i => joinLines (lay.lines i)) cfg.maxFiles := by
    refine flatMap_recordPaths disk _ ?_
    intro i _ hFile
    rw [hLaid.lines_of_absent hFile]
    rfl
  rw [Layout.chain, ← flat_joinLines, ← hFlat, List.length_flatMap, physicalChainBytes]
  simp only [hContent]

-- What a Compaction Leaves

/- The files of a list are rewritten, the others are as they were. -/
theorem compactPaths_files {paths : List ℕ} (hNodup : paths.Nodup)
    (s : Spool F) : Triple (fun _ => True) s (compactPaths cfg paths)
      (fun r s' => r = .ok () → FilesOnly s s' ∧ (∀ i ∈ paths, (s'.disk.file i).getD [] =
            joinLines ((splitLines (readChainMember cfg s.disk i)).filter
              (keptLine F cfg s.state.resolvedThrough))) ∧
          ∀ i, i ∉ paths → s'.disk.file i = s.disk.file i) := by
  induction paths generalizing s with
  | nil =>
    refine Triple.pure (fun _ => ⟨.refl s, ?_, fun _ _ => rfl⟩)
    intro i hi
    cases hi
  | cons i rest ih =>
    rw [List.nodup_cons] at hNodup
    unfold compactPaths
    apply Triple.get
    by_cases hFile : (s.disk.file i).isNone = true
    · rw [if_pos hFile]
      refine (ih hNodup.2 s).mono (fun _ h => h) ?_
      intro r s' hEnd hOk
      obtain ⟨hFiles, hIn, hOut⟩ := hEnd hOk
      refine ⟨hFiles, ?_, ?_⟩
      · intro j hj
        rcases List.mem_cons.mp hj with rfl | hj
        · have hNone := Option.isNone_iff_eq_none.mp hFile
          rw [hOut j hNodup.1, readChainMember, hNone, Option.getD_none,
            List.take_nil, splitLines_nil, List.filter_nil,
            joinLines_nil]
        · exact hIn j hj
      · intro j hj
        exact hOut j (fun hRest => hj (List.mem_cons_of_mem _ hRest))
    · rw [if_neg hFile]
      refine Triple.ofExcept_bind ?_ (fun e _ hOk => (by cases hOk))
      intro keep hKeep
      have hFilter := keepLines_ok hKeep
      -- the file after its rewrite
      have hRewrite : ∀ content : Option Bytes, content.getD [] = joinLines keep →
            Triple (fun _ => True) s (do
                Op.change (Spool.setFile i content)
                compactPaths cfg rest)
              (fun r s' => r = .ok () → FilesOnly s s' ∧
                  (∀ j ∈ i :: rest, (s'.disk.file j).getD [] = joinLines
                      ((splitLines (readChainMember cfg s.disk j)).filter
                        (keptLine F cfg s.state.resolvedThrough))) ∧
                  ∀ j, j ∉ i :: rest → s'.disk.file j = s.disk.file j) := by
        intro content hContent
        have hOther : ∀ j, j ≠ i → (s.setFile i content).disk.file j = s.disk.file j :=
          fun j hj => Function.update_of_ne hj _ _
        refine Triple.change_bind trivial ?_
        refine (ih hNodup.2 (s.setFile i content)).mono (fun _ h => h) ?_
        intro r s' hEnd hOk
        obtain ⟨hFiles, hIn, hOut⟩ := hEnd hOk
        refine ⟨(filesOnly_setFile s i content).trans hFiles, ?_, ?_⟩
        · intro j hj
          rcases List.mem_cons.mp hj with rfl | hRest
          · have hNew : (s.setFile j content).disk.file j = content := Function.update_self _ _ _
            rw [hOut j hNodup.1, hNew, hContent, hFilter]
          · have hNe : j ≠ i := by
              rintro rfl
              exact hNodup.1 hRest
            rw [hIn j hRest, readChainMember, hOther j hNe, ← readChainMember]
            rfl
        · intro j hj
          rw [List.mem_cons, not_or] at hj
          rw [hOut j hj.2, hOther j hj.1]
      by_cases hGone : keep = [] ∧ i ≠ 0
      · rw [if_pos hGone]
        apply hRewrite none
        rw [hGone.1]
        rfl
      · rw [if_neg hGone]
        exact hRewrite (some (joinLines keep)) rfl

theorem nodup_recordPaths (disk : Disk) : (recordPaths cfg disk).Nodup := by
  unfold recordPaths
  rw [List.nodup_append]
  refine ⟨?_, List.nodup_singleton 0, ?_⟩
  · refine List.Nodup.filter _ (List.nodup_reverse.mpr ?_)
    exact List.nodup_range.map (fun a b h => by simpa using h)
  · intro a ha b hb
    obtain ⟨j, -, rfl⟩ := List.mem_map.mp (List.mem_reverse.mp (List.mem_filter.mp ha).1)
    rw [List.mem_singleton.mp hb]
    exact Nat.succ_ne_zero j

/- The lines of a directory's files, oldest first. -/
def chainLines (cfg : Config) (disk : Disk) : List Bytes := (recordPaths cfg disk).flatMap
    (fun i => splitLines (readChainMember cfg disk i))

theorem length_joinLines_splitLinesFrom (cr : Bool) (line data : Bytes) :
    (joinLines (splitLinesFrom cr line data)).length ≤ line.length + data.length + 1 := by
  induction data generalizing cr line with
  | nil =>
    rw [splitLinesFrom]
    split_ifs with hNil
    · exact Nat.zero_le _
    · simp
  | cons c rest ih =>
    have hNext := ih false []
    have hCr := ih true []
    have hSame := ih false (line ++ [c])
    rw [splitLinesFrom]
    simp only [List.length_nil, List.length_append, List.length_cons] at hNext hCr hSame ⊢
    split_ifs
    · omega
    · rw [joinLines_cons]
      simp only [List.length_append, List.length_cons, List.length_nil]
      omega
    · rw [joinLines_cons]
      simp only [List.length_append, List.length_cons, List.length_nil]
      omega
    · omega

/-
  A directory whose files are read whole; whatever bytes they
  hold, torn tails and corrupt lines included.
-/
structure Readable (cfg : Config) (disk : Disk) : Prop where
  absent : ∀ i, cfg.maxFiles < i → disk.file i = none
  below : ∀ i, ((disk.file i).getD []).length < cfg.fileBytes * 4

/- A chain of complete lines, as a directory holds it. -/
structure Holds (cfg : Config) (s : Spool F) (chain : List Bytes) : Prop where
  laid : ∃ lay, Laid cfg s.disk lay ∧ lay.tail = [] ∧ lay.chain cfg = chain

/- A compaction leaves exactly the lines past the cursor. -/
theorem compactResolved_files {s : Spool F} (hAbsent : ∀ i, cfg.maxFiles < i → s.disk.file i = none)
    (hFits : ∀ i, (joinLines ((splitLines (readChainMember cfg s.disk i)).filter
        (keptLine F cfg s.state.resolvedThrough))).length ≤ cfg.fileBytes * 4) :
    Triple (fun _ => True) s (compactResolved cfg) (fun r s' => r = .ok () →
        FilesOnly s s' ∧ Holds cfg s' ((chainLines cfg s.disk).filter
            (keptLine F cfg s.state.resolvedThrough))) := by
  unfold compactResolved
  apply Triple.get
  refine (compactPaths_files (nodup_recordPaths s.disk) s).mono (fun _ h => h) ?_
  intro r s' hEnd hOk
  obtain ⟨hFiles, hIn, hOut⟩ := hEnd hOk
  have hEmpty : ∀ i, s.disk.file i = none → splitLines (readChainMember cfg s.disk i) = [] := by
    intro i hNone
    rw [readChainMember, hNone, Option.getD_none, List.take_nil, splitLines_nil]
  have hMissing : ∀ i, i ∉ recordPaths cfg s.disk → s.disk.file i = none := by
    intro i hi
    by_contra hSome
    refine hi ?_
    have hSlot : i ≤ cfg.maxFiles := by
      by_contra hAbove
      exact hSome (hAbsent i (by omega))
    unfold recordPaths
    rw [List.mem_append, List.mem_singleton, List.mem_filter, List.mem_reverse, List.mem_map]
    by_cases hZero : i = 0
    · exact .inr hZero
    · refine .inl ⟨⟨i - 1, List.mem_range.mpr (by omega),
        by omega⟩, ?_⟩
      exact Option.isSome_iff_ne_none.mpr hSome
  refine ⟨hFiles, ⟨⟨fun i =>
    (splitLines (readChainMember cfg s.disk i)).filter (keptLine F cfg s.state.resolvedThrough), []⟩,
    ⟨?_, ?_, ?_, ?_, ?_⟩, rfl, ?_⟩⟩
  · intro i
    rw [Layout.content, ite_self, List.append_nil]
    by_cases hi : i ∈ recordPaths cfg s.disk
    · exact hIn i hi
    · have hNone := hMissing i hi
      rw [hOut i hi, hNone]
      simp only [hEmpty i hNone]
      rfl
  · intro i hi
    rw [hOut i (fun hMem => ?_)]
    · exact hAbsent i hi
    · have hLe := le_of_mem_recordPaths hMem
      omega
  · intro i
    rw [Layout.content, ite_self, List.append_nil]
    exact hFits i
  · intro i line hLine
    exact noBreak_of_mem_splitLines (List.mem_filter.mp hLine).1
  · intro c hc
    cases hc
  · rw [Layout.chain, chainLines, flatMap_recordPaths s.disk _ (fun i _ hNone => hEmpty i hNone)]
    have hSelf : flat (fun i =>
            (splitLines (readChainMember cfg s.disk i)).filter
              (keptLine F cfg s.state.resolvedThrough)) cfg.maxFiles =
          (flat (fun i =>
            (splitLines (readChainMember cfg s.disk i)).filter (keptLine F cfg s.state.resolvedThrough))
            cfg.maxFiles).filter (keptLine F cfg s.state.resolvedThrough) := by
      refine (List.filter_eq_self.mpr ?_).symm
      intro line hLine
      obtain ⟨i, -, hMem⟩ := mem_flat.mp hLine
      exact (List.mem_filter.mp hMem).2
    rw [hSelf]
    refine flat_filter _ (fun i _ => ?_)
    rw [List.filter_filter]
    exact List.filter_congr (fun line _ => Bool.and_self _)

theorem compactResolved_first {s : Spool F}
    (hReadable : Readable cfg s.disk) : Triple (fun _ => True) s (compactResolved cfg)
      (fun r s' => r = .ok () → FilesOnly s s' ∧ Holds cfg s' ((chainLines cfg s.disk).filter
            (keptLine F cfg s.state.resolvedThrough))) := by
  refine compactResolved_files hReadable.absent ?_
  intro i
  have hSub := length_joinLines_sublist (List.filter_sublist (p := keptLine F cfg s.state.resolvedThrough)
      (l := splitLines (readChainMember cfg s.disk i)))
  have hSplit := length_joinLines_splitLinesFrom false [] (readChainMember cfg s.disk i)
  have hRead : (readChainMember cfg s.disk i).length ≤ ((s.disk.file i).getD []).length := by
    rw [readChainMember, List.length_take]
    exact min_le_right _ _
  have hBelow := hReadable.below i
  rw [← splitLines, List.length_nil] at hSplit
  omega

theorem compactResolved_exact {s : Spool F} {chain : List Bytes}
    (hHolds : Holds cfg s chain) : Triple (fun _ => True) s (compactResolved cfg)
      (fun r s' => r = .ok () → FilesOnly s s' ∧ Holds cfg s' (chain.filter
            (keptLine F cfg s.state.resolvedThrough))) := by
  obtain ⟨lay, hLaid, hTail, rfl⟩ := hHolds.laid
  have hLines : ∀ i, splitLines (readChainMember cfg s.disk i) = lay.lines i := by
    intro i
    rw [splitLines_read hLaid, hTail, fragment, if_pos rfl, List.append_nil, Function.update_eq_self]
  have hChain : chainLines cfg s.disk = lay.chain cfg := by
    rw [chainLines, flatMap_splitLines hLaid, hTail, fragment, if_pos rfl, List.append_nil]
  rw [← hChain]
  refine compactResolved_files hLaid.absent ?_
  intro i
  have hOld := hLaid.fits i
  rw [Layout.content, hTail, ite_self, List.append_nil] at hOld
  rw [hLines i]
  exact (length_joinLines_sublist List.filter_sublist).trans hOld

-- The Records That May Go

variable (F) in
/- The id of a line that does not decode. -/
def corruptId (cfg : Config) (line : Bytes) : Option ℕ :=
  match decodeRecord (F := F) cfg.room line,
      recoverRecordId F cfg.room line with
  | .ok none, .ok (some id) => some id
  | _, _ => none

theorem corruptId_iff {line : Bytes} {id : ℕ} : corruptId F cfg line = some id ↔ CorruptAt F cfg id line := by
  unfold corruptId CorruptAt
  constructor
  · intro h
    split at h
    · rename_i hDecode hRecover
      cases h
      exact ⟨hDecode, hRecover⟩
    · cases h
  · rintro ⟨hDecode, hRecover⟩
    rw [hDecode, hRecover]

/-
  The records past a cursor and below the first corrupt line
  that is past it too.
-/
def eligible (cfg : Config) (cursor : ℕ) (chain : List Bytes) : List (Record F) :=
  (chain.filterMap (decoded cfg)).filter (fun r =>
    decide (cursor < r.recordId) && (chain.filterMap (corruptId F cfg)).all (fun id =>
        decide (cursor < id → r.recordId < id)))

theorem blocker_of_scan {resolved : ℕ} {lines : List Bytes} {sc sc' : Scan F}
    (h : lines.foldlM (scanLine cfg resolved) sc = .ok sc') :
    sc'.blocked = sc.blocked ∨ sc'.blocked ∈ lines.filterMap (corruptId F cfg) := by
  induction lines generalizing sc with
  | nil =>
    rw [List.foldlM_nil] at h
    rw [← Except.ok.inj h]
    exact .inl rfl
  | cons line lines ih =>
    rw [List.foldlM_cons] at h
    obtain ⟨next, hLine, hRest⟩ := except_bind_ok h
    rcases ih hRest with hSame | hMem
    · rcases scanLine_ok hLine with ⟨-, rfl⟩ | ⟨r, -, -, rfl⟩ | ⟨id, hCorrupt, -, rfl⟩
      · exact .inl hSame
      · exact .inl hSame
      · have hId := corruptId_iff.mpr hCorrupt
        simp only at hSame
        rw [List.filterMap_cons_some hId]
        split_ifs at hSame with hLive hZero
        · exact .inr (hSame ▸ List.mem_cons_self)
        · rcases min_choice sc.blocked id with hMin | hMin
          · exact .inl (hSame.trans hMin)
          · rw [hSame, hMin]
            exact .inr List.mem_cons_self
        · exact .inl hSame
    · refine .inr ?_
      rw [List.filterMap_cons]
      split
      · exact hMem
      · exact List.mem_cons_of_mem _ hMem

/- What a scan of a chain finds, and what blocks it. -/
structure Scanned (cfg : Config) (resolved : ℕ) (chain : List Bytes) (sc : Scan F) : Prop where
  of : ScanOf cfg resolved chain sc
  stands : sc.blocked ≠ 0 → sc.blocked ∈ chain.filterMap (corruptId F cfg)

theorem scanned_of_paths {s : Spool F} {chain : List Bytes} {resolved : ℕ} {sc : Scan F}
    (hHolds : Holds cfg s chain)
    (h : scanPaths cfg s.disk resolved (recordPaths cfg s.disk) = .ok sc) :
    Scanned cfg resolved chain sc := by
  obtain ⟨lay, hLaid, hTail, rfl⟩ := hHolds.laid
  rw [scanPaths_eq hLaid, hTail, fragment, if_pos rfl, List.append_nil] at h
  refine ⟨?_, ?_⟩
  · have hScan := (ScanOf.nil resolved).foldlM h
    rwa [List.nil_append] at hScan
  · intro hSome
    rcases blocker_of_scan h with hZero | hMem
    · exact absurd hZero hSome
    · exact hMem

/- A record past the cursor and before the blocker. -/
def isLive (resolved blocked : ℕ) (r : Record F) : Bool :=
  decide (resolved < r.recordId) && !decide (blocked ≠ 0 ∧ blocked ≤ r.recordId)

theorem live_eq_eligible {resolved : ℕ} {chain : List Bytes} {sc : Scan F}
    (h : Scanned cfg resolved chain sc) :
    sc.found.filter (isLive resolved sc.blocked) = eligible cfg resolved chain := by
  rw [eligible, h.of.found]
  refine List.filter_congr (fun r _ => ?_)
  unfold isLive
  congr 1
  rw [Bool.eq_iff_iff, Bool.not_eq_true', decide_eq_false_iff_not, List.all_eq_true]
  simp only [decide_eq_true_eq]
  constructor
  · intro hFree id hId hPast
    obtain ⟨line, hLine, hCorrupt⟩ := List.mem_filterMap.mp hId
    obtain ⟨hSome, hLe⟩ := h.of.blocker line hLine id (corruptId_iff.mp hCorrupt) hPast
    by_contra hNot
    exact hFree ⟨hSome, by omega⟩
  · rintro hAll ⟨hSome, hLe⟩
    have hBelow := hAll _ (h.stands hSome) (h.of.blocked hSome)
    omega

-- Lines Past a Cursor

theorem keptLine_mono {b c : ℕ} (h : b ≤ c) {line : Bytes}
    (hKept : keptLine F cfg c line = true) : keptLine F cfg b line = true := by
  unfold keptLine at hKept ⊢
  rw [Bool.and_eq_true] at hKept ⊢
  refine ⟨hKept.1, ?_⟩
  have hPast := hKept.2
  split at hPast
  · rename_i id hId
    simp only [decide_eq_true_eq] at hPast ⊢
    omega
  · cases hPast

theorem filter_kept {b c : ℕ} (h : b ≤ c) (chain : List Bytes) :
    (chain.filter (keptLine F cfg b)).filter (keptLine F cfg c) = chain.filter (keptLine F cfg c) := by
  rw [List.filter_filter]
  refine List.filter_congr (fun line _ => ?_)
  cases hKept : keptLine F cfg c line with
  | false => rfl
  | true =>
    rw [keptLine_mono h hKept]
    rfl

theorem keptLine_decoded {line : Bytes} {r : Record F} (h : decoded cfg line = some r)
    (cursor : ℕ) : keptLine F cfg cursor line = decide (cursor < r.recordId) := by
  have hDecode : decodeRecord cfg.room line = .ok (some r) := by
    unfold decoded at h
    split at h
    · rename_i found hFound
      rw [hFound, h]
    · cases h
  have hNil : line ≠ [] := by
    rintro rfl
    rw [decodeRecord_nil] at hDecode
    cases hDecode
  rw [keptLine, (recoverRecordId_of_decodeRecord hDecode).1]
  simp [hNil]

theorem records_kept (cursor : ℕ) (chain : List Bytes) :
    ((chain.filter (keptLine F cfg cursor)).filterMap (decoded cfg) : List (Record F)) =
      (chain.filterMap (decoded cfg)).filter (fun r => decide (cursor < r.recordId)) := by
  induction chain with
  | nil => rfl
  | cons line rest ih =>
    cases hDecoded : (decoded cfg line : Option (Record F)) with
    | none =>
      rw [List.filterMap_cons_none hDecoded, ← ih, List.filter_cons]
      split
      · rw [List.filterMap_cons_none hDecoded]
      · rfl
    | some r =>
      rw [List.filterMap_cons_some hDecoded, List.filter_cons,
        List.filter_cons, keptLine_decoded hDecoded cursor, ← ih]
      split
      · rw [List.filterMap_cons_some hDecoded]
      · rfl

-- Eligible Records

/- The records of a chain have ids in its order. -/
def OrderedIds (cfg : Config) (chain : List Bytes) : Prop :=
  ((chain.filterMap (decoded (F := F) cfg)).map Record.recordId).Pairwise (· < ·)

theorem eligible_ordered (cursor : ℕ) {chain : List Bytes}
    (h : OrderedIds (F := F) cfg chain) : (eligible (F := F) cfg cursor chain).Pairwise
      (fun a b => a.recordId < b.recordId) := by
  have hAll := List.pairwise_map.mp h
  exact hAll.sublist List.filter_sublist

theorem eligible_past {cursor : ℕ} {chain : List Bytes} {r : Record F}
    (h : r ∈ eligible cfg cursor chain) : cursor < r.recordId := by
  have hBoth := (List.mem_filter.mp h).2
  rw [Bool.and_eq_true] at hBoth
  exact of_decide_eq_true hBoth.1

theorem corruptId_nil : corruptId F cfg [] = none := rfl

theorem eligible_kept {b c : ℕ} (hLe : b ≤ c)
    (chain : List Bytes) : (eligible cfg c (chain.filter (keptLine F cfg b)) : List (Record F)) =
      eligible cfg c chain := by
  unfold eligible
  rw [records_kept, List.filter_filter]
  refine List.filter_congr (fun r _ => ?_)
  rw [Bool.eq_iff_iff]
  simp only [Bool.and_eq_true, decide_eq_true_eq, List.all_eq_true]
  constructor
  · rintro ⟨⟨hPast, hAll⟩, -⟩
    refine ⟨hPast, ?_⟩
    intro id hId hLive
    obtain ⟨line, hLine, hCorrupt⟩ := List.mem_filterMap.mp hId
    refine hAll id (List.mem_filterMap.mpr ⟨line, ?_, hCorrupt⟩) hLive
    have hNil : line ≠ [] := by
      rintro rfl
      rw [corruptId_nil] at hCorrupt
      cases hCorrupt
    refine List.mem_filter.mpr ⟨hLine, ?_⟩
    rw [keptLine, (corruptId_iff.mp hCorrupt).2]
    simp only [Bool.and_eq_true, decide_eq_true_eq]
    exact ⟨by simp [hNil], by omega⟩
  · rintro ⟨hPast, hAll⟩
    refine ⟨⟨hPast, ?_⟩, by omega⟩
    intro id hId
    obtain ⟨line, hLine, hCorrupt⟩ := List.mem_filterMap.mp hId
    exact hAll id (List.mem_filterMap.mpr ⟨line, (List.mem_filter.mp hLine).1, hCorrupt⟩)

/- No corrupt line of a chain is behind a cursor. -/
def Free (F : Type) [PyFloat F] (cfg : Config) (cursor : ℕ) (chain : List Bytes) : Prop :=
  ∀ id ∈ chain.filterMap (corruptId F cfg), cursor < id

theorem eligible_move {b c : ℕ} (hLe : b ≤ c) {chain : List Bytes} (hFree : Free F cfg c chain) :
    (eligible cfg c chain : List (Record F)) =
      (eligible cfg b chain).filter (fun r => decide (c < r.recordId)) := by
  unfold eligible
  rw [List.filter_filter]
  refine List.filter_congr (fun r _ => ?_)
  rw [Bool.eq_iff_iff]
  simp only [Bool.and_eq_true, decide_eq_true_eq, List.all_eq_true]
  constructor
  · rintro ⟨hPast, hAll⟩
    refine ⟨hPast, by omega, ?_⟩
    intro id hId _
    exact hAll id hId (hFree id hId)
  · rintro ⟨hPast, -, hAll⟩
    refine ⟨hPast, ?_⟩
    intro id hId hLive
    exact hAll id hId (by omega)

theorem Free.move {c : ℕ} {chain : List Bytes} {r : Record F} (hFree : Free F cfg c chain)
    (hMem : r ∈ eligible cfg c chain) : Free F cfg r.recordId chain := by
  intro id hId
  have hBoth := (List.mem_filter.mp hMem).2
  rw [Bool.and_eq_true, List.all_eq_true] at hBoth
  exact of_decide_eq_true (hBoth.2 id hId) (hFree id hId)

theorem eligible_tail {c : ℕ} {chain : List Bytes} {r : Record F} {rest : List (Record F)}
    (hOrder : OrderedIds (F := F) cfg chain) (hFree : Free F cfg c chain)
    (h : eligible cfg c chain = r :: rest) :
    Free F cfg r.recordId chain ∧ eligible cfg r.recordId chain = rest := by
  have hMem : r ∈ eligible cfg c chain := by
    rw [h]
    exact List.mem_cons_self
  have hNext := hFree.move hMem
  have hPast := eligible_past hMem
  refine ⟨hNext, ?_⟩
  have hSorted := eligible_ordered (F := F) c hOrder
  rw [h, List.pairwise_cons] at hSorted
  rw [eligible_move hPast.le hNext, h, List.filter_cons, if_neg (by simp)]
  refine List.filter_eq_self.mpr ?_
  intro x hx
  exact decide_eq_true (hSorted.1 x hx)

/- The cursor after some records have gone. -/
def cursorAfter (cursor : ℕ) (gone : List (Record F)) : ℕ := (gone.getLast?.map Record.recordId).getD cursor

omit [PyFloat F] in
theorem cursorAfter_cons (cursor : ℕ) (r : Record F) (rest : List (Record F)) :
    cursorAfter cursor (r :: rest) = cursorAfter r.recordId rest := by
  unfold cursorAfter
  rw [List.getLast?_cons]
  cases rest.getLast? <;> rfl

omit [PyFloat F] in
theorem cursorAfter_append (cursor : ℕ) (xs ys : List (Record F)) :
    cursorAfter cursor (xs ++ ys) = cursorAfter (cursorAfter cursor xs) ys := by
  induction xs generalizing cursor with
  | nil => rfl
  | cons x xs ih => rw [List.cons_append, cursorAfter_cons, cursorAfter_cons, ih]

omit [PyFloat F] in
theorem cursorAfter_cases (cursor : ℕ) (gone : List (Record F)) :
    (gone = [] ∧ cursorAfter cursor gone = cursor) ∨ ∃ r ∈ gone, cursorAfter cursor gone = r.recordId := by
  unfold cursorAfter
  cases hLast : gone.getLast? with
  | none => exact .inl ⟨List.getLast?_eq_none_iff.mp hLast, rfl⟩
  | some r => exact .inr ⟨r, List.mem_of_getLast? hLast, rfl⟩

omit [PyFloat F] in
/- A prefix in the order of ids is what a cursor has passed. -/
theorem prefix_of_cursor {cursor : ℕ} {xs ys : List (Record F)}
    (hOrder : (xs ++ ys).Pairwise (fun a b => a.recordId < b.recordId))
    (hPast : ∀ r ∈ xs ++ ys, cursor < r.recordId) : (xs ++ ys).filter (fun r =>
        decide (r.recordId ≤ cursorAfter cursor xs)) = xs ∧
      (xs ++ ys).filter (fun r => decide (cursorAfter cursor xs < r.recordId)) = ys := by
  induction xs generalizing cursor with
  | nil =>
    refine ⟨List.filter_eq_nil_iff.mpr ?_, List.filter_eq_self.mpr ?_⟩
    · intro r hr
      have hAfter := hPast r hr
      simp only [decide_eq_true_eq, not_le]
      exact hAfter
    · intro r hr
      exact decide_eq_true (hPast r hr)
  | cons x xs ih =>
    rw [List.cons_append, List.pairwise_cons] at hOrder
    obtain ⟨hLow, hHigh⟩ := ih hOrder.2 hOrder.1
    have hReach : x.recordId ≤ cursorAfter x.recordId xs := by
      rcases cursorAfter_cases x.recordId xs with ⟨-, hSame⟩ | ⟨r, hr, hEq⟩
      · exact hSame.ge
      · rw [hEq]
        exact (hOrder.1 r (List.mem_append_left _ hr)).le
    rw [cursorAfter_cons, List.cons_append]
    refine ⟨?_, ?_⟩
    · rw [List.filter_cons, if_pos (decide_eq_true hReach), hLow]
    · rw [List.filter_cons, if_neg (by simp; omega), hHigh]

theorem free_kept (cursor : ℕ)
    (chain : List Bytes) : Free F cfg cursor (chain.filter (keptLine F cfg cursor)) := by
  intro id hId
  obtain ⟨line, hLine, hCorrupt⟩ := List.mem_filterMap.mp hId
  have hKept := (List.mem_filter.mp hLine).2
  rw [keptLine, (corruptId_iff.mp hCorrupt).2, Bool.and_eq_true] at hKept
  exact of_decide_eq_true hKept.2

-- The Age Pass

omit [PyFloat F] in
theorem expiredTo_expiredTo (s : Spool F)
    (a b m n : ℕ) : expiredTo (expiredTo s a m) b n = expiredTo s b (m + n) := by
  simp only [expiredTo, Spool.setState, Nat.add_assoc]

/- The records that an age pass takes. -/
def outdated (cfg : Config) (resolved blocked : ℕ) (now : ExtFloat F)
    (rs : List (Record F)) : List (Record F) :=
  (rs.filter (isLive resolved blocked)).filter (fun r => olderThan cfg.maxAge now r.queuedEpoch)

/- The age pass takes the records that are too old, one by one. -/
theorem expireRecords_exact (resolved blocked : ℕ) (now : ExtFloat F) {rs : List (Record F)} (s : Spool F)
    (hOrder : rs.Pairwise (fun a b => a.recordId < b.recordId)) :
    Triple (fun _ => True) s (expireRecords cfg resolved blocked now rs)
      (fun r s' => r = .ok () ∧ s' = expiredTo s (cursorAfter s.state.resolvedThrough
            (outdated cfg resolved blocked now rs))
          (outdated cfg resolved blocked now rs).length) := by
  induction rs generalizing s with
  | nil => exact Triple.pure ⟨rfl, rfl⟩
  | cons r rest ih =>
    rw [List.pairwise_cons] at hOrder
    have hSkip : isLive resolved blocked r = false → outdated cfg resolved blocked now (r :: rest) =
            outdated cfg resolved blocked now rest := by
      intro hNot
      rw [outdated, List.filter_cons, hNot, if_neg Bool.false_ne_true, outdated]
    rw [expireRecords]
    by_cases hOld : r.recordId ≤ resolved
    · rw [if_pos hOld, hSkip (by simp [isLive]; omega)]
      exact ih s hOrder.2
    · rw [if_neg hOld]
      by_cases hBlocked : blocked ≠ 0 ∧ blocked ≤ r.recordId
      · -- the later records are beyond the blocker too
        have hNone : outdated cfg resolved blocked now (r :: rest) = [] := by
          have hNoLive : (r :: rest).filter (isLive resolved blocked) = [] := by
            refine List.filter_eq_nil_iff.mpr ?_
            intro x hx hLive
            have hBeyond : r.recordId ≤ x.recordId := by
              rcases List.mem_cons.mp hx with rfl | hx
              · exact le_rfl
              · exact (hOrder.1 x hx).le
            have hFree := (Bool.and_eq_true_iff.mp hLive).2
            rw [Bool.not_eq_true', decide_eq_false_iff_not] at hFree
            exact hFree ⟨hBlocked.1, by omega⟩
          rw [outdated, hNoLive]
          rfl
        rw [if_pos hBlocked, hNone]
        exact Triple.pure ⟨rfl, rfl⟩
      · have hLive : isLive resolved blocked r = true := by
          rw [isLive, Bool.and_eq_true, decide_eq_true_eq, Bool.not_eq_true', decide_eq_false_iff_not]
          exact ⟨by omega, hBlocked⟩
        rw [if_neg hBlocked]
        by_cases hAge : olderThan cfg.maxAge now r.queuedEpoch = true
        · have hTaken : outdated cfg resolved blocked now (r :: rest) =
                r :: outdated cfg resolved blocked now rest := by
            rw [outdated, List.filter_cons, if_pos hLive, List.filter_cons, if_pos hAge, outdated]
          rw [if_pos hAge, hTaken, cursorAfter_cons, List.length_cons]
          refine Triple.change_bind trivial ?_
          refine (ih (expiredTo s r.recordId 1) hOrder.2).mono (fun _ h => h) ?_
          rintro res s' ⟨hOk, hEq⟩
          refine ⟨hOk, ?_⟩
          rw [hEq, expiredTo_expiredTo, Nat.add_comm]
          rfl
        · have hLeft : outdated cfg resolved blocked now (r :: rest) =
                outdated cfg resolved blocked now rest := by
            rw [outdated, List.filter_cons, if_pos hLive, List.filter_cons, if_neg hAge, outdated]
          rw [if_neg hAge, hLeft]
          exact ih s hOrder.2

-- The Byte Pass

theorem joinLines_filter_lt {p : Bytes → Bool} {lines : List Bytes} {line : Bytes} (hMem : line ∈ lines)
    (hGone : p line = false) :
    (joinLines (lines.filter p)).length < (joinLines lines).length := by
  induction lines with
  | nil => cases hMem
  | cons x rest ih =>
    have hRest : (joinLines (rest.filter p)).length ≤ (joinLines rest).length :=
      length_joinLines_sublist List.filter_sublist
    rw [List.filter_cons]
    rcases List.mem_cons.mp hMem with rfl | hMem
    · rw [hGone, if_neg Bool.false_ne_true, joinLines_cons]
      simp only [List.length_append, List.length_cons]
      omega
    · have hLess := ih hMem
      split
      · rw [joinLines_cons, joinLines_cons]
        simp only [List.length_append, List.length_cons]
        omega
      · rw [joinLines_cons]
        simp only [List.length_append, List.length_cons]
        omega

/- What a save leaves: the chain, the cursor and the counts. -/
structure SameBooks (s s' : Spool F) : Prop where
  file : s'.disk.file = s.disk.file
  resolved : s'.state.resolvedThrough = s.state.resolvedThrough
  expired : s'.state.expiredTotal = s.state.expiredTotal
  dropped : s'.state.budgetDroppedTotal = s.state.budgetDroppedTotal

omit [PyFloat F] in
theorem SameBooks.refl (s : Spool F) : SameBooks s s := ⟨rfl, rfl, rfl, rfl⟩

theorem saveState_books (s : Spool F) (save : SaveOutcome) : Triple (fun _ => True) s (saveState save)
      (fun _ s' => SameBooks s s') := by
  unfold saveState
  apply Triple.get
  refine Triple.ofExcept_bind ?_ (fun _ _ => .refl s)
  intro payload _
  split
  · exact Triple.fail (.refl s)
  · cases save with
    | failed => exact Triple.fail (.refl s)
    | saved => exact Triple.change trivial ⟨rfl, rfl, rfl, rfl⟩
    | replaced => exact Triple.change_bind trivial (Triple.fail ⟨rfl, rfl, rfl, rfl⟩)

theorem saveStateSoft_books (s : Spool F) (save : SaveOutcome) : Triple (fun _ => True) s (saveStateSoft save)
      (fun _ s' => SameBooks s s') := by
  unfold saveStateSoft
  refine Triple.recover (saveState_books s save) (fun _ _ h => h) ?_
  intro e s' hSame
  split
  · exact Triple.change trivial ⟨hSame.file, hSame.resolved, hSame.expired, hSame.dropped⟩
  · exact Triple.fail hSame

omit [PyFloat F] in
theorem Holds.sameBooks {s s' : Spool F} {chain : List Bytes} (hHolds : Holds cfg s chain)
    (hSame : SameBooks s s') : Holds cfg s' chain := by
  obtain ⟨lay, hLaid, hTail, hChain⟩ := hHolds.laid
  refine ⟨lay, ⟨?_, ?_, hLaid.fits, hLaid.noBreak, hLaid.noBreak_tail⟩, hTail, hChain⟩
  · rw [hSame.file]
    exact hLaid.content
  · rw [hSame.file]
    exact hLaid.absent

theorem owned_of_scan {resolved : ℕ} {chain : List Bytes} {sc sc' : Scan F}
    (h : chain.foldlM (scanLine cfg resolved) sc = .ok sc') :
    ∀ line ∈ chain, line = [] ∨ Owned F cfg line := by
  induction chain generalizing sc with
  | nil =>
    intro line hLine
    cases hLine
  | cons x rest ih =>
    rw [List.foldlM_cons] at h
    obtain ⟨next, hLine, hRest⟩ := except_bind_ok h
    intro line hMem
    rcases List.mem_cons.mp hMem with rfl | hMem
    · rcases scanLine_ok hLine with ⟨hNil, -⟩ | ⟨r, hDecode, -⟩ | ⟨id, hCorrupt, -⟩
      · exact .inl hNil
      · exact .inr (.inl ⟨r, hDecode⟩)
      · exact .inr (.inr ⟨id, hCorrupt⟩)
    · exact ih hRest line hMem

omit [PyFloat F] in
theorem claim_of {sc : Scan F} {id : ℕ} (hSeen : ∀ x ∈ sc.seen, x ≤ sc.last) (hLast : sc.last < id) :
    sc.claim id = .ok { sc with seen := id :: sc.seen, last := id } := by
  have hNew : id ∉ sc.seen := by
    intro hMem
    have hLe := hSeen id hMem
    omega
  unfold Scan.claim
  rw [if_neg hNew, if_neg (by omega)]

/- Fewer lines of a chain are scanned as well, at any cursor. -/
theorem scan_sublist {lines chain : List Bytes} (hSub : lines.Sublist chain) {resolved : ℕ} (cursor : ℕ)
    {a b : Scan F} {end_ : Scan F}
    (h : chain.foldlM (scanLine cfg resolved) a = .ok end_) (hLast : b.last ≤ a.last)
    (hSeen : ∀ x ∈ b.seen, x ≤ b.last) :
    ∃ sc, lines.foldlM (scanLine cfg cursor) b = .ok sc := by
  induction hSub generalizing a b with
  | slnil => exact ⟨b, rfl⟩
  | cons line _ ih =>
    rw [List.foldlM_cons] at h
    obtain ⟨next, hLine, hRest⟩ := except_bind_ok h
    refine ih hRest ?_ hSeen
    rcases scanLine_ok hLine with ⟨-, rfl⟩ | ⟨r, -, hPast, rfl⟩ | ⟨id, -, hPast, rfl⟩
    · exact hLast
    · exact hLast.trans hPast.le
    · exact hLast.trans hPast.le
  | cons_cons line _ ih =>
    rw [List.foldlM_cons] at h
    obtain ⟨next, hLine, hRest⟩ := except_bind_ok h
    have hNext : ∃ sc, scanLine cfg cursor b line = .ok sc ∧
          sc.last ≤ next.last ∧ ∀ x ∈ sc.seen, x ≤ sc.last := by
      have hClaimed : ∀ id, b.last < id → ∀ x ∈ id :: b.seen, x ≤ id := by
        intro id hId x hx
        rcases List.mem_cons.mp hx with rfl | hx
        · exact le_rfl
        · exact (hSeen x hx).trans hId.le
      rcases scanLine_ok hLine with ⟨rfl, rfl⟩ | ⟨r, hDecode, hPast, rfl⟩ | ⟨id, hCorrupt, hPast, rfl⟩
      · refine ⟨b, ?_, hLast, hSeen⟩
        rw [scanLine, if_pos rfl]
      · have hId : b.last < r.recordId := by omega
        have hNil : line ≠ [] := by
          rintro rfl
          rw [decodeRecord_nil] at hDecode
          cases hDecode
        refine ⟨{ b with
          found := b.found ++ [r]
          seen := r.recordId :: b.seen
          last := r.recordId }, ?_, ?_, hClaimed r.recordId hId⟩
        · rw [scanLine, if_neg hNil, hDecode]
          simp only [claim_of hSeen hId, Except.map]
        · exact le_rfl
      · have hId : b.last < id := by omega
        have hNil : line ≠ [] := by
          rintro rfl
          cases hCorrupt.2
        by_cases hLive : cursor < id
        · refine ⟨{ b with
            seen := id :: b.seen
            last := id
            blocked := if b.blocked = 0 then id else min b.blocked id }, ?_, ?_, hClaimed id hId⟩
          · rw [scanLine, if_neg hNil, hCorrupt.1]
            simp only [hCorrupt.2, claim_of hSeen hId, Except.map, if_pos hLive]
          · exact le_rfl
        · refine ⟨{ b with
            seen := id :: b.seen
            last := id }, ?_, ?_, hClaimed id hId⟩
          · rw [scanLine, if_neg hNil, hCorrupt.1]
            simp only [hCorrupt.2, claim_of hSeen hId, Except.map, if_neg hLive]
          · exact le_rfl
    obtain ⟨sc, hStep, hNextLast, hNextSeen⟩ := hNext
    rw [List.foldlM_cons, hStep]
    exact ih hRest hNextLast hNextSeen

theorem compactResolved_owned {s : Spool F} {chain : List Bytes} (hHolds : Holds cfg s chain)
    (hOwned : ∀ line ∈ chain, line = [] ∨ Owned F cfg line) :
    Triple (fun _ => True) s (compactResolved cfg) (fun r _ => r = .ok ()) := by
  obtain ⟨lay, hLaid, hTail, rfl⟩ := hHolds.laid
  unfold compactResolved
  apply Triple.get
  refine (compactPaths_triple _ hLaid hTail
    (fun i hi => le_of_mem_recordPaths hi)).mono (fun _ _ => trivial) ?_
  rintro r s' ⟨-, hOk⟩
  refine hOk ?_
  intro i line hLine
  by_cases hi : i ≤ cfg.maxFiles
  · exact hOwned line (mem_flat.mpr ⟨i, hi, hLine⟩)
  · rw [hLaid.lines_of_absent (hLaid.absent i (by omega))] at hLine
    cases hLine

theorem compactResolved_kept {s : Spool F} {chain : List Bytes} (hHolds : Holds cfg s chain)
    (hOwned : ∀ line ∈ chain, line = [] ∨ Owned F cfg line) :
    Triple (fun _ => True) s (compactResolved cfg)
      (fun r s' => r = .ok () ∧ FilesOnly s s' ∧ Holds cfg s' (chain.filter
          (keptLine F cfg s.state.resolvedThrough))) := by
  refine ((compactResolved_exact hHolds).and
    (compactResolved_owned hHolds hOwned)).mono (fun _ _ => trivial) ?_
  rintro r s' ⟨hExact, hOk⟩
  exact ⟨hOk, hExact hOk⟩

/- The bytes of the lines past a cursor. -/
def bytesPast (F : Type) [PyFloat F] (cfg : Config) (cursor : ℕ) (chain : List Bytes) : ℕ :=
  (joinLines (chain.filter (keptLine F cfg cursor))).length

/-
  The records that a byte pass takes from a cursor on: each is
  the oldest that is left, and the lines past a base are over
  the budget before the first of them goes, the lines past the
  one before it for every other.
-/
structure Budgeted (cfg : Config) (chain : List Bytes) (base : ℕ) (s s' : Spool F)
    (dropped rest : List (Record F)) : Prop where
  split : eligible cfg s.state.resolvedThrough chain = dropped ++ rest
  cursor : s'.state.resolvedThrough = cursorAfter s.state.resolvedThrough dropped
  counted : s'.state.budgetDroppedTotal = s.state.budgetDroppedTotal + dropped.length
  expired : s'.state.expiredTotal = s.state.expiredTotal
  exceeded : ∀ p ∈ dropped.zip (base :: dropped.map Record.recordId),
      cfg.maxBytes < (bytesPast F cfg p.2 chain : ℤ)

theorem bytesPast_lt {base : ℕ} {cursor : ℕ} {chain : List Bytes} {r : Record F} (hBase : base < r.recordId)
    (hMem : r ∈ eligible cfg cursor chain) :
    bytesPast F cfg r.recordId chain < bytesPast F cfg base chain := by
  obtain ⟨line, hLine, hDecoded⟩ := List.mem_filterMap.mp (List.mem_filter.mp hMem).1
  unfold bytesPast
  rw [← filter_kept hBase.le chain]
  have hBefore : line ∈ chain.filter (keptLine F cfg base) := by
    rw [List.mem_filter, keptLine_decoded hDecoded]
    exact ⟨hLine, decide_eq_true hBase⟩
  refine joinLines_filter_lt hBefore ?_
  rw [keptLine_decoded hDecoded]
  exact decide_eq_false (lt_irrefl _)

/- One record goes, and then some of the later ones. -/
theorem Budgeted.cons {chain : List Bytes} {base : ℕ} {s t s' : Spool F} {r : Record F}
    {later dropped rest : List (Record F)}
    (h : Budgeted cfg chain r.recordId t s' dropped rest)
    (hEligible : eligible cfg s.state.resolvedThrough chain = r :: later)
    (hLater : eligible cfg t.state.resolvedThrough chain = later)
    (hStep : t.state.resolvedThrough = r.recordId ∧
        t.state.budgetDroppedTotal = s.state.budgetDroppedTotal + 1 ∧
        t.state.expiredTotal = s.state.expiredTotal)
    (hOver : cfg.maxBytes < (bytesPast F cfg base chain : ℤ)) :
    Budgeted cfg chain base s s' (r :: dropped) rest := by
  obtain ⟨hCursor, hCount, hExpired⟩ := hStep
  refine ⟨?_, ?_, ?_, h.expired.trans hExpired, ?_⟩
  · rw [hEligible, List.cons_append, ← h.split, hLater]
  · rw [h.cursor, cursorAfter_cons, hCursor]
  · rw [h.counted, hCount, List.length_cons]
    omega
  · intro p hp
    rw [List.map_cons, List.zip_cons_cons, List.mem_cons] at hp
    rcases hp with rfl | hp
    · exact hOver
    · exact h.exceeded p hp

theorem Budgeted.past {chain : List Bytes} {base : ℕ} {s s' : Spool F} {dropped rest : List (Record F)}
    (h : Budgeted cfg chain base s s' dropped rest) {r : Record F}
    (hMem : r ∈ dropped) : s.state.resolvedThrough < r.recordId := by
  have hIn : r ∈ eligible cfg s.state.resolvedThrough chain := by
    rw [h.split]
    exact List.mem_append_left _ hMem
  exact eligible_past hIn

theorem Budgeted.reach {chain : List Bytes} {base : ℕ} {s s' : Spool F} {dropped rest : List (Record F)}
    (h : Budgeted cfg chain base s s' dropped rest) :
    s.state.resolvedThrough ≤ s'.state.resolvedThrough := by
  rw [h.cursor]
  rcases cursorAfter_cases s.state.resolvedThrough dropped with ⟨-, hEq⟩ | ⟨r, hMem, hEq⟩
  · exact hEq.ge
  · rw [hEq]
    exact (h.past hMem).le

/- How a byte pass ends. -/
def ByteEnd (cfg : Config) (chain : List Bytes) (base : ℕ) (s : Spool F) (r : Except Failure Unit)
    (s' : Spool F) : Prop :=
  (r = .ok () → ∃ dropped rest last, Budgeted cfg chain base s s' dropped rest ∧
      Holds cfg s' (chain.filter (keptLine F cfg last)) ∧
      last ≤ s'.state.resolvedThrough ∧
      (bytesPast F cfg last chain : ℤ) ≤ cfg.maxBytes) ∧
    ∀ e, r = .error e → base ≤ s'.state.resolvedThrough ∧
        (eligible cfg s'.state.resolvedThrough chain : List (Record F)) = []

/- A refused budget leaves nothing that could go. -/
theorem budgetRefused_exact {s t : Spool F} {chain : List Bytes} {base : ℕ} (save : SaveOutcome)
    (hBase : base ≤ t.state.resolvedThrough)
    (hNone : (eligible cfg t.state.resolvedThrough chain : List (Record F)) = []) :
    Triple (fun _ => True) t (do
        saveStateSoft save
        Op.fail (.spool .byteBudget))
      (ByteEnd cfg chain base s) := by
  refine Triple.bind (saveStateSoft_books t save) ?_ ?_
  · intro _ s' hSame
    refine Triple.fail ⟨fun h => (by cases h), fun e _ => ?_⟩
    rw [hSame.resolved]
    exact ⟨hBase, hNone⟩
  · intro e s' hSame
    refine ⟨fun h => (by cases h), fun e _ => ?_⟩
    rw [hSame.resolved]
    exact ⟨hBase, hNone⟩

/- The chain of a byte pass: scanned, and past its first cursor. -/
structure Passable (F : Type) [PyFloat F] (cfg : Config) (chain : List Bytes) : Prop where
  scans : ∃ resolved, ∃ sc : Scan F, chain.foldlM (scanLine cfg resolved) {} = .ok sc
  ordered : OrderedIds (F := F) cfg chain

/- Some lines of a passable chain are scanned as they stand. -/
theorem scanRecords_exact {s : Spool F} {chain : List Bytes} (hPass : Passable F cfg chain) {base : ℕ}
    (hHolds : Holds cfg s (chain.filter (keptLine F cfg base)))
    (hBase : base ≤ s.state.resolvedThrough) : Triple (fun _ => True) s (scanRecords cfg)
      (fun r s' => ∃ sc : Scan F, r = .ok sc.found ∧ s' = s.scanned sc ∧
        liveRecords s' sc.found = eligible cfg s.state.resolvedThrough chain) := by
  obtain ⟨resolved, full, hFull⟩ := hPass.scans
  obtain ⟨sc, hScan⟩ := scan_sublist (List.filter_sublist (p := keptLine F cfg base))
      s.state.resolvedThrough hFull le_rfl
      (fun x hx => (by cases hx))
  have hPaths : scanPaths cfg s.disk s.state.resolvedThrough (recordPaths cfg s.disk) = .ok sc := by
    obtain ⟨lay, hLaid, hTail, hChain⟩ := hHolds.laid
    rw [scanPaths_eq hLaid, hTail, fragment, if_pos rfl, List.append_nil, hChain]
    exact hScan
  have hLive := live_eq_eligible (scanned_of_paths hHolds hPaths)
  rw [eligible_kept hBase] at hLive
  refine (scanRecords_ok hPaths trivial).mono (fun _ h => h) ?_
  rintro r s' ⟨hFound, rfl⟩
  exact ⟨sc, hFound, rfl, hLive⟩

/-
  The byte pass takes the oldest records while the chain is
  over the budget, and ends.
-/
theorem dropRecords_exact {chain : List Bytes}
    (hPass : Passable F cfg chain) (save : SaveOutcome) (rounds : ℕ)
    (base : ℕ) {s : Spool F}
    (hHolds : Holds cfg s (chain.filter (keptLine F cfg base)))
    (hBase : base ≤ s.state.resolvedThrough)
    (hFree : Free F cfg s.state.resolvedThrough chain)
    (hRounds : bytesPast F cfg base chain < rounds) : Triple (fun _ => True) s
      (dropRecords cfg save rounds (bytesPast F cfg base chain))
      (ByteEnd cfg chain base s) := by
  induction rounds generalizing s base with
  | zero => omega
  | succ rounds ih =>
    rw [dropRecords]
    by_cases hFits : (bytesPast F cfg base chain : ℤ) ≤ cfg.maxBytes
    · rw [if_pos hFits]
      refine Triple.pure ⟨fun _ => ?_, fun e h => (by cases h)⟩
      refine ⟨[], eligible cfg s.state.resolvedThrough chain, base,
        ⟨rfl, rfl, rfl, rfl, ?_⟩, hHolds, hBase, hFits⟩
      intro p hp
      cases hp
    · rw [if_neg hFits]
      refine Triple.bind (scanRecords_exact hPass hHolds hBase) ?_
        (fun e s' h => (by obtain ⟨sc, hOk, -⟩ := h; cases hOk))
      rintro records s1 ⟨sc, hFound, rfl, hLive⟩
      cases hFound
      apply Triple.get
      rw [hLive]
      cases hEligible : (eligible cfg s.state.resolvedThrough chain : List (Record F)) with
      | nil => exact budgetRefused_exact save hBase hEligible
      | cons r rest =>
        obtain ⟨hNextFree, hRest⟩ := eligible_tail hPass.ordered hFree hEligible
        have hMem : r ∈ eligible cfg s.state.resolvedThrough chain := by
          rw [hEligible]
          exact List.mem_cons_self
        have hPast := eligible_past hMem
        have hHolds2 : Holds cfg (droppedTo (s.scanned sc) r.recordId) (chain.filter (keptLine F cfg base)) :=
          ⟨hHolds.laid⟩
        have hOwned : ∀ line ∈ chain.filter (keptLine F cfg base), line = [] ∨ Owned F cfg line := by
          obtain ⟨resolved, full, hFull⟩ := hPass.scans
          intro line hLine
          exact owned_of_scan hFull line (List.mem_filter.mp hLine).1
        refine Triple.change_bind trivial ?_
        refine Triple.bind (compactResolved_kept hHolds2 hOwned) ?_ (fun e s' h => (by cases h.1))
        rintro _ s3 ⟨-, hFiles, hHolds3⟩
        have hHolds3' : Holds cfg s3 ((chain.filter (keptLine F cfg base)).filter
                (keptLine F cfg r.recordId)) :=
          hHolds3
        rw [filter_kept (hBase.trans hPast.le)] at hHolds3'
        have hState3 := hFiles.state.1
        have hCursor3 : s3.state.resolvedThrough = r.recordId := by
          rw [hState3]
          rfl
        have hLess := bytesPast_lt (hBase.trans_lt hPast) hMem
        have hReduced : physicalChainBytes cfg s3.disk = bytesPast F cfg r.recordId chain := by
          obtain ⟨lay, hLaid, hTail, hChain⟩ := hHolds3'.laid
          rw [physical_laid hLaid hTail, hChain, bytesPast]
        apply Triple.get
        rw [hReduced, if_neg (not_le.mpr hLess)]
        refine (ih r.recordId hHolds3' hCursor3.ge (hCursor3 ▸ hNextFree) (by omega)).mono (fun _ h => h) ?_
        rintro res s' ⟨hOk, hError⟩
        refine ⟨fun hDone => ?_, fun e he =>
          ⟨(hBase.trans hPast.le).trans (hError e he).1, (hError e he).2⟩⟩
        obtain ⟨dropped, left, last, hBudgeted, hEnd⟩ := hOk hDone
        refine ⟨r :: dropped, left, last, ?_, hEnd⟩
        refine hBudgeted.cons hEligible ?_ ?_ (not_le.mp hFits)
        · rw [hCursor3, hRest]
        · exact ⟨hCursor3, by rw [hState3]; rfl, by rw [hState3]; rfl⟩

-- Both Passes, on Any Chain

/- An answer that does not refuse the budget. -/
def NotBudget {α : Type} (r : Except Failure α) : Prop := r ≠ .error (.spool .byteBudget)

theorem keepLines_notBudget (resolved : ℕ)
    (lines : List Bytes) : NotBudget (keepLines (F := F) cfg resolved lines) := by
  have hMap : ∀ {x : Except Failure (List Bytes)} (line : Bytes),
        NotBudget x → NotBudget (x.map (line :: ·)) := by
    intro x line hx hEq
    cases x with
    | ok keep => cases hEq
    | error e =>
      cases hEq
      exact hx rfl
  induction lines with
  | nil =>
    intro h
    cases h
  | cons line rest ih =>
    rw [keepLines]
    split
    · exact ih
    · split
      · intro h
        cases h
      · split
        · exact ih
        · exact hMap line ih
      · split
        · intro h
          cases h
        · intro h
          cases h
        · split
          · exact ih
          · exact hMap line ih

theorem compactPaths_notBudget (paths : List ℕ)
    (s : Spool F) : Triple (fun _ => True) s (compactPaths cfg paths) (fun r _ => NotBudget r) := by
  induction paths generalizing s with
  | nil => exact Triple.pure (fun h => (by cases h))
  | cons i rest ih =>
    unfold compactPaths
    apply Triple.get
    split
    · exact ih s
    · refine Triple.ofExcept_bind ?_ ?_
      · intro keep _
        split
        · exact Triple.change_bind trivial (ih _)
        · exact Triple.change_bind trivial (ih _)
      · intro e hError hEq
        cases hEq
        exact keepLines_notBudget _ _ hError

theorem scanLine_notBudget (resolved : ℕ) (lines : List Bytes)
    (sc : Scan F) : NotBudget (lines.foldlM (scanLine cfg resolved) sc) := by
  have hClaim : ∀ (sc : Scan F) (id : ℕ) (f : Scan F → Scan F), NotBudget ((sc.claim id).map f) := by
    intro sc id f h
    unfold Scan.claim at h
    split_ifs at h <;> cases h
  have hLine : ∀ (sc : Scan F) (line : Bytes), NotBudget (scanLine cfg resolved sc line) := by
    intro sc line
    unfold scanLine
    split
    · intro h
      cases h
    · split
      · intro h
        cases h
      · exact hClaim _ _ _
      · split
        · intro h
          cases h
        · intro h
          cases h
        · exact hClaim _ _ _
  induction lines generalizing sc with
  | nil =>
    intro h
    cases h
  | cons line rest ih =>
    rw [List.foldlM_cons]
    cases hFirst : scanLine cfg resolved sc line with
    | ok next => exact ih next
    | error e =>
      intro h
      cases h
      exact hLine sc line hFirst

theorem saveStateSoft_notBudget (s : Spool F)
    (save : SaveOutcome) : Triple (fun _ => True) s (saveStateSoft save) (fun r _ => NotBudget r) := by
  unfold saveStateSoft
  refine Triple.recover (saveState_books s save) (fun _ _ _ h => (by cases h)) ?_
  intro e s' _
  split
  · exact Triple.change trivial (fun h => (by cases h))
  · rename_i hNot
    refine Triple.fail (fun h => ?_)
    cases h
    exact hNot rfl

theorem status_books (s : Spool F) : Triple (fun _ => True) s (status cfg)
      (fun r s' => NotBudget r ∧ s'.state = s.state ∧ s'.disk = s.disk) := by
  have hScan : Triple (fun _ => True) s (scanRecords cfg)
        (fun _ s' => s'.state = s.state ∧ s'.disk = s.disk) := by
    cases hPaths : scanPaths (F := F) cfg s.disk s.state.resolvedThrough (recordPaths cfg s.disk) with
    | ok sc =>
      refine (scanRecords_ok hPaths trivial).mono (fun _ h => h) ?_
      rintro r s' ⟨-, rfl⟩
      exact ⟨rfl, rfl⟩
    | error e =>
      refine (scanRecords_error hPaths).mono (fun _ h => h) ?_
      rintro r s' ⟨-, rfl⟩
      exact ⟨rfl, rfl⟩
  have hPending : Triple (fun _ => True) s (pending cfg)
        (fun _ s' => s'.state = s.state ∧ s'.disk = s.disk) := by
    unfold pending
    refine Triple.bind hScan ?_ (fun _ _ h => h)
    intro records s' hSame
    apply Triple.get
    simp only
    split
    · exact Triple.fail hSame
    · exact Triple.pure hSame
  unfold status
  have hQueue : Triple (fun _ => True) s (Op.recover (do
            let ready ← pending cfg
            return some ready)
          fun e => if handled e then return none else Op.fail e)
        (fun r s' => NotBudget r ∧ s'.state = s.state ∧ s'.disk = s.disk) := by
    refine Triple.recover (Q := fun _ s' => s'.state = s.state ∧ s'.disk = s.disk)
      (Triple.bind hPending (fun _ _ h => Triple.pure h) (fun _ _ h => h))
      (fun _ _ h => ⟨fun hEq => (by cases hEq), h⟩) ?_
    intro e s' hSame
    split
    · exact Triple.pure ⟨fun hEq => (by cases hEq), hSame⟩
    · rename_i hNot
      refine Triple.fail ⟨fun hEq => ?_, hSame⟩
      cases hEq
      exact hNot rfl
  refine Triple.bind hQueue ?_ ?_
  · rintro queue s' ⟨-, hSame⟩
    apply Triple.get
    exact Triple.pure ⟨fun hEq => (by cases hEq), hSame⟩
  · rintro e s' ⟨hNot, hSame⟩
    refine ⟨fun hEq => ?_, hSame⟩
    cases hEq
    exact hNot rfl

/- What a pass of a chain leaves, and what it took. -/
structure Passed (cfg : Config) (chain : List Bytes) (s s' : Spool F)
    (gone dropped rest : List (Record F)) : Prop where
  sorted :
    (eligible cfg s.state.resolvedThrough chain).Pairwise (fun a b : Record F => a.recordId < b.recordId)
  split :
    (eligible cfg s.state.resolvedThrough chain).filter (fun r => decide
          (cursorAfter s.state.resolvedThrough gone < r.recordId)) =
      dropped ++ rest
  cursor :
    s'.state.resolvedThrough = cursorAfter (cursorAfter s.state.resolvedThrough gone) dropped
  expired : s'.state.expiredTotal = s.state.expiredTotal + gone.length
  counted : s'.state.budgetDroppedTotal = s.state.budgetDroppedTotal + dropped.length
  exceeded : ∀ p ∈ dropped.zip (s.state.resolvedThrough :: dropped.map Record.recordId),
      cfg.maxBytes < (bytesPast F cfg p.2 chain : ℤ)
  fits : (physicalChainBytes cfg s'.disk : ℤ) ≤ cfg.maxBytes
  left :
    Holds cfg s' (chain.filter (keptLine F cfg s'.state.resolvedThrough))

/- The records that the age pass takes. -/
def gone (cfg : Config) (now : ExtFloat F) (cursor : ℕ) (chain : List Bytes) : List (Record F) :=
  (eligible cfg cursor chain).filter (fun r => olderThan cfg.maxAge now r.queuedEpoch)

/- The cursor of an age pass is the old one, or a record's. -/
theorem gone_cursor (now : ExtFloat F) {cursor : ℕ} {chain : List Bytes} (hFree : Free F cfg cursor chain) :
    cursor ≤ cursorAfter cursor (gone cfg now cursor chain) ∧
      Free F cfg (cursorAfter cursor (gone cfg now cursor chain))
        chain := by
  rcases cursorAfter_cases cursor (gone cfg now cursor chain) with ⟨-, hSame⟩ | ⟨r, hGone, hEq⟩
  · rw [hSame]
    exact ⟨le_rfl, hFree⟩
  · have hMem := (List.mem_filter.mp hGone).1
    rw [hEq]
    exact ⟨(eligible_past hMem).le, hFree.move hMem⟩

omit [PyFloat F] in
theorem Holds.physical {s : Spool F} {chain : List Bytes}
    (h : Holds cfg s chain) : physicalChainBytes cfg s.disk = (joinLines chain).length := by
  obtain ⟨lay, hLaid, hTail, rfl⟩ := h.laid
  exact physical_laid hLaid hTail

theorem bytesPast_mono {b c : ℕ} (h : b ≤ c)
    (chain : List Bytes) : bytesPast F cfg c chain ≤ bytesPast F cfg b chain := by
  unfold bytesPast
  rw [← filter_kept h chain]
  exact length_joinLines_sublist List.filter_sublist

theorem bytesPast_kept {b c : ℕ} (h : b ≤ c) (chain : List Bytes) :
    bytesPast F cfg c (chain.filter (keptLine F cfg b)) = bytesPast F cfg c chain := by
  rw [bytesPast, filter_kept h, bytesPast]

theorem compactResolved_notBudget (s : Spool F) :
    Triple (fun _ => True) s (compactResolved cfg) (fun r _ => NotBudget r) := by
  unfold compactResolved
  apply Triple.get
  exact compactPaths_notBudget _ s

/- How a pass ends. -/
def PassEnd (cfg : Config)
    (now : ExtFloat F) (chain : List Bytes) (s : Spool F) (r : Except Failure (Status F))
    (s' : Spool F) : Prop :=
  (∀ report, r = .ok report → ∃ dropped rest, Passed cfg chain s s'
      (gone cfg now s.state.resolvedThrough chain) dropped rest) ∧
    (r = .error (.spool .byteBudget) → (eligible cfg s'.state.resolvedThrough chain : List (Record F)) = [])

/- A pass that fails otherwise owes nothing. -/
theorem PassEnd.failed {now : ExtFloat F} {chain : List Bytes} {s s' : Spool F} {α : Type} {e : Failure}
    (h : NotBudget (Except.error e : Except Failure α)) :
    PassEnd cfg now chain s (.error e) s' := by
  refine ⟨fun report hOk => (by cases hOk), fun hEq => ?_⟩
  cases hEq
  exact absurd rfl h

/- What an age pass leaves of a chain that was compacted. -/
structure Aged (cfg : Config) (now : ExtFloat F) (chain : List Bytes) (s s' : Spool F) : Prop where
  cursor :
    s'.state.resolvedThrough = cursorAfter s.state.resolvedThrough
        (gone cfg now s.state.resolvedThrough chain)
  expired :
    s'.state.expiredTotal = s.state.expiredTotal +
      (gone (F := F) cfg now s.state.resolvedThrough chain).length
  counted : s'.state.budgetDroppedTotal = s.state.budgetDroppedTotal
  reach : s.state.resolvedThrough ≤ s'.state.resolvedThrough
  free :
    Free F cfg s'.state.resolvedThrough (chain.filter (keptLine F cfg s.state.resolvedThrough))
  left : Holds cfg s' (chain.filter (keptLine F cfg s.state.resolvedThrough))
  pass :
    Passable F cfg (chain.filter (keptLine F cfg s.state.resolvedThrough))

/- The end of a pass, from the end of its byte pass on. -/
theorem passEnd_exact {now : ExtFloat F} (save : SaveOutcome)
    {chain : List Bytes} {last : ℕ} {s s3 s4 : Spool F}
    {dropped rest : List (Record F)} (hAged : Aged cfg now chain s s3)
    (hBudgeted : Budgeted cfg (chain.filter (keptLine F cfg s.state.resolvedThrough))
        s.state.resolvedThrough s3 s4 dropped rest)
    (hHolds : Holds cfg s4 ((chain.filter (keptLine F cfg s.state.resolvedThrough)).filter
            (keptLine F cfg last)))
    (hLast : last ≤ s4.state.resolvedThrough)
    (hFits : (bytesPast F cfg last
        (chain.filter (keptLine F cfg s.state.resolvedThrough)) : ℤ) ≤ cfg.maxBytes) :
    Triple (fun _ => True) s4 (do
        saveStateSoft save
        compactResolved cfg
        status cfg : SpoolOp F (Status F))
      (PassEnd cfg now chain s) := by
  have hReach := hAged.reach
  obtain ⟨resolved, full, hFull⟩ := hAged.pass.scans
  have hSave : Triple (fun _ => True) s4 (saveStateSoft save) (fun r s' => SameBooks s4 s' ∧ NotBudget r) :=
    ((saveStateSoft_books s4 save).and (saveStateSoft_notBudget s4 save)).mono
        (fun _ _ => trivial) (fun _ _ h => h)
  refine Triple.bind hSave ?_ (fun e _ h => PassEnd.failed h.2)
  rintro _ s5 ⟨hSame, -⟩
  have hOwned5 : ∀ line ∈ (chain.filter (keptLine F cfg s.state.resolvedThrough)).filter
            (keptLine F cfg last),
        line = [] ∨ Owned F cfg line :=
    fun line hLine => owned_of_scan hFull line (List.mem_filter.mp hLine).1
  refine Triple.bind (compactResolved_kept (hHolds.sameBooks hSame) hOwned5) ?_ (fun e _ h => (by cases h.1))
  rintro _ s6 ⟨-, hFiles, hHolds6⟩
  refine (status_books s6).mono (fun _ h => h) ?_
  rintro r s7 ⟨hNot, hState, hDisk⟩
  have hState6 := hFiles.state.1
  have hCursor7 : s7.state.resolvedThrough = s4.state.resolvedThrough := by
    rw [hState, hState6, hSame.resolved]
  have hReach7 := hReach.trans hBudgeted.reach
  have hHolds7 : Holds cfg s7 (chain.filter (keptLine F cfg s7.state.resolvedThrough)) := by
    rw [hSame.resolved, filter_kept hLast, filter_kept hReach7] at hHolds6
    rw [hCursor7]
    obtain ⟨lay, hLaid, hTail, hChain⟩ := hHolds6.laid
    exact ⟨lay, hDisk ▸ hLaid, hTail, hChain⟩
  refine ⟨fun report _ => ⟨dropped, rest, ?_⟩, fun hEq => absurd hEq hNot⟩
  refine ⟨?_, ?_, ?_, ?_, ?_, ?_, ?_, hHolds7⟩
  · rw [← eligible_kept le_rfl]
    exact eligible_ordered _ hAged.pass.ordered
  · rw [← hAged.cursor, ← hBudgeted.split, eligible_move hReach hAged.free, eligible_kept le_rfl]
  · rw [hCursor7, hBudgeted.cursor, hAged.cursor]
  · rw [hState, hState6, hSame.expired, hBudgeted.expired, hAged.expired]
  · rw [hState, hState6, hSame.dropped, hBudgeted.counted, hAged.counted]
  · intro p hp
    have hOver := hBudgeted.exceeded p hp
    rwa [bytesPast_kept] at hOver
    rcases List.mem_cons.mp (List.of_mem_zip hp).2 with hEq | hMem
    · exact hEq.ge
    · obtain ⟨d, hd, hEq⟩ := List.mem_map.mp hMem
      rw [← hEq]
      exact hReach.trans (hBudgeted.past hd).le
  · have hLess : bytesPast F cfg s4.state.resolvedThrough
            (chain.filter (keptLine F cfg s.state.resolvedThrough)) ≤
          bytesPast F cfg last (chain.filter (keptLine F cfg s.state.resolvedThrough)) :=
      bytesPast_mono hLast _
    rw [bytesPast_kept hReach7] at hLess
    rw [hHolds7.physical, hCursor7]
    exact (Int.ofNat_le.mpr hLess).trans hFits

/- A scan that ends leaves a passable chain, whose live records it found. -/
theorem passable_of_paths {s : Spool F} {chain : List Bytes} {resolved : ℕ} {sc : Scan F}
    (hHolds : Holds cfg s chain)
    (h : scanPaths cfg s.disk resolved (recordPaths cfg s.disk) = .ok sc) :
    Passable F cfg chain := by
  have hScanned := scanned_of_paths hHolds h
  obtain ⟨lay, hLaid, hTail, rfl⟩ := hHolds.laid
  rw [scanPaths_eq hLaid, hTail, fragment, if_pos rfl, List.append_nil] at h
  refine ⟨⟨resolved, sc, h⟩, ?_⟩
  unfold OrderedIds
  rw [← hScanned.of.found]
  exact hScanned.of.ordered

theorem budgetPass_exact {now : ExtFloat F} (save : SaveOutcome) {chain : List Bytes} {s s3 : Spool F}
    (hAged : Aged cfg now chain s s3) : Triple (fun _ => True) s3 (do
        let s ← Op.get
        let physical := physicalChainBytes cfg s.disk
        dropRecords cfg save (physical + 1) physical
        saveStateSoft save
        compactResolved cfg
        status cfg : SpoolOp F (Status F))
      (PassEnd cfg now chain s) := by
  have hHolds3 := hAged.left
  rw [← filter_kept (le_refl s.state.resolvedThrough) chain] at hHolds3
  have hPhysical : physicalChainBytes cfg s3.disk = bytesPast F cfg s.state.resolvedThrough
          (chain.filter (keptLine F cfg s.state.resolvedThrough)) :=
    hHolds3.physical
  have hDrop := dropRecords_exact hAged.pass save (bytesPast F cfg s.state.resolvedThrough
        (chain.filter (keptLine F cfg s.state.resolvedThrough)) + 1)
      s.state.resolvedThrough hHolds3 hAged.reach hAged.free
      (Nat.lt_add_one _)
  rw [← hPhysical] at hDrop
  apply Triple.get
  refine Triple.bind hDrop ?_ ?_
  · rintro _ s4 ⟨hOk, -⟩
    obtain ⟨dropped, rest, last, hBudgeted, hHolds4, hLast, hFits⟩ := hOk rfl
    exact passEnd_exact save hAged hBudgeted hHolds4 hLast hFits
  · rintro e s4 ⟨-, hError⟩
    obtain ⟨hPast, hNone⟩ := hError e rfl
    rw [eligible_kept hPast] at hNone
    exact ⟨fun report hOk => (by cases hOk), fun _ => hNone⟩

theorem enforceBounds_exact (now : ExtFloat F) (save : SaveOutcome) {s : Spool F}
    (hReadable : Readable cfg s.disk) :
    Triple (fun _ => True) s (enforceBounds cfg now save) (PassEnd cfg now (chainLines cfg s.disk) s) := by
  have hFirst := compactResolved_first hReadable
  generalize chainLines cfg s.disk = chain at hFirst ⊢
  have hCompact : Triple (fun _ => True) s (compactResolved cfg)
        (fun r s' => NotBudget r ∧ (r = .ok () → FilesOnly s s' ∧
            Holds cfg s' (chain.filter (keptLine F cfg s.state.resolvedThrough)))) :=
    ((compactResolved_notBudget s).and hFirst).mono (fun _ _ => trivial) (fun _ _ h => h)
  unfold enforceBounds
  refine Triple.bind hCompact ?_ (fun e _ h => PassEnd.failed h.1)
  rintro _ s1 ⟨-, hDone⟩
  obtain ⟨hFiles, hHolds1⟩ := hDone rfl
  have hState1 := hFiles.state.1
  cases hPaths : scanPaths (F := F) cfg s1.disk s1.state.resolvedThrough (recordPaths cfg s1.disk) with
  | error e =>
    have hNot : NotBudget (Except.error e : Except Failure (Scan F)) := by
      obtain ⟨lay, hLaid, hTail, hChain⟩ := hHolds1.laid
      rw [scanPaths_eq hLaid] at hPaths
      rw [← hPaths]
      exact scanLine_notBudget _ _ _
    refine Triple.bind (scanRecords_error hPaths) ?_ ?_
    · rintro records s2 ⟨hEq, -⟩
      cases hEq
    · rintro e' s2 ⟨hEq, -⟩
      cases hEq
      exact PassEnd.failed hNot
  | ok sc =>
    have hScanned := scanned_of_paths hHolds1 hPaths
    have hPass := passable_of_paths hHolds1 hPaths
    refine Triple.bind (scanRecords_ok hPaths trivial) ?_ (fun e _ h => (by cases h.1))
    rintro records s2 ⟨hFound, rfl⟩
    cases hFound
    apply Triple.get
    have hTaken : outdated cfg s1.state.resolvedThrough sc.blocked now sc.found =
          gone cfg now s.state.resolvedThrough chain := by
      rw [outdated, live_eq_eligible hScanned, hState1, eligible_kept le_rfl, gone]
    have hSorted : sc.found.Pairwise (fun a b => a.recordId < b.recordId) :=
      List.pairwise_map.mp hScanned.of.ordered
    refine Triple.bind (expireRecords_exact _ _ now (s1.scanned sc) hSorted) ?_ (fun e _ h => (by cases h.1))
    rintro _ s3 ⟨-, hMoved⟩
    refine budgetPass_exact save ?_
    rw [show outdated cfg (s1.scanned sc).state.resolvedThrough
      (s1.scanned sc).blockedId now sc.found = _ from hTaken] at hMoved
    have hCursor : s3.state.resolvedThrough = cursorAfter s.state.resolvedThrough
            (gone cfg now s.state.resolvedThrough chain) := by
      rw [hMoved, ← hState1]
      rfl
    have hGone : gone (F := F) cfg now s.state.resolvedThrough
            (chain.filter (keptLine F cfg s.state.resolvedThrough)) =
          gone cfg now s.state.resolvedThrough chain := by
      rw [gone, eligible_kept le_rfl, gone]
    obtain ⟨hReach, hFree⟩ := gone_cursor now (free_kept s.state.resolvedThrough chain : Free F cfg _ _)
    rw [hGone, ← hCursor] at hReach hFree
    refine ⟨hCursor, ?_, ?_, hReach, hFree, ?_, hPass⟩
    · rw [hMoved, ← hState1]
      rfl
    · rw [hMoved, ← hState1]
      rfl
    · obtain ⟨lay, hLaid, hTail, hChain⟩ := hHolds1.laid
      refine ⟨lay, ?_, hTail, hChain⟩
      rw [hMoved]
      exact hLaid

-- When the Age Pass Takes a Prefix

section AgePass

omit [PyFloat F]

variable {rs : List (Record F)}
variable (hSorted : rs.Pairwise (fun a b => a.recordId < b.recordId))
include hSorted

theorem le_cursorAfter (cursor : ℕ) {r : Record F} (hMem : r ∈ rs) : r.recordId ≤ cursorAfter cursor rs := by
  induction rs generalizing cursor with
  | nil => cases hMem
  | cons x rest ih =>
    rw [List.pairwise_cons] at hSorted
    rw [cursorAfter_cons]
    rcases List.mem_cons.mp hMem with rfl | hMem
    · rcases cursorAfter_cases r.recordId rest with ⟨-, hEq⟩ | ⟨y, hy, hEq⟩
      · exact hEq.ge
      · rw [hEq]
        exact (hSorted.1 y hy).le
    · exact ih hSorted.2 x.recordId hMem

theorem split_at_cursor (cursor : ℕ) : rs.filter (fun r => decide (r.recordId ≤ cursor)) ++
        rs.filter (fun r => decide (cursor < r.recordId)) = rs := by
  induction rs with
  | nil => rfl
  | cons x rest ih =>
    rw [List.pairwise_cons] at hSorted
    by_cases hLe : x.recordId ≤ cursor
    · rw [List.filter_cons, if_pos (decide_eq_true hLe),
        List.filter_cons, if_neg (by simp; omega), List.cons_append,
        ih hSorted.2]
    · have hNone : rest.filter (fun r => decide (r.recordId ≤ cursor)) = [] := by
        refine List.filter_eq_nil_iff.mpr ?_
        intro y hy hBelow
        have hAbove := hSorted.1 y hy
        have hLow := of_decide_eq_true hBelow
        omega
      rw [List.filter_cons, if_neg (by simp; omega), hNone,
        List.nil_append]
      refine List.filter_eq_self.mpr ?_
      intro y hy
      rcases List.mem_cons.mp hy with rfl | hy
      · exact decide_eq_true (by omega)
      · have hAbove := hSorted.1 y hy
        exact decide_eq_true (by omega)

theorem pairwise_age {old : Record F → Bool} : rs.Pairwise (fun a b => old b = true → old a = true) ↔
      ∀ a ∈ rs, ∀ b ∈ rs, a.recordId < b.recordId → old b = true → old a = true := by
  constructor
  · intro hAge
    induction rs with
    | nil =>
      intro a ha
      cases ha
    | cons x rest ih =>
      rw [List.pairwise_cons] at hSorted hAge
      intro a ha b hb hLess
      rcases List.mem_cons.mp ha with rfl | hFirst
      · rcases List.mem_cons.mp hb with rfl | hSecond
        · exact absurd hLess (lt_irrefl _)
        · exact hAge.1 b hSecond
      · rcases List.mem_cons.mp hb with rfl | hSecond
        · exact absurd hLess (hSorted.1 a hFirst).asymm
        · exact ih hSorted.2 hAge.2 a hFirst b hSecond hLess
  · intro hAll
    exact hSorted.imp_of_mem (fun ha hb => hAll _ ha _ hb)

variable {cursor : ℕ} (hPast : ∀ r ∈ rs, cursor < r.recordId)
include hPast

theorem resolved_of_gone (old : Record F → Bool) : cursorAfter cursor (rs.filter (fun r => decide
          (r.recordId ≤ cursorAfter cursor (rs.filter old)))) =
        cursorAfter cursor (rs.filter old) ∧
      (rs.filter old).Sublist (rs.filter (fun r => decide
          (r.recordId ≤ cursorAfter cursor (rs.filter old)))) := by
  have hGone := hSorted.sublist (List.filter_sublist (p := old))
  have hTaken : ∀ r ∈ rs.filter old, r.recordId ≤ cursorAfter cursor (rs.filter old) :=
    fun r hr => le_cursorAfter hGone cursor hr
  have hLow := hSorted.sublist (List.filter_sublist (p := fun r =>
    decide (r.recordId ≤ cursorAfter cursor (rs.filter old))))
  constructor
  · refine le_antisymm ?_ ?_
    · rcases cursorAfter_cases cursor (rs.filter (fun r => decide
          (r.recordId ≤ cursorAfter cursor (rs.filter old)))) with
        ⟨-, hEq⟩ | ⟨r, hr, hEq⟩
      · rw [hEq]
        rcases cursorAfter_cases cursor (rs.filter old) with ⟨-, hSame⟩ | ⟨g, hg, hSame⟩
        · exact hSame.ge
        · rw [hSame]
          exact (hPast g (List.mem_filter.mp hg).1).le
      · rw [hEq]
        exact of_decide_eq_true (List.mem_filter.mp hr).2
    · rcases cursorAfter_cases cursor (rs.filter old) with ⟨-, hSame⟩ | ⟨g, hg, hSame⟩
      · rw [hSame]
        rcases cursorAfter_cases cursor (rs.filter (fun r => decide (r.recordId ≤ cursor))) with
          ⟨-, hEq⟩ | ⟨r, hr, hEq⟩
        · exact hEq.ge
        · rw [hEq]
          exact (hPast r (List.mem_filter.mp hr).1).le
      · have hIn := le_cursorAfter hLow cursor
          (List.mem_filter.mpr ⟨(List.mem_filter.mp hg).1, decide_eq_true (hTaken g hg)⟩)
        exact hSame.le.trans hIn
  · have hSub : rs.filter old = (rs.filter (fun r => decide
          (r.recordId ≤ cursorAfter cursor (rs.filter old)))).filter
            old := by
      rw [List.filter_filter]
      refine List.filter_congr (fun r hr => ?_)
      cases hOld : old r with
      | false => rfl
      | true =>
        rw [Bool.true_and]
        exact (decide_eq_true (hTaken r (List.mem_filter.mpr ⟨hr, hOld⟩))).symm
    have hPart := List.filter_sublist (p := old) (l := rs.filter (fun r => decide
        (r.recordId ≤ cursorAfter cursor (rs.filter old))))
    rwa [← hSub] at hPart

theorem age_prefix_iff (old : Record F → Bool) :
    rs.Pairwise (fun a b => old b = true → old a = true) ↔ rs.filter (fun r => decide
          (r.recordId ≤ cursorAfter cursor (rs.filter old))) =
        rs.filter old := by
  rw [pairwise_age hSorted]
  constructor
  · intro hAge
    refine List.filter_congr (fun r hr => ?_)
    rw [Bool.eq_iff_iff, decide_eq_true_eq]
    constructor
    · intro hLe
      rcases cursorAfter_cases cursor (rs.filter old) with ⟨-, hSame⟩ | ⟨g, hg, hSame⟩
      · rw [hSame] at hLe
        exact absurd (hPast r hr) (not_lt.mpr hLe)
      · obtain ⟨hIn, hOld⟩ := List.mem_filter.mp hg
        rw [hSame] at hLe
        rcases hLe.lt_or_eq with hLess | hEq
        · exact hAge r hr g hIn hLess hOld
        · have hNodup : (rs.map Record.recordId).Nodup := (List.pairwise_map.mpr hSorted).imp (fun h => h.ne)
          rw [List.inj_on_of_nodup_map hNodup hr hIn hEq]
          exact hOld
    · intro hOld
      exact le_cursorAfter (hSorted.sublist List.filter_sublist) cursor (List.mem_filter.mpr ⟨hr, hOld⟩)
  · intro hSame a ha b hb hLess hOld
    have hTaken : b ∈ rs.filter old := List.mem_filter.mpr ⟨hb, hOld⟩
    have hReach := le_cursorAfter (hSorted.sublist List.filter_sublist) cursor hTaken
    have hLow : a ∈ rs.filter (fun r => decide
        (r.recordId ≤ cursorAfter cursor (rs.filter old))) :=
      List.mem_filter.mpr ⟨ha, decide_eq_true (by omega)⟩
    rw [hSame] at hLow
    exact (List.mem_filter.mp hLow).2

end AgePass

-- The Law of a Pass

/-
  What a pass owes: the records that left are a prefix of the
  live ones, first the ones that were too old and then, while
  the bytes did not fit, the oldest of the others; each is
  counted, and what is left fits.  The first of the others is
  measured with the lines of the expired still on the disk.
-/
structure PrunedAs (cfg : Config) (now : ExtFloat F) (chain : List Bytes) (s s' : Spool F)
    (expired dropped rest : List (Record F)) : Prop where
  split : eligible cfg s.state.resolvedThrough chain = expired ++ dropped ++ rest
  cursor : s'.state.resolvedThrough = cursorAfter s.state.resolvedThrough (expired ++ dropped)
  left :
    Holds cfg s' (chain.filter (keptLine F cfg s'.state.resolvedThrough))
  old : ∀ r ∈ expired, olderThan cfg.maxAge now r.queuedEpoch = true
  expired_counted : s'.state.expiredTotal = s.state.expiredTotal + expired.length
  dropped_counted : s'.state.budgetDroppedTotal = s.state.budgetDroppedTotal + dropped.length
  exceeded : ∀ p ∈ dropped.zip (s.state.resolvedThrough :: dropped.map Record.recordId),
      cfg.maxBytes < (bytesPast F cfg p.2 chain : ℤ)

def Pruned (cfg : Config) (now : ExtFloat F) (chain : List Bytes) (s s' : Spool F) : Prop :=
  ∃ expired dropped rest, PrunedAs cfg now chain s s' expired dropped rest

theorem pruned_iff {now : ExtFloat F} {chain : List Bytes} {s s' : Spool F} {dropped rest : List (Record F)}
    (h : Passed cfg chain s s' (gone cfg now s.state.resolvedThrough chain) dropped rest) :
    Pruned cfg now chain s s' ↔ AgeOrdered cfg now (eligible cfg s.state.resolvedThrough chain) := by
  have hPast : ∀ r ∈ eligible (F := F) cfg s.state.resolvedThrough chain,
        s.state.resolvedThrough < r.recordId :=
    fun r hr => eligible_past hr
  obtain ⟨hReach, hSub⟩ := resolved_of_gone h.sorted hPast (fun r => olderThan cfg.maxAge now r.queuedEpoch)
  have hSplit := split_at_cursor h.sorted (cursorAfter s.state.resolvedThrough
      (gone cfg now s.state.resolvedThrough chain))
  rw [h.split] at hSplit
  rw [AgeOrdered, age_prefix_iff h.sorted hPast (fun r => olderThan cfg.maxAge now r.queuedEpoch)]
  constructor
  · rintro ⟨expired, dropped', rest', hAs⟩
    -- both prefixes are what the cursor has passed
    have hTheirs := (prefix_of_cursor (hAs.split ▸ h.sorted) (hAs.split ▸ hPast)).1
    rw [← hAs.split, ← hAs.cursor] at hTheirs
    rw [← List.append_assoc] at hSplit
    have hOurs := (prefix_of_cursor (hSplit.symm ▸ h.sorted) (hSplit.symm ▸ hPast)).1
    rw [hSplit, cursorAfter_append, gone, hReach, ← gone, ← h.cursor, hTheirs] at hOurs
    have hExpired := h.expired.symm.trans hAs.expired_counted
    have hDropped := h.counted.symm.trans hAs.dropped_counted
    have hLength := congrArg List.length hOurs
    simp only [List.length_append] at hLength
    refine (hSub.eq_of_length ?_).symm
    rw [gone] at hExpired hLength
    omega
  · intro hSame
    refine ⟨gone cfg now s.state.resolvedThrough chain, dropped, rest,
      ?_, ?_, h.left, ?_, h.expired, h.counted, h.exceeded⟩
    · rw [← hSplit, List.append_assoc]
      exact congrArg (· ++ (dropped ++ rest)) hSame
    · rw [h.cursor, cursorAfter_append]
    · intro r hr
      exact (List.mem_filter.mp hr).2

theorem ageOrdered_of_pruned {now : ExtFloat F} {save : SaveOutcome} {s : Spool F}
    {report : Status F} (hReadable : Readable cfg s.disk)
    (hAnswer : (enforceBounds cfg now save).answer s = .ok report)
    (hPruned : Pruned cfg now (chainLines cfg s.disk) s ((enforceBounds cfg now save).final s)) :
    AgeOrdered cfg now (eligible cfg s.state.resolvedThrough (chainLines cfg s.disk)) := by
  obtain ⟨dropped, rest, hPassed⟩ := (enforceBounds_exact now save hReadable).post.1 report hAnswer
  exact (pruned_iff hPassed).mp hPruned

/-
  For every chain and every clock: a pass that returns leaves
  a chain that fits, and takes a prefix of the live records,
  all counted, exactly where none that is too old comes after
  one that is not.  A pass that refuses the budget leaves
  nothing that could go.
-/
theorem pruning_law (now : ExtFloat F) (save : SaveOutcome) {s : Spool F} (hReadable : Readable cfg s.disk) :
    (∀ report, (enforceBounds cfg now save).answer s = .ok report → (physicalChainBytes cfg
          ((enforceBounds cfg now save).final s).disk : ℤ) ≤ cfg.maxBytes ∧
        (Pruned cfg now (chainLines cfg s.disk) s ((enforceBounds cfg now save).final s) ↔
          AgeOrdered cfg now (eligible cfg s.state.resolvedThrough (chainLines cfg s.disk)))) ∧
      ((enforceBounds cfg now save).answer s = .error (.spool .byteBudget) → (eligible cfg
            ((enforceBounds cfg now save).final s).state.resolvedThrough
            (chainLines cfg s.disk) : List (Record F)) = []) := by
  obtain ⟨hOk, hRefused⟩ := (enforceBounds_exact now save hReadable).post
  refine ⟨fun report hReport => ?_, hRefused⟩
  obtain ⟨dropped, rest, hPassed⟩ := hOk report hReport
  exact ⟨hPassed.fits, pruned_iff hPassed⟩

/- Records that are kept for fifty seconds. -/
def shortConfig : Config where
  maxAge := 50
  room := 100
  room_pos := by decide

/- A record appended when the clock stood at an epoch. -/
def clockText (id : ℕ) (epoch : ℚ) : Bytes := (recordText id
    (⟨pyStr "p", pyStr "r", 1, .finite ⟨epoch⟩, []⟩ : Entry ExactRat)).toOption.getD []

/- The file of two records. -/
def clockFile (first second : ℚ) : Bytes := joinLines [clockText 1 first, clockText 2 second]

/- A spool of two records, open. -/
def clockSpool (first second : ℚ) : Spool ExactRat where
  disk := ⟨fun i => if i = 0 then some (clockFile first second) else none, none⟩
  state := { nextRecordId := 3 }
  opened := true
  idCeiling := 2
  blockedId := 0
  rotatedOut := []

theorem clock_readable {first second : ℚ} (hFits : (clockFile first second).length < recordMaxBytes) :
    Readable shortConfig (clockSpool first second).disk := by
  have hWindow := shortConfig.window
  refine ⟨?_, ?_⟩
  · intro i hi
    have hNot : i ≠ 0 := by omega
    exact if_neg hNot
  · intro i
    by_cases hi : i = 0
    · have hFile : (clockSpool first second).disk.file i = some (clockFile first second) := if_pos hi
      rw [hFile, Option.getD_some]
      omega
    · have hFile : (clockSpool first second).disk.file i = none := if_neg hi
      rw [hFile, Option.getD_none, List.length_nil]
      omega

/- The ages of the records that a pass may take. -/
theorem clock_ages (first second : ℚ) (ages : List Bool) (h : (eligible shortConfig
          (clockSpool first second).state.resolvedThrough
          (chainLines shortConfig (clockSpool first second).disk)).map
        (fun r : Record ExactRat =>
          olderThan shortConfig.maxAge (.finite ⟨100⟩) r.queuedEpoch) =
          ages) :
    AgeOrdered shortConfig (.finite ⟨100⟩) (eligible (F := ExactRat) shortConfig
          (clockSpool first second).state.resolvedThrough
          (chainLines shortConfig (clockSpool first second).disk)) ↔
      ages.Pairwise (fun a b => b = true → a = true) := by
  rw [← h, List.pairwise_map, AgeOrdered]

omit [PyFloat F] in
theorem returns_of_isSome {x : Except Failure (Status F)}
    (h : x.toOption.isSome = true) : ∃ report, x = .ok report := by
  cases x with
  | error e => cases h
  | ok report => exact ⟨report, rfl⟩

theorem orderly_readable : Readable shortConfig (clockSpool 0 100).disk := clock_readable (by decide +kernel)

theorem orderly_returns : ((enforceBounds shortConfig (.finite ⟨100⟩) .saved).answer
      (clockSpool 0 100)).toOption.isSome = true := by
  decide +kernel

theorem orderly_ages : AgeOrdered shortConfig (.finite ⟨100⟩)
      (eligible (F := ExactRat) shortConfig (clockSpool 0 100).state.resolvedThrough
        (chainLines shortConfig (clockSpool 0 100).disk)) :=
  (clock_ages 0 100 [true, false] (by decide +kernel)).mpr (by decide)

/- The older of two records comes first, and goes. -/
theorem pruning_law_at_two : ∃ report, (enforceBounds shortConfig (.finite ⟨100⟩) .saved).answer
          (clockSpool 0 100) = .ok report ∧
        Pruned shortConfig (.finite ⟨100⟩) (chainLines shortConfig (clockSpool 0 100).disk) (clockSpool 0 100)
          ((enforceBounds shortConfig (.finite ⟨100⟩) .saved).final (clockSpool 0 100)) := by
  obtain ⟨report, hAnswer⟩ := returns_of_isSome orderly_returns
  have hLaw := (pruning_law (.finite ⟨100⟩) .saved orderly_readable).1
  exact ⟨report, hAnswer, (hLaw report hAnswer).2.mpr orderly_ages⟩

theorem stepped_readable : Readable shortConfig (clockSpool 100 0).disk := clock_readable (by decide +kernel)

theorem stepped_returns : ((enforceBounds shortConfig (.finite ⟨100⟩) .saved).answer
      (clockSpool 100 0)).toOption.isSome = true := by
  decide +kernel

theorem stepped_ages : ¬ AgeOrdered shortConfig (.finite ⟨100⟩)
      (eligible (F := ExactRat) shortConfig (clockSpool 100 0).state.resolvedThrough
        (chainLines shortConfig (clockSpool 100 0).disk)) :=
  (clock_ages 100 0 [false, true] (by decide +kernel)).not.mpr
    (by decide)

/-
  The clock stepped back between two appends: the second record
  is too old, and takes the first one with it, uncounted.
-/
theorem pruning_law_fails : ¬ ∀ (cfg : Config) (now : ExtFloat ExactRat) (save : SaveOutcome)
      (s : Spool ExactRat),
      Readable cfg s.disk → ∀ report, (enforceBounds cfg now save).answer s = .ok report →
          Pruned cfg now (chainLines cfg s.disk) s ((enforceBounds cfg now save).final s) := by
  intro hAlways
  obtain ⟨report, hAnswer⟩ := returns_of_isSome stepped_returns
  have hPruned := hAlways shortConfig (.finite ⟨100⟩) .saved
    (clockSpool 100 0) stepped_readable report hAnswer
  exact stepped_ages (ageOrdered_of_pruned stepped_readable hAnswer hPruned)

end SingboxOps.RemoteProbe
