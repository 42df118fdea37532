import SingboxOps.RemoteProbe.Spool
import SingboxOps.Lib.Segments
import SingboxOps.Lib.Except

/-
  The record chain as lines, and what a scan makes of them.

  A layout says which lines each file holds.  The scan reads
  the lines of the whole chain one after another, so its
  result depends on their concatenation alone.
-/

namespace SingboxOps.RemoteProbe

variable {F : Type} [PyFloat F] {cfg : Config}

-- Layouts

/-
  The lines of each file of a chain, and what follows the
  last newline of the current file.
-/
structure Layout where
  lines : ℕ → List Bytes
  tail : Bytes

/- The bytes a layout gives a file. -/
def Layout.content (lay : Layout) (i : ℕ) : Bytes := joinLines (lay.lines i) ++ if i = 0 then lay.tail else []

/- The lines of the whole chain, oldest first. -/
def Layout.chain (lay : Layout) (cfg : Config) : List Bytes := flat lay.lines cfg.maxFiles

/-
  The files of a directory hold a layout, and each is read
  whole.
-/
structure Laid (cfg : Config) (disk : Disk) (lay : Layout) : Prop where
  content : ∀ i, (disk.file i).getD [] = lay.content i
  absent : ∀ i, cfg.maxFiles < i → disk.file i = none
  fits : ∀ i, (lay.content i).length ≤ cfg.fileBytes * 4
  noBreak : ∀ i, ∀ line ∈ lay.lines i, NoBreak line
  noBreak_tail : NoBreak lay.tail

theorem joinLines_eq_nil {lines : List Bytes} (h : joinLines lines = []) : lines = [] := by
  cases lines with
  | nil => rfl
  | cons line lines => simp at h

namespace Laid

variable {disk : Disk} {lay : Layout}

theorem lines_of_absent (hLaid : Laid cfg disk lay) {i : ℕ}
    (hFile : disk.file i = none) : lay.lines i = [] := by
  have h := hLaid.content i
  rw [hFile, Option.getD_none, Layout.content] at h
  exact joinLines_eq_nil (List.append_eq_nil_iff.mp h.symm).1

theorem readChainMember (hLaid : Laid cfg disk lay) (i : ℕ) : readChainMember cfg disk i = lay.content i := by
  rw [RemoteProbe.readChainMember, hLaid.content i, List.take_of_length_le (hLaid.fits i)]

/- The bytes of a file of the chain are replaced. -/
theorem setFile (hLaid : Laid cfg disk lay) {i : ℕ} (hi : i ≤ cfg.maxFiles)
    {content : Option Bytes} {lines : List Bytes} {tail : Bytes}
    (hTail : i ≠ 0 → tail = lay.tail)
    (hContent : content.getD [] = joinLines lines ++ if i = 0 then tail else [])
    (hFits : (content.getD []).length ≤ cfg.fileBytes * 4)
    (hLines : ∀ line ∈ lines, NoBreak line)
    (hNoBreak : NoBreak tail) : Laid cfg { disk with file := Function.update disk.file i content }
      ⟨Function.update lay.lines i lines, tail⟩ := by
  have hSame : ∀ j, (Function.update disk.file i content j).getD [] =
        (⟨Function.update lay.lines i lines, tail⟩ : Layout).content j := by
    intro j
    by_cases hj : j = i
    · subst hj
      simp only [Layout.content, Function.update_self]
      exact hContent
    · simp only [Layout.content, Function.update_of_ne hj, hLaid.content j]
      by_cases hZero : j = 0
      · subst hZero
        rw [if_pos rfl, if_pos rfl, hTail (Ne.symm hj)]
      · rw [if_neg hZero, if_neg hZero]
  constructor
  · exact hSame
  · intro j hj
    have hNe : j ≠ i := by omega
    exact (Function.update_of_ne hNe content disk.file).trans (hLaid.absent j hj)
  · intro j
    rw [← hSame j]
    by_cases hj : j = i
    · subst hj
      rw [Function.update_self]
      exact hFits
    · rw [Function.update_of_ne hj, hLaid.content j]
      exact hLaid.fits j
  · intro j line hLine
    by_cases hj : j = i
    · subst hj
      simp only [Function.update_self] at hLine
      exact hLines line hLine
    · simp only [Function.update_of_ne hj] at hLine
      exact hLaid.noBreak j line hLine
  · exact hNoBreak

end Laid

-- The Scan Reads the Chain

/- A fragment at the end of the chain is read as a line. -/
def fragment (tail : Bytes) : List Bytes := if tail = [] then [] else [tail]

theorem foldlM_flatMap {ε σ α β : Type} (f : σ → β → Except ε σ) (g : α → List β) (xs : List α) (init : σ) :
    xs.foldlM (fun s x => (g x).foldlM f s) init = (xs.flatMap g).foldlM f init := by
  induction xs generalizing init with
  | nil => rfl
  | cons x xs ih =>
    rw [List.foldlM_cons, List.flatMap_cons, List.foldlM_append]
    exact bind_congr fun s => ih s

theorem flatMap_recordPaths {α : Type} (disk : Disk) (g : ℕ → List α)
    (hAbsent : ∀ i, 1 ≤ i → disk.file i = none → g i = []) :
    (recordPaths cfg disk).flatMap g = flat g cfg.maxFiles := by
  have hSlots : ∀ n, ((((List.range n).map (· + 1)).reverse.filter
            (fun i => (disk.file i).isSome)).flatMap g) ++
          g 0 =
        flat g n := by
    intro n
    induction n with
    | zero => rfl
    | succ n ih =>
      rw [List.range_succ, List.map_append, List.reverse_append, List.filter_append,
        List.flatMap_append, List.append_assoc, ih, flat]
      congr 1
      cases hFile : disk.file (n + 1) with
      | none => simp [hFile, hAbsent (n + 1) (by omega) hFile]
      | some data => simp [hFile]
  rw [recordPaths, List.flatMap_append, ← hSlots]
  simp

theorem splitLines_read {disk : Disk} {lay : Layout} (hLaid : Laid cfg disk lay) (i : ℕ) :
    splitLines (readChainMember cfg disk i) = Function.update lay.lines 0
        (lay.lines 0 ++ fragment lay.tail) i := by
  rw [hLaid.readChainMember, Layout.content, splitLines_joinLines_append (hLaid.noBreak i)]
  by_cases hi : i = 0
  · subst hi
    rw [if_pos rfl, Function.update_self, fragment]
    split_ifs with hTail
    · rw [hTail, splitLines_nil]
    · rw [splitLines_fragment hLaid.noBreak_tail hTail]
  · rw [if_neg hi, Function.update_of_ne hi, splitLines_nil, List.append_nil]

theorem flatMap_splitLines {disk : Disk} {lay : Layout}
    (hLaid : Laid cfg disk lay) : (recordPaths cfg disk).flatMap
        (fun i => splitLines (readChainMember cfg disk i)) =
      lay.chain cfg ++ fragment lay.tail := by
  rw [flatMap_recordPaths disk]
  · rw [Layout.chain, ← flat_append]
    exact flat_congr fun i _ => splitLines_read hLaid i
  · intro i hi hFile
    rw [splitLines_read hLaid, Function.update_of_ne (by omega)]
    exact hLaid.lines_of_absent hFile

theorem scanPaths_eq {disk : Disk} {lay : Layout} (hLaid : Laid cfg disk lay)
    (resolved : ℕ) : scanPaths (F := F) cfg disk resolved (recordPaths cfg disk) =
      (lay.chain cfg ++ fragment lay.tail).foldlM (scanLine cfg resolved) {} := by
  rw [scanPaths, foldlM_flatMap, flatMap_splitLines hLaid]

-- What a Scan Has Found

/- The record a line is read as. -/
def decoded (cfg : Config) (line : Bytes) : Option (Record F) := match decodeRecord cfg.room line with
  | .ok r => r
  | .error _ => none

variable (F) in
/- A line that cannot be decoded but still owns an id. -/
def CorruptAt (cfg : Config) (id : ℕ) (line : Bytes) : Prop :=
  decodeRecord (F := F) cfg.room line = .ok none ∧ recoverRecordId F cfg.room line = .ok (some id)

/- What a scan that went through some lines has found. -/
structure ScanOf (cfg : Config) (resolved : ℕ) (lines : List Bytes) (sc : Scan F) : Prop where
  found : sc.found = lines.filterMap (decoded cfg)
  ordered : (sc.found.map Record.recordId).Pairwise (· < ·)
  last : ∀ r ∈ sc.found, r.recordId ≤ sc.last
  blocked : sc.blocked ≠ 0 → resolved < sc.blocked
  blocker :
    ∀ line ∈ lines, ∀ id, CorruptAt F cfg id line → resolved < id → sc.blocked ≠ 0 ∧ sc.blocked ≤ id

theorem decodeRecord_nil (room : ℕ) : decodeRecord (F := F) room [] = .ok none := rfl

omit [PyFloat F] in
theorem Scan.claim_ok {id : ℕ} {sc sc' : Scan F} (h : sc.claim id = .ok sc') :
    sc.last < id ∧ sc' = { sc with seen := id :: sc.seen, last := id } := by
  unfold Scan.claim at h
  split_ifs at h with hSeen hOrder
  exact ⟨by omega, (Except.ok.inj h).symm⟩

theorem scanLine_ok {resolved : ℕ} {sc sc' : Scan F} {line : Bytes}
    (h : scanLine cfg resolved sc line = .ok sc') :
    (line = [] ∧ sc' = sc) ∨ (∃ r, decodeRecord cfg.room line = .ok (some r) ∧ sc.last < r.recordId ∧
        sc' = { sc with
          found := sc.found ++ [r]
          seen := r.recordId :: sc.seen
          last := r.recordId }) ∨
      (∃ id, CorruptAt F cfg id line ∧ sc.last < id ∧
        sc' = { sc with
          seen := id :: sc.seen
          last := id
          blocked :=
            if resolved < id then
              if sc.blocked = 0 then id else min sc.blocked id
            else sc.blocked }) := by
  unfold scanLine at h
  by_cases hNil : line = []
  · rw [if_pos hNil] at h
    exact Or.inl ⟨hNil, (Except.ok.inj h).symm⟩
  · rw [if_neg hNil] at h
    right
    cases hDecode : decodeRecord (F := F) cfg.room line with
    | error e =>
      rw [hDecode] at h
      cases h
    | ok decoded =>
      rw [hDecode] at h
      cases decoded with
      | some r =>
        left
        cases hClaim : sc.claim r.recordId with
        | error e =>
          simp only [hClaim] at h
          cases h
        | ok claimed =>
          simp only [hClaim] at h
          rcases Scan.claim_ok hClaim with ⟨hLast, rfl⟩
          exact ⟨r, rfl, hLast, (Except.ok.inj h).symm⟩
      | none =>
        right
        cases hRecover : recoverRecordId F cfg.room line with
        | error e =>
          simp only [hRecover] at h
          cases h
        | ok recovered =>
          cases recovered with
          | none =>
            simp only [hRecover] at h
            cases h
          | some id =>
            cases hClaim : sc.claim id with
            | error e =>
              simp only [hRecover, hClaim] at h
              cases h
            | ok claimed =>
              simp only [hRecover, hClaim] at h
              rcases Scan.claim_ok hClaim with ⟨hLast, rfl⟩
              refine ⟨id, ⟨hDecode, hRecover⟩, hLast, ?_⟩
              rw [← Except.ok.inj h]
              by_cases hLive : resolved < id
              · simp only [if_pos hLive]
              · simp only [if_neg hLive]

theorem ScanOf.nil (resolved : ℕ) : ScanOf (F := F) cfg resolved [] {} where
  found := rfl
  ordered := .nil
  last := fun _ hr => (List.not_mem_nil hr).elim
  blocked := fun h => absurd rfl h
  blocker := fun _ hLine => (List.not_mem_nil hLine).elim

theorem CorruptAt.unique {id id' : ℕ} {line : Bytes} (h : CorruptAt F cfg id line)
    (h' : CorruptAt F cfg id' line) : id = id' := by
  have hEq := h.2.symm.trans h'.2
  exact Option.some.inj (Except.ok.inj hEq)

theorem ScanOf.snoc {resolved : ℕ} {lines : List Bytes} {sc sc' : Scan F} {line : Bytes}
    (hScan : ScanOf cfg resolved lines sc)
    (h : scanLine cfg resolved sc line = .ok sc') :
    ScanOf cfg resolved (lines ++ [line]) sc' := by
  rcases scanLine_ok h with ⟨rfl, rfl⟩ | ⟨r, hDecode, hLast, rfl⟩ | ⟨id, hCorrupt, hLast, rfl⟩
  · have hNone : decoded (F := F) cfg [] = none := by
      rw [decoded, decodeRecord_nil]
    constructor
    · simp [hScan.found, hNone]
    · exact hScan.ordered
    · exact hScan.last
    · exact hScan.blocked
    · intro line hLine id hCorrupt hLive
      rcases List.mem_append.mp hLine with hOld | hNew
      · exact hScan.blocker line hOld id hCorrupt hLive
      · rw [List.mem_singleton.mp hNew] at hCorrupt
        cases hCorrupt.2
  · have hSome : decoded cfg line = some r := by
      rw [decoded, hDecode]
    constructor
    · simp [hScan.found, hSome]
    · rw [List.map_append, List.pairwise_append]
      refine ⟨hScan.ordered, List.pairwise_singleton _ _, ?_⟩
      intro a ha b hb
      rcases List.mem_map.mp ha with ⟨old, hOld, rfl⟩
      rw [List.map_singleton, List.mem_singleton] at hb
      have hOldLast := hScan.last old hOld
      omega
    · intro x hx
      rcases List.mem_append.mp hx with hOld | hNew
      · have hOldLast := hScan.last x hOld
        show x.recordId ≤ r.recordId
        omega
      · rw [List.mem_singleton.mp hNew]
    · exact hScan.blocked
    · intro other hOther id hCorrupt hLive
      rcases List.mem_append.mp hOther with hOld | hNew
      · exact hScan.blocker other hOld id hCorrupt hLive
      · rw [List.mem_singleton.mp hNew] at hCorrupt
        cases hDecode.symm.trans hCorrupt.1
  · have hNone : decoded (F := F) cfg line = none := by
      rw [decoded, hCorrupt.1]
    have hMin : ∀ bound : ℕ, sc.blocked ≠ 0 ∧ sc.blocked ≤ bound → (if resolved < id then
              if sc.blocked = 0 then id else min sc.blocked id
            else sc.blocked) ≠ 0 ∧
          (if resolved < id then
              if sc.blocked = 0 then id else min sc.blocked id
            else sc.blocked) ≤ bound := by
      rintro bound ⟨hPos, hBound⟩
      split_ifs <;> omega
    constructor
    · simp [hScan.found, hNone]
    · exact hScan.ordered
    · intro x hx
      have hOldLast := hScan.last x hx
      show x.recordId ≤ id
      omega
    · have hOld := hScan.blocked
      simp only
      split_ifs <;> omega
    · intro other hOther bound hOtherCorrupt hLive
      rcases List.mem_append.mp hOther with hOld | hNew
      · exact hMin bound (hScan.blocker other hOld bound hOtherCorrupt hLive)
      · rw [List.mem_singleton.mp hNew] at hOtherCorrupt
        rw [← hCorrupt.unique hOtherCorrupt] at hLive ⊢
        simp only [if_pos hLive]
        split_ifs <;> omega

theorem ScanOf.foldlM {resolved : ℕ} {before lines : List Bytes} {sc sc' : Scan F}
    (hScan : ScanOf cfg resolved before sc)
    (h : lines.foldlM (scanLine cfg resolved) sc = .ok sc') :
    ScanOf cfg resolved (before ++ lines) sc' := by
  induction lines generalizing before sc with
  | nil =>
    rw [List.foldlM_nil] at h
    rw [List.append_nil, ← Except.ok.inj h]
    exact hScan
  | cons line lines ih =>
    rw [List.foldlM_cons] at h
    rcases except_bind_ok h with ⟨next, hLine, hRest⟩
    rw [← List.singleton_append, ← List.append_assoc]
    exact ih (hScan.snoc hLine) hRest

end SingboxOps.RemoteProbe
