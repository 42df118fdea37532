import SingboxOps.JournalReader.Batch
import Mathlib.Data.List.Sort
import Mathlib.Tactic.Linarith

/-
  What a batch counts: entry by entry while it is filled, and
  through the overflow folding of its records.
-/

namespace SingboxOps.JournalReader

open JournalIngest (JournalClass Event Num)

variable {F : Type} [BoundedFloat F] {r : TextRules F}
variable {b b' : Batch F} {p : JournalClass → Bool}

-- Counting

/- The class a decision counts an entry under. -/
def Decision.cls? : Decision → Option JournalClass
  | .eligible e => some (e.cls.getD .other)
  | _ => none

/- The class an entry is eligible under, if it is eligible. -/
def entryClass (r : TextRules F) (e : Entry F) : Option JournalClass :=
  match entryTs r.unicode e, isNull e.message with
  | some (some _), false => (assess r e.message e.priority).bind Decision.cls?
  | _, _ => none

/- The sum of `n` over the records of some classes. -/
def countOf (p : JournalClass → Bool) (rows : List (Event F)) : ℤ :=
  (rows.map (fun e => if p e.cls then e.n else 0)).sum

def groupWeight (p : JournalClass → Bool) (key : Key) (g : Group F) : ℚ :=
  if p key.cls then (g.count : ℚ) else 0

/- The entries counted under some classes. -/
def groupCount (p : JournalClass → Bool) (b : Batch F) : ℚ := Dict.total (groupWeight p) b.groups

/- One more, where it is counted. -/
def one (c : Bool) : ℕ := if c then 1 else 0

-- Groups

/- What holds of the groups of a batch. -/
structure Sound (b : Batch F) : Prop where
  nodup : b.groups.keys.Nodup
  first : ∀ e ∈ b.groups, 0 ≤ PyFloat.toRat e.2.first
  count : ∀ e ∈ b.groups, 1 ≤ e.2.count
  fps : ∀ e ∈ b.groups, ∀ fp, e.1.fp = some fp → fp ∈ b.fps
  few : b.fps.length ≤ maxFpPerWindow

theorem sound_add (h : Sound b) {key : Key} {ts : F} (hTs : 0 ≤ PyFloat.toRat ts)
    (hFp : ∀ fp, key.fp = some fp → fp ∈ b.fps) :
    Sound (b.add key ts) ∧ ∀ p, groupCount p (b.add key ts) = groupCount p b + one (p key.cls) := by
  have hSet : ∀ g : Group F, 0 ≤ PyFloat.toRat g.first → 1 ≤ g.count →
        Sound { b with groups := b.groups.set key g } := by
    intro g hFirst hCount
    have hEach : ∀ e ∈ b.groups.set key g, e = (key, g) ∨ e ∈ b.groups := by
      intro e he
      have hGet := Dict.get_of_mem (Dict.nodup_set h.nodup key g) he
      rw [Dict.get_set] at hGet
      split at hGet
      · rename_i hKey
        left
        rw [hKey, Option.some.inj hGet]
      · exact Or.inr (Dict.mem_of_get hGet)
    refine ⟨Dict.nodup_set h.nodup key g, ?_, ?_, ?_, h.few⟩
    · intro e he
      rcases hEach e he with rfl | hOld
      · exact hFirst
      · exact h.first e hOld
    · intro e he
      rcases hEach e he with rfl | hOld
      · exact hCount
      · exact h.count e hOld
    · intro e he
      rcases hEach e he with rfl | hOld
      · exact hFp
      · exact h.fps e hOld
  unfold Batch.add
  cases hGet : b.groups.get key with
  | none =>
    refine ⟨hSet ⟨ts, ts, 1⟩ hTs (le_refl 1), ?_⟩
    intro p
    unfold groupCount
    rw [Dict.total_set_new hGet]
    unfold groupWeight one
    split <;> simp
  | some g =>
    have hMem := Dict.mem_of_get hGet
    refine ⟨hSet _ ?_ (Nat.le_add_left 1 g.count), ?_⟩
    · simp only
      split
      · exact hTs
      · exact h.first _ hMem
    · intro p
      unfold groupCount
      rw [Dict.total_set_old hGet]
      unfold groupWeight one
      split
      · push_cast
        ring
      · simp

theorem sound_newFp (h : Sound b) {fp : Fingerprint}
    (hRoom : ¬ maxFpPerWindow ≤ b.fps.length) : Sound { b with fps := b.fps ++ [fp] } := by
  refine ⟨h.nodup, h.first, h.count, ?_, ?_⟩
  · intro e he fp' hFp
    exact List.mem_append_left _ (h.fps e he fp' hFp)
  · rw [List.length_append, List.length_singleton]
    omega

/- What an absorbed decision leaves of the other counters. -/
structure Keeps (b b' : Batch F) : Prop where
  lines : b'.lines = b.lines
  pfail : b'.pfail = b.pfail
  eligible : b'.eligible = b.eligible
  info : b'.infoDropped = b.infoDropped
  noMatch : b'.nomatchDropped = b.nomatchDropped
  unusable : b'.priorityUnusable = b.priorityUnusable

theorem sound_addOther (h : Sound b) (e : Eligible) {ts : F} (hTs : 0 ≤ PyFloat.toRat ts) :
    Sound (b.addOther r e ts) ∧ Keeps b (b.addOther r e ts) ∧
      ∀ p, groupCount p (b.addOther r e ts) = groupCount p b + one (p .other) := by
  have hLimit : Sound b.limit := ⟨h.nodup, h.first, h.count, h.fps, h.few⟩
  unfold Batch.addOther
  simp only
  split
  · have hAdd := @sound_add F _ b.limit hLimit (e.key .other) ts hTs (fun fp hFp => by cases hFp)
    exact ⟨hAdd.1, ⟨rfl, rfl, rfl, rfl, rfl, rfl⟩, hAdd.2⟩
  · split
    · rename_i hOld
      have hAdd := @sound_add F _ b h (e.fpKey (r.fingerprint (r.buildTemplate e.text))) ts hTs
        (fun fp hFp => by
          rw [← Option.some.inj hFp]
          exact hOld)
      exact ⟨hAdd.1, ⟨rfl, rfl, rfl, rfl, rfl, rfl⟩, hAdd.2⟩
    · split
      · have hAdd := @sound_add F _ b.limit hLimit (Key.ofClass .other) ts hTs (fun fp hFp => by cases hFp)
        exact ⟨hAdd.1, ⟨rfl, rfl, rfl, rfl, rfl, rfl⟩, hAdd.2⟩
      · rename_i hRoom
        have hAdd := @sound_add F _ _ (sound_newFp h hRoom)
          (e.fpKey (r.fingerprint (r.buildTemplate e.text))) ts
          hTs (fun fp hFp => by
            rw [← Option.some.inj hFp]
            exact List.mem_append_right _ (List.mem_singleton_self _))
        exact ⟨hAdd.1, ⟨rfl, rfl, rfl, rfl, rfl, rfl⟩, hAdd.2⟩

-- Entries

/-
  A batch after some entries: the groups count the eligible
  ones class by class, and every line is accounted for.
-/
structure Tally (b : Batch F) (count : (JournalClass → Bool) → ℕ) : Prop where
  sound : Sound b
  groups : ∀ p, groupCount p b = count p
  eligible : b.eligible = count (fun _ => true)
  lines : b.lines = b.eligible + b.infoDropped + b.nomatchDropped + b.pfail
  unusable : b.priorityUnusable ≤ b.nomatchDropped

theorem tally_absorb {count : (JournalClass → Bool) → ℕ} (h : Tally b count) (decision : Decision) {ts : F}
    (hTs : 0 ≤ PyFloat.toRat ts) :
    Tally (absorb r { b with lines := b.lines + 1 } decision ts)
      (fun p => count p + one (decision.cls?.any p)) := by
  have hLines := h.lines
  have hUnusable := h.unusable
  cases decision with
  | dropInfo =>
    refine ⟨⟨h.sound.nodup, h.sound.first, h.sound.count, h.sound.fps, h.sound.few⟩, h.groups, h.eligible, ?_,
      hUnusable⟩
    simp only [absorb]
    omega
  | dropNomatch unusable =>
    refine ⟨⟨h.sound.nodup, h.sound.first, h.sound.count,
      h.sound.fps, h.sound.few⟩, h.groups, h.eligible, ?_, ?_⟩
    · simp only [absorb]
      omega
    · simp only [absorb]
      split
      · omega
      · omega
  | eligible e =>
    let counted : Batch F :=
      { b with
        lines := b.lines + 1
        eligible := b.eligible + 1 }
    have hCounted : Sound counted := ⟨h.sound.nodup, h.sound.first, h.sound.count, h.sound.fps, h.sound.few⟩
    have hAbsorb : Sound (absorb r { b with lines := b.lines + 1 }
            (.eligible e) ts) ∧
          Keeps counted (absorb r { b with lines := b.lines + 1 }
            (.eligible e) ts) ∧
          ∀ p, groupCount p (absorb r { b with lines := b.lines + 1 } (.eligible e) ts) =
            groupCount p b + one (p (e.cls.getD .other)) := by
      unfold absorb
      simp only
      cases hCls : e.cls with
      | none => exact sound_addOther hCounted e hTs
      | some cls =>
        have hAdd := @sound_add F _ counted hCounted (e.key cls) ts hTs (fun fp hFp => by cases hFp)
        exact ⟨hAdd.1, ⟨rfl, rfl, rfl, rfl, rfl, rfl⟩, hAdd.2⟩
    rcases hAbsorb with ⟨hSound, hKeeps, hCount⟩
    refine ⟨hSound, ?_, ?_, ?_, ?_⟩
    · intro p
      rw [hCount, h.groups]
      simp [Decision.cls?]
    · rw [hKeeps.eligible]
      change b.eligible + 1 = _
      rw [h.eligible]
      rfl
    · rw [hKeeps.lines, hKeeps.eligible, hKeeps.info, hKeeps.noMatch, hKeeps.pfail]
      change b.lines + 1 = b.eligible + 1 + b.infoDropped + b.nomatchDropped + b.pfail
      omega
    · rw [hKeeps.unusable, hKeeps.noMatch]
      exact hUnusable

theorem seconds?_nonneg {n : ℕ} {ts : F} (h : (seconds? n : Option F) = some ts) : 0 ≤ PyFloat.toRat ts := by
  rcases Option.map_eq_some_iff.mp h with ⟨x, hx, rfl⟩
  unfold floatOfInt? at hx
  split at hx
  · cases hx
    have hNat : (0 : ℚ) ≤ ((n : ℤ) : ℚ) := by positivity
    have hFloat := PyFloat.round_nonneg (F := F) hNat
    apply PyFloat.round_nonneg
    positivity
  · cases hx

theorem fieldTs_nonneg {u : Unicode} {raw : Json F} {ts : F}
    (h : fieldTs u raw = some (some ts)) : 0 ≤ PyFloat.toRat ts := by
  unfold fieldTs at h
  split at h
  · split at h
    · rcases Option.map_eq_some_iff.mp h with ⟨x, hx, hEq⟩
      cases hEq
      rcases Option.bind_eq_some_iff.mp hx with ⟨n, _, hn⟩
      exact seconds?_nonneg hn
    · cases h
  · split at h
    · rcases Option.map_eq_some_iff.mp h with ⟨x, hx, hEq⟩
      cases hEq
      exact seconds?_nonneg hx
    · cases h
  · cases h

theorem entryTs_nonneg {u : Unicode} {e : Entry F} {ts : F}
    (h : entryTs u e = some (some ts)) : 0 ≤ PyFloat.toRat ts := by
  unfold entryTs at h
  split at h
  · cases h
  · rename_i t hField
    cases h
    exact fieldTs_nonneg hField
  · exact fieldTs_nonneg h

theorem tally_consumeEntry {count : (JournalClass → Bool) → ℕ} (h : Tally b count) {e : Entry F}
    (hEntry : consumeEntry r b e = some b') :
    Tally b' (fun p => count p + one ((entryClass r e).any p)) := by
  unfold consumeEntry at hEntry
  rcases Option.bind_eq_some_iff.mp hEntry with ⟨ts, hTs, hEntry⟩
  unfold entryClass
  rw [hTs]
  have hFail : Tally { b with lines := b.lines + 1, pfail := b.pfail + 1 }
        (fun p => count p + one (none.any p)) := by
    have hLines := h.lines
    refine ⟨⟨h.sound.nodup, h.sound.first, h.sound.count, h.sound.fps, h.sound.few⟩, h.groups, h.eligible, ?_,
      h.unusable⟩
    simp only
    omega
  cases ts with
  | none =>
    cases hNull : isNull e.message with
    | true =>
      rw [hNull] at hEntry
      cases hEntry
      exact hFail
    | false =>
      rw [hNull] at hEntry
      cases hEntry
      exact hFail
  | some ts =>
    cases hNull : isNull e.message with
    | true =>
      rw [hNull] at hEntry
      cases hEntry
      exact hFail
    | false =>
      rw [hNull] at hEntry
      rcases Option.bind_eq_some_iff.mp hEntry with ⟨decision, hDecision, hEntry⟩
      cases hEntry
      rw [hDecision]
      exact tally_absorb h decision (entryTs_nonneg hTs)

theorem tally_entries {es : List (Entry F)} {count : (JournalClass → Bool) → ℕ} (h : Tally b count)
    (hRun : es.foldlM (consumeEntry r) b = some b') : Tally b' (fun p =>
      count p + es.countP (fun e => (entryClass r e).any p)) := by
  induction es generalizing b count with
  | nil =>
    cases hRun
    exact h
  | cons e rest ih =>
    rw [List.foldlM_cons] at hRun
    rcases Option.bind_eq_some_iff.mp hRun with ⟨next, hNext, hRest⟩
    have hAll := ih (tally_consumeEntry h hNext) hRest
    have hCount : (fun p => count p + (e :: rest).countP (fun e => (entryClass r e).any p)) =
        (fun p => count p + one ((entryClass r e).any p) +
          rest.countP (fun e => (entryClass r e).any p)) := by
      funext p
      rw [List.countP_cons]
      unfold one
      omega
    rw [hCount]
    exact hAll

theorem tally_consume {es : List (Entry F)} (h : consume r es = some b) :
    Tally b (fun p => es.countP (fun e => (entryClass r e).any p)) := by
  have hEmpty : Tally (Batch.empty : Batch F) (fun _ => 0) := by
    refine ⟨⟨List.nodup_nil, ?_, ?_, ?_, Nat.zero_le _⟩, ?_,
      rfl, rfl, le_refl 0⟩
    · intro e he
      cases he
    · intro e he
      cases he
    · intro e he
      cases he
    · intro p
      rfl
  have hAll := tally_entries hEmpty h
  simpa using hAll

-- Records

theorem countOf_cons (p : JournalClass → Bool) (row : Event F) (rows : List (Event F)) :
    countOf p (row :: rows) = (if p row.cls then row.n else 0) + countOf p rows := by
  unfold countOf
  rw [List.map_cons, List.sum_cons]

theorem countOf_append (p : JournalClass → Bool) (rows more : List (Event F)) :
    countOf p (rows ++ more) = countOf p rows + countOf p more := by
  unfold countOf
  rw [List.map_append, List.sum_append]

theorem countOf_perm {rows others : List (Event F)}
    (h : rows.Perm others) : countOf p rows = countOf p others :=
  (h.map _).sum_eq

theorem countOf_rows (p : JournalClass → Bool) (groups : Dict Key (Group F)) :
    ((countOf p (groups.map rowOf) : ℤ) : ℚ) = Dict.total (groupWeight p) groups := by
  induction groups with
  | nil => rfl
  | cons e rest ih =>
    have hHead : ((if p (rowOf e).cls then (rowOf e).n else 0 : ℤ) : ℚ) = groupWeight p e.1 e.2 := by
      unfold rowOf groupWeight
      by_cases hp : p e.1.cls = true
      · simp [hp]
      · simp [hp]
    rw [List.map_cons, countOf_cons, Int.cast_add, ih, hHead]
    rfl

def bucketWeight (p : JournalClass → Bool) (cls : JournalClass) (bucket : Num F × ℤ) : ℚ :=
  if p cls then (bucket.2 : ℚ) else 0

theorem countOf_folded (p : JournalClass → Bool) (fold : Dict JournalClass (Num F × ℤ)) :
    ((countOf p (fold.map foldedRow) : ℤ) : ℚ) = Dict.total (bucketWeight p) fold := by
  induction fold with
  | nil => rfl
  | cons e rest ih =>
    have hHead : ((if p (foldedRow e).cls then (foldedRow e).n
          else 0 : ℤ) : ℚ) = bucketWeight p e.1 e.2 := by
      unfold foldedRow bucketWeight
      by_cases hp : p e.1 = true
      · simp [hp]
      · simp [hp]
    rw [List.map_cons, countOf_cons, Int.cast_add, ih, hHead]
    rfl

theorem total_foldRow (p : JournalClass → Bool) (fold : Dict JournalClass (Num F × ℤ)) (row : Event F) :
    Dict.total (bucketWeight p) (foldRow fold row) =
      Dict.total (bucketWeight p) fold + ((if p row.cls then row.n else 0 : ℤ) : ℚ) := by
  unfold foldRow
  cases hGet : fold.get row.cls with
  | none =>
    rw [Dict.total_set_new hGet]
    unfold bucketWeight
    simp only [Option.getD_none, zero_add]
    split <;> simp
  | some bucket =>
    rw [Dict.total_set_old hGet]
    unfold bucketWeight
    simp only [Option.getD_some]
    split
    · push_cast
      ring
    · simp

theorem total_foldRows (p : JournalClass → Bool) (rows : List (Event F))
    (fold : Dict JournalClass (Num F × ℤ)) :
    Dict.total (bucketWeight p) (rows.foldl foldRow fold) =
      Dict.total (bucketWeight p) fold + (countOf p rows : ℚ) := by
  induction rows generalizing fold with
  | nil => simp [countOf]
  | cons row rest ih =>
    rw [List.foldl_cons, ih, total_foldRow, countOf_cons, Int.cast_add, add_assoc]

theorem countOf_records (p : JournalClass → Bool)
    (b : Batch F) : ((countOf p (records b).1 : ℤ) : ℚ) = groupCount p b := by
  unfold records groupCount
  split
  · exact countOf_rows p b.groups
  · have hSorted : countOf p (sortedRows b) = countOf p (b.groups.map rowOf) :=
      countOf_perm (List.perm_insertionSort _ _)
    have hSplit : countOf p ((sortedRows b).take keptRecords) + countOf p ((sortedRows b).drop keptRecords) =
          countOf p (sortedRows b) := by
      rw [← countOf_append, List.take_append_drop]
    have hFolded : countOf p (((foldedBuckets b).insertionSort
            (fun x y => x.1.token ≤ y.1.token)).map foldedRow) =
          countOf p ((foldedBuckets b).map foldedRow) :=
      countOf_perm ((List.perm_insertionSort _ _).map _)
    have hBuckets := countOf_folded p (foldedBuckets b)
    unfold foldedBuckets at hBuckets
    rw [total_foldRows] at hBuckets
    rw [← countOf_rows, countOf_append, hFolded, ← hSorted, ← hSplit]
    push_cast
    unfold foldedBuckets
    rw [hBuckets]
    simp [Dict.total]

/-
  The buckets that some records were folded into: one for each
  of their classes, with the first of their timestamps.
-/
structure Folded (rows : List (Event F)) (fold : Dict JournalClass (Num F × ℤ)) : Prop where
  nodup : fold.keys.Nodup
  found : ∀ row ∈ rows, ∃ bucket, fold.get row.cls = some bucket ∧ bucket.1.toRat ≤ row.ts.toRat
  bucket : ∀ cls bucket, fold.get cls = some bucket →
      1 ≤ bucket.2 ∧ ∃ row ∈ rows, row.cls = cls ∧ row.ts = bucket.1

theorem folded_foldRow {rows : List (Event F)} {fold : Dict JournalClass (Num F × ℤ)}
    (h : Folded rows fold) {row : Event F}
    (hCount : 1 ≤ row.n) : Folded (rows ++ [row]) (foldRow fold row) := by
  unfold foldRow
  have hNodup := Dict.nodup_set h.nodup row.cls
  cases hGet : fold.get row.cls with
  | none =>
    have hTs : (if earlier row.ts row.ts then row.ts else row.ts) = row.ts := ite_self _
    simp only [Option.getD_none, hTs]
    refine ⟨hNodup _, ?_, ?_⟩
    · intro x hx
      rcases List.mem_append.mp hx with hOld | hNew
      · rcases h.found x hOld with ⟨bucket, hBucket, hLe⟩
        have hNe : ¬ row.cls = x.cls := by
          intro hEq
          rw [← hEq, hGet] at hBucket
          cases hBucket
        refine ⟨bucket, ?_, hLe⟩
        rw [Dict.get_set, if_neg hNe]
        exact hBucket
      · rw [List.mem_singleton.mp hNew]
        exact ⟨_, by rw [Dict.get_set, if_pos rfl], le_refl _⟩
    · intro cls bucket hBucket
      rw [Dict.get_set] at hBucket
      split at hBucket
      · rename_i hCls
        cases hBucket
        exact ⟨by simpa using hCount, row, List.mem_append_right _ (List.mem_singleton_self _), hCls, rfl⟩
      · rcases h.bucket cls bucket hBucket with ⟨hOne, x, hx, hFrom⟩
        exact ⟨hOne, x, List.mem_append_left _ hx, hFrom⟩
  | some old =>
    rcases h.bucket _ _ hGet with ⟨hOne, from_, hFrom, hCls, hTs⟩
    have hMin : (if earlier row.ts old.1 then row.ts else old.1).toRat ≤ row.ts.toRat ∧
          (if earlier row.ts old.1 then row.ts else old.1).toRat ≤ old.1.toRat := by
      unfold earlier
      split
      · rename_i hLt
        exact ⟨le_refl _, (of_decide_eq_true hLt).le⟩
      · rename_i hLt
        have hGe : ¬ row.ts.toRat < old.1.toRat := fun hLess => hLt (decide_eq_true hLess)
        exact ⟨not_lt.mp hGe, le_refl _⟩
    simp only [Option.getD_some]
    refine ⟨hNodup _, ?_, ?_⟩
    · intro x hx
      rcases List.mem_append.mp hx with hOld | hNew
      · rcases h.found x hOld with ⟨bucket, hBucket, hLe⟩
        rw [Dict.get_set]
        split
        · rename_i hEq
          rw [← hEq, hGet] at hBucket
          cases hBucket
          exact ⟨_, rfl, hMin.2.trans hLe⟩
        · exact ⟨bucket, hBucket, hLe⟩
      · rw [List.mem_singleton.mp hNew]
        refine ⟨_, (Dict.get_set _ _ _ _).trans (if_pos rfl), ?_⟩
        exact hMin.1
    · intro cls bucket hBucket
      rw [Dict.get_set] at hBucket
      split at hBucket
      · rename_i hEq
        cases hBucket
        refine ⟨by omega, ?_⟩
        simp only
        split
        · exact ⟨row, List.mem_append_right _ (List.mem_singleton_self _), hEq, rfl⟩
        · exact ⟨from_, List.mem_append_left _ hFrom, hCls.trans hEq, hTs⟩
      · rcases h.bucket cls bucket hBucket with ⟨hPos, x, hx, hFromX⟩
        exact ⟨hPos, x, List.mem_append_left _ hx, hFromX⟩

theorem folded_foldRows {rows more : List (Event F)} {fold : Dict JournalClass (Num F × ℤ)}
    (h : Folded rows fold)
    (hCount : ∀ row ∈ more, 1 ≤ row.n) : Folded (rows ++ more) (more.foldl foldRow fold) := by
  induction more generalizing rows fold with
  | nil =>
    rw [List.append_nil]
    exact h
  | cons row rest ih =>
    have hOne := folded_foldRow h (hCount row List.mem_cons_self)
    have hRest := ih hOne (fun x hx => hCount x (List.mem_cons_of_mem _ hx))
    rw [List.append_assoc] at hRest
    exact hRest

theorem one_le_sortedRows (h : Sound b) : ∀ row ∈ sortedRows b, 1 ≤ row.n := by
  intro row hRow
  have hMem := (List.perm_insertionSort _ _).mem_iff.mp hRow
  rcases List.mem_map.mp hMem with ⟨e, he, rfl⟩
  have hOne := h.count e he
  simp only [rowOf]
  exact_mod_cast hOne

theorem folded_buckets (h : Sound b) : Folded ((sortedRows b).drop keptRecords) (foldedBuckets b) := by
  have hStart : Folded [] ([] : Dict JournalClass (Num F × ℤ)) := by
    refine ⟨List.nodup_nil, ?_, ?_⟩
    · intro row hRow
      cases hRow
    · intro cls bucket hBucket
      cases hBucket
  have hAll := @folded_foldRows F _ [] ((sortedRows b).drop keptRecords) [] hStart
    (fun row hRow => one_le_sortedRows h row (List.mem_of_mem_drop hRow))
  rw [List.nil_append] at hAll
  exact hAll

theorem length_records (h : Sound b) : (records b).1.length ≤ maxRecordsPerFile := by
  unfold records
  split
  · rename_i hFew
    simpa using hFew
  · have hKeys : (foldedBuckets b).keys.length ≤ JournalClass.all.length := by
      apply ((folded_buckets h).nodup.subperm ?_).length_le
      intro cls _
      cases cls <;> decide
    have hBuckets : (foldedBuckets b).length ≤ JournalClass.all.length := by
      simpa [Dict.keys] using hKeys
    have hTake := List.length_take_le keptRecords (sortedRows b)
    simp only [List.length_append, List.length_map, List.length_insertionSort]
    have hSum : keptRecords + JournalClass.all.length = maxRecordsPerFile := by decide
    omega

theorem fps_records (h : Sound b) : ∀ row ∈ (records b).1, ∀ fp, row.fp = some fp →
      fp ∈ b.fps.map Subtype.val := by
  have hRows : ∀ row ∈ b.groups.map rowOf, ∀ fp, row.fp = some fp → fp ∈ b.fps.map Subtype.val := by
    intro row hRow fp hFp
    rcases List.mem_map.mp hRow with ⟨e, he, rfl⟩
    rcases Option.map_eq_some_iff.mp hFp with ⟨f, hf, rfl⟩
    exact List.mem_map_of_mem (h.fps e he f hf)
  unfold records
  split
  · exact hRows
  · intro row hRow fp hFp
    rcases List.mem_append.mp hRow with hKept | hFolded
    · have hMem := (List.perm_insertionSort _ _).mem_iff.mp (List.mem_of_mem_take hKept)
      exact hRows row hMem fp hFp
    · rcases List.mem_map.mp hFolded with ⟨e, _, rfl⟩
      cases hFp

end SingboxOps.JournalReader
