import SingboxOps.Lib.Float
import Mathlib.Data.List.Sort
import Mathlib.Data.List.Perm.Basic
import Mathlib.Data.Rat.Floor

/-
  Size pruning of the history store.

  Above the target size the oldest rows of six tables go, all
  tables taken as one timeline.  A cut is found over the union
  of their epochs; the rows before it go from every table, and
  the rest of the batch comes from the rows at the cut, table
  by table.
-/

namespace SingboxOps.SizePruning

-- Tables

/- The pruned tables. -/
inductive Source where
  | timelineSamples
  | deviceProtocolStates
  | networkProbeSamples
  | journalRuns
  | journalIngestAudit
  | operatorMarkers
deriving DecidableEq

/- `_PRUNE_SOURCES` -/
def pruneSources : List Source := [.timelineSamples, .deviceProtocolStates, .networkProbeSamples,
    .journalRuns, .journalIngestAudit, .operatorMarkers]

def pruneBatchRows : ℕ := 512

/- A row; `epoch` is the column its table is pruned by. -/
structure PrunedRow (E A : Type) where
  rowid : ℤ
  epoch : E
  data : A

/- The rows of a table, in the order of their rowids. -/
structure Table (E A : Type) where
  rows : List (PrunedRow E A)
  ordered : rows.Pairwise (fun a b => a.rowid < b.rowid)

/-
  The database.  The rows of `journal_events` name the run
  they belong to, whose `seq` is its rowid; the other three
  tables are in no list of the pruning.
-/
structure Database (E A W S J : Type) where
  table : Source → Table E A
  journalEvents : List (ℤ × A)
  incidentWindows : List W
  incidentRuntimeState : List S
  journalIngestState : List J

variable {E A W S J : Type} [LinearOrder E]

abbrev Tagged (E A : Type) := Source × PrunedRow E A

/- The rows of a table that stay. -/
def Table.keep (t : Table E A) (p : PrunedRow E A → Bool) : Table E A where
  rows := t.rows.filter p
  ordered := t.ordered.filter p

/- `SELECT epoch FROM (... UNION ALL ...)` -/
def epochs (db : Database E A W S J) : List E :=
  pruneSources.flatMap (fun s => (db.table s).rows.map PrunedRow.epoch)

/- The sum of `SELECT COUNT(*)` over the sources. -/
def total (db : Database E A W S J) : ℕ := (pruneSources.map (fun s => (db.table s).rows.length)).sum

/-
  A table after a DELETE, with the events of the journal runs
  that went.
-/
def Database.setTable (db : Database E A W S J) (s : Source) (t : Table E A) : Database E A W S J :=
  { db with
    table := Function.update db.table s t
    journalEvents :=
      if s = .journalRuns then
        db.journalEvents.filter
          (fun e => (t.rows.map PrunedRow.rowid).contains e.1)
      else db.journalEvents }

-- Rounds

/- `ORDER BY epoch ASC LIMIT 1 OFFSET k - 1` -/
def cutAt (db : Database E A W S J) (k : ℕ) : Option E := ((epochs db).insertionSort (· ≤ ·))[k - 1]?

/- `DELETE ... WHERE epoch < cut` -/
def Table.dropOlder (t : Table E A) (cut : E) : Table E A := t.keep (fun r => !decide (r.epoch < cut))

/-
  `DELETE ... WHERE rowid IN (SELECT rowid ... WHERE epoch =
  cut ORDER BY rowid ASC LIMIT n)`
-/
def Table.dropAt (t : Table E A) (cut : E) (n : ℕ) : Table E A :=
  let gone := ((t.rows.filter (fun r => decide (r.epoch = cut))).take
    n).map PrunedRow.rowid
  t.keep (fun r => !gone.contains r.rowid)

/- Strictly older than the cut. -/
def dropAllOlder (cut : E) : List Source → ℤ → Database E A W S J → ℤ × Database E A W S J
  | [], remaining, db => (remaining, db)
  | s :: rest, remaining, db =>
    if remaining ≤ 0 then (remaining, db)
    else
      let t := (db.table s).dropOlder cut
      dropAllOlder cut rest (remaining - ((db.table s).rows.length - t.rows.length : ℤ)) (db.setTable s t)

/- Top up at the cut. -/
def topUp (cut : E) : List Source → ℤ → Database E A W S J → Database E A W S J
  | [], _, db => db
  | s :: rest, remaining, db =>
    if remaining ≤ 0 then db
    else
      let t := (db.table s).dropAt cut remaining.toNat
      topUp cut rest (remaining - ((db.table s).rows.length - t.rows.length : ℤ)) (db.setTable s t)

/- One round of the loop, for a batch of `k` rows. -/
def pruneRound (k : ℕ) (db : Database E A W S J) : Database E A W S J := match cutAt db k with
  | none => db
  | some cut =>
    let first := dropAllOlder cut pruneSources k db
    topUp cut pruneSources first.1 first.2

section Batch

variable (F : Type) [PyFloat F]

open PyFloat

/-
  The rows a round deletes: at least a minimum batch and a
  tenth of all rows, and no more than there are.
-/
def batchRows (rows bytesNow target : ℕ) : ℕ :=
  let excess : F := sub (round (bytesNow : ℚ)) (toRat (round (target : ℚ) : F))
  let share : F := round (toRat excess / toRat (round (bytesNow : ℚ) : F))
  let least : F := round (1 / 10)
  let part := if toRat share < toRat least then least else share
  let wanted : F := round (toRat (round (rows : ℚ) : F) * toRat part)
  min (max pruneBatchRows (⌊toRat wanted⌋.toNat + 1)) rows

/-
  The loop; `size` gives what is measured at each round's
  beginning.  The fuel is never used up.
-/
def pruneLoop (size : ℕ → Database E A W S J → ℕ)
    (target : ℕ) : ℕ → ℕ → Database E A W S J → Option (Database E A W S J)
  | 0, _, _ => none
  | fuel + 1, i, db =>
    if size i db ≤ target then some db
    else if total db = 0 then some db
    else
      pruneLoop size target fuel (i + 1) (pruneRound (batchRows F (total db) (size i db) target) db)

/- `_prune_to_target` -/
def pruneToTarget (size : ℕ → Database E A W S J → ℕ) (target : ℕ)
    (db : Database E A W S J) : Option (Database E A W S J) :=
  pruneLoop F size target (total db + 1) 0 db

end Batch

-- One Timeline

/- The place of a table among the sources. -/
def rank (s : Source) : ℕ := pruneSources.idxOf s

/- The order rows are forgotten in. -/
def Before (a b : Tagged E A) : Prop := a.2.epoch < b.2.epoch ∨
    (a.2.epoch = b.2.epoch ∧ (rank a.1 < rank b.1 ∨ (a.1 = b.1 ∧ a.2.rowid < b.2.rowid)))

/- The rows of some tables. -/
def entriesOf (ss : List Source) (db : Database E A W S J) : List (Tagged E A) :=
  ss.flatMap (fun s => (db.table s).rows.map (Prod.mk s))

/- All rows that are pruned. -/
def entries (db : Database E A W S J) : List (Tagged E A) := entriesOf pruneSources db

/- Exactly the `k` rows that come first are gone. -/
def Forgets (k : ℕ) (db db' : Database E A W S J) : Prop := ∃ gone,
    (gone ++ entries db').Perm (entries db) ∧ gone.length = k ∧ ∀ a ∈ gone, ∀ b ∈ entries db', Before a b

/- The tables no source names are as they were. -/
structure SameElsewhere (db db' : Database E A W S J) : Prop where
  incidentWindows : db'.incidentWindows = db.incidentWindows
  incidentRuntimeState : db'.incidentRuntimeState = db.incidentRuntimeState
  journalIngestState : db'.journalIngestState = db.journalIngestState

theorem SameElsewhere.refl (db : Database E A W S J) : SameElsewhere db db := ⟨rfl, rfl, rfl⟩

theorem SameElsewhere.trans {a b c : Database E A W S J} (hFirst : SameElsewhere a b)
    (hSecond : SameElsewhere b c) : SameElsewhere a c :=
  ⟨hSecond.incidentWindows.trans hFirst.incidentWindows,
    hSecond.incidentRuntimeState.trans hFirst.incidentRuntimeState,
    hSecond.journalIngestState.trans hFirst.journalIngestState⟩

theorem sameElsewhere_setTable (db : Database E A W S J) (s : Source)
    (t : Table E A) : SameElsewhere db (db.setTable s t) :=
  ⟨rfl, rfl, rfl⟩

@[simp] theorem table_setTable_self (db : Database E A W S J) (s : Source)
    (t : Table E A) : (db.setTable s t).table s = t := by
  unfold Database.setTable
  exact Function.update_self ..

theorem table_setTable_of_ne (db : Database E A W S J) {s s' : Source} (t : Table E A)
    (h : s' ≠ s) : (db.setTable s t).table s' = db.table s' := by
  unfold Database.setTable
  exact Function.update_of_ne h ..

theorem entriesOf_cons (s : Source) (rest : List Source) (db : Database E A W S J) :
    entriesOf (s :: rest) db = (db.table s).rows.map (Prod.mk s) ++ entriesOf rest db :=
  List.flatMap_cons

theorem entriesOf_setTable {ss : List Source} {s : Source} (hOut : s ∉ ss) (db : Database E A W S J)
    (t : Table E A) : entriesOf ss (db.setTable s t) = entriesOf ss db := by
  induction ss with
  | nil => rfl
  | cons s' rest ih =>
    have hNe : s' ≠ s := fun h => hOut (h ▸ List.mem_cons_self)
    rw [entriesOf_cons, entriesOf_cons, table_setTable_of_ne db t hNe, ih (List.not_mem_of_not_mem_cons hOut)]

theorem epochs_eq (db : Database E A W S J) : epochs db = (entries db).map (fun e => e.2.epoch) := by
  unfold epochs entries entriesOf
  rw [List.map_flatMap]
  congr 1
  funext s
  rw [List.map_map]
  rfl

theorem total_eq (db : Database E A W S J) : total db = (entries db).length := by
  unfold total entries entriesOf
  rw [List.length_flatMap]
  congr 1
  apply List.map_congr_left
  intro s _
  rw [List.length_map]

theorem pairwise_entries (db : Database E A W S J) : (entries db).Pairwise (fun a b =>
      rank a.1 < rank b.1 ∨ (a.1 = b.1 ∧ a.2.rowid < b.2.rowid)) := by
  have hRank : pruneSources.Pairwise (fun s s' => rank s < rank s') := by decide
  unfold entries entriesOf
  rw [List.pairwise_flatMap]
  constructor
  · intro s _
    rw [List.pairwise_map]
    exact (db.table s).ordered.imp (fun h => Or.inr ⟨rfl, h⟩)
  · refine hRank.imp ?_
    intro s s' hLt a ha b hb
    rcases List.mem_map.mp ha with ⟨x, _, rfl⟩
    rcases List.mem_map.mp hb with ⟨y, _, rfl⟩
    exact Or.inl hLt

-- The Cut

theorem count_cut {l : List E} (hSorted : l.Pairwise (· ≤ ·)) {i : ℕ} {cut : E} (hCut : l[i]? = some cut) :
    l.countP (fun e => decide (e < cut)) ≤ i ∧ i < l.countP (fun e => decide (e ≤ cut)) := by
  obtain ⟨hi, hGet⟩ := List.getElem?_eq_some_iff.mp hCut
  have hDrop : l.drop i = cut :: l.drop (i + 1) := by rw [List.drop_eq_getElem_cons hi, hGet]
  have hSplit : l = l.take i ++ cut :: l.drop (i + 1) := by
    rw [← hDrop, List.take_append_drop]
  have hLength : (l.take i).length = i := List.length_take_of_le hi.le
  rw [hSplit, List.pairwise_append, List.pairwise_cons] at hSorted
  obtain ⟨_, ⟨hAfter, _⟩, hAcross⟩ := hSorted
  rw [hSplit, List.countP_append, List.countP_append]
  constructor
  · have hNone : (cut :: l.drop (i + 1)).countP (fun e => decide (e < cut)) = 0 := by
      rw [List.countP_eq_zero]
      intro e he
      rcases List.mem_cons.mp he with rfl | he
      · simp
      · simpa using hAfter e he
    have hFew := List.countP_le_length (p := fun e => decide (e < cut)) (l := l.take i)
    omega
  · have hAll : (l.take i).countP (fun e => decide (e ≤ cut)) = i := by
      refine (List.countP_eq_length.mpr ?_).trans hLength
      intro e he
      simpa using hAcross e he cut List.mem_cons_self
    have hOne : 1 ≤ (cut :: l.drop (i + 1)).countP (fun e => decide (e ≤ cut)) := by
      rw [Nat.one_le_iff_ne_zero, Ne, List.countP_eq_zero]
      intro hNone
      exact hNone cut List.mem_cons_self (by simp)
    omega

theorem cutAt_spec {db : Database E A W S J} {k : ℕ} (hPos : 0 < k)
    (hLe : k ≤ total db) : ∃ cut, cutAt db k = some cut ∧ ((entries db).filter
          (fun e => decide (e.2.epoch < cut))).length < k ∧
        k ≤ ((entries db).filter (fun e => decide (e.2.epoch ≤ cut))).length := by
  have hPerm := List.perm_insertionSort (· ≤ ·) (epochs db)
  have hIn : k - 1 < ((epochs db).insertionSort (· ≤ ·)).length := by
    rw [hPerm.length_eq, epochs_eq, List.length_map, ← total_eq]
    omega
  obtain ⟨cut, hCut⟩ : ∃ cut, cutAt db k = some cut := ⟨_, List.getElem?_eq_getElem hIn⟩
  refine ⟨cut, hCut, ?_⟩
  have hCount := count_cut (List.pairwise_insertionSort (· ≤ ·) (epochs db)) hCut
  rw [hPerm.countP_eq, hPerm.countP_eq, epochs_eq, List.countP_map,
    List.countP_map, List.countP_eq_length_filter,
    List.countP_eq_length_filter] at hCount
  have hBelow := hCount.1
  have hUpTo := hCount.2
  simp only [Function.comp_def] at hBelow hUpTo
  omega

-- Deleting

theorem length_dropOlder (t : Table E A) (cut : E) : (t.rows.length - (t.dropOlder cut).rows.length : ℤ) =
      (t.rows.filter (fun r => decide (r.epoch < cut))).length := by
  have hSum := List.length_eq_countP_add_countP
    (fun r : PrunedRow E A => decide (r.epoch < cut)) (l := t.rows)
  rw [List.countP_eq_length_filter, List.countP_eq_length_filter]
    at hSum
  have hKept : (t.dropOlder cut).rows = t.rows.filter (fun r => decide ¬ decide (r.epoch < cut) = true) := by
    apply List.filter_congr
    intro r _
    cases decide (r.epoch < cut) <;> rfl
  rw [hKept]
  omega

theorem eq_of_rowid {t : Table E A} {a b : PrunedRow E A} (ha : a ∈ t.rows) (hb : b ∈ t.rows)
    (h : a.rowid = b.rowid) : a = b := by
  have hNodup : (t.rows.map PrunedRow.rowid).Nodup := by
    rw [List.Nodup, List.pairwise_map]
    exact t.ordered.imp (fun hLt => hLt.ne)
  exact List.inj_on_of_nodup_map hNodup ha hb h

theorem filter_dropAt (t : Table E A) (cut : E) (n : ℕ) :
    (t.dropAt cut n).rows.filter (fun r => decide (r.epoch = cut)) =
        (t.rows.filter (fun r => decide (r.epoch = cut))).drop n ∧
      (t.dropAt cut n).rows.filter (fun r => !decide (r.epoch = cut)) =
        t.rows.filter (fun r => !decide (r.epoch = cut)) := by
  let ties := t.rows.filter (fun r => decide (r.epoch = cut))
  let gone := (ties.take n).map PrunedRow.rowid
  have hTies : ties.Pairwise (fun a b => a.rowid < b.rowid) := t.ordered.filter _
  constructor
  · change (t.rows.filter (fun r => !gone.contains r.rowid)).filter
      (fun r => decide (r.epoch = cut)) = ties.drop n
    rw [List.filter_comm]
    change ties.filter (fun r => !gone.contains r.rowid) = ties.drop n
    conv_lhs => rw [← List.take_append_drop n ties]
    rw [← List.take_append_drop n ties, List.pairwise_append] at hTies
    rw [List.filter_append, List.filter_eq_nil_iff.mpr, List.filter_eq_self.mpr, List.nil_append]
    · intro b hb
      have hOut : b.rowid ∉ gone := by
        intro hIn
        rcases List.mem_map.mp hIn with ⟨a, ha, hEq⟩
        exact absurd hEq (hTies.2.2 a ha b hb).ne
      simpa using hOut
    · intro a ha
      have hIn : a.rowid ∈ gone := List.mem_map_of_mem ha
      simpa using hIn
  · change (t.rows.filter (fun r => !gone.contains r.rowid)).filter (fun r => !decide (r.epoch = cut)) = _
    rw [List.filter_filter]
    apply List.filter_congr
    intro r hr
    cases hAt : decide (r.epoch = cut) with
    | true => rfl
    | false =>
      have hOut : r.rowid ∉ gone := by
        intro hIn
        rcases List.mem_map.mp hIn with ⟨a, ha, hEq⟩
        have hTie := List.mem_filter.mp (List.mem_of_mem_take ha)
        have hSame := eq_of_rowid hTie.1 hr hEq
        rw [hSame, hAt] at hTie
        exact absurd hTie.2 (by decide)
      simpa using hOut

theorem length_dropAt (t : Table E A) (cut : E) (n : ℕ) :
    (t.rows.length - (t.dropAt cut n).rows.length : ℤ) = min n (t.rows.filter
        (fun r => decide (r.epoch = cut))).length := by
  have hSplit : ∀ l : List (PrunedRow E A), l.length = (l.filter (fun r => decide (r.epoch = cut))).length +
          (l.filter (fun r => !decide (r.epoch = cut))).length := by
    intro l
    have hSum := List.length_eq_countP_add_countP (fun r : PrunedRow E A => decide (r.epoch = cut)) (l := l)
    rw [List.countP_eq_length_filter, List.countP_eq_length_filter] at hSum
    simpa using hSum
  have hKept := filter_dropAt t cut n
  rw [hSplit t.rows, hSplit (t.dropAt cut n).rows, hKept.1, hKept.2, List.length_drop]
  omega

/- The rows of some tables with a property of their epochs. -/
def select (p : E → Bool) (ss : List Source) (db : Database E A W S J) : List (Tagged E A) :=
  (entriesOf ss db).filter (fun e => p e.2.epoch)

theorem select_cons (p : E → Bool) (s : Source) (rest : List Source) (db : Database E A W S J) :
    select p (s :: rest) db = ((db.table s).rows.filter (fun r => p r.epoch)).map (Prod.mk s) ++
        select p rest db := by
  unfold select
  rw [entriesOf_cons, List.filter_append, List.filter_map]
  rfl

theorem select_setTable {p : E → Bool} {ss : List Source} {s : Source}
    (hOut : s ∉ ss) (db : Database E A W S J)
    (t : Table E A) : select p ss (db.setTable s t) = select p ss db := by
  unfold select
  rw [entriesOf_setTable hOut]

/- All rows before the cut go, for a batch that is larger. -/
theorem dropAllOlder_spec (cut : E)
    {ss : List Source} (hNodup : ss.Nodup) (remaining : ℤ) (db : Database E A W S J)
    (hMore : (select (fun e => decide (e < cut)) ss db).length < remaining) :
    (dropAllOlder cut ss remaining db).1 = remaining - (select (fun e => decide (e < cut)) ss db).length ∧
      (∀ s ∈ ss, ((dropAllOlder cut ss remaining db).2.table s).rows =
        (db.table s).rows.filter (fun r => !decide (r.epoch < cut))) ∧
      (∀ s ∉ ss, (dropAllOlder cut ss remaining db).2.table s = db.table s) ∧
      SameElsewhere db (dropAllOlder cut ss remaining db).2 := by
  induction ss generalizing remaining db with
  | nil =>
    exact ⟨by simp [dropAllOlder, select, entriesOf],
      fun s hs => absurd hs List.not_mem_nil,
      fun _ _ => rfl, .refl db⟩
  | cons s rest ih =>
    obtain ⟨hOut, hRest⟩ := List.nodup_cons.mp hNodup
    rw [select_cons, List.length_append, List.length_map] at hMore ⊢
    push_cast at hMore
    let t := (db.table s).dropOlder cut
    have hCount : ((db.table s).rows.length - t.rows.length : ℤ) =
        ((db.table s).rows.filter (fun r => decide (r.epoch < cut))).length :=
      length_dropOlder (db.table s) cut
    have hStep : dropAllOlder cut (s :: rest) remaining db = dropAllOlder cut rest
          (remaining - ((db.table s).rows.length - t.rows.length : ℤ))
          (db.setTable s t) := by
      rw [dropAllOlder, if_neg (by omega)]
    rw [hStep]
    have hTail := ih hRest (remaining - ((db.table s).rows.length - t.rows.length : ℤ)) (db.setTable s t)
      (by rw [select_setTable hOut]; omega)
    rw [select_setTable hOut] at hTail
    obtain ⟨hLeft, hIn, hElse, hSame⟩ := hTail
    refine ⟨?_, ?_, ?_, (sameElsewhere_setTable db s t).trans hSame⟩
    · rw [hLeft, hCount]
      push_cast
      ring
    · intro s' hs'
      rcases List.mem_cons.mp hs' with rfl | hs'
      · rw [hElse _ hOut, table_setTable_self]
        rfl
      · have hNe : s' ≠ s := fun h => hOut (h ▸ hs')
        rw [hIn s' hs', table_setTable_of_ne db t hNe]
    · intro s' hs'
      have hNe : s' ≠ s := fun h => hs' (h ▸ List.mem_cons_self)
      rw [hElse s' (fun h => hs' (List.mem_cons_of_mem _ h)), table_setTable_of_ne db t hNe]

/- The rest of the batch goes from the front of the ties. -/
theorem topUp_spec (cut : E) {ss : List Source} (hNodup : ss.Nodup) (n : ℕ) (db : Database E A W S J) :
    select (fun e => decide (e = cut)) ss (topUp cut ss n db) =
        (select (fun e => decide (e = cut)) ss db).drop n ∧
      select (fun e => !decide (e = cut)) ss (topUp cut ss n db) = select (fun e => !decide (e = cut)) ss db ∧
      (∀ s ∉ ss, (topUp cut ss n db).table s = db.table s) ∧
      SameElsewhere db (topUp cut ss n db) := by
  induction ss generalizing n db with
  | nil => exact ⟨by simp [topUp, select, entriesOf], rfl,
      fun _ _ => rfl, .refl db⟩
  | cons s rest ih =>
    obtain ⟨hOut, hRest⟩ := List.nodup_cons.mp hNodup
    by_cases hNone : (n : ℤ) ≤ 0
    · have hZero : n = 0 := by omega
      rw [topUp, if_pos hNone, hZero, List.drop_zero]
      exact ⟨rfl, rfl, fun _ _ => rfl, .refl db⟩
    · let t := (db.table s).dropAt cut n
      let ties := (db.table s).rows.filter (fun r => decide (r.epoch = cut))
      have hCount := length_dropAt (db.table s) cut n
      have hStep : topUp cut (s :: rest) n db = topUp cut rest ((n - ties.length : ℕ) : ℤ)
            (db.setTable s t) := by
        have hLeft : (n : ℤ) - ((db.table s).rows.length -
            t.rows.length : ℤ) = ((n - ties.length : ℕ) : ℤ) := by
          change (n : ℤ) - ((db.table s).rows.length - ((db.table s).dropAt cut n).rows.length : ℤ) = _
          rw [hCount]
          change (n : ℤ) - ((min n ties.length : ℕ) : ℤ) = _
          omega
        rw [topUp, if_neg hNone, Int.toNat_natCast]
        change topUp cut rest ((n : ℤ) - ((db.table s).rows.length - t.rows.length : ℤ)) _ = _
        rw [hLeft]
      obtain ⟨hAt, hOff, hElse, hSame⟩ := ih hRest (n - ties.length) (db.setTable s t)
      rw [select_setTable hOut] at hAt hOff
      have hKept := filter_dropAt (db.table s) cut n
      have hTable : (topUp cut rest ((n - ties.length : ℕ) : ℤ) (db.setTable s t)).table s = t := by
        rw [hElse s hOut, table_setTable_self]
      rw [hStep]
      refine ⟨?_, ?_, ?_, (sameElsewhere_setTable db s t).trans hSame⟩
      · rw [select_cons, select_cons, hTable, hAt, hKept.1, List.drop_append, List.length_map, List.map_drop]
      · rw [select_cons, select_cons, hTable, hOff, hKept.2]
      · intro s' hs'
        have hNe : s' ≠ s := fun h => hs' (h ▸ List.mem_cons_self)
        rw [hElse s' (fun h => hs' (List.mem_cons_of_mem _ h)), table_setTable_of_ne db t hNe]

-- One Round

theorem nodup_pruneSources : pruneSources.Nodup := by decide

theorem entries_split (p q : E → Bool) (db : Database E A W S J) : (select p pruneSources db ++
      (select (fun e => !p e && q e) pruneSources db ++ select (fun e => !p e && !q e) pruneSources db)).Perm
      (entries db) := by
  have hFirst := List.filter_append_perm (fun e : Tagged E A => p e.2.epoch) (entries db)
  have hSecond := List.filter_append_perm
    (fun e : Tagged E A => q e.2.epoch) ((entries db).filter (fun e => !p e.2.epoch))
  rw [List.filter_filter, List.filter_filter] at hSecond
  refine (List.Perm.append_left _ ?_).trans hFirst
  refine List.Perm.trans (List.Perm.of_eq ?_) hSecond
  unfold select
  congr 1 <;>
  · apply List.filter_congr
    intro e _
    exact Bool.and_comm _ _

theorem pruneRound_forgets {k : ℕ} {db : Database E A W S J} (hPos : 0 < k) (hLe : k ≤ total db) :
    Forgets k db (pruneRound k db) ∧ SameElsewhere db (pruneRound k db) := by
  obtain ⟨cut, hCut, hBelow, hUpTo⟩ := cutAt_spec hPos hLe
  let older : E → Bool := fun e => decide (e < cut)
  let tie : E → Bool := fun e => decide (e = cut)
  let first := dropAllOlder cut pruneSources k db
  obtain ⟨hLeft, hRows, _, hSame⟩ := dropAllOlder_spec cut nodup_pruneSources k db (by exact_mod_cast hBelow)
  let n := k - (select older pruneSources db).length
  have hRemain : first.1 = (n : ℤ) := by
    have hLt : (select older pruneSources db).length < k := hBelow
    change (dropAllOlder cut pruneSources k db).1 = _
    rw [hLeft]
    change (k : ℤ) - (select older pruneSources db).length = _
    omega
  have hRound : pruneRound k db = topUp cut pruneSources n first.2 := by
    unfold pruneRound
    rw [hCut]
    change topUp cut pruneSources first.1 first.2 = _
    rw [hRemain]
  -- the rows of the first pass are those that are not older
  have hFirst : entries first.2 = (entries db).filter (fun e => !older e.2.epoch) := by
    unfold entries entriesOf
    rw [List.filter_flatMap]
    apply List.flatMap_congr
    intro s hs
    rw [hRows s hs, List.filter_map]
    rfl
  have hSelect : ∀ q : E → Bool,
      select q pruneSources first.2 = select (fun e => !older e && q e) pruneSources db := by
    intro q
    change (entries first.2).filter _ = _
    rw [hFirst, List.filter_filter]
    apply List.filter_congr
    intro e _
    exact Bool.and_comm _ _
  obtain ⟨hAt, hOff, _, hSame'⟩ := topUp_spec cut nodup_pruneSources n first.2
  change select tie _ _ = (select tie _ _).drop n at hAt
  change select (fun e => !tie e) _ _ = select (fun e => !tie e) _ _ at hOff
  rw [hSelect] at hAt hOff
  let ties := select (fun e => !older e && tie e) pruneSources db
  let newer := select (fun e => !older e && !tie e) pruneSources db
  have hAfter : (ties.drop n ++ newer).Perm (entries (pruneRound k db)) := by
    have hSplit := List.filter_append_perm (fun e : Tagged E A => tie e.2.epoch) (entries (pruneRound k db))
    refine List.Perm.trans (List.Perm.of_eq ?_) hSplit
    rw [hRound]
    exact (congrArg₂ (· ++ ·) hAt hOff).symm
  have hAll := entries_split older tie db
  have hEnough : n ≤ ties.length := by
    have hCount : ((entries db).filter (fun e => decide (e.2.epoch ≤ cut))).length =
        (select older pruneSources db).length + ties.length := by
      have hPart := List.length_eq_length_filter_add
        (l := (entries db).filter (fun e => decide (e.2.epoch ≤ cut)))
        (fun e => older e.2.epoch)
      rw [hPart, List.filter_filter, List.filter_filter]
      congr 2 <;>
      · apply List.filter_congr
        intro e _
        rcases lt_trichotomy e.2.epoch cut with h | h | h
        · simp [older, tie, h, h.le, h.ne]
        · simp [older, tie, h]
        · simp [older, tie, h.le, h.not_ge, h.ne']
    omega
  have hPairs : ties.Pairwise (fun a b =>
      rank a.1 < rank b.1 ∨ (a.1 = b.1 ∧ a.2.rowid < b.2.rowid)) :=
    (pairwise_entries db).filter _
  rw [← List.take_append_drop n ties, List.pairwise_append] at hPairs
  have hTie : ∀ e ∈ ties, e.2.epoch = cut := by
    intro e he
    have hBoth := (List.mem_filter.mp he).2
    simp only [Bool.and_eq_true] at hBoth
    exact of_decide_eq_true hBoth.2
  refine ⟨⟨select older pruneSources db ++ ties.take n, ?_, ?_, ?_⟩, ?_⟩
  · refine (List.Perm.append_left _ hAfter.symm).trans ?_
    rw [List.append_assoc, ← List.append_assoc (ties.take n), List.take_append_drop]
    exact hAll
  · have hLt : (select older pruneSources db).length < k := hBelow
    rw [List.length_append, List.length_take_of_le hEnough]
    omega
  · intro a ha b hb
    have hAtLeast : b ∈ ties.drop n ∨ cut < b.2.epoch := by
      rcases List.mem_append.mp (hAfter.mem_iff.mpr hb) with hb | hb
      · exact Or.inl hb
      · right
        have hBoth := (List.mem_filter.mp hb).2
        simp only [older, tie, Bool.and_eq_true, Bool.not_eq_true', decide_eq_false_iff_not] at hBoth
        exact lt_of_le_of_ne (not_lt.mp hBoth.1) (fun h => hBoth.2 h.symm)
    rcases List.mem_append.mp ha with ha | ha
    · have hOlder : a.2.epoch < cut := of_decide_eq_true (List.mem_filter.mp ha).2
      left
      rcases hAtLeast with hb | hb
      · rw [hTie b (List.mem_of_mem_drop hb)]
        exact hOlder
      · exact hOlder.trans hb
    · have hCutA := hTie a (List.mem_of_mem_take ha)
      rcases hAtLeast with hb | hb
      · right
        exact ⟨hCutA.trans (hTie b (List.mem_of_mem_drop hb)).symm, hPairs.2.2 a ha b hb⟩
      · left
        rw [hCutA]
        exact hb
  · rw [hRound]
    exact hSame.trans hSame'

-- The Loop

theorem Forgets.total {k : ℕ} {db db' : Database E A W S J}
    (h : Forgets k db db') : k + total db' = total db := by
  obtain ⟨gone, hPerm, rfl, _⟩ := h
  rw [total_eq, total_eq, ← hPerm.length_eq, List.length_append]

theorem Forgets.refl (db : Database E A W S J) : Forgets 0 db db :=
  ⟨[], List.Perm.refl _, rfl, fun _ ha => absurd ha List.not_mem_nil⟩

theorem Forgets.trans {j k : ℕ} {a b c : Database E A W S J} (hFirst : Forgets j a b)
    (hSecond : Forgets k b c) : Forgets (j + k) a c := by
  obtain ⟨gone, hPerm, rfl, hBefore⟩ := hFirst
  obtain ⟨more, hPerm', rfl, hBefore'⟩ := hSecond
  refine ⟨gone ++ more, ?_, List.length_append, ?_⟩
  · rw [List.append_assoc]
    exact (List.Perm.append_left _ hPerm').trans hPerm
  · intro x hx y hy
    rcases List.mem_append.mp hx with hx | hx
    · exact hBefore x hx y (hPerm'.mem_iff.mp (List.mem_append_right _ hy))
    · exact hBefore' x hx y hy

section Rounds

variable (F : Type) [PyFloat F]

theorem batchRows_bounds {rows : ℕ} (hRows : rows ≠ 0) (bytesNow target : ℕ) :
    0 < batchRows F rows bytesNow target ∧ batchRows F rows bytesNow target ≤ rows := by
  unfold batchRows pruneBatchRows
  constructor
  · simp only [lt_min_iff, lt_max_iff]
    omega
  · exact min_le_right _ _

theorem pruneLoop_ends (size : ℕ → Database E A W S J → ℕ)
    (target : ℕ) {fuel : ℕ} (i : ℕ) (db : Database E A W S J)
    (hFuel : total db < fuel) : ∃ db' k j, pruneLoop F size target fuel i db = some db' ∧
        Forgets k db db' ∧ SameElsewhere db db' ∧
        (size j db' ≤ target ∨ total db' = 0) := by
  induction fuel generalizing i db with
  | zero => exact absurd hFuel (Nat.not_lt_zero _)
  | succ fuel ih =>
    by_cases hSmall : size i db ≤ target
    · exact ⟨db, 0, i, by rw [pruneLoop, if_pos hSmall], .refl db,
        .refl db, Or.inl hSmall⟩
    by_cases hEmpty : total db = 0
    · exact ⟨db, 0, i, by rw [pruneLoop, if_neg hSmall, if_pos hEmpty], .refl db,
        .refl db, Or.inr hEmpty⟩
    have hBounds := batchRows_bounds F hEmpty (size i db) target
    obtain ⟨hRound, hSame⟩ := pruneRound_forgets hBounds.1 hBounds.2
    have hTotal := hRound.total
    obtain ⟨db', k, j, hLoop, hForgets, hSame', hEnd⟩ := ih (i + 1)
        (pruneRound (batchRows F (total db) (size i db) target) db)
        (by omega)
    exact ⟨db', _, j, by rw [pruneLoop, if_neg hSmall, if_neg hEmpty, hLoop],
      hRound.trans hForgets, hSame.trans hSame', hEnd⟩

/-
  A round deletes exactly its batch, and the rows it deletes
  are the first of all in the order of epoch, source and
  rowid; the loop ends whatever is measured, the rows it has
  deleted are the first of all as well, and no table outside
  the sources is touched.
-/
theorem prune_law (size : ℕ → Database E A W S J → ℕ) (target : ℕ)
    (db : Database E A W S J) : (∀ d : Database E A W S J, ∀ bytesNow, total d ≠ 0 →
        Forgets (batchRows F (total d) bytesNow target) d
            (pruneRound (batchRows F (total d) bytesNow target) d) ∧
          SameElsewhere d (pruneRound (batchRows F (total d) bytesNow target) d)) ∧
      (∀ a b : Tagged E A, Before a b → ¬ b.2.epoch < a.2.epoch) ∧
      ∃ db' k j, pruneToTarget F size target db = some db' ∧ Forgets k db db' ∧ SameElsewhere db db' ∧
          (size j db' ≤ target ∨ total db' = 0) := by
  refine ⟨?_, ?_, ?_⟩
  · intro d bytesNow hRows
    have hBounds := batchRows_bounds F hRows bytesNow target
    exact pruneRound_forgets hBounds.1 hBounds.2
  · rintro a b (hLt | ⟨hEq, _⟩)
    · exact hLt.not_gt
    · rw [hEq]
      exact lt_irrefl _
  · exact pruneLoop_ends F size target 0 db (Nat.lt_succ_self _)

end Rounds

end SingboxOps.SizePruning
