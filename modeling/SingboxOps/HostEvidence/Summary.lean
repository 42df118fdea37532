import SingboxOps.Lib.Float
import SingboxOps.Lib.Text
import Mathlib.Data.List.Sort
import Mathlib.Data.Prod.Lex

/-
  Host evidence: the samples of a table, the rows a window
  reads and what it says of them.

  The operations of the store are stated for rows that carry
  more than the database has, so that a history can be told
  beside it.  The table is in the order of its ids.
-/

namespace SingboxOps.HostEvidence

open PyFloat

-- Samples

def retention : ℚ := 7 * 86400
def maxRows : ℕ := 60480
def readLimit : ℕ := 1024
def maxGap : ℚ := 25

/- `service_state`, `pid`, `restarts` and `start_us`. -/
structure Service where
  state : PyStr
  pid : ℕ
  restarts : ℕ
  startUs : ℕ
deriving DecidableEq

/- `RESOURCES` -/
inductive Resource where
  | cpuPercent
  | memoryPercent
  | load1m
  | diskPercent
  | fdPercent
  | conntrackPercent
deriving DecidableEq

/- A sample; the fields of the service are known together. -/
structure Row (F : Type) where
  epoch : F
  run : PyStr
  boot : Option PyStr
  service : Option Service
  value : Resource → Option F

variable {F : Type} [PyFloat F]

-- The Table

section Table

variable {R : Type} (row : R → Row F)

/- `max(0, clock() - RETENTION)` -/
def cutoff (clock : F) : ℚ := max 0 (toRat (sub clock retention))

/- The rows that retention leaves at a time. -/
def young (clock : F) (table : List (ℕ × R)) : List (ℕ × R) :=
  table.filter (fun p => !decide (toRat (row p.2).epoch < cutoff clock))

/- The rows but for those beyond the newest ones. -/
def newest (count : ℕ) (table : List (ℕ × R)) : List (ℕ × R) := table.drop (table.length - count)

/- The rowid of an insertion. -/
def nextId (table : List (ℕ × R)) : ℕ := (table.map Prod.fst).foldr max 0 + 1

/- The transaction of `append`. -/
def append (clock : F) (r : R) (table : List (ℕ × R)) : List (ℕ × R) :=
  let kept := newest (maxRows - 1) (young row clock table)
  kept ++ [(nextId kept, r)]

/- `ORDER BY epoch, id` -/
def rowOrder (p q : ℕ × R) : Prop := toLex (toRat (row p.2).epoch, p.1) ≤ toLex (toRat (row q.2).epoch, q.1)

instance (p q : ℕ × R) : Decidable (rowOrder row p q) := by
  unfold rowOrder
  infer_instance

/- The samples of the table in a window. -/
def inWindow (start stop : ℚ) (table : List (ℕ × R)) : List (ℕ × R) := table.filter (fun p =>
    decide (start ≤ toRat (row p.2).epoch) &&
      decide (toRat (row p.2).epoch ≤ stop))

/- The rows of the statement of `window`. -/
def query (clock start stop : F) (table : List (ℕ × R)) : List (ℕ × R) :=
  ((inWindow row (max (toRat start) (cutoff clock)) (toRat stop)
    table).insertionSort (rowOrder row)).take (readLimit + 1)

end Table

-- The Summary

/- What adjacent samples tell. -/
structure Counts where
  automaticRestartIncrements : ℕ
  processChangesObserved : ℕ
  counterResets : ℕ
  incomparableTransitions : ℕ
  gaps : ℕ
deriving DecidableEq

def Counts.add (c d : Counts) : Counts := ⟨c.automaticRestartIncrements + d.automaticRestartIncrements,
    c.processChangesObserved + d.processChangesObserved,
    c.counterResets + d.counterResets,
    c.incomparableTransitions + d.incomparableTransitions,
    c.gaps + d.gaps⟩

/- Adjacent samples of one run and boot, a little apart. -/
def Comparable (a b : Row F) : Prop := 0 < toRat (sub b.epoch (toRat a.epoch)) ∧
    toRat (sub b.epoch (toRat a.epoch)) ≤ maxGap ∧
    a.run = b.run ∧ a.boot ≠ none ∧ a.boot = b.boot

instance (a b : Row F) : Decidable (Comparable a b) := by
  unfold Comparable
  infer_instance

/- What two comparable states of the service tell. -/
def serviceCounts (s t : Service) : Counts where
  automaticRestartIncrements := t.restarts - s.restarts
  processChangesObserved :=
    if 0 < s.pid ∧ 0 < t.pid ∧ (s.pid, s.startUs) ≠ (t.pid, t.startUs) then 1 else 0
  counterResets := if t.restarts < s.restarts then 1 else 0
  incomparableTransitions := 0
  gaps := 0

def pairCounts (a b : Row F) : Counts :=
  if Comparable a b then
    match a.service, b.service with
    | some s, some t => serviceCounts s t
    | _, _ => ⟨0, 0, 0, 1, 0⟩
  else ⟨0, 0, 0, 1, 1⟩

/- The loop of `summarize` over adjacent rows. -/
def countPairs : List (Row F) → Counts
  | a :: b :: rest => (pairCounts a b).add (countPairs (b :: rest))
  | _ => ⟨0, 0, 0, 0, 0⟩

inductive Availability where
  | available
  | partly
  | noRecords
deriving DecidableEq

/- `max(values, default=None)` -/
def pyMax : List F → Option F
  | [] => none
  | v :: rest =>
    some (rest.foldl (fun best w => if toRat best < toRat w then w else best) v)

/- The known values of a resource. -/
def known (key : Resource) (rows : List (Row F)) : List F := rows.filterMap (fun r => r.value key)

structure Summary (F : Type) where
  start : F
  stop : F
  availability : Availability
  sampleCount : ℕ
  firstSampleEpoch : Option F
  lastSampleEpoch : Option F
  truncated : Bool
  retentionCutoff : ℚ
  observations : ℕ
  notRunningSamples : ℕ
  counts : Counts
  observed : Resource → ℕ
  peak : Resource → Option F

/- The five conditions of a complete window. -/
def Complete (rows : List (Row F)) (start stop : F) (truncated : Bool) (cut : ℚ) : Prop :=
  ∃ first ∈ rows.head?, ∃ last ∈ rows.getLast?, truncated = false ∧ cut ≤ toRat start ∧
      toRat (sub first.epoch (toRat start)) ≤ maxGap ∧
      toRat (sub stop (toRat last.epoch)) ≤ maxGap ∧
      (countPairs rows).gaps = 0

instance
    (rows : List (Row F)) (start stop : F) (truncated : Bool)
    (cut : ℚ) : Decidable (Complete rows start stop truncated cut) :=
  match hFirst : rows.head?, hLast : rows.getLast? with
  | some first, some last =>
    decidable_of_iff (truncated = false ∧ cut ≤ toRat start ∧ toRat (sub first.epoch (toRat start)) ≤ maxGap ∧
        toRat (sub stop (toRat last.epoch)) ≤ maxGap ∧
        (countPairs rows).gaps = 0)
      (by simp [Complete, hFirst, hLast])
  | none, _ => isFalse (by simp [Complete, hFirst])
  | some _, none => isFalse (by simp [Complete, hLast])

def summarize (rows : List (Row F)) (start stop : F) (truncated : Bool) (cut : ℚ) : Summary F where
  start := start
  stop := stop
  availability :=
    if Complete rows start stop truncated cut then .available
    else if rows = [] then .noRecords
    else .partly
  sampleCount := rows.length
  firstSampleEpoch := rows.head?.map Row.epoch
  lastSampleEpoch := rows.getLast?.map Row.epoch
  truncated := truncated
  retentionCutoff := cut
  observations := (rows.filterMap Row.service).length
  notRunningSamples := ((rows.filterMap Row.service).filter (fun s =>
      decide (s.state ≠ pyStr "active") &&
        decide (s.state ≠ pyStr "reloading"))).length
  counts := countPairs rows
  observed key := (known key rows).length
  peak key := pyMax (known key rows)

/- The rows that `window` sums up. -/
def windowRows {R : Type} (row : R → Row F) (clock start stop : F) (table : List (ℕ × R)) : List (ℕ × R) :=
  (query row clock start stop table).take readLimit

/- `window`, of bounds that are numbers in their order. -/
def window {R : Type} (row : R → Row F) (clock start stop : F) (table : List (ℕ × R)) : Summary F :=
  summarize ((windowRows row clock start stop table).map (fun p => row p.2)) start stop
    (decide (readLimit < (query row clock start stop table).length))
    (cutoff clock)

-- Peaks

theorem pyMax_spec {values : List F} {peak : F}
    (h : pyMax values = some peak) : peak ∈ values ∧ ∀ v ∈ values, toRat v ≤ toRat peak := by
  cases values with
  | nil => cases h
  | cons first rest =>
    rw [pyMax, Option.some.injEq] at h
    subst h
    induction rest generalizing first with
    | nil => simp
    | cons w rest ih =>
      rw [List.foldl_cons]
      obtain ⟨hMem, hMost⟩ := ih (if toRat first < toRat w then w else first)
      split at hMem
      · rename_i hLess
        rw [if_pos hLess] at hMost ⊢
        refine ⟨List.mem_cons_of_mem _ hMem, ?_⟩
        intro v hv
        rcases List.mem_cons.mp hv with rfl | hRest
        · exact hLess.le.trans (hMost w List.mem_cons_self)
        · exact hMost v hRest
      · rename_i hNot
        rw [if_neg hNot] at hMost ⊢
        refine ⟨?_, ?_⟩
        · rcases List.mem_cons.mp hMem with hFirst | hRest
          · rw [hFirst]
            exact List.mem_cons_self
          · exact List.mem_cons_of_mem _ (List.mem_cons_of_mem _ hRest)
        · intro v hv
          rcases List.mem_cons.mp hv with rfl | hv
          · exact hMost v List.mem_cons_self
          · rcases List.mem_cons.mp hv with rfl | hRest
            · exact (not_lt.mp hNot).trans (hMost first List.mem_cons_self)
            · exact hMost v (List.mem_cons_of_mem _ hRest)

theorem pyMax_none {values : List F} : pyMax values = none ↔ values = [] := by
  cases values with
  | nil => simp [pyMax]
  | cons v rest => simp [pyMax]

end SingboxOps.HostEvidence
