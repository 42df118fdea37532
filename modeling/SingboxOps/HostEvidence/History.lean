import SingboxOps.HostEvidence.Summary
import SingboxOps.Lib.ExactRat
import SingboxOps.Lib.Trace

/-
  Histories of host samples, beside what the service did.

  A history moves the service and records samples of it at any
  clock.  Each sample is kept with what the service had done
  by then, which the database does not have.
-/

namespace SingboxOps.HostEvidence

open PyFloat

variable {F : Type} [PyFloat F]

-- The Service

/-
  The state of the service, its last process, and how often
  so far its counter grew and by how much, was reset, and its
  process changed.
-/
structure Truth where
  service : Service
  process : Option (ℕ × ℕ)
  increments : ℕ
  changes : ℕ
  resets : ℕ
deriving DecidableEq

/- The process of a state, where one runs. -/
def Service.process? (s : Service) : Option (ℕ × ℕ) :=
  if 0 < s.pid then some (s.pid, s.startUs) else none

/- The service comes to another state. -/
def Truth.moves (w : Truth) (s : Service) : Truth where
  service := s
  process := s.process?.or w.process
  increments := w.increments + (s.restarts - w.service.restarts)
  changes := match w.process, s.process? with
    | some p, some q => if p ≠ q then w.changes + 1 else w.changes
    | _, _ => w.changes
  resets :=
    if s.restarts < w.service.restarts then w.resets + 1
    else w.resets

/- The last process is the one that runs, if one does. -/
def Truth.Sound (w : Truth) : Prop := ∀ p, w.service.process? = some p → w.process = some p

/- What later moments add to what the service did. -/
structure Later (v w : Truth) : Prop where
  increments : v.increments + (w.service.restarts - v.service.restarts) ≤ w.increments
  resets :
    v.resets ≤ w.resets ∧ (w.service.restarts < v.service.restarts → v.resets < w.resets)
  changes :
    v.changes ≤ w.changes ∧
      ∀ p, v.process = some p → ∃ q, w.process = some q ∧ (p ≠ q → v.changes < w.changes)

theorem Later.refl (w : Truth) : Later w w where
  increments := by omega
  resets := ⟨le_refl _, fun h => absurd h (lt_irrefl _)⟩
  changes := ⟨le_refl _, fun p hp => ⟨p, hp, fun h => absurd rfl h⟩⟩

theorem Later.trans {u v w : Truth} (h : Later u v) (h' : Later v w) : Later u w := by
  refine ⟨?_, ?_, ?_⟩
  · have hFirst := h.increments
    have hSecond := h'.increments
    omega
  · refine ⟨h.resets.1.trans h'.resets.1, fun hLess => ?_⟩
    rcases lt_or_ge v.service.restarts u.service.restarts with
      hEarly | hKept
    · exact (h.resets.2 hEarly).trans_le h'.resets.1
    · exact h.resets.1.trans_lt (h'.resets.2 (hLess.trans_le hKept))
  · refine ⟨h.changes.1.trans h'.changes.1, fun p hp => ?_⟩
    obtain ⟨q, hq, hFirst⟩ := h.changes.2 p hp
    obtain ⟨r, hr, hSecond⟩ := h'.changes.2 q hq
    refine ⟨r, hr, fun hOther => ?_⟩
    by_cases hSame : p = q
    · rw [hSame] at hOther
      exact h.changes.1.trans_lt (hSecond hOther)
    · exact (hFirst hSame).trans_le h'.changes.1

theorem later_moves (w : Truth) (s : Service) : Later w (w.moves s) := by
  refine ⟨le_refl _, ?_, ?_⟩
  · unfold Truth.moves
    dsimp only
    split
    · exact ⟨Nat.le_succ _, fun _ => Nat.lt_succ_self _⟩
    · rename_i hNot
      exact ⟨le_refl _, fun hLess => absurd hLess hNot⟩
  · unfold Truth.moves
    dsimp only
    cases hLast : w.process with
    | none =>
      refine ⟨le_refl _, ?_⟩
      intro p hp
      cases hp
    | some p =>
      cases hNext : s.process? with
      | none =>
        refine ⟨le_refl _, ?_⟩
        intro p' hp'
        exact ⟨p', by rw [Option.none_or]; exact hp',
          fun hOther => absurd rfl hOther⟩
      | some q =>
        dsimp only
        by_cases hSame : p = q
        · rw [if_neg (not_not.mpr hSame)]
          refine ⟨le_refl _, ?_⟩
          intro p' hp'
          cases hp'
          exact ⟨q, rfl, fun hOther => absurd hSame hOther⟩
        · rw [if_pos hSame]
          refine ⟨Nat.le_succ _, ?_⟩
          intro p' hp'
          cases hp'
          exact ⟨q, rfl, fun _ => Nat.lt_succ_self _⟩

theorem Truth.Sound.moves (w : Truth) (s : Service) : (w.moves s).Sound := by
  intro p hp
  have hOwn : s.process? = some p := hp
  unfold Truth.moves
  dsimp only
  rw [hOwn, Option.some_or]

-- Histories

/- A sample and what the service had done by then. -/
abbrev Noted (F : Type) := Row F × Truth

/-
  The service, the table, every sample that was ever recorded
  and the readings of the clock of every append.
-/
structure History (F : Type) where
  truth : Truth
  table : List (ℕ × Noted F)
  recorded : List (Noted F)
  clocks : List F

/- The service moves, or a sample of it is appended. -/
inductive Event (F : Type) where
  | moves (s : Service)
  | records (clock : F) (row : Row F)

def historyStep (h : History F) : Event F → Unit × History F
  | .moves s => ((), { h with truth := h.truth.moves s })
  | .records clock row =>
    ((), { h with
      table := append Prod.fst clock (row, h.truth) h.table
      recorded := h.recorded ++ [(row, h.truth)]
      clocks := h.clocks ++ [clock] })

/- No sample has been recorded yet. -/
def History.start (s : Service) : History F := ⟨⟨s, s.process?, 0, 0, 0⟩, [], [], []⟩

/- A sample tells the state of the service, or nothing of it. -/
def Honest (h : History F) : Event F → Prop
  | .moves _ => True
  | .records _ row => ∀ s, row.service = some s → s = h.truth.service

/-
  The clock does not step back, in the samples or in the
  appends, and the samples that retention leaves have room.
-/
def Steady (h : History F) : Event F → Prop
  | .moves _ => True
  | .records clock row =>
    (∀ r ∈ h.recorded, toRat r.1.epoch ≤ toRat row.epoch) ∧ (∀ c ∈ h.clocks, toRat c ≤ toRat clock) ∧
      (young Prod.fst clock h.table).length ≤ maxRows - 1

-- What the Table Holds

/- Samples in the order of their recording and of their times. -/
def Ordered (table : List (ℕ × Noted F)) : Prop := table.Pairwise (fun p q =>
    p.1 < q.1 ∧ toRat p.2.1.epoch ≤ toRat q.2.1.epoch ∧ Later p.2.2 q.2.2)

/- A sample beside the truth of its moment. -/
def Noted.Faithful (r : Noted F) : Prop := r.2.Sound ∧ ∀ s, r.1.service = some s → s = r.2.service

/- What a history with a steady clock has stored. -/
structure Stored (h : History F) : Prop where
  sound : h.truth.Sound
  ordered : Ordered h.table
  past : ∀ p ∈ h.table, Later p.2.2 h.truth
  faithful : ∀ p ∈ h.table, p.2.Faithful
  recorded : ∀ p ∈ h.table, p.2 ∈ h.recorded
  kept : ∀ r ∈ h.recorded, (∃ id, (id, r) ∈ h.table) ∨ ∃ c ∈ h.clocks, toRat r.1.epoch < cutoff c

theorem lt_nextId {R : Type} {table : List (ℕ × R)} {p : ℕ × R} (h : p ∈ table) : p.1 < nextId table := by
  unfold nextId
  have hMax : ∀ (ids : List ℕ), ∀ n ∈ ids, n ≤ ids.foldr max 0 := by
    intro ids
    induction ids with
    | nil => simp
    | cons m ids ih =>
      intro n hn
      rw [List.foldr_cons]
      rcases List.mem_cons.mp hn with rfl | hn
      · exact le_max_left _ _
      · exact (ih n hn).trans (le_max_right _ _)
  have hLe := hMax _ p.1 (List.mem_map_of_mem h)
  omega

theorem newest_of_room {R : Type} {count : ℕ} {table : List (ℕ × R)}
    (h : table.length ≤ count) : newest count table = table := by
  unfold newest
  rw [Nat.sub_eq_zero_of_le h, List.drop_zero]

theorem stored_step {h : History F} (hStored : Stored h) {e : Event F} (hHonest : Honest h e)
    (hSteady : Steady h e) : Stored (historyStep h e).2 := by
  cases e with
  | moves s =>
    refine ⟨Truth.Sound.moves h.truth s, hStored.ordered, ?_,
      hStored.faithful, hStored.recorded, hStored.kept⟩
    intro p hp
    exact (hStored.past p hp).trans (later_moves h.truth s)
  | records clock row =>
    obtain ⟨hEpochs, -, hRoom⟩ := hSteady
    have hNext : (historyStep h (.records clock row)).2 =
          { h with
            table := young Prod.fst clock h.table ++
              [(nextId (young Prod.fst clock h.table), (row, h.truth))]
            recorded := h.recorded ++ [(row, h.truth)]
            clocks := h.clocks ++ [clock] } := by
      unfold historyStep append
      dsimp only
      rw [newest_of_room hRoom]
    have hYoung : ∀ p ∈ young Prod.fst clock h.table, p ∈ h.table := fun p hp => List.mem_of_mem_filter hp
    rw [hNext]
    refine ⟨hStored.sound, ?_, ?_, ?_, ?_, ?_⟩
    · unfold Ordered
      rw [List.pairwise_append]
      refine ⟨hStored.ordered.filter _, List.pairwise_singleton _ _, ?_⟩
      intro p hp q hq
      rw [List.mem_singleton.mp hq]
      exact ⟨lt_nextId hp, hEpochs p.2 (hStored.recorded p (hYoung p hp)), hStored.past p (hYoung p hp)⟩
    · intro p hp
      rcases List.mem_append.mp hp with hOld | hNew
      · exact hStored.past p (hYoung p hOld)
      · rw [List.mem_singleton.mp hNew]
        exact Later.refl h.truth
    · intro p hp
      rcases List.mem_append.mp hp with hOld | hNew
      · exact hStored.faithful p (hYoung p hOld)
      · rw [List.mem_singleton.mp hNew]
        exact ⟨hStored.sound, hHonest⟩
    · intro p hp
      rcases List.mem_append.mp hp with hOld | hNew
      · exact List.mem_append_left _ (hStored.recorded p (hYoung p hOld))
      · rw [List.mem_singleton.mp hNew]
        exact List.mem_append_right _ List.mem_cons_self
    · intro r hr
      rcases List.mem_append.mp hr with hOld | hNew
      · rcases hStored.kept r hOld with ⟨id, hMem⟩ | ⟨c, hc, hLess⟩
        · by_cases hAged : toRat r.1.epoch < cutoff clock
          · exact .inr ⟨clock, List.mem_append_right _ List.mem_cons_self, hAged⟩
          · refine .inl ⟨id, ?_⟩
            refine List.mem_append_left _ (List.mem_filter.mpr ⟨hMem, ?_⟩)
            simpa using hAged
        · exact .inr ⟨c, List.mem_append_left _ hc, hLess⟩
      · rw [List.mem_singleton.mp hNew]
        refine .inl ⟨nextId (young Prod.fst clock h.table), ?_⟩
        exact List.mem_append_right _ List.mem_cons_self

-- What a Window Reads

theorem ordered_inWindow {table : List (ℕ × Noted F)} (h : Ordered table)
    (start stop : ℚ) : Ordered (inWindow Prod.fst start stop table) :=
  h.filter _

theorem query_ordered {table : List (ℕ × Noted F)} (h : Ordered table) (clock start stop : F) :
    query Prod.fst clock start stop table = (inWindow Prod.fst (max (toRat start) (cutoff clock))
        (toRat stop) table).take (readLimit + 1) := by
  unfold query
  rw [List.Pairwise.insertionSort_eq]
  refine (ordered_inWindow h _ _).imp ?_
  rintro p q ⟨hId, hEpoch, -⟩
  unfold rowOrder
  rw [Prod.Lex.toLex_le_toLex]
  rcases hEpoch.lt_or_eq with hLess | hSame
  · exact .inl hLess
  · exact .inr ⟨hSame, hId.le⟩

theorem windowRows_ordered {table : List (ℕ × Noted F)} (h : Ordered table) (clock start stop : F) :
    windowRows Prod.fst clock start stop table =
      (inWindow Prod.fst (max (toRat start) (cutoff clock)) (toRat stop) table).take readLimit := by
  unfold windowRows
  rw [query_ordered h, List.take_take, min_eq_left (Nat.le_succ _)]

-- Counts

theorem pairCounts_le {p q : Noted F} (hp : p.Faithful) (hq : q.Faithful)
    (hLater : Later p.2 q.2) : (pairCounts p.1 q.1).automaticRestartIncrements +
        p.2.increments ≤ q.2.increments ∧
      (pairCounts p.1 q.1).processChangesObserved + p.2.changes ≤ q.2.changes ∧
      (pairCounts p.1 q.1).counterResets + p.2.resets ≤ q.2.resets := by
  have hIncrements := hLater.increments
  have hResets := hLater.resets
  have hChanges := hLater.changes
  unfold pairCounts
  split
  · split
    · rename_i s t hs ht
      have hFirst := hp.2 s hs
      have hSecond := hq.2 t ht
      unfold serviceCounts
      rw [hFirst, hSecond]
      refine ⟨by dsimp only; omega, ?_, ?_⟩
      · dsimp only
        split
        · rename_i hOther
          obtain ⟨hRuns, hRan, hNe⟩ := hOther
          have hBefore : p.2.process = some (p.2.service.pid, p.2.service.startUs) := hp.1 _ (if_pos hRuns)
          have hAfter : q.2.process = some (q.2.service.pid, q.2.service.startUs) := hq.1 _ (if_pos hRan)
          obtain ⟨r, hr, hLess⟩ := hChanges.2 _ hBefore
          rw [hAfter] at hr
          cases hr
          have hStrict := hLess hNe
          omega
        · have hKept := hChanges.1
          omega
      · dsimp only
        split
        · rename_i hLess
          have hStrict := hResets.2 hLess
          omega
        · have hKept := hResets.1
          omega
    · have hKept := hChanges.1
      have hSame := hResets.1
      dsimp only
      omega
  · have hKept := hChanges.1
    have hSame := hResets.1
    dsimp only
    omega

theorem countPairs_le {rows : List (ℕ × Noted F)}
    (hOrdered : Ordered rows) (hFaithful : ∀ p ∈ rows, p.2.Faithful)
    {first last : ℕ × Noted F} (hFirst : rows.head? = some first)
    (hLast : rows.getLast? = some last) :
    let counts := countPairs (rows.map (fun p => p.2.1))
    counts.automaticRestartIncrements + first.2.2.increments ≤ last.2.2.increments ∧
      counts.processChangesObserved + first.2.2.changes ≤ last.2.2.changes ∧
      counts.counterResets + first.2.2.resets ≤ last.2.2.resets := by
  induction rows generalizing first with
  | nil => cases hFirst
  | cons p rest ih =>
    cases hFirst
    cases rest with
    | nil =>
      cases hLast
      simp [countPairs]
    | cons q rest =>
      unfold Ordered at hOrdered
      rw [List.pairwise_cons] at hOrdered
      have hPair := pairCounts_le (hFaithful p List.mem_cons_self)
          (hFaithful q (List.mem_cons_of_mem _ List.mem_cons_self))
          (hOrdered.1 q List.mem_cons_self).2.2
      have hRest := ih hOrdered.2 (fun r hr => hFaithful r (List.mem_cons_of_mem _ hr))
          rfl (by
            rw [List.getLast?_cons_cons] at hLast
            exact hLast)
      simp only [List.map_cons, countPairs, Counts.add] at hRest ⊢
      omega

theorem later_last {rows : List (ℕ × Noted F)} (hOrdered : Ordered rows) {last : ℕ × Noted F}
    (hLast : rows.getLast? = some last) {p : ℕ × Noted F}
    (hp : p ∈ rows) : Later p.2.2 last.2.2 := by
  obtain ⟨before, rfl⟩ := List.getLast?_eq_some_iff.mp hLast
  rcases List.mem_append.mp hp with hOld | hOwn
  · unfold Ordered at hOrdered
    rw [List.pairwise_append] at hOrdered
    exact (hOrdered.2.2 p hOld last List.mem_cons_self).2.2
  · rw [List.mem_singleton.mp hOwn]
    exact Later.refl _

-- Completeness

theorem chain_of_gaps {rows : List (Row F)} (h : (countPairs rows).gaps = 0) : rows.IsChain Comparable := by
  induction rows with
  | nil => exact .nil
  | cons a rest ih =>
    cases rest with
    | nil => exact .singleton a
    | cons b rest =>
      rw [countPairs, Counts.add] at h
      dsimp only at h
      refine .cons_cons ?_ (ih (by omega))
      by_contra hNot
      rw [pairCounts, if_neg hNot] at h
      dsimp only at h
      omega

theorem same_of_chain {rows : List (Row F)} (h : rows.IsChain Comparable) :
    ∀ a ∈ rows, ∀ b ∈ rows, a.run = b.run ∧ a.boot = b.boot := by
  induction rows with
  | nil =>
    intro a ha
    cases ha
  | cons a rest ih =>
    have hHead : ∀ b ∈ rest, a.run = b.run ∧ a.boot = b.boot := by
      cases rest with
      | nil =>
        intro b hb
        cases hb
      | cons c rest =>
        obtain ⟨hPair, hRest⟩ := List.isChain_cons_cons.mp h
        intro b hb
        have hSame := ih hRest c List.mem_cons_self b hb
        exact ⟨hPair.2.2.1.trans hSame.1, hPair.2.2.2.2.trans hSame.2⟩
    intro b hb c hc
    rcases List.mem_cons.mp hb with hEq | hLate
    · rw [hEq]
      rcases List.mem_cons.mp hc with hSame | hOther
      · rw [hSame]
        exact ⟨rfl, rfl⟩
      · exact hHead c hOther
    · rcases List.mem_cons.mp hc with hSame | hOther
      · rw [hSame]
        exact ⟨(hHead b hLate).1.symm, (hHead b hLate).2.symm⟩
      · exact ih h.tail b hLate c hOther

/- A sample that lies near an instant. -/
def Near (x : ℚ) (a : Row F) : Prop := toRat (round |x - toRat a.epoch| : F) ≤ maxGap

theorem near_of_between {x y : ℚ} {a : Row F} (hStart : toRat a.epoch ≤ x) (hStop : x ≤ y)
    (hGap : toRat (round (y - toRat a.epoch) : F) ≤ maxGap) : Near x a := by
  unfold Near
  rw [abs_of_nonneg (by linarith)]
  exact (round_mono (by linarith)).trans hGap

/- Between comparable samples every instant is near to one. -/
theorem near_of_chain {rows : List (Row F)} {a last : Row F} {stop x : ℚ}
    (hChain : (a :: rows).IsChain Comparable) (hLast : (a :: rows).getLast? = some last)
    (hEnd : toRat (round (stop - toRat last.epoch) : F) ≤ maxGap)
    (hStart : toRat a.epoch ≤ x)
    (hStop : x ≤ stop) : ∃ r ∈ a :: rows, Near x r := by
  induction rows generalizing a with
  | nil =>
    cases hLast
    exact ⟨_, List.mem_cons_self, near_of_between hStart hStop hEnd⟩
  | cons b rest ih =>
    obtain ⟨hPair, hRest⟩ := List.isChain_cons_cons.mp hChain
    rcases le_or_gt x (toRat b.epoch) with hBefore | hAfter
    · exact ⟨a, List.mem_cons_self, near_of_between hStart hBefore hPair.2.1⟩
    · rw [List.getLast?_cons_cons] at hLast
      obtain ⟨r, hr, hNear⟩ := ih hRest hLast hAfter.le
      exact ⟨r, List.mem_cons_of_mem _ hr, hNear⟩

theorem cutoff_mono {c d : F} (h : toRat c ≤ toRat d) : cutoff c ≤ cutoff d := by
  unfold cutoff
  exact max_le_max (le_refl 0) (sub_mono h)

-- The Law

/- What a window may say of a history. -/
structure Truthful (h : History F) (clock start stop : F) : Prop where
  /- A window is available only where nothing of it is missing. -/
  whole :
    (window Prod.fst clock start stop h.table).availability = .available →
      ∀ r ∈ h.recorded, toRat start ≤ toRat r.1.epoch → toRat r.1.epoch ≤ toRat stop →
          ∃ id, (id, r) ∈ windowRows Prod.fst clock start stop h.table
  near :
    (window Prod.fst clock start stop h.table).availability = .available →
      ∀ x, toRat start ≤ x → x ≤ toRat stop → ∃ p ∈ windowRows Prod.fst clock start stop h.table, Near x p.2.1
  same :
    (window Prod.fst clock start stop h.table).availability = .available →
      ∀ p ∈ windowRows Prod.fst clock start stop h.table, ∀ q ∈ windowRows Prod.fst clock start stop h.table,
          p.2.1.run = q.2.1.run ∧ p.2.1.boot = q.2.1.boot
  /- The counts are no more than what happened in the window. -/
  counts : ∀ first last : ℕ × Noted F, (inWindow Prod.fst (max (toRat start) (cutoff clock))
        (toRat stop) h.table).head? = some first →
      (inWindow Prod.fst (max (toRat start) (cutoff clock)) (toRat stop) h.table).getLast? = some last →
      let counts := (window Prod.fst clock start stop h.table).counts
      counts.automaticRestartIncrements + first.2.2.increments ≤ last.2.2.increments ∧
        counts.processChangesObserved + first.2.2.changes ≤ last.2.2.changes ∧
        counts.counterResets + first.2.2.resets ≤ last.2.2.resets
  /- The peaks are the largest of the known values. -/
  peaks : ∀ key, ((window Prod.fst clock start stop h.table).peak key = none ↔
        known key ((windowRows Prod.fst clock start stop h.table).map (fun p => p.2.1)) = []) ∧
      ∀ peak, (window Prod.fst clock start stop h.table).peak key = some peak →
          peak ∈ known key ((windowRows Prod.fst clock start stop h.table).map (fun p => p.2.1)) ∧
          ∀ v ∈ known key ((windowRows Prod.fst clock start stop
            h.table).map (fun p => p.2.1)), toRat v ≤ toRat peak

theorem complete_of_available {R : Type} {row : R → Row F} {clock start stop : F} {table : List (ℕ × R)}
    (h : (window row clock start stop table).availability = .available) : Complete
      ((windowRows row clock start stop table).map (fun p => row p.2))
      start stop
      (decide (readLimit < (query row clock start stop table).length))
      (cutoff clock) := by
  unfold window summarize at h
  dsimp only at h
  split at h
  · rename_i hComplete
    exact hComplete
  · split at h
    · cases h
    · cases h

/- A complete window has read every sample that was recorded in it. -/
theorem whole_of_complete {h : History F} (hStored : Stored h) {clock start stop : F}
    (hClocks : ∀ c ∈ h.clocks, toRat c ≤ toRat clock) (hCut : cutoff clock ≤ toRat start)
    (hRead : ¬ readLimit < (query Prod.fst clock start stop h.table).length)
    {r : Noted F} (hr : r ∈ h.recorded) (hStart : toRat start ≤ toRat r.1.epoch)
    (hStop : toRat r.1.epoch ≤ toRat stop) :
    ∃ id, (id, r) ∈ windowRows Prod.fst clock start stop h.table := by
  rcases hStored.kept r hr with ⟨id, hMem⟩ | ⟨c, hc, hLess⟩
  · refine ⟨id, ?_⟩
    rw [query_ordered hStored.ordered, List.length_take] at hRead
    rw [windowRows_ordered hStored.ordered]
    rw [List.take_of_length_le (by omega)]
    refine List.mem_filter.mpr ⟨hMem, ?_⟩
    rw [max_eq_left hCut]
    simp [hStart, hStop]
  · have hEarlier := cutoff_mono (hClocks c hc)
    linarith

theorem truthful_of_stored {h : History F}
    (hStored : Stored h) {clock : F} (hClocks : ∀ c ∈ h.clocks, toRat c ≤ toRat clock)
    (start stop : F) : Truthful h clock start stop := by
  refine ⟨?_, ?_, ?_, ?_, ?_⟩
  · intro hAvailable r hr hStart hStop
    obtain ⟨first, -, last, -, hRead, hCut, -⟩ := complete_of_available hAvailable
    exact whole_of_complete hStored hClocks hCut (of_decide_eq_false hRead) hr hStart hStop
  · intro hAvailable x hStart hStop
    obtain ⟨first, hFirst, last, hLast, -, -, hBegin, hEnd, hGaps⟩ := complete_of_available hAvailable
    have hChain := chain_of_gaps hGaps
    cases hRows : windowRows Prod.fst clock start stop h.table with
    | nil =>
      rw [hRows] at hFirst
      cases hFirst
    | cons p rest =>
      rw [hRows] at hFirst hLast hChain
      rw [List.map_cons] at hFirst hLast hChain
      cases hFirst
      rcases le_or_gt (toRat p.2.1.epoch) x with hAfter | hBefore
      · obtain ⟨r, hr, hNear⟩ := near_of_chain hChain hLast hEnd hAfter hStop
        rw [← List.map_cons (f := fun p : ℕ × Noted F => p.2.1)] at hr
        obtain ⟨q, hq, rfl⟩ := List.mem_map.mp hr
        exact ⟨q, hq, hNear⟩
      · refine ⟨p, List.mem_cons_self, ?_⟩
        unfold Near
        rw [abs_of_neg (by linarith)]
        exact (round_mono (by linarith)).trans hBegin
  · intro hAvailable p hp q hq
    obtain ⟨first, -, last, -, -, -, -, -, hGaps⟩ := complete_of_available hAvailable
    exact same_of_chain (chain_of_gaps hGaps) p.2.1 (List.mem_map_of_mem hp) q.2.1 (List.mem_map_of_mem hq)
  · intro first last hFirst hLast
    set rows := inWindow Prod.fst (max (toRat start) (cutoff clock)) (toRat stop) h.table with hRows
    have hOrdered : Ordered rows := ordered_inWindow hStored.ordered _ _
    have hRead := windowRows_ordered hStored.ordered clock start stop
    rw [← hRows] at hRead
    have hCounts : (window Prod.fst clock start stop h.table).counts =
          countPairs ((rows.take readLimit).map (fun p => p.2.1)) := by
      unfold window summarize
      dsimp only
      rw [hRead]
    rw [hCounts]
    have hTake : (rows.take readLimit).head? = some first := by
      rw [List.head?_take, if_neg (by decide)]
      exact hFirst
    obtain ⟨final, hFinal⟩ : ∃ final, (rows.take readLimit).getLast? = some final := by
      cases hEmpty : (rows.take readLimit).getLast? with
      | some final => exact ⟨final, rfl⟩
      | none =>
        rw [List.getLast?_eq_none_iff] at hEmpty
        rw [hEmpty] at hTake
        cases hTake
    have hSub := List.take_sublist readLimit rows
    have hFaithful : ∀ p ∈ rows, Noted.Faithful p.2 :=
      fun p hp => hStored.faithful p (List.mem_of_mem_filter hp)
    have hSums := countPairs_le (hOrdered.sublist hSub)
        (fun p hp => hFaithful p (hSub.subset hp)) hTake hFinal
    have hLater := later_last hOrdered hLast (hSub.subset (List.mem_of_getLast? hFinal))
    have hIncrements := hLater.increments
    have hChanges := hLater.changes.1
    have hResets := hLater.resets.1
    exact ⟨hSums.1.trans ((Nat.le_add_right _ _).trans hIncrements),
      hSums.2.1.trans hChanges, hSums.2.2.trans hResets⟩
  · intro key
    refine ⟨pyMax_none, fun peak hPeak => pyMax_spec hPeak⟩

/-
  In a history whose clock does not step back and whose
  samples have room, every window says the truth.
-/
theorem evidence_law (s : Service)
    (events : List (Event F)) (hHonest : Guarded historyStep Honest (History.start s) events)
    (hSteady : Guarded historyStep Steady (History.start s) events) (clock start stop : F)
    (hClock : ∀ c ∈ (finalState historyStep (History.start s) events).clocks, toRat c ≤ toRat clock) :
    Truthful (finalState historyStep (History.start s) events) clock
      start stop := by
  refine truthful_of_stored ?_ hClock start stop
  have hRun : ∀ {h : History F} {rest : List (Event F)}, Stored h → Guarded historyStep Honest h rest →
          Guarded historyStep Steady h rest → Stored (finalState historyStep h rest) := by
    intro h rest hStart hTrue hCalm
    induction rest generalizing h with
    | nil => exact hStart
    | cons e rest ih => exact ih (stored_step hStart hTrue.1 hCalm.1) hTrue.2 hCalm.2
  refine hRun ⟨fun p hp => ?_, .nil, ?_, ?_, ?_, ?_⟩ hHonest hSteady
  · exact hp
  · intro p hp
    cases hp
  · intro p hp
    cases hp
  · intro p hp
    cases hp
  · intro r hr
    cases hr

-- A Clock That Steps Back

/- The service with a value of its counter. -/
def counted (restarts : ℕ) : Service := ⟨pyStr "active", 100, restarts, 7⟩

/- A sample of one run and boot. -/
def sampleAt (epoch : ℚ) (restarts : ℕ) : Row ExactRat :=
  ⟨⟨epoch⟩, pyStr "r", some (pyStr "b"), some (counted restarts), fun _ => none⟩

/- The counter grows once, and the clock steps back by 15. -/
def steppedBack : List (Event ExactRat) := [.records ⟨100⟩ (sampleAt 100 0), .records ⟨110⟩ (sampleAt 110 0),
    .records ⟨120⟩ (sampleAt 120 0), .moves (counted 1),
    .records ⟨105⟩ (sampleAt 105 1), .records ⟨115⟩ (sampleAt 115 1)]

/- A service whose counter is at zero. -/
def begun : History ExactRat := History.start (counted 0)

/- The service once it runs as another process. -/
def restarted (restarts : ℕ) : Service := ⟨pyStr "active", 200, restarts, 9⟩

/- The counter grows, a restart makes it grow again, a reset. -/
def eventful : List (Event ExactRat) :=
  [.records ⟨100⟩ (sampleAt 100 0), .moves (counted 1), .records ⟨110⟩ (sampleAt 110 1),
    .moves (restarted 2), .records ⟨120⟩ { sampleAt 120 0 with service := some (restarted 2) },
    .moves (restarted 0), .records ⟨130⟩ { sampleAt 130 0 with service := some (restarted 0) }]

/- Four samples; the window finds what happened between them. -/
theorem evidence_law_at_restart : Truthful (finalState historyStep begun eventful) ⟨135⟩ ⟨100⟩ ⟨130⟩ ∧
      (window Prod.fst ⟨135⟩ ⟨100⟩ ⟨130⟩ (finalState historyStep begun eventful).table).counts =
        ⟨2, 1, 1, 0, 0⟩ := by
  refine ⟨evidence_law (F := ExactRat) (counted 0) eventful ?_ ?_ ⟨135⟩ ⟨100⟩ ⟨130⟩ ?_, ?_⟩
  · have hTrue : ∀ (row : Row ExactRat) (s : Service), row.service = some s →
        ∀ s', row.service = some s' → s' = s := by
      intro row s hs s' hs'
      rw [hs] at hs'
      exact (Option.some.inj hs').symm
    exact ⟨hTrue _ _ rfl, trivial, hTrue _ _ rfl, trivial, hTrue _ _ rfl, trivial, hTrue _ _ rfl, trivial⟩
  · refine ⟨⟨?_, ?_, ?_⟩, trivial, ⟨?_, ?_, ?_⟩, trivial, ⟨?_, ?_, ?_⟩, trivial, ⟨?_, ?_, ?_⟩, trivial⟩
    all_goals decide +kernel
  · decide +kernel
  · decide +kernel

/-
  Interleaved stretches of one run: a window reports two
  restarts and two resets where the counter grew once.
-/
theorem evidence_law_fails : Guarded historyStep Honest begun steppedBack ∧
      ¬ Truthful (finalState historyStep begun steppedBack) ⟨120⟩ ⟨100⟩ ⟨120⟩ := by
  constructor
  · have hTrue : ∀ restarts s, (sampleAt 0 restarts).service = some s → s = counted restarts := by
      intro restarts s hs
      cases hs
      rfl
    exact ⟨hTrue 0, hTrue 0, hTrue 0, trivial, hTrue 1, hTrue 1, trivial⟩
  · intro hTruthful
    set table := (finalState historyStep begun steppedBack).table with hTable
    have hReported : (window Prod.fst ⟨120⟩ ⟨100⟩ ⟨120⟩ table).counts = ⟨2, 0, 2, 0, 0⟩ := by
      rw [hTable]
      decide +kernel
    have hEnds : (inWindow Prod.fst (max (toRat (⟨100⟩ : ExactRat))
            (cutoff (⟨120⟩ : ExactRat))) (toRat (⟨120⟩ : ExactRat))
            table).head?.map (fun p => p.2.2.increments) = some 0 ∧
          (inWindow Prod.fst (max (toRat (⟨100⟩ : ExactRat))
            (cutoff (⟨120⟩ : ExactRat))) (toRat (⟨120⟩ : ExactRat))
            table).getLast?.map (fun p => p.2.2.increments) = some 1 := by
      rw [hTable]
      decide +kernel
    obtain ⟨first, hFirst, hNone⟩ := Option.map_eq_some_iff.mp hEnds.1
    obtain ⟨last, hLast, hOnce⟩ := Option.map_eq_some_iff.mp hEnds.2
    have hCounts := (hTruthful.counts first last hFirst hLast).1
    rw [hReported, hNone, hOnce] at hCounts
    exact absurd hCounts (by decide)

end SingboxOps.HostEvidence
