import SingboxOps.JournalReader.Machine
import Mathlib.Tactic.Linarith

/-
  What holds of the reader's state between any two steps.

  The exchange directory is seen as a function of the file
  number.  The invariant is about this view and the committed
  state; what each phase adds to it is stated apart.
-/

namespace SingboxOps.JournalReader

open JournalIngest (Boundary)

-- Views

/- What the invariant reads of a machine. -/
structure View where
  pending : Option Pending
  cell : ℕ → Cell
  exported : ℕ → Option File
  commits : List (Source × PyStr)

def Machine.view (m : Machine) : View := ⟨m.pending, m.cell, m.exported, m.commits⟩

namespace View

variable (v : View)

/- The file a number is left with. -/
def left (keep : ℕ → Bool) (n : ℕ) : Option File :=
  if keep n then (v.cell n).visible else (v.cell n).durable

def settle (keep : ℕ → Bool) : View :=
  { v with
    cell := fun n => ⟨v.left keep n, v.left keep n⟩
    exported := fun n => (v.left keep n).or (v.exported n) }

def setVisible (n : ℕ) (f : Option File) : View :=
  { v with
    cell := fun k => if k = n then { v.cell n with visible := f } else v.cell k }

/- A file is visible or on disk under a number. -/
def InCell (n : ℕ) (f : File) : Prop := (v.cell n).visible = some f ∨ (v.cell n).durable = some f

end View

theorem cell_set (m : Machine) (n : ℕ) (c : Cell) (k : ℕ) :
    ({ m with out := m.out.set n c } : Machine).cell k = if k = n then c else m.cell k := by
  unfold Machine.cell
  rw [Dict.get_set]
  by_cases hKey : k = n
  · rw [if_pos hKey.symm, if_pos hKey]
    rfl
  · rw [if_neg (fun h => hKey h.symm), if_neg hKey]

theorem view_rename (m : Machine) (n : ℕ)
    (f : File) : (rename m n f).view = m.view.setVisible n (some f) := by
  unfold Machine.view View.setVisible
  congr 1
  funext k
  exact cell_set m n _ k

theorem view_evict (m : Machine) (n : ℕ) : (evict m n).view = m.view.setVisible n none := by
  unfold Machine.view View.setVisible
  congr 1
  funext k
  exact cell_set m n _ k

theorem view_settleOut (m : Machine) (keep : ℕ → Bool) : (settleOut m keep).view = m.view.settle keep := by
  unfold Machine.view View.settle
  congr 1
  funext n
  unfold Machine.cell settleOut View.left
  simp only
  generalize m.out = out
  induction out with
  | nil =>
    cases keep n with
    | true => rfl
    | false => rfl
  | cons e rest ih =>
    rw [List.map_cons, Dict.get, Dict.get]
    split
    · rename_i hKey
      rw [hKey]
      rfl
    · exact ih

-- The Invariant

/- The boundary a file carries after one of epoch `prev`. -/
def mark (prev : Option ℕ) (epoch : ℕ) : Boundary := match prev with
  | none => if epoch = 1 then .coldStart else .sourceGap
  | some e => if e = epoch then .none else .sourceGap

def View.epochAt (v : View) (n : ℕ) : Option ℕ := (v.exported n).map File.epoch

/- A pending batch that follows the committed state. -/
structure Fresh (c : Committed) (p : Pending) : Prop where
  seq : p.seq = c.seq + 1
  epoch : p.epoch = c.epoch
  boundary : p.boundary = c.boundary
  named : p.seq < Machine.nameLimit

structure Good (v : View) (c : Committed) : Prop where
  epoch : 1 ≤ c.epoch
  boundary : c.boundary = mark (v.epochAt c.seq) c.epoch
  order : ∀ e, v.epochAt c.seq = some e → e ≤ c.epoch
  source : c.boundary = .none → ∃ f, v.exported c.seq = some f ∧ c.source = .cursor f.stop
  pending : ∀ p, v.pending = some p → p.seq ≤ c.seq ∨ Fresh c p
  within : ∀ n f, v.InCell n f → 1 ≤ n ∧ n ≤ c.seq + 1
  old : ∀ n f, v.InCell n f → n ≤ c.seq → v.exported n = some f
  next : ∀ f, v.InCell (c.seq + 1) f → ∃ p, v.pending = some p ∧ Fresh c p ∧ f = p.file c.source
  synced : ∀ f, (v.cell (c.seq + 1)).durable = some f ↔ v.exported (c.seq + 1) = some f
  shown : ∀ f, (v.cell (c.seq + 1)).durable = some f → (v.cell (c.seq + 1)).visible = some f
  numbered : ∀ n f, v.exported n = some f → 1 ≤ n ∧ n ≤ c.seq + 1 ∧ f.seq = n
  all : ∀ n, 1 ≤ n → n ≤ c.seq → (v.exported n).isSome
  marked : ∀ n f, v.exported n = some f → 1 ≤ f.epoch ∧ f.boundary = mark (v.epochAt (n - 1)) f.epoch ∧
        ∀ e, v.epochAt (n - 1) = some e → e ≤ f.epoch
  chain : ∀ n f g, v.exported n = some g →
      v.exported (n + 1) = some f → f.boundary = .none → f.start = .cursor g.stop
  length : v.commits.length = c.seq
  ranges : ∀ n f, v.exported n = some f → n ≤ c.seq → v.commits[n - 1]? = some (f.start, f.stop)

/- No file of the next number, visible or on disk. -/
def Clear (v : View) (c : Committed) : Prop := ∀ f, ¬ v.InCell (c.seq + 1) f

variable {v : View} {c : Committed}

-- Files of the Next Number

theorem Good.clear_of_settled (h : Good v c) (hPending : v.pending = none) : Clear v c := by
  intro f hf
  rcases h.next f hf with ⟨p, hp, _⟩
  rw [hPending] at hp
  cases hp

theorem Good.not_exported (h : Good v c) (hClear : Clear v c) : v.exported (c.seq + 1) = none := by
  cases hExported : v.exported (c.seq + 1) with
  | none => rfl
  | some f => exact absurd (Or.inr ((h.synced f).mpr hExported)) (hClear f)

theorem Good.exported_settle (h : Good v c) (keep : ℕ → Bool) (n : ℕ) :
    (v.settle keep).exported n = if n = c.seq + 1 then v.left keep n else v.exported n := by
  have hLeft : ∀ f, v.left keep n = some f → v.InCell n f := by
    intro f hf
    unfold View.left at hf
    split at hf
    · exact Or.inl hf
    · exact Or.inr hf
  change (v.left keep n).or (v.exported n) = _
  split
  · rename_i hn
    cases hKept : v.left keep n with
    | some f => rfl
    | none =>
      cases hExported : v.exported n with
      | none => rfl
      | some f =>
        rw [hn] at hExported hKept
        have hDurable := (h.synced f).mpr hExported
        unfold View.left at hKept
        rw [hDurable, h.shown f hDurable] at hKept
        simp at hKept
  · rename_i hn
    cases hKept : v.left keep n with
    | none => rfl
    | some f =>
      have hIn := hLeft f hKept
      have hBound := h.within n f hIn
      rw [h.old n f hIn (by omega)]
      rfl

theorem good_settle (h : Good v c) (keep : ℕ → Bool) : Good (v.settle keep) c := by
  have hExported := h.exported_settle keep
  have hOld : ∀ n, n ≠ c.seq + 1 → (v.settle keep).exported n = v.exported n := by
    intro n hn
    rw [hExported, if_neg hn]
  have hIn : ∀ n f, (v.settle keep).InCell n f → v.left keep n = some f ∧ v.InCell n f := by
    intro n f hf
    have hLeft : v.left keep n = some f := by
      rcases hf with hVisible | hDurable
      · exact hVisible
      · exact hDurable
    refine ⟨hLeft, ?_⟩
    unfold View.left at hLeft
    split at hLeft
    · exact Or.inl hLeft
    · exact Or.inr hLeft
  have hEpoch : (v.settle keep).epochAt c.seq = v.epochAt c.seq := by
    unfold View.epochAt
    rw [hOld c.seq (by omega)]
  -- a file of the next number is the pending batch's
  have hNext : ∀ f, (v.settle keep).exported (c.seq + 1) = some f →
      ∃ p, v.pending = some p ∧ Fresh c p ∧ f = p.file c.source := by
    intro f hf
    rw [hExported, if_pos rfl] at hf
    exact h.next f (hIn _ f (Or.inl hf)).2
  exact
    { epoch := h.epoch
      boundary := by
        rw [hEpoch]
        exact h.boundary
      order := by
        rw [hEpoch]
        exact h.order
      source := by
        rw [hOld c.seq (by omega)]
        exact h.source
      pending := h.pending
      within := fun n f hf => h.within n f (hIn n f hf).2
      old := by
        intro n f hf hn
        rw [hOld n (by omega)]
        exact h.old n f (hIn n f hf).2 hn
      next := fun f hf => h.next f (hIn _ f hf).2
      synced := by
        intro f
        rw [hExported, if_pos rfl]
        rfl
      shown := fun _ hf => hf
      numbered := by
        intro n f hf
        by_cases hn : n = c.seq + 1
        · subst hn
          rcases hNext f hf with ⟨p, _, hFresh, rfl⟩
          exact ⟨by omega, le_refl _, hFresh.seq⟩
        · rw [hOld n hn] at hf
          exact h.numbered n f hf
      all := by
        intro n h1 hn
        rw [hOld n (by omega)]
        exact h.all n h1 hn
      marked := by
        intro n f hf
        by_cases hn : n = c.seq + 1
        · subst hn
          rcases hNext f hf with ⟨p, _, hFresh, rfl⟩
          rw [Nat.add_sub_cancel, hEpoch]
          change 1 ≤ p.epoch ∧ p.boundary = mark _ p.epoch ∧ _
          rw [hFresh.epoch, hFresh.boundary]
          refine ⟨h.epoch, h.boundary, ?_⟩
          intro e he
          change e ≤ p.epoch
          rw [hFresh.epoch]
          exact h.order e he
        · rw [hOld n hn] at hf
          have hBefore : n - 1 ≠ c.seq + 1 := by
            have hBound := h.numbered n f hf
            omega
          unfold View.epochAt
          rw [hOld (n - 1) hBefore]
          exact h.marked n f hf
      chain := by
        intro n f g hg hf hNone
        by_cases hn : n = c.seq
        · subst hn
          rw [hOld c.seq (by omega)] at hg
          rcases hNext f hf with ⟨p, _, hFresh, rfl⟩
          have hBoundary : c.boundary = .none := by
            rw [← hFresh.boundary]
            exact hNone
          rcases h.source hBoundary with ⟨f', hf', hSource⟩
          rw [hg] at hf'
          cases hf'
          exact hSource
        · by_cases hLast : n = c.seq + 1
          · subst hLast
            have hBound : c.seq + 1 + 1 ≤ c.seq + 1 := by
              rw [hOld (c.seq + 1 + 1) (by omega)] at hf
              exact (h.numbered _ f hf).2.1
            omega
          · rw [hOld n hLast] at hg
            rw [hOld (n + 1) (by omega)] at hf
            exact h.chain n f g hg hf hNone
      length := h.length
      ranges := by
        intro n f hf hn
        rw [hOld n (by omega)] at hf
        exact h.ranges n f hf hn }

-- The Steps of a Cycle

theorem good_poll (h : Good v c) (hClear : Clear v c) {p : Pending}
    (hFresh : Fresh c p) : Good { v with pending := some p } c :=
  { h with
    pending := by
      intro q hq
      cases hq
      exact Or.inr hFresh
    next := fun f hf => absurd hf (hClear f) }

theorem good_unlink (h : Good v c) (hClear : Clear v c) : Good { v with pending := none } c :=
  { h with
    pending := by
      intro q hq
      cases hq
    next := fun f hf => absurd hf (hClear f) }

theorem inCell_setVisible {n k : ℕ} {f g : File}
    (h : (v.setVisible k (some g)).InCell n f) : (n = k ∧ f = g) ∨ v.InCell n f := by
  unfold View.InCell View.setVisible at h
  simp only at h
  by_cases hn : n = k
  · rw [if_pos hn] at h
    rcases h with hVisible | hDurable
    · exact Or.inl ⟨hn, (Option.some.inj hVisible).symm⟩
    · rw [← hn] at hDurable
      exact Or.inr (Or.inr hDurable)
  · rw [if_neg hn] at h
    exact Or.inr h

theorem good_rename (h : Good v c) {p : Pending} (hPending : v.pending = some p) (hFresh : Fresh c p)
    (hClear : Clear v c) : Good (v.setVisible p.seq (some (p.file c.source))) c := by
  have hSeq := hFresh.seq
  have hIn : ∀ n f, (v.setVisible p.seq (some (p.file c.source))).InCell n f →
        (n = c.seq + 1 ∧ f = p.file c.source) ∨ (n ≠ c.seq + 1 ∧ v.InCell n f) := by
    intro n f hf
    rcases inCell_setVisible hf with ⟨hn, hf⟩ | hOld
    · exact Or.inl ⟨hn.trans hSeq, hf⟩
    · refine Or.inr ⟨?_, hOld⟩
      intro hn
      rw [hn] at hOld
      exact hClear f hOld
  have hDurable : ((v.setVisible p.seq (some (p.file c.source))).cell (c.seq + 1)).durable = none := by
    have hNone : (v.cell (c.seq + 1)).durable = none := by
      cases hCell : (v.cell (c.seq + 1)).durable with
      | none => rfl
      | some f => exact absurd (Or.inr hCell) (hClear f)
    unfold View.setVisible
    simp only [hSeq, if_true]
    exact hNone
  exact
    { h with
      within := by
        intro n f hf
        rcases hIn n f hf with ⟨rfl, _⟩ | ⟨_, hOld⟩
        · exact ⟨by omega, le_refl _⟩
        · exact h.within n f hOld
      old := by
        intro n f hf hn
        rcases hIn n f hf with ⟨rfl, _⟩ | ⟨_, hOld⟩
        · omega
        · exact h.old n f hOld hn
      next := by
        intro f hf
        rcases hIn _ f hf with ⟨_, rfl⟩ | ⟨hNe, _⟩
        · exact ⟨p, hPending, hFresh, rfl⟩
        · exact absurd rfl hNe
      synced := by
        intro f
        rw [hDurable]
        change none = some f ↔ v.exported (c.seq + 1) = some f
        rw [h.not_exported hClear]
      shown := by
        intro f hf
        rw [hDurable] at hf
        cases hf }

theorem good_evict (h : Good v c) (hClear : Clear v c) (k : ℕ) : Good (v.setVisible k none) c := by
  have hIn : ∀ n f, (v.setVisible k none).InCell n f →
      v.InCell n f := by
    intro n f hf
    unfold View.InCell View.setVisible at hf
    simp only at hf
    split at hf
    · rename_i hn
      rcases hf with hVisible | hDurable
      · cases hVisible
      · rw [← hn] at hDurable
        exact Or.inr hDurable
    · exact hf
  have hDurable : ((v.setVisible k none).cell (c.seq + 1)).durable = (v.cell (c.seq + 1)).durable := by
    unfold View.setVisible
    simp only
    split
    · rename_i hn
      rw [hn]
    · rfl
  exact
    { h with
      within := fun n f hf => h.within n f (hIn n f hf)
      old := fun n f hf => h.old n f (hIn n f hf)
      next := fun f hf => h.next f (hIn _ f hf)
      synced := by
        intro f
        rw [hDurable]
        exact h.synced f
      shown := by
        intro f hf
        rw [hDurable] at hf
        exact absurd (Or.inr hf) (hClear f) }

theorem good_commit (h : Good v c) {p : Pending} (hPending : v.pending = some p) (hFresh : Fresh c p)
    (hExported : v.exported (c.seq + 1) = some (p.file c.source)) : Good { v with
        commits := v.commits ++ [(c.source, p.sourceEnd)] }
      (step4Committed p) := by
  have hSeq : (step4Committed p).seq = c.seq + 1 := hFresh.seq
  have hEpochAt : v.epochAt (c.seq + 1) = some p.epoch := by
    unfold View.epochAt
    rw [hExported]
    rfl
  have hNone : ∀ f, ¬ v.InCell (c.seq + 1 + 1) f := by
    intro f hf
    have hBound := h.within _ f hf
    omega
  have hNotExported : v.exported (c.seq + 1 + 1) = none := by
    cases hNext : v.exported (c.seq + 1 + 1) with
    | none => rfl
    | some f =>
      have hBound := h.numbered _ f hNext
      omega
  exact
    { epoch := by
        change 1 ≤ p.epoch
        rw [hFresh.epoch]
        exact h.epoch
      boundary := by
        rw [hSeq]
        change Boundary.none = mark (v.epochAt (c.seq + 1)) p.epoch
        rw [hEpochAt, mark, if_pos rfl]
      order := by
        intro e he
        rw [hSeq] at he
        change v.epochAt (c.seq + 1) = some e at he
        rw [hEpochAt] at he
        cases he
        exact le_refl _
      source := by
        intro _
        rw [hSeq]
        exact ⟨_, hExported, rfl⟩
      pending := by
        intro q hq
        change v.pending = some q at hq
        rw [hPending] at hq
        cases hq
        exact Or.inl (le_refl _)
      within := by
        intro n f hf
        have hBound := h.within n f hf
        rw [hSeq]
        exact ⟨hBound.1, by omega⟩
      old := by
        intro n f hf hn
        rw [hSeq] at hn
        by_cases hLast : n = c.seq + 1
        · subst hLast
          rcases h.next f hf with ⟨q, hq, _, rfl⟩
          rw [hPending] at hq
          cases hq
          exact hExported
        · exact h.old n f hf (by omega)
      next := by
        intro f hf
        rw [hSeq] at hf
        exact absurd hf (hNone f)
      synced := by
        intro f
        rw [hSeq]
        change (v.cell (c.seq + 1 + 1)).durable = some f ↔ v.exported (c.seq + 1 + 1) = some f
        rw [hNotExported]
        constructor
        · intro hf
          exact absurd (Or.inr hf) (hNone f)
        · intro hf
          cases hf
      shown := by
        intro f hf
        rw [hSeq] at hf
        exact absurd (Or.inr hf) (hNone f)
      numbered := by
        intro n f hf
        have hBound := h.numbered n f hf
        rw [hSeq]
        exact ⟨hBound.1, by omega, hBound.2.2⟩
      all := by
        intro n h1 hn
        rw [hSeq] at hn
        by_cases hLast : n = c.seq + 1
        · subst hLast
          change (v.exported (c.seq + 1)).isSome
          rw [hExported]
          rfl
        · exact h.all n h1 (by omega)
      marked := h.marked
      chain := h.chain
      length := by
        change (v.commits ++ [_]).length = _
        rw [List.length_append, h.length, hSeq]
        rfl
      ranges := by
        intro n f hf hn
        rw [hSeq] at hn
        change (v.commits ++ [_])[n - 1]? = _
        by_cases hLast : n = c.seq + 1
        · subst hLast
          change v.exported (c.seq + 1) = some f at hf
          rw [hExported] at hf
          cases hf
          rw [Nat.add_sub_cancel, ← h.length,
            List.getElem?_concat_length]
          rfl
        · have hBound := h.numbered n f hf
          rw [List.getElem?_append_left (by rw [h.length]; omega)]
          exact h.ranges n f hf (by omega) }

theorem good_reset (h : Good v c) (hPending : v.pending = none)
    (anchor : Source) : Good v ⟨c.seq, c.epoch + 1, .sourceGap, anchor⟩ := by
  have hClear := h.clear_of_settled hPending
  exact
    { h with
      epoch := by
        change 1 ≤ c.epoch + 1
        omega
      boundary := by
        change Boundary.sourceGap = mark (v.epochAt c.seq) (c.epoch + 1)
        unfold mark
        cases hLast : v.epochAt c.seq with
        | none =>
          have hEpoch := h.epoch
          simp only
          rw [if_neg (by omega)]
        | some e =>
          have hOrder := h.order e hLast
          simp only
          rw [if_neg (by omega)]
      order := by
        intro e he
        have hOrder := h.order e he
        change e ≤ c.epoch + 1
        omega
      source := by
        intro hNone
        cases hNone
      pending := by
        intro q hq
        rw [hPending] at hq
        cases hq
      next := fun f hf => absurd hf (hClear f) }

theorem good_activate (anchor : Source) (hPending : v.pending = none) (hCell : ∀ n f, ¬ v.InCell n f)
    (hExported : ∀ n, v.exported n = none)
    (hCommits : v.commits = []) : Good v ⟨0, 1, .coldStart, anchor⟩ := by
  have hAbsurd : ∀ {n f}, v.exported n = some f → False := by
    intro n f hf
    rw [hExported n] at hf
    cases hf
  have hEpochAt : v.epochAt 0 = none := by
    unfold View.epochAt
    rw [hExported]
    rfl
  exact
    { epoch := le_refl _
      boundary := by
        change Boundary.coldStart = mark (v.epochAt 0) 1
        rw [hEpochAt]
        rfl
      order := by
        intro e he
        change v.epochAt 0 = some e at he
        rw [hEpochAt] at he
        cases he
      source := by
        intro hNone
        cases hNone
      pending := by
        intro q hq
        rw [hPending] at hq
        cases hq
      within := fun n f hf => absurd hf (hCell n f)
      old := fun n f hf => absurd hf (hCell n f)
      next := fun f hf => absurd hf (hCell _ f)
      synced := by
        intro f
        constructor
        · intro hf
          exact absurd (Or.inr hf) (hCell _ f)
        · intro hf
          exact (hAbsurd hf).elim
      shown := fun f hf => absurd (Or.inr hf) (hCell _ f)
      numbered := fun n f hf => (hAbsurd hf).elim
      all := by
        intro n h1 hn
        change n ≤ 0 at hn
        omega
      marked := fun n f hf => (hAbsurd hf).elim
      chain := fun n f g hg => (hAbsurd hg).elim
      length := by
        rw [hCommits]
        rfl
      ranges := fun n f hf => (hAbsurd hf).elim }

end SingboxOps.JournalReader
