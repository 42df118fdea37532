import SingboxOps.JournalReader.Invariant

/-
  Every step keeps the invariant, crashes included.
-/

namespace SingboxOps.JournalReader

open JournalIngest (Boundary)

variable {m : Machine} {c : Committed}

-- What a Restart Finds

theorem mem_durableEvSeqs {n : ℕ} : n ∈ m.durableEvSeqs ↔
      n < Machine.nameLimit ∧ (m.cell n).visible.isSome := by
  unfold Machine.durableEvSeqs
  rw [List.mem_filter, Bool.and_eq_true, decide_eq_true_eq]
  constructor
  · rintro ⟨_, hBoth⟩
    exact hBoth
  · intro hBoth
    refine ⟨?_, hBoth⟩
    by_contra hNot
    rw [← Dict.get_eq_none_iff] at hNot
    have hEmpty : m.cell n = Cell.empty := by
      unfold Machine.cell
      rw [hNot]
      rfl
    rw [hEmpty] at hBoth
    cases hBoth.2

theorem Good.seq_le (h : Good m.view c) {n : ℕ} (hn : n ∈ m.durableEvSeqs) : n ≤ c.seq + 1 := by
  rcases Option.isSome_iff_exists.mp (mem_durableEvSeqs.mp hn).2 with ⟨f, hf⟩
  exact (h.within n f (Or.inl hf)).2

theorem recovery_cases (h : Good m.view c) (hCommitted : m.committed = some c) :
    (m.pending = none ∧ evaluateRecovery m = .start) ∨
      (∃ p, m.pending = some p ∧ Clear m.view c ∧ evaluateRecovery m = .repoll) ∨
      ∃ p, m.pending = some p ∧ Fresh c p ∧ (m.cell (c.seq + 1)).visible = some (p.file c.source) ∧
        evaluateRecovery m = .finishCommit := by
  have hAbove : m.durableEvSeqs.any (fun n => decide (c.seq + 1 < n)) = false := by
    rw [List.any_eq_false]
    intro n hn
    have hLe := h.seq_le hn
    simp only [decide_eq_true_eq]
    omega
  have hEv : m.durableEvSeqs.contains (c.seq + 1) =
      decide (c.seq + 1 ∈ m.durableEvSeqs) :=
    List.elem_eq_contains.symm.trans (by simp)
  unfold evaluateRecovery
  simp only [hCommitted, hAbove, hEv]
  cases hPending : m.pending with
  | none =>
    refine Or.inl ⟨rfl, ?_⟩
    have hNot : c.seq + 1 ∉ m.durableEvSeqs := by
      intro hIn
      rcases Option.isSome_iff_exists.mp (mem_durableEvSeqs.mp hIn).2 with ⟨f, hf⟩
      exact h.clear_of_settled hPending f (Or.inl hf)
    simp [hNot]
  | some p =>
    refine Or.inr ?_
    rcases h.pending p hPending with hStale | hFresh
    · refine Or.inl ⟨p, rfl, ?_, if_pos hStale⟩
      intro f hf
      rcases h.next f hf with ⟨q, hq, hFresh, _⟩
      change m.pending = some q at hq
      rw [hPending] at hq
      cases hq
      have hSeq := hFresh.seq
      omega
    · have hSeq := hFresh.seq
      have hNamed := hFresh.named
      simp only [if_neg (show ¬ p.seq ≤ c.seq by omega),
        if_neg (show ¬ c.seq + 1 < p.seq by omega)]
      cases hVisible : (m.cell (c.seq + 1)).visible with
      | none =>
        have hNot : c.seq + 1 ∉ m.durableEvSeqs := by
          intro hIn
          rw [mem_durableEvSeqs, hVisible] at hIn
          cases hIn.2
        refine Or.inl ⟨p, rfl, ?_, by simp [hNot]⟩
        rintro f (hf | hf)
        · change (m.cell (c.seq + 1)).visible = some f at hf
          rw [hVisible] at hf
          cases hf
        · have hShown := h.shown f hf
          change (m.cell (c.seq + 1)).visible = some f at hShown
          rw [hVisible] at hShown
          cases hShown
      | some f =>
        have hIn : c.seq + 1 ∈ m.durableEvSeqs := by
          rw [mem_durableEvSeqs, hVisible]
          exact ⟨by omega, rfl⟩
        rcases h.next f (Or.inl hVisible) with ⟨q, hq, _, rfl⟩
        change m.pending = some q at hq
        rw [hPending] at hq
        cases hq
        have hMatches : m.headerMatches (c.seq + 1) p =
            true := by
          unfold Machine.headerMatches
          rw [hVisible]
          simp [Pending.file]
        refine Or.inr ⟨p, rfl, hFresh, rfl, ?_⟩
        simp [hIn, hMatches]

-- The Invariant of a Machine

/- What each phase adds to the invariant. -/
def At (m : Machine) (c : Committed) : Phase → Prop
  | .down => True
  | .activating _ => False
  | .recovering p | .synced p =>
    m.pending = some p ∧ Fresh c p ∧ m.exported (c.seq + 1) = some (p.file c.source)
  | .unlinking | .resetUnlinking _ => Clear m.view c
  | .up | .resetting _ => m.pending = none
  | .writing p start => m.pending = some p ∧ Fresh c p ∧ Clear m.view c ∧ start = c.source
  | .renamed p =>
    m.pending = some p ∧ Fresh c p ∧ (m.cell (c.seq + 1)).visible = some (p.file c.source)

/- What was observed is committed, or durable already. -/
def Seen (m : Machine) (c : Committed) : Prop :=
  ∀ n ∈ m.observed, n ≤ c.seq ∨ n = c.seq + 1 ∧ (m.exported (c.seq + 1)).isSome

/- Before the first activation there is nothing. -/
structure Blank (m : Machine) : Prop where
  pending : m.pending = none
  cell : ∀ n f, ¬ m.view.InCell n f
  exported : ∀ n, m.exported n = none
  commits : m.commits = []
  observed : m.observed = []
  phase : m.phase = .down ∨ ∃ anchor, m.phase = .activating anchor

def Inv (m : Machine) : Prop := match m.committed with
  | none => Blank m
  | some c => Good m.view c ∧ At m c m.phase ∧ Seen m c

theorem inv_some (hCommitted : m.committed = some c) : Inv m ↔ Good m.view c ∧ At m c m.phase ∧ Seen m c := by
  unfold Inv
  rw [hCommitted]

theorem inv_intro (hCommitted : m.committed = some c) (hGood : Good m.view c) (hAt : At m c m.phase)
    (hSeen : Seen m c) : Inv m :=
  (inv_some hCommitted).mpr ⟨hGood, hAt, hSeen⟩

theorem inv_fresh : Inv Machine.fresh where
  pending := rfl
  cell := by
    rintro n f (hf | hf)
    · cases hf
    · cases hf
  exported _ := rfl
  commits := rfl
  observed := rfl
  phase := Or.inl rfl

theorem exported_settleOut (h : Good m.view c) (keep : ℕ → Bool) {n : ℕ}
    (hn : n ≤ c.seq ∨ n = c.seq + 1 ∧ (m.exported (c.seq + 1)).isSome) :
    (settleOut m keep).exported n = m.exported n := by
  have hView : (settleOut m keep).exported n = (m.view.settle keep).exported n := by
    rw [← view_settleOut]
    rfl
  rw [hView, h.exported_settle]
  split
  · rename_i hLast
    rcases hn with hn | ⟨_, hSome⟩
    · omega
    · rcases Option.isSome_iff_exists.mp hSome with ⟨f, hf⟩
      have hDurable := (h.synced f).mpr hf
      have hVisible := h.shown f hDurable
      rw [hLast, hf]
      unfold View.left
      rw [hDurable, hVisible]
      simp
  · rfl

theorem seen_settleOut (h : Good m.view c) (hSeen : Seen m c)
    (keep : ℕ → Bool) : Seen (settleOut m keep) c := by
  intro n hn
  rcases hSeen n hn with hOld | ⟨hLast, hSome⟩
  · exact Or.inl hOld
  · refine Or.inr ⟨hLast, ?_⟩
    rw [exported_settleOut h keep (Or.inr ⟨rfl, hSome⟩)]
    exact hSome

theorem good_settleOut (h : Good m.view c) (keep : ℕ → Bool) : Good (settleOut m keep).view c := by
  rw [view_settleOut]
  exact good_settle h keep

theorem blank_settleOut (h : Blank m) (keep : ℕ → Bool) :
    (∀ n f, ¬ (settleOut m keep).view.InCell n f) ∧ ∀ n, (settleOut m keep).exported n = none := by
  have hLeft : ∀ n, m.view.left keep n = none := by
    intro n
    cases hLeft : m.view.left keep n with
    | none => rfl
    | some f =>
      unfold View.left at hLeft
      split at hLeft
      · exact absurd (Or.inl hLeft) (h.cell n f)
      · exact absurd (Or.inr hLeft) (h.cell n f)
  constructor
  · intro n f hf
    rw [view_settleOut] at hf
    rcases hf with hf | hf
    · change m.view.left keep n = some f at hf
      rw [hLeft] at hf
      cases hf
    · change m.view.left keep n = some f at hf
      rw [hLeft] at hf
      cases hf
  · intro n
    have hView : (settleOut m keep).exported n = (m.view.settle keep).exported n := by
      rw [← view_settleOut]
      rfl
    rw [hView]
    change (m.view.left keep n).or (m.exported n) = none
    rw [hLeft, h.exported]
    rfl

-- Steps

theorem inv_step_blank (h : Blank m) (hCommitted : m.committed = none) (e : Event) : Inv (step m e).2 := by
  have hInv : Inv m := by
    unfold Inv
    rw [hCommitted]
    exact h
  have hPhase : ∀ phase : Phase, (phase = .down ∨ ∃ anchor, phase = .activating anchor) →
        Inv { m with phase := phase } := by
    intro phase hp
    unfold Inv
    simp only [hCommitted]
    exact { h with phase := hp }
  have hNotUp : m.phase ≠ .up := by
    intro hUp
    rcases h.phase with hDown | ⟨a, hActivating⟩
    · rw [hUp] at hDown
      cases hDown
    · rw [hUp] at hActivating
      cases hActivating
  have hSettled : ∀ keep phase, (phase = .down ∨ ∃ anchor, phase = .activating anchor) →
        Inv { settleOut m keep with phase := phase } := by
    intro keep phase hp
    have hNothing := blank_settleOut h keep
    unfold Inv
    simp only [settleOut, hCommitted]
    exact
      { pending := h.pending
        cell := hNothing.1
        exported := hNothing.2
        commits := h.commits
        observed := h.observed
        phase := hp }
  have hSeqs : m.durableEvSeqs = [] := by
    apply List.eq_nil_iff_forall_not_mem.mpr
    intro n hn
    rcases Option.isSome_iff_exists.mp (mem_durableEvSeqs.mp hn).2 with ⟨f, hf⟩
    exact h.cell n f (Or.inl hf)
  cases e with
  | startup anchor =>
    simp only [step]
    split
    · have hObserved : { m with observed := m.observed ++ m.durableEvSeqs } = m := by
        rw [hSeqs, List.append_nil]
      have hAction : evaluateRecovery m = .firstActivation := by
        unfold evaluateRecovery
        simp [hCommitted, h.pending, hSeqs]
      unfold startup
      rw [hObserved]
      simp only [hAction]
      exact hPhase _ (Or.inr ⟨anchor, rfl⟩)
    · exact hInv
  | poll run stop =>
    simp only [step]
    rw [if_neg hNotUp]
    exact hInv
  | proceed =>
    simp only [step, proceed]
    rcases h.phase with hDown | ⟨anchor, hActivating⟩
    · simp only [hDown]
      exact hInv
    · simp only [hActivating]
      refine inv_intro rfl ?_ h.pending ?_
      · exact good_activate anchor h.pending h.cell h.exported h.commits
      · intro n hn
        change n ∈ m.observed at hn
        rw [h.observed] at hn
        cases hn
  | evict n =>
    simp only [step]
    rw [if_neg hNotUp]
    exact hInv
  | syncOut =>
    simp only [step]
    split
    · exact hSettled (fun _ => true) m.phase h.phase
    · exact hInv
  | reset anchor =>
    simp only [step]
    split
    · unfold resetFromNow
      simp only [hCommitted]
      exact hInv
    · exact hInv
  | die => exact hPhase _ (Or.inl rfl)
  | powerLoss keep => exact hSettled keep _ (Or.inl rfl)

theorem inv_startup (h : Good m.view c) (hCommitted : m.committed = some c) (hSeen : Seen m c)
    (hDurable : evaluateRecovery m = .finishCommit →
        (m.cell (c.seq + 1)).durable = (m.cell (c.seq + 1)).visible)
    (anchor : Source) : Inv (startup m anchor).2 := by
  let m' : Machine := { m with observed := m.observed ++ m.durableEvSeqs }
  have hSame : evaluateRecovery m' = evaluateRecovery m := rfl
  have hOld : ∀ n ∈ m.durableEvSeqs, evaluateRecovery m ≠ .finishCommit → n ≤ c.seq := by
    intro n hn hNot
    have hLe := h.seq_le hn
    by_contra hMore
    have hLast : n = c.seq + 1 := by omega
    subst hLast
    rcases Option.isSome_iff_exists.mp (mem_durableEvSeqs.mp hn).2 with ⟨f, hf⟩
    rcases recovery_cases h hCommitted with ⟨hPending, _⟩ | ⟨p, _, hClear, _⟩ | ⟨p, _, _, _, hFinish⟩
    · exact h.clear_of_settled hPending f (Or.inl hf)
    · exact hClear f (Or.inl hf)
    · exact hNot hFinish
  have hSeen' : evaluateRecovery m ≠ .finishCommit →
      Seen m' c := by
    intro hNot n hn
    rcases List.mem_append.mp hn with hBefore | hNow
    · exact hSeen n hBefore
    · exact Or.inl (hOld n hNow hNot)
  rcases recovery_cases h hCommitted with
    ⟨hPending, hAction⟩ | ⟨p, hPending, hClear, hAction⟩ | ⟨p, hPending, hFresh, hVisible, hAction⟩
  · have hEq : startup m anchor = (.ok, { m' with phase := .up }) := by
      unfold startup
      simp only [hSame, hAction, m']
    rw [hEq]
    exact inv_intro hCommitted h hPending (hSeen' (by rw [hAction]; decide))
  · have hEq : startup m anchor = (.ok, { m' with phase := .unlinking }) := by
      unfold startup
      simp only [hSame, hAction, m']
    rw [hEq]
    exact inv_intro hCommitted h hClear (hSeen' (by rw [hAction]; decide))
  · have hSynced := hDurable hAction
    have hExported : m.exported (c.seq + 1) = some (p.file c.source) := by
      apply (h.synced _).mp
      change (m.cell (c.seq + 1)).durable = _
      rw [hSynced, hVisible]
    have hEq : startup m anchor = (.ok, { m' with phase := .recovering p }) := by
      unfold startup
      simp only [hSame, hAction, m']
      simp only [hPending]
    rw [hEq]
    refine inv_intro hCommitted h ⟨hPending, hFresh, hExported⟩ ?_
    intro n hn
    rcases List.mem_append.mp hn with hBefore | hNow
    · exact hSeen n hBefore
    · have hLe := h.seq_le hNow
      rcases Nat.lt_or_ge c.seq n with hMore | hLess
      · refine Or.inr ⟨by omega, ?_⟩
        change (m.exported (c.seq + 1)).isSome
        rw [hExported]
        rfl
      · exact Or.inl hLess

theorem inv_resetFromNow (h : Good m.view c)
    (hCommitted : m.committed = some c) (hInv : Inv m) (hSeen : Seen m c)
    (anchor : Source) : Inv (resetFromNow m anchor).2 := by
  rcases recovery_cases h hCommitted with
    ⟨hPending, hAction⟩ | ⟨p, hPending, hClear, hAction⟩ | ⟨p, hPending, _, _, hAction⟩
  · have hEq : resetFromNow m anchor = (.ok, { m with phase := .resetting anchor }) := by
      unfold resetFromNow
      simp only [hCommitted, hAction, hPending]
    rw [hEq]
    exact inv_intro hCommitted h hPending hSeen
  · have hEq : resetFromNow m anchor = (.ok, { m with phase := .resetUnlinking anchor }) := by
      unfold resetFromNow
      simp only [hCommitted, hAction, hPending]
    rw [hEq]
    exact inv_intro hCommitted h hClear hSeen
  · have hEq : resetFromNow m anchor = (.refused, m) := by
      unfold resetFromNow
      simp only [hCommitted, hAction, hPending]
    rw [hEq]
    exact hInv

theorem inv_commit (h : Good m.view c) (hCommitted : m.committed = some c) (hSeen : Seen m c) {p : Pending}
    (hAt : m.pending = some p ∧ Fresh c p ∧ m.exported (c.seq + 1) = some (p.file c.source)) :
    Inv (commit m p) := by
  rcases hAt with ⟨hPending, hFresh, hExported⟩
  have hGood := good_commit h hPending hFresh hExported
  have hSeq : (step4Committed p).seq = c.seq + 1 := hFresh.seq
  have hView : (commit m p).view =
      { m.view with
        commits := m.view.commits ++ [(c.source, p.sourceEnd)] } := by
    unfold commit Machine.view
    simp only [hCommitted]
    rfl
  refine inv_intro rfl ?_ ?_ ?_
  · rw [hView]
    exact hGood
  · change Clear (commit m p).view (step4Committed p)
    intro f hf
    rw [hView] at hf
    have hBound := h.within _ f hf
    rw [hSeq] at hBound
    omega
  · intro n hn
    rw [hSeq]
    rcases hSeen n hn with hOld | ⟨hLast, _⟩
    · exact Or.inl (by omega)
    · exact Or.inl (by omega)

theorem inv_proceed (h : Good m.view c) (hCommitted : m.committed = some c) (hAt : At m c m.phase)
    (hSeen : Seen m c) : Inv (proceed m).2 := by
  have hInv : Inv m := inv_intro hCommitted h hAt hSeen
  unfold proceed
  cases hPhase : m.phase with
  | down => exact hInv
  | up => exact hInv
  | activating anchor =>
    rw [hPhase] at hAt
    exact hAt.elim
  | recovering p =>
    rw [hPhase] at hAt
    exact inv_commit h hCommitted hSeen hAt
  | synced p =>
    rw [hPhase] at hAt
    exact inv_commit h hCommitted hSeen hAt
  | unlinking =>
    rw [hPhase] at hAt
    exact inv_intro hCommitted (good_unlink h hAt) rfl hSeen
  | resetUnlinking anchor =>
    rw [hPhase] at hAt
    exact inv_intro hCommitted (good_unlink h hAt) rfl hSeen
  | resetting anchor =>
    rw [hPhase] at hAt
    simp only [hCommitted]
    exact inv_intro rfl (good_reset h hAt anchor) True.intro hSeen
  | writing p start =>
    rw [hPhase] at hAt
    rcases hAt with ⟨hPending, hFresh, hClear, rfl⟩
    have hGood := good_rename h hPending hFresh hClear
    rw [← view_rename] at hGood
    refine inv_intro hCommitted hGood ⟨hPending, hFresh, ?_⟩ hSeen
    have hCell := cell_set m p.seq
      { m.cell p.seq with
        visible := some (p.file c.source) } (c.seq + 1)
    rw [if_pos hFresh.seq.symm] at hCell
    change ((rename m p.seq (p.file c.source)).cell (c.seq + 1)).visible = _
    unfold rename
    rw [hCell]
  | renamed p =>
    rw [hPhase] at hAt
    rcases hAt with ⟨hPending, hFresh, hVisible⟩
    refine inv_intro hCommitted (good_settleOut h (fun _ => true)) ⟨hPending, hFresh, ?_⟩
      (seen_settleOut h hSeen (fun _ => true))
    change (m.cell (c.seq + 1)).visible.or _ = _
    rw [hVisible]
    rfl

/- Every orderly step keeps the invariant. -/
theorem inv_step (hInv : Inv m) (e : Event) (hOrderly : Orderly m e) : Inv (step m e).2 := by
  cases hCommitted : m.committed with
  | none =>
    unfold Inv at hInv
    rw [hCommitted] at hInv
    exact inv_step_blank hInv hCommitted e
  | some c =>
    have hParts := (inv_some hCommitted).mp hInv
    rcases hParts with ⟨h, hAt, hSeen⟩
    cases e with
    | startup anchor =>
      simp only [step]
      split
      · exact inv_startup h hCommitted hSeen (fun hFinish => hOrderly hFinish c hCommitted) anchor
      · exact hInv
    | poll run stop =>
      simp only [step]
      split
      · rename_i hUp
        rw [hUp] at hAt
        have hClear := h.clear_of_settled hAt
        have hFresh : Fresh c (makePending c run stop) := ⟨rfl, rfl, rfl, hOrderly c hCommitted⟩
        unfold poll
        simp only [hCommitted]
        exact inv_intro rfl (good_poll h hClear hFresh) ⟨rfl, hFresh, hClear, rfl⟩ hSeen
      · exact hInv
    | proceed => exact inv_proceed h hCommitted hAt hSeen
    | evict n =>
      simp only [step]
      split
      · rename_i hUp
        rw [hUp] at hAt
        have hGood := good_evict h (h.clear_of_settled hAt) n
        rw [← view_evict] at hGood
        refine inv_intro hCommitted hGood ?_ hSeen
        change At (evict m n) c m.phase
        rw [hUp]
        exact hAt
      · exact hInv
    | syncOut =>
      simp only [step]
      split
      · rename_i hPhase
        refine inv_intro hCommitted (good_settleOut h _) ?_ (seen_settleOut h hSeen _)
        change At (settleOut m _) c m.phase
        rcases hPhase with hUp | hDown
        · rw [hUp] at hAt ⊢
          exact hAt
        · rw [hDown]
          exact True.intro
      · exact hInv
    | reset anchor =>
      simp only [step]
      split
      · exact inv_resetFromNow h hCommitted hInv hSeen anchor
      · exact hInv
    | die => exact inv_intro hCommitted h True.intro hSeen
    | powerLoss keep =>
      exact inv_intro hCommitted (good_settleOut h keep) True.intro (seen_settleOut h hSeen keep)

/- The invariant holds after every orderly run. -/
theorem inv_reachable (h : OrderlyReachable m) : Inv m := Reachable.invariant inv_fresh
    (fun _ e hInv hOrderly => inv_step hInv e hOrderly) h

end SingboxOps.JournalReader
