import SingboxOps.QualityFailover.Engine
import SingboxOps.QualityFailover.Rulings

/-
  When the quality control gives up, and what it leaves.

  Unless another writer comes, the group has no fixed member
  or the one the owner expects, so that no snapshot is
  foreign.  What breaks this is a request that was applied
  and not answered.
-/

namespace SingboxOps.QualityFailover

variable {F : Type}

-- The Invariant

/- What owner and core have in common. -/
structure Base (names : List PyStr) (owner : Owner) (core : Core) (saw : Bool) : Prop where
  members : owner.members = auto :: names
  calm :
    core.touched = false → core.shape = true ∧ owner.suspended = false ∧ Related owner core.fixed
  ours : core.ours = true → Related owner core.fixed
  saw : saw = true → owner.suspended = true

namespace Base

variable {names : List PyStr} {owner : Owner} {core : Core}
variable {saw : Bool} {proxies : Proxies F}

theorem ruled (h : Base names owner core saw) (hShows : Shows names core proxies)
    (hNoticed : Noticed owner core proxies) :
    Base names (owner.permitted proxies false).2 core (saw || foreign owner proxies) where
  members := (permitted_members owner proxies false).trans h.members
  calm hTouched := by
    rcases h.calm hTouched with ⟨hShape, hSuspended, hRelated⟩
    refine ⟨hShape, ?_, related_permitted hRelated hShows⟩
    rw [Bool.eq_false_iff]
    intro hYes
    rcases (permitted_suspended_iff owner proxies false).mp hYes with
      hOld | hForeign
    · rw [hSuspended] at hOld
      cases hOld
    · exact not_foreign h.members hRelated hShape hShows hNoticed hForeign
  ours hOurs := related_permitted (h.ours hOurs) hShows
  saw hSaw := by
    rw [permitted_suspended_iff]
    rcases Bool.or_eq_true_iff.mp hSaw with hOld | hForeign
    · exact .inl (h.saw hOld)
    · exact .inr (foreign_iff.mp hForeign)

theorem change (h : Base names owner core saw)
    (change : Change) : Base names owner (core.change change) saw := by
  cases change with
  | others shape fixed =>
    unfold Core.change
    dsimp only
    split
    · exact h
    · exact ⟨h.members, (fun hNo => nomatch hNo), (fun hNo => nomatch hNo), h.saw⟩
  | release =>
    exact ⟨h.members, fun hTouched => ⟨(h.calm hTouched).1, (h.calm hTouched).2.1, .inr rfl⟩,
      fun _ => .inr rfl, h.saw⟩

theorem deleted (h : Base names owner core saw)
    (expected : PyStr) : Base names { owner with expected := expected }
      (core.write .delete) saw :=
  ⟨h.members, fun hTouched => ⟨(h.calm hTouched).1, (h.calm hTouched).2.1, .inr rfl⟩,
    fun _ => .inr rfl, h.saw⟩

theorem committed (h : Base names owner core saw) (name : PyStr) : Base names { owner with expected := name }
      (core.write (writeFor name)) saw := by
  unfold writeFor
  split
  · exact h.deleted name
  · rename_i hName
    have hRelated : Related ({ owner with expected := name } : Owner) name := by
      left
      unfold Owner.expectedFixed
      rw [if_neg hName]
    exact ⟨h.members, fun hTouched => ⟨(h.calm hTouched).1, (h.calm hTouched).2.1, hRelated⟩,
      fun _ => hRelated, h.saw⟩

end Base

/- What holds of a session where it stands. -/
def PhaseOk (s : Session F) : Prop := match s.phase with
  | .idle => True
  | .read snapshot =>
    s.control = true → (s.owner.permitted snapshot.proxies false).2 = s.owner
  | .wishing name _ => name ∈ s.owner.members
  | .writing name => name ∈ s.owner.members ∧ s.owner.suspended = false
  | .closing => True
  | .clearing => s.owner.suspended = false
  | .ended restored reachable =>
    (restored = true → s.core.ours = true → s.core.fixed = []) ∧
      (reachable = true → s.core.touched = false → s.core.fixed = [])

structure Inv (names : List PyStr) (s : Session F) : Prop where
  base : Base names s.owner s.core s.saw
  phase : PhaseOk s

/-
  The controller tells the truth and a wish is one of the
  nodes.  A release is noticed before its member is alive
  again, a snapshot read out of control is not foreign, nor are
  proxies that are refused, the end is not refused its snapshot
  while a member is fixed and no other writer has come, no
  write is applied without its answer, and no adopted pin is
  left out of control.
-/
def Guard (names : List PyStr) (s : Session F) (input : Input F) : Prop := match input with
  | .answer (.refused proxies) =>
    (s.phase = .closing → s.core.touched = false → s.core.fixed = []) ∧
      (s.phase ≠ .closing → proxies.any (foreign s.owner) = false)
  | .answer (.taken snapshot) =>
    Shows names s.core snapshot.proxies ∧ Noticed s.owner s.core snapshot.proxies ∧
      (s.control = false → foreign s.owner snapshot.proxies = false)
  | .enable (.refused proxies) => proxies.any (foreign s.owner) = false
  | .enable (.taken snapshot) =>
    Shows names s.core snapshot.proxies ∧ Noticed s.owner s.core snapshot.proxies
  | .decide (.target name) => name ∈ names
  | .decide (.retain name) => name ∈ names
  | .finish .lost => ∀ name, s.phase ≠ .writing name
  | .stop => s.control = true ∨ s.owner.expected = auto
  | _ => True

-- Its Steps

section Steps

variable {names : List PyStr} {s : Session F} {snapshot : Snapshot F}

theorem selectableBy_next (kind : RunnerKind) (mode : RoutingMode)
    {owner : Owner} {name : PyStr} (hName : name ∈ owner.members) (proxies : Proxies F)
    (retainCurrent : Bool) : (selectableBy (judge kind mode) owner name proxies retainCurrent).2 =
      (owner.permitted proxies false).2 := by
  rw [← judge_next kind mode owner proxies true]
  unfold selectableBy
  rw [if_pos hName]
  generalize judge kind mode owner proxies true = ruling
  rcases ruling with ⟨_ | _, next⟩ <;> rfl

theorem selectableBy_allows {kind : RunnerKind} {mode : RoutingMode} {owner : Owner}
    {name : PyStr} {proxies : Proxies F} {retainCurrent : Bool}
    (h : (selectableBy (judge kind mode) owner name proxies retainCurrent).1 = true) :
    name ∈ owner.members ∧ (owner.permitted proxies false).2.suspended = false := by
  by_cases hName : name ∈ owner.members
  · refine ⟨hName, ?_⟩
    rw [← judge_next kind mode owner proxies true]
    apply judge_allows
    unfold selectableBy at h
    rw [if_pos hName] at h
    generalize judge kind mode owner proxies true = ruling at *
    rcases ruling with ⟨_ | _, next⟩
    · cases h
    · rfl
  · unfold selectableBy at h
    rw [if_neg hName] at h
    cases h

namespace Inv

theorem begin (h : Inv names s) (hShows : Shows names s.core snapshot.proxies)
    (hNoticed : Noticed s.owner s.core snapshot.proxies)
    (hOut : s.control = false → foreign s.owner snapshot.proxies = false)
    (kind : RunnerKind) : Inv names (s.begin kind snapshot) := by
  have hRuled := h.base.ruled hShows hNoticed
  unfold Session.begin
  dsimp only [Session.look]
  split
  · dsimp only [Session.rule, Session.move]
    rw [judge_next]
    exact ⟨hRuled, fun _ => permitted_again s.owner snapshot.proxies⟩
  · rename_i hControl
    have hNo : s.control = false := by
      rw [Bool.eq_false_iff]
      exact hControl
    dsimp only [Session.move]
    rw [hOut hNo, Bool.or_false]
    exact ⟨h.base, fun hYes => (hControl hYes).elim⟩

theorem deciding (h : Inv names s) (hPhase : s.phase = .read snapshot) {wish : Wish}
    (hWish : ∀ name, wish = .target name ∨ wish = .retain name → name ∈ names)
    (kind : RunnerKind) : Inv names (s.deciding kind snapshot wish) := by
  have hMem : ∀ name, wish = .target name ∨ wish = .retain name → name ∈ s.owner.members := by
    intro name hName
    rw [h.base.members]
    exact List.mem_cons_of_mem _ (hWish name hName)
  have hRead := h.phase
  unfold PhaseOk at hRead
  rw [hPhase] at hRead
  unfold Session.deciding
  split
  · rename_i hControl
    have hSame : (s.rule kind snapshot true).2 = s := by
      dsimp only [Session.rule]
      rw [judge_next, hRead hControl]
    generalize s.rule kind snapshot true = ruling at hSame
    rcases ruling with ⟨_ | _, next⟩
    · cases hSame
      exact ⟨h.base, trivial⟩
    · cases hSame
      cases wish with
      | nothing => exact ⟨h.base, trivial⟩
      | target name => exact ⟨h.base, hMem name (.inl rfl)⟩
      | retain name =>
        dsimp only
        split
        · exact ⟨h.base, hMem name (.inr rfl)⟩
        · exact ⟨h.base, trivial⟩
  · exact ⟨h.base, trivial⟩

theorem selecting (h : Inv names s)
    {name : PyStr} {retainCurrent : Bool} (hPhase : s.phase = .wishing name retainCurrent)
    (hShows : Shows names s.core snapshot.proxies)
    (hNoticed : Noticed s.owner s.core snapshot.proxies)
    (kind : RunnerKind) : Inv names (s.selecting kind name retainCurrent snapshot).2 := by
  have hName := h.phase
  unfold PhaseOk at hName
  rw [hPhase] at hName
  have hRuled := h.base.ruled hShows hNoticed
  have hNext := selectableBy_next kind snapshot.mode hName snapshot.proxies retainCurrent
  have hAllows : (selectableBy (judge kind snapshot.mode) s.owner name
        snapshot.proxies retainCurrent).1 = true → _ :=
    selectableBy_allows
  unfold Session.selecting
  dsimp only [Session.look]
  generalize selectableBy (judge kind snapshot.mode) s.owner name
      snapshot.proxies retainCurrent = ruling at hNext hAllows ⊢
  rcases ruling with ⟨_ | _, next⟩
  · cases hNext
    exact ⟨hRuled, trivial⟩
  · cases hNext
    refine ⟨hRuled, ?_, (hAllows rfl).2⟩
    dsimp only [Session.move]
    rw [permitted_members]
    exact hName

theorem restoring (h : Inv names s) (hShows : Shows names s.core snapshot.proxies)
    (hNoticed : Noticed s.owner s.core snapshot.proxies)
    (kind : RunnerKind) : Inv names (s.restoring kind snapshot).2 := by
  have hRuled := h.base.ruled hShows hNoticed
  have hNext := judge_next kind snapshot.mode s.owner snapshot.proxies false
  have hAllows : (judge kind snapshot.mode s.owner snapshot.proxies false).1 = true → _ := judge_allows
  have hRestore :
      _ → (judge kind snapshot.mode s.owner snapshot.proxies false).1 = true :=
    judge_restore
  unfold Session.restoring
  dsimp only [Session.look, Session.rule]
  generalize judge kind snapshot.mode s.owner snapshot.proxies false = ruling at hNext hAllows hRestore ⊢
  rcases ruling with ⟨_ | _, next⟩
  · cases hNext
    refine ⟨hRuled, (fun hNo => nomatch hNo), ?_⟩
    intro _ hTouched
    cases hRestore (hRuled.calm hTouched).2.1
  · cases hNext
    exact ⟨hRuled, hAllows rfl⟩

theorem written (h : Inv names s) {name : PyStr} (hPhase : s.phase = .writing name) {ending : Ending}
    (hAnswered : ending ≠ .lost) : Inv names (s.written name ending) := by
  have hWriting := h.phase
  unfold PhaseOk at hWriting
  rw [hPhase] at hWriting
  cases ending with
  | failed => exact ⟨h.base, trivial⟩
  | lost => exact (hAnswered rfl).elim
  | acknowledged =>
    dsimp only [Session.written, Session.move]
    unfold Owner.committed
    rw [if_pos hWriting.1]
    exact ⟨h.base.committed name, trivial⟩

theorem cleared (h : Inv names s) (ending : Ending) : Inv names (s.cleared ending) := by
  cases ending with
  | failed => exact ⟨h.base, (fun hNo => nomatch hNo), (fun hNo => nomatch hNo)⟩
  | lost =>
    exact ⟨h.base.deleted s.owner.expected, (fun hNo => nomatch hNo), (fun hNo => nomatch hNo)⟩
  | acknowledged =>
    have hAuto : auto ∈ s.owner.members := by
      rw [h.base.members]
      exact List.mem_cons_self
    dsimp only [Session.cleared, Session.move]
    unfold Owner.committed
    rw [if_pos hAuto]
    exact ⟨h.base.deleted auto, fun _ _ => rfl, fun _ _ => rfl⟩

theorem enabling (h : Inv names s) (hPhase : s.phase = .idle) (hShows : Shows names s.core snapshot.proxies)
    (hNoticed : Noticed s.owner s.core snapshot.proxies) :
    Inv names (s.enabling snapshot) := by
  have hRuled := h.base.ruled hShows hNoticed
  unfold Session.enabling
  dsimp only [Session.look, Session.rule]
  rw [judge_next]
  refine ⟨hRuled, ?_⟩
  unfold PhaseOk
  dsimp only
  rw [hPhase]
  trivial

theorem nothing_fixed {owner : Owner} {fixed : PyStr} (hExpected : owner.expected = auto)
    (h : Related owner fixed) : fixed = [] := by
  rcases h with h | h
  · unfold Owner.expectedFixed at h
    rw [if_pos hExpected] at h
    exact h
  · exact h

theorem stopping (h : Inv names s)
    (hOwned : s.control = true ∨ s.owner.expected = auto) : Inv names s.stopping := by
  unfold Session.stopping
  split
  · exact ⟨h.base, trivial⟩
  · rename_i hNot
    refine ⟨h.base, ?_, ?_⟩
    · intro hRestored hOurs
      refine nothing_fixed ?_ (h.base.ours hOurs)
      grind
    · intro _ hTouched
      rcases h.base.calm hTouched with ⟨-, hSuspended, hRelated⟩
      refine nothing_fixed ?_ hRelated
      grind

theorem change (h : Inv names s) (change : Change) : Inv names { s with core := s.core.change change } := by
  refine ⟨h.base.change change, ?_⟩
  have hPhase := h.phase
  unfold PhaseOk at hPhase ⊢
  dsimp only
  split
  all_goals rename_i hAt
  all_goals rw [hAt] at hPhase
  any_goals exact hPhase
  cases change with
  | release => exact ⟨fun _ _ => rfl, fun _ _ => rfl⟩
  | others shape fixed =>
    unfold Core.change
    dsimp only
    split
    · exact hPhase
    · exact ⟨(fun _ hNo => nomatch hNo), (fun _ hNo => nomatch hNo)⟩

theorem refused_eq {proxies : Option (Proxies F)} (hOwn : proxies.any (foreign s.owner) = false) :
    s.refused proxies = s := by
  unfold Session.refused
  rw [hOwn, Bool.or_false]

theorem idle (h : Inv names s) : Inv names (s.move .idle) := ⟨h.base, trivial⟩

theorem step (h : Inv names s) {kind : RunnerKind} {input : Input F}
    (hGuard : Guard names s input) : Inv names (Session.step kind s input).2 := by
  unfold Session.step
  split
  · exact h.change _
  · rename_i hPhase
    rw [refused_eq (hGuard.2 (by simp [hPhase]))]
    exact h
  · exact h.begin hGuard.1 hGuard.2.1 hGuard.2.2 kind
  · exact h.idle
  · rename_i wish snapshot hPhase
    refine h.deciding hPhase ?_ kind
    rintro name (rfl | rfl) <;> exact hGuard
  · exact h.idle
  · rename_i hPhase
    rw [refused_eq (hGuard.2 (by simp [hPhase]))]
    exact h.idle
  · rename_i hPhase
    exact h.selecting hPhase hGuard.1 hGuard.2.1 kind
  · rename_i ending name hPhase
    refine h.written hPhase ?_
    rintro rfl
    exact hGuard name hPhase
  · cases kind with
    | plain => exact h
    | daily =>
      rw [refused_eq hGuard]
      exact h
  · rename_i hPhase
    cases kind with
    | plain => exact h
    | daily => exact h.enabling hPhase hGuard.1 hGuard.2
  · exact h.stopping hGuard
  · exact ⟨h.base, (fun hNo => nomatch hNo), (fun hNo => nomatch hNo)⟩
  · rename_i hPhase
    exact ⟨h.base, (fun hNo => nomatch hNo), fun _ => hGuard.1 hPhase⟩
  · exact h.restoring hGuard.1 hGuard.2.1 kind
  · exact h.cleared _
  · exact h

theorem quiet (h : Inv names s) (hSaw : s.saw = true) (kind : RunnerKind)
    (input : Input F) : (Session.step kind s input).1 = none := by
  have hSuspended : ∀ proxies : Proxies F, (s.owner.permitted proxies false).2.suspended = true :=
    fun proxies =>
      (permitted_suspended_iff s.owner proxies false).mpr (.inl (h.base.saw hSaw))
  unfold Session.step
  split
  any_goals rfl
  · rename_i snapshot name retainCurrent hPhase
    have hAllows : (selectableBy (judge kind snapshot.mode) s.owner name
          snapshot.proxies retainCurrent).1 = true → _ :=
      selectableBy_allows
    unfold Session.selecting
    dsimp only [Session.look]
    generalize selectableBy (judge kind snapshot.mode) s.owner name
        snapshot.proxies retainCurrent = ruling at hAllows ⊢
    rcases ruling with ⟨_ | _, next⟩
    · rfl
    · have hCalm := (hAllows rfl).2
      rw [hSuspended] at hCalm
      cases hCalm
  · cases kind <;> rfl
  · cases kind <;> rfl
  · rename_i snapshot hPhase
    have hAllows : (judge kind snapshot.mode s.owner snapshot.proxies false).1 = true → _ := judge_allows
    rw [judge_next, hSuspended] at hAllows
    unfold Session.restoring
    dsimp only [Session.look, Session.rule]
    generalize judge kind snapshot.mode s.owner snapshot.proxies false = ruling at hAllows ⊢
    rcases ruling with ⟨_ | _, next⟩
    · rfl
    · cases hAllows rfl

end Inv

end Steps

-- The Start

/-
  A plain runner finds the group without a fixed member.  A
  daily session is what `start` makes of a snapshot; with a
  pin it adopts the fixed member.
-/
inductive Started (names : List PyStr) : RunnerKind → Session F → Prop where
  | plain (control : Bool) : Started names .plain (Session.plain names control)
  | daily {core : Core} {snapshot : Snapshot F}
      {pin : Option PyStr} {s : Session F} :
      core.shape = true →
      core.touched = false →
      Shows names core snapshot.proxies →
      Session.daily names core snapshot pin = some s →
      Started names .daily s

theorem NodeNames.auto_not_mem {names : List PyStr} (h : NodeNames names) : auto ∉ names := by
  rcases h with rfl | rfl <;> decide

theorem dailyOwner_related {names : List PyStr} (hNames : NodeNames names)
    {fixed : PyStr} {now : Option (Json F)} {pin : Option PyStr} {owner : Owner}
    (h : Session.dailyOwner names fixed now pin = some owner) :
    owner.members = auto :: names ∧ Related owner fixed := by
  unfold Session.dailyOwner at h
  split at h
  · split at h
    · rename_i hFixed
      cases h
      exact ⟨rfl, .inr hFixed⟩
    · cases h
  · rename_i pin
    split at h
    · rename_i hPin
      unfold Owner.committed at h
      split at h
      · cases h
        refine ⟨rfl, ?_⟩
        have hAuto : pin ≠ auto := by
          rintro rfl
          exact hNames.auto_not_mem hPin.1
        left
        unfold Owner.expectedFixed
        rw [if_neg hAuto]
        exact hPin.2.1
      · cases h
    · cases h

theorem Started.inv {names : List PyStr} (hNames : NodeNames names) {kind : RunnerKind} {s : Session F}
    (h : Started names kind s) : Inv names s := by
  cases h with
  | plain control =>
    refine ⟨⟨rfl, fun _ => ⟨rfl, rfl, .inr rfl⟩, (fun _ => .inr rfl), (fun hNo => nomatch hNo)⟩, trivial⟩
  | @daily core snapshot pin _ hShape hTouched hShows hDaily =>
    unfold Session.daily at hDaily
    split at hDaily
    case h_2 => cases hDaily
    rename_i groupDict hGroup
    split at hDaily
    case h_2 => cases hDaily
    rename_i fixed hFixed
    split at hDaily
    case isFalse => cases hDaily
    split at hDaily
    case h_1 => cases hDaily
    rename_i owner hOwner
    dsimp only at hDaily
    rw [judge_next] at hDaily
    split at hDaily
    case isTrue => cases hDaily
    rename_i hSuspended
    cases hDaily
    rcases dailyOwner_related hNames hOwner with ⟨hMembers, hRelated⟩
    have hAt : dictAt snapshot.proxies group = some groupDict := by
      unfold dictAt
      rw [hGroup]
    have hSame := hShows.fixed groupDict fixed hAt hFixed
    rw [hSame] at hRelated
    have hNext := related_permitted hRelated hShows
    exact ⟨⟨(permitted_members owner _ false).trans hMembers,
      fun _ => ⟨hShape, Bool.eq_false_iff.mpr hSuspended, hNext⟩,
      (fun _ => hNext), (fun hNo => nomatch hNo)⟩, trivial⟩

-- Every Run

/-
  What the runner promises: control is given up for a change
  of another writer alone, nothing is written once one was
  read, and an end with the controller at hand, or one that
  is reported as restored, leaves no member of its own.
-/
structure Outcome (kind : RunnerKind) (s : Session F) : Prop where
  suspends : s.owner.suspended = true → s.core.touched = true
  quiet : s.saw = true → ∀ input, (Session.step kind s input).1 = none
  unfixed : ∀ restored, s.phase = .ended restored true → s.core.touched = false → s.core.fixed = []
  confirmed : ∀ reachable, s.phase = .ended true reachable → s.core.ours = true → s.core.fixed = []

theorem Inv.outcome {names : List PyStr} {s : Session F} (h : Inv names s)
    (kind : RunnerKind) : Outcome kind s := by
  have hPhase := h.phase
  unfold PhaseOk at hPhase
  refine ⟨?_, fun hSaw => h.quiet hSaw kind, ?_, ?_⟩
  · intro hSuspended
    by_contra hTouched
    have hCalm := (h.base.calm (Bool.eq_false_iff.mpr hTouched)).2.1
    rw [hSuspended] at hCalm
    cases hCalm
  · intro restored hEnded
    rw [hEnded] at hPhase
    exact hPhase.2 rfl
  · intro reachable hEnded
    rw [hEnded] at hPhase
    exact hPhase.1 rfl

/- In every run whose inputs meet the condition. -/
theorem control_gives_up (kind : RunnerKind)
    (names : List PyStr) (hNames : NodeNames names) (init : Session F)
    (hStart : Started names kind init)
    (h : List (Input F × Option Write)) (s : Session F)
    (hTrace : Trace (Session.step kind) (Guard names) init h s) : Outcome kind s :=
  (hTrace.invariant (hStart.inv hNames) (fun _ _ hInv hGuard => hInv.step hGuard)).outcome kind

-- Runs

/- What the controller shows with this fixed member. -/
def shown (names : List PyStr) (fixed : PyStr) : Proxies ℚ := [(outer, .obj
      [(pyStr "type", .str (pyStr "Selector")), (pyStr "now", .str group)]),
    (group, .obj [(pyStr "type", .str (pyStr "Fallback")), (pyStr "all", .arr (names.map Json.str)),
        (pyStr "hidden", .bool true),
        (pyStr "fixed", .str fixed)]),
    (auto, .obj [(pyStr "type", .str (pyStr "Fallback")), (pyStr "all", .arr (names.map Json.str)),
        (pyStr "fixed", .str [])])]

theorem shows_shown (names : List PyStr) (core : Core) : Shows names core (shown names core.fixed) := by
  constructor
  · intro g text hGroup hFixed
    cases hGroup
    cases hFixed
    rfl
  · intro _
    exact ⟨_, _, _, ⟨rfl, rfl, rfl, rfl, rfl, rfl, rfl, rfl, [], rfl⟩, rfl⟩

def seen (fixed : PyStr) : Snapshot ℚ := ⟨shown (nodes.take 2) fixed, .rule⟩

def reality : PyStr := pyStr "Reality"

/- A cycle that fixes `Reality`; its request ends so. -/
def fixing (ending : Ending) : List (Input ℚ) :=
  [.answer (.taken (seen [])), .decide (.target reality), .answer (.taken (seen [])), .finish ending]

/- The runner after some inputs. -/
def afterAll (inputs : List (Input ℚ)) : Session ℚ := finalState (Session.step .plain)
    (Session.plain (nodes.take 2) true) inputs

/- `Reality` is fixed, and the end takes it back. -/
def fixedAndTaken : List (Input ℚ) :=
  fixing .acknowledged ++ [.stop, .answer (.taken (seen reality)), .finish .acknowledged]

theorem guarded_fixedAndTaken : Guarded (Session.step .plain) (Guard (nodes.take 2))
      (Session.plain (nodes.take 2) true) fixedAndTaken := by
  have hNone := shows_shown (nodes.take 2) ⟨true, [], false, false⟩
  have hReality := shows_shown (nodes.take 2) ⟨true, reality, true, false⟩
  refine ⟨?_, ?_, ?_, trivial, .inl rfl, ?_, trivial, trivial⟩
  · exact ⟨hNone, (fun _ hNe => (hNe rfl).elim), (fun hNo => nomatch hNo)⟩
  · exact List.mem_cons_self
  · exact ⟨hNone, (fun _ hNe => (hNe rfl).elim), (fun hNo => nomatch hNo)⟩
  · exact ⟨hReality, (fun hNo => nomatch hNo), (fun hNo => nomatch hNo)⟩

theorem control_gives_up_fixedAndTaken : (afterAll fixedAndTaken).core.fixed = [] :=
  (control_gives_up .plain (nodes.take 2) (.inl rfl) (Session.plain (nodes.take 2) true) (.plain true) _ _
    (trace_guarded guarded_fixedAndTaken)).unfixed true rfl rfl

/-
  A request that was applied and not answered looks foreign to
  the next cycle; and an end that follows at once reports that
  it left nothing.
-/
theorem unanswered_looks_foreign : ¬ Outcome .plain
        (afterAll (fixing .lost ++ [.answer (.taken (seen reality))])) ∧
      ¬ Outcome .plain (afterAll (fixing .lost ++ [.stop])) := by
  refine ⟨fun h => ?_, fun h => ?_⟩
  · cases h.suspends rfl
  · cases h.confirmed true rfl rfl

end SingboxOps.QualityFailover
