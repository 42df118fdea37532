import SingboxOps.QualityFailover.Runner

/-
  Rulings on the snapshots of a session.

  A ruling leaves the same owner whatever it is asked for, and
  to rule again on the snapshot changes nothing.  As long as
  the group has no fixed member or the one the owner expects,
  a snapshot that tells the truth is not foreign.
-/

namespace SingboxOps.QualityFailover

open Json (getItem)

variable {F : Type}

-- Rulings

theorem foreign_iff {owner : Owner}
    {proxies : Proxies F} : foreign owner proxies = true ↔ Foreign owner proxies := by
  unfold foreign
  split
  · rename_i o g f hOuter hGroup hFallback
    rw [Bool.not_eq_true']
    constructor
    · intro hShape o' g' f' hOwn
      rcases own_iff.mp hOwn with ⟨-, hG, hF, hOk⟩
      rw [hGroup] at hG
      rw [hFallback] at hF
      cases hG
      cases hF
      rw [hShape] at hOk
      cases hOk
    · intro hForeign
      rw [Bool.eq_false_iff]
      intro hShape
      exact hForeign o g f (own_iff.mpr ⟨hOuter, hGroup, hFallback, hShape⟩)
  · rename_i hSome
    refine ⟨fun _ => ?_, fun _ => rfl⟩
    intro o g f hOwn
    exact hSome o g f hOwn.outerIs hOwn.groupIs hOwn.fallbackIs

theorem permitted_of_dicts {owner : Owner} {proxies o g f : Proxies F}
    (hOuter : dictAt proxies outer = some o) (hGroup : dictAt proxies group = some g)
    (hFallback : dictAt proxies auto = some f)
    (requireOuter : Bool) :
    (owner.permitted proxies requireOuter).2 = (owner.release proxies g).judged g f := by
  unfold Owner.permitted
  rw [hOuter, hGroup, hFallback]

theorem permitted_of_none {proxies : Proxies F} (h :
      ¬ ∃ o g f, dictAt proxies outer = some o ∧ dictAt proxies group = some g ∧ dictAt proxies auto = some f)
    (owner : Owner)
    (requireOuter : Bool) : (owner.permitted proxies requireOuter).2 = owner.suspend := by
  unfold Owner.permitted
  split
  · rename_i o g f hOuter hGroup hFallback
    exact (h ⟨o, g, f, hOuter, hGroup, hFallback⟩).elim
  · rfl

/- What a ruling leaves of the owner does not need the outer. -/
theorem permitted_next (owner : Owner) (proxies : Proxies F) (requireOuter : Bool) :
    (owner.permitted proxies requireOuter).2 = (owner.permitted proxies false).2 := by
  unfold Owner.permitted
  split <;> rfl

theorem release_again (owner : Owner) (proxies groupDict : Proxies F) :
    (owner.release proxies groupDict).release proxies groupDict =
      owner.release proxies groupDict := by
  by_cases hReleased : owner.released proxies groupDict = true
  · have hNext : owner.release proxies groupDict = { owner with expected := auto } := by
      unfold Owner.release
      rw [if_pos hReleased]
    rw [hNext]
    unfold Owner.release
    rw [if_neg]
    unfold Owner.released
    simp
  · have hNext : owner.release proxies groupDict = owner := by
      unfold Owner.release
      rw [if_neg hReleased]
    rw [hNext, hNext]

theorem judged_again (owner : Owner)
    (proxies g f : Proxies F) : (((owner.release proxies g).judged g f).release proxies g).judged g f =
      (owner.release proxies g).judged g f := by
  have hAgain := release_again owner proxies g
  generalize owner.release proxies g = next at hAgain ⊢
  by_cases hShape : next.shapeOk g f = true
  · have hJudged : next.judged g f = next := by
      unfold Owner.judged
      rw [if_pos hShape]
    rw [hJudged, hAgain, hJudged]
  · have hJudged : next.judged g f = next.suspend := by
      unfold Owner.judged
      rw [if_neg hShape]
    have hRelease : next.suspend.release proxies g = next.suspend := by
      unfold Owner.suspend
      unfold Owner.release Owner.released at hAgain ⊢
      dsimp only
      split at hAgain
      · rename_i hReleased
        rw [if_pos hReleased]
        have hExpected := congrArg Owner.expected hAgain
        dsimp only at hExpected
        rw [hExpected]
      · rename_i hReleased
        rw [if_neg hReleased]
    rw [hJudged, hRelease]
    unfold Owner.judged
    have hSame : next.suspend.shapeOk g f = next.shapeOk g f := rfl
    rw [hSame, if_neg hShape]
    rfl

theorem permitted_again (owner : Owner) (proxies : Proxies F) :
    ((owner.permitted proxies false).2.permitted proxies false).2 = (owner.permitted proxies false).2 := by
  by_cases h : ∃ o g f, dictAt proxies outer = some o ∧ dictAt proxies group = some g ∧
        dictAt proxies auto = some f
  · rcases h with ⟨o, g, f, hOuter, hGroup, hFallback⟩
    rw [permitted_of_dicts hOuter hGroup hFallback, permitted_of_dicts hOuter hGroup hFallback]
    exact judged_again owner proxies g f
  · rw [permitted_of_none h, permitted_of_none h]
    rfl

theorem permitted_members (owner : Owner) (proxies : Proxies F) (requireOuter : Bool) :
    (owner.permitted proxies requireOuter).2.members = owner.members := by
  unfold Owner.permitted
  split
  · dsimp only
    unfold Owner.judged Owner.release
    split <;> split <;> rfl
  · rfl

theorem judge_next (kind : RunnerKind) (mode : RoutingMode) (owner : Owner) (proxies : Proxies F)
    (requireOuter : Bool) :
    (judge kind mode owner proxies requireOuter).2 = (owner.permitted proxies false).2 := by
  cases kind with
  | plain => exact permitted_next owner proxies requireOuter
  | daily =>
    dsimp only [judge]
    unfold dailyPermitted
    have hAgain := permitted_again owner proxies
    generalize owner.permitted proxies false = ruling at hAgain ⊢
    rcases ruling with ⟨_ | _, next⟩
    · rfl
    · dsimp only
      split
      · cases mode with
        | rule => exact (permitted_next next proxies true).trans hAgain
        | global => rfl
        | direct => rfl
      · rfl

theorem permitted_allows {owner : Owner} {proxies : Proxies F} {requireOuter : Bool}
    (h : (owner.permitted proxies requireOuter).1 = true) :
    (owner.permitted proxies requireOuter).2.suspended = false := by
  rw [Bool.eq_false_iff]
  intro hSuspended
  rw [permitted_of_suspended hSuspended] at h
  cases h

theorem judge_allows {kind : RunnerKind} {mode : RoutingMode} {owner : Owner}
    {proxies : Proxies F} {requireOuter : Bool}
    (h : (judge kind mode owner proxies requireOuter).1 = true) :
    (judge kind mode owner proxies requireOuter).2.suspended = false := by
  rw [judge_next]
  cases kind with
  | plain =>
    rw [← permitted_next owner proxies requireOuter]
    exact permitted_allows h
  | daily =>
    dsimp only [judge] at h
    unfold dailyPermitted at h
    cases hFirst : (owner.permitted proxies false).1 with
    | true => exact permitted_allows hFirst
    | false =>
      generalize owner.permitted proxies false = ruling at *
      rcases ruling with ⟨_ | _, next⟩
      · cases h
      · cases hFirst

theorem judge_restore {kind : RunnerKind} {mode : RoutingMode} {owner : Owner} {proxies : Proxies F}
    (h : (owner.permitted proxies false).2.suspended = false) :
    (judge kind mode owner proxies false).1 = true := by
  have hFirst : (owner.permitted proxies false).1 = true := by
    unfold Owner.permitted at h ⊢
    split
    · rename_i o g f hOuter hGroup hFallback
      rw [hOuter, hGroup, hFallback] at h
      dsimp only at h ⊢
      rw [h]
      rfl
    · rename_i hSome
      split at h
      · rename_i o g f hOuter hGroup hFallback
        exact (hSome o g f hOuter hGroup hFallback).elim
      · cases h
  cases kind with
  | plain => exact hFirst
  | daily =>
    dsimp only [judge]
    unfold dailyPermitted
    generalize owner.permitted proxies false = ruling at hFirst
    rcases ruling with ⟨_ | _, next⟩
    · cases hFirst
    · rfl

-- What the Controller Shows

/- The groups are as they were configured. -/
structure Shaped (names : List PyStr) (proxies o g f : Proxies F) : Prop where
  outerIs : dictAt proxies outer = some o
  groupIs : dictAt proxies group = some g
  fallbackIs : dictAt proxies auto = some f
  groupType : getItem g (pyStr "type") = some (.str (pyStr "Fallback"))
  groupAll : getItem g (pyStr "all") = some (.arr (names.map Json.str))
  groupHidden : getItem g (pyStr "hidden") = some (.bool true)
  fallbackType : getItem f (pyStr "type") = some (.str (pyStr "Fallback"))
  fallbackAll : getItem f (pyStr "all") = some (.arr (names.map Json.str))
  fallbackFixed : ∃ text, getItem f (pyStr "fixed") = some (.str text)

/- The snapshot is one of this core. -/
structure Shows (names : List PyStr) (core : Core) (proxies : Proxies F) : Prop where
  fixed : ∀ g text, dictAt proxies group = some g →
      getItem g (pyStr "fixed") = some (.str text) → text = core.fixed
  shape :
    core.shape = true →
      ∃ o g f, Shaped names proxies o g f ∧ getItem g (pyStr "fixed") = some (.str core.fixed)

/- A member that the core cleared is shown dead. -/
def Noticed (owner : Owner) (core : Core) (proxies : Proxies F) : Prop :=
  core.fixed = [] → owner.expected ≠ auto → ∃ member, getItem proxies owner.expected = some (.obj member) ∧
        getItem member (pyStr "alive") = some (.bool false)

/- The group has the member the owner expects, or none. -/
def Related (owner : Owner) (fixed : PyStr) : Prop := fixed = owner.expectedFixed ∨ fixed = []

/- A related group that is shown with its shape is our own. -/
theorem not_foreign {names : List PyStr} {owner : Owner} {core : Core}
    {proxies : Proxies F} (hMembers : owner.members = auto :: names)
    (hRelated : Related owner core.fixed) (hShape : core.shape = true)
    (hShows : Shows names core proxies)
    (hNoticed : Noticed owner core proxies) : ¬ Foreign owner proxies := by
  intro hForeign
  rcases hShows.shape hShape with ⟨o, g, f, hShaped, hFixed⟩
  have hTail : owner.members.tail = names := by
    rw [hMembers]
    rfl
  refine hForeign o g f ⟨hShaped.outerIs, hShaped.groupIs,
    hShaped.fallbackIs, hShaped.groupType, ?_, hShaped.groupHidden,
    ?_, hShaped.fallbackType, ?_, hShaped.fallbackFixed⟩
  · rw [hTail]
    exact hShaped.groupAll
  · by_cases hExpected : core.fixed = owner.expectedFixed
    · left
      rw [hFixed, hExpected]
    · right
      have hNone : core.fixed = [] := hRelated.resolve_left hExpected
      have hNe : owner.expected ≠ auto := by
        intro hAuto
        apply hExpected
        unfold Owner.expectedFixed
        rw [if_pos hAuto]
        exact hNone
      refine ⟨hNe, ?_, hNoticed hNone hNe⟩
      rw [hFixed, hNone]
  · rw [hTail]
    exact hShaped.fallbackAll

theorem related_permitted {names : List PyStr} {owner : Owner} {core : Core}
    {proxies : Proxies F} (hRelated : Related owner core.fixed)
    (hShows : Shows names core proxies) :
    Related (owner.permitted proxies false).2 core.fixed := by
  by_cases h : ∃ o g f, dictAt proxies outer = some o ∧ dictAt proxies group = some g ∧
        dictAt proxies auto = some f
  · rcases h with ⟨o, g, f, hOuter, hGroup, hFallback⟩
    rw [permitted_of_dicts hOuter hGroup hFallback]
    have hJudged : ((owner.release proxies g).judged g f).expectedFixed =
          (owner.release proxies g).expectedFixed := by
      unfold Owner.judged
      split <;> rfl
    unfold Related
    rw [hJudged]
    unfold Owner.release
    split
    · rename_i hReleased
      right
      exact (hShows.fixed g [] hGroup (released_iff.mp hReleased).2.1).symm
    · exact hRelated
  · rw [permitted_of_none h]
    exact hRelated

end SingboxOps.QualityFailover
