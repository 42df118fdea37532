import SingboxOps.Lib.SlidingWindow
import SingboxOps.Lib.Trace
import Mathlib.Algebra.Order.Group.Int

/-
  The limits on guessing a password or a recovery key.

  A request is checked, verified and recorded in steps of its
  own, each of which reads the clock; the steps of the requests
  come in any order.  The answers' texts and retry times are
  left out.
-/

namespace SingboxOps.WebAuth.Guessing

open SlidingWindow

variable {T A R : Type} [AddCommGroup T] [LinearOrder T]
variable [DecidableEq A] [DecidableEq R]

-- Limiters

/- The rows of an address in the tables of `LoginRateLimiter`. -/
structure Record (T : Type) where
  failures : List T := []
  lockedUntil : Option T := none

structure Limits (T : Type) where
  maxFailures : ℕ
  windowSeconds : T
  lockoutSeconds : T

def Record.check (now : T) (row : Record T) : Bool × Record T := match row.lockedUntil with
  | some until_ => if now < until_ then (false, row) else (true, {})
  | none => (true, row)

def Limits.recordFailure (limits : Limits T) (now : T) (row : Record T) : Record T :=
  let recent := row.failures.filter (fun t => decide (now - limits.windowSeconds < t)) ++ [now]
  { failures := recent
    lockedUntil :=
      if limits.maxFailures ≤ recent.length then
        some (now + limits.lockoutSeconds)
      else row.lockedUntil }

/- `RecoveryGlobalGuard` -/
structure GuardLimits (T : Type) where
  maxConcurrent : ℕ
  windowSeconds : T
  maxAttempts : ℕ

structure Guard (T : Type) where
  attempts : List T := []
  taken : ℕ := 0

inductive Outcome where
  | skipped
  | passed
  | refused
  | busy
  | right
  | wrong
deriving DecidableEq

def GuardLimits.tryAcquire (g : GuardLimits T) (now : T) (s : Guard T) : Outcome × Guard T :=
  let attempts := s.attempts.filter (fun t => decide (now - g.windowSeconds < t))
  if g.maxAttempts ≤ attempts.length then
    (.refused, { s with attempts := attempts })
  else if s.taken < g.maxConcurrent then
    (.passed, ⟨attempts ++ [now], s.taken + 1⟩)
  else (.busy, ⟨attempts ++ [now], s.taken⟩)

-- Requests

inductive Stage where
  | idle
  | checked
  | verifying
  | judged (right : Bool)
  | recorded
deriving DecidableEq

inductive Step where
  | check
  | acquire
  | verify (right : Bool)
  | record
  | release
deriving DecidableEq

structure Call (T R : Type) where
  now : T
  request : R
  step : Step

/- A login has no guard. -/
structure Handler (T : Type) where
  limits : Limits T
  guard : Option (GuardLimits T)

structure Web (T A R : Type) where
  clock : T
  rows : A → Record T := fun _ => {}
  guard : Guard T := {}
  stage : R → Stage := fun _ => .idle

def Web.move (s : Web T A R) (r : R) (stage : Stage) : Web T A R :=
  { s with stage := Function.update s.stage r stage }

def Web.setRow (s : Web T A R) (ip : A) (row : Record T) : Web T A R :=
  { s with rows := Function.update s.rows ip row }

/- A key is not verified unless the guard lets it in. -/
def Handler.acquire (h : Handler T) (s : Web T A R) (r : R) : Outcome × Web T A R := match h.guard with
  | none => (.passed, s.move r .verifying)
  | some g =>
    let answer := g.tryAcquire s.clock s.guard
    (answer.1, { s with guard := answer.2 }.move r
      (if answer.1 = Outcome.passed then .verifying else .idle))

/- The end of a request; `finally` after an exception too. -/
def Web.release (s : Web T A R) (r : R) : Web T A R :=
  { s with guard := { s.guard with taken := s.guard.taken - 1 } }.move
    r .idle

/- The next step of a request, if it is there. -/
def Handler.call (h : Handler T) (remote : R → A) (before : Web T A R) (c : Call T R) : Outcome × Web T A R :=
  let s := { before with clock := c.now }
  let ip := remote c.request
  let row := s.rows ip
  match c.step, s.stage c.request with
  | .check, .idle =>
    if (row.check c.now).1 = true then
      (.passed, (s.setRow ip (row.check c.now).2).move c.request .checked)
    else (.refused, s.setRow ip (row.check c.now).2)
  | .acquire, .checked => h.acquire s c.request
  | .verify right, .verifying =>
    (if right then .right else .wrong, s.move c.request (.judged right))
  | .record, .judged true => (.right, (s.setRow ip {}).move c.request .recorded)
  | .record, .judged false =>
    (.wrong, (s.setRow ip (h.limits.recordFailure c.now row)).move c.request .recorded)
  | .release, .verifying => (.passed, s.release c.request)
  | .release, .judged _ => (.passed, s.release c.request)
  | .release, .recorded => (.passed, s.release c.request)
  | _, _ => (.skipped, s)

/- The clock does not go back. -/
def Forward (s : Web T A R) (c : Call T R) : Prop := s.clock ≤ c.now

-- Bounds

/- What an answered call was to the limiter, for an address. -/
inductive Event where
  | passed
  | refused
  | failed
  | succeeded
  | other
deriving DecidableEq

abbrev Entry (T R : Type) := Call T R × Outcome

def seen (remote : R → A) (ip : A) (e : Entry T R) : Event :=
  if remote e.1.request ≠ ip then .other
  else
    match e.1.step, e.2 with
    | .check, .passed => .passed
    | .check, .refused => .refused
    | .record, .wrong => .failed
    | .record, .right => .succeeded
    | _, _ => .other

/- When the secrets of an address were found wrong. -/
def failures (remote : R → A) (ip : A) (run : List (Entry T R)) : List T :=
  (run.filter (fun e => seen remote ip e = .failed)).map (fun e => e.1.now)

/- When requests were let in to be verified. -/
def started (run : List (Entry T R)) : List T :=
  (run.filter (fun e => e.1.step = .acquire ∧ e.2 = .passed)).map (fun e => e.1.now)

/- A lockout with this end began with enough failures. -/
def Earned (h : Handler T) (remote : R → A) (ip : A) (run : List (Entry T R)) (end_ : T) : Prop :=
  ∃ earlier last since, run = earlier ++ last :: since ∧ seen remote ip last = .failed ∧
    end_ = last.1.now + h.limits.lockoutSeconds ∧
    h.limits.maxFailures ≤ ((failures remote ip earlier).filter (fun t =>
        decide (last.1.now - h.limits.windowSeconds < t))).length + 1

/-
  Once `max_failures` secrets of an address are found wrong in a
  window, with no success since a request of it was let through,
  none is let through for the lockout; it is not refused before.
  Not more keys are let in, and not more at once, than the guard
  has attempts and slots.
-/
structure Bounds (h : Handler T) (remote : R → A) (run : List (Entry T R)) (s : Web T A R) : Prop where
  lockout : ∀ ip before first within last later, run = before ++ first :: (within ++ last :: later) →
        seen remote ip first = .passed →
        seen remote ip last = .failed →
        (∀ e ∈ within ++ later, seen remote ip e ≠ .succeeded) →
        (∀ t ∈ failures remote ip within, last.1.now < t + h.limits.windowSeconds) →
        h.limits.maxFailures ≤ (failures remote ip within).length + 1 →
        ∀ e ∈ later, seen remote ip e = .passed → last.1.now + h.limits.lockoutSeconds ≤ e.1.now
  refusal : ∀ ip before e later, run = before ++ e :: later →
      seen remote ip e = .refused → ∃ end_, e.1.now < end_ ∧ Earned h remote ip before end_
  attempts : ∀ g ∈ h.guard, Within g.windowSeconds id (fun _ => 1) g.maxAttempts (started run)
  slots : ∀ g ∈ h.guard, ∀ requests : List R, requests.Nodup →
      (∀ r ∈ requests, s.stage r = .verifying) → requests.length ≤ g.maxConcurrent

-- One Step

/- What an event does to the rows of an address. -/
def Limits.follow (limits : Limits T) (now : T) (row : Record T) : Event → Record T
  | .passed | .refused => (row.check now).2
  | .failed => limits.recordFailure now row
  | .succeeded => {}
  | .other => row

theorem acquire_frame (h : Handler T) (s : Web T A R)
    (r : R) : (h.acquire s r).2.rows = s.rows ∧ (h.acquire s r).2.clock = s.clock := by
  unfold Handler.acquire
  split <;> exact ⟨rfl, rfl⟩

theorem clock_call (h : Handler T) (remote : R → A) (s : Web T A R)
    (c : Call T R) : (h.call remote s c).2.clock = c.now := by
  unfold Handler.call
  dsimp only
  split
  · split <;> rfl
  · exact (acquire_frame h _ _).2
  all_goals rfl

theorem row_call (h : Handler T) (remote : R → A) (s : Web T A R) (c : Call T R) (ip : A) :
    (h.call remote s c).2.rows ip = h.limits.follow c.now (s.rows ip)
          (seen remote ip (c, (h.call remote s c).1)) ∧
      (seen remote ip (c, (h.call remote s c).1) = .passed → ((s.rows ip).check c.now).1 = true) ∧
      (seen remote ip (c, (h.call remote s c).1) = .refused → ((s.rows ip).check c.now).1 = false) := by
  rcases c with ⟨now, r, step⟩
  unfold seen
  by_cases hIp : remote r = ip
  · subst hIp
    unfold Handler.call
    dsimp only
    split
    · split
      · rename_i hAllowed
        simp [Web.setRow, Web.move, Limits.follow, hAllowed]
      · rename_i hAllowed
        simp [Web.setRow, Limits.follow, hAllowed]
    · rw [(acquire_frame h _ _).1]
      simp [Limits.follow]
    all_goals simp [Web.setRow, Web.move, Web.release, Limits.follow]
  · have hOther := Ne.symm hIp
    unfold Handler.call
    dsimp only
    split
    · split <;> simp [Web.setRow, Web.move, Limits.follow, hOther]
    · rw [(acquire_frame h _ _).1]
      simp [Limits.follow, hIp]
    all_goals simp [Web.setRow, Web.move, Web.release, Limits.follow, hIp, hOther]

theorem Record.check_cases (now : T) (row : Record T) : (row.check now).2 = row ∨
      ∃ end_ ∈ row.lockedUntil, end_ ≤ now ∧ (row.check now).2 = {} := by
  unfold Record.check
  split
  · rename_i end_ hLocked
    split
    · exact .inl rfl
    · rename_i hEnd
      exact .inr ⟨end_, hLocked, not_lt.mp hEnd, rfl⟩
  · exact .inl rfl

theorem Record.lock_of_refused {now : T} {row : Record T} (hRefused : (row.check now).1 = false) :
    (row.check now).2 = row ∧ ∃ end_ ∈ row.lockedUntil, now < end_ := by
  unfold Record.check at hRefused ⊢
  split at hRefused
  · rename_i end_ hLocked
    split at hRefused
    · rename_i hBefore
      exact ⟨by rw [if_pos hBefore], end_, hLocked, hBefore⟩
    · cases hRefused
  · cases hRefused

theorem Record.le_of_passed {now end_ : T} {row : Record T} (hPassed : (row.check now).1 = true)
    (hLocked : end_ ∈ row.lockedUntil) : end_ ≤ now := by
  unfold Record.check at hPassed
  rw [Option.mem_def.mp hLocked] at hPassed
  dsimp only at hPassed
  split at hPassed
  · cases hPassed
  · rename_i hEnd
    exact not_lt.mp hEnd

theorem Record.unlocked_of_passed {now : T} {row : Record T}
    (hPassed : (row.check now).1 = true) : (row.check now).2.lockedUntil = none := by
  unfold Record.check at hPassed ⊢
  split at hPassed
  · split at hPassed
    · cases hPassed
    · rename_i hEnd
      rw [if_neg hEnd]
  · assumption

theorem Limits.lock_of_failure {limits : Limits T} {now end_ : T} {row : Record T}
    (h : end_ ∈ (limits.recordFailure now row).lockedUntil) :
    end_ = now + limits.lockoutSeconds ∧ limits.maxFailures ≤ (row.failures.filter (fun t =>
            decide (now - limits.windowSeconds < t))).length + 1 ∨
      end_ ∈ row.lockedUntil := by
  unfold Limits.recordFailure at h
  dsimp only at h
  split at h
  · rename_i hMany
    rw [List.length_append] at hMany
    exact .inl ⟨(Option.some.inj h).symm, hMany⟩
  · exact .inr h

theorem failures_snoc (remote : R → A) (ip : A) (run : List (Entry T R)) (e : Entry T R) :
    failures remote ip (run ++ [e]) =
      failures remote ip run ++ if seen remote ip e = .failed then [e.1.now] else [] := by
  unfold failures
  rw [List.filter_append, List.map_append, List.filter_cons]
  by_cases hFailed : seen remote ip e = .failed
  · simp [hFailed]
  · simp [hFailed]

-- Runs

section

variable {σ ι ο : Type} {step : σ → ι → ο × σ} {guard : σ → ι → Prop}
variable {init s : σ}

theorem Trace.snoc_inv {h : List (ι × ο)} {e : ι × ο} (hTrace : Trace step guard init (h ++ [e]) s) :
    ∃ m, Trace step guard init h m ∧ guard m e.1 ∧ e = (e.1, (step m e.1).1) ∧ s = (step m e.1).2 := by
  generalize hEq : h ++ [e] = run at hTrace
  cases hTrace with
  | start => exact absurd hEq (List.append_ne_nil_of_right_ne_nil _ (by simp))
  | snoc i hBefore hGuard =>
    obtain ⟨rfl, hLast⟩ := List.append_inj' hEq rfl
    obtain rfl := List.singleton_inj.mp hLast
    exact ⟨_, hBefore, hGuard, rfl, rfl⟩

theorem Trace.split {before after : List (ι × ο)} (hTrace : Trace step guard init (before ++ after) s) :
    ∃ m, Trace step guard init before m ∧ Trace step guard m after s := by
  induction after using List.reverseRecOn generalizing s with
  | nil =>
    rw [List.append_nil] at hTrace
    exact ⟨s, hTrace, .start⟩
  | append_singleton rest e ih =>
    rw [← List.append_assoc] at hTrace
    obtain ⟨m, hRest, hGuard, hLast, rfl⟩ := Trace.snoc_inv hTrace
    obtain ⟨first, hBefore, hAfter⟩ := ih hRest
    refine ⟨first, hBefore, ?_⟩
    rw [hLast]
    exact hAfter.snoc e.1 hGuard

end

variable [IsOrderedAddMonoid T] {h : Handler T} {remote : R → A}
variable {ip : A} {run : List (Entry T R)} {s : Web T A R}

/- The rows of an address since it was let through. -/
structure Since (h : Handler T) (remote : R → A) (ip : A) (run : List (Entry T R)) (clock : T)
    (row : Record T) : Prop where
  locked : ∀ end_ ∈ row.lockedUntil, ∃ t ∈ failures remote ip run, t + h.limits.lockoutSeconds ≤ end_
  kept :
    (∀ t ∈ failures remote ip run, clock < t + h.limits.windowSeconds) →
      (failures remote ip run).Sublist row.failures

theorem Since.snoc {clock now : T} {row : Record T}
    (hSince : Since h remote ip run clock row) (hLater : clock ≤ now) {e : Entry T R}
    (hSeen : seen remote ip e ≠ .failed) : Since h remote ip (run ++ [e]) now row := by
  have hSame : failures remote ip (run ++ [e]) = failures remote ip run := by
    rw [failures_snoc, if_neg hSeen, List.append_nil]
  refine ⟨?_, ?_⟩
  · rw [hSame]
    exact hSince.locked
  · rw [hSame]
    exact fun hIn => hSince.kept (fun t ht => lt_of_le_of_lt hLater (hIn t ht))

theorem Since.check {now : T} {row : Record T} (hLimits : h.limits.windowSeconds ≤ h.limits.lockoutSeconds)
    (hSince : Since h remote ip run now row) :
    Since h remote ip run now (row.check now).2 := by
  rcases Record.check_cases now row with hKeep | hEnd
  · rwa [hKeep]
  · obtain ⟨end_, hLocked, hOver, hGone⟩ := hEnd
    rw [hGone]
    refine ⟨fun _ hNone => (by cases hNone), fun hIn => ?_⟩
    -- a lockout that is over began before the window
    obtain ⟨t, ht, hLe⟩ := hSince.locked end_ hLocked
    exact absurd (hIn t ht) (not_lt.mpr ((add_le_add_right hLimits t).trans (hLe.trans hOver)))

/- The failures since then are all kept for a failure in time. -/
theorem Since.recent {clock now : T} {row : Record T}
    (hSince : Since h remote ip run clock row) (hLater : clock ≤ now)
    (hIn : ∀ t ∈ failures remote ip run, now < t + h.limits.windowSeconds) :
    (failures remote ip run).Sublist
      (row.failures.filter (fun t => decide (now - h.limits.windowSeconds < t))) := by
  have hKept := (hSince.kept (fun t ht =>
    lt_of_le_of_lt hLater (hIn t ht))).filter (fun t => decide (now - h.limits.windowSeconds < t))
  rwa [List.filter_eq_self.mpr (fun t ht => decide_eq_true (sub_lt_iff_lt_add.mpr (hIn t ht)))] at hKept

theorem Since.step (hLimits : h.limits.windowSeconds ≤ h.limits.lockoutSeconds)
    (hSince : Since h remote ip run s.clock (s.rows ip)) (c : Call T R)
    (hForward : Forward s c)
    (hNot : seen remote ip (c, (h.call remote s c).1) ≠ .succeeded) :
    Since h remote ip (run ++ [(c, (h.call remote s c).1)])
      (h.call remote s c).2.clock ((h.call remote s c).2.rows ip) := by
  rw [(row_call h remote s c ip).1, clock_call]
  cases hSeen : seen remote ip (c, (h.call remote s c).1) with
  | passed => exact (hSince.snoc hForward (by rw [hSeen]; decide)).check hLimits
  | refused => exact (hSince.snoc hForward (by rw [hSeen]; decide)).check hLimits
  | succeeded => exact absurd hSeen hNot
  | other => exact hSince.snoc hForward (by rw [hSeen]; decide)
  | failed =>
    refine ⟨?_, ?_⟩
    · rw [failures_snoc, hSeen, if_pos rfl]
      intro end_ hLocked
      rcases Limits.lock_of_failure hLocked with hNew | hOld
      · exact ⟨c.now, by simp, hNew.1.ge⟩
      · obtain ⟨t, ht, hLe⟩ := hSince.locked end_ hOld
        exact ⟨t, List.mem_append_left _ ht, hLe⟩
    · rw [failures_snoc, hSeen, if_pos rfl]
      intro hIn
      exact (hSince.recent hForward (fun t ht =>
        hIn t (List.mem_append_left _ ht))).append (List.Sublist.refl _)

/- From a lockout on, nothing is let through before its end. -/
structure Shut (h : Handler T) (remote : R → A) (ip : A) (start : T) (run : List (Entry T R))
    (s : Web T A R) : Prop where
  since : start ≤ s.clock
  shut : ∀ e ∈ run, seen remote ip e = .passed → start + h.limits.lockoutSeconds ≤ e.1.now
  locked :
    start + h.limits.lockoutSeconds ≤ s.clock ∨ ∃ end_ ∈ (s.rows ip).lockedUntil,
        start + h.limits.lockoutSeconds ≤ end_

theorem Shut.step {start : T} (hShut : Shut h remote ip start run s) (c : Call T R) (hForward : Forward s c)
    (hNot : seen remote ip (c, (h.call remote s c).1) ≠ .succeeded) :
    Shut h remote ip start (run ++ [(c, (h.call remote s c).1)]) (h.call remote s c).2 := by
  obtain ⟨hRow, hPass, hRefuse⟩ := row_call h remote s c ip
  have hOver : seen remote ip (c, (h.call remote s c).1) = .passed →
        start + h.limits.lockoutSeconds ≤ c.now := by
    intro hPassed
    rcases hShut.locked with hEnd | ⟨end_, hLocked, hLe⟩
    · exact hEnd.trans hForward
    · exact hLe.trans (Record.le_of_passed (hPass hPassed) hLocked)
  refine ⟨?_, ?_, ?_⟩
  · rw [clock_call]
    exact hShut.since.trans hForward
  · intro e he hPassed
    rcases List.mem_append.mp he with hOld | hNew
    · exact hShut.shut e hOld hPassed
    · obtain rfl := List.mem_singleton.mp hNew
      exact hOver hPassed
  · rw [clock_call]
    rcases hShut.locked with hEnd | ⟨end_, hLocked, hLe⟩
    · exact .inl (hEnd.trans hForward)
    cases hSeen : seen remote ip (c, (h.call remote s c).1) with
    | passed => exact .inl (hOver hSeen)
    | succeeded => exact absurd hSeen hNot
    | refused =>
      rw [hSeen] at hRow
      refine .inr ⟨end_, ?_, hLe⟩
      rw [hRow, Limits.follow, (Record.lock_of_refused (hRefuse hSeen)).1]
      exact hLocked
    | other =>
      rw [hSeen] at hRow
      exact .inr ⟨end_, by rwa [hRow, Limits.follow], hLe⟩
    | failed =>
      rw [hSeen] at hRow
      rw [hRow]
      unfold Limits.follow Limits.recordFailure
      dsimp only
      split
      · exact .inr ⟨_, rfl, add_le_add_left (hShut.since.trans hForward) _⟩
      · exact .inr ⟨end_, hLocked, hLe⟩

theorem Earned.snoc {end_ : T} (hEarned : Earned h remote ip run end_)
    (e : Entry T R) : Earned h remote ip (run ++ [e]) end_ := by
  obtain ⟨earlier, last, since, rfl, hRest⟩ := hEarned
  refine ⟨earlier, last, since ++ [e], ?_, hRest⟩
  rw [List.append_assoc, List.cons_append]

/- What the rows of an address say was seen. -/
structure Founded (h : Handler T) (remote : R → A) (ip : A) (run : List (Entry T R))
    (row : Record T) : Prop where
  kept : row.failures.Sublist (failures remote ip run)
  earned : ∀ end_ ∈ row.lockedUntil, Earned h remote ip run end_

theorem Founded.nil : Founded h remote ip run {} := ⟨List.nil_sublist _, fun _ hNone => by cases hNone⟩

theorem Founded.snoc {row : Record T} (hFounded : Founded h remote ip run row)
    (e : Entry T R) : Founded h remote ip (run ++ [e]) row := by
  refine ⟨?_, fun end_ hEnd => (hFounded.earned end_ hEnd).snoc e⟩
  rw [failures_snoc]
  exact hFounded.kept.trans (List.sublist_append_left _ _)

theorem Founded.check {row : Record T} (hFounded : Founded h remote ip run row)
    (now : T) : Founded h remote ip run (row.check now).2 := by
  rcases Record.check_cases now row with hKeep | ⟨_, _, _, hGone⟩
  · rwa [hKeep]
  · rw [hGone]
    exact .nil

theorem Founded.step (hFounded : Founded h remote ip run (s.rows ip))
    (c : Call T R) : Founded h remote ip (run ++ [(c, (h.call remote s c).1)])
      ((h.call remote s c).2.rows ip) := by
  rw [(row_call h remote s c ip).1]
  cases hSeen : seen remote ip (c, (h.call remote s c).1) with
  | passed => exact (hFounded.check c.now).snoc _
  | refused => exact (hFounded.check c.now).snoc _
  | succeeded => exact .nil
  | other => exact hFounded.snoc _
  | failed =>
    refine ⟨?_, ?_⟩
    · rw [failures_snoc, hSeen, if_pos rfl]
      exact (List.filter_sublist.trans hFounded.kept).append (List.Sublist.refl _)
    · intro end_ hLocked
      rcases Limits.lock_of_failure hLocked with ⟨hEnd, hMany⟩ | hOld
      · exact ⟨run, _, [], rfl, hSeen, hEnd, hMany.trans
          (Nat.add_le_add_right (hFounded.kept.filter _).length_le 1)⟩
      · exact (hFounded.earned end_ hOld).snoc _

-- The Guard

/- What the guard's attempts say was tried and let in. -/
def Counted (g : GuardLimits T) (run : List (Entry T R)) (s : Web T A R) : Prop :=
  ∃ tried, Mirrors g.windowSeconds id s.clock tried s.guard.attempts ∧
    Within g.windowSeconds id (fun _ => 1) g.maxAttempts tried ∧
    (started run).Sublist tried

theorem started_snoc (run : List (Entry T R)) (e : Entry T R) : started (run ++ [e]) = started run ++
        if e.1.step = .acquire ∧ e.2 = .passed then [e.1.now]
        else [] := by
  unfold started
  rw [List.filter_append, List.map_append, List.filter_cons]
  by_cases hStarted : e.1.step = .acquire ∧ e.2 = .passed
  · simp [hStarted]
  · simp [hStarted]

theorem guard_call {g : GuardLimits T} (remote : R → A) (s : Web T A R) (c : Call T R)
    (hGuard : h.guard = some g) :
    (c.step = .acquire ∧ ((h.call remote s c).1, (h.call remote s c).2.guard) = g.tryAcquire c.now s.guard) ∨
    ((h.call remote s c).2.guard.attempts = s.guard.attempts ∧
      ¬ (c.step = .acquire ∧ (h.call remote s c).1 = .passed)) := by
  rcases c with ⟨now, r, step⟩
  unfold Handler.call
  dsimp only
  split
  · split <;> exact .inr ⟨rfl, fun hStep => by cases hStep.1⟩
  · unfold Handler.acquire
    rw [hGuard]
    exact .inl ⟨rfl, rfl⟩
  all_goals exact .inr ⟨rfl, by simp⟩

theorem Counted.step {g : GuardLimits T}
    (hGuard : h.guard = some g) (hCounted : Counted g run s) (c : Call T R)
    (hForward : Forward s c) : Counted g (run ++ [(c, (h.call remote s c).1)]) (h.call remote s c).2 := by
  obtain ⟨tried, hMirrors, hWithin, hStarted⟩ := hCounted
  have hKept := hMirrors.filter hForward
  unfold Counted
  rw [started_snoc, clock_call]
  rcases guard_call remote s c hGuard with ⟨hStep, hTry⟩ | hFrame
  · obtain ⟨hOutcome, hLeft⟩ := Prod.ext_iff.mp hTry
    dsimp only at hOutcome hLeft
    rw [hOutcome, hLeft, hStep]
    unfold GuardLimits.tryAcquire
    dsimp only
    split
    · exact ⟨tried, hKept, hWithin, by simpa using hStarted⟩
    · rename_i hRoom
      have hFits := hWithin.snoc (r := c.now) hKept (by simp; omega)
      split
      · exact ⟨tried ++ [c.now], hKept.snoc c.now, hFits, hStarted.append (List.Sublist.refl _)⟩
      · refine ⟨tried ++ [c.now], hKept.snoc c.now, hFits, ?_⟩
        exact (List.append_nil (started run)).symm ▸ hStarted.trans (List.sublist_append_left _ _)
  · rw [if_neg hFrame.2, List.append_nil, hFrame.1]
    exact ⟨tried, hMirrors.mono hForward, hWithin, hStarted⟩

/- The requests that hold a slot. -/
def Stage.holds : Stage → Bool
  | .idle => false
  | .checked => false
  | .verifying => true
  | .judged _ => true
  | .recorded => true

def Seated (g : GuardLimits T) (s : Web T A R) : Prop := ∃ held : List R, held.Nodup ∧
    (∀ r, r ∈ held ↔ (s.stage r).holds = true) ∧
    held.length = s.guard.taken ∧ held.length ≤ g.maxConcurrent

theorem holds_move {r : R} {stage : Stage} (hSame : (s.stage r).holds = stage.holds)
    (other : R) : ((s.move r stage).stage other).holds = (s.stage other).holds := by
  by_cases hOther : other = r
  · rw [hOther, hSame]
    simp [Web.move]
  · simp [Web.move, hOther]

theorem Seated.of_holds {g : GuardLimits T} {s' : Web T A R}
    (hSeated : Seated g s) (hHolds : ∀ r, (s'.stage r).holds = (s.stage r).holds)
    (hTaken : s'.guard.taken = s.guard.taken) : Seated g s' := by
  obtain ⟨held, hNodup, hMem, hLength, hFew⟩ := hSeated
  exact ⟨held, hNodup, fun r => by rw [hMem, hHolds],
    by rw [hLength, hTaken], hFew⟩

theorem Seated.release {g : GuardLimits T} {r : R} (hSeated : Seated g s)
    (hHolds : (s.stage r).holds = true) : Seated g (s.release r) := by
  obtain ⟨held, hNodup, hMem, hLength, hFew⟩ := hSeated
  refine ⟨held.erase r, hNodup.erase r, ?_, ?_, ?_⟩
  · intro other
    rw [hNodup.mem_erase_iff, hMem]
    by_cases hOther : other = r
    · simp [hOther, Web.release, Web.move, Stage.holds]
    · simp [hOther, Web.release, Web.move]
  · rw [List.length_erase_of_mem ((hMem r).mpr hHolds), hLength]
    rfl
  · exact (List.erase_sublist).length_le.trans hFew

theorem Seated.acquire {g : GuardLimits T} {r : R} (hGuard : h.guard = some g) (hSeated : Seated g s)
    (hStage : s.stage r = .checked) : Seated g (h.acquire s r).2 := by
  unfold Handler.acquire
  rw [hGuard]
  dsimp only
  unfold GuardLimits.tryAcquire
  dsimp only
  split
  · exact hSeated.of_holds (holds_move (by rw [hStage]; rfl)) rfl
  split
  · rename_i hFree
    obtain ⟨held, hNodup, hMem, hLength, hFew⟩ := hSeated
    have hNew : r ∉ held := by
      rw [hMem, hStage]
      decide
    refine ⟨r :: held, List.nodup_cons.mpr ⟨hNew, hNodup⟩, ?_, ?_, ?_⟩
    · intro other
      rw [List.mem_cons, hMem]
      by_cases hOther : other = r
      · simp [hOther, Web.move, Stage.holds]
      · simp [hOther, Web.move]
    · rw [List.length_cons, hLength]
      rfl
    · rw [List.length_cons, hLength]
      exact hFree
  · exact hSeated.of_holds (holds_move (by rw [hStage]; rfl)) rfl

theorem Seated.step {g : GuardLimits T} (hGuard : h.guard = some g) (hSeated : Seated g s)
    (c : Call T R) : Seated g (h.call remote s c).2 := by
  rcases c with ⟨now, r, step⟩
  unfold Handler.call
  dsimp only
  split
  · rename_i hStage
    split
    · exact hSeated.of_holds (holds_move ((congrArg Stage.holds hStage).trans rfl)) rfl
    · exact hSeated.of_holds (fun _ => rfl) rfl
  · rename_i hStage
    exact Seated.acquire hGuard (hSeated.of_holds (fun _ => rfl) rfl) hStage
  any_goals
    rename_i hStage
    exact hSeated.release (congrArg Stage.holds hStage)
  any_goals
    rename_i hStage
    exact hSeated.of_holds (holds_move ((congrArg Stage.holds hStage).trans rfl)) rfl
  exact hSeated.of_holds (fun _ => rfl) rfl

-- All Runs

theorem lockout_of_trace {init : Web T A R} (hLimits : h.limits.windowSeconds ≤ h.limits.lockoutSeconds)
    {before within later : List (Entry T R)} {first last : Entry T R}
    (hTrace : Trace (h.call remote) Forward init (before ++ first :: (within ++ last :: later)) s)
    (hFirst : seen remote ip first = .passed) (hLast : seen remote ip last = .failed)
    (hNot : ∀ e ∈ within ++ later, seen remote ip e ≠ .succeeded)
    (hWindow : ∀ t ∈ failures remote ip within, last.1.now < t + h.limits.windowSeconds)
    (hMany : h.limits.maxFailures ≤ (failures remote ip within).length + 1) :
    Shut h remote ip last.1.now later s := by
  have hList : before ++ first :: (within ++ last :: later) =
        ((before ++ [first]) ++ (within ++ [last])) ++ later := by
    simp
  rw [hList] at hTrace
  obtain ⟨_, hMid, hLater⟩ := Trace.split hTrace
  obtain ⟨s₁, hBefore, hWithin⟩ := Trace.split hMid
  obtain ⟨s₀, _, _, hFirstEq, hFrom⟩ := Trace.snoc_inv hBefore
  obtain ⟨s₂, hSeg, hForward, hLastEq, rfl⟩ := Trace.snoc_inv hWithin
  have hOpen : (s₁.rows ip).lockedUntil = none := by
    obtain ⟨hRow, hPass, _⟩ := row_call h remote s₀ first.1 ip
    rw [← hFirstEq, hFirst] at hRow hPass
    rw [hFrom, hRow]
    exact Record.unlocked_of_passed (hPass rfl)
  have hSince : (∀ e ∈ within, seen remote ip e ≠ .succeeded) →
        Since h remote ip within s₂.clock (s₂.rows ip) := by
    refine hSeg.history_invariant (I := fun run s =>
      (∀ e ∈ run, seen remote ip e ≠ .succeeded) → Since h remote ip run s.clock (s.rows ip)) ?_ ?_
    · refine fun _ => ⟨?_, fun _ => List.nil_sublist _⟩
      rw [hOpen]
      exact fun _ hNone => by cases hNone
    · intro run s c ih hForward hNone
      exact (ih (fun e he => hNone e (by simp [he]))).step hLimits c
        hForward (hNone _ (by simp))
  have hKept := (hSince (fun e he => hNot e (by simp [he]))).recent
    hForward hWindow
  have hRow := (row_call h remote s₂ last.1 ip).1
  rw [← hLastEq, hLast] at hRow
  refine hLater.history_invariant (I := fun run s =>
    (∀ e ∈ run, seen remote ip e ≠ .succeeded) → Shut h remote ip last.1.now run s) ?_ ?_
      (fun e he => hNot e (by simp [he]))
  · refine fun _ => ⟨(clock_call h remote s₂ last.1).ge, fun e he => (by cases he), .inr ⟨_, ?_, le_rfl⟩⟩
    rw [hRow, Limits.follow, Limits.recordFailure, if_pos]
    · rfl
    · rw [List.length_append]
      exact hMany.trans (Nat.add_le_add_right hKept.length_le 1)
  · intro run s c ih hForward hNone
    exact (ih (fun e he => hNone e (by simp [he]))).step c
      hForward (hNone _ (by simp))

/- Guessing is bounded, in whatever order the steps come. -/
theorem guessing_bounded (h : Handler T)
    (remote : R → A) (hLimits : h.limits.windowSeconds ≤ h.limits.lockoutSeconds)
    {clock : T} {run : List (Entry T R)} {s : Web T A R}
    (hTrace : Trace (h.call remote) Forward { clock := clock } run s) :
    Bounds h remote run s := by
  refine ⟨?_, ?_, ?_, ?_⟩
  · rintro ip before first within last later rfl hFirst hLast hNot hWindow hMany
    exact (lockout_of_trace hLimits hTrace hFirst hLast hNot hWindow hMany).shut
  · rintro ip before e later rfl hRefused
    rw [← List.singleton_append, ← List.append_assoc] at hTrace
    obtain ⟨_, hUntil, _⟩ := Trace.split hTrace
    obtain ⟨m, hBefore, _, hLast, _⟩ := Trace.snoc_inv hUntil
    have hFounded : Founded h remote ip before (m.rows ip) := hBefore.history_invariant
        (I := fun run s => Founded h remote ip run (s.rows ip))
        .nil (fun _ _ c ih _ => ih.step c)
    rw [hLast] at hRefused
    obtain ⟨_, end_, hLocked, hNow⟩ := Record.lock_of_refused ((row_call h remote m e.1 ip).2.2 hRefused)
    exact ⟨end_, hNow, hFounded.earned end_ hLocked⟩
  · intro g hGuard
    obtain ⟨_, _, hWithin, hStarted⟩ : Counted g run s := hTrace.history_invariant (I := Counted g)
        ⟨[], Mirrors.nil, fun _ => Nat.zero_le _, .refl _⟩
        (fun _ _ c ih hForward => ih.step hGuard c hForward)
    exact hWithin.sublist hStarted
  · intro g hGuard requests hNodup hVerifying
    obtain ⟨held, _, hMem, _, hFew⟩ : Seated g s := hTrace.invariant (I := Seated g)
        ⟨[], List.nodup_nil, fun _ => by simp [Stage.holds], rfl,
          Nat.zero_le _⟩
        (fun _ c ih _ => ih.step hGuard c)
    refine (List.subperm_of_subset hNodup ?_).length_le.trans hFew
    intro r hr
    rw [hMem, hVerifying r hr]
    rfl

/- The limits of the recovery, and of one address. -/
def recovery : Handler ℤ := ⟨⟨3, 900, 1800⟩, some ⟨2, 60, 20⟩⟩

/- A request from its check to its release. -/
def attempt (r : ℕ) (right : Bool) : List (Call ℤ ℕ) :=
  [.check, .acquire, .verify right, .record, .release].map (⟨0, r, ·⟩)

/- Two requests that are both checked before one is recorded. -/
def raced (r q : ℕ) : List (Call ℤ ℕ) :=
  (attempt r false).zip (attempt q false) |>.flatMap (fun both => [both.1, both.2])

/- The calls, all of one address, with their answers. -/
def answered (calls : List (Call ℤ ℕ)) : List (Entry ℤ ℕ) :=
  history (recovery.call (fun _ => ())) { clock := 0 } calls

def wrong (calls : List (Call ℤ ℕ)) : ℕ := (failures (fun _ => ()) () (answered calls)).length

/- By a race, and by a success, a fourth key is found wrong. -/
theorem fourth_wrong_key : recovery.limits.maxFailures <
        wrong (attempt 0 false ++ attempt 1 false ++ raced 2 3) ∧
      recovery.limits.maxFailures < wrong (attempt 0 false ++ attempt 1 false ++ attempt 2 true ++
          attempt 3 false ++ attempt 4 false) := by
  decide

theorem guessing_bounded_attempt :
    let calls := attempt 0 false ++ attempt 1 true ++ raced 2 3 ++ attempt 4 false
    Bounds recovery (fun _ => ()) (answered calls)
      (finalState (recovery.call (fun _ => ())) { clock := 0 } calls) :=
  guessing_bounded recovery (fun _ => ()) (by decide)
    (trace_guarded (by repeat' (first | exact trivial | exact le_rfl | constructor)))

end SingboxOps.WebAuth.Guessing
