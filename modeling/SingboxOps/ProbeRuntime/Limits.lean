import Mathlib.Data.List.Perm.Subperm
import SingboxOps.Lib.Trace
import SingboxOps.ProbeRuntime.Tick

/-
  The limits of the probe runtime, and what ends it.

  Every cycle that runs has the future of its profile, so the
  futures bound the cycles.  A tick raises for the lock, for
  an unhandled exception of a profile and for an agent that
  does not close; where none of these comes, the service goes
  on.
-/

namespace SingboxOps.ProbeRuntime

variable {K T : Type} [LinearOrder K] [LinearOrder T]
variable [Add T] [NatCast T]

-- Cycles and Futures

/- Each cycle that runs has the future of its profile. -/
structure Inv (r : Runtime K T) : Prop where
  owned : ∀ c ∈ r.running, r.futures.get c.key = some c.id
  ids : (r.running.map Cycle.id).Nodup
  fresh : ∀ c ∈ r.running, c.id < r.submitted
  nodup : r.futures.keys.Nodup
  few : r.futures.length ≤ 2

namespace Inv

variable {r : Runtime K T}

theorem keys_nodup (h : Inv r) : (r.running.map Cycle.key).Nodup := by
  refine List.Nodup.map_on ?_ h.ids.of_map
  intro a hA b hB hKey
  have hId : a.id = b.id := by
    have hGet := h.owned a hA
    rw [hKey, h.owned b hB] at hGet
    exact (Option.some.inj hGet).symm
  cases a
  cases b
  cases hId
  cases hKey
  rfl

theorem running_le (h : Inv r) : r.running.length ≤ r.futures.length := by
  have hSub : r.running.map Cycle.key ⊆ r.futures.keys := by
    intro key hKey
    rcases List.mem_map.mp hKey with ⟨c, hC, rfl⟩
    exact List.mem_map.mpr ⟨_, Dict.mem_of_get (h.owned c hC), rfl⟩
  have hLength := (List.subperm_of_subset h.keys_nodup hSub).length_le
  rwa [List.length_map, Dict.keys, List.length_map] at hLength

theorem idle (h : Inv r) {key : K} (hNone : r.futures.get key = none) : ∀ c ∈ r.running, c.key ≠ key := by
  rintro c hC rfl
  rw [h.owned c hC] at hNone
  cases hNone

theorem harvest (h : Inv r) : Inv r.harvest where
  owned c hC := by
    have hRuns : r.runs c.id = true := List.any_eq_true.mpr ⟨c, hC, decide_eq_true rfl⟩
    refine Dict.get_of_mem ?_ (List.mem_filter.mpr ⟨Dict.mem_of_get (h.owned c hC), hRuns⟩)
    exact h.nodup.sublist (List.filter_sublist.map Prod.fst)
  ids := h.ids
  fresh := h.fresh
  nodup := h.nodup.sublist (List.filter_sublist.map Prod.fst)
  few := (List.length_filter_le _ _).trans h.few

theorem submit (h : Inv r) (m : Moment K T) {key : K} (hNone : r.futures.get key = none)
    (hFew : r.futures.length < 2) : Inv (r.submit m key) where
  owned c hC := by
    dsimp only [Runtime.submit, Runtime.note]
    rw [Dict.get_set]
    rcases List.mem_cons.mp hC with rfl | hOld
    · rw [if_pos rfl]
    · rw [if_neg (h.idle hNone c hOld).symm]
      exact h.owned c hOld
  ids := by
    refine List.nodup_cons.mpr ⟨?_, h.ids⟩
    intro hMem
    rcases List.mem_map.mp hMem with ⟨c, hC, hId⟩
    exact Nat.lt_irrefl _ (hId ▸ h.fresh c hC)
  fresh c hC := by
    rcases List.mem_cons.mp hC with rfl | hOld
    · exact Nat.lt_succ_self _
    · exact (h.fresh c hOld).trans (Nat.lt_succ_self _)
  nodup := Dict.nodup_set h.nodup key _
  few := by
    dsimp only [Runtime.submit, Runtime.note]
    rw [Dict.set_of_get_none hNone, List.length_append]
    exact hFew

theorem ends (h : Inv r) (id : ℕ) (ok : Bool) : Inv (r.ends id ok) where
  owned c hC := h.owned c (List.mem_of_mem_filter hC)
  ids := h.ids.sublist (List.filter_sublist.map Cycle.id)
  fresh c hC := h.fresh c (List.mem_of_mem_filter hC)
  nodup := h.nodup
  few := h.few

end Inv

-- What a Tick Adds

/-
  A start is of a profile that this tick found enabled, in a
  tick that found no halt, with at most one cycle of another
  profile running; a close is of an agent that runs none.
-/
def Proper (m : Moment K T) (event : Event K) : Prop := match event with
  | .started key enabled halted running =>
    enabled = true ∧ m.halted = false ∧ halted = m.haltedStarting key ∧
      (∀ c ∈ running, c.key ≠ key) ∧ running.length ≤ 1
  | .closed key running => ∀ c ∈ running, c.key ≠ key

/- The runtime goes on from `r` to `r'` by proper events. -/
structure Advance (m : Moment K T) (r r' : Runtime K T) : Prop where
  inv : Inv r → Inv r'
  leased : r'.leased = r.leased
  log : Inv r → ∀ e ∈ r'.log, e ∈ r.log ∨ Proper m e

namespace Advance

variable {m : Moment K T} {r r' r'' : Runtime K T}

theorem refl (m : Moment K T) (r : Runtime K T) : Advance m r r := ⟨id, rfl, fun _ _ h => .inl h⟩

theorem trans (h : Advance m r r') (h' : Advance m r' r'') : Advance m r r'' where
  inv hInv := h'.inv (h.inv hInv)
  leased := h'.leased.trans h.leased
  log hInv e hE := by
    rcases h'.log (h.inv hInv) e hE with hOld | hProper
    · exact h.log hInv e hOld
    · exact .inr hProper

theorem of_states (m : Moment K T) (r : Runtime K T) (states : Dict K Status) (due : Dict K T)
    (agents : Dict K (Agent T)) : Advance m r { r with states := states, due := due, agents := agents } where
  inv h := ⟨h.owned, h.ids, h.fresh, h.nodup, h.few⟩
  leased := rfl
  log _ _ h := .inl h

theorem harvest (m : Moment K T) (r : Runtime K T) : Advance m r r.harvest where
  inv h := h.harvest
  leased := rfl
  log _ _ h := .inl h

theorem prune (m : Moment K T) (r : Runtime K T) (keys : List K) : Advance m r (r.prune keys) :=
  of_states m r _ _ _

theorem setState (m : Moment K T) (r : Runtime K T) (key : K)
    (status : Status) : Advance m r (r.setState key status) :=
  of_states m r _ _ _

theorem unavailable (m : Moment K T) (r : Runtime K T) (now : T)
    (key : K) : Advance m r (r.unavailable now key) :=
  of_states m r _ _ _

theorem prepared (m : Moment K T) (r : Runtime K T) (now : T) (key : K)
    (agent : Agent T) : Advance m r (r.prepared now key agent) :=
  of_states m r _ _ _

theorem popAgent (m : Moment K T) {r : Runtime K T} {key : K}
    (hNone : r.futures.get key = none) : Advance m r (r.popAgent key) where
  inv h := ⟨h.owned, h.ids, h.fresh, h.nodup, h.few⟩
  leased := rfl
  log hInv e hE := by
    rcases List.mem_append.mp hE with hOld | hNew
    · exact .inl hOld
    · rw [List.mem_singleton.mp hNew]
      exact .inr (hInv.idle hNone)

theorem submit {m : Moment K T} {r : Runtime K T} {key : K}
    (hAllows : m.allows key = true) (hHalted : m.halted = false)
    (hNone : r.futures.get key = none)
    (hFew : r.futures.length < 2) : Advance m r (r.submit m key) where
  inv h := h.submit m hNone hFew
  leased := rfl
  log hInv e hE := by
    rcases List.mem_append.mp hE with hOld | hNew
    · exact .inl hOld
    · rw [List.mem_singleton.mp hNew]
      refine .inr ⟨hAllows, hHalted, rfl, hInv.idle hNone, ?_⟩
      exact hInv.running_le.trans (Nat.le_of_lt_succ hFew)

end Advance

-- The Loops

variable {m : Moment K T}

theorem readEnabled_states (m : Moment K T) (keys : List K) (r : Runtime K T) :
    ∃ states, (Runtime.readEnabled m r keys).2 = { r with states := states } := by
  induction keys generalizing r with
  | nil => exact ⟨r.states, rfl⟩
  | cons key rest ih =>
    rw [Runtime.readEnabled]
    split
    · exact ⟨r.states, rfl⟩
    · rcases ih (r.setState key .profileUnavailable) with ⟨states, hStates⟩
      exact ⟨states, hStates⟩
    · rcases ih r with ⟨states, hStates⟩
      split <;> rename_i hRead <;> rw [hRead] at hStates <;>
        exact ⟨states, hStates⟩

theorem readEnabled_ok {keys enabled : List K} {r r' : Runtime K T}
    (h : Runtime.readEnabled m r keys = (.ok enabled, r'))
    (key : K) : key ∈ enabled ↔ key ∈ keys ∧ m.allows key = true := by
  induction keys generalizing r enabled with
  | nil =>
    cases h
    exact ⟨(fun h => nomatch h), (fun h => nomatch h.1)⟩
  | cons first rest ih =>
    rw [Runtime.readEnabled] at h
    split at h
    · cases h
    · rename_i hRefused
      rw [ih h, List.mem_cons]
      constructor
      · rintro ⟨hMem, hAllows⟩
        exact ⟨.inr hMem, hAllows⟩
      · rintro ⟨rfl | hMem, hAllows⟩
        · rw [Moment.allows, hRefused] at hAllows
          cases hAllows
        · exact ⟨hMem, hAllows⟩
    · rename_i b hAnswered
      split at h
      · cases h
      · rename_i others next hRest
        cases h
        have hFirst : m.allows first = b := by rw [Moment.allows, hAnswered]
        rw [List.mem_cons]
        cases b with
        | true =>
          rw [if_pos rfl, List.mem_cons, ih hRest]
          constructor
          · rintro (rfl | ⟨hMem, hAllows⟩)
            · exact ⟨.inl rfl, hFirst⟩
            · exact ⟨.inr hMem, hAllows⟩
          · rintro ⟨rfl | hMem, hAllows⟩
            · exact .inl rfl
            · exact .inr ⟨hMem, hAllows⟩
        | false =>
          rw [if_neg Bool.false_ne_true, ih hRest]
          constructor
          · rintro ⟨hMem, hAllows⟩
            exact ⟨.inr hMem, hAllows⟩
          · rintro ⟨rfl | hMem, hAllows⟩
            · rw [hFirst] at hAllows
              cases hAllows
            · exact ⟨hMem, hAllows⟩

theorem readEnabled_error_iff (m : Moment K T) (keys : List K) (r : Runtime K T) :
    (∃ enabled, (Runtime.readEnabled m r keys).1 = .ok enabled) ↔ ∀ key ∈ keys, m.enabled key ≠ .escapes := by
  induction keys generalizing r with
  | nil => exact ⟨(fun _ _ h => nomatch h), fun _ => ⟨[], rfl⟩⟩
  | cons key rest ih =>
    rw [List.forall_mem_cons, Runtime.readEnabled]
    split
    · rename_i hEscapes
      constructor
      · rintro ⟨enabled, h⟩
        cases h
      · rintro ⟨h, -⟩
        exact (h hEscapes).elim
    · rename_i hRefused
      rw [ih, hRefused]
      exact ⟨fun h => ⟨(fun hEq => nomatch hEq), h⟩, fun h => h.2⟩
    · rename_i b hAnswered
      rw [← ih r, hAnswered]
      constructor
      · rintro ⟨enabled, h⟩
        refine ⟨(fun hEq => nomatch hEq), ?_⟩
        split at h
        · cases h
        · rename_i others next hRest
          exact ⟨others, congrArg Prod.fst hRest⟩
      · rintro ⟨-, others, hRest⟩
        split
        · rename_i error next hError
          rw [hError] at hRest
          cases hRest
        · exact ⟨_, rfl⟩

theorem closeAgents_advance (m : Moment K T) (enabled keys : List K)
    (r : Runtime K T) : Advance m r (Runtime.closeAgents m enabled r keys).2 := by
  induction keys generalizing r with
  | nil => exact Advance.refl m r
  | cons key rest ih =>
    rw [Runtime.closeAgents]
    split
    · rename_i hLeaves
      have hNone : r.futures.get key = none :=
        Option.isNone_iff_eq_none.mp (Bool.and_eq_true_iff.mp hLeaves).2
      have hPop := Advance.popAgent m hNone
      split
      · exact (hPop.trans (Advance.setState m _ key .paused)).trans (ih _)
      · exact hPop
    · exact ih r

theorem closeAgents_ok_iff (m : Moment K T) (enabled keys : List K) (r : Runtime K T) :
    (Runtime.closeAgents m enabled r keys).1 = .ok () ↔
      ∀ key ∈ keys, r.leaves m enabled key = true → m.closes key = true := by
  induction keys generalizing r with
  | nil => exact ⟨(fun _ _ h => nomatch h), fun _ => rfl⟩
  | cons key rest ih =>
    rw [List.forall_mem_cons, Runtime.closeAgents]
    split
    · rename_i hLeaves
      split
      · rename_i hCloses
        rw [ih]
        exact ⟨fun h => ⟨fun _ => hCloses, h⟩, fun h => h.2⟩
      · rename_i hCloses
        constructor
        · intro h
          cases h
        · rintro ⟨h, -⟩
          exact (hCloses (h hLeaves)).elim
    · rename_i hLeaves
      rw [ih]
      exact ⟨fun h => ⟨fun hYes => (hLeaves hYes).elim, h⟩, fun h => h.2⟩

theorem startCycles_advance (hHalted : m.halted = false)
    (keys : List K) (hAllows : ∀ key ∈ keys, m.allows key = true)
    (r : Runtime K T) (available : ℕ)
    (hFew : r.futures.length + available ≤ 2 ∨ available = 0) :
    Advance m r (Runtime.startCycles m r available keys) := by
  induction keys generalizing r available with
  | nil => exact Advance.refl m r
  | cons key rest ih =>
    rw [List.forall_mem_cons] at hAllows
    rw [Runtime.startCycles]
    split
    · exact Advance.refl m r
    · rename_i hAvailable
      have hLess : r.futures.length + available ≤ 2 := by
        rcases hFew with h | h
        · exact h
        · exact (hAvailable h).elim
      split
      · exact ih hAllows.2 r available hFew
      · rename_i hDue
        have hNone : r.futures.get key = none := by
          rw [not_or, Option.not_isSome_iff_eq_none] at hDue
          exact hDue.1
        unfold Runtime.start
        cases r.agentOf m key with
        | none =>
          exact (Advance.unavailable m r m.now key).trans (ih hAllows.2 _ available hFew)
        | some agent =>
          have hPrepared := Advance.prepared m r m.now key agent
          dsimp only
          cases m.submits key with
          | false =>
            exact (hPrepared.trans (Advance.unavailable m _ m.now key)).trans (ih hAllows.2 _ available hFew)
          | true =>
            refine (hPrepared.trans (Advance.submit hAllows.1 hHalted ?_ ?_)).trans
                (ih hAllows.2 _ (available - 1) ?_)
            · exact hNone
            · change r.futures.length < 2
              omega
            · left
              dsimp only [Runtime.submit, Runtime.note, Runtime.prepared]
              rw [Dict.set_of_get_none hNone, List.length_append, List.length_singleton]
              omega

-- Ticks

theorem locked_advance (m : Moment K T) (r : Runtime K T)
    (keys : List K) : Advance m r (r.locked m keys).2 := by
  rcases readEnabled_states m keys r with ⟨states, hStates⟩
  have hRead : Advance m r (Runtime.readEnabled m r keys).2 := by
    rw [hStates]
    exact Advance.of_states m r states r.due r.agents
  unfold Runtime.locked
  split
  · rename_i error next hError
    rw [hError] at hRead
    exact hRead
  · rename_i enabled next hEnabled
    rw [hEnabled] at hRead
    have hClose := closeAgents_advance m enabled next.agents.keys next
    split
    · rename_i error after hError
      rw [hError] at hClose
      exact hRead.trans hClose
    · rename_i after hOk
      rw [hOk] at hClose
      split
      · exact hRead.trans hClose
      · rename_i hHalted
        refine (hRead.trans hClose).trans (startCycles_advance (Bool.eq_false_iff.mpr hHalted) _ ?_ _ _ ?_)
        · intro key hKey
          rw [List.mem_insertionSort, List.mem_dedup, readEnabled_ok hEnabled] at hKey
          exact hKey.2
        · dsimp only
          omega

theorem tick_advance (m : Moment K T) (r : Runtime K T) : Advance m r (r.tick m).2 := by
  have hHarvest := Advance.harvest m r
  unfold Runtime.tick
  split
  · split
    · exact hHarvest
    · rename_i keys hKeys
      have hPrune := hHarvest.trans (Advance.prune m r.harvest keys)
      split
      · exact hPrune
      · exact hPrune
      · exact hPrune.trans (locked_advance m _ keys)
  · exact Advance.refl m r

/- The profile has no future, or its cycle has ended. -/
def Idle (r : Runtime K T) (key : K) : Prop := r.harvest.futures.get key = none

/-
  The lock is free, every profile answers or is refused, and
  every agent that is closed now closes.
-/
structure Undisturbed (r : Runtime K T) (m : Moment K T) (keys : List K) : Prop where
  lock : m.lock ≠ .held
  profiles : ∀ key ∈ keys, m.enabled key ≠ .escapes
  agents : ∀ key ∈ r.agents.keys, Idle r key →
      ¬ (key ∈ keys ∧ m.allows key = true) ∨ m.haltedClosing key = true →
      m.closes key = true

theorem locked_ok_iff (m : Moment K T) (r : Runtime K T) (keys : List K) :
    (r.locked m keys).1 = .ok () ↔ (∀ key ∈ keys, m.enabled key ≠ .escapes) ∧
        ∀ key ∈ r.agents.keys, r.futures.get key = none →
          ¬ (key ∈ keys ∧ m.allows key = true) ∨ m.haltedClosing key = true →
          m.closes key = true := by
  rcases readEnabled_states m keys r with ⟨states, hStates⟩
  rw [← readEnabled_error_iff m keys r]
  unfold Runtime.locked
  split
  · rename_i error next hError
    rw [hError]
    constructor
    · intro h
      cases h
    · rintro ⟨⟨enabled, h⟩, -⟩
      cases h
  · rename_i enabled next hEnabled
    have hNext : next = { r with states := states } := by
      rw [hEnabled] at hStates
      exact hStates
    have hLeaves : ∀ key, next.leaves m enabled key = true ↔ r.futures.get key = none ∧
            (¬ (key ∈ keys ∧ m.allows key = true) ∨ m.haltedClosing key = true) := by
      intro key
      have hFutures : next.futures = r.futures := by rw [hNext]
      unfold Runtime.leaves
      rw [Bool.and_eq_true, Bool.or_eq_true, decide_eq_true_eq,
        Option.isNone_iff_eq_none, readEnabled_ok hEnabled, hFutures,
        and_comm]
    have hAgents : next.agents = r.agents := by rw [hNext]
    have hClose := closeAgents_ok_iff m enabled next.agents.keys next
    rw [hEnabled]
    have hIff : (Runtime.closeAgents m enabled next next.agents.keys).1 = .ok () ↔
          ∀ key ∈ r.agents.keys, r.futures.get key = none →
            ¬ (key ∈ keys ∧ m.allows key = true) ∨ m.haltedClosing key = true →
            m.closes key = true := by
      rw [hClose, hAgents]
      constructor
      · intro h key hKey hNone hLeave
        exact h key hKey ((hLeaves key).mpr ⟨hNone, hLeave⟩)
      · intro h key hKey hLeave
        rcases (hLeaves key).mp hLeave with ⟨hNone, hWant⟩
        exact h key hKey hNone hWant
    split
    · rename_i error after hError
      rw [hError] at hIff
      constructor
      · intro h
        cases h
      · rintro ⟨-, h⟩
        cases hIff.mpr h
    · rename_i after hOk
      rw [hOk] at hIff
      have hRest := hIff.mp rfl
      constructor
      · intro _
        exact ⟨⟨enabled, rfl⟩, hRest⟩
      · intro _
        split <;> rfl

theorem tick_ok_iff {m : Moment K T} {r : Runtime K T} {keys : List K}
    (hLeased : r.leased = true) (hKeys : m.keys = some keys)
    (hLock : m.lock ≠ .broken) : (r.tick m).1 = .ok () ↔ Undisturbed r m keys := by
  unfold Runtime.tick
  rw [if_pos hLeased, hKeys]
  dsimp only
  cases hAnswer : m.lock with
  | broken => exact (hLock hAnswer).elim
  | held =>
    constructor
    · intro h
      cases h
    · intro h
      exact (h.lock hAnswer).elim
  | free =>
    dsimp only
    rw [locked_ok_iff]
    constructor
    · rintro ⟨hProfiles, hAgents⟩
      refine ⟨?_, hProfiles, hAgents⟩
      rw [hAnswer]
      exact fun h => nomatch h
    · intro h
      exact ⟨h.profiles, h.agents⟩

-- The Service

/- What `Proper` says whatever the tick was. -/
def Orderly (event : Event K) : Prop := match event with
  | .started key enabled _ running =>
    enabled = true ∧ (∀ c ∈ running, c.key ≠ key) ∧ running.length ≤ 1
  | .closed key running => ∀ c ∈ running, c.key ≠ key

/- No cycle was started while paused or stopping. -/
def Unhalted (event : Event K) : Prop := match event with
  | .started _ _ halted _ => halted = false
  | .closed _ _ => True

theorem Proper.orderly {m : Moment K T} {event : Event K} (h : Proper m event) : Orderly event := by
  cases event with
  | started key enabled halted running => exact ⟨h.1, h.2.2.2.1, h.2.2.2.2⟩
  | closed key running => exact h

theorem Proper.unhalted {m : Moment K T} {event : Event K} (h : Proper m event)
    (hStarting : m.halted = false → ∀ key, m.haltedStarting key = false) :
    Unhalted event := by
  cases event with
  | started key enabled halted running => exact h.2.2.1.trans (hStarting h.2.1 key)
  | closed key running => trivial

theorem closeAll_events (closes : K → Bool) (keys : List K) {r : Runtime K T} (hInv : Inv r)
    (hNone : r.running = []) :
    Inv (Runtime.closeAll closes r keys).2 ∧ ∀ e ∈ (Runtime.closeAll closes r keys).2.log,
        e ∈ r.log ∨ Orderly e ∧ Unhalted e := by
  induction keys generalizing r with
  | nil =>
    exact ⟨⟨hInv.owned, hInv.ids, hInv.fresh, hInv.nodup, hInv.few⟩, fun _ h => .inl h⟩
  | cons key rest ih =>
    have hNote : Inv (r.note (.closed key r.running)) :=
      ⟨hInv.owned, hInv.ids, hInv.fresh, hInv.nodup, hInv.few⟩
    have hLog : ∀ e ∈ (r.note (.closed key r.running)).log, e ∈ r.log ∨ Orderly e ∧ Unhalted e := by
      intro e hE
      rcases List.mem_append.mp hE with hOld | hNew
      · exact .inl hOld
      · rw [List.mem_singleton.mp hNew, hNone]
        exact .inr ⟨(fun c hC => nomatch hC), trivial⟩
    rw [Runtime.closeAll]
    split
    · rcases ih hNote hNone with ⟨hDone, hRest⟩
      refine ⟨hDone, ?_⟩
      intro e hE
      rcases hRest e hE with hOld | hNew
      · exact hLog e hOld
      · exact .inr hNew
    · exact ⟨hNote, hLog⟩

theorem close_events (closes : K → Bool) {r : Runtime K T} (hInv : Inv r) :
    Inv (r.close closes).2 ∧ ∀ e ∈ (r.close closes).2.log, e ∈ r.log ∨ Orderly e ∧ Unhalted e := by
  have hDrained : Inv r.drained := ⟨(fun _ h => nomatch h), List.nodup_nil,
      (fun _ h => nomatch h), hInv.nodup, hInv.few⟩
  exact closeAll_events closes r.agents.keys hDrained rfl

structure Sound (s : Service K T) : Prop where
  inv : Inv s.runtime
  leased : s.serving = true → s.runtime.leased = true

theorem sound_opened : Sound (Service.opened : Service K T) where
  inv := ⟨(fun _ h => nomatch h), List.nodup_nil, (fun _ h => nomatch h), List.nodup_nil, Nat.zero_le 2⟩
  leased _ := rfl

/-
  One step of the service: its cycles stay in order, and each
  new event is orderly.
-/
theorem Sound.step {s : Service K T} (h : Sound s) (input : Input K T) :
    Sound (s.step input).2 ∧ ∀ e ∈ (s.step input).2.runtime.log,
        e ∈ s.runtime.log ∨ Orderly e ∧ (Unhalted e ∨ ∃ m, input = .tick m ∧ Proper m e) := by
  cases input with
  | ends id ok => exact ⟨⟨h.inv.ends id ok, h.leased⟩, fun _ hE => .inl hE⟩
  | stop closes =>
    dsimp only [Service.step]
    split
    · rcases close_events closes h.inv with ⟨hInv, hLog⟩
      refine ⟨⟨hInv, fun hServing => nomatch hServing⟩, ?_⟩
      intro e hE
      exact (hLog e hE).imp id (fun hNew => ⟨hNew.1, .inl hNew.2⟩)
    · exact ⟨h, fun _ hE => .inl hE⟩
  | tick m =>
    have hTick := tick_advance m s.runtime
    have hProper : ∀ e ∈ (s.runtime.tick m).2.log, e ∈ s.runtime.log ∨ Orderly e ∧
            (Unhalted e ∨ ∃ m', Input.tick m = .tick m' ∧ Proper m' e) := by
      intro e hE
      exact (hTick.log h.inv e hE).imp id (fun hNew => ⟨hNew.orderly, .inr ⟨m, rfl, hNew⟩⟩)
    dsimp only [Service.step]
    split
    · rename_i hServing
      split
      · rename_i r hOk
        rw [hOk] at hTick hProper
        exact ⟨⟨hTick.inv h.inv, fun _ => hTick.leased.trans (h.leased hServing)⟩, hProper⟩
      · rename_i error r hError
        rw [hError] at hTick hProper
        rcases close_events m.closes (hTick.inv h.inv) with ⟨hInv, hLog⟩
        refine ⟨⟨hInv, fun hNo => nomatch hNo⟩, ?_⟩
        intro e hE
        rcases hLog e hE with hOld | hNew
        · exact hProper e hOld
        · exact .inr ⟨hNew.1, .inl hNew.2⟩
    · exact ⟨h, fun _ hE => .inl hE⟩

-- Every Run

/-
  At most two cycles run, of different profiles; each was
  started for an enabled profile, and each agent was closed
  while none of its cycles ran.
-/
structure Limits (r : Runtime K T) : Prop where
  two : r.running.length ≤ 2
  apart : (r.running.map Cycle.key).Nodup
  orderly : ∀ e ∈ r.log, Orderly e

/- The vault itself cannot be read. -/
def Excused (m : Moment K T) : Prop := m.keys = none ∨ m.lock = .broken

/-
  No halt comes after the tick has looked for one, and nothing
  disturbs it.
-/
def Calm (s : Service K T) (input : Input K T) : Prop := match input with
  | .tick m =>
    (m.halted = false → ∀ key, m.haltedStarting key = false) ∧ (s.serving = true →
        ∀ keys, m.keys = some keys → m.lock ≠ .broken → Undisturbed s.runtime m keys)
  | .ends _ _ => True
  | .stop _ => True

/- The service is told to stop, or its vault is unreadable. -/
def Ending (input : Input K T) : Prop := match input with
  | .tick m => Excused m
  | .ends _ _ => False
  | .stop _ => True

theorem limits_run {h : List (Input K T × Except TickError Unit)} {s : Service K T}
    {guard : Service K T → Input K T → Prop}
    (hTrace : Trace Service.step guard Service.opened h s) : Sound s ∧ Limits s.runtime := by
  have hAll : Sound s ∧ ∀ e ∈ s.runtime.log, Orderly e := by
    refine hTrace.invariant (I := fun s => Sound s ∧ ∀ e ∈ s.runtime.log, Orderly e)
      ⟨sound_opened, fun _ h => nomatch h⟩ ?_
    rintro s input ⟨hSound, hLog⟩ -
    rcases hSound.step input with ⟨hNext, hNew⟩
    refine ⟨hNext, ?_⟩
    intro e hE
    rcases hNew e hE with hOld | hOrderly
    · exact hLog e hOld
    · exact hOrderly.1
  exact ⟨hAll.1, hAll.1.inv.running_le.trans hAll.1.inv.few, hAll.1.inv.keys_nodup, hAll.2⟩

theorem Calm.step {s : Service K T} (hSound : Sound s) {m : Moment K T} (h : Calm s (.tick m)) :
    ((s.step (.tick m)).1 = .ok () ∧ (s.step (.tick m)).2.serving = s.serving) ∨ Excused m := by
  by_cases hServing : s.serving = true
  · cases hKeys : m.keys with
    | none => exact .inr (.inl hKeys)
    | some keys =>
      by_cases hLock : m.lock = .broken
      · exact .inr (.inr hLock)
      · left
        have hOk := (tick_ok_iff (hSound.leased hServing) hKeys hLock).mpr (h.2 hServing keys hKeys hLock)
        dsimp only [Service.step]
        rw [if_pos hServing]
        split
        · exact ⟨rfl, hServing.symm⟩
        · rename_i error r hError
          rw [hError] at hOk
          cases hOk
  · left
    dsimp only [Service.step]
    rw [if_neg hServing]
    exact ⟨rfl, rfl⟩

/- What a calm run keeps. -/
structure Undying (h : List (Input K T × Except TickError Unit)) (s : Service K T) : Prop where
  unhalted : ∀ e ∈ s.runtime.log, Unhalted e
  answers : ∀ m out, (.tick m, out) ∈ h → out = .ok () ∨ Excused m
  serving : s.serving = true ∨ ∃ entry ∈ h, Ending entry.1

theorem Undying.step {h : List (Input K T × Except TickError Unit)} {s : Service K T}
    (hRun : Undying h s) (hSound : Sound s) {input : Input K T}
    (hCalm : Calm s input) : Undying (h ++ [(input, (s.step input).1)]) (s.step input).2 := by
  have hKept : (∃ entry ∈ h, Ending entry.1) →
        ∃ entry ∈ h ++ [(input, (s.step input).1)], Ending entry.1 := by
    rintro ⟨entry, hMem, hEnding⟩
    exact ⟨entry, List.mem_append_left _ hMem, hEnding⟩
  have hHere : Ending input → ∃ entry ∈ h ++ [(input, (s.step input).1)], Ending entry.1 :=
    fun hEnding => ⟨(input, (s.step input).1), List.mem_append_right _ (List.mem_singleton_self _), hEnding⟩
  constructor
  · intro e hE
    rcases (hSound.step input).2 e hE with
      hOld | ⟨-, hNew | ⟨m, rfl, hProper⟩⟩
    · exact hRun.unhalted e hOld
    · exact hNew
    · exact hProper.unhalted hCalm.1
  · intro m out hMem
    rcases List.mem_append.mp hMem with hOld | hNew
    · exact hRun.answers m out hOld
    · cases List.mem_singleton.mp hNew
      exact (hCalm.step hSound).imp And.left id
  · cases input with
    | ends cycle ok => exact hRun.serving.imp id hKept
    | stop closes => exact .inr (hHere trivial)
    | tick m =>
      rcases hCalm.step hSound with ⟨-, hSame⟩ | hExcused
      · rw [hSame]
        exact hRun.serving.imp id hKept
      · exact .inr (hHere hExcused)

/-
  In every run the limits hold.  In a run of calm ticks, a
  tick raises only where the vault cannot be read, no cycle
  starts in a halt, and only a stop or an unreadable vault
  ends the service.  Of a tick whose vault can be read, being
  undisturbed is also needed.
-/
theorem runtime_keeps_running (h : List (Input K T × Except TickError Unit)) (s : Service K T) :
    (Trace Service.step (fun _ _ => True) Service.opened h s → Limits s.runtime) ∧
      (Trace Service.step Calm Service.opened h s → Limits s.runtime ∧ Undying h s) ∧
      ∀ (m : Moment K T) (keys : List K), s.runtime.leased = true → m.keys = some keys →
        m.lock ≠ .broken → ((s.runtime.tick m).1 = .ok () ↔ Undisturbed s.runtime m keys) := by
  refine ⟨fun hTrace => (limits_run hTrace).2, ?_,
    fun m keys hLeased hKeys hLock => tick_ok_iff hLeased hKeys hLock⟩
  intro hTrace
  refine ⟨(limits_run hTrace).2, ?_⟩
  have hBoth : Sound s ∧ Undying h s := by
    refine hTrace.history_invariant (I := fun h s => Sound s ∧ Undying h s) ?_ ?_
    · exact ⟨sound_opened, (fun _ hE => nomatch hE), (fun _ _ hMem => nomatch hMem), .inl rfl⟩
    · rintro h s input ⟨hSound, hRun⟩ hCalm
      exact ⟨(hSound.step input).1, hRun.step hSound hCalm⟩
  exact hBoth.2

/- One profile, enabled and due; nothing disturbs the tick. -/
def quietMoment : Moment ℕ ℤ where
  now := 0
  keys := some [7]
  lock := .free
  enabled := fun _ => .answered true
  haltedClosing := fun _ => false
  halted := false
  haltedStarting := fun _ => false
  opens := fun _ => some ⟨60⟩
  submits := fun _ => true
  closes := fun _ => true

/- The same, while an administrator holds the lock. -/
def lockedMoment : Moment ℕ ℤ := { quietMoment with lock := .held }

theorem calm_quietMoment : Calm Service.opened (.tick quietMoment) := by
  refine ⟨fun _ _ => rfl, fun _ keys hKeys _ => ?_⟩
  cases hKeys
  exact ⟨(fun h => nomatch h), (fun _ _ h => nomatch h), (fun _ _ _ _ => rfl)⟩

/- The tick starts the cycle of the profile and goes on. -/
theorem runtime_keeps_running_quiet : Limits (Service.opened.step (.tick quietMoment)).2.runtime ∧
      (Service.opened.step (.tick quietMoment)).2.runtime.running = [⟨0, 7⟩] := by
  have hStart : Trace Service.step Calm (Service.opened : Service ℕ ℤ) []
        Service.opened :=
    .start
  have hTrace := hStart.snoc (.tick quietMoment) calm_quietMoment
  exact ⟨((runtime_keeps_running _ _).2.1 hTrace).1, by decide⟩

/- A lock that is held ends the service of every profile. -/
theorem locked_ends_service : (Service.opened.step (.tick lockedMoment)).1 = .error .locked ∧
      (Service.opened.step (.tick lockedMoment)).2.serving = false := by
  decide

end SingboxOps.ProbeRuntime
