import SingboxOps.Collector.Steps

/-
  The accounting invariant of the collector, over every
  sequence of calls and between any two of their steps.
-/

namespace SingboxOps.Collector

open PyFloat Tracker

-- What Holds Between Two Steps

/-
  No id is active and banked, or active and shown as closed,
  and an id has one key.
-/
def Separate {F : Type} (t : Tracker F) : Prop := ∀ id,
    (¬ ((t.active.get id).isSome ∧ (t.bankedIds.get id).isSome)) ∧
    (¬ ((t.active.get id).isSome ∧ (t.closed.get id).isSome)) ∧
    ∀ k k', Tracks t id k → Tracks t id k' → k = k'

/-
  The slot of a key holds the banked and the forgotten records
  of the key, and un-banking a record cuts nothing off.
-/
def Balanced {F : Type} [PyFloat F] (t : Tracker F) : Prop := (∀ key d,
    toRat (t.slot key d) = Dict.total (fun _ r =>
        if r.key = key then toRat (r.total d) else 0)
        t.bankedIds +
      Dict.total (fun _ r =>
        if r.key = key then toRat (r.total d) else 0)
        t.evicted) ∧
    ∀ id r, t.bankedIds.get id = some r → ∀ d, toRat (cutOff (t.slot r.key d) (r.total d)) =
        toRat (t.slot r.key d) - toRat (r.total d)

section Separation

variable {F : Type} {t : Tracker F}

theorem separate_of_apart (h : Apart t) : Separate t := by
  intro id
  have hLocal := (h.ids id).active
  refine ⟨?_, ?_, ?_⟩
  · rintro ⟨hActive, hBanked⟩
    rcases Option.isSome_iff_exists.mp hActive with ⟨c, hc⟩
    rw [(hLocal c hc).1] at hBanked
    cases hBanked
  · rintro ⟨hActive, hClosed⟩
    rcases Option.isSome_iff_exists.mp hActive with ⟨c, hc⟩
    rw [(hLocal c hc).2] at hClosed
    cases hClosed
  · intro k k' hk hk'
    rcases hk with ⟨c, hc, rfl⟩ | ⟨r, hr, rfl⟩
    · exact (key_of_active h hc hk').symm
    · exact (key_of_banked h hr hk').symm

end Separation

variable {F : Type} [BoundedFloat F] {t : Tracker F}

theorem balanced_of_exact (h : Exact t) (hFits : ∀ d, held t everyKey d ≤ 2 ^ 53) : Balanced t := by
  constructor
  · intro key d
    rw [← slotSum_key h.nodups.finalized key d, h.balance]
    unfold bankedSum evictedSum recordWeight weigh
    simp only [beq_iff_eq]
  · intro id r hr d
    exact (cutOff_whole (h.slot r.key d) (h.banked _ (Dict.mem_of_get hr) d) (record_le_slot h hr d)
      ((h.slot_le_held r.key d).trans (hFits d))).1

/-
  Between any two steps of any calls the ids are kept apart,
  no id changes its key while it is active or banked, and as
  long as the bytes named fit into 53 bits the slots balance.
-/
theorem apart_and_balanced (ttl : F) (cap : ℕ) (calls : List (Call F))
    (n : ℕ) : Separate (moves (Tracker.start ttl cap) ((expand (Tracker.start ttl cap) calls).take n)) ∧
      (∀ id k k', Tracks (moves (Tracker.start ttl cap)
          ((expand (Tracker.start ttl cap) calls).take n)) id k →
        Tracks (moves (Tracker.start ttl cap) ((expand (Tracker.start ttl cap) calls).take (n + 1))) id k' →
        k = k') ∧
      ((∀ d, volume ((expand (Tracker.start ttl cap) calls).take n) d ≤ 2 ^ 53) →
        Balanced (moves (Tracker.start ttl cap) ((expand (Tracker.start ttl cap) calls).take n))) := by
  let start : Tracker F := Tracker.start ttl cap
  let steps := expand start calls
  have hApart : Apart (moves start (steps.take n)) := apart_moves (apart_start ttl cap) _
  refine ⟨separate_of_apart hApart, ?_, ?_⟩
  · intro id k k' hBefore hAfter
    change Tracks (moves start (steps.take (n + 1))) id k' at hAfter
    rcases Nat.lt_or_ge n steps.length with hIn | hOut
    · have hStep : moves start (steps.take (n + 1)) = move (moves start (steps.take n)) steps[n] := by
        rw [List.take_succ_eq_append_getElem hIn]
        exact List.foldl_append
      rw [hStep] at hAfter
      exact (apart_move hApart steps[n]).2 id k k' hBefore hAfter
    · rw [List.take_of_length_le (hOut.trans (Nat.le_succ n)), ← List.take_of_length_le hOut] at hAfter
      exact ((separate_of_apart hApart) id).2.2 k k' hBefore hAfter
  · intro hVolume
    have hFits : Fits start (volume (steps.take n)) := by
      intro d
      rw [held_start, zero_add]
      exact_mod_cast hVolume d
    have hExact := exact_moves (apart_start ttl cap) (exact_start ttl cap) (steps.take n) hFits
    apply balanced_of_exact hExact.1
    intro d
    exact (hExact.2 d).trans (hFits d)

-- A Run Above 53 Bits

/- A whole number of the grid. -/
def whole (n : ℤ) : IntGrid (2 ^ 53) := round (n : ℚ)

/- A reset's row of a connection that closed. -/
def closedRow (id : String) (total : ℕ) : Option (Event (IntGrid (2 ^ 53))) := some
    { type := .new
      id := some (pyStr id)
      connection := some
        { id := none
          user := some (pyStr "alice")
          inbound := some (pyStr "reality-in")
          closedAt := whole 5
          total := fun _ => some total
          other := false }
      delta := fun _ => 0
      closedAt := whole 0 }

/- Two connections closed under one key, 2^53 + 1 bytes. -/
def manyBytes : Call (IntGrid (2 ^ 53)) := .applyBatch
    (some ⟨true, [closedRow "a" (2 ^ 53), closedRow "b" 1]⟩) (whole 10)

/- The slot is rounded where the records are not. -/
theorem manyBytes_unbalanced : ¬ Balanced (moves (Tracker.start (whole 600) 1000)
      (expand (Tracker.start (whole 600) 1000) [manyBytes])) := by
  intro h
  have hSlot := h.1 (some (pyStr "alice"), some (pyStr "reality-in")) .uplink
  revert hSlot
  decide +kernel

end SingboxOps.Collector
