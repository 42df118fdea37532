import SingboxOps.Collector.Accounting
import Mathlib.Data.List.Sort

/-
  The totals a snapshot displays.

  A displayed total is all traffic held under its keys, as
  long as the bytes fit into 53 bits.  It goes back only where
  an abandoned lifecycle is closed with less than the bound
  banked for it.
-/

namespace SingboxOps.Collector

open PyFloat Tracker

variable {F : Type} [BoundedFloat F] {t : Tracker F}

-- Sums of Whole Numbers

theorem sum_nonneg_of_whole {xs : List F} (h : ∀ x ∈ xs, Whole x) : 0 ≤ (xs.map toRat).sum := by
  apply List.sum_nonneg
  intro q hq
  rcases List.mem_map.mp hq with ⟨x, hx, rfl⟩
  exact (h x hx).nonneg

theorem foldl_add_whole (xs : List F) {a : F} (ha : Whole a) (h : ∀ x ∈ xs, Whole x)
    (hFits : toRat a + (xs.map toRat).sum ≤ 2 ^ 53) :
    toRat (xs.foldl (fun a x => add a (toRat x)) a) = toRat a + (xs.map toRat).sum ∧
      Whole (xs.foldl (fun a x => add a (toRat x)) a) := by
  induction xs generalizing a with
  | nil =>
    simp only [List.map_nil, List.sum_nil, add_zero]
    exact ⟨rfl, ha⟩
  | cons x rest ih =>
    have hRest : ∀ y ∈ rest, Whole y := fun y hy => h y (List.mem_cons_of_mem _ hy)
    have hPos := sum_nonneg_of_whole hRest
    rw [List.map_cons, List.sum_cons] at hFits
    have hAdd := add_whole ha (h x (List.mem_cons_self ..)) (by linarith)
    have hStep := ih hAdd.2 hRest (by rw [hAdd.1]; linarith)
    rw [List.foldl_cons]
    refine ⟨?_, hStep.2⟩
    rw [hStep.1, hAdd.1, List.map_cons, List.sum_cons, add_assoc]

theorem floatSum_whole {xs : List F} (h : ∀ x ∈ xs, Whole x) (hFits : (xs.map toRat).sum ≤ 2 ^ 53) :
    toRat (floatSum xs) = (xs.map toRat).sum ∧ Whole (floatSum xs) := by
  have hZero : toRat (round 0 : F) = 0 := toRat_round_zero
  have hSum := foldl_add_whole xs (whole_zero (F := F)) h (by rw [hZero, zero_add]; exact hFits)
  rw [hZero, zero_add] at hSum
  exact hSum

theorem roundThousandths_whole {x : F} (hx : Whole x)
    (hFits : toRat x ≤ 2 ^ 53) : toRat (roundThousandths x) = toRat x := by
  rcases hx with ⟨n, hn⟩
  rw [hn] at hFits ⊢
  have hRound : roundHalfEven ((n : ℚ) * 1000) = ((n * 1000 : ℕ) : ℤ) := by
    have hCast : (n : ℚ) * 1000 = (((n * 1000 : ℕ) : ℤ) : ℚ) := by
      push_cast
      rfl
    rw [hCast, roundHalfEven]
    simp only [Int.floor_intCast, sub_self]
    rw [if_pos (by norm_num)]
  unfold roundThousandths
  rw [hn, hRound]
  have hBack : (((n * 1000 : ℕ) : ℤ) : ℚ) / 1000 = (n : ℚ) := by
    push_cast
    field_simp
  rw [hBack]
  exact toRat_round_nat hFits

-- Totals of Keys

theorem sum_activeTotals (p : Key → Bool)
    (d : Direction) : ((activeTotals t p d).map toRat).sum = activeSum t p d := by
  unfold activeTotals activeSum Dict.total
  generalize t.active = m
  induction m with
  | nil => rfl
  | cons e rest ih =>
    rw [List.map_cons, List.sum_cons, ← ih]
    cases hp : p e.2.key with
    | true => simp [connWeight, weigh, hp]
    | false => simp [connWeight, weigh, hp]

theorem whole_activeTotals (h : Exact t) (p : Key → Bool)
    (d : Direction) : ∀ x ∈ activeTotals t p d, Whole x := by
  intro x hx
  rcases List.mem_map.mp hx with ⟨c, hc, rfl⟩
  exact h.active c (List.mem_of_mem_filter hc) d

theorem held_le_every (h : Exact t) (p : Key → Bool) (d : Direction) : held t p d ≤ held t everyKey d := by
  have hActive : activeSum t p d ≤ activeSum t everyKey d :=
    Dict.total_le_total (fun e he => (weigh_le e.2.key (h.active e he d).nonneg).2)
  have hBanked : bankedSum t p d ≤ bankedSum t everyKey d :=
    Dict.total_le_total (fun e he => (weigh_le e.2.key (h.banked e he d).nonneg).2)
  have hEvicted : evictedSum t p d ≤ evictedSum t everyKey d :=
    Dict.total_le_total (fun e he => (weigh_le e.2.key (h.evicted e he d).nonneg).2)
  unfold held
  linarith

theorem held_eq (h : Exact t) (p : Key → Bool)
    (d : Direction) : held t p d = activeSum t p d + slotSum t p d := by
  rw [held, h.balance]
  ring

theorem displayed_whole {x y : F} (hx : Whole x) (hy : Whole y) (h : toRat x + toRat y ≤ 2 ^ 53) :
    toRat (roundThousandths (add x (toRat y))) = toRat x + toRat y := by
  have hAdd := add_whole hx hy h
  rw [roundThousandths_whole hAdd.2 (by rw [hAdd.1]; exact h), hAdd.1]

theorem activeSum_displayed (h : Exact t) (hFits : ∀ d, held t everyKey d ≤ 2 ^ 53) (p : Key → Bool)
    (d : Direction) :
    toRat (floatSum (activeTotals t p d)) = activeSum t p d ∧ Whole (floatSum (activeTotals t p d)) := by
  have hParts := h.sums_nonneg p d
  have hAll := (held_le_every h p d).trans (hFits d)
  have hSum := floatSum_whole (whole_activeTotals h p d) (by
    rw [sum_activeTotals]
    unfold held at hAll
    linarith)
  rw [sum_activeTotals] at hSum
  exact hSum

theorem protocolTotal_held (h : Exact t) (hFits : ∀ d, held t everyKey d ≤ 2 ^ 53) (key : Key)
    (d : Direction) : toRat (protocolTotal t key d) = held t (fun k => k == key) d := by
  have hActive := activeSum_displayed h hFits (fun k => k == key) d
  have hSlot := slotSum_key h.nodups.finalized key d
  have hAll := (held_le_every h (fun k => k == key) d).trans (hFits d)
  rw [held_eq h] at hAll ⊢
  rw [hSlot, ← hActive.1] at hAll ⊢
  exact displayed_whole hActive.2 (h.slot key d) hAll

-- Totals of a Device

theorem mem_protocolKeys {user : Option PyStr} {k : Key} : k ∈ protocolKeys t user ↔
      k.1 = user ∧ k ∈ t.active.map (fun c => c.2.key) ++
          t.closed.map (fun c => c.2.key) ++ t.finalized.keys := by
  unfold protocolKeys
  simp only [List.mem_map, List.mem_insertionSort, List.mem_dedup, List.mem_filter, beq_iff_eq]
  constructor
  · rintro ⟨inbound, ⟨k', ⟨hIn, hUser⟩, rfl⟩, rfl⟩
    rw [← hUser]
    exact ⟨rfl, hIn⟩
  · rintro ⟨rfl, hIn⟩
    exact ⟨k.2, ⟨k, ⟨hIn, rfl⟩, rfl⟩, rfl⟩

theorem nodup_protocolKeys (user : Option PyStr) : (protocolKeys t user).Nodup := by
  unfold protocolKeys
  apply List.Nodup.map
  · intro a b hab
    exact (Prod.mk.inj hab).2
  · exact (List.perm_insertionSort _ _).nodup_iff.mpr (List.nodup_dedup _)

theorem sum_weigh {keys : List Key} (h : keys.Nodup) (key : Key) (amount : ℚ) : (keys.map (fun k =>
      weigh (fun k' => k' == k) key amount)).sum = if key ∈ keys then amount else 0 := by
  induction keys with
  | nil => rfl
  | cons k rest ih =>
    have hSplit := List.nodup_cons.mp h
    rw [List.map_cons, List.sum_cons, ih hSplit.2]
    by_cases hKey : key = k
    · subst hKey
      rw [if_neg hSplit.1, if_pos (List.mem_cons_self ..)]
      simp [weigh]
    · have hIn : key ∈ k :: rest ↔ key ∈ rest := by
        simp [hKey]
      simp only [hIn]
      simp [weigh, hKey]

theorem sum_slots (h : Exact t) (user : Option PyStr) (d : Direction) : ((protocolKeys t user).map
      (fun key => toRat (t.slot key d))).sum = slotSum t (fun k => k.1 == user) d := by
  have hNodup := nodup_protocolKeys (t := t) user
  have hListed : ∀ e ∈ t.finalized, e.1 ∈ protocolKeys t user ↔ e.1.1 = user := by
    intro e he
    rw [mem_protocolKeys]
    refine ⟨fun hIn => hIn.1, fun hUser => ⟨hUser, ?_⟩⟩
    exact List.mem_append_right _ (List.mem_map_of_mem he)
  simp only [← slotSum_key h.nodups.finalized]
  unfold slotSum
  generalize t.finalized = m at hListed
  generalize protocolKeys t user = keys at hNodup hListed
  induction m with
  | nil => simp [Dict.total]
  | cons e rest ih =>
    have hRest := ih (fun e' he' => hListed e' (List.mem_cons_of_mem _ he'))
    have hHere := hListed e (List.mem_cons_self ..)
    simp only [Dict.total, List.map_cons, List.sum_cons] at hRest ⊢
    rw [List.sum_map_add, hRest]
    unfold slotWeight
    rw [sum_weigh hNodup]
    simp only [hHere, weigh, beq_iff_eq]

theorem deviceTotal_held (h : Exact t) (hFits : ∀ d, held t everyKey d ≤ 2 ^ 53) (user : Option PyStr)
    (d : Direction) : toRat (deviceTotal t user d) = held t (fun k => k.1 == user) d := by
  have hActive := activeSum_displayed h hFits (fun k => k.1 == user) d
  have hAll := (held_le_every h (fun k => k.1 == user) d).trans (hFits d)
  have hPos := hActive.2.nonneg
  rw [held_eq h, ← hActive.1, ← sum_slots h user d] at hAll ⊢
  have hSlots := @floatSum_whole F _ ((protocolKeys t user).map (fun key => t.slot key d)) (fun x hx => by
      rcases List.mem_map.mp hx with ⟨key, _, rfl⟩
      exact h.slot key d)
    (by
      rw [List.map_map]
      change ((protocolKeys t user).map (fun key => toRat (t.slot key d))).sum ≤ _
      linarith)
  rw [List.map_map] at hSlots
  change toRat (floatSum _) = ((protocolKeys t user).map (fun key => toRat (t.slot key d))).sum ∧ _ at hSlots
  rw [← hSlots.1] at hAll ⊢
  exact displayed_whole hActive.2 hSlots.2 hAll

-- Runs

theorem expand_append (t : Tracker F) (calls calls' : List (Call F)) :
    expand t (calls ++ calls') = expand t calls ++ expand (calls.foldl applyCall t) calls' := by
  induction calls generalizing t with
  | nil => rfl
  | cons c rest ih =>
    rw [List.cons_append, expand, expand, ih, List.foldl_cons, List.append_assoc]

theorem allCover_append (t : Tracker F) (ms ms' : List (Move F)) :
    AllCover t (ms ++ ms') ↔ AllCover t ms ∧ AllCover (moves t ms) ms' := by
  induction ms generalizing t with
  | nil => exact ⟨fun h => ⟨True.intro, h⟩, fun h => h.2⟩
  | cons m rest ih =>
    rw [List.cons_append, AllCover, AllCover, ih, and_assoc]
    rfl

theorem exact_calls (ttl : F) (cap : ℕ) {calls : List (Call F)}
    (hVolume : ∀ d, volume (expand (Tracker.start ttl cap) calls) d ≤ 2 ^ 53) :
    Exact (calls.foldl applyCall (Tracker.start ttl cap)) ∧
      ∀ d, held (calls.foldl applyCall (Tracker.start ttl cap))
        everyKey d ≤ (volume (expand (Tracker.start ttl cap) calls) d : ℚ) := by
  have hFits : Fits (Tracker.start ttl cap) (volume (expand (Tracker.start ttl cap) calls)) := by
    intro d
    rw [held_start, zero_add]
    exact_mod_cast hVolume d
  have hExact := exact_moves (apart_start ttl cap) (exact_start ttl cap) _ hFits
  rw [moves_expand] at hExact
  refine ⟨hExact.1, ?_⟩
  intro d
  have hMass := hExact.2 d
  rw [held_start, zero_add] at hMass
  exact hMass

/- No later call takes away while the moves cover. -/
theorem held_calls (ttl : F) (cap : ℕ) {before after : List (Call F)} (hCover :
      AllCover (Tracker.start ttl cap) (expand (Tracker.start ttl cap) (before ++ after)))
    (hVolume : ∀ d, volume (expand (Tracker.start ttl cap) (before ++ after)) d ≤ 2 ^ 53)
    (p : Key → Bool)
    (d : Direction) :
    held (before.foldl applyCall (Tracker.start ttl cap)) p d ≤
      held ((before ++ after).foldl applyCall (Tracker.start ttl cap)) p d := by
  rw [expand_append] at hCover hVolume
  rw [allCover_append, moves_expand] at hCover
  have hFirst := @exact_calls F _ ttl cap before (by
    intro d
    have hAll := hVolume d
    rw [volume_append] at hAll
    exact (Nat.le_add_right _ _).trans hAll)
  have hApart := apart_moves (apart_start ttl cap) (expand (Tracker.start ttl cap) before)
  rw [moves_expand] at hApart
  have hRest : Fits (before.foldl applyCall (Tracker.start ttl cap)) (volume (expand
          (before.foldl applyCall (Tracker.start ttl cap)) after)) := by
    intro d
    have hMass := hFirst.2 d
    have hAll := hVolume d
    rw [volume_append] at hAll
    have hCast : ((_ : ℕ) : ℚ) ≤ ((2 ^ 53 : ℕ) : ℚ) := Nat.cast_le.mpr hAll
    push_cast at hCast
    linarith
  have hGrows := held_moves hApart hFirst.1 _ hRest hCover.2 p d
  rw [moves_expand, ← List.foldl_append] at hGrows
  exact hGrows

/- What is displayed after one sequence of calls or another. -/
def NoLess (t u : Tracker F) : Prop := (∀ key d,
    toRat (protocolTotal t key d) ≤ toRat (protocolTotal u key d)) ∧
    ∀ user d, toRat (deviceTotal t user d) ≤ toRat (deviceTotal u user d)

theorem noLess_of_held {u : Tracker F} (h : Exact t) (h' : Exact u) (hFits : ∀ d, held t everyKey d ≤ 2 ^ 53)
    (hFits' : ∀ d, held u everyKey d ≤ 2 ^ 53)
    (hGrows : ∀ p d, held t p d ≤ held u p d) : NoLess t u := by
  constructor
  · intro key d
    rw [protocolTotal_held h hFits, protocolTotal_held h' hFits']
    exact hGrows _ d
  · intro user d
    rw [deviceTotal_held h hFits, deviceTotal_held h' hFits']
    exact hGrows _ d

/-
  The displayed totals never go backwards in a run that closes
  no abandoned lifecycle with less than the bound banked for
  it, as long as the bytes it names fit into 53 bits.
-/
theorem displayed_mono (ttl : F) (cap : ℕ) (calls : List (Call F)) (hCover :
      AllCover (Tracker.start ttl cap) (expand (Tracker.start ttl cap) calls))
    (hVolume : ∀ d, volume (expand (Tracker.start ttl cap) calls) d ≤ 2 ^ 53)
    {i j : ℕ}
    (hij : i ≤ j) : NoLess ((calls.take i).foldl applyCall (Tracker.start ttl cap))
      ((calls.take j).foldl applyCall (Tracker.start ttl cap)) := by
  have hTake : (calls.take i) ++ (calls.take j).drop i =
      calls.take j := by
    have hFirst : (calls.take j).take i = calls.take i := by
      rw [List.take_take, min_eq_left hij]
    rw [← hFirst]
    exact List.take_append_drop i _
  -- the condition on the run holds of its prefixes
  have hPrefix : ∀ n, AllCover (Tracker.start ttl cap) (expand (Tracker.start ttl cap) (calls.take n)) ∧
        ∀ d, volume (expand (Tracker.start ttl cap) (calls.take n)) d ≤ 2 ^ 53 := by
    intro n
    rw [← List.take_append_drop n calls, expand_append]
      at hCover hVolume
    refine ⟨((allCover_append _ _ _).mp hCover).1, ?_⟩
    intro d
    have hAll := hVolume d
    rw [volume_append] at hAll
    exact (Nat.le_add_right _ _).trans hAll
  have hFits : ∀ n d, held ((calls.take n).foldl applyCall (Tracker.start ttl cap)) everyKey d ≤ 2 ^ 53 := by
    intro n d
    refine ((exact_calls ttl cap (hPrefix n).2).2 d).trans ?_
    exact_mod_cast (hPrefix n).2 d
  apply noLess_of_held (exact_calls ttl cap (hPrefix i).2).1
    (exact_calls ttl cap (hPrefix j).2).1 (hFits i) (hFits j)
  have hLater := hPrefix j
  rw [← hTake] at hLater ⊢
  exact held_calls ttl cap hLater.1 hLater.2

-- A Bound and Its Replacement

/- An active connection of 100 bytes. -/
def announced : Option (Event (IntGrid (2 ^ 53))) := some
    { type := .new
      id := some (pyStr "a")
      connection := some
        { id := none
          user := some (pyStr "alice")
          inbound := some (pyStr "reality-in")
          closedAt := whole 0
          total := fun _ => some 100
          other := false }
      delta := fun _ => 0
      closedAt := whole 0 }

/- It is announced, a reset drops it, and it closes. -/
def droppedThenClosed (total : ℕ) : List (Call (IntGrid (2 ^ 53))) :=
  [.applyBatch (some ⟨false, [announced]⟩) (whole 1), .applyBatch (some ⟨true, []⟩) (whole 2),
    .applyBatch (some ⟨true, [closedRow "a" total]⟩) (whole 10)]

/- With 150 bytes its lower bound is covered. -/
theorem displayed_mono_droppedThenClosed : NoLess
      (((droppedThenClosed 150).take 2).foldl applyCall (Tracker.start (whole 600) 1000))
      (((droppedThenClosed 150).take 3).foldl applyCall (Tracker.start (whole 600) 1000)) :=
  displayed_mono (whole 600) 1000 (droppedThenClosed 150) (by decide +kernel)
    (fun d => by
      cases d with
      | uplink => decide +kernel
      | downlink => decide +kernel)
    (by decide)

/- With 50 the displayed total goes back from 100. -/
theorem droppedThenClosed_less : ¬ NoLess (((droppedThenClosed 50).take 2).foldl applyCall
        (Tracker.start (whole 600) 1000))
      (((droppedThenClosed 50).take 3).foldl applyCall (Tracker.start (whole 600) 1000)) := by
  intro h
  have hKey := h.1 (some (pyStr "alice"), some (pyStr "reality-in")) .uplink
  revert hKey
  decide +kernel

end SingboxOps.Collector
