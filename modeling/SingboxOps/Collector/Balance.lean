import SingboxOps.Collector.Apart

/-
  The bookkeeping identity of the tracker.

  While the byte counts of a run stay below 2^53, every sum
  the tracker makes is exact: what is finalized under a key is
  what the banked and the forgotten records of the key hold.
-/

namespace SingboxOps.Collector

open PyFloat Tracker

variable {F : Type} [BoundedFloat F]

-- Whole Numbers

/- A whole number of bytes. -/
def Whole (x : F) : Prop := ∃ n : ℕ, toRat x = n

theorem Whole.nonneg {x : F} (h : Whole x) : 0 ≤ toRat x := by
  rcases h with ⟨n, hn⟩
  rw [hn]
  positivity

theorem toRat_round_nat {n : ℕ} (h : (n : ℚ) ≤ 2 ^ 53) : toRat (round (n : ℚ) : F) = n := by
  have hInt : |(n : ℤ)| ≤ 2 ^ 53 := by
    rw [Nat.abs_cast]
    exact_mod_cast h
  have hExact := BoundedFloat.exact (F := F) (n : ℤ) hInt
  simpa using hExact

theorem whole_zero : Whole (round 0 : F) := ⟨0, by rw [toRat_round_zero]; rfl⟩

theorem add_whole {x y : F} (hx : Whole x) (hy : Whole y) (h : toRat x + toRat y ≤ 2 ^ 53) :
    toRat (add x (toRat y)) = toRat x + toRat y ∧ Whole (add x (toRat y)) := by
  rcases hx with ⟨n, hn⟩
  rcases hy with ⟨m, hm⟩
  have hSum : toRat x + toRat y = ((n + m : ℕ) : ℚ) := by
    rw [hn, hm]
    push_cast
    rfl
  have hExact : toRat (add x (toRat y)) = ((n + m : ℕ) : ℚ) := by
    rw [add, hSum]
    apply toRat_round_nat
    rw [← hSum]
    exact h
  exact ⟨by rw [hExact, hSum], ⟨n + m, hExact⟩⟩

theorem cutOff_whole {x y : F} (hx : Whole x) (hy : Whole y) (hLe : toRat y ≤ toRat x)
    (h : toRat x ≤ 2 ^ 53) : toRat (cutOff x y) = toRat x - toRat y ∧ Whole (cutOff x y) := by
  rcases hx with ⟨n, hn⟩
  rcases hy with ⟨m, hm⟩
  rw [hn, hm] at hLe
  have hNat : m ≤ n := by exact_mod_cast hLe
  have hDiff : toRat x - toRat y = ((n - m : ℕ) : ℚ) := by rw [hn, hm, Nat.cast_sub hNat]
  have hExact : toRat (sub x (toRat y)) = ((n - m : ℕ) : ℚ) := by
    rw [sub, hDiff]
    apply toRat_round_nat
    rw [← hDiff]
    have hy := Whole.nonneg (⟨m, hm⟩ : Whole y)
    linarith
  unfold cutOff
  simp only
  split
  · exact ⟨by rw [hExact, hDiff], ⟨n - m, hExact⟩⟩
  · rename_i hNot
    rw [hExact, not_lt] at hNot
    have hZero : ((n - m : ℕ) : ℚ) = 0 := le_antisymm hNot (by positivity)
    refine ⟨?_, whole_zero⟩
    rw [hDiff, hZero]
    exact toRat_round_zero

omit [BoundedFloat F] in
theorem toRat_pyMax [PyFloat F] (x y : F) : toRat (pyMax x y) = max (toRat x) (toRat y) := by
  unfold pyMax
  split
  · rename_i h
    rw [max_eq_right h.le]
  · rename_i h
    rw [max_eq_left (not_lt.mp h)]

theorem pyMax_whole {x y : F} (hx : Whole x) (hy : Whole y) : Whole (pyMax x y) := by
  unfold pyMax
  split
  · exact hy
  · exact hx

theorem pyMax_le {x y : F} (hx : Whole x) (hy : Whole y) : toRat (pyMax x y) ≤ toRat x + toRat y := by
  have hxPos := hx.nonneg
  have hyPos := hy.nonneg
  rw [toRat_pyMax]
  apply max_le
  · linarith
  · linarith

-- Sums

variable {t : Tracker F} {cid : PyStr} {p : Key → Bool}
variable {d : Direction}

/- What a lifecycle weighs under some of the keys. -/
def weigh (p : Key → Bool) (key : Key) (amount : ℚ) : ℚ :=
  if p key then amount else 0

def connWeight (p : Key → Bool) (d : Direction) : PyStr → Conn F → ℚ :=
  fun _ c => weigh p c.key (toRat (c.total d))

def recordWeight (p : Key → Bool) (d : Direction) : PyStr → Record F → ℚ :=
  fun _ r => weigh p r.key (toRat (r.total d))

def slotWeight (p : Key → Bool) (d : Direction) : Key → (Direction → F) → ℚ :=
  fun key slot => weigh p key (toRat (slot d))

def activeSum (t : Tracker F) (p : Key → Bool) (d : Direction) : ℚ := Dict.total (connWeight p d) t.active

def bankedSum (t : Tracker F) (p : Key → Bool) (d : Direction) : ℚ :=
  Dict.total (recordWeight p d) t.bankedIds

def evictedSum (t : Tracker F) (p : Key → Bool) (d : Direction) : ℚ := Dict.total (recordWeight p d) t.evicted

def slotSum (t : Tracker F) (p : Key → Bool) (d : Direction) : ℚ := Dict.total (slotWeight p d) t.finalized

/- All traffic under some of the keys. -/
def held (t : Tracker F) (p : Key → Bool) (d : Direction) : ℚ :=
  activeSum t p d + bankedSum t p d + evictedSum t p d

/- Every key. -/
def everyKey : Key → Bool := fun _ => true

theorem weigh_le (key : Key) {amount : ℚ}
    (h : 0 ≤ amount) : 0 ≤ weigh p key amount ∧ weigh p key amount ≤ amount := by
  unfold weigh
  split
  · exact ⟨h, le_refl _⟩
  · exact ⟨le_refl _, h⟩

@[simp] theorem weigh_everyKey (key : Key) (amount : ℚ) : weigh everyKey key amount = amount :=
  rfl

/-
  Whole counts everywhere, and what is finalized is what the
  records hold.
-/
structure Exact (t : Tracker F) : Prop where
  nodups : Nodups t
  active : ∀ e ∈ t.active, ∀ d, Whole (e.2.total d)
  banked : ∀ e ∈ t.bankedIds, ∀ d, Whole (e.2.total d)
  evicted : ∀ e ∈ t.evicted, ∀ d, Whole (e.2.total d)
  slots : ∀ e ∈ t.finalized, ∀ d, Whole (e.2 d)
  balance : ∀ p d, slotSum t p d = bankedSum t p d + evictedSum t p d

theorem Exact.sums_nonneg (h : Exact t) (p : Key → Bool)
    (d : Direction) : 0 ≤ activeSum t p d ∧ 0 ≤ bankedSum t p d ∧ 0 ≤ evictedSum t p d := by
  refine ⟨?_, ?_, ?_⟩
  · apply Dict.total_nonneg
    intro e he
    exact (weigh_le _ (h.active e he d).nonneg).1
  · apply Dict.total_nonneg
    intro e he
    exact (weigh_le _ (h.banked e he d).nonneg).1
  · apply Dict.total_nonneg
    intro e he
    exact (weigh_le _ (h.evicted e he d).nonneg).1

theorem Exact.slot (h : Exact t) (key : Key) (d : Direction) : Whole (t.slot key d) := by
  unfold Tracker.slot
  cases hGet : t.finalized.get key with
  | none => exact whole_zero
  | some s => exact h.slots _ (Dict.mem_of_get hGet) d

theorem slotSum_key (h : t.finalized.keys.Nodup) (key : Key)
    (d : Direction) : slotSum t (fun k => k == key) d = toRat (t.slot key d) := by
  unfold slotSum Tracker.slot
  generalize t.finalized = m at h ⊢
  induction m with
  | nil => exact toRat_round_zero.symm
  | cons e rest ih =>
    rcases e with ⟨k, s⟩
    have hSplit := List.nodup_cons.mp h
    have hRest := ih hSplit.2
    simp only [Dict.total, List.map_cons, List.sum_cons] at hRest ⊢
    rw [hRest, Dict.get]
    by_cases hKey : k = key
    · have hNone : Dict.get rest key = none := by
        rw [Dict.get_eq_none_iff, ← hKey]
        exact hSplit.1
      rw [hNone, if_pos hKey]
      simp [slotWeight, weigh, hKey, toRat_round_zero]
    · rw [if_neg hKey]
      simp [slotWeight, weigh, hKey]

theorem Exact.slot_le_held (h : Exact t) (key : Key)
    (d : Direction) : toRat (t.slot key d) ≤ held t everyKey d := by
  have hOne := slotSum_key h.nodups.finalized key d
  have hAll : slotSum t (fun k => k == key) d ≤
      slotSum t everyKey d := by
    apply Dict.total_le_total
    intro e he
    exact (weigh_le _ (h.slots e he d).nonneg).2
  have hBalance := h.balance everyKey d
  have hActive := (h.sums_nonneg everyKey d).1
  unfold held
  linarith

-- Banking

/- Setting the slot of a key moves the sum by its difference. -/
theorem slotSum_set (h : Exact t) {key : Key} {volume : Direction → F}
    (hVolume : ∀ d, Whole (volume d)) : (∀ p d, Dict.total (slotWeight p d) (t.finalized.set key volume) =
        slotSum t p d + weigh p key (toRat (volume d) - toRat (t.slot key d))) ∧
      ∀ e ∈ t.finalized.set key volume, ∀ d, Whole (e.2 d) := by
  constructor
  · intro p d
    unfold slotSum
    cases hGet : t.finalized.get key with
    | none =>
      have hZero : toRat (t.slot key d) = 0 := by
        unfold Tracker.slot
        rw [hGet]
        exact toRat_round_zero
      rw [Dict.total_set_new hGet, hZero, sub_zero]
      unfold slotWeight
      ring
    | some s =>
      have hSlot : t.slot key = s := by
        unfold Tracker.slot
        rw [hGet]
        rfl
      rw [Dict.total_set_old hGet, hSlot]
      unfold slotWeight weigh
      split
      · ring
      · ring
  · intro e he d
    have hGet := Dict.get_of_mem (Dict.nodup_set h.nodups.finalized _ _) he
    rw [Dict.get_set] at hGet
    split at hGet
    · rw [← Option.some.inj hGet]
      exact hVolume d
    · exact h.slots _ (Dict.mem_of_get hGet) d

theorem slotSum_bank (h : Exact t) {key : Key} {total : Direction → F} (hTotal : ∀ d, Whole (total d))
    (hFits : ∀ d, toRat (t.slot key d) + toRat (total d) ≤ 2 ^ 53) : (∀ p d,
      slotSum (t.bank key total) p d = slotSum t p d + weigh p key (toRat (total d))) ∧
      ∀ e ∈ (t.bank key total).finalized, ∀ d, Whole (e.2 d) := by
  have hAdd := fun d => add_whole (h.slot key d) (hTotal d) (hFits d)
  have hSet := @slotSum_set F _ t h key _ (fun d => (hAdd d).2)
  refine ⟨?_, hSet.2⟩
  intro p d
  refine (hSet.1 p d).trans ?_
  rw [(hAdd d).1, add_sub_cancel_left]

theorem slotSum_unbank (h : Exact t) {key : Key} {total : Direction → F} (hTotal : ∀ d, Whole (total d))
    (hCovered : ∀ d, toRat (total d) ≤ toRat (t.slot key d))
    (hFits : ∀ d, toRat (t.slot key d) ≤ 2 ^ 53) : (∀ p d,
      slotSum (t.unbank key total) p d = slotSum t p d - weigh p key (toRat (total d))) ∧
      ∀ e ∈ (t.unbank key total).finalized, ∀ d, Whole (e.2 d) := by
  have hCut := fun d => cutOff_whole (h.slot key d) (hTotal d) (hCovered d) (hFits d)
  have hSet := @slotSum_set F _ t h key _ (fun d => (hCut d).2)
  refine ⟨?_, hSet.2⟩
  intro p d
  refine (hSet.1 p d).trans ?_
  rw [(hCut d).1]
  unfold weigh
  split
  · ring
  · ring

-- Parts of a Move

omit [BoundedFloat F] in
theorem records_recordBanked (hNew : t.bankedIds.get cid = none)
    (r : Record F) : (t.recordBanked cid r).evicted ++ (t.recordBanked cid r).bankedIds =
      t.evicted ++ t.bankedIds ++ [(cid, r)] := by
  unfold recordBanked
  simp only
  rw [Dict.pop_of_get_none hNew, List.append_assoc, List.append_assoc, List.take_append_drop]

theorem exact_book (h : Exact t)
    (hNew : t.bankedIds.get cid = none) {r : Record F} (hTotal : ∀ d, Whole (r.total d))
    (hFits : ∀ d, held t everyKey d + toRat (r.total d) ≤ 2 ^ 53) :
    Exact (t.book cid r) ∧ ∀ p d,
        held (t.book cid r) p d = held t p d + weigh p r.key (toRat (r.total d)) := by
  have hSlot := fun d => h.slot_le_held r.key d
  have hBank := slotSum_bank h hTotal (fun d => (add_le_add_left (hSlot d) _).trans (hFits d))
  have hRecords := records_recordBanked (t := t.bank r.key r.total) hNew r
  change (t.book cid r).evicted ++ (t.book cid r).bankedIds =
    t.evicted ++ t.bankedIds ++ [(cid, r)] at hRecords
  have hSums : ∀ p d, bankedSum (t.book cid r) p d + evictedSum (t.book cid r) p d =
          bankedSum t p d + evictedSum t p d + weigh p r.key (toRat (r.total d)) := by
    intro p d
    have hTotalEq := congrArg (Dict.total (recordWeight p d)) hRecords
    simp only [Dict.total_append] at hTotalEq
    have hOne : Dict.total (recordWeight p d) [(cid, r)] = weigh p r.key (toRat (r.total d)) := by
      simp [Dict.total, recordWeight]
    rw [hOne] at hTotalEq
    unfold bankedSum evictedSum
    linarith
  have hWhole : ∀ e ∈ (t.book cid r).evicted ++ (t.book cid r).bankedIds, ∀ d, Whole (e.2.total d) := by
    intro e he d
    rw [hRecords] at he
    rcases List.mem_append.mp he with hOld | hNewest
    · rcases List.mem_append.mp hOld with hGone | hKept
      · exact h.evicted e hGone d
      · exact h.banked e hKept d
    · rw [List.mem_singleton.mp hNewest]
      exact hTotal d
  constructor
  · exact
      { nodups := (focus_book r).nodups h.nodups
        active := h.active
        banked := fun e he => hWhole e (List.mem_append_right _ he)
        evicted := fun e he => hWhole e (List.mem_append_left _ he)
        slots := hBank.2
        balance := by
          intro p d
          rw [hSums p d, ← h.balance p d]
          exact hBank.1 p d }
  · intro p d
    have hAll := hSums p d
    unfold held
    change activeSum t p d + _ + _ = _
    linarith

theorem record_le_slot (h : Exact t) {r : Record F} (hGet : t.bankedIds.get cid = some r)
    (d : Direction) : toRat (r.total d) ≤ toRat (t.slot r.key d) := by
  rw [← slotSum_key h.nodups.finalized r.key d, h.balance]
  have hOne : recordWeight (fun k => k == r.key) d cid r ≤ bankedSum t (fun k => k == r.key) d := by
    apply Dict.weight_le_total _ hGet
    intro e he
    exact (weigh_le _ (h.banked e he d).nonneg).1
  have hEvicted := (h.sums_nonneg (fun k => k == r.key) d).2.2
  simp only [recordWeight, weigh, beq_self_eq_true, if_true] at hOne
  linarith

theorem exact_release (h : Exact t) {r : Record F} (hGet : t.bankedIds.get cid = some r)
    (hFits : ∀ d, held t everyKey d ≤ 2 ^ 53) :
    Exact (t.release cid r) ∧ ∀ p d,
        held (t.release cid r) p d = held t p d - weigh p r.key (toRat (r.total d)) := by
  have hTotal := h.banked _ (Dict.mem_of_get hGet)
  have hUnbank := slotSum_unbank h hTotal
    (fun d => record_le_slot h hGet d) (fun d => (h.slot_le_held r.key d).trans (hFits d))
  have hBanked : ∀ p d, bankedSum (t.release cid r) p d =
          bankedSum t p d - weigh p r.key (toRat (r.total d)) :=
    fun p d => Dict.total_pop h.nodups.banked hGet
  constructor
  · exact
      { nodups := (show Focus cid t (t.release cid r) from
          focus_release r).nodups h.nodups
        active := h.active
        banked := fun e he => h.banked e (List.mem_of_mem_filter he)
        evicted := h.evicted
        slots := hUnbank.2
        balance := by
          intro p d
          have hBalance := h.balance p d
          rw [hBanked p d]
          change slotSum (t.unbank r.key r.total) p d = _ + evictedSum t p d
          rw [hUnbank.1 p d]
          linarith }
  · intro p d
    unfold held
    rw [hBanked p d]
    change activeSum t p d + _ + evictedSum t p d = _
    ring

theorem exact_newActive (h : Exact t) (hNew : t.active.get cid = none) {conn : Conn F}
    (hTotal : ∀ d, Whole (conn.total d)) :
    Exact { t with active := t.active.set cid conn } ∧
      ∀ p d, held { t with active := t.active.set cid conn } p d =
          held t p d + weigh p conn.key (toRat (conn.total d)) := by
  constructor
  · refine ⟨(focus_setActive conn).nodups h.nodups, ?_, h.banked, h.evicted, h.slots, h.balance⟩
    intro e he
    change e ∈ t.active.set cid conn at he
    rw [Dict.set_of_get_none hNew] at he
    rcases List.mem_append.mp he with hOld | hOne
    · exact h.active e hOld
    · rw [List.mem_singleton.mp hOne]
      exact hTotal
  · intro p d
    have hSum : activeSum { t with active := t.active.set cid conn } p d =
          activeSum t p d + weigh p conn.key (toRat (conn.total d)) :=
      Dict.total_set_new hNew conn
    unfold held
    rw [hSum]
    change _ + bankedSum t p d + evictedSum t p d = _
    ring

theorem exact_setActive (h : Exact t) {old conn : Conn F} (hOld : t.active.get cid = some old)
    (hTotal : ∀ d, Whole (conn.total d)) :
    Exact { t with active := t.active.set cid conn } ∧
      ∀ p d, held { t with active := t.active.set cid conn } p d =
          held t p d - weigh p old.key (toRat (old.total d)) + weigh p conn.key (toRat (conn.total d)) := by
  constructor
  · refine ⟨(focus_setActive conn).nodups h.nodups, ?_, h.banked, h.evicted, h.slots, h.balance⟩
    intro e he d
    have hGet := Dict.get_of_mem (Dict.nodup_set h.nodups.active _ _) he
    rw [Dict.get_set] at hGet
    split at hGet
    · rw [← Option.some.inj hGet]
      exact hTotal d
    · exact h.active _ (Dict.mem_of_get hGet) d
  · intro p d
    have hSum : activeSum { t with active := t.active.set cid conn } p d =
          activeSum t p d - weigh p old.key (toRat (old.total d)) + weigh p conn.key (toRat (conn.total d)) :=
      Dict.total_set_old hOld conn
    unfold held
    rw [hSum]
    change _ + bankedSum t p d + evictedSum t p d = _
    ring

theorem exact_popActive (h : Exact t) {old : Conn F} (hOld : t.active.get cid = some old)
    (count : ℕ) : Exact { t with
        active := t.active.pop cid
        abandonedOnReset := count } ∧
      ∀ p d,
        held { t with
            active := t.active.pop cid
            abandonedOnReset := count } p d =
          held t p d - weigh p old.key (toRat (old.total d)) := by
  constructor
  · refine ⟨(focus_popActive count).nodups h.nodups, ?_, h.banked, h.evicted, h.slots, h.balance⟩
    intro e he
    exact h.active e (List.mem_of_mem_filter he)
  · intro p d
    have hSum :
        activeSum { t with
            active := t.active.pop cid
            abandonedOnReset := count } p d =
          activeSum t p d - weigh p old.key (toRat (old.total d)) :=
      Dict.total_pop h.nodups.active hOld
    unfold held
    rw [hSum]
    change _ + bankedSum t p d + evictedSum t p d = _
    ring

theorem exact_of_same {u : Tracker F} (h : Exact t) (hNodups : Nodups u) (hActive : u.active = t.active)
    (hFinalized : u.finalized = t.finalized) (hBanked : u.bankedIds = t.bankedIds)
    (hEvicted : u.evicted = t.evicted) : Exact u ∧ ∀ p d, held u p d = held t p d := by
  constructor
  · refine ⟨hNodups, ?_, ?_, ?_, ?_, ?_⟩
    · rw [hActive]
      exact h.active
    · rw [hBanked]
      exact h.banked
    · rw [hEvicted]
      exact h.evicted
    · rw [hFinalized]
      exact h.slots
    · intro p d
      rw [slotSum, bankedSum, evictedSum, hFinalized, hBanked, hEvicted]
      exact h.balance p d
  · intro p d
    unfold held activeSum bankedSum evictedSum
    rw [hActive, hBanked, hEvicted]

/- Closing a lifecycle that is neither active nor banked. -/
theorem exact_finalize (h : Exact t)
    (hNew : t.bankedIds.get cid = none) {conn : Conn F} (hTotal : ∀ d, Whole (conn.total d))
    (hFits : ∀ d, held t everyKey d + toRat (conn.total d) ≤ 2 ^ 53)
    (now closedAt : F) :
    Exact (t.finalize cid conn now closedAt) ∧ ∀ p d, held (t.finalize cid conn now closedAt) p d =
          held t p d + weigh p conn.key (toRat (conn.total d)) := by
  let r : Record F := ⟨conn.key, conn.total, .closed⟩
  have hBook := exact_book (r := r) h hNew hTotal hFits
  have hFocus : Focus cid t (t.finalize cid conn now closedAt) := focus_finalize conn now closedAt
  have hSame := exact_of_same hBook.1 (hFocus.nodups h.nodups)
    rfl rfl rfl rfl
  refine ⟨hSame.1, ?_⟩
  intro p d
  rw [hSame.2 p d]
  exact hBook.2 p d

end SingboxOps.Collector
