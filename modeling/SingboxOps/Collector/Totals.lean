import SingboxOps.Collector.Balance

/-
  What the moves of a run do to the totals.

  A move adds at most the bytes its event names, and it takes
  nothing away unless it closes an abandoned lifecycle with
  less than its recorded lower bound.
-/

namespace SingboxOps.Collector

open PyFloat Tracker

-- Volumes and Conditions

section Volumes

variable {F : Type} [PyFloat F]

/- The bytes an event names in a direction. -/
def Fields.volume (f : Fields F) (d : Direction) : ℕ := (f.total d).getD 0

def eventVolume (e : Option (Event F)) (d : Direction) : ℕ := match e with
  | none => 0
  | some e => e.fields.volume d + e.delta d

def Move.volume (m : Move F) (d : Direction) : ℕ := match m with
  | .event e _ => eventVolume e d
  | .row e _ => eventVolume e d
  | _ => 0

/- The bytes some moves name. -/
def volume (ms : List (Move F)) (d : Direction) : ℕ := (ms.map (fun m => m.volume d)).sum

/-
  If a row closes an abandoned lifecycle of the id, it names
  at least the totals banked as its lower bound.
-/
def CoversBound (t : Tracker F) (cid : PyStr) (f : Fields F) : Prop := ∀ r, t.bankedIds.get cid = some r →
    r.state = .abandoned → r.key = f.rowIdentity → ∀ d, toRat (r.total d) ≤ (f.volume d : ℚ)

/- The event closes no abandoned lifecycle with less. -/
def Covers (t : Tracker F) (m : Move F) : Prop := match m with
  | .row e _ =>
    ∀ cid f, rowOf e = some (cid, f) → isZero (toSeconds f.closedAt) = false → CoversBound t cid f
  | .event (some e) _ =>
    match e.type with
    | .new =>
      isZero (toSeconds e.fields.closedAt) = false → CoversBound t (e.id.getD []) e.fields
    | .closed =>
      ∀ cid, e.id = some cid → e.fields.isEmpty = false → CoversBound t cid e.fields
    | _ => True
  | _ => True

theorem coversBound_iff (t : Tracker F) (cid : PyStr) (f : Fields F) :
    CoversBound t cid f ↔ ∀ r ∈ t.bankedIds.get cid, r.state = .abandoned → r.key = f.rowIdentity →
          toRat (r.total .uplink) ≤ (f.volume .uplink : ℚ) ∧
            toRat (r.total .downlink) ≤ (f.volume .downlink : ℚ) := by
  constructor
  · intro h r hr hState hKey
    exact ⟨h r hr hState hKey .uplink, h r hr hState hKey .downlink⟩
  · intro h r hr hState hKey d
    cases d with
    | uplink => exact (h r hr hState hKey).1
    | downlink => exact (h r hr hState hKey).2

instance
    (t : Tracker F) (cid : PyStr)
    (f : Fields F) : Decidable (CoversBound t cid f) :=
  decidable_of_iff _ (coversBound_iff t cid f).symm

instance (t : Tracker F) : (m : Move F) → Decidable (Covers t m)
  | .row e _ =>
    match h : rowOf e with
    | none => isTrue (by
        intro cid f hRow
        rw [h] at hRow
        cases hRow)
    | some (cid, f) =>
      decidable_of_iff (isZero (toSeconds f.closedAt) = false → CoversBound t cid f) (by
        constructor
        · intro hBound cid' f' hRow
          rw [h] at hRow
          cases hRow
          exact hBound
        · intro hCovers
          exact hCovers cid f h)
  | .event none _ => isTrue True.intro
  | .event (some e) _ =>
    match h : e.type with
    | .new =>
      decidable_of_iff (isZero (toSeconds e.fields.closedAt) = false → CoversBound t (e.id.getD []) e.fields)
        (by simp only [Covers, h])
    | .closed =>
      decidable_of_iff (∀ cid ∈ e.id, e.fields.isEmpty = false → CoversBound t cid e.fields)
        (by simp only [Covers, h, Option.mem_def])
    | .update => isTrue (by simp only [Covers, h])
    | .unknown => isTrue (by simp only [Covers, h])
  | .skip => isTrue True.intro
  | .begin => isTrue True.intro
  | .abandon _ => isTrue True.intro
  | .prune _ => isTrue True.intro

theorem volume_rowOf {e : Option (Event F)} {cid : PyStr} {f : Fields F} (h : rowOf e = some (cid, f))
    (d : Direction) : f.volume d ≤ eventVolume e d := by
  cases e with
  | none => cases h
  | some e =>
    unfold rowOf at h
    simp only at h
    split at h
    · split at h
      · cases h
        exact Nat.le_add_right _ _
      · cases h
    · cases h

end Volumes

-- Accounts

variable {F : Type} [BoundedFloat F] {t u v : Tracker F} {cid : PyStr}

/-
  The sums stay exact, at most `w` bytes are added, and none
  taken away where the condition holds.
-/
structure Accounts (t u : Tracker F) (w : Direction → ℕ) (covered : Prop) : Prop where
  exact : Exact u
  mass : ∀ d, held u everyKey d ≤ held t everyKey d + (w d : ℚ)
  grows : covered → ∀ p d, held t p d ≤ held u p d

/- The bytes named so far fit into 53 bits. -/
def Fits (t : Tracker F) (w : Direction → ℕ) : Prop := ∀ d, held t everyKey d + (w d : ℚ) ≤ 2 ^ 53

theorem held_nonneg (h : Exact t) (p : Key → Bool) (d : Direction) : 0 ≤ held t p d := by
  rcases h.sums_nonneg p d with ⟨h1, h2, h3⟩
  unfold held
  linarith

theorem amount_of_fits (h : Exact t)
    {f : Fields F} {w : Direction → ℕ} (hLe : ∀ d, f.volume d ≤ w d) (hFits : Fits t w)
    (d : Direction) : toRat (f.amount d) = (f.volume d : ℚ) ∧ Whole (f.amount d) := by
  have hNonneg := held_nonneg h everyKey d
  have hBound := hFits d
  have hVolume : ((f.volume d : ℕ) : ℚ) ≤ (w d : ℚ) := by exact_mod_cast hLe d
  have hExact : toRat (f.amount d) = (f.volume d : ℚ) := by
    apply toRat_round_nat
    change ((f.volume d : ℕ) : ℚ) ≤ 2 ^ 53
    linarith
  exact ⟨hExact, f.volume d, hExact⟩

theorem accounts_of_same {w : Direction → ℕ} {covered : Prop}
    (h : Exact t) (hNodups : Nodups u) (hActive : u.active = t.active)
    (hFinalized : u.finalized = t.finalized) (hBanked : u.bankedIds = t.bankedIds)
    (hEvicted : u.evicted = t.evicted) : Accounts t u w covered := by
  have hSame := exact_of_same h hNodups hActive hFinalized hBanked hEvicted
  refine ⟨hSame.1, ?_, ?_⟩
  · intro d
    rw [hSame.2]
    have hNonneg : (0 : ℚ) ≤ (w d : ℚ) := by positivity
    linarith
  · intro _ p d
    rw [hSame.2]

omit [BoundedFloat F] in
theorem weigh_between (p : Key → Bool) (key : Key) {low high : ℚ}
    (h : low ≤ high) : weigh p key low ≤ weigh p key high := by
  unfold weigh
  split
  · exact h
  · exact le_refl _

omit [BoundedFloat F] in
theorem weigh_nonneg (p : Key → Bool) (key : Key) {amount : ℚ} (h : 0 ≤ amount) : 0 ≤ weigh p key amount := by
  unfold weigh
  split
  · exact h
  · exact le_refl _

theorem pyMax_amount (h : Exact t) {f : Fields F} {w : Direction → ℕ} (hLe : ∀ d, f.volume d ≤ w d)
    (hFits : Fits t w) {x : F} (hx : Whole x)
    (d : Direction) :
    Whole (pyMax x (f.amount d)) ∧ toRat x ≤ toRat (pyMax x (f.amount d)) ∧
      toRat (pyMax x (f.amount d)) ≤ toRat x + (w d : ℚ) := by
  have hAmount := amount_of_fits h hLe hFits d
  refine ⟨pyMax_whole hx hAmount.2, ?_, ?_⟩
  · rw [toRat_pyMax]
    exact le_max_left _ _
  · have hBoth := pyMax_le hx hAmount.2
    have hVolume : ((f.volume d : ℕ) : ℚ) ≤ (w d : ℚ) := by exact_mod_cast hLe d
    rw [hAmount.1] at hBoth
    linarith

/- An active lifecycle gets totals that are larger by `w`. -/
theorem accounts_setActive (h : Exact t) {w : Direction → ℕ} {covered : Prop} {old conn : Conn F}
    (hOld : t.active.get cid = some old) (hKey : conn.key = old.key)
    (hTotal : ∀ d, Whole (conn.total d) ∧ toRat (old.total d) ≤ toRat (conn.total d) ∧
        toRat (conn.total d) ≤ toRat (old.total d) + (w d : ℚ)) :
    Accounts t { t with active := t.active.set cid conn } w
      covered := by
  have hSet := exact_setActive h hOld (fun d => (hTotal d).1)
  refine ⟨hSet.1, ?_, ?_⟩
  · intro d
    rw [hSet.2, weigh_everyKey, weigh_everyKey]
    have hUp := (hTotal d).2.2
    linarith
  · intro _ p d
    rw [hSet.2, hKey]
    have hMore := weigh_between p old.key (hTotal d).2.1
    linarith

/- An active lifecycle is closed with totals larger by `w`. -/
theorem accounts_closeActive (h : Exact t) {w : Direction → ℕ} {covered : Prop} {old conn : Conn F}
    (hOld : t.active.get cid = some old)
    (hNew : t.bankedIds.get cid = none) (hFits : Fits t w) (hKey : conn.key = old.key)
    (hTotal : ∀ d, Whole (conn.total d) ∧ toRat (old.total d) ≤ toRat (conn.total d) ∧
        toRat (conn.total d) ≤ toRat (old.total d) + (w d : ℚ))
    (now closedAt : F) : Accounts t (Tracker.finalize { t with active := t.active.pop cid } cid
        conn now closedAt) w covered := by
  have hPop := exact_popActive h hOld t.abandonedOnReset
  have hRoom : ∀ d, held { t with active := t.active.pop cid } everyKey d +
          toRat (conn.total d) ≤ 2 ^ 53 := by
    intro d
    have hEq := hPop.2 everyKey d
    rw [weigh_everyKey] at hEq
    have hBound := hFits d
    have hUp := (hTotal d).2.2
    linarith
  have hDone := exact_finalize hPop.1 hNew (fun d => (hTotal d).1) hRoom now closedAt
  refine ⟨hDone.1, ?_, ?_⟩
  · intro d
    have hUp := (hTotal d).2.2
    have hEq := hPop.2 everyKey d
    rw [hDone.2, weigh_everyKey]
    rw [weigh_everyKey] at hEq
    linarith
  · intro _ p d
    have hMore := weigh_between p old.key (hTotal d).2.1
    have hEq := hPop.2 p d
    rw [hDone.2, hKey]
    linarith

/- The totals an abandoned lifecycle is closed with. -/
theorem accounts_replace (h : Exact t) {w : Direction → ℕ} {covered : Prop} {r : Record F} {conn : Conn F}
    (hGet : t.bankedIds.get cid = some r) (hFits : Fits t w) (hKey : conn.key = r.key)
    (hTotal : ∀ d, Whole (conn.total d) ∧ toRat (conn.total d) ≤ (w d : ℚ))
    (hCovered : covered → ∀ d, toRat (r.total d) ≤ toRat (conn.total d))
    (now closedAt : F) : Accounts t ((t.release cid r).finalize cid conn now closedAt) w
      covered := by
  have hRecord : ∀ d, 0 ≤ toRat (r.total d) := fun d => (h.banked _ (Dict.mem_of_get hGet) d).nonneg
  have hWeight : ∀ d, (0 : ℚ) ≤ (w d : ℚ) := fun d => by positivity
  have hRelease := exact_release h hGet (fun d => by
    have hBound := hFits d
    have hNonneg := hWeight d
    linarith)
  have hRoom : ∀ d, held (t.release cid r) everyKey d + toRat (conn.total d) ≤ 2 ^ 53 := by
    intro d
    have hBound := hFits d
    have hUp := (hTotal d).2
    have hNonneg := hRecord d
    rw [hRelease.2, weigh_everyKey]
    linarith
  have hDone := exact_finalize hRelease.1 (get_release r) (fun d => (hTotal d).1) hRoom now closedAt
  refine ⟨hDone.1, ?_, ?_⟩
  · intro d
    have hUp := (hTotal d).2
    have hNonneg := hRecord d
    rw [hDone.2, hRelease.2, weigh_everyKey, weigh_everyKey]
    linarith
  · intro hYes p d
    have hMore := weigh_between p r.key (hCovered hYes d)
    rw [hDone.2, hRelease.2, hKey]
    linarith

theorem Accounts.of_held {s : Tracker F} {w : Direction → ℕ} {covered : Prop}
    (h : Accounts u v w covered) (hFrom : ∀ p d, held u p d = held t p d)
    (hTo : Exact s ∧ ∀ p d, held s p d = held v p d) : Accounts t s w covered := by
  refine ⟨hTo.1, ?_, ?_⟩
  · intro d
    rw [hTo.2, ← hFrom]
    exact h.mass d
  · intro hYes p d
    rw [hTo.2, ← hFrom]
    exact h.grows hYes p d

theorem accounts_newActive (h : Exact t)
    {w : Direction → ℕ} {covered : Prop} {conn : Conn F} (hNew : t.active.get cid = none)
    (hTotal : ∀ d, Whole (conn.total d) ∧ toRat (conn.total d) ≤ (w d : ℚ)) :
    Accounts t { t with active := t.active.set cid conn } w
      covered := by
  have hSet := exact_newActive h hNew (fun d => (hTotal d).1)
  refine ⟨hSet.1, ?_, ?_⟩
  · intro d
    have hUp := (hTotal d).2
    rw [hSet.2, weigh_everyKey]
    linarith
  · intro _ p d
    have hMore := weigh_nonneg p conn.key (hTotal d).1.nonneg
    rw [hSet.2]
    linarith

/- A banked lifecycle goes on, with `w` bytes more at most. -/
theorem accounts_reactivate (h : Exact t) {w : Direction → ℕ} {covered : Prop} {r : Record F} {conn : Conn F}
    (hGet : t.bankedIds.get cid = some r)
    (hNew : t.active.get cid = none) (hFits : Fits t w) (hKey : conn.key = r.key)
    (hTotal : ∀ d, Whole (conn.total d) ∧ toRat (r.total d) ≤ toRat (conn.total d) ∧
        toRat (conn.total d) ≤ toRat (r.total d) + (w d : ℚ)) :
    Accounts t
      { t.release cid r with
        active := (t.release cid r).active.set cid conn } w
      covered := by
  have hRelease := exact_release h hGet (fun d => by
    have hBound := hFits d
    have hNonneg : (0 : ℚ) ≤ (w d : ℚ) := by positivity
    linarith)
  have hStill : (t.release cid r).active.get cid = none := hNew
  have hSet := exact_newActive hRelease.1 hStill (fun d => (hTotal d).1)
  refine ⟨hSet.1, ?_, ?_⟩
  · intro d
    have hUp := (hTotal d).2.2
    rw [hSet.2, hRelease.2, weigh_everyKey, weigh_everyKey]
    linarith
  · intro _ p d
    have hMore := weigh_between p r.key (hTotal d).2.1
    rw [hSet.2, hRelease.2, hKey]
    linarith

end SingboxOps.Collector
