import SingboxOps.Collector.Displayed

/-
  Identity conflicts.

  An event that names another identity than the one its id is
  known under must move nothing.  Every path that recognises
  the conflict keeps all records and totals; the row of a
  connection that closed adds its device first, and is taken
  up without a question where the id is active.
-/

namespace SingboxOps.Collector

open PyFloat Tracker

-- Conflicts

section Definitions

variable {F : Type} [PyFloat F]

/- The key an id is known under. -/
def Knows (t : Tracker F) (cid : PyStr) (k : Key) : Prop :=
  Tracks t cid k ∨ ∃ c, t.closed.get cid = some c ∧ c.key = k

/- The row of a connection that closed, announced as new. -/
def closedRowOf : Move F → Option (PyStr × Fields F)
  | .event (some e) _ =>
    if e.type = .new ∧ isZero (toSeconds e.fields.closedAt) = false
    then some (e.id.getD [], e.fields)
    else none
  | .row e _ => (rowOf e).filter (fun row => !isZero (toSeconds row.2.closedAt))
  | _ => none

/- The id an event is about, and the Connection it carries. -/
def target : Move F → Option (PyStr × Fields F)
  | .event (some e) now =>
    if e.type = .unknown then none
    else
      (closedRowOf (.event (some e) now)).or (e.id.map (fun cid => (cid, e.fields)))
  | .row e _ => rowOf e
  | _ => none

/- The event names another identity than its id is known under. -/
def Conflicts (t : Tracker F) (m : Move F) : Prop := ∃ cid f k,
    target m = some (cid, f) ∧ Knows t cid k ∧ truthy f.user = true ∧ truthy f.inbound = true ∧
      f.rowIdentity ≠ k

/- A CLOSED event. -/
def closing : Move F → Bool
  | .event (some e) _ => decide (e.type = .closed)
  | _ => false

/- A CLOSED event of an active lifecycle. -/
def EndsActive (t : Tracker F) (m : Move F) : Prop :=
  closing m = true ∧ ∃ cid f c, target m = some (cid, f) ∧ t.active.get cid = some c

/- No record and no slot is touched. -/
structure SameRecords (t u : Tracker F) : Prop where
  active : u.active = t.active
  closed : u.closed = t.closed
  bankedIds : u.bankedIds = t.bankedIds
  finalized : u.finalized = t.finalized

/- The lifecycle of an id ends with the totals it had. -/
def EndsAsKnown (t u : Tracker F) (cid : PyStr) : Prop := ∃ c c',
    t.active.get cid = some c ∧ u.active = t.active.pop cid ∧ u.closed = t.closed.set cid c' ∧
      c'.key = c.key ∧ c'.total = c.total ∧
      u.evicted ++ u.bankedIds = t.evicted ++ (t.bankedIds.pop cid ++ [(cid, ⟨c.key, c.total, .closed⟩)])

/- What is displayed is what was displayed. -/
structure SameDisplay (t u : Tracker F) : Prop where
  protocol : ∀ key d, toRat (protocolTotal u key d) = toRat (protocolTotal t key d)
  device : ∀ user d, toRat (deviceTotal u user d) = toRat (deviceTotal t user d)

/-
  Displayed totals, devices and records are as they were; a
  CLOSED event may end its lifecycle.
-/
structure MovesNothing (t : Tracker F) (m : Move F) : Prop where
  display : SameDisplay t (move t m)
  devices : (move t m).devices = t.devices
  records :
    SameRecords t (move t m) ∨ (closing m = true ∧ ∃ cid, EndsAsKnown t (move t m) cid)

/-
  The event is no closed row, or its id is not active and its
  user is a device already.
-/
def Recognised (t : Tracker F) (m : Move F) : Prop :=
  ∀ cid f, closedRowOf m = some (cid, f) → f.user ∈ t.devices ∧ t.active.get cid = none

end Definitions

-- Displays

section Records

variable {F : Type} [PyFloat F] {t u : Tracker F} {cid : PyStr}
variable {f : Fields F}

theorem SameRecords.display (h : SameRecords t u) : SameDisplay t u := by
  have hSlot : u.slot = t.slot := by
    funext key
    unfold slot
    rw [h.finalized]
  constructor
  · intro key d
    unfold protocolTotal activeTotals
    rw [h.active, hSlot]
  · intro user d
    unfold deviceTotal activeTotals protocolKeys
    rw [h.active, h.closed, h.finalized, hSlot]

omit [PyFloat F] in
theorem knows_of_not_active {k : Key} (h : Knows t cid k) (hActive : t.active.get cid = none) :
    (∃ r, t.bankedIds.get cid = some r ∧ r.key = k) ∨ ∃ c, t.closed.get cid = some c ∧ c.key = k := by
  rcases h with (⟨c, hc, _⟩ | hBanked) | hClosed
  · rw [hActive] at hc
    cases hc
  · exact Or.inl hBanked
  · exact Or.inr hClosed

omit [PyFloat F] in
theorem knows_of_active (hApart : Apart t) {k : Key} (h : Knows t cid k) {c : Conn F}
    (hActive : t.active.get cid = some c) : c.key = k := by
  have hLocal := (hApart.ids cid).active c hActive
  rcases h with (⟨c', hc, rfl⟩ | ⟨r, hr, _⟩) | ⟨c', hc, _⟩
  · rw [hActive] at hc
    cases hc
    rfl
  · rw [hLocal.1] at hr
    cases hr
  · rw [hLocal.2] at hc
    cases hc

omit [PyFloat F] in
theorem knows_of_banked (hApart : Apart t) {k : Key} (h : Knows t cid k) {r : Record F}
    (hBanked : t.bankedIds.get cid = some r) : r.key = k := by
  rcases h with hTracks | ⟨c, hc, rfl⟩
  · exact (key_of_banked hApart hBanked hTracks).symm
  · exact ((hApart.ids cid).sameKey c r hc hBanked).symm

-- Paths

omit [PyFloat F] in
theorem not_mayProceed {k : Key} (hUser : truthy f.user = true) (hInbound : truthy f.inbound = true)
    (hOther : f.rowIdentity ≠ k) : mayProceed k f.rowIdentity = false := by
  unfold mayProceed
  have hEq : decide (f.rowIdentity = k) = false := decide_eq_false hOther
  rw [hEq]
  change (!(truthy f.user && truthy f.inbound) || false) = false
  rw [hUser, hInbound]
  rfl

omit [PyFloat F] in
theorem isEmpty_of_user (hUser : truthy f.user = true) : f.isEmpty = false := by
  have hSome : f.user.isNone = false := by
    cases hText : f.user with
    | none => rw [hText] at hUser; cases hUser
    | some text => rfl
  unfold Fields.isEmpty
  rw [hSome]
  simp

theorem upsertActive_conflict (hApart : Apart t)
    {k : Key} (hKnows : Knows t cid k) (hUser : truthy f.user = true)
    (hInbound : truthy f.inbound = true)
    (hOther : f.rowIdentity ≠ k) : t.upsertActive cid f = t.conflict := by
  unfold upsertActive
  cases hActive : t.active.get cid with
  | some c =>
    have hKey := knows_of_active hApart hKnows hActive
    simp only
    rw [hKey, not_mayProceed hUser hInbound hOther]
    rfl
  | none =>
    have hSource : ((t.closed.get cid).map Conn.key).or ((t.bankedIds.get cid).map Record.key) = some k := by
      cases hClosed : t.closed.get cid with
      | some c =>
        have hKey : c.key = k := by
          rcases knows_of_not_active hKnows hActive with ⟨r, hr, rfl⟩ | ⟨c', hc', rfl⟩
          · exact (hApart.ids cid).sameKey c r hClosed hr
          · rw [hClosed] at hc'
            cases hc'
            rfl
        exact congrArg some hKey
      | none =>
        rcases knows_of_not_active hKnows hActive with ⟨r, hr, rfl⟩ | ⟨c', hc', _⟩
        · rw [hr]
          rfl
        · rw [hClosed] at hc'
          cases hc'
    simp only [hSource, Option.any_some]
    rw [if_pos (decide_eq_true hOther.symm)]

theorem recordClosedRow_conflict (hApart : Apart t) {k : Key} (hKnows : Knows t cid k)
    (hActive : t.active.get cid = none) (hOther : f.rowIdentity ≠ k)
    (now closedAt : F) :
    t.recordClosedRow cid f now closedAt = (t.addDevice f.user).conflict ∨
      t.recordClosedRow cid f now closedAt = (t.addDevice f.user).duplicate := by
  unfold recordClosedRow
  simp only
  have hBankedEq : (t.addDevice f.user).bankedIds = t.bankedIds := rfl
  have hClosedEq : (t.addDevice f.user).closed = t.closed := rfl
  rw [hBankedEq, hClosedEq]
  cases hBanked : t.bankedIds.get cid with
  | some r =>
    have hKey := knows_of_banked hApart hKnows hBanked
    left
    simp only
    rw [if_pos (hKey ▸ hOther.symm)]
  | none =>
    right
    rcases knows_of_not_active hKnows hActive with ⟨r, hr, _⟩ | ⟨c, hc, _⟩
    · rw [hBanked] at hr
      cases hr
    · simp only
      rw [hc]
      rfl

theorem devices_recordClosedRow (now closedAt : F) :
    (t.recordClosedRow cid f now closedAt).devices = (t.addDevice f.user).devices := by
  unfold recordClosedRow
  simp only
  split
  · split
    · rfl
    · split
      · rfl
      · rfl
  · split
    · rfl
    · split
      · rfl
      · rfl

theorem active_recordClosedRow (hApart : Apart t) {c : Conn F} (hActive : t.active.get cid = some c)
    (now closedAt : F) :
    (t.recordClosedRow cid f now closedAt).active = t.active.pop cid := by
  have hLocal := (hApart.ids cid).active c hActive
  unfold recordClosedRow
  simp only
  have hBankedEq : (t.addDevice f.user).bankedIds = t.bankedIds := rfl
  have hClosedEq : (t.addDevice f.user).closed = t.closed := rfl
  have hActiveEq : (t.addDevice f.user).active = t.active := rfl
  rw [hBankedEq, hClosedEq, hActiveEq, hLocal.1, hLocal.2, hActive]
  rfl

omit [PyFloat F] in
theorem mem_of_addDevice {user : Option PyStr}
    (h : (t.addDevice user).devices = t.devices) : user ∈ t.devices := by
  unfold addDevice at h
  by_contra hOut
  simp only [if_neg hOut] at h
  have hLength := congrArg List.length h
  rw [List.length_append, List.length_singleton] at hLength
  omega

omit [PyFloat F] in
theorem addDevice_of_mem {user : Option PyStr} (h : user ∈ t.devices) : t.addDevice user = t := by
  unfold addDevice
  rw [if_pos h]

theorem move_closedRow {m : Move F} (h : closedRowOf m = some (cid, f)) :
    target m = some (cid, f) ∧ closing m = false ∧
      ∃ now, move t m = t.recordClosedRow cid f now (toSeconds f.closedAt) := by
  cases m with
  | skip => cases h
  | begin => cases h
  | abandon cid => cases h
  | prune now => cases h
  | row e now =>
    simp only [closedRowOf, Option.filter_eq_some_iff] at h
    refine ⟨h.1, rfl, now, ?_⟩
    change t.applyRow e now = _
    unfold applyRow
    rw [h.1]
    simp only
    rw [if_pos h.2]
  | event e now =>
    cases e with
    | none => cases h
    | some e =>
      have hRow := h
      simp only [closedRowOf] at h
      split at h
      · rename_i hNew
        cases h
        refine ⟨?_, ?_, now, ?_⟩
        · have hKnown : e.type ≠ .unknown := by
            rw [hNew.1]
            decide
          simp only [target, if_neg hKnown, hRow]
          rfl
        · simp only [closing, hNew.1]
          rfl
        · change t.applyEvent (some e) now = _
          unfold applyEvent
          simp only [hNew.1, applyNew]
          rw [hNew.2]
          rfl
      · cases h

/- An event that is no closed row, of a known id. -/
theorem move_otherRow (hApart : Apart t) {m : Move F} {k : Key} (hTarget : target m = some (cid, f))
    (hRow : closedRowOf m = none) (hKnows : Knows t cid k)
    (hUser : truthy f.user = true) (hInbound : truthy f.inbound = true)
    (hOther : f.rowIdentity ≠ k)
    (hEnds : ¬ EndsActive t m) :
    move t m = t.conflict ∨ move t m = t.skip ∨ move t m = t.duplicate := by
  have hUpsert := upsertActive_conflict hApart hKnows hUser hInbound hOther
  cases m with
  | skip => cases hTarget
  | begin => cases hTarget
  | abandon cid => cases hTarget
  | prune now => cases hTarget
  | row e now =>
    left
    change rowOf e = some (cid, f) at hTarget
    simp only [closedRowOf, hTarget, Option.filter_some] at hRow
    change t.applyRow e now = _
    unfold applyRow
    rw [hTarget]
    simp only
    split
    · rename_i hClosed
      rw [if_pos hClosed] at hRow
      cases hRow
    · exact hUpsert
  | event e now =>
    cases e with
    | none => cases hTarget
    | some e =>
      have hNotUnknown : e.type ≠ .unknown := by
        intro hEq
        simp only [target, if_pos hEq] at hTarget
        cases hTarget
      simp only [target, if_neg hNotUnknown, hRow, Option.none_or, Option.map_eq_some_iff] at hTarget
      obtain ⟨cid', hId, hPair⟩ := hTarget
      cases hPair
      have hFilled := isEmpty_of_user hUser
      have hStop := not_mayProceed hUser hInbound hOther
      change t.applyEvent (some e) now = _ ∨ t.applyEvent (some e) now = _ ∨ t.applyEvent (some e) now = _
      unfold applyEvent
      cases hType : e.type with
      | unknown => exact absurd hType hNotUnknown
      | new =>
        have hOpen : isZero (toSeconds e.fields.closedAt) =
            true := by
          by_contra hNot
          simp only [closedRowOf, hType, true_and, if_pos ((Bool.not_eq_true _).mp hNot)] at hRow
          cases hRow
        simp only [hType, applyNew, hOpen, Bool.not_true, hId]
        rw [if_neg (by decide)]
        cases cid with
        | nil => exact Or.inr (Or.inl rfl)
        | cons c rest =>
          left
          simp only [hUser, hInbound, Bool.not_true, Bool.or_self]
          exact hUpsert
      | update =>
        simp only [hType, applyUpdate, hId, Option.bind_some]
        cases hActive : t.active.get cid with
        | none => exact Or.inr (Or.inl rfl)
        | some c =>
          left
          simp only
          rw [knows_of_active hApart hKnows hActive, hFilled, hStop]
          rfl
      | closed =>
        simp only [hType, applyClosed, hId]
        cases hActive : t.active.get cid with
        | some c =>
          exact absurd ⟨by simp [closing, hType], cid, e.fields, c,
              by simp [target, hNotUnknown, hRow, hId],
              hActive⟩ hEnds
        | none =>
          simp only
          cases hBanked : t.bankedIds.get cid with
          | some r =>
            have hKey := knows_of_banked hApart hKnows hBanked
            simp only
            split
            · exact Or.inr (Or.inr rfl)
            · left
              rw [hFilled, if_neg (by decide),
                if_pos (hKey ▸ hOther.symm)]
          | none =>
            right
            right
            rcases knows_of_not_active hKnows hActive with ⟨r, hr, _⟩ | ⟨c, hc, _⟩
            · rw [hBanked] at hr
              cases hr
            · simp only
              rw [hc]
              rfl

omit [PyFloat F] in
theorem sameRecords_conflict : SameRecords t t.conflict := ⟨rfl, rfl, rfl, rfl⟩

omit [PyFloat F] in
theorem sameRecords_skip : SameRecords t t.skip := ⟨rfl, rfl, rfl, rfl⟩

omit [PyFloat F] in
theorem sameRecords_duplicate : SameRecords t t.duplicate := ⟨rfl, rfl, rfl, rfl⟩

end Records

-- A CLOSED Event of Another Identity

section Totals

variable {F : Type} [BoundedFloat F] {t u : Tracker F} {cid : PyStr}

theorem sameDisplay_of_held (h : Exact t) (h' : Exact u) (hFits : ∀ d, held t everyKey d ≤ 2 ^ 53)
    (hSame : ∀ p d, held u p d = held t p d) : SameDisplay t u := by
  have hFits' : ∀ d, held u everyKey d ≤ 2 ^ 53 := by
    intro d
    rw [hSame]
    exact hFits d
  constructor
  · intro key d
    rw [protocolTotal_held h hFits, protocolTotal_held h' hFits', hSame]
  · intro user d
    rw [deviceTotal_held h hFits, deviceTotal_held h' hFits', hSame]

theorem closeActive_conflict {e : Event F} {k : Key} {c : Conn F}
    (hKey : c.key = k) (hUser : truthy e.fields.user = true)
    (hInbound : truthy e.fields.inbound = true) (hOther : e.fields.rowIdentity ≠ k)
    (now : F) :
    t.closeActive cid c e now = (Tracker.conflict { t with active := t.active.pop cid }).finalize
        cid c now (orElse e.closedAt e.fields.closedAt) := by
  have hFilled := isEmpty_of_user hUser
  unfold closeActive
  simp only [hFilled, hKey, not_mayProceed hUser hInbound hOther, Bool.false_eq_true, if_false]

theorem endsAsKnown_finalize {c : Conn F} (hActive : t.active.get cid = some c)
    (now closedAt : F) : EndsAsKnown t ((Tracker.conflict
        { t with active := t.active.pop cid }).finalize cid c now
          closedAt) cid := by
  refine ⟨c, _, hActive, rfl, rfl, rfl, rfl, ?_⟩
  change (t.evicted ++ List.take _ _) ++ List.drop _ _ = _
  rw [List.append_assoc, List.take_append_drop]
  rfl

theorem held_finalize (hApart : Apart t) (h : Exact t) (hFits : ∀ d, held t everyKey d ≤ 2 ^ 53) {c : Conn F}
    (hActive : t.active.get cid = some c)
    (now closedAt : F) : Exact ((Tracker.conflict { t with active := t.active.pop cid }).finalize cid c now
          closedAt) ∧
      ∀ p d, held ((Tracker.conflict { t with active := t.active.pop cid }).finalize cid c now
          closedAt) p d = held t p d := by
  have hWhole := h.active _ (Dict.mem_of_get hActive)
  have hNew := ((hApart.ids cid).active c hActive).1
  have hPop := exact_popActive h hActive t.abandonedOnReset
  have hCounted := exact_of_same (u := Tracker.conflict { t with active := t.active.pop cid })
    hPop.1
    (hPop.1.nodups.of_same rfl rfl rfl rfl) rfl rfl rfl rfl
  have hDone := exact_finalize hCounted.1 hNew hWhole (by
    intro d
    have hEq := hPop.2 everyKey d
    have hBound := hFits d
    rw [weigh_everyKey] at hEq
    rw [hCounted.2]
    linarith) now closedAt
  refine ⟨hDone.1, ?_⟩
  intro p d
  have hEq := hPop.2 p d
  rw [hDone.2, hCounted.2]
  linarith

-- Every Conflict

/- A tracker between two steps of some calls. -/
def reached (ttl : F) (cap : ℕ) (calls : List (Call F)) (n : ℕ) : Tracker F :=
  moves (Tracker.start ttl cap) ((expand (Tracker.start ttl cap) calls).take n)

/-
  An event that names another identity moves nothing exactly
  where it is no closed row, or one of an id that is not
  active and of a user that is a device; a CLOSED event of an
  active id needs the bytes named so far to fit into 53 bits,
  as it banks what was active.
-/
theorem conflict_law (ttl : F) (cap : ℕ) (calls : List (Call F)) (n : ℕ) (m : Move F)
    (hConflict : Conflicts (reached ttl cap calls n) m) :
    (Recognised (reached ttl cap calls n) m → (EndsActive (reached ttl cap calls n) m →
        ∀ d, volume ((expand (Tracker.start ttl cap) calls).take n) d ≤ 2 ^ 53) →
      MovesNothing (reached ttl cap calls n) m) ∧
      (MovesNothing (reached ttl cap calls n) m → Recognised (reached ttl cap calls n) m) := by
  have hApart : Apart (reached ttl cap calls n) := apart_moves (apart_start ttl cap) _
  have hExact : (∀ d, volume ((expand (Tracker.start ttl cap) calls).take n) d ≤ 2 ^ 53) →
        Exact (reached ttl cap calls n) ∧ ∀ d, held (reached ttl cap calls n) everyKey d ≤ 2 ^ 53 := by
    intro hVolume
    have hFits : Fits (Tracker.start ttl cap) (volume ((expand (Tracker.start ttl cap) calls).take n)) := by
      intro d
      rw [held_start, zero_add]
      exact_mod_cast hVolume d
    have hMoves := exact_moves (apart_start ttl cap) (exact_start ttl cap) _ hFits
    exact ⟨hMoves.1, fun d => (hMoves.2 d).trans (hFits d)⟩
  generalize reached ttl cap calls n = t at *
  obtain ⟨cid, f, k, hTarget, hKnows, hUser, hInbound, hOther⟩ := hConflict
  have hSame : ∀ {u : Tracker F}, move t m = u →
      SameRecords t u → u.devices = t.devices → MovesNothing t m := by
    rintro u rfl hRecords hDevices
    exact ⟨hRecords.display, hDevices, Or.inl hRecords⟩
  constructor
  · intro hRecognised hVolume
    cases hRow : closedRowOf m with
    | some row =>
      rcases row with ⟨cid', f'⟩
      obtain ⟨hRowTarget, _, now, hMove⟩ := move_closedRow (t := t) hRow
      obtain ⟨rfl, rfl⟩ : cid = cid' ∧ f = f' := by
        rw [hTarget] at hRowTarget
        exact Prod.mk.inj (Option.some.inj hRowTarget)
      obtain ⟨hDevice, hActive⟩ := hRecognised cid f hRow
      have hResult := recordClosedRow_conflict hApart hKnows hActive hOther now (toSeconds f.closedAt)
      rw [addDevice_of_mem hDevice] at hResult
      rcases hResult with hResult | hResult
      · exact hSame (hMove.trans hResult) sameRecords_conflict rfl
      · exact hSame (hMove.trans hResult) sameRecords_duplicate rfl
    | none =>
      by_cases hEnds : EndsActive t m
      · obtain ⟨hSums, hFits⟩ := hExact (hVolume hEnds)
        obtain ⟨hClosing, cid', f', c, hTarget', hActive⟩ := hEnds
        rw [hTarget] at hTarget'
        cases hTarget'
        cases m with
        | skip => cases hTarget
        | begin => cases hTarget
        | abandon cid => cases hTarget
        | prune now => cases hTarget
        | row e now => cases hClosing
        | event e now =>
          cases e with
          | none => cases hTarget
          | some e =>
            have hType : e.type = .closed := of_decide_eq_true hClosing
            simp only [target, hType, closedRowOf, Option.none_or, reduceCtorEq, if_false,
              false_and, Option.map_eq_some_iff] at hTarget
            obtain ⟨_, hId, hPair⟩ := hTarget
            cases hPair
            have hMove : move t (.event (some e) now) = (Tracker.conflict
                  { t with
                    active := t.active.pop cid }).finalize cid c
                      now (orElse e.closedAt e.fields.closedAt) := by
              change t.applyEvent (some e) now = _
              unfold applyEvent
              simp only [hType, applyClosed, hId, hActive]
              exact closeActive_conflict (knows_of_active hApart hKnows hActive) hUser hInbound hOther now
            have hHeld := held_finalize hApart hSums hFits hActive now (orElse e.closedAt e.fields.closedAt)
            refine ⟨?_, ?_, Or.inr ⟨hClosing, cid, ?_⟩⟩
            · rw [hMove]
              exact sameDisplay_of_held hSums hHeld.1 hFits hHeld.2
            · rw [hMove]
              rfl
            · rw [hMove]
              exact endsAsKnown_finalize hActive now _
      · rcases move_otherRow hApart hTarget hRow hKnows hUser hInbound hOther hEnds with hMove | hMove | hMove
        · exact hSame hMove sameRecords_conflict rfl
        · exact hSame hMove sameRecords_skip rfl
        · exact hSame hMove sameRecords_duplicate rfl
  · intro hNothing cid' f' hRow
    obtain ⟨hRowTarget, hNotClosing, now, hMove⟩ := move_closedRow (t := t) hRow
    have hDevices := hNothing.devices
    rw [hMove, devices_recordClosedRow] at hDevices
    refine ⟨mem_of_addDevice hDevices, ?_⟩
    cases hActive : t.active.get cid' with
    | none => rfl
    | some c =>
      rcases hNothing.records with hRecords | ⟨hClosing, _⟩
      · have hGone := hRecords.active
        rw [hMove, active_recordClosedRow hApart hActive] at hGone
        have hGet := congrArg (fun a => a.get cid') hGone
        simp only [Dict.get_pop, if_pos, hActive] at hGet
        cases hGet
      · rw [hNotClosing] at hClosing
        cases hClosing

end Totals

-- One Id, Two Users

/- A row of bob's about alice's id. -/
def foreignRow (closedAt : ℤ) (total : ℕ) : Option (Event (IntGrid (2 ^ 53))) := some
    { type := .new
      id := some (pyStr "a")
      connection := some
        { id := none
          user := some (pyStr "bob")
          inbound := some (pyStr "reality-in")
          closedAt := whole closedAt
          total := fun _ => some total
          other := false }
      delta := fun _ => 0
      closedAt := whole 0 }

/- Alice's id is active with 100 bytes. -/
def announcedCall : Call (IntGrid (2 ^ 53)) := .applyBatch (some ⟨false, [announced]⟩) (whole 1)

def announcedTracker : Tracker (IntGrid (2 ^ 53)) := reached (whole 600) 1000 [announcedCall] 2

theorem announced_active : (announcedTracker.active.get (pyStr "a")).map Conn.key =
      some (some (pyStr "alice"), some (pyStr "reality-in")) := by
  decide +kernel

theorem target_foreignRow (closedAt : ℤ) (total : ℕ) (now : IntGrid (2 ^ 53)) :
    target (.event (foreignRow closedAt total) now) = (foreignRow closedAt total).map
        (fun e => (pyStr "a", e.fields)) := by
  have hNew : EventType.new ≠ EventType.unknown := nofun
  simp only [target, closedRowOf, foreignRow, Option.map_some, if_neg hNew]
  split <;> rfl

theorem foreignRow_conflicts (closedAt : ℤ) (total : ℕ) : Conflicts announcedTracker
      (.event (foreignRow closedAt total) (whole 2)) := by
  obtain ⟨c, hActive, hKey⟩ := Option.map_eq_some_iff.mp announced_active
  refine ⟨pyStr "a", _, _, target_foreignRow closedAt total _,
    Or.inl (Or.inl ⟨c, hActive, hKey⟩), rfl, rfl, ?_⟩
  change (some (pyStr "bob"), some (pyStr "reality-in")) ≠ (some (pyStr "alice"), some (pyStr "reality-in"))
  decide

theorem not_closed_foreignRow : isZero (toSeconds (whole 0)) = true := by decide +kernel

/- Announced as active it is recognised. -/
theorem conflict_law_foreignRow : MovesNothing announcedTracker (.event (foreignRow 0 200) (whole 2)) := by
  refine (conflict_law (whole 600) 1000 [announcedCall] 2 _ (foreignRow_conflicts 0 200)).1 ?_ ?_
  · intro cid f hRow
    have hNone : closedRowOf (.event (foreignRow 0 200) (whole 2)) = none :=
      if_neg (fun h => Bool.noConfusion (not_closed_foreignRow.symm.trans h.2))
    rw [hNone] at hRow
    cases hRow
  · rintro ⟨hClosing, _⟩
    cases hClosing

/- Announced as closed it ends alice's lifecycle with 200. -/
theorem foreignRow_moves : Conflicts announcedTracker (.event (foreignRow 5 200) (whole 2)) ∧
      ¬ MovesNothing announcedTracker (.event (foreignRow 5 200) (whole 2)) := by
  refine ⟨foreignRow_conflicts 5 200, ?_⟩
  intro h
  have hKey := h.display.protocol (some (pyStr "alice"), some (pyStr "reality-in")) .uplink
  revert hKey
  decide +kernel

end SingboxOps.Collector
