import SingboxOps.Collector.Totals

/-
  The accounts of every move, and of a run.
-/

namespace SingboxOps.Collector

open PyFloat Tracker

variable {F : Type} [BoundedFloat F] {t u : Tracker F} {cid : PyStr}

-- Rows

theorem accounts_skip {w : Direction → ℕ} {covered : Prop} (h : Exact t) : Accounts t t.skip w covered :=
  accounts_of_same h (h.nodups.of_same rfl rfl rfl rfl) rfl rfl rfl rfl

theorem accounts_conflict {w : Direction → ℕ} {covered : Prop}
    (h : Exact t) : Accounts t t.conflict w covered :=
  accounts_of_same h (h.nodups.of_same rfl rfl rfl rfl) rfl rfl rfl rfl

theorem accounts_duplicate {w : Direction → ℕ} {covered : Prop}
    (h : Exact t) : Accounts t t.duplicate w covered :=
  accounts_of_same h (h.nodups.of_same rfl rfl rfl rfl) rfl rfl rfl rfl

theorem same_addDevice (h : Exact t) (user : Option PyStr) :
    Exact (t.addDevice user) ∧ ∀ p d, held (t.addDevice user) p d = held t p d :=
  exact_of_same h (h.nodups.of_same rfl rfl rfl rfl) rfl rfl rfl rfl

theorem accounts_upsertActive (hApart : Apart t) (h : Exact t)
    {f : Fields F} {w : Direction → ℕ} {covered : Prop} (hLe : ∀ d, f.volume d ≤ w d)
    (hFits : Fits t w) : Accounts t (t.upsertActive cid f) w covered := by
  unfold upsertActive
  cases hActive : t.active.get cid with
  | some existing =>
    simp only
    split
    · exact accounts_conflict h
    · exact accounts_setActive h hActive (rfl :
          { existing with
            total := fun d =>
              pyMax (existing.total d) (f.amount d) }.key =
              existing.key)
        (fun d => pyMax_amount h hLe hFits (h.active _ (Dict.mem_of_get hActive) d) d)
  | none =>
    simp only
    split
    · exact accounts_conflict h
    · rename_i hSource
      let hidden : Tracker F := { t with closed := t.closed.pop cid }
      have hHidden := exact_of_same (u := hidden) h (focus_popClosed.nodups h.nodups) rfl rfl rfl rfl
      cases hBanked : t.bankedIds.get cid with
      | none =>
        simp only
        have hNew := @accounts_newActive F _ hidden cid hHidden.1 w covered (newConnection f.rowIdentity f)
          hActive (fun d => by
            have hAmount := amount_of_fits h hLe hFits d
            refine ⟨hAmount.2, ?_⟩
            change toRat (f.amount d) ≤ _
            rw [hAmount.1]
            exact_mod_cast hLe d)
        exact hNew.of_held hHidden.2 (same_addDevice hNew.exact f.user)
      | some r =>
        simp only
        have hKey : f.rowIdentity = r.key := by
          cases hClosed : t.closed.get cid with
          | none =>
            have hSame : r.key = f.rowIdentity := by simpa [hClosed, hBanked] using hSource
            exact hSame.symm
          | some c =>
            have hSame : c.key = f.rowIdentity := by simpa [hClosed] using hSource
            rw [← hSame]
            exact (hApart.ids cid).sameKey c r hClosed hBanked
        have hRoom : Fits hidden w := by
          intro d
          rw [hHidden.2]
          exact hFits d
        have hNew := @accounts_reactivate F _ hidden cid hHidden.1 w covered r
          { newConnection f.rowIdentity f with
            total := fun d => pyMax (r.total d) (f.amount d) }
          hBanked hActive hRoom hKey (fun d =>
            pyMax_amount h hLe hFits (h.banked _ (Dict.mem_of_get hBanked) d) d)
        exact hNew.of_held hHidden.2 (same_addDevice hNew.exact f.user)

/- The row of a closed connection, its device being known. -/
theorem accounts_closedRow (h : Exact t) {f : Fields F} {w : Direction → ℕ} {covered : Prop}
    (hLe : ∀ d, f.volume d ≤ w d) (hFits : Fits t w)
    (hCovered : covered → CoversBound t cid f) (now closedAt : F)
    (hDevice : t.addDevice f.user = t) :
    Accounts t (t.recordClosedRow cid f now closedAt) w covered := by
  have hAmount := fun d => amount_of_fits h hLe hFits d
  have hWeight : ∀ d, ((f.volume d : ℕ) : ℚ) ≤ (w d : ℚ) := fun d => by exact_mod_cast hLe d
  unfold recordClosedRow
  simp only
  rw [hDevice]
  cases hBanked : t.bankedIds.get cid with
  | some r =>
    simp only
    split
    · exact accounts_conflict h
    · rename_i hKey
      split
      · rename_i hState
        have hSame := exact_of_same (u := t.duplicate) h (h.nodups.of_same rfl rfl rfl rfl) rfl rfl rfl rfl
        have hRoom : Fits t.duplicate w := by
          intro d
          rw [hSame.2]
          exact hFits d
        have hFinal := @accounts_replace F _ t.duplicate cid hSame.1 w covered r
          { newConnection f.rowIdentity f with
            closedAt := orElse closedAt now }
          hBanked hRoom (not_not.mp hKey).symm
          (fun d => ⟨(hAmount d).2, by
            change toRat (f.amount d) ≤ _
            rw [(hAmount d).1]
            exact hWeight d⟩)
          (fun hYes d => by
            change _ ≤ toRat (f.amount d)
            rw [(hAmount d).1]
            exact hCovered hYes r hBanked hState (not_not.mp hKey) d)
          now (orElse closedAt now)
        exact hFinal.of_held hSame.2 ⟨hFinal.exact, fun _ _ => rfl⟩
      · exact accounts_duplicate h
  | none =>
    simp only
    split
    · exact accounts_duplicate h
    · cases hActive : t.active.get cid with
      | some conn =>
        simp only
        exact @accounts_closeActive F _ t cid h w covered conn
          { conn with
            total := fun d => pyMax (conn.total d) (f.amount d) }
          hActive hBanked hFits rfl (fun d =>
            pyMax_amount h hLe hFits (h.active _ (Dict.mem_of_get hActive) d) d)
          now closedAt
      | none =>
        simp only
        have hFresh := @exact_finalize F _ t cid h hBanked
          { newConnection f.rowIdentity f with
            closedAt := orElse closedAt now }
          (fun d => (hAmount d).2)
          (fun d => by
            change _ + toRat (f.amount d) ≤ _
            rw [(hAmount d).1]
            have hBound := hFits d
            have hUp := hWeight d
            linarith)
          now (orElse closedAt now)
        refine ⟨hFresh.1, ?_, ?_⟩
        · intro d
          rw [hFresh.2, weigh_everyKey]
          change _ + toRat (f.amount d) ≤ _
          rw [(hAmount d).1]
          have hUp := hWeight d
          linarith
        · intro _ p d
          rw [hFresh.2]
          have hMore := weigh_nonneg p f.rowIdentity (hAmount d).2.nonneg
          change _ ≤ _ + weigh p f.rowIdentity (toRat (f.amount d))
          linarith

theorem accounts_recordClosedRow (h : Exact t) {f : Fields F} {w : Direction → ℕ} {covered : Prop}
    (hLe : ∀ d, f.volume d ≤ w d) (hFits : Fits t w)
    (hCovered : covered → CoversBound t cid f)
    (now closedAt : F) : Accounts t (t.recordClosedRow cid f now closedAt) w covered := by
  have hSame := same_addDevice h f.user
  have hRoom : Fits (t.addDevice f.user) w := by
    intro d
    rw [hSame.2]
    exact hFits d
  have hRow := @accounts_closedRow F _ (t.addDevice f.user) cid hSame.1 f w covered hLe hRoom hCovered
    now closedAt (addDevice_idem f.user)
  have hEq : (t.addDevice f.user).recordClosedRow cid f now closedAt =
        t.recordClosedRow cid f now closedAt := by
    unfold recordClosedRow
    simp only
    rw [addDevice_idem]
  rw [hEq] at hRow
  exact hRow.of_held hSame.2 ⟨hRow.exact, fun _ _ => rfl⟩

-- Events

theorem active_le_held (h : Exact t) {conn : Conn F} (hActive : t.active.get cid = some conn)
    (d : Direction) : toRat (conn.total d) ≤ held t everyKey d := by
  have hOne : connWeight everyKey d cid conn ≤
      activeSum t everyKey d := by
    apply Dict.weight_le_total _ hActive
    intro e he
    exact (weigh_le _ (h.active e he d).nonneg).1
  rcases h.sums_nonneg everyKey d with ⟨_, hBanked, hEvicted⟩
  unfold held
  simp only [connWeight, weigh_everyKey] at hOne
  linarith

/- The totals of an UPDATE grow by what it names. -/
theorem updatedTotal_between (h : Exact t) {e : Event F} {w : Direction → ℕ}
    (hLe : ∀ d, e.fields.volume d + e.delta d ≤ w d) (hFits : Fits t w)
    {conn : Conn F} (hActive : t.active.get cid = some conn)
    (d : Direction) :
    Whole (updatedTotal e conn.total d) ∧ toRat (conn.total d) ≤ toRat (updatedTotal e conn.total d) ∧
      toRat (updatedTotal e conn.total d) ≤ toRat (conn.total d) + (w d : ℚ) := by
  have hWhole := h.active _ (Dict.mem_of_get hActive) d
  have hVolume : ∀ d, e.fields.volume d ≤ w d := fun d => (Nat.le_add_right _ _).trans (hLe d)
  have hStays : toRat (conn.total d) ≤ toRat (conn.total d) + (w d : ℚ) :=
    le_add_of_nonneg_right (by positivity)
  unfold updatedTotal
  simp only
  split
  · split
    · exact pyMax_amount h hVolume hFits hWhole d
    · exact ⟨hWhole, le_refl _, hStays⟩
  · have hDelta : ((e.delta d : ℕ) : ℚ) ≤ (w d : ℚ) := by
      exact_mod_cast (Nat.le_add_left _ _).trans (hLe d)
    have hBound := hFits d
    have hHeld := active_le_held h hActive d
    have hOld := hWhole.nonneg
    have hExact : toRat (round ((e.delta d : ℕ) : ℚ) : F) = e.delta d := toRat_round_nat (by linarith)
    have hAdd := add_whole hWhole (⟨_, hExact⟩ : Whole (round ((e.delta d : ℕ) : ℚ) : F))
      (by rw [hExact]; linarith)
    refine ⟨hAdd.2, ?_, ?_⟩
    · rw [hAdd.1, hExact]
      exact le_add_of_nonneg_right (by positivity)
    · rw [hAdd.1, hExact]
      linarith

theorem accounts_applyUpdate (h : Exact t) {e : Event F} {w : Direction → ℕ} {covered : Prop}
    (hLe : ∀ d, e.fields.volume d + e.delta d ≤ w d)
    (hFits : Fits t w) : Accounts t (t.applyUpdate e) w covered := by
  unfold applyUpdate
  cases hId : e.id with
  | none => exact accounts_skip h
  | some cid =>
    simp only [Option.bind_some]
    cases hActive : t.active.get cid with
    | none => exact accounts_skip h
    | some conn =>
      simp only
      split
      · exact accounts_conflict h
      · exact accounts_setActive h hActive (rfl :
            { conn with
              total := updatedTotal e conn.total }.key = conn.key)
          (fun d => updatedTotal_between h hLe hFits hActive d)

theorem closedTotal_between (h : Exact t) {f : Fields F} {w : Direction → ℕ} (hLe : ∀ d, f.volume d ≤ w d)
    (hFits : Fits t w) {conn : Conn F} (hActive : t.active.get cid = some conn)
    (d : Direction) :
    Whole (closedTotal f conn.total d) ∧ toRat (conn.total d) ≤ toRat (closedTotal f conn.total d) ∧
      toRat (closedTotal f conn.total d) ≤ toRat (conn.total d) + (w d : ℚ) := by
  have hWhole := h.active _ (Dict.mem_of_get hActive) d
  unfold closedTotal
  split
  · exact pyMax_amount h hLe hFits hWhole d
  · exact ⟨hWhole, le_refl _, le_add_of_nonneg_right (by positivity)⟩

theorem accounts_closeEvent (hApart : Apart t) (h : Exact t)
    {e : Event F} {w : Direction → ℕ} {covered : Prop}
    (hLe : ∀ d, e.fields.volume d ≤ w d) (hFits : Fits t w)
    {conn : Conn F} (hActive : t.active.get cid = some conn)
    (now : F) : Accounts t (t.closeActive cid conn e now) w covered := by
  have hWhole := h.active _ (Dict.mem_of_get hActive)
  have hNew := ((hApart.ids cid).active conn hActive).1
  have hPlain := fun closedAt : F =>
    @accounts_closeActive F _ t cid h w covered conn conn hActive hNew hFits rfl
      (fun d => ⟨hWhole d, le_refl _, le_add_of_nonneg_right (by positivity)⟩) now closedAt
  unfold closeActive
  simp only
  split
  · exact hPlain _
  · split
    · exact @accounts_closeActive F _ t cid h w covered conn
        { conn with total := closedTotal e.fields conn.total }
        hActive hNew hFits rfl
        (fun d => closedTotal_between h hLe hFits hActive d) now
        _
    · -- only the counter of conflicts differs
      have hClosed := hPlain (orElse e.closedAt e.fields.closedAt)
      have hNodups := hClosed.exact.nodups
      exact hClosed.of_held (fun _ _ => rfl) (exact_of_same hClosed.exact
          ⟨hNodups.active, hNodups.closed, hNodups.finalized, hNodups.banked⟩ rfl rfl rfl rfl)

theorem accounts_applyClosed (hApart : Apart t) (h : Exact t)
    {e : Event F} {w : Direction → ℕ} {covered : Prop}
    (hLe : ∀ d, e.fields.volume d ≤ w d) (hFits : Fits t w)
    (hCovered : covered → ∀ cid, e.id = some cid → e.fields.isEmpty = false → CoversBound t cid e.fields)
    (now : F) : Accounts t (t.applyClosed e now) w covered := by
  unfold applyClosed
  cases hId : e.id with
  | none => exact accounts_skip h
  | some cid =>
    simp only
    cases hActive : t.active.get cid with
    | some conn => exact accounts_closeEvent hApart h hLe hFits hActive now
    | none =>
      simp only
      cases hBanked : t.bankedIds.get cid with
      | none =>
        simp only
        split
        · exact accounts_duplicate h
        · exact accounts_skip h
      | some r =>
        simp only
        split_ifs with hState hEmpty hKey
        · exact accounts_duplicate h
        · exact accounts_of_same h h.nodups rfl rfl rfl rfl
        · exact accounts_conflict h
        · have hAmount := fun d => amount_of_fits h hLe hFits d
          have hAbandoned : r.state = .abandoned := by
            cases hr : r.state with
            | closed => exact absurd hr hState
            | abandoned => rfl
          exact @accounts_replace F _ t cid h w covered r
            { newConnection r.key e.fields with
              closedAt := orElse (toSeconds e.closedAt)
                (orElse (toSeconds e.fields.closedAt) now) }
            hBanked hFits rfl
            (fun d => ⟨(hAmount d).2, by
              change toRat (e.fields.amount d) ≤ _
              rw [(hAmount d).1]
              exact_mod_cast hLe d⟩)
            (fun hYes d => by
              change _ ≤ toRat (e.fields.amount d)
              rw [(hAmount d).1]
              exact hCovered hYes cid hId (Bool.not_eq_true _ ▸ hEmpty) r hBanked
                hAbandoned (not_not.mp hKey) d)
            now _

theorem accounts_applyNew (hApart : Apart t) (h : Exact t) {e : Event F} {w : Direction → ℕ} {covered : Prop}
    (hLe : ∀ d, e.fields.volume d ≤ w d) (hFits : Fits t w)
    (hCovered : covered → isZero (toSeconds e.fields.closedAt) = false →
        CoversBound t (e.id.getD []) e.fields)
    (now : F) : Accounts t (t.applyNew e now) w covered := by
  unfold applyNew
  simp only
  split
  · rename_i hClosed
    apply accounts_recordClosedRow h hLe hFits
    intro hYes
    exact hCovered hYes (by simpa using hClosed)
  · split
    · split
      · exact accounts_skip h
      · exact accounts_upsertActive hApart h hLe hFits
    · exact accounts_skip h

theorem accounts_abandon (hApart : Apart t) (h : Exact t)
    {w : Direction → ℕ} {covered : Prop} (hFits : Fits t w)
    (cid : PyStr) : Accounts t (t.abandon cid) w covered := by
  have hWeight : ∀ d, (0 : ℚ) ≤ (w d : ℚ) := fun d => by positivity
  unfold abandon
  cases hActive : t.active.get cid with
  | none => exact accounts_of_same h h.nodups rfl rfl rfl rfl
  | some conn =>
    simp only
    have hPop := exact_popActive h hActive (t.abandonedOnReset + 1)
    have hBook := @exact_book F _
      { t with
        active := t.active.pop cid
        abandonedOnReset := t.abandonedOnReset + 1 } cid hPop.1
      ((hApart.ids cid).active conn hActive).1
      ⟨conn.key, conn.total, .abandoned⟩
      (h.active _ (Dict.mem_of_get hActive)) (fun d => by
        have hEq := hPop.2 everyKey d
        rw [weigh_everyKey] at hEq
        have hBound := hFits d
        have hNonneg := hWeight d
        change _ + toRat (conn.total d) ≤ _
        linarith)
    refine ⟨hBook.1, ?_, ?_⟩
    · intro d
      rw [hBook.2 everyKey d, hPop.2 everyKey d]
      have hNonneg := hWeight d
      linarith
    · intro _ p d
      rw [hBook.2 p d, hPop.2 p d]
      linarith

-- Moves

theorem accounts_move (hApart : Apart t) (h : Exact t) (m : Move F)
    (hFits : Fits t m.volume) : Accounts t (move t m) m.volume (Covers t m) := by
  cases m with
  | skip => exact accounts_skip h
  | begin =>
    exact accounts_of_same h (h.nodups.of_same rfl rfl rfl rfl) rfl rfl rfl rfl
  | abandon cid => exact accounts_abandon hApart h hFits cid
  | prune now =>
    exact accounts_of_same h (apart_prune hApart now).nodups
      rfl rfl rfl rfl
  | row e now =>
    change Accounts t (t.applyRow e now) _ _
    unfold applyRow
    cases hRow : rowOf e with
    | none => exact accounts_skip h
    | some row =>
      rcases row with ⟨cid, f⟩
      have hLe : ∀ d, f.volume d ≤ eventVolume e d := volume_rowOf hRow
      simp only
      split
      · rename_i hClosed
        apply accounts_recordClosedRow h hLe hFits
        intro hYes
        exact hYes cid f hRow (by simpa using hClosed)
      · exact accounts_upsertActive hApart h hLe hFits
  | event e now =>
    cases e with
    | none => exact accounts_skip h
    | some e =>
      have hLe : ∀ d, e.fields.volume d ≤ (Move.event (some e) now).volume d := fun d => Nat.le_add_right _ _
      change Accounts t (t.applyEvent (some e) now) _ _
      unfold applyEvent
      simp only
      cases hType : e.type with
      | new =>
        apply accounts_applyNew hApart h hLe hFits
        intro hYes
        simpa only [Covers, hType] using hYes
      | update => exact accounts_applyUpdate h (fun d => le_refl _) hFits
      | closed =>
        apply accounts_applyClosed hApart h hLe hFits
        intro hYes
        simpa only [Covers, hType] using hYes
      | unknown => exact accounts_skip h

-- Runs

theorem exact_start (ttl : F) (cap : ℕ) : Exact (Tracker.start ttl cap) := by
  refine ⟨(apart_start ttl cap).nodups, ?_, ?_, ?_, ?_, ?_⟩
  · intro e he
    cases he
  · intro e he
    cases he
  · intro e he
    cases he
  · intro e he
    cases he
  · intro p d
    exact (add_zero 0).symm

theorem held_start (ttl : F) (cap : ℕ) (d : Direction) : held (Tracker.start ttl cap) everyKey d = 0 := by
  unfold held
  change (0 : ℚ) + 0 + 0 = 0
  norm_num

theorem volume_cons (m : Move F) (ms : List (Move F))
    (d : Direction) : volume (m :: ms) d = m.volume d + volume ms d := by
  unfold volume
  rw [List.map_cons, List.sum_cons]

theorem volume_append (ms ms' : List (Move F))
    (d : Direction) : volume (ms ++ ms') d = volume ms d + volume ms' d := by
  unfold volume
  rw [List.map_append, List.sum_append]

theorem Fits.after {m : Move F} {ms : List (Move F)} {covered : Prop} (h : Accounts t u m.volume covered)
    (hFits : Fits t (volume (m :: ms))) : Fits u (volume ms) := by
  intro d
  have hBound := hFits d
  have hMass := h.mass d
  rw [volume_cons] at hBound
  push_cast at hBound
  linarith

theorem Fits.first {m : Move F} {ms : List (Move F)}
    (hFits : Fits t (volume (m :: ms))) : Fits t m.volume := by
  intro d
  have hBound := hFits d
  have hRest : (0 : ℚ) ≤ (volume ms d : ℚ) := by positivity
  rw [volume_cons] at hBound
  push_cast at hBound
  linarith

theorem exact_moves (hApart : Apart t) (h : Exact t) (ms : List (Move F)) (hFits : Fits t (volume ms)) :
    Exact (moves t ms) ∧ ∀ d, held (moves t ms) everyKey d ≤ held t everyKey d + (volume ms d : ℚ) := by
  induction ms generalizing t with
  | nil => exact ⟨h, fun d => le_add_of_nonneg_right (by positivity)⟩
  | cons m rest ih =>
    have hStep := accounts_move hApart h m hFits.first
    have hRest := ih (apart_move hApart m).1 hStep.exact (Fits.after hStep hFits)
    refine ⟨hRest.1, ?_⟩
    intro d
    have hMore := hRest.2 d
    have hMass := hStep.mass d
    rw [volume_cons]
    push_cast
    change held (moves (move t m) rest) everyKey d ≤ _
    linarith

/- Every move of a run covers the bound it replaces. -/
def AllCover (t : Tracker F) : List (Move F) → Prop
  | [] => True
  | m :: rest => Covers t m ∧ AllCover (move t m) rest

instance decidableAllCover :
    (t : Tracker F) → (ms : List (Move F)) → Decidable (AllCover t ms)
  | _, [] => isTrue True.intro
  | t, m :: rest =>
    have := decidableAllCover (move t m) rest
    inferInstanceAs (Decidable (Covers t m ∧ AllCover (move t m) rest))

theorem held_moves (hApart : Apart t) (h : Exact t) (ms : List (Move F)) (hFits : Fits t (volume ms))
    (hCover : AllCover t ms) (p : Key → Bool)
    (d : Direction) : held t p d ≤ held (moves t ms) p d := by
  induction ms generalizing t with
  | nil => exact le_refl _
  | cons m rest ih =>
    have hStep := accounts_move hApart h m hFits.first
    have hRest := ih (apart_move hApart m).1 hStep.exact (Fits.after hStep hFits) hCover.2
    exact (hStep.grows hCover.1 p d).trans hRest

end SingboxOps.Collector
