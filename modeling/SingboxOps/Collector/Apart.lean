import SingboxOps.Collector.Tracker

/-
  An id is in one place, under one key.

  Every move but a prune is about one id: what it does to the
  others is at most to forget their records.  What is left to
  check is the id itself.
-/

namespace SingboxOps.Collector

open Tracker

variable {F : Type} [PyFloat F] {t u v : Tracker F} {cid : PyStr}

-- Invariants

/- The dictionaries have every key once. -/
structure Nodups (t : Tracker F) : Prop where
  active : t.active.keys.Nodup
  closed : t.closed.keys.Nodup
  finalized : t.finalized.keys.Nodup
  banked : t.bankedIds.keys.Nodup

omit [PyFloat F] in
theorem Nodups.of_same (h : Nodups t) (hActive : u.active = t.active) (hClosed : u.closed = t.closed)
    (hFinalized : u.finalized = t.finalized)
    (hBanked : u.bankedIds = t.bankedIds) : Nodups u := by
  refine ⟨?_, ?_, ?_, ?_⟩
  · rw [hActive]
    exact h.active
  · rw [hClosed]
    exact h.closed
  · rw [hFinalized]
    exact h.finalized
  · rw [hBanked]
    exact h.banked

/-
  An active id is neither banked nor shown as closed, and one
  that is both shown and banked has the same key twice.
-/
structure LocalTo (t : Tracker F) (cid : PyStr) : Prop where
  active : ∀ c, t.active.get cid = some c → t.bankedIds.get cid = none ∧ t.closed.get cid = none
  sameKey : ∀ c r, t.closed.get cid = some c → t.bankedIds.get cid = some r → c.key = r.key

structure Apart (t : Tracker F) : Prop where
  nodups : Nodups t
  ids : ∀ cid, LocalTo t cid

/- The traffic of an id is attributed to a key. -/
def Tracks (t : Tracker F) (cid : PyStr) (k : Key) : Prop :=
  (∃ c, t.active.get cid = some c ∧ c.key = k) ∨ ∃ r, t.bankedIds.get cid = some r ∧ r.key = k

/- Nothing but one id changes, records forgotten apart. -/
structure Focus (cid : PyStr) (t u : Tracker F) : Prop where
  nodups : Nodups t → Nodups u
  active : ∀ id, id ≠ cid → u.active.get id = t.active.get id
  closed : ∀ id, id ≠ cid → u.closed.get id = t.closed.get id
  banked : ∀ id r, Nodups t → id ≠ cid → u.bankedIds.get id = some r → t.bankedIds.get id = some r

omit [PyFloat F] in
theorem Focus.trans (h : Focus cid t u) (h' : Focus cid u v) : Focus cid t v where
  nodups hNodups := h'.nodups (h.nodups hNodups)
  active id hId := (h'.active id hId).trans (h.active id hId)
  closed id hId := (h'.closed id hId).trans (h.closed id hId)
  banked id r hNodups hId hGet := h.banked id r hNodups hId (h'.banked id r (h.nodups hNodups) hId hGet)

/- The accounting of the id ends where it should. -/
structure Settles (cid : PyStr) (t u : Tracker F) : Prop where
  focus : Focus cid t u
  ends : LocalTo u cid
  stays : ∀ k k', Tracks t cid k → Tracks u cid k' → k = k'

omit [PyFloat F] in
theorem Settles.apart (h : Settles cid t u) (hApart : Apart t) : Apart u where
  nodups := h.focus.nodups hApart.nodups
  ids id := by
    by_cases hId : id = cid
    · rw [hId]
      exact h.ends
    · have hOld := hApart.ids id
      have hBanked := fun r => h.focus.banked id r hApart.nodups hId
      constructor
      · intro c hc
        rw [h.focus.active id hId] at hc
        have hBoth := hOld.active c hc
        rw [h.focus.closed id hId]
        refine ⟨?_, hBoth.2⟩
        cases hGet : u.bankedIds.get id with
        | none => rfl
        | some r =>
          have hIn := hBanked r hGet
          rw [hBoth.1] at hIn
          cases hIn
      · intro c r hc hr
        rw [h.focus.closed id hId] at hc
        exact hOld.sameKey c r hc (hBanked r hr)

omit [PyFloat F] in
theorem Settles.tracks (h : Settles cid t u) (hApart : Apart t)
    {id : PyStr} {k k' : Key} (hBefore : Tracks t id k)
    (hAfter : Tracks u id k') : k = k' := by
  by_cases hId : id = cid
  · rw [hId] at hBefore hAfter
    exact h.stays k k' hBefore hAfter
  · have hLocal := hApart.ids id
    have hSame : Tracks t id k' := by
      rcases hAfter with ⟨c, hc, hKey⟩ | ⟨r, hr, hKey⟩
      · rw [h.focus.active id hId] at hc
        exact Or.inl ⟨c, hc, hKey⟩
      · exact Or.inr ⟨r, h.focus.banked id r hApart.nodups hId hr, hKey⟩
    rcases hBefore with ⟨c, hc, rfl⟩ | ⟨r, hr, rfl⟩
    · rcases hSame with ⟨c', hc', rfl⟩ | ⟨r', hr', rfl⟩
      · rw [hc] at hc'
        cases hc'
        rfl
      · rw [(hLocal.active c hc).1] at hr'
        cases hr'
    · rcases hSame with ⟨c', hc', rfl⟩ | ⟨r', hr', rfl⟩
      · rw [(hLocal.active c' hc').1] at hr
        cases hr
      · rw [hr] at hr'
        cases hr'
        rfl

-- Parts of a Move

omit [PyFloat F] in
theorem focus_of_same (hActive : u.active = t.active)
    (hClosed : u.closed = t.closed) (hFinalized : u.finalized = t.finalized)
    (hBanked : u.bankedIds = t.bankedIds) : Focus cid t u where
  nodups h := by
    constructor
    · rw [hActive]; exact h.active
    · rw [hClosed]; exact h.closed
    · rw [hFinalized]; exact h.finalized
    · rw [hBanked]; exact h.banked
  active id _ := by rw [hActive]
  closed id _ := by rw [hClosed]
  banked id r _ _ hGet := by rw [hBanked] at hGet; exact hGet

omit [PyFloat F] in
theorem focus_setActive (conn : Conn F) : Focus cid t { t with active := t.active.set cid conn } where
  nodups h := ⟨Dict.nodup_set h.active _ _, h.closed, h.finalized, h.banked⟩
  active id hId := by rw [Dict.get_set, if_neg (fun h => hId h.symm)]
  closed _ _ := rfl
  banked _ _ _ _ hGet := hGet

omit [PyFloat F] in
theorem focus_popActive (count : ℕ) : Focus cid t
      { t with
        active := t.active.pop cid
        abandonedOnReset := count } where
  nodups h := ⟨Dict.nodup_pop h.active _, h.closed, h.finalized, h.banked⟩
  active id hId := by rw [Dict.get_pop, if_neg (fun h => hId h.symm)]
  closed _ _ := rfl
  banked _ _ _ _ hGet := hGet

omit [PyFloat F] in
theorem focus_popClosed : Focus cid t { t with closed := t.closed.pop cid } where
  nodups h := ⟨h.active, Dict.nodup_pop h.closed _, h.finalized, h.banked⟩
  active _ _ := rfl
  closed id hId := by rw [Dict.get_pop, if_neg (fun h => hId h.symm)]
  banked _ _ _ _ hGet := hGet

theorem focus_release (r : Record F) : Focus cid t (t.release cid r) where
  nodups h := ⟨h.active, h.closed, Dict.nodup_set h.finalized _ _, Dict.nodup_pop h.banked _⟩
  active _ _ := rfl
  closed _ _ := rfl
  banked id r' _ hId hGet := by
    change (t.bankedIds.pop cid).get id = some r' at hGet
    rw [Dict.get_pop, if_neg (fun h => hId h.symm)] at hGet
    exact hGet

theorem get_release (r : Record F) : (t.release cid r).bankedIds.get cid = none := by
  change (t.bankedIds.pop cid).get cid = none
  rw [Dict.get_pop, if_pos rfl]

omit [PyFloat F] in
theorem nodup_records (h : Nodups t)
    (r : Record F) : (Dict.keys (t.bankedIds.pop cid ++ [(cid, r)])).Nodup := by
  apply Dict.nodup_append (Dict.nodup_pop h.banked _)
  rw [Dict.get_pop, if_pos rfl]

theorem get_book {r r' : Record F} {id : PyStr} (h : Nodups t)
    (hGet : (t.book cid r).bankedIds.get id = some r') :
    (id = cid ∧ r' = r) ∨ (id ≠ cid ∧ t.bankedIds.get id = some r') := by
  have hMem : (id, r') ∈ t.bankedIds.pop cid ++ [(cid, r)] := List.mem_of_mem_drop (Dict.mem_of_get hGet)
  rcases List.mem_append.mp hMem with hOld | hNew
  · rcases List.mem_filter.mp hOld with ⟨hIn, hNe⟩
    right
    exact ⟨by simpa using hNe, Dict.get_of_mem h.banked hIn⟩
  · left
    have hEq := Prod.mk.inj (List.mem_singleton.mp hNew)
    exact hEq

theorem focus_book (r : Record F) : Focus cid t (t.book cid r) where
  nodups h := ⟨h.active, h.closed, Dict.nodup_set h.finalized _ _,
      (nodup_records h r).sublist ((List.drop_sublist _ _).map Prod.fst)⟩
  active _ _ := rfl
  closed _ _ := rfl
  banked id r' h hId hGet := by
    rcases get_book h hGet with ⟨hEq, _⟩ | ⟨_, hOld⟩
    · exact absurd hEq hId
    · exact hOld

theorem focus_finalize (conn : Conn F)
    (now closedAt : F) : Focus cid t (t.finalize cid conn now closedAt) := by
  let r : Record F := ⟨conn.key, conn.total, .closed⟩
  have hBook : Focus cid t (t.book cid r) := focus_book r
  constructor
  · intro h
    have hBooked := hBook.nodups h
    exact ⟨hBooked.active, Dict.nodup_set h.closed _ _, hBooked.finalized, hBooked.banked⟩
  · exact hBook.active
  · intro id hId
    change (t.closed.set cid _).get id = t.closed.get id
    rw [Dict.get_set, if_neg (fun h => hId h.symm)]
  · exact hBook.banked

/-
  A lifecycle that was not active any more is closed under
  its own key.
-/
theorem settles_finalize {conn : Conn F} {now closedAt : F}
    (hFocus : Focus cid t u) (hNodups : Nodups t) (hActive : u.active.get cid = none)
    (hKey : ∀ k, Tracks t cid k → k = conn.key) :
    Settles cid t (u.finalize cid conn now closedAt) := by
  have hGone : (u.finalize cid conn now closedAt).active.get cid = none := hActive
  have hRecord : ∀ r, (u.finalize cid conn now closedAt).bankedIds.get cid = some r → r.key = conn.key := by
    intro r hGet
    rcases get_book (hFocus.nodups hNodups) hGet with ⟨_, rfl⟩ | ⟨hNe, _⟩
    · rfl
    · exact absurd rfl hNe
  refine ⟨hFocus.trans (focus_finalize conn now closedAt), ⟨?_, ?_⟩, ?_⟩
  · intro c hc
    rw [hGone] at hc
    cases hc
  · intro c r hc hr
    rw [hRecord r hr]
    change (u.closed.set cid _).get cid = some c at hc
    rw [Dict.get_set, if_pos rfl] at hc
    cases hc
    rfl
  · intro k k' hBefore hAfter
    rw [hKey k hBefore]
    rcases hAfter with ⟨c, hc, _⟩ | ⟨r, hr, hEq⟩
    · rw [hGone] at hc
      cases hc
    · rw [← hEq, hRecord r hr]

omit [PyFloat F] in
theorem settles_of_same (hApart : Apart t) (hActive : u.active = t.active) (hClosed : u.closed = t.closed)
    (hFinalized : u.finalized = t.finalized)
    (hBanked : u.bankedIds = t.bankedIds) : Settles cid t u where
  focus := focus_of_same hActive hClosed hFinalized hBanked
  ends := by
    constructor
    · rw [hActive, hClosed, hBanked]
      exact (hApart.ids cid).active
    · rw [hClosed, hBanked]
      exact (hApart.ids cid).sameKey
  stays := by
    intro k k' hBefore hAfter
    rw [Tracks, hActive, hBanked] at hAfter
    rcases hBefore with ⟨c, hc, rfl⟩ | ⟨r, hr, rfl⟩
    · rcases hAfter with ⟨c', hc', rfl⟩ | ⟨r', hr', rfl⟩
      · rw [hc] at hc'
        cases hc'
        rfl
      · rw [((hApart.ids cid).active c hc).1] at hr'
        cases hr'
    · rcases hAfter with ⟨c', hc', rfl⟩ | ⟨r', hr', rfl⟩
      · rw [((hApart.ids cid).active c' hc').1] at hr
        cases hr
      · rw [hr] at hr'
        cases hr'
        rfl

omit [PyFloat F] in
/- The id is active afterwards, under a key it had if any. -/
theorem settles_of_active {conn : Conn F} (hFocus : Focus cid t u) (hActive : u.active.get cid = some conn)
    (hBanked : u.bankedIds.get cid = none) (hClosed : u.closed.get cid = none)
    (hKey : ∀ k, Tracks t cid k → k = conn.key) : Settles cid t u where
  focus := hFocus
  ends := by
    refine ⟨fun _ _ => ⟨hBanked, hClosed⟩, ?_⟩
    intro c r hc _
    rw [hClosed] at hc
    cases hc
  stays := by
    intro k k' hBefore hAfter
    rw [hKey k hBefore]
    rcases hAfter with ⟨c, hc, hEq⟩ | ⟨r, hr, _⟩
    · rw [hActive] at hc
      cases hc
      exact hEq
    · rw [hBanked] at hr
      cases hr

-- The Key of an Id

omit [PyFloat F] in
theorem key_of_active (hApart : Apart t) {c : Conn F} (hActive : t.active.get cid = some c) {k : Key}
    (h : Tracks t cid k) : k = c.key := by
  rcases h with ⟨c', hc', rfl⟩ | ⟨r, hr, rfl⟩
  · rw [hActive] at hc'
    cases hc'
    rfl
  · rw [((hApart.ids cid).active c hActive).1] at hr
    cases hr

omit [PyFloat F] in
theorem key_of_banked (hApart : Apart t) {r : Record F} (hBanked : t.bankedIds.get cid = some r) {k : Key}
    (h : Tracks t cid k) : k = r.key := by
  rcases h with ⟨c, hc, rfl⟩ | ⟨r', hr', rfl⟩
  · rw [((hApart.ids cid).active c hc).1] at hBanked
    cases hBanked
  · rw [hBanked] at hr'
    cases hr'
    rfl

omit [PyFloat F] in
theorem not_tracks (hActive : t.active.get cid = none) (hBanked : t.bankedIds.get cid = none)
    {k : Key} : ¬ Tracks t cid k := by
  rintro (⟨c, hc, _⟩ | ⟨r, hr, _⟩)
  · rw [hActive] at hc
    cases hc
  · rw [hBanked] at hr
    cases hr

omit [PyFloat F] in
theorem active_of_banked (hApart : Apart t) {r : Record F}
    (hBanked : t.bankedIds.get cid = some r) : t.active.get cid = none := by
  cases hActive : t.active.get cid with
  | none => rfl
  | some c =>
    rw [((hApart.ids cid).active c hActive).1] at hBanked
    cases hBanked

-- Moves

omit [PyFloat F] in
theorem focus_addDevice (user : Option PyStr) : Focus cid t (t.addDevice user) :=
  focus_of_same rfl rfl rfl rfl

theorem settles_upsertActive (hApart : Apart t) (f : Fields F) : Settles cid t (t.upsertActive cid f) := by
  unfold upsertActive
  cases hActive : t.active.get cid with
  | some existing =>
    simp only
    split
    · exact settles_of_same hApart rfl rfl rfl rfl
    · have hOld := (hApart.ids cid).active existing hActive
      apply settles_of_active (focus_setActive _) (by rw [Dict.get_set, if_pos rfl]) hOld.1 hOld.2
      intro k hk
      exact key_of_active hApart hActive hk
  | none =>
    simp only
    split
    · exact settles_of_same hApart rfl rfl rfl rfl
    · rename_i hSource
      cases hBanked : t.bankedIds.get cid with
      | none =>
        simp only
        apply settles_of_active ((focus_popClosed.trans (focus_setActive _)).trans (focus_addDevice _))
          (Dict.get_set _ _ _ _ |>.trans (if_pos rfl))
          hBanked
          (Dict.get_pop _ _ _ |>.trans (if_pos rfl))
        intro k hk
        exact absurd hk (not_tracks hActive hBanked)
      | some r =>
        simp only
        apply settles_of_active (((focus_popClosed.trans (focus_release r)).trans
              (focus_setActive _)).trans (focus_addDevice _))
          (Dict.get_set _ _ _ _ |>.trans (if_pos rfl))
          (get_release r)
          (Dict.get_pop _ _ _ |>.trans (if_pos rfl))
        intro k hk
        rw [key_of_banked hApart hBanked hk]
        change r.key = f.rowIdentity
        -- the display agrees with the record it shadows
        cases hClosed : t.closed.get cid with
        | none => simpa [hClosed, hBanked] using hSource
        | some c =>
          rw [← (hApart.ids cid).sameKey c r hClosed hBanked]
          simpa [hClosed] using hSource

omit [PyFloat F] in
theorem Settles.of_same (h : Settles cid u v) (hActive : u.active = t.active) (hClosed : u.closed = t.closed)
    (hFinalized : u.finalized = t.finalized)
    (hBanked : u.bankedIds = t.bankedIds) : Settles cid t v where
  focus := (focus_of_same hActive hClosed hFinalized hBanked).trans h.focus
  ends := h.ends
  stays := by
    intro k k' hBefore
    apply h.stays k k'
    rw [Tracks, hActive, hBanked]
    exact hBefore

theorem settles_closedRow (hApart : Apart t) (f : Fields F) (now closedAt : F)
    (hDevice : t.addDevice f.user = t) :
    Settles cid t (t.recordClosedRow cid f now closedAt) := by
  unfold recordClosedRow
  simp only
  rw [hDevice]
  cases hBanked : t.bankedIds.get cid with
  | some r =>
    simp only
    split
    · exact settles_of_same hApart rfl rfl rfl rfl
    · rename_i hKey
      split
      · have hSame : Focus cid t t.duplicate := focus_of_same rfl rfl rfl rfl
        have hActive := active_of_banked hApart hBanked
        apply settles_finalize (hSame.trans (focus_release r)) hApart.nodups hActive
        intro k hk
        rw [key_of_banked hApart hBanked hk]
        exact not_not.mp hKey
      · exact settles_of_same hApart rfl rfl rfl rfl
  | none =>
    simp only
    split
    · exact settles_of_same hApart rfl rfl rfl rfl
    · cases hActive : t.active.get cid with
      | some conn =>
        simp only
        apply settles_finalize (focus_popActive t.abandonedOnReset) hApart.nodups
          (Dict.get_pop _ _ _ |>.trans (if_pos rfl))
        intro k hk
        exact key_of_active hApart hActive hk
      | none =>
        simp only
        have hSame : Focus cid t t := focus_of_same rfl rfl rfl rfl
        apply settles_finalize hSame hApart.nodups hActive
        intro k hk
        exact absurd hk (not_tracks hActive hBanked)

omit [PyFloat F] in
theorem addDevice_idem (user : Option PyStr) : (t.addDevice user).addDevice user = t.addDevice user := by
  unfold addDevice
  simp only
  congr 1
  by_cases hIn : user ∈ t.devices
  · rw [if_pos hIn, if_pos hIn]
  · rw [if_neg hIn, if_pos (by simp)]

theorem settles_recordClosedRow (hApart : Apart t) (f : Fields F)
    (now closedAt : F) : Settles cid t (t.recordClosedRow cid f now closedAt) := by
  have hSame : Settles cid t (t.addDevice f.user) := settles_of_same hApart rfl rfl rfl rfl
  have hRow := @settles_closedRow F _ (t.addDevice f.user) cid
    (hSame.apart hApart) f now closedAt (addDevice_idem f.user)
  have hEq : (t.addDevice f.user).recordClosedRow cid f now closedAt =
        t.recordClosedRow cid f now closedAt := by
    unfold recordClosedRow
    simp only
    rw [addDevice_idem]
  rw [hEq] at hRow
  exact hRow.of_same rfl rfl rfl rfl

theorem settles_closeActive (hApart : Apart t)
    {conn : Conn F} (hActive : t.active.get cid = some conn) (e : Event F)
    (now : F) : Settles cid t (t.closeActive cid conn e now) := by
  have hKey : ∀ k, Tracks t cid k → k = conn.key := fun k hk => key_of_active hApart hActive hk
  have hGone : (t.active.pop cid).get cid = none := Dict.get_pop _ _ _ |>.trans (if_pos rfl)
  unfold closeActive
  simp only
  split
  · exact settles_finalize (focus_popActive _) hApart.nodups hGone hKey
  · split
    · exact settles_finalize (focus_popActive _) hApart.nodups hGone hKey
    · let popped : Tracker F := { t with active := t.active.pop cid }
      have hFocus : Focus cid t popped := focus_popActive t.abandonedOnReset
      have hSame : Focus cid popped popped.conflict := focus_of_same rfl rfl rfl rfl
      exact settles_finalize (hFocus.trans hSame) hApart.nodups hGone hKey

theorem settles_abandon (hApart : Apart t) (cid : PyStr) : Settles cid t (t.abandon cid) := by
  unfold abandon
  cases hActive : t.active.get cid with
  | none => exact settles_of_same hApart rfl rfl rfl rfl
  | some conn =>
    simp only
    let u : Tracker F := { t with
      active := t.active.pop cid
      abandonedOnReset := t.abandonedOnReset + 1 }
    let r : Record F := ⟨conn.key, conn.total, .abandoned⟩
    have hFocus : Focus cid t u := focus_popActive _
    have hGone : (u.book cid r).active.get cid = none := Dict.get_pop _ _ _ |>.trans (if_pos rfl)
    have hHidden : (u.book cid r).closed.get cid = none := ((hApart.ids cid).active conn hActive).2
    refine ⟨hFocus.trans (focus_book r), ⟨?_, ?_⟩, ?_⟩
    · intro c hc
      rw [hGone] at hc
      cases hc
    · intro c r' hc _
      rw [hHidden] at hc
      cases hc
    · intro k k' hBefore hAfter
      rw [key_of_active hApart hActive hBefore]
      rcases hAfter with ⟨c, hc, _⟩ | ⟨r', hr', rfl⟩
      · rw [hGone] at hc
        cases hc
      · rcases get_book (hFocus.nodups hApart.nodups) hr' with ⟨_, rfl⟩ | ⟨hNe, _⟩
        · rfl
        · exact absurd rfl hNe

theorem settles_applyUpdate (hApart : Apart t) (e : Event F) : ∃ cid, Settles cid t (t.applyUpdate e) := by
  unfold applyUpdate
  cases hId : e.id with
  | none => exact ⟨[], settles_of_same hApart rfl rfl rfl rfl⟩
  | some cid =>
    refine ⟨cid, ?_⟩
    simp only [Option.bind_some]
    cases hActive : t.active.get cid with
    | none => exact settles_of_same hApart rfl rfl rfl rfl
    | some conn =>
      simp only
      split
      · exact settles_of_same hApart rfl rfl rfl rfl
      · have hOld := (hApart.ids cid).active conn hActive
        apply settles_of_active (focus_setActive _) (by rw [Dict.get_set, if_pos rfl]) hOld.1 hOld.2
        intro k hk
        exact key_of_active hApart hActive hk

theorem settles_applyClosed (hApart : Apart t) (e : Event F)
    (now : F) : ∃ cid, Settles cid t (t.applyClosed e now) := by
  unfold applyClosed
  cases hId : e.id with
  | none => exact ⟨[], settles_of_same hApart rfl rfl rfl rfl⟩
  | some cid =>
    refine ⟨cid, ?_⟩
    simp only
    cases hActive : t.active.get cid with
    | some conn => exact settles_closeActive hApart hActive e now
    | none =>
      simp only
      cases hBanked : t.bankedIds.get cid with
      | none =>
        simp only
        split
        · exact settles_of_same hApart rfl rfl rfl rfl
        · exact settles_of_same hApart rfl rfl rfl rfl
      | some r =>
        simp only
        split_ifs
        · exact settles_of_same hApart rfl rfl rfl rfl
        · exact settles_of_same hApart rfl rfl rfl rfl
        · exact settles_of_same hApart rfl rfl rfl rfl
        · apply settles_finalize (focus_release r) hApart.nodups hActive
          intro k hk
          exact key_of_banked hApart hBanked hk

theorem settles_applyNew (hApart : Apart t) (e : Event F)
    (now : F) : ∃ cid, Settles cid t (t.applyNew e now) := by
  unfold applyNew
  simp only
  split
  · exact ⟨_, settles_recordClosedRow hApart _ _ _⟩
  · split
    · split
      · exact ⟨[], settles_of_same hApart rfl rfl rfl rfl⟩
      · exact ⟨_, settles_upsertActive hApart _⟩
    · exact ⟨[], settles_of_same hApart rfl rfl rfl rfl⟩

theorem settles_applyEvent (hApart : Apart t) (e : Option (Event F))
    (now : F) : ∃ cid, Settles cid t (t.applyEvent e now) := by
  cases e with
  | none => exact ⟨[], settles_of_same hApart rfl rfl rfl rfl⟩
  | some e =>
    unfold applyEvent
    simp only
    split
    · exact settles_applyNew hApart e now
    · exact settles_applyUpdate hApart e
    · exact settles_applyClosed hApart e now
    · exact ⟨[], settles_of_same hApart rfl rfl rfl rfl⟩

theorem settles_applyRow (hApart : Apart t) (e : Option (Event F))
    (now : F) : ∃ cid, Settles cid t (t.applyRow e now) := by
  unfold applyRow
  split
  · exact ⟨[], settles_of_same hApart rfl rfl rfl rfl⟩
  · simp only
    split
    · exact ⟨_, settles_recordClosedRow hApart _ _ _⟩
    · exact ⟨_, settles_upsertActive hApart _⟩

theorem get_prune (h : Nodups t) {now : F} {c : Conn F}
    (hGet : (t.prune now).closed.get cid = some c) : t.closed.get cid = some c :=
  Dict.get_of_mem h.closed (List.mem_of_mem_filter (Dict.mem_of_get hGet))

theorem apart_prune (hApart : Apart t) (now : F) : Apart (t.prune now) where
  nodups := ⟨hApart.nodups.active, hApart.nodups.closed.sublist (List.filter_sublist.map Prod.fst),
      hApart.nodups.finalized, hApart.nodups.banked⟩
  ids cid := by
    have hLocal := hApart.ids cid
    constructor
    · intro c hc
      have hOld := hLocal.active c hc
      refine ⟨hOld.1, ?_⟩
      cases hGet : (t.prune now).closed.get cid with
      | none => rfl
      | some c' =>
        have hIn := get_prune hApart.nodups hGet
        rw [hOld.2] at hIn
        cases hIn
    · intro c r hc hr
      exact hLocal.sameKey c r (get_prune hApart.nodups hc) hr

theorem apart_move (hApart : Apart t) (m : Move F) :
    Apart (move t m) ∧ ∀ id k k', Tracks t id k → Tracks (move t m) id k' → k = k' := by
  have hSettled : ∀ {u : Tracker F}, (∃ cid, Settles cid t u) →
        Apart u ∧ ∀ id k k', Tracks t id k → Tracks u id k' → k = k' := by
    rintro u ⟨cid, h⟩
    exact ⟨h.apart hApart, fun id k k' => h.tracks hApart⟩
  cases m with
  | skip => exact hSettled ⟨[], settles_of_same hApart rfl rfl rfl rfl⟩
  | begin => exact hSettled ⟨[], settles_of_same hApart rfl rfl rfl rfl⟩
  | event e now => exact hSettled (settles_applyEvent hApart e now)
  | row e now => exact hSettled (settles_applyRow hApart e now)
  | abandon cid => exact hSettled ⟨cid, settles_abandon hApart cid⟩
  | prune now =>
    refine ⟨apart_prune hApart now, ?_⟩
    intro id k k' hBefore hAfter
    have hSame : Tracks t id k' := hAfter
    rcases hBefore with ⟨c, hc, rfl⟩ | ⟨r, hr, rfl⟩
    · exact (key_of_active hApart hc hSame).symm
    · exact (key_of_banked hApart hr hSame).symm

omit [PyFloat F] in
theorem apart_start (ttl : F) (cap : ℕ) : Apart (Tracker.start ttl cap) where
  nodups := ⟨List.nodup_nil, List.nodup_nil, List.nodup_nil, List.nodup_nil⟩
  ids cid := by
    constructor
    · intro c hc
      cases hc
    · intro c r hc
      cases hc

theorem apart_moves (hApart : Apart t) (ms : List (Move F)) : Apart (moves t ms) := by
  induction ms generalizing t with
  | nil => exact hApart
  | cons m rest ih => exact ih (apart_move hApart m).1

end SingboxOps.Collector
