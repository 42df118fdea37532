import SingboxOps.Collector.Dynamic

/-
  What malformed events do to the collector.

  A state is sound when what it shows has a name and a date.  A
  step is judged for two things at once: that it leaves a sound
  state, whether it raises or not, and that it does not raise
  when every value that is there is of its type.
-/

namespace SingboxOps.DynamicCollector

variable {C : Type} [DecidableEq C] [Objects C]

-- Sound States

/- A text that is not empty. -/
def Value.Named (v : Value C) : Prop := ∃ s, v = .text s ∧ s ≠ []

/- `datetime` has the time. -/
def Number.Showable (x : Number) : Prop := x.showable = true

/- A source is shown only if it is true. -/
def Value.Listed (v : Value C) : Prop := v.truthy = true → v.isText = true

structure ConnOk (c : Conn C) : Prop where
  user : c.user.Named
  inbound : c.inbound.Named
  createdAt : c.createdAt.Showable
  closedAt : c.closedAt.truthy = true → c.closedAt.Showable
  lastSeen : c.lastSeen.Showable
  source : c.source.Listed

structure Sound (t : Tracker C) : Prop where
  active : ∀ e ∈ t.active, e.1.truthy = true ∧ e.1.hashable = true ∧ ConnOk e.2
  closed : ∀ e ∈ t.closed, e.1.truthy = true ∧ ConnOk e.2 ∧ e.2.closedAt.Showable
  finalized : ∀ key ∈ t.finalized, key.1.Named ∧ key.2.Named
  banked : ∀ e ∈ t.bankedIds, e.1.truthy = true ∧ e.2.user.Named ∧ e.2.inbound.Named
  devices : ∀ name ∈ t.devices, name.Named

theorem sound_start (closedTtl : ℚ)
    (bankedIdCap : ℕ) : Sound (Tracker.start closedTtl bankedIdCap : Tracker C) where
  active _ h := (List.not_mem_nil h).elim
  closed _ h := (List.not_mem_nil h).elim
  finalized _ h := (List.not_mem_nil h).elim
  banked _ h := (List.not_mem_nil h).elim
  devices _ h := (List.not_mem_nil h).elim

theorem Value.Named.hashable {v : Value C} (h : v.Named) : v.hashable = true := by
  rcases h with ⟨s, rfl, _⟩
  rfl

theorem Value.Named.isText {v : Value C} (h : v.Named) : v.isText = true := by
  rcases h with ⟨s, rfl, _⟩
  rfl

namespace Sound

variable {t : Tracker C}

theorem addDevice (h : Sound t) {user : Value C} (hUser : user.Named) : Sound (t.addDevice user) := by
  refine ⟨h.active, h.closed, h.finalized, h.banked, ?_⟩
  intro name hName
  unfold Tracker.addDevice at hName
  dsimp only at hName
  split at hName
  · exact h.devices name hName
  · rcases List.mem_append.mp hName with hOld | hNew
    · exact h.devices name hOld
    · rw [List.mem_singleton.mp hNew]
      exact hUser

theorem addSlot (h : Sound t) {key : Value C × Value C} (hUser : key.1.Named)
    (hInbound : key.2.Named) : Sound (t.addSlot key) := by
  refine ⟨h.active, h.closed, ?_, h.banked, h.devices⟩
  intro k hk
  unfold Tracker.addSlot at hk
  dsimp only at hk
  split at hk
  · exact h.finalized k hk
  · rcases List.mem_append.mp hk with hOld | hNew
    · exact h.finalized k hOld
    · rw [List.mem_singleton.mp hNew]
      exact ⟨hUser, hInbound⟩

theorem setActive (h : Sound t)
    {cid : Value C} {conn : Conn C} (hCid : cid.truthy = true) (hKey : cid.hashable = true)
    (hConn : ConnOk conn) : Sound (t.setActive cid conn) := by
  refine ⟨?_, h.closed, h.finalized, h.banked, h.devices⟩
  intro e he
  rcases Dict.mem_set he with hOld | rfl
  · exact h.active e hOld
  · exact ⟨hCid, hKey, hConn⟩

theorem setClosed (h : Sound t)
    {cid : Value C} {conn : Conn C} (hCid : cid.truthy = true) (hConn : ConnOk conn)
    (hClosed : conn.closedAt.Showable) : Sound (t.setClosed cid conn) := by
  refine ⟨h.active, ?_, h.finalized, h.banked, h.devices⟩
  intro e he
  rcases Dict.mem_set he with hOld | rfl
  · exact h.closed e hOld
  · exact ⟨hCid, hConn, hClosed⟩

theorem popActive (h : Sound t) (cid : Value C) : Sound (t.popActive cid) :=
  ⟨fun e he => h.active e (List.mem_of_mem_filter he), h.closed, h.finalized, h.banked, h.devices⟩

theorem popClosed (h : Sound t) (cid : Value C) : Sound (t.popClosed cid) :=
  ⟨h.active, fun e he => h.closed e (List.mem_of_mem_filter he), h.finalized, h.banked, h.devices⟩

theorem popBanked (h : Sound t) (cid : Value C) : Sound (t.popBanked cid) :=
  ⟨h.active, h.closed, h.finalized, fun e he => h.banked e (List.mem_of_mem_filter he), h.devices⟩

theorem setBanked (h : Sound t)
    {cid : Value C} {r : Record C} (hCid : cid.truthy = true) (hUser : r.user.Named)
    (hInbound : r.inbound.Named) : Sound (t.setBanked cid r) := by
  refine ⟨h.active, h.closed, h.finalized, ?_, h.devices⟩
  intro e he
  rcases List.mem_append.mp (List.mem_of_mem_drop he) with
    hOld | hNew
  · exact h.banked e (List.mem_of_mem_filter hOld)
  · rw [List.mem_singleton.mp hNew]
    exact ⟨hCid, hUser, hInbound⟩

theorem skip (h : Sound t) : Sound t.skip := ⟨h.active, h.closed, h.finalized, h.banked, h.devices⟩

theorem duplicate (h : Sound t) : Sound t.duplicate := ⟨h.active, h.closed, h.finalized, h.banked, h.devices⟩

theorem conflict (h : Sound t) : Sound t.conflict := ⟨h.active, h.closed, h.finalized, h.banked, h.devices⟩

theorem prune (h : Sound t) (now : Number) : Sound (t.prune now) :=
  ⟨h.active, fun e he => h.closed e (List.mem_of_mem_filter he), h.finalized, h.banked, h.devices⟩

theorem activeConn (h : Sound t) {cid : Value C} {conn : Conn C} (hGet : t.active.get cid = some conn) :
    cid.truthy = true ∧ cid.hashable = true ∧ ConnOk conn :=
  h.active _ (Dict.mem_of_get hGet)

theorem bankedRecord (h : Sound t) {cid : Value C} {r : Record C} (hGet : t.bankedIds.get cid = some r) :
    cid.truthy = true ∧ r.user.Named ∧ r.inbound.Named :=
  h.banked _ (Dict.mem_of_get hGet)

end Sound

-- Safe Steps

/-
  The step leaves a sound state, and it does not raise if the
  values are of their types.
-/
def Safe {α : Type} (typed : Prop) (t : Tracker C) (x : Step C α) : Prop :=
  Triple (fun _ => True) t x (fun r t' => Sound t' ∧ (typed → ∃ a, r = .ok a))

namespace Safe

variable {α β : Type} {typed : Prop} {t : Tracker C}

theorem pure (h : Sound t) (a : α) : Safe typed t (Pure.pure a : Step C α) :=
  Triple.pure ⟨h, fun _ => ⟨a, rfl⟩⟩

theorem change {f : Tracker C → Tracker C} (h : Sound (f t)) : Safe typed t (Op.change f) :=
  Triple.change trivial ⟨h, fun _ => ⟨(), rfl⟩⟩

theorem bind {x : Step C α} {f : α → Step C β} (hFirst : Safe typed t x)
    (hRest : ∀ a t', Sound t' → Safe typed t' (f a)) : Safe typed t (x >>= f) := by
  refine Triple.bind hFirst (fun a t' h => hRest a t' h.1) ?_
  intro e t' h
  refine ⟨h.1, fun hTyped => ?_⟩
  rcases h.2 hTyped with ⟨a, ha⟩
  exact nomatch ha

theorem change_bind {f : Tracker C → Tracker C} {x : Unit → Step C α}
    (h : Safe typed (f t) (x ())) : Safe typed t (Op.change f >>= x) :=
  Triple.change_bind trivial h

theorem get {f : Tracker C → Step C α} (h : Safe typed t (f t)) : Safe typed t (Op.get >>= f) := Triple.get h

theorem ensure_bind {ok : Bool} {e : PyError} {x : Unit → Step C α}
    (hSound : Sound t) (hTyped : typed → ok = true)
    (hOk : ok = true → Safe typed t (x ())) : Safe typed t (Op.ensure ok e >>= x) := by
  refine Triple.ensure_bind hOk ?_
  intro hFalse
  refine ⟨hSound, fun h => ?_⟩
  exact nomatch hFalse.symm.trans (hTyped h)

theorem ofExcept_bind {x : Except PyError α} {f : α → Step C β}
    (hSound : Sound t) (hTyped : typed → ∃ a, x = .ok a)
    (hOk : ∀ a, x = .ok a → Safe typed t (f a)) : Safe typed t (Op.ofExcept x >>= f) := by
  refine Triple.ofExcept_bind hOk ?_
  intro e hError
  refine ⟨hSound, fun h => ?_⟩
  rcases hTyped h with ⟨a, ha⟩
  exact nomatch hError.symm.trans ha

theorem slot {user inbound : Value C} (h : Sound t) (hUser : user.Named)
    (hInbound : inbound.Named) : Safe typed t (slot user inbound) := by
  refine Safe.ensure_bind h ?_ ?_
  · intro _
    rw [hUser.hashable, hInbound.hashable]
    rfl
  · intro _
    exact Safe.change (h.addSlot hUser hInbound)

theorem recordBanked {cid : Value C} {r : Record C} (h : Sound t) (hCid : cid.truthy = true)
    (hHash : typed → cid.hashable = true) (hUser : r.user.Named)
    (hInbound : r.inbound.Named) : Safe typed t (recordBanked cid r) := by
  refine Safe.ensure_bind h hHash ?_
  intro _
  exact Safe.change (h.setBanked hCid hUser hInbound)

theorem addDevice {user : Value C} (h : Sound t) (hUser : user.Named) : Safe typed t (addDevice user) := by
  refine Safe.ensure_bind h (fun _ => hUser.hashable) ?_
  intro _
  exact Safe.change (h.addDevice hUser)

end Safe

-- Times

theorem Number.Showable.seconds {x : Number} (h : x.Showable) : x.seconds.Showable := by
  cases x with
  | finite q =>
    unfold Number.Showable Number.showable at h ⊢
    unfold Number.seconds
    simp only [Bool.and_eq_true, decide_eq_true_eq] at h ⊢
    split
    · constructor <;> linarith
    · exact h
  | infinite b => exact nomatch h
  | nan => exact nomatch h

theorem Number.Showable.orElse {a b : Number} (ha : a.truthy = true → a.Showable)
    (hb : b.Showable) : (a.orElse b).Showable := by
  unfold Number.orElse
  split
  · rename_i h
    exact ha h
  · exact hb

/- The time is missing, no number, or one `datetime` has. -/
def Dated (v : Value C) : Prop := ∀ x, toSeconds v = .ok x → x.truthy = true → x.Showable

theorem toSeconds_number {x y : Number} (hx : x.Showable) (h : toSeconds (.number x : Value C) = .ok y)
    (hTruthy : y.truthy = true) : y.Showable := by
  unfold toSeconds at h
  split at h
  · cases h
    exact hx.seconds
  · cases h
    exact nomatch hTruthy

-- Fit and Typed Events

/- What a row shows can be shown. -/
structure Row.Dated (f : Row C) : Prop where
  createdAt : DynamicCollector.Dated (value f.createdAt)
  closedAt : DynamicCollector.Dated (value f.closedAt)
  source : (f.source.getD (.text [])).Listed

/- The row has names, which are texts, and can be shown. -/
structure Row.Fit (f : Row C) : Prop where
  user : (value f.user).Named
  inbound : (value f.inbound).Named
  dated : f.Dated

/- The totals and the times that are there are numbers. -/
structure Row.Typed (f : Row C) : Prop where
  createdAt : ∃ x, toSeconds (value f.createdAt) = .ok x
  closedAt : ∃ x, toSeconds (value f.closedAt) = .ok x
  uplinkTotal : ∃ x, amount f.uplinkTotal = .ok x
  downlinkTotal : ∃ x, amount f.downlinkTotal = .ok x

/- A member that is a key can be one. -/
structure Event.Typed (e : Event C) : Prop where
  id : (value e.id).hashable = true
  rowId : e.rowId.hashable = true
  fields : e.fields.Typed
  closedAt : ∃ x, toSeconds (value e.closedAt) = .ok x
  uplinkDelta : ∃ x, amount e.uplinkDelta = .ok x
  downlinkDelta : ∃ x, amount e.downlinkDelta = .ok x

/-
  An event of a plain batch that reaches no defect: a row that
  is taken is fit, and a NEW that is closed already has an id
  and an identity.
-/
def Event.Fit (e : Event C) : Prop := match e.kind with
  | .new =>
    ((value e.id).truthy = true → e.fields.named = true → e.fields.Fit) ∧
    ∀ x, toSeconds (value e.fields.closedAt) = .ok x →
      x.truthy = true → (value e.id).truthy = true ∧ e.fields.named = true
  | .closed => (value e.id).truthy = true → e.fields.Dated ∧ Dated (value e.closedAt)
  | _ => True

/- The same of a row of a reset batch. -/
def Event.RowFit (e : Event C) : Prop := e.rowId.truthy = true → e.fields.named = true → e.fields.Fit

def Batch.Fit (b : Batch C) : Prop := ∀ e, some e ∈ b.events → if b.reset then e.RowFit else e.Fit

def Batch.Typed (b : Batch C) : Prop := ∀ e, some e ∈ b.events → e.Typed

def Call.Fit : Call C → Prop
  | .applyBatch batch now => now.Showable ∧ ∀ b, batch = some b → b.Fit
  | .snapshot _ => True

theorem Row.Typed.totals {f : Row C} (h : f.Typed) : ∃ u, f.totals = .ok u := by
  rcases h.uplinkTotal with ⟨x, hx⟩
  rcases h.downlinkTotal with ⟨y, hy⟩
  refine ⟨(), ?_⟩
  unfold Row.totals
  rw [hx, hy]
  rfl

theorem Row.Typed.newConnection {f : Row C} (h : f.Typed) (key : Value C × Value C)
    (now : Number) : ∃ conn, newConnection key f now = .ok conn := by
  rcases h.createdAt with ⟨x, hx⟩
  rcases h.totals with ⟨u, hu⟩
  unfold DynamicCollector.newConnection
  rw [hx, hu]
  exact ⟨_, rfl⟩

theorem connOk_newConnection {key : Value C × Value C} {f : Row C} {now : Number} {conn : Conn C}
    (hNew : newConnection key f now = .ok conn) (hUser : key.1.Named)
    (hInbound : key.2.Named) (hDated : f.Dated)
    (hNow : now.Showable) : ConnOk conn ∧ conn.user = key.1 ∧ conn.inbound = key.2 := by
  unfold newConnection at hNew
  cases hCreated : toSeconds (value f.createdAt) with
  | error e =>
    rw [hCreated] at hNew
    exact nomatch hNew
  | ok created =>
    cases hTotals : f.totals with
    | error e =>
      rw [hCreated, hTotals] at hNew
      exact nomatch hNew
    | ok u =>
      rw [hCreated, hTotals] at hNew
      cases hNew
      exact ⟨⟨hUser, hInbound, Number.Showable.orElse (hDated.createdAt created hCreated) hNow,
        (fun hTrue => nomatch hTrue), hNow, hDated.source⟩,
        rfl, rfl⟩

theorem toSeconds_number_ok (x : Number) : ∃ y, toSeconds (.number x : Value C) = .ok y := by
  unfold toSeconds
  split <;> exact ⟨_, rfl⟩

theorem Value.Named.elim_member {member : Option (Value C)}
    (h : (value member).Named) : (member.elim (.error .keyError) .ok :
      Except PyError (Value C)) = .ok (value member) := by
  cases member with
  | none =>
    rcases h with ⟨s, hs, _⟩
    exact nomatch hs
  | some v => rfl

-- Rows

section Rows

variable {typed : Prop} {t : Tracker C} {cid : Value C} {f : Row C}
variable {now closedAt : Number}

theorem safe_finalize {conn : Conn C} {closed : Value C} (h : Sound t) (hCid : cid.truthy = true)
    (hHash : typed → cid.hashable = true) (hConn : ConnOk conn)
    (hNow : now.Showable) (hClosed : Dated closed)
    (hTyped : typed → ∃ x, toSeconds closed = .ok x) :
    Safe typed t (finalize cid conn now closed) := by
  refine Safe.ofExcept_bind h hTyped ?_
  intro x hx
  refine Safe.bind (Safe.slot h hConn.user hConn.inbound) ?_
  intro _ t' h'
  refine Safe.bind (Safe.recordBanked h' hCid hHash hConn.user hConn.inbound) ?_
  intro _ t'' h''
  have hShown : (x.orElse (conn.closedAt.orElse now)).Showable :=
    Number.Showable.orElse (hClosed x hx) (Number.Showable.orElse hConn.closedAt hNow)
  exact Safe.change (h''.setClosed hCid
    ⟨hConn.user, hConn.inbound, hConn.createdAt, fun _ => hShown, hNow, hConn.source⟩ hShown)

theorem safe_finalizeNew {key : Value C × Value C} (h : Sound t) (hCid : cid.truthy = true)
    (hHash : typed → cid.hashable = true) (hUser : key.1.Named)
    (hInbound : key.2.Named) (hDated : f.Dated)
    (hTyped : typed → f.Typed) (hNow : now.Showable)
    (hClosed : closedAt.truthy = true → closedAt.Showable) :
    Safe typed t (finalizeNew cid key f now closedAt) := by
  refine Safe.ofExcept_bind h (fun hT => (hTyped hT).newConnection key now) ?_
  intro conn hNew
  rcases connOk_newConnection hNew hUser hInbound hDated hNow with ⟨hConn, _, _⟩
  have hShown : (closedAt.orElse now).Showable := Number.Showable.orElse hClosed hNow
  exact safe_finalize h hCid hHash ⟨hConn.user, hConn.inbound, hConn.createdAt, fun _ => hShown,
      hConn.lastSeen, hConn.source⟩ hNow
    (fun _ hx hTrue => toSeconds_number hShown hx hTrue) (fun _ => toSeconds_number_ok _)

theorem safe_reopen {display : Option (Conn C)} {carried : Option (Record C)}
    (h : Sound t) (hCid : cid.truthy = true)
    (hKey : cid.hashable = true) (hFit : f.Fit)
    (hTyped : typed → f.Typed) (hNow : now.Showable)
    (hDisplay : ∀ d, display = some d → ConnOk d)
    (hCarried : ∀ r, carried = some r → r.user.Named ∧ r.inbound.Named) :
    Safe typed t (reopen cid f now display carried) := by
  refine Safe.change_bind ?_
  have hPopped := (h.popClosed cid).popBanked cid
  refine Safe.ofExcept_bind hPopped (fun _ => ⟨_, hFit.user.elim_member⟩) ?_
  intro user hUser
  rw [hFit.user.elim_member] at hUser
  cases hUser
  refine Safe.ofExcept_bind hPopped (fun _ => ⟨_, hFit.inbound.elim_member⟩) ?_
  intro inbound hInbound
  rw [hFit.inbound.elim_member] at hInbound
  cases hInbound
  refine Safe.ofExcept_bind hPopped (fun hT => (hTyped hT).newConnection _ now) ?_
  intro conn hNew
  rcases connOk_newConnection hNew hFit.user hFit.inbound hFit.dated hNow with ⟨hConn, _, _⟩
  have hSlot : Safe typed ((t.popClosed cid).popBanked cid) (unbank carried) := by
    unfold unbank
    cases hCase : carried with
    | none => exact Safe.pure hPopped ()
    | some r =>
      have hNames := hCarried r hCase
      exact Safe.slot hPopped hNames.1 hNames.2
  refine Safe.bind hSlot ?_
  intro _ t' h'
  refine Safe.change_bind ?_
  refine Safe.addDevice (h'.setActive hCid hKey ⟨hConn.user, hConn.inbound, ?_, hConn.closedAt,
      hConn.lastSeen, hConn.source⟩) hConn.user
  cases hCase : display with
  | none => exact hConn.createdAt
  | some d => exact Number.Showable.orElse (fun _ => (hDisplay d hCase).createdAt) hConn.createdAt

theorem ConnOk.seen {conn : Conn C} (h : ConnOk conn)
    (hNow : now.Showable) : ConnOk { conn with lastSeen := now } :=
  ⟨h.user, h.inbound, h.createdAt, h.closedAt, hNow, h.source⟩

theorem safe_totals_bind {α : Type} {x : Unit → Step C α} (h : Sound t) (hTyped : typed → f.Typed)
    (hRest : Safe typed t (x ())) : Safe typed t (Op.ofExcept f.totals >>= x) :=
  Safe.ofExcept_bind h (fun hT => (hTyped hT).totals) (fun _ _ => hRest)

theorem safe_upsertActive (h : Sound t) (hCid : cid.truthy = true) (hHash : typed → cid.hashable = true)
    (hFit : f.Fit) (hTyped : typed → f.Typed)
    (hNow : now.Showable) : Safe typed t (upsertActive cid f now) := by
  refine Safe.ensure_bind h hHash ?_
  intro hKey
  refine Safe.get ?_
  cases hActive : t.active.get cid with
  | some existing =>
    have hConn := (h.activeConn hActive).2.2.seen hNow
    dsimp only
    split
    · refine safe_totals_bind h hTyped ?_
      exact Safe.change (h.setActive hCid hKey hConn)
    · exact Safe.change (h.setActive hCid hKey hConn).conflict
  | none =>
    dsimp only
    split
    · exact Safe.change h.conflict
    · refine safe_reopen h hCid hKey hFit hTyped hNow ?_ ?_
      · intro d hDisplay
        exact (h.closed _ (Dict.mem_of_get hDisplay)).2.1
      · intro r hCarried
        exact (h.bankedRecord hCarried).2

theorem safe_recordClosedRow (h : Sound t) (hCid : cid.truthy = true) (hHash : typed → cid.hashable = true)
    (hFit : f.Fit) (hTyped : typed → f.Typed) (hNow : now.Showable)
    (hClosed : closedAt.truthy = true → closedAt.Showable) :
    Safe typed t (recordClosedRow cid f now closedAt) := by
  refine Safe.bind (Safe.addDevice h hFit.user) ?_
  intro _ t' h'
  refine Safe.ensure_bind h' hHash ?_
  intro _
  refine Safe.get ?_
  have hFresh : ∀ s, Sound s → Safe typed s (finalizeNew cid f.identity f now closedAt) :=
    fun s hs => safe_finalizeNew hs hCid hHash hFit.user hFit.inbound hFit.dated hTyped hNow hClosed
  cases hBanked : t'.bankedIds.get cid with
  | some r =>
    have hRecord := h'.bankedRecord hBanked
    dsimp only
    split
    · exact Safe.change h'.conflict
    · refine Safe.change_bind ?_
      split
      · refine Safe.change_bind ?_
        refine Safe.bind (Safe.slot (h'.duplicate.popBanked cid) hRecord.2.1 hRecord.2.2) ?_
        intro _ t'' h''
        exact hFresh t'' h''
      · exact Safe.pure h'.duplicate ()
  | none =>
    dsimp only
    split
    · exact Safe.change h'.duplicate
    · cases hActive : t'.active.get cid with
      | none => exact hFresh t' h'
      | some conn =>
        have hConn := (h'.activeConn hActive).2.2
        refine Safe.change_bind ?_
        refine safe_totals_bind (h'.popActive cid) hTyped ?_
        refine safe_finalize (h'.popActive cid) hCid hHash hConn hNow ?_ (fun _ => toSeconds_number_ok _)
        intro x hx hTrue
        by_cases hTruthy : closedAt.truthy = true
        · exact toSeconds_number (hClosed hTruthy) hx hTrue
        · have hZero : toSeconds (.number closedAt : Value C) = .ok (.finite 0) := if_neg hTruthy
          rw [hZero] at hx
          cases hx
          cases hTrue

end Rows

-- Events

section Events

variable {typed : Prop} {t : Tracker C} {e : Event C} {now : Number}

theorem safe_applyNew (h : Sound t) (hKind : e.kind = .new) (hFit : e.Fit) (hTyped : typed → e.Typed)
    (hNow : now.Showable) : Safe typed t (applyNew e now) := by
  unfold Event.Fit at hFit
  rw [hKind] at hFit
  rcases hFit with ⟨hRow, hEarly⟩
  have hFields : typed → e.fields.Typed := fun hT => (hTyped hT).fields
  refine Safe.ofExcept_bind h (fun hT => (hFields hT).closedAt) ?_
  intro closedAt hClosed
  split
  · rename_i hTruthy
    have hCarried := hEarly closedAt hClosed hTruthy
    have hTaken := hRow hCarried.1 hCarried.2
    rw [if_pos hCarried.1]
    exact safe_recordClosedRow h hCarried.1 (fun hT => (hTyped hT).id) hTaken hFields hNow
      (hTaken.dated.closedAt closedAt hClosed)
  · split
    · exact Safe.change h.skip
    · rename_i hId
      split
      · exact Safe.change h.skip
      · rename_i hNamed
        have hIdTrue : (value e.id).truthy = true := by simpa using hId
        have hNamedTrue : e.fields.named = true := by simpa using hNamed
        exact safe_upsertActive h hIdTrue (fun hT => (hTyped hT).id) (hRow hIdTrue hNamedTrue) hFields hNow

theorem safe_applyUpdate (h : Sound t) (hTyped : typed → e.Typed)
    (hNow : now.Showable) : Safe typed t (applyUpdate e now) := by
  refine Safe.ensure_bind h (fun hT => (hTyped hT).id) ?_
  intro _
  refine Safe.get ?_
  cases hActive : t.active.get (value e.id) with
  | none => exact Safe.change h.skip
  | some conn =>
    have hConn := h.activeConn hActive
    have hSeen := hConn.2.2.seen hNow
    dsimp only
    split
    · refine Safe.ofExcept_bind h (fun hT => (hTyped hT).uplinkDelta) ?_
      intro _ _
      refine Safe.ofExcept_bind h (fun hT => (hTyped hT).downlinkDelta) ?_
      intro _ _
      refine safe_totals_bind h (fun hT => (hTyped hT).fields) ?_
      exact Safe.change (h.setActive hConn.1 hConn.2.1 hSeen)
    · exact Safe.change (h.setActive hConn.1 hConn.2.1 hSeen).conflict

theorem safe_closeActive {conn : Conn C} (h : Sound t) (hTyped : typed → e.Typed) (hNow : now.Showable)
    (hId : (value e.id).truthy = true) (hConn : ConnOk conn)
    (hFields : Dated (value e.fields.closedAt))
    (hClosed : Dated (value e.closedAt)) : Safe typed t (closeActive e now conn) := by
  refine Safe.change_bind ?_
  have hPopped := h.popActive (value e.id)
  have hCheck : Safe typed (t.popActive (value e.id)) (closingTotals conn e.fields) := by
    unfold closingTotals
    split
    · refine Triple.ofExcept ⟨hPopped, fun hT => ?_⟩
      exact (hTyped hT).fields.totals
    · exact Safe.change hPopped.conflict
  refine Safe.bind hCheck ?_
  intro _ t' h'
  refine safe_finalize h' hId (fun hT => (hTyped hT).id) hConn hNow ?_ ?_
  · split
    · exact hClosed
    · exact hFields
  · intro hT
    split
    · exact (hTyped hT).closedAt
    · exact (hTyped hT).fields.closedAt

theorem safe_closeAbandoned {r : Record C} (h : Sound t) (hTyped : typed → e.Typed) (hNow : now.Showable)
    (hId : (value e.id).truthy = true) (hUser : r.user.Named)
    (hInbound : r.inbound.Named) (hDated : e.fields.Dated)
    (hClosed : Dated (value e.closedAt)) : Safe typed t (closeAbandoned e now r) := by
  refine Safe.change_bind ?_
  refine Safe.bind (Safe.slot (h.popBanked (value e.id)) hUser hInbound) ?_
  intro _ t' h'
  refine Safe.ofExcept_bind h' (fun hT => (hTyped hT).fields.newConnection _ now) ?_
  intro conn hNew
  rcases connOk_newConnection hNew hUser hInbound hDated hNow with ⟨hConn, _, _⟩
  refine Safe.ofExcept_bind h' (fun hT => (hTyped hT).closedAt) ?_
  intro first hFirst
  refine Safe.ofExcept_bind h' ?_ ?_
  · intro hT
    split
    · exact ⟨first, rfl⟩
    · exact (hTyped hT).fields.closedAt
  · intro second hSecond
    have hTruthy : second.truthy = true → second.Showable := by
      intro hTrue
      split at hSecond
      · cases hSecond
        exact hClosed _ hFirst hTrue
      · exact hDated.closedAt _ hSecond hTrue
    have hShown : (second.orElse now).Showable := Number.Showable.orElse hTruthy hNow
    exact safe_finalize h' hId (fun hT => (hTyped hT).id) ⟨hConn.user, hConn.inbound, hConn.createdAt,
        fun _ => hShown, hConn.lastSeen, hConn.source⟩ hNow
      (fun _ hx hTrue => toSeconds_number hShown hx hTrue)
      (fun _ => toSeconds_number_ok _)

theorem safe_applyClosed (h : Sound t) (hKind : e.kind = .closed) (hFit : e.Fit) (hTyped : typed → e.Typed)
    (hNow : now.Showable) : Safe typed t (applyClosed e now) := by
  unfold Event.Fit at hFit
  rw [hKind] at hFit
  refine Safe.ensure_bind h (fun hT => (hTyped hT).id) ?_
  intro _
  refine Safe.get ?_
  cases hActive : t.active.get (value e.id) with
  | some conn =>
    have hConn := h.activeConn hActive
    have hShown := hFit hConn.1
    exact safe_closeActive h hTyped hNow hConn.1 hConn.2.2 hShown.1.closedAt hShown.2
  | none =>
    cases hBanked : t.bankedIds.get (value e.id) with
    | none =>
      dsimp only
      split
      · exact Safe.change h.duplicate
      · exact Safe.change h.skip
    | some r =>
      have hRecord := h.bankedRecord hBanked
      have hShown := hFit hRecord.1
      dsimp only
      split
      · exact Safe.change h.duplicate
      · split
        · exact Safe.pure h ()
        · split
          · exact Safe.change h.conflict
          · exact safe_closeAbandoned h hTyped hNow hRecord.1 hRecord.2.1 hRecord.2.2 hShown.1 hShown.2

theorem safe_applyEvent {event : Option (Event C)} (h : Sound t) (hFit : ∀ e, event = some e → e.Fit)
    (hTyped : typed → ∀ e, event = some e → e.Typed)
    (hNow : now.Showable) : Safe typed t (applyEvent event now) := by
  cases event with
  | none => exact Safe.change h.skip
  | some e =>
    have hFitE := hFit e rfl
    have hTypedE : typed → e.Typed := fun hT => hTyped hT e rfl
    unfold applyEvent
    dsimp only
    cases hKind : e.kind with
    | new => exact safe_applyNew h hKind hFitE hTypedE hNow
    | update => exact safe_applyUpdate h hTypedE hNow
    | closed => exact safe_applyClosed h hKind hFitE hTypedE hNow
    | unknown => exact Safe.change h.skip

theorem safe_applyRow {event : Option (Event C)} (h : Sound t) (hFit : ∀ e, event = some e → e.RowFit)
    (hTyped : typed → ∀ e, event = some e → e.Typed)
    (hNow : now.Showable) : Safe typed t (applyRow event now) := by
  cases event with
  | none => exact Safe.change_bind (Safe.pure h.skip none)
  | some e =>
    have hTypedE : typed → e.Typed := fun hT => hTyped hT e rfl
    unfold applyRow
    dsimp only
    split
    · exact Safe.change_bind (Safe.pure h.skip none)
    · rename_i hTaken
      have hBoth : e.rowId.truthy = true ∧ e.fields.named = true := by
        simpa using hTaken
      have hRow := hFit e rfl hBoth.1 hBoth.2
      refine Safe.ensure_bind h (fun hT => (hTypedE hT).rowId) ?_
      intro _
      have hTake : Safe typed t (takeRow e.rowId e.fields now) := by
        refine Safe.ofExcept_bind h (fun hT => (hTypedE hT).fields.closedAt) ?_
        intro closedAt hClosed
        split
        · exact safe_recordClosedRow h hBoth.1 (fun hT => (hTypedE hT).rowId) hRow
            (fun hT => (hTypedE hT).fields) hNow
            (hRow.dated.closedAt closedAt hClosed)
        · exact safe_upsertActive h hBoth.1 (fun hT => (hTypedE hT).rowId) hRow
            (fun hT => (hTypedE hT).fields) hNow
      exact Safe.bind hTake (fun _ t' h' => Safe.pure h' (some e.rowId))

end Events

end SingboxOps.DynamicCollector
