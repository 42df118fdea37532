import SingboxOps.WebAuth.Sessions

/-
  The life of a session and of its step-up window.

  A session that has ended is gone or has expired: nothing moves
  the deadlines of one that has expired, and a token is issued
  once.
-/

namespace SingboxOps.WebAuth

variable {T R S : Type} [LinearOrder T] [Add T] [Sub T] [NatCast T]

-- Answers and Guards

/- The answer takes the session of the request for a live one. -/
def confirms : Answer T → Bool
  | .session (some _) => true
  | .remaining (some _) => true
  | .expiry (some _) => true
  | .credentials true _ => true
  | _ => false

/- The session a request is about. -/
def Input.token? : Input T S → Option PyStr
  | .resolve token _ => some token
  | .activity token _ => some token
  | .grantStepUp token _ _ => some token
  | .stepUpCredentials token _ => some token
  | _ => none

/- The clock does not go back; a random token is a new one. -/
def Guard (s : Store T R) : Input T S → Prop
  | .create _ _ now => s.clock ≤ now
  | .createInsert i => ∀ p, s.pending[i]? = some p → p.1 ∉ s.used
  | .login _ _ _ now => s.clock ≤ now
  | .loginInsert => ∀ token r, s.holder = .login token r → token ∉ s.used
  | .resolve _ now => s.clock ≤ now
  | .activity _ now => s.clock ≤ now
  | .grantStepUp _ _ now => s.clock ≤ now
  | .stepUpCredentials _ now => s.clock ≤ now
  | _ => True

-- The Invariant

/- No deadline is beyond the absolute one. -/
structure Session.Bounded (r : Session T) : Prop where
  idle : r.idleExpires ≤ r.expires
  stepUp : ∀ e, r.stepUpExpires = some e → e ≤ r.expires

/- The fingerprint is of the latest grant, if there is one. -/
def GrantOk (cfg : Settings T) (token : PyStr) (r : Session T) : Option T → Prop
  | some granted => r.stepupFp = some (cfg.fingerprint token granted)
  | none => r.stepUpExpires = none

/- A session of the store. -/
structure SessionOk (cfg : Settings T) (s : Store T R) (token : PyStr) (r : Session T) : Prop where
  used : token ∈ s.used
  dead : token ∈ s.ended → r.expired s.clock = true
  bounded : r.Bounded
  grant : GrantOk cfg token r (s.grants.get token)
  born : s.settled ≤ r.born

/- A session that was made and is not in yet. -/
structure Made (cfg : Settings T) (token : PyStr) (r : Session T) : Prop where
  bounded : r.Bounded
  grant : GrantOk cfg token r r.stepUpGrantedAt

structure Inv (cfg : Settings T) (s : Store T R) : Prop where
  sessions : ∀ token r, s.sessions.get token = some r → SessionOk cfg s token r
  grants : ∀ token granted, s.grants.get token = some granted → token ∈ s.used
  ended : ∀ token ∈ s.ended, token ∈ s.used
  pending : ∀ p ∈ s.pending, Made cfg p.1 p.2
  login : ∀ token r, s.holder = .login token r → Made cfg token r ∧ r.born = s.root
  root : s.settled ≤ s.root

variable {cfg : Settings T} {scrypt : Scrypt R S} {s : Store T R}

theorem newSession_made (cfg : Settings T) (token csrf : PyStr) (now : T) (verified : Bool)
    (born : ℕ) : Made cfg token (newSession cfg token csrf now verified born) := by
  cases verified with
  | true =>
    refine ⟨⟨min_le_right _ _, ?_⟩, rfl⟩
    intro e he
    exact (Option.some.inj he).ge
  | false => exact ⟨⟨min_le_right _ _, (fun _ he => nomatch he)⟩, rfl⟩

theorem Session.Bounded.renew {r : Session T} (h : r.Bounded) (cfg : Settings T)
    (now : T) : (r.renew cfg now).Bounded :=
  ⟨min_le_right _ _, h.stepUp⟩

theorem Session.Bounded.grant {r : Session T} (h : r.Bounded) (cfg : Settings T) (token : PyStr)
    (now ttl : T) : (r.grant cfg token now ttl).Bounded := by
  refine ⟨h.idle, ?_⟩
  intro e he
  rw [← Option.some.inj he]
  exact min_le_right _ _

theorem live_eq_some {token : PyStr} {now : T} {r : Session T} (h : s.live token now = some r) :
    s.sessions.get token = some r ∧ r.expired now = false := by
  unfold Store.live at h
  rcases Option.filter_eq_some_iff.mp h with ⟨hGet, hLive⟩
  exact ⟨hGet, by simpa using hLive⟩

theorem expired_mono {r : Session T} {now later : T} (h : r.expired now = true)
    (hLe : now ≤ later) : r.expired later = true :=
  decide_eq_true ((of_decide_eq_true h).trans hLe)

-- What Each Change Preserves

namespace Inv

theorem start (cfg : Settings T) (disk : Option R × Option R)
    (clock : T) : Inv cfg (Store.start disk clock) where
  sessions _ _ h := (Option.some_ne_none _ h.symm).elim
  grants _ _ h := (Option.some_ne_none _ h.symm).elim
  ended _ h := (List.not_mem_nil h).elim
  pending _ h := (List.not_mem_nil h).elim
  login _ _ h := nomatch h
  root := Nat.le_refl 0

theorem mem_expiredTokens {token : PyStr} {now : T} (h : token ∈ s.expiredTokens now) :
    ∃ r, s.sessions.get token = some r ∧ r.expired now = true := by
  have hAny := (List.mem_filter.mp h).2
  exact (Option.any_eq_true_iff_get _ _).mp hAny |> fun hGet => by
    rcases hGet with ⟨hSome, hExpired⟩
    exact ⟨_, (Option.some_get hSome).symm, hExpired⟩

theorem advance (h : Inv cfg s) {now : T} (hLe : s.clock ≤ now) : Inv cfg (s.advance now) where
  sessions token r hGet := by
    have hOk := h.sessions token r hGet
    refine ⟨hOk.used, ?_, hOk.bounded, hOk.grant, hOk.born⟩
    intro hEnded
    rcases List.mem_append.mp hEnded with hNow | hBefore
    · rcases mem_expiredTokens hNow with ⟨r', hGet', hExpired⟩
      rw [Option.some.inj (hGet.symm.trans hGet')]
      exact hExpired
    · exact expired_mono (hOk.dead hBefore) hLe
  grants := h.grants
  ended token hEnded := by
    rcases List.mem_append.mp hEnded with hNow | hBefore
    · rcases mem_expiredTokens hNow with ⟨r, hGet, -⟩
      exact (h.sessions token r hGet).used
    · exact h.ended token hBefore
  pending := h.pending
  login := h.login
  root := h.root

theorem remove (h : Inv cfg s) (token : PyStr) : Inv cfg (s.remove token) := by
  have hEnded : ∀ other ∈ (s.remove token).ended,
        other ∈ s.ended ∨ (other = token ∧ (s.sessions.get token).isSome) := by
    intro other hMem
    change other ∈ ite _ _ _ at hMem
    split at hMem
    · rename_i hSome
      rcases List.mem_cons.mp hMem with hNew | hOld
      · exact .inr ⟨hNew, hSome⟩
      · exact .inl hOld
    · exact .inl hMem
  refine ⟨?_, h.grants, ?_, h.pending, h.login, h.root⟩
  · intro other r hGet
    change (s.sessions.pop token).get other = some r at hGet
    rw [Dict.get_pop] at hGet
    split at hGet
    · cases hGet
    · rename_i hNe
      have hOk := h.sessions other r hGet
      refine ⟨hOk.used, ?_, hOk.bounded, hOk.grant, hOk.born⟩
      intro hMem
      rcases hEnded other hMem with hOld | ⟨hSame, -⟩
      · exact hOk.dead hOld
      · exact (hNe hSame.symm).elim
  · intro other hMem
    rcases hEnded other hMem with hOld | ⟨rfl, hSome⟩
    · exact h.ended other hOld
    · rcases Option.isSome_iff_exists.mp hSome with ⟨r, hGet⟩
      exact (h.sessions other r hGet).used

theorem renew (h : Inv cfg s) {token : PyStr} {r : Session T} (hGet : s.sessions.get token = some r)
    (hLive : r.expired s.clock = false)
    (now : T) : Inv cfg (s.put token (r.renew cfg now)) := by
  refine ⟨?_, h.grants, h.ended, h.pending, h.login, h.root⟩
  intro other r' hGet'
  change (s.sessions.set token _).get other = some r' at hGet'
  rw [Dict.get_set] at hGet'
  split at hGet'
  · rename_i hSame
    rw [← hSame, ← Option.some.inj hGet']
    have hOk := h.sessions token r hGet
    refine ⟨hOk.used, ?_, hOk.bounded.renew cfg now, ?_, hOk.born⟩
    · intro hEnded
      rw [hOk.dead hEnded] at hLive
      exact Bool.noConfusion hLive
    · have hGrant := hOk.grant
      change GrantOk cfg token _ (s.grants.get token)
      cases hLatest : s.grants.get token with
      | none =>
        rw [hLatest] at hGrant
        exact hGrant
      | some granted =>
        rw [hLatest] at hGrant
        exact hGrant
  · have hOk := h.sessions other r' hGet'
    exact ⟨hOk.used, hOk.dead, hOk.bounded, hOk.grant, hOk.born⟩

theorem grant (h : Inv cfg s) {token : PyStr} {r : Session T} (hGet : s.sessions.get token = some r)
    (hLive : r.expired s.clock = false)
    (now ttl : T) : Inv cfg
      { s.put token (r.grant cfg token now ttl) with
        grants := s.grants.set token now } := by
  have hTokenOk := h.sessions token r hGet
  refine ⟨?_, ?_, h.ended, h.pending, h.login, h.root⟩
  · intro other r' hGet'
    change (s.sessions.set token _).get other = some r' at hGet'
    rw [Dict.get_set] at hGet'
    split at hGet'
    · rename_i hSame
      rw [← hSame, ← Option.some.inj hGet']
      refine ⟨hTokenOk.used, ?_, hTokenOk.bounded.grant cfg token now ttl, ?_, hTokenOk.born⟩
      · intro hEnded
        rw [hTokenOk.dead hEnded] at hLive
        exact Bool.noConfusion hLive
      · change GrantOk cfg token _ ((s.grants.set token now).get token)
        rw [Dict.get_set, if_pos rfl]
        rfl
    · rename_i hNe
      have hOk := h.sessions other r' hGet'
      refine ⟨hOk.used, hOk.dead, hOk.bounded, ?_, hOk.born⟩
      change GrantOk cfg other r' ((s.grants.set token now).get other)
      rw [Dict.get_set, if_neg hNe]
      exact hOk.grant
  · intro other granted hGet'
    change (s.grants.set token now).get other = some granted at hGet'
    rw [Dict.get_set] at hGet'
    split at hGet'
    · rename_i hSame
      rw [← hSame]
      exact hTokenOk.used
    · exact h.grants other granted hGet'

theorem insert (h : Inv cfg s)
    {token : PyStr} {r : Session T} (hNew : token ∉ s.used) (hMade : Made cfg token r)
    (hBorn : s.settled ≤ r.born) : Inv cfg (s.insert token r) := by
  have hNone : s.grants.get token = none := by
    cases hGrant : s.grants.get token with
    | none => rfl
    | some granted => exact (hNew (h.grants token granted hGrant)).elim
  have hOther : ∀ other, token ≠ other → (s.insert token r).grants.get other = s.grants.get other := by
    intro other hNe
    unfold Store.insert
    cases r.stepUpGrantedAt with
    | none => rfl
    | some granted =>
      dsimp only
      rw [Dict.get_set, if_neg hNe]
  have hSelf : (s.insert token r).grants.get token = r.stepUpGrantedAt := by
    unfold Store.insert
    cases r.stepUpGrantedAt with
    | none => exact hNone
    | some granted =>
      dsimp only
      rw [Dict.get_set, if_pos rfl]
  refine ⟨?_, ?_, ?_, h.pending, h.login, h.root⟩
  · intro other r' hGet
    change (s.sessions.set token r).get other = some r' at hGet
    rw [Dict.get_set] at hGet
    split at hGet
    · rename_i hSame
      rw [← hSame, ← Option.some.inj hGet]
      refine ⟨List.mem_cons_self, ?_, hMade.bounded, ?_, hBorn⟩
      · intro hEnded
        exact (hNew (h.ended token hEnded)).elim
      · rw [hSelf]
        exact hMade.grant
    · rename_i hNe
      have hOk := h.sessions other r' hGet
      refine ⟨List.mem_cons_of_mem _ hOk.used, hOk.dead, hOk.bounded, ?_, hOk.born⟩
      rw [hOther other hNe]
      exact hOk.grant
  · intro other granted hGet
    by_cases hSame : token = other
    · rw [← hSame]
      exact List.mem_cons_self
    · rw [hOther other hSame] at hGet
      exact List.mem_cons_of_mem _ (h.grants other granted hGet)
  · intro other hEnded
    exact List.mem_cons_of_mem _ (h.ended other hEnded)

theorem revokeAll (h : Inv cfg s) : Inv cfg
      { s with
        sessions := s.sessions.mapValues Session.revoke
        grants := [] } := by
  refine ⟨?_, (fun _ _ hGet => nomatch hGet), h.ended, h.pending, h.login, h.root⟩
  intro token r hGet
  rw [Dict.get_mapValues] at hGet
  rcases Option.map_eq_some_iff.mp hGet with ⟨old, hOld, rfl⟩
  have hOk := h.sessions token old hOld
  exact ⟨hOk.used, hOk.dead, ⟨hOk.bounded.idle, (fun _ he => nomatch he)⟩, rfl, hOk.born⟩

theorem get_dropAll {except : Option PyStr} {token : PyStr} {r : Session T}
    (h : (s.dropAll except).sessions.get token = some r) :
    s.sessions.get token = some r ∧ except = some token := by
  unfold Store.dropAll at h
  dsimp only at h
  cases except with
  | none => exact nomatch h
  | some spared =>
    cases hGet : s.sessions.get spared with
    | none =>
      rw [Option.bind_some, hGet] at h
      exact nomatch h
    | some kept =>
      rw [Option.bind_some, hGet] at h
      change (if spared = token then some kept else none) = some r at h
      split at h
      · rename_i hSame
        rw [← hSame, hGet]
        exact ⟨h, rfl⟩
      · exact nomatch h

theorem dropAll (h : Inv cfg s) (except : Option PyStr) : Inv cfg (s.dropAll except) := by
  refine ⟨?_, h.grants, ?_, h.pending, h.login, h.root⟩
  · intro token r hGet
    rcases get_dropAll hGet with ⟨hOld, hSpared⟩
    have hOk := h.sessions token r hOld
    refine ⟨hOk.used, ?_, hOk.bounded, hOk.grant, hOk.born⟩
    intro hEnded
    rcases List.mem_append.mp hEnded with hNow | hBefore
    · exact (of_decide_eq_true (List.mem_filter.mp hNow).2 hSpared.symm).elim
    · exact hOk.dead hBefore
  · intro token hEnded
    rcases List.mem_append.mp hEnded with hNow | hBefore
    · have hKey := (List.mem_filter.mp hNow).1
      cases hGet : s.sessions.get token with
      | none => exact (Dict.get_eq_none_iff.mp hGet hKey).elim
      | some r => exact (h.sessions token r hGet).used
    · exact h.ended token hBefore

theorem root_step (h : Inv cfg s) (written : Bool)
    (password recovery : Option R) : Inv cfg (stepRoot s written password recovery).2 := by
  unfold stepRoot
  split
  · split
    · exact ⟨fun token r hGet =>
          let hOk := h.sessions token r hGet
          ⟨hOk.used, hOk.dead, hOk.bounded, hOk.grant, hOk.born⟩,
        h.grants, h.ended, h.pending,
        (fun _ _ hHolder => nomatch hHolder),
        Nat.le_succ_of_le h.root⟩
    · exact h
  · exact h

theorem hold (h : Inv cfg s) (holder : Holder T) (pending : List (PyStr × Session T))
    (hPending : ∀ p ∈ pending, Made cfg p.1 p.2)
    (hLogin : ∀ token r, holder = .login token r → Made cfg token r ∧ r.born = s.root) :
    Inv cfg { s with holder := holder, pending := pending } :=
  ⟨fun token r hGet =>
      let hOk := h.sessions token r hGet
      ⟨hOk.used, hOk.dead, hOk.bounded, hOk.grant, hOk.born⟩,
    h.grants, h.ended, hPending, hLogin, h.root⟩

theorem login_step (h : Inv cfg s) (password token csrf : PyStr) {now : T}
    (hLe : s.clock ≤ now) : Inv cfg (stepLogin cfg scrypt s password token csrf now).2 := by
  unfold stepLogin
  split
  · split
    · exact h
    · split
      · refine (h.advance hLe).hold _ _ h.pending ?_
        intro other r hHolder
        cases hHolder
        exact ⟨newSession_made cfg token csrf now true s.root, rfl⟩
      · exact h
  · exact h

theorem resolve_step (h : Inv cfg s) (token : PyStr) (now : T) : Inv cfg (stepResolve s token now).2 := by
  unfold stepResolve
  split
  · exact h
  · exact h.remove token

theorem activity_step (h : Inv cfg s) (token : PyStr) : Inv cfg (stepActivity cfg s token s.clock).2 := by
  unfold stepActivity
  split
  · rename_i r hLive
    rcases live_eq_some hLive with ⟨hGet, hNow⟩
    exact h.renew hGet hNow s.clock
  · exact h.remove token

theorem grant_step (h : Inv cfg s) (token : PyStr)
    (ttl : Option T) : Inv cfg (stepGrant cfg s token ttl s.clock).2 := by
  unfold stepGrant
  split
  · rename_i r hLive
    rcases live_eq_some hLive with ⟨hGet, hNow⟩
    exact h.grant hGet hNow s.clock _
  · exact h

theorem credentials_step (h : Inv cfg s) (token : PyStr)
    (now : T) : Inv cfg (stepCredentials s token now).2 := by
  unfold stepCredentials
  split
  · split
    · split
      · exact h
      · exact h
    · exact h
  · exact h

theorem step (h : Inv cfg s) (input : Input T S)
    (hGuard : Guard s input) : Inv cfg (step cfg scrypt s input).2 := by
  cases input with
  | create token csrf now =>
    refine (h.advance hGuard).hold _ _ ?_ h.login
    intro p hp
    rcases List.mem_append.mp hp with hOld | hNew
    · exact h.pending p hOld
    · rw [List.mem_singleton.mp hNew]
      exact newSession_made cfg token csrf now false 0
  | createInsert i =>
    cases hPending : s.pending[i]? with
    | none =>
      dsimp only [WebAuth.step]
      rw [hPending]
      exact h
    | some p =>
      rcases p with ⟨token, r⟩
      have hMade := h.pending (token, r) (List.mem_of_getElem? hPending)
      have hRest := h.hold _ (s.pending.eraseIdx i) (fun p hp => h.pending p (List.mem_of_mem_eraseIdx hp))
          h.login
      dsimp only [WebAuth.step]
      rw [hPending]
      exact hRest.insert (hGuard _ hPending) ⟨⟨hMade.bounded.idle, hMade.bounded.stepUp⟩, by
          have hGrant := hMade.grant
          revert hGrant
          unfold GrantOk
          cases r.stepUpGrantedAt <;> exact id⟩
        h.root
  | login password token csrf now => exact h.login_step password token csrf hGuard
  | loginInsert =>
    dsimp only [WebAuth.step]
    cases hHolder : s.holder with
    | free => exact h
    | rootChange => exact h
    | login token r =>
      rcases h.login token r hHolder with ⟨hMade, hBorn⟩
      have hRest := h.hold .free _ h.pending (fun _ _ hFree => nomatch hFree)
      refine hRest.insert (hGuard token r hHolder) hMade ?_
      rw [hBorn]
      exact h.root
  | resolve token now => exact (h.advance hGuard).resolve_step token now
  | activity token now => exact (h.advance hGuard).activity_step token
  | grantStepUp token ttl now => exact (h.advance hGuard).grant_step token ttl
  | stepUpCredentials token now => exact (h.advance hGuard).credentials_step token now
  | revokeAllStepUps => exact h.revokeAll
  | drop token => exact h.remove token
  | dropAll except => exact h.dropAll except
  | setPassword password salt written =>
    dsimp only [WebAuth.step]
    split
    · exact h
    · exact h.root_step written _ _
  | setRecoveryKey key salt written => exact h.root_step written _ _
  | rootDropAll =>
    dsimp only [WebAuth.step]
    cases s.holder with
    | free => exact h
    | login token r => exact h
    | rootChange =>
      have hGone := h.dropAll none
      refine ⟨?_, hGone.grants, hGone.ended, hGone.pending, (fun _ _ hFree => nomatch hFree), Nat.le_refl _⟩
      intro token r hGet
      have hKept : (s.dropAll none).sessions.get token = some r := hGet
      have hSpared := (get_dropAll hKept).2
      exact nomatch hSpared

end Inv

-- The Life of a Session

/-
  What one request of a run meets.  The state `s'` is the one
  after it, whose clock it has read.
-/
structure RequestLaw (cfg : Settings T) (s s' : Store T R) (input : Input T S)
    (answer : Answer T) : Prop where
  kept : ∀ token ∈ s.ended, token ∈ s'.ended
  confirmed : ∀ token, input.token? = some token → confirms answer = true → token ∉ s'.ended ∧
          ∃ r, s.sessions.get token = some r ∧ r.expired s'.clock = false ∧ s.settled ≤ r.born
  credentials : ∀ token now, input = .stepUpCredentials token now →
      ∀ fp, answer = .credentials true fp → ∃ granted, s.grants.get token = some granted ∧
          fp = some (cfg.fingerprint token granted)
  failed : answer = .failed → s' = s

/- Every deadline of a session is within its absolute one. -/
def DeadlineLaw (s : Store T R) : Prop := ∀ token r, s.sessions.get token = some r → r.Bounded

theorem Inv.not_ended (h : Inv cfg s) {token : PyStr} {r : Session T}
    (hLive : s.live token s.clock = some r) :
    token ∉ s.ended ∧ s.sessions.get token = some r ∧ r.expired s.clock = false ∧ s.settled ≤ r.born := by
  rcases live_eq_some hLive with ⟨hGet, hNow⟩
  have hOk := h.sessions token r hGet
  refine ⟨?_, hGet, hNow, hOk.born⟩
  intro hEnded
  rw [hOk.dead hEnded] at hNow
  exact Bool.noConfusion hNow

theorem ended_remove (token : PyStr) : s.ended ⊆ (s.remove token).ended := by
  intro other hMem
  change other ∈ ite _ _ _
  split
  · exact List.mem_cons_of_mem _ hMem
  · exact hMem

theorem ended_step (input : Input T S) : s.ended ⊆ (step cfg scrypt s input).2.ended := by
  have hAdvance : ∀ now : T, s.ended ⊆ (s.advance now).ended := fun _ _ hMem => List.mem_append_right _ hMem
  have hDropAll : ∀ except, s.ended ⊆ (s.dropAll except).ended := fun _ _ hMem => List.mem_append_right _ hMem
  have hRoot : ∀ written (password recovery : Option R),
        s.ended ⊆ (stepRoot (T := T) s written password recovery).2.ended := by
    intro written password recovery
    unfold stepRoot
    split
    · split <;> exact fun _ hMem => hMem
    · exact fun _ hMem => hMem
  cases input with
  | create token csrf now => exact hAdvance now
  | createInsert i =>
    dsimp only [WebAuth.step]
    cases s.pending[i]? with
    | none => exact fun _ hMem => hMem
    | some p => exact fun _ hMem => hMem
  | login password token csrf now =>
    dsimp only [WebAuth.step]
    unfold stepLogin
    split
    · split
      · exact fun _ hMem => hMem
      · split
        · exact hAdvance now
        · exact fun _ hMem => hMem
    · exact fun _ hMem => hMem
  | loginInsert =>
    dsimp only [WebAuth.step]
    cases s.holder <;> exact fun _ hMem => hMem
  | resolve token now =>
    dsimp only [WebAuth.step]
    unfold stepResolve
    split
    · exact hAdvance now
    · exact List.Subset.trans (hAdvance now) (ended_remove token)
  | activity token now =>
    dsimp only [WebAuth.step]
    unfold stepActivity
    split
    · exact hAdvance now
    · exact List.Subset.trans (hAdvance now) (ended_remove token)
  | grantStepUp token ttl now =>
    dsimp only [WebAuth.step]
    unfold stepGrant
    split <;> exact hAdvance now
  | stepUpCredentials token now =>
    dsimp only [WebAuth.step]
    unfold stepCredentials
    split
    · split
      · split <;> exact hAdvance now
      · exact hAdvance now
    · exact hAdvance now
  | revokeAllStepUps => exact fun _ hMem => hMem
  | drop token => exact ended_remove token
  | dropAll except => exact hDropAll except
  | setPassword password salt written =>
    dsimp only [WebAuth.step]
    split
    · exact fun _ hMem => hMem
    · exact hRoot written _ _
  | setRecoveryKey key salt written => exact hRoot written _ _
  | rootDropAll =>
    dsimp only [WebAuth.step]
    cases s.holder with
    | free => exact fun _ hMem => hMem
    | login token r => exact fun _ hMem => hMem
    | rootChange => exact hDropAll none

theorem Inv.confirmed_step (h : Inv cfg s) {input : Input T S} (hGuard : Guard s input) {token : PyStr}
    (hToken : input.token? = some token)
    (hAnswer : confirms (WebAuth.step cfg scrypt s input).1 = true) :
    token ∉ (WebAuth.step cfg scrypt s input).2.ended ∧ ∃ r, s.sessions.get token = some r ∧
        r.expired (WebAuth.step cfg scrypt s input).2.clock = false ∧
        s.settled ≤ r.born := by
  cases input with
  | resolve other now =>
    cases hToken
    have hNow := h.advance hGuard
    dsimp only [WebAuth.step] at hAnswer ⊢
    unfold stepResolve at hAnswer ⊢
    split at hAnswer
    · rename_i r hLive
      rcases hNow.not_ended hLive with ⟨hEnded, hRest⟩
      exact ⟨hEnded, r, hRest⟩
    · exact Bool.noConfusion hAnswer
  | activity other now =>
    cases hToken
    have hNow := h.advance hGuard
    dsimp only [WebAuth.step] at hAnswer ⊢
    unfold stepActivity at hAnswer ⊢
    split at hAnswer
    · rename_i r hLive
      rcases hNow.not_ended hLive with ⟨hEnded, hRest⟩
      exact ⟨hEnded, r, hRest⟩
    · exact Bool.noConfusion hAnswer
  | grantStepUp other ttl now =>
    cases hToken
    have hNow := h.advance hGuard
    dsimp only [WebAuth.step] at hAnswer ⊢
    unfold stepGrant at hAnswer ⊢
    split at hAnswer
    · rename_i r hLive
      rcases hNow.not_ended hLive with ⟨hEnded, hRest⟩
      exact ⟨hEnded, r, hRest⟩
    · exact Bool.noConfusion hAnswer
  | stepUpCredentials other now =>
    cases hToken
    have hNow := h.advance hGuard
    dsimp only [WebAuth.step] at hAnswer ⊢
    unfold stepCredentials at hAnswer ⊢
    split at hAnswer
    · rename_i r hLive
      rcases hNow.not_ended hLive with ⟨hEnded, hRest⟩
      split
      · split <;> exact ⟨hEnded, r, hRest⟩
      · exact ⟨hEnded, r, hRest⟩
    · exact Bool.noConfusion hAnswer
  | create _ _ _ => cases hToken
  | createInsert _ => cases hToken
  | login _ _ _ _ => cases hToken
  | loginInsert => cases hToken
  | revokeAllStepUps => cases hToken
  | drop _ => cases hToken
  | dropAll _ => cases hToken
  | setPassword _ _ _ => cases hToken
  | setRecoveryKey _ _ _ => cases hToken
  | rootDropAll => cases hToken

theorem Inv.credentials_of_active (h : Inv cfg s) {token : PyStr} {now : T} {fp : Option PyStr}
    (hAnswer : (stepCredentials s token now).1 = .credentials true fp) :
    ∃ granted, s.grants.get token = some granted ∧ fp = some (cfg.fingerprint token granted) := by
  unfold stepCredentials at hAnswer
  split at hAnswer
  · rename_i r hLive
    have hOk := h.sessions token r (live_eq_some hLive).1
    split at hAnswer
    · rename_i expires hExpires
      split at hAnswer
      · cases hAnswer
      · have hGrant := hOk.grant
        cases hLatest : s.grants.get token with
        | none =>
          rw [hLatest] at hGrant
          cases hGrant.symm.trans hExpires
        | some granted =>
          rw [hLatest] at hGrant
          refine ⟨granted, rfl, ?_⟩
          have hFp : r.stepupFp = fp := by injection hAnswer
          rw [← hFp]
          exact hGrant
    · cases hAnswer
  · cases hAnswer

theorem unchanged_of_failed {input : Input T S}
    (hAnswer : (step cfg scrypt s input).1 = .failed) : (step cfg scrypt s input).2 = s := by
  have hRoot : ∀ written (password recovery : Option R),
        (stepRoot (T := T) s written password recovery).1 = .failed →
        (stepRoot (T := T) s written password recovery).2 = s := by
    intro written password recovery hFailed
    unfold stepRoot at hFailed ⊢
    split at hFailed
    · split at hFailed
      · exact nomatch hFailed
      · rename_i hWritten
        rw [if_neg hWritten]
    · exact nomatch hFailed
  cases input with
  | setPassword password salt written =>
    dsimp only [WebAuth.step] at hAnswer ⊢
    split
    · rfl
    · rename_i hLength
      rw [if_neg hLength] at hAnswer
      exact hRoot written _ _ hAnswer
  | setRecoveryKey key salt written => exact hRoot written _ _ hAnswer
  | create _ _ _ => exact nomatch hAnswer
  | createInsert i =>
    dsimp only [WebAuth.step] at hAnswer
    cases hPending : s.pending[i]? <;> rw [hPending] at hAnswer <;>
      exact nomatch hAnswer
  | login password token csrf now =>
    dsimp only [WebAuth.step] at hAnswer
    unfold stepLogin at hAnswer
    split at hAnswer
    · split at hAnswer
      · exact nomatch hAnswer
      · split at hAnswer <;> exact nomatch hAnswer
    · exact nomatch hAnswer
  | loginInsert =>
    dsimp only [WebAuth.step] at hAnswer
    cases hHolder : s.holder <;> rw [hHolder] at hAnswer <;>
      exact nomatch hAnswer
  | resolve token now =>
    dsimp only [WebAuth.step] at hAnswer
    unfold stepResolve at hAnswer
    split at hAnswer <;> exact nomatch hAnswer
  | activity token now =>
    dsimp only [WebAuth.step] at hAnswer
    unfold stepActivity at hAnswer
    split at hAnswer <;> exact nomatch hAnswer
  | grantStepUp token ttl now =>
    dsimp only [WebAuth.step] at hAnswer
    unfold stepGrant at hAnswer
    split at hAnswer <;> exact nomatch hAnswer
  | stepUpCredentials token now =>
    dsimp only [WebAuth.step] at hAnswer
    unfold stepCredentials at hAnswer
    split at hAnswer
    · split at hAnswer
      · split at hAnswer <;> exact nomatch hAnswer
      · exact nomatch hAnswer
    · exact nomatch hAnswer
  | revokeAllStepUps => exact nomatch hAnswer
  | drop _ => exact nomatch hAnswer
  | dropAll _ => exact nomatch hAnswer
  | rootDropAll =>
    dsimp only [WebAuth.step] at hAnswer
    cases hHolder : s.holder <;> rw [hHolder] at hAnswer <;>
      exact nomatch hAnswer

/- The stores a run leads to, from the start of the process. -/
def StoreReachable (cfg : Settings T) (scrypt : Scrypt R S) (s : Store T R) : Prop :=
  ∃ disk clock, Reachable (step cfg scrypt) Guard (Store.start disk clock) s

/-
  In every run the deadlines of the sessions are within the
  absolute ones, a session that has ended is never taken for
  live again, an active step-up has the fingerprint of the
  latest grant, and a failed change changes nothing.
-/
theorem session_lifecycle (cfg : Settings T) (scrypt : Scrypt R S) (s : Store T R)
    (hReach : StoreReachable cfg scrypt s) :
    DeadlineLaw s ∧ ∀ input, Guard s input → RequestLaw cfg s (step cfg scrypt s input).2 input
          (step cfg scrypt s input).1 := by
  rcases hReach with ⟨disk, clock, hReach⟩
  have hInv : Inv cfg s := hReach.invariant (Inv.start cfg disk clock)
      (fun _ input h hGuard => h.step input hGuard)
  refine ⟨fun token r hGet => (hInv.sessions token r hGet).bounded, ?_⟩
  intro input hGuard
  refine ⟨fun _ hMem => ended_step input hMem,
    fun _ hToken hAnswer => hInv.confirmed_step hGuard hToken hAnswer,
    ?_, unchanged_of_failed⟩
  rintro token now rfl fp hAnswer
  exact (hInv.advance hGuard).credentials_of_active hAnswer

/- Lifetimes in whole seconds, with a fingerprint of the time. -/
def wholeSeconds : Settings ℕ where
  ttl := 28800
  idleTtl := 900
  stepUpTtl := 300
  fingerprint token granted := granted :: token

/- A hash that keeps the secret and its salt. -/
def openHash : Scrypt (PyStr × ℕ) ℕ where
  hash secret salt := (secret, salt)
  verify secret record := decide (secret = record.1)

/- A login, and a step-up granted 100 seconds later. -/
def loginThenGrant : List (Input ℕ ℕ) := [.login (pyStr "long-password") (pyStr "token") [] 10,
    .loginInsert, .grantStepUp (pyStr "token") none 110]

theorem session_lifecycle_loginThenGrant : DeadlineLaw (finalState (step wholeSeconds openHash)
          (Store.start (some (pyStr "long-password", 0), none) 0)
          loginThenGrant) ∧
      ∃ granted, (finalState (step wholeSeconds openHash)
          (Store.start (some (pyStr "long-password", 0), none) 0)
          loginThenGrant).grants.get (pyStr "token") = some granted ∧
          some (110 :: pyStr "token") = some (wholeSeconds.fingerprint (pyStr "token") granted) := by
  have hReach : StoreReachable wholeSeconds openHash (finalState (step wholeSeconds openHash)
          (Store.start (some (pyStr "long-password", 0), none) 0)
          loginThenGrant) := by
    have hStart : Reachable (step wholeSeconds openHash) Guard
          (Store.start (some (pyStr "long-password", 0), none) 0)
          (Store.start (some (pyStr "long-password", 0), none) 0) :=
      Reachable.refl
    have hLogin := hStart.step_of (Input.login (pyStr "long-password") (pyStr "token") [] 10) (Nat.zero_le 10)
    have hIn := hLogin.step_of Input.loginInsert (fun _ _ _ => List.not_mem_nil)
    have hGranted := hIn.step_of (Input.grantStepUp (pyStr "token") none 110) (show 10 ≤ 110 by decide)
    exact ⟨_, _, hGranted⟩
  have hLaw := session_lifecycle wholeSeconds openHash _ hReach
  exact ⟨hLaw.1, (hLaw.2 (.stepUpCredentials (pyStr "token") 200)
      (show 110 ≤ 200 by decide)).credentials (pyStr "token") 200
      rfl _ (by decide)⟩

end SingboxOps.WebAuth
