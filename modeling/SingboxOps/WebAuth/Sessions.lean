import SingboxOps.Lib.Dict
import SingboxOps.Lib.Text
import SingboxOps.Lib.Trace
import Mathlib.Order.Lattice

/-
  The sessions of the dashboard and the password behind them.

  Each step is one critical section.  A login holds the mutex of
  the authentication store from the verification on until its
  session is in; a change of the password or of the recovery
  key holds it until the sessions are gone.  Other threads go on
  with the sessions meanwhile.  Times are any linearly ordered
  type with the sums and differences of the language.
-/

namespace SingboxOps.WebAuth

variable {T R S : Type} [LinearOrder T] [Add T] [Sub T] [NatCast T]

-- Sessions

/-
  A session record.  The number of the authentication root it
  was made under is for reasoning only.
-/
structure Session (T : Type) where
  created : T
  expires : T
  csrfToken : PyStr
  idleExpires : T
  stepUpExpires : Option T
  stepUpGrantedAt : Option T
  stepupFp : Option PyStr
  born : ℕ
deriving DecidableEq

/- The lifetimes of a store, and `_stepup_fingerprint`. -/
structure Settings (T : Type) where
  ttl : T
  idleTtl : T
  stepUpTtl : T
  fingerprint : PyStr → T → PyStr

/- scrypt: the record of a secret, and its verification. -/
structure Scrypt (R S : Type) where
  hash : PyStr → S → R
  verify : PyStr → R → Bool

namespace Session

/- `_expired` -/
def expired (r : Session T) (now : T) : Bool := decide (min r.expires r.idleExpires ≤ now)

/- `record["idle_expires"] = min(now + self.idle_ttl, ...)` -/
def renew (cfg : Settings T) (now : T) (r : Session T) : Session T :=
  { r with idleExpires := min (now + cfg.idleTtl) r.expires }

/- A new step-up window, under a new fingerprint. -/
def grant (cfg : Settings T) (token : PyStr) (now ttl : T) (r : Session T) : Session T :=
  { r with
    stepUpExpires := some (min (now + ttl) r.expires)
    stepUpGrantedAt := some now
    stepupFp := some (cfg.fingerprint token now) }

def revoke (r : Session T) : Session T :=
  { r with
    stepUpExpires := none
    stepUpGrantedAt := none
    stepupFp := none }

end Session

/- The record `create` makes. -/
def newSession (cfg : Settings T) (token csrf : PyStr) (now : T) (verified : Bool)
    (born : ℕ) : Session T where
  created := now
  expires := now + cfg.ttl
  csrfToken := csrf
  idleExpires := min (now + cfg.idleTtl) (now + cfg.ttl)
  stepUpExpires := if verified then some (now + cfg.ttl) else none
  stepUpGrantedAt := if verified then some now else none
  stepupFp := if verified then some (cfg.fingerprint token now) else none
  born := born

-- The Store

/- Who holds the mutex of the authentication store. -/
inductive Holder (T : Type) where
  | free
  | login (token : PyStr) (r : Session T)
  | rootChange
deriving DecidableEq

/-
  The sessions, the two hash records in memory and on disk, and
  the sessions that were made but are not in yet.

  For reasoning only: the last reading of the clock, the tokens
  ever in, those that have ended, the latest grant of each that
  is not revoked, and the numbers of the authentication root
  and of the last one whose change is complete.
-/
structure Store (T R : Type) where
  sessions : Dict PyStr (Session T)
  password : Option R
  recovery : Option R
  disk : Option R × Option R
  pending : List (PyStr × Session T)
  holder : Holder T
  clock : T
  used : List PyStr
  ended : List PyStr
  grants : Dict PyStr T
  root : ℕ
  settled : ℕ
deriving DecidableEq

/- A web process has just started. -/
def Store.start (disk : Option R × Option R) (clock : T) : Store T R :=
  ⟨[], disk.1, disk.2, disk, [], .free, clock, [], [], [], 0, 0⟩

namespace Store

variable (s : Store T R)

/- The tokens whose session has expired. -/
def expiredTokens (now : T) : List PyStr :=
  s.sessions.keys.filter (fun token => (s.sessions.get token).any (fun r => r.expired now))

/- The clock is read: sessions end by time. -/
def advance (now : T) : Store T R :=
  { s with
    clock := now
    ended := s.expiredTokens now ++ s.ended }

/- A session of the store that has not expired. -/
def live (token : PyStr) (now : T) : Option (Session T) :=
  (s.sessions.get token).filter (fun r => !r.expired now)

/- `del self._sessions[token]` -/
def remove (token : PyStr) : Store T R :=
  { s with
    sessions := s.sessions.pop token
    ended :=
      if (s.sessions.get token).isSome then token :: s.ended
      else s.ended }

def put (token : PyStr) (r : Session T) : Store T R := { s with sessions := s.sessions.set token r }

/- A new session is in. -/
def insert (token : PyStr) (r : Session T) : Store T R :=
  { s with
    sessions := s.sessions.set token r
    used := token :: s.used
    grants := match r.stepUpGrantedAt with
      | some granted => s.grants.set token granted
      | none => s.grants }

/- `drop_all` -/
def dropAll (except : Option PyStr) : Store T R :=
  { s with
    sessions := match except.bind (fun token => (s.sessions.get token).map (fun r => (token, r))) with
      | some kept => [kept]
      | none => []
    ended :=
      s.sessions.keys.filter
        (fun token => decide (some token ≠ except)) ++ s.ended }

end Store

-- Steps

/-
  One critical section.  The readings of the clock, the random
  tokens and salts, and whether `auth.json` could be written
  come with it.
-/
inductive Input (T S : Type) where
  | create (token csrf : PyStr) (now : T)
  | createInsert (i : ℕ)
  | login (password token csrf : PyStr) (now : T)
  | loginInsert
  | resolve (token : PyStr) (now : T)
  | activity (token : PyStr) (now : T)
  | grantStepUp (token : PyStr) (ttl : Option T) (now : T)
  | stepUpCredentials (token : PyStr) (now : T)
  | revokeAllStepUps
  | drop (token : PyStr)
  | dropAll (except : Option PyStr)
  | setPassword (password : PyStr) (salt : S) (written : Bool)
  | setRecoveryKey (key : PyStr) (salt : S) (written : Bool)
  | rootDropAll
deriving DecidableEq

inductive Answer (T : Type) where
  | done
  | token (issued : Option PyStr)
  | session (found : Option (Session T))
  | remaining (seconds : Option T)
  | expiry (deadline : Option T)
  | credentials (active : Bool) (fp : Option PyStr)
  | failed
  | blocked
deriving DecidableEq

/- `MIN_PASSWORD_LENGTH` -/
def minPasswordLength : ℕ := 8

/- What the change of a root has written and published. -/
def Store.publish (s : Store T R) (password recovery : Option R) : Store T R :=
  { s with
    password := password
    recovery := recovery
    disk := (password, recovery)
    holder := .rootChange
    root := s.root + 1 }

variable (cfg : Settings T) (scrypt : Scrypt R S)

def stepLogin (s : Store T R) (password token csrf : PyStr) (now : T) : Answer T × Store T R :=
  match s.holder with
  | .free =>
    match s.password with
    | none => (.token none, s)
    | some record =>
      if scrypt.verify password record then
        let s := s.advance now
        (.done,
          { s with
            holder :=
              .login token
                (newSession cfg token csrf now true s.root) })
      else (.token none, s)
  | _ => (.blocked, s)

def stepResolve (s : Store T R) (token : PyStr) (now : T) : Answer T × Store T R :=
  match s.live token now with
  | some r => (.session (some r), s)
  | none => (.session none, s.remove token)

def stepActivity (s : Store T R) (token : PyStr) (now : T) : Answer T × Store T R :=
  match s.live token now with
  | some r =>
    let renewed := r.renew cfg now
    (.remaining (some (max ((0 : ℕ) : T) (renewed.idleExpires - now))), s.put token renewed)
  | none => (.remaining none, s.remove token)

def stepGrant (s : Store T R) (token : PyStr) (ttl : Option T) (now : T) : Answer T × Store T R :=
  match s.live token now with
  | some r =>
    let granted := r.grant cfg token now (ttl.getD cfg.stepUpTtl)
    (.expiry granted.stepUpExpires, { s.put token granted with grants := s.grants.set token now })
  | none => (.expiry none, s)

def stepCredentials (s : Store T R) (token : PyStr) (now : T) : Answer T × Store T R :=
  match s.live token now with
  | some r =>
    match r.stepUpExpires with
    | some expires =>
      if expires ≤ now then (.credentials false none, s)
      else (.credentials true r.stepupFp, s)
    | none => (.credentials false none, s)
  | none => (.credentials false none, s)

/- Storage first: what is not written is not published. -/
def stepRoot (s : Store T R) (written : Bool) (password recovery : Option R) : Answer T × Store T R :=
  match s.holder with
  | .free =>
    if written then (.done, s.publish password recovery)
    else (.failed, s)
  | _ => (.blocked, s)

def step (s : Store T R) : Input T S → Answer T × Store T R
  | .create token csrf now =>
    let s := s.advance now
    (.done,
      { s with
        pending := s.pending ++ [(token, newSession cfg token csrf now false 0)] })
  | .createInsert i =>
    match s.pending[i]? with
    | some (token, r) =>
      (.token (some token), { s with pending := s.pending.eraseIdx i }.insert token
          { r with born := s.root })
    | none => (.blocked, s)
  | .login password token csrf now => stepLogin cfg scrypt s password token csrf now
  | .loginInsert =>
    match s.holder with
    | .login token r => (.token (some token), { s with holder := .free }.insert token r)
    | _ => (.blocked, s)
  | .resolve token now => stepResolve (s.advance now) token now
  | .activity token now => stepActivity cfg (s.advance now) token now
  | .grantStepUp token ttl now => stepGrant cfg (s.advance now) token ttl now
  | .stepUpCredentials token now => stepCredentials (s.advance now) token now
  | .revokeAllStepUps =>
    (.done,
      { s with
        sessions := s.sessions.mapValues Session.revoke
        grants := [] })
  | .drop token => (.done, s.remove token)
  | .dropAll except => (.done, s.dropAll except)
  | .setPassword password salt written =>
    if password.length < minPasswordLength then (.failed, s)
    else
      stepRoot s written (some (scrypt.hash password salt)) s.recovery
  | .setRecoveryKey key salt written =>
    stepRoot s written s.password (some (scrypt.hash key salt))
  | .rootDropAll =>
    match s.holder with
    | .rootChange =>
      (.done,
        { s.dropAll none with
          holder := .free
          settled := s.root })
    | _ => (.blocked, s)

end SingboxOps.WebAuth
