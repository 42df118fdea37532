import SingboxOps.Lib.Interrupt
import SingboxOps.Lib.Text
import SingboxOps.Lib.Trace

/-
  Renewal of the receiver's certificate.

  A run of `renew` is a plan of changes on the files of the
  receiver, cut short wherever a crash or a failing restart
  stops it.  The authority, the key and the configuration are
  only read.  Certificates are opaque but for their dates.
-/

namespace SingboxOps.QualityReceiver

-- The Host

/- `installation.json`: the receiver that was installed. -/
structure Installation (D : Type) where
  address : PyStr
  port : ℤ
  authoritySha256 : D
deriving DecidableEq

/- What a renewal reads and never writes. -/
structure Identity (D : Type) where
  installation : Installation D
  address : PyStr
  port : ℤ
  authority : Bytes
  authorityKey : Bytes
  serverKey : Bytes

/-
  What `openssl` reads in a certificate: the dates of a leaf
  and of the authority in seconds, and whether the authority
  signed the leaf for the address and the key.
-/
structure OpenSsl (D C : Type) where
  notBefore : C → ℤ
  notAfter : C → ℤ
  authorityBegins : Identity D → ℤ
  authorityEnds : Identity D → ℤ
  signed : Identity D → C → Bool

def day : ℤ := 86400

/- `LEAF_DAYS` -/
def leafDays : ℤ := 90

/- `RENEW_BEFORE` -/
def renewBefore : ℤ := 20 * day

namespace OpenSsl

variable {D C : Type} (o : OpenSsl D C)

/- `x509 -checkend` of a leaf -/
def checkend (now : ℤ) (c : C) : Bool := decide (now + renewBefore < o.notAfter c)

/- `x509 -checkend` of the authority, before a leaf is issued -/
def authorityLasts (identity : Identity D) (now : ℤ) : Bool :=
  decide (now + (leafDays + 1) * day < o.authorityEnds identity)

/- `verify` with the authority, then the key: all dates hold. -/
def validates (identity : Identity D) (now : ℤ) (c : C) : Bool :=
  o.signed identity c && decide (o.notBefore c ≤ now) && decide (now < o.notAfter c) &&
    decide (o.authorityBegins identity ≤ now) && decide (now < o.authorityEnds identity)

end OpenSsl

/-
  The renewed files of a receiver and its service: the content
  of `restart-needed`, the content of `server-cert.pem` and
  the certificate the running service last loaded; and when
  something last happened.
-/
structure Host (D C : Type) where
  clock : ℤ
  identity : Identity D
  marker : Option Bytes
  certificate : C
  loaded : Option C

variable {D C : Type} [DecidableEq D]

def markerBytes : Bytes := "quality-receiver-restart-v1\n".toList.map (fun c => c.toNat.toUInt8)

-- Renewal

/- What a run of `renew` raises before it changes anything. -/
inductive RenewError where
  | installationIdentity
  | restartMarker
  | certificateOperation
  | authorityNeedsReplacement
  | issuance
deriving DecidableEq

/-
  The arguments of a run, its clock, the leaf that OpenSSL
  issues for it (none where a command fails) and whether the
  restart hook works.
-/
structure Renewal (C : Type) where
  force : Bool
  restart : Option Bool
  now : ℤ
  produced : Option C

/- A change of the host's files or of its service. -/
abbrev Change (D C : Type) := Host D C → Option (Host D C)

/- `os.open(path, O_WRONLY | O_CREAT | O_EXCL)` -/
def createMarker : Change D C := fun h => if h.marker.isSome then none else some { h with marker := some [] }

/- One byte more of the marker reaches the file. -/
def writeMarker (byte : UInt8) : Change D C := fun h => some { h with marker := h.marker.map (· ++ [byte]) }

/- `private_write(marker, marker_bytes)` -/
def privateWrite : List (Change D C) := createMarker :: markerBytes.map writeMarker

/- `os.replace(temporary, root / "server-cert.pem")` -/
def publish (data : C) : Change D C := fun h => some { h with certificate := data }

/- The restarted service loads the certificate. -/
def restartService (works : Bool) : Change D C := fun h =>
    if works then some { h with loaded := some h.certificate }
    else none

def unlinkMarker : Change D C := fun h => some { h with marker := none }

/- `completed`: a marked host is restarted. -/
def completed (restart : Option Bool) (marked : Bool) : List (Change D C) := match restart, marked with
  | some works, true => [restartService works, unlinkMarker]
  | _, _ => []

/- `issue_leaf`: what was issued is validated first. -/
def issueLeaf (o : OpenSsl D C) (identity : Identity D) (r : Renewal C) : Except RenewError C :=
  if o.authorityLasts identity r.now then
    match r.produced with
    | none => .error .issuance
    | some data =>
      if o.validates identity r.now data then .ok data
      else .error .certificateOperation
  else .error .authorityNeedsReplacement

/- `renew`: the changes it makes, and whether it renews. -/
def renewPlan (o : OpenSsl D C) (sha256 : Bytes → D) (r : Renewal C)
    (h : Host D C) : Except RenewError (List (Change D C) × Bool) :=
  if h.identity.installation ≠
      ⟨h.identity.address, h.identity.port, sha256 h.identity.authority⟩ then
    .error .installationIdentity
  else if h.marker.isSome ∧ h.marker ≠ some markerBytes then
    .error .restartMarker
  else if r.force = false ∧ o.checkend r.now h.certificate = true then
    if o.validates h.identity r.now h.certificate then
      .ok (completed r.restart h.marker.isSome, false)
    else .error .certificateOperation
  else
    match issueLeaf o h.identity r with
    | .error e => .error e
    | .ok data =>
      .ok ((if h.marker.isSome then [] else privateWrite) ++ publish data :: completed r.restart true, true)

-- Runs

/-
  What happens on the host: a renewal that is stopped after so
  many changes at the latest, a service that starts on its
  files (and loads what validates), a service that stops.
-/
inductive Event (C : Type) where
  | renew (r : Renewal C) (steps : ℕ)
  | starts (now : ℤ)
  | stops

/- What a run of `renew` came to. -/
inductive Outcome where
  | refused (e : RenewError)
  | stopped
  | finished (renewed : Bool)
deriving DecidableEq

def renewStep (o : OpenSsl D C) (sha256 : Bytes → D) (h : Host D C) : Event C → Option Outcome × Host D C
  | .renew r steps =>
    let h := { h with clock := r.now }
    match renewPlan o sha256 r h with
    | .error e => (some (.refused e), h)
    | .ok (plan, renewed) =>
      let result := perform plan steps h
      (some (if result.1 then .finished renewed else .stopped), result.2)
  | .starts now =>
    let h := { h with clock := now }
    if o.validates h.identity now h.certificate then
      (none, { h with loaded := some h.certificate })
    else (none, { h with loaded := none })
  | .stops => (none, { h with loaded := none })

-- The Law

/- The clock does not step back. -/
def Onward (h : Host D C) : Event C → Prop
  | .renew r _ => h.clock ≤ r.now
  | .starts now => h.clock ≤ now
  | .stops => True

/- `x509 -req -days`: what is issued ends after its days. -/
def Renewal.Dated (o : OpenSsl D C) (r : Renewal C) : Prop :=
  ∀ data, r.produced = some data → o.notAfter data = r.now + leafDays * day

def Issued (o : OpenSsl D C) : Event C → Prop
  | .renew r _ => r.Dated o
  | _ => True

/- The installed receiver is the one of the configuration. -/
def Identity.Intact (sha256 : Bytes → D) (i : Identity D) : Prop :=
  i.installation = ⟨i.address, i.port, sha256 i.authority⟩

/- OpenSSL issues a leaf that validates. -/
def Renewal.Issues (o : OpenSsl D C) (identity : Identity D) (r : Renewal C) : Prop :=
  o.authorityLasts identity r.now = true ∧
    ∃ data, r.produced = some data ∧ o.validates identity r.now data = true

/- It does, and the restart works. -/
def Renewal.Works (o : OpenSsl D C) (identity : Identity D) (r : Renewal C) : Prop :=
  r.Issues o identity ∧ r.Dated o ∧ r.restart ≠ some false

/-
  The published certificate was validated; a service that runs
  on another one finds the marker; and every later renewal
  with working tools finishes, and restarts the service where
  it is given the restart.
-/
structure Lawful (o : OpenSsl D C) (sha256 : Bytes → D) (h : Host D C) : Prop where
  validated : ∃ now ≤ h.clock, o.validates h.identity now h.certificate = true
  marked : ∀ c, h.loaded = some c → c ≠ h.certificate → h.marker.isSome
  finishes : ∀ r : Renewal C, h.clock ≤ r.now → r.Works o h.identity →
      ∃ enough renewed, ∀ steps, enough ≤ steps →
        let result := renewStep o sha256 h (.renew r steps)
        result.1 = some (.finished renewed) ∧ (r.restart = some true → result.2.marker = none ∧
            (h.marker.isSome ∨ renewed = true → result.2.loaded = some result.2.certificate))

/-
  The event is a renewal that issues a leaf, forced or because
  the published one ends soon, and that is stopped while it
  creates the marker.
-/
def Tears (o : OpenSsl D C) (h : Host D C) : Event C → Prop
  | .renew r steps =>
    h.marker = none ∧ 1 ≤ steps ∧ steps ≤ markerBytes.length ∧
      (r.force = true ∨ o.checkend r.now h.certificate = false) ∧ r.Issues o h.identity
  | _ => False

-- Plans

theorem perform_writeMarker (bytes pre : Bytes) (rest : List (Change D C)) (steps : ℕ)
    (h : Host D C) : perform (bytes.map writeMarker ++ rest) steps { h with marker := some pre } =
      if steps < bytes.length then
        (false, { h with marker := some (pre ++ bytes.take steps) })
      else
        perform rest (steps - bytes.length) { h with marker := some (pre ++ bytes) } := by
  induction bytes generalizing steps pre with
  | nil => simp
  | cons byte bytes ih =>
    cases steps with
    | zero => simp [perform]
    | succ steps =>
      rw [List.map_cons, List.cons_append, perform]
      have hStep : (writeMarker byte { h with marker := some pre } :
            Option (Host D C)) = some { h with marker := some (pre ++ [byte]) } := rfl
      rw [hStep]
      dsimp only
      rw [ih (pre ++ [byte]) steps]
      simp only [List.length_cons, List.take_succ_cons, List.append_assoc, List.singleton_append,
        Nat.add_lt_add_iff_right, Nat.add_sub_add_right]

/- The marker is created with its first change. -/
theorem perform_privateWrite (rest : List (Change D C)) (steps : ℕ) {h : Host D C} (hNone : h.marker = none) :
    perform (privateWrite ++ rest) steps h =
      if steps = 0 then (false, h)
      else if steps ≤ markerBytes.length then
        (false, { h with
          marker := some (markerBytes.take (steps - 1)) })
      else
        perform rest (steps - 1 - markerBytes.length) { h with marker := some markerBytes } := by
  cases steps with
  | zero => rfl
  | succ steps =>
    have hCreate : (createMarker h : Option (Host D C)) = some { h with marker := some [] } := by
      unfold createMarker
      rw [hNone]
      rfl
    rw [privateWrite, List.cons_append, perform, hCreate]
    dsimp only
    rw [perform_writeMarker, if_neg (Nat.succ_ne_zero steps),
      Nat.add_sub_cancel, List.nil_append, List.nil_append]
    rfl

/- The files and the service of an intact host, marker apart. -/
structure Kept (o : OpenSsl D C) (i : Identity D) (h : Host D C) : Prop where
  identity : h.identity = i
  validated : ∃ now ≤ h.clock, o.validates i now h.certificate = true
  outlived : o.notAfter h.certificate ≤ o.authorityEnds i
  marked : ∀ c, h.loaded = some c → c ≠ h.certificate → h.marker.isSome

/- A marker that is there is whole. -/
def Whole (h : Host D C) : Prop := h.marker = none ∨ h.marker = some markerBytes

/- A restart ends with the marker gone, wherever it is cut. -/
theorem carries_completed {o : OpenSsl D C} {i : Identity D} (restart : Option Bool)
    (marked : Bool) : Carries (fun h => Kept o i h ∧ Whole h) (fun h => Kept o i h ∧ Whole h)
      (completed restart marked : List (Change D C))
      (fun h => Kept o i h ∧ Whole h ∧ (restart = some true → marked = true →
          h.marker = none ∧ h.loaded = some h.certificate)) := by
  unfold completed
  split
  · rename_i works
    refine Carries.cons (R := fun h => Kept o i h ∧ Whole h ∧
        h.loaded = some h.certificate) (fun _ hKept => hKept) ?_ ?_
    · rintro h h' ⟨hKept, hWhole⟩ hSome
      unfold restartService at hSome
      split at hSome
      · cases hSome
        refine ⟨⟨hKept.identity, hKept.validated, hKept.outlived, ?_⟩, hWhole, rfl⟩
        intro c hLoaded hOther
        cases hLoaded
        exact absurd rfl hOther
      · cases hSome
    · refine Carries.cons (R := fun h => Kept o i h ∧ Whole h ∧
        h.marker = none ∧ h.loaded = some h.certificate)
        (fun _ hKept => ⟨hKept.1, hKept.2.1⟩) ?_
        (Carries.nil (fun _ hKept => ⟨hKept.1, hKept.2.1⟩)
          (fun _ hKept => ⟨hKept.1, hKept.2.1, fun _ _ => hKept.2.2⟩))
      rintro h h' ⟨hKept, -, hLoaded⟩ hSome
      cases hSome
      refine ⟨⟨hKept.identity, hKept.validated, hKept.outlived, ?_⟩, .inl rfl, rfl, hLoaded⟩
      intro c hOther hNe
      rw [hLoaded] at hOther
      cases hOther
      exact absurd rfl hNe
  · rename_i hNot
    refine Carries.nil (fun _ hKept => hKept) ?_
    rintro h ⟨hKept, hWhole⟩
    refine ⟨hKept, hWhole, ?_⟩
    intro hRestart hMarked
    exact absurd hMarked (hNot true hRestart)

/- A marked host gets a validated certificate, and is restarted. -/
theorem carries_publish {o : OpenSsl D C} {i : Identity D} {now : ℤ} {data : C}
    (hData : o.validates i now data = true) (hEnds : o.notAfter data ≤ o.authorityEnds i)
    (restart : Option Bool) : Carries (fun h => Kept o i h ∧ Whole h)
      (fun h => Kept o i h ∧ h.marker = some markerBytes ∧ now ≤ h.clock)
      (publish data :: completed restart true : List (Change D C))
      (fun h => Kept o i h ∧ Whole h ∧ (restart = some true → true = true →
          h.marker = none ∧ h.loaded = some h.certificate)) := by
  refine Carries.cons (R := fun h => Kept o i h ∧ Whole h) (fun h hKept => ⟨hKept.1, .inr hKept.2.1⟩) ?_
    (carries_completed restart true)
  rintro h h' ⟨hKept, hMarker, hNow⟩ hSome
  cases hSome
  refine ⟨⟨hKept.identity, ⟨now, hNow, hData⟩, hEnds, ?_⟩, .inr hMarker⟩
  intro c _ _
  change h.marker.isSome = true
  rw [hMarker]
  rfl

theorem completed_done {restart : Option Bool} (hWorks : restart ≠ some false) (marked : Bool) {steps : ℕ}
    (hSteps : (completed restart marked : List (Change D C)).length ≤ steps)
    (h : Host D C) : (perform (completed restart marked) steps h).1 = true := by
  unfold completed at hSteps ⊢
  split at hSteps
  · rename_i works
    have hTrue : works = true := by
      cases works with
      | true => rfl
      | false => exact absurd rfl hWorks
    obtain ⟨n, rfl⟩ := Nat.exists_eq_add_of_le hSteps
    rw [hTrue]
    change (perform [restartService true, unlinkMarker] (2 + n) h).1 = true
    rw [Nat.add_comm]
    rfl
  · rfl

/- What a run of `renew` has before it. -/
theorem renewPlan_ok {o : OpenSsl D C} {sha256 : Bytes → D} {r : Renewal C}
    {h : Host D C} {plan : List (Change D C)} {renewed : Bool}
    (hPlan : renewPlan o sha256 r h = .ok (plan, renewed)) :
    Whole h ∧ ((renewed = false ∧ plan = completed r.restart h.marker.isSome) ∨
        (renewed = true ∧ (r.force = true ∨ o.checkend r.now h.certificate = false) ∧
          o.authorityLasts h.identity r.now = true ∧
          ∃ data, r.produced = some data ∧ o.validates h.identity r.now data = true ∧
          plan = (if h.marker.isSome then [] else privateWrite) ++
            publish data :: completed r.restart true)) := by
  unfold renewPlan at hPlan
  split at hPlan
  · cases hPlan
  · split at hPlan
    · cases hPlan
    · rename_i hMarker
      have hWhole : Whole h := by
        unfold Whole
        cases hContent : h.marker with
        | none => exact .inl rfl
        | some content =>
          rw [hContent] at hMarker
          refine .inr ?_
          by_contra hOther
          exact hMarker ⟨rfl, hOther⟩
      refine ⟨hWhole, ?_⟩
      split at hPlan
      · split at hPlan
        · cases hPlan
          exact .inl ⟨rfl, rfl⟩
        · cases hPlan
      · rename_i hRenews
        have hCause : r.force = true ∨ o.checkend r.now h.certificate = false := by
          by_contra hNot
          rw [not_or, Bool.not_eq_true, Bool.not_eq_false] at hNot
          exact hRenews hNot
        unfold issueLeaf at hPlan
        by_cases hAuthority : o.authorityLasts h.identity r.now = true
        · rw [if_pos hAuthority] at hPlan
          cases hProduced : r.produced with
          | none =>
            rw [hProduced] at hPlan
            cases hPlan
          | some data =>
            rw [hProduced] at hPlan
            by_cases hValid : o.validates h.identity r.now data = true
            · simp only [hValid, if_true] at hPlan
              cases hPlan
              exact .inr ⟨rfl, hCause, hAuthority, data, rfl, hValid, rfl⟩
            · simp only [hValid] at hPlan
              cases hPlan
        · rw [if_neg hAuthority] at hPlan
          cases hPlan

theorem Whole.fits {h : Host D C} (hWhole : Whole h) : ¬ (h.marker.isSome ∧ h.marker ≠ some markerBytes) := by
  rintro ⟨hSome, hOther⟩
  rcases hWhole with hNone | hFull
  · rw [hNone] at hSome
    cases hSome
  · exact hOther hFull

theorem Whole.full {h : Host D C} (hWhole : Whole h) {content : Bytes} (hMarker : h.marker = some content) :
    h.marker = some markerBytes := by
  rcases hWhole with hNone | hFull
  · rw [hMarker] at hNone
    cases hNone
  · exact hFull

theorem renewPlan_of_lasts {o : OpenSsl D C} {sha256 : Bytes → D} {r : Renewal C}
    {h : Host D C} (hIntact : h.identity.Intact sha256) (hWhole : Whole h)
    (hCause : r.force = false ∧ o.checkend r.now h.certificate = true)
    (hValid : o.validates h.identity r.now h.certificate = true) :
    renewPlan o sha256 r h = .ok (completed r.restart h.marker.isSome, false) := by
  have hInstalled : h.identity.installation = ⟨h.identity.address, h.identity.port,
      sha256 h.identity.authority⟩ := hIntact
  unfold renewPlan
  rw [if_neg (not_not.mpr hInstalled), if_neg hWhole.fits, if_pos hCause, if_pos hValid]

/- A renewal that has a leaf to publish has its plan. -/
theorem renewPlan_of_issues {o : OpenSsl D C} {sha256 : Bytes → D} {r : Renewal C}
    {h : Host D C} (hIntact : h.identity.Intact sha256) (hWhole : Whole h)
    (hCause : r.force = true ∨ o.checkend r.now h.certificate = false)
    (hIssues : r.Issues o h.identity) :
    ∃ data, r.produced = some data ∧ o.validates h.identity r.now data = true ∧
      renewPlan o sha256 r h = .ok ((if h.marker.isSome then [] else privateWrite) ++
        publish data :: completed r.restart true, true) := by
  obtain ⟨hAuthority, data, hProduced, hData⟩ := hIssues
  have hInstalled : h.identity.installation = ⟨h.identity.address, h.identity.port,
      sha256 h.identity.authority⟩ := hIntact
  have hRenews : ¬ (r.force = false ∧ o.checkend r.now h.certificate = true) := by
    rintro ⟨hFree, hLasts⟩
    rcases hCause with hForce | hEnds
    · rw [hForce] at hFree
      cases hFree
    · rw [hEnds] at hLasts
      cases hLasts
  have hIssued : issueLeaf o h.identity r = .ok data := by
    unfold issueLeaf
    rw [if_pos hAuthority, hProduced]
    exact if_pos hData
  refine ⟨data, hProduced, hData, ?_⟩
  unfold renewPlan
  rw [if_neg (not_not.mpr hInstalled), if_neg hWhole.fits, if_neg hRenews, hIssued]

theorem Kept.mark {o : OpenSsl D C} {i : Identity D} {h : Host D C} (hKept : Kept o i h)
    (content : Bytes) : Kept o i { h with marker := some content } :=
  ⟨hKept.identity, hKept.validated, hKept.outlived, fun _ _ _ => rfl⟩

theorem Kept.at {o : OpenSsl D C} {i : Identity D} {h : Host D C} (hKept : Kept o i h)
    {now : ℤ} (hNow : h.clock ≤ now) : Kept o i { h with clock := now } := by
  obtain ⟨before, hBefore, hValid⟩ := hKept.validated
  exact ⟨hKept.identity, ⟨before, Int.le_trans hBefore hNow, hValid⟩, hKept.outlived, hKept.marked⟩

theorem ends_of_issued {o : OpenSsl D C} {i : Identity D} {now : ℤ} {data : C}
    (hAuthority : o.authorityLasts i now = true)
    (hEnds : o.notAfter data = now + leafDays * day) : o.notAfter data ≤ o.authorityEnds i := by
  have hLasts := of_decide_eq_true hAuthority
  unfold leafDays day at *
  omega

theorem validates_later {o : OpenSsl D C} {i : Identity D} {before now : ℤ} {c : C}
    (hBefore : o.validates i before c = true) (hNow : before ≤ now)
    (hLasts : o.checkend now c = true) (hOutlived : o.notAfter c ≤ o.authorityEnds i) :
    o.validates i now c = true := by
  have hEnd := of_decide_eq_true hLasts
  unfold renewBefore day at hEnd
  unfold OpenSsl.validates at *
  simp only [Bool.and_eq_true, decide_eq_true_eq] at hBefore ⊢
  obtain ⟨⟨⟨⟨hSigned, hFirst⟩, -⟩, hBegins⟩, -⟩ := hBefore
  exact ⟨⟨⟨⟨hSigned, by omega⟩, by omega⟩, by omega⟩, by omega⟩

theorem markerBytes_take {n : ℕ} (h : n < markerBytes.length) : markerBytes.take n ≠ markerBytes := by
  intro hEq
  have hLength := congrArg List.length hEq
  rw [List.length_take] at hLength
  omega

-- Steps

theorem renewStep_torn {o : OpenSsl D C} {sha256 : Bytes → D} {h : Host D C}
    (hIntact : h.identity.Intact sha256) {r : Renewal C} {steps : ℕ}
    (hTears : Tears o h (.renew r steps)) : (renewStep o sha256 h (.renew r steps)).2 =
      { h with clock := r.now, marker := some (markerBytes.take (steps - 1)) } := by
  obtain ⟨hNone, hSome, hShort, hCause, hIssues⟩ := hTears
  obtain ⟨data, -, -, hPlan⟩ := renewPlan_of_issues
    (h := { h with clock := r.now }) hIntact (.inl hNone) hCause hIssues
  unfold renewStep
  dsimp only
  rw [hPlan]
  dsimp only
  rw [hNone]
  simp only [Option.isSome_none, Bool.false_eq_true, if_false]
  rw [perform_privateWrite _ steps rfl, if_neg (by omega), if_pos hShort]

/-
  A step keeps the host in order, and a whole marker whole
  unless it is stopped while it creates it.
-/
theorem renewStep_kept {o : OpenSsl D C} {sha256 : Bytes → D}
    {i : Identity D} {h : Host D C} (hKept : Kept o i h)
    {e : Event C} (hOnward : Onward h e) (hIssued : Issued o e) :
    Kept o i (renewStep o sha256 h e).2 ∧ (Whole h → ¬ Tears o h e → Whole (renewStep o sha256 h e).2) := by
  cases e with
  | renew r steps =>
    have hAt : Kept o i { h with clock := r.now } := hKept.at hOnward
    unfold renewStep
    dsimp only
    cases hPlan : renewPlan o sha256 r { h with clock := r.now } with
    | error e => exact ⟨hAt, fun hWhole _ => hWhole⟩
    | ok result =>
      obtain ⟨plan, renewed⟩ := result
      obtain ⟨hWhole, hCase⟩ := renewPlan_ok hPlan
      dsimp only
      rcases hCase with ⟨rfl, rfl⟩ | ⟨rfl, hCause, hAuthority, data, hProduced, hValid, rfl⟩
      · have hEnd := (carries_completed (o := o) (i := i) r.restart h.marker.isSome).cut steps _ ⟨hAt, hWhole⟩
        exact ⟨hEnd.1, fun _ _ => hEnd.2⟩
      · have hData := hValid
        have hLasts := hAuthority
        rw [hAt.identity] at hData hLasts
        have hEnds := ends_of_issued hLasts (hIssued data hProduced)
        cases hMarker : h.marker with
        | some content =>
          have hFull := hWhole.full hMarker
          rw [hMarker] at hAt
          have hEnd := (carries_publish hData hEnds r.restart).cut steps _
            ⟨hAt, hMarker.symm.trans hFull, Int.le_refl _⟩
          exact ⟨hEnd.1, fun _ _ => hEnd.2⟩
        | none =>
          rw [hMarker] at hAt
          simp only [Option.isSome_none, Bool.false_eq_true, if_false]
          rw [perform_privateWrite _ steps rfl]
          split
          · exact ⟨hAt, fun _ _ => .inl rfl⟩
          · rename_i hSome
            split
            · rename_i hShort
              refine ⟨hAt.mark _, fun _ hNot => ?_⟩
              exact absurd ⟨hMarker, by omega, hShort, hCause, hAuthority, data, hProduced,
                hValid⟩ hNot
            · have hEnd := (carries_publish hData hEnds r.restart).cut (steps - 1 - markerBytes.length)
                  _ ⟨hAt.mark markerBytes, rfl, Int.le_refl _⟩
              exact ⟨hEnd.1, fun _ _ => hEnd.2⟩
  | starts now =>
    have hAt : Kept o i { h with clock := now } := hKept.at hOnward
    unfold renewStep
    dsimp only
    split
    · refine ⟨⟨hAt.identity, hAt.validated, hAt.outlived, ?_⟩, fun hWhole _ => hWhole⟩
      intro c hLoaded hOther
      cases hLoaded
      exact absurd rfl hOther
    · refine ⟨⟨hAt.identity, hAt.validated, hAt.outlived, ?_⟩, fun hWhole _ => hWhole⟩
      intro c hLoaded
      cases hLoaded
  | stops =>
    refine ⟨⟨hKept.identity, hKept.validated, hKept.outlived, ?_⟩, fun hWhole _ => hWhole⟩
    intro c hLoaded
    cases hLoaded

-- Runs That Finish

theorem publish_done {restart : Option Bool} (hWorks : restart ≠ some false) (data : C) {steps : ℕ}
    (hSteps : (publish data :: completed restart true : List (Change D C)).length ≤ steps)
    (h : Host D C) : (perform (publish data :: completed restart true) steps h).1 = true := by
  rw [List.length_cons] at hSteps
  obtain ⟨n, rfl⟩ : ∃ n, steps = n + 1 := ⟨steps - 1, by omega⟩
  exact completed_done hWorks true (by omega) _

/- A run that renews ends on a whole marker, then without one. -/
theorem renewed_done {o : OpenSsl D C} {i : Identity D} {h : Host D C} (hKept : Kept o i h) (hWhole : Whole h)
    {now : ℤ} {data : C} (hData : o.validates i now data = true)
    (hEnds : o.notAfter data ≤ o.authorityEnds i) (hNow : now ≤ h.clock)
    {restart : Option Bool} (hWorks : restart ≠ some false) {steps : ℕ}
    (hSteps : ((if h.marker.isSome then [] else privateWrite) ++
        publish data :: completed restart true : List (Change D C)).length ≤ steps) :
    let result := perform ((if h.marker.isSome then [] else privateWrite) ++
        publish data :: completed restart true) steps h
    result.1 = true ∧ (restart = some true →
        result.2.marker = none ∧ result.2.loaded = some result.2.certificate) := by
  cases hMarker : h.marker with
  | some content =>
    have hFull := hWhole.full hMarker
    rw [hMarker] at hSteps
    have hDone := publish_done hWorks data hSteps h
    have hEnd := (carries_publish hData hEnds restart).done steps h ⟨hKept, hFull, hNow⟩ hDone
    exact ⟨hDone, fun hRestart => hEnd.2.2 hRestart rfl⟩
  | none =>
    rw [hMarker] at hSteps
    simp only [Option.isSome_none, Bool.false_eq_true, if_false] at hSteps ⊢
    rw [perform_privateWrite _ steps hMarker]
    rw [List.length_append, privateWrite, List.length_cons, List.length_map] at hSteps
    rw [if_neg (by omega), if_neg (by
      have hPublish : 0 < (publish data :: completed restart true :
          List (Change D C)).length := Nat.succ_pos _
      omega)]
    have hRest : (publish data :: completed restart true :
          List (Change D C)).length ≤ steps - 1 - markerBytes.length := by
      omega
    have hDone := publish_done hWorks data hRest { h with marker := some markerBytes }
    have hEnd := (carries_publish hData hEnds restart).done _ _ ⟨hKept.mark markerBytes, rfl, hNow⟩ hDone
    exact ⟨hDone, fun hRestart => hEnd.2.2 hRestart rfl⟩

theorem lawful_of_kept {o : OpenSsl D C} {sha256 : Bytes → D} {i : Identity D}
    {h : Host D C} (hIntact : i.Intact sha256) (hKept : Kept o i h)
    (hWhole : Whole h) : Lawful o sha256 h := by
  refine ⟨?_, hKept.marked, ?_⟩
  · rw [hKept.identity]
    exact hKept.validated
  · rintro r hLater ⟨hIssues, hDated, hWorks⟩
    have hAt : Kept o i { h with clock := r.now } := hKept.at hLater
    have hOwn : ({ h with clock := r.now } : Host D C).identity.Intact sha256 := by
      rw [hAt.identity]
      exact hIntact
    by_cases hCause : r.force = true ∨ o.checkend r.now h.certificate = false
    · obtain ⟨data, hProduced, hData, hPlan⟩ := renewPlan_of_issues hOwn hWhole hCause hIssues
      have hLasts := hIssues.1
      rw [hAt.identity] at hData
      rw [hKept.identity] at hLasts
      refine ⟨((if h.marker.isSome then [] else privateWrite) ++
        publish data :: completed r.restart true : List (Change D C)).length, true,
        fun steps hSteps => ?_⟩
      have hDone := renewed_done hAt hWhole hData
        (ends_of_issued hLasts (hDated data hProduced)) (Int.le_refl _) hWorks hSteps
      unfold renewStep
      dsimp only
      rw [hPlan]
      dsimp only
      rw [hDone.1]
      exact ⟨rfl, fun hRestart => ⟨(hDone.2 hRestart).1, fun _ => (hDone.2 hRestart).2⟩⟩
    · rw [not_or, Bool.not_eq_true, Bool.not_eq_false] at hCause
      obtain ⟨before, hBefore, hValid⟩ := hKept.validated
      have hPlan := renewPlan_of_lasts hOwn hWhole hCause (by
        rw [hAt.identity]
        exact validates_later hValid (Int.le_trans hBefore hLater) hCause.2 hKept.outlived)
      refine ⟨(completed r.restart h.marker.isSome : List (Change D C)).length, false, fun steps hSteps => ?_⟩
      have hDone := completed_done hWorks h.marker.isSome hSteps { h with clock := r.now }
      have hEnd := (carries_completed (o := o) (i := i) r.restart
          h.marker.isSome).done steps _ ⟨hAt, hWhole⟩ hDone
      unfold renewStep
      dsimp only
      rw [hPlan]
      dsimp only
      rw [hDone]
      refine ⟨rfl, fun hRestart => ?_⟩
      cases hPresent : h.marker with
      | some content =>
        rw [hPresent] at hEnd
        have hLast := hEnd.2.2 hRestart rfl
        exact ⟨hLast.1, fun _ => hLast.2⟩
      | none =>
        refine ⟨?_, ?_⟩
        · rw [hRestart]
          rfl
        · rintro (hSome | hRenewed)
          · cases hSome
          · cases hRenewed

theorem unlawful_of_torn {o : OpenSsl D C} {sha256 : Bytes → D} {h : Host D C}
    (hIntact : h.identity.Intact sha256) {e : Event C} (hIssued : Issued o e)
    (hTears : Tears o h e) : ¬ Lawful o sha256 (renewStep o sha256 h e).2 := by
  intro hLawful
  cases e with
  | renew r steps =>
    have hTorn := renewStep_torn hIntact hTears
    obtain ⟨-, hSome, hShort, -, hIssues⟩ := hTears
    rw [hTorn] at hLawful
    obtain ⟨enough, renewed, hAll⟩ := hLawful.finishes ⟨true, none, r.now, r.produced⟩
      (Int.le_refl _) ⟨hIssues, hIssued, nofun⟩
    have hRefused := (hAll enough (le_refl enough)).1
    unfold renewStep at hRefused
    dsimp only at hRefused
    split at hRefused
    · cases hRefused
    · rename_i hPlan
      rcases (renewPlan_ok hPlan).1 with hNone | hFull
      · cases hNone
      · exact markerBytes_take (by omega) (Option.some.inj hFull)
  | starts now => exact hTears.elim
  | stops => exact hTears.elim

theorem along_cons {σ ι ο : Type} {step : σ → ι → ο × σ} {P : σ → Prop} {s : σ} {e : ι} {rest : List ι} :
    (∀ before, before <+: e :: rest → P (finalState step s before)) ↔
      P s ∧ ∀ before, before <+: rest → P (finalState step (step s e).2 before) := by
  constructor
  · intro hAll
    refine ⟨hAll [] List.nil_prefix, ?_⟩
    intro before hBefore
    exact hAll (e :: before) (List.cons_prefix_cons.mpr ⟨rfl, hBefore⟩)
  · rintro ⟨hFirst, hRest⟩ before hBefore
    cases before with
    | nil => exact hFirst
    | cons e' before =>
      obtain ⟨rfl, hPrefix⟩ := List.cons_prefix_cons.mp hBefore
      exact hRest before hPrefix

theorem kept_along {o : OpenSsl D C} {sha256 : Bytes → D} {i : Identity D}
    {h : Host D C} (hKept : Kept o i h) (events : List (Event C))
    (hOnward : Guarded (renewStep o sha256) Onward h events) (hIssued : ∀ e ∈ events, Issued o e) :
    ∀ before, before <+: events → Kept o i (finalState (renewStep o sha256) h before) := by
  induction events generalizing h with
  | nil =>
    intro before hBefore
    rw [List.prefix_nil.mp hBefore]
    exact hKept
  | cons e rest ih =>
    obtain ⟨hFirst, hRest⟩ := List.forall_mem_cons.mp hIssued
    exact along_cons.mpr ⟨hKept, ih (renewStep_kept hKept hOnward.1 hFirst).1 hOnward.2 hRest⟩

/- A whole marker stays whole exactly where no event tears it. -/
theorem lawful_along {o : OpenSsl D C} {sha256 : Bytes → D} {i : Identity D}
    {h : Host D C} (hIntact : i.Intact sha256) (hKept : Kept o i h) (hWhole : Whole h)
    (events : List (Event C)) (hOnward : Guarded (renewStep o sha256) Onward h events)
    (hIssued : ∀ e ∈ events, Issued o e) :
    (∀ before, before <+: events → Lawful o sha256 (finalState (renewStep o sha256) h before)) ↔
      Guarded (renewStep o sha256) (fun h e => ¬ Tears o h e) h events := by
  have hNow := lawful_of_kept hIntact hKept hWhole
  induction events generalizing h with
  | nil =>
    refine ⟨fun _ => trivial, ?_⟩
    intro _ before hBefore
    rw [List.prefix_nil.mp hBefore]
    exact hNow
  | cons e rest ih =>
    obtain ⟨hFirst, hLater⟩ := List.forall_mem_cons.mp hIssued
    obtain ⟨hNext, hStays⟩ := renewStep_kept hKept hOnward.1 hFirst
    have hRests := fun hUntorn : ¬ Tears o h e =>
      ih hNext (hStays hWhole hUntorn) hOnward.2 hLater (lawful_of_kept hIntact hNext (hStays hWhole hUntorn))
    rw [along_cons, Guarded]
    constructor
    · rintro ⟨-, hRest⟩
      have hUntorn : ¬ Tears o h e := fun hTears => by
        have hOwn : h.identity.Intact sha256 := by
          rw [hKept.identity]
          exact hIntact
        exact unlawful_of_torn hOwn hFirst hTears (hRest [] List.nil_prefix)
      exact ⟨hUntorn, (hRests hUntorn).mp hRest⟩
    · rintro ⟨hUntorn, hRest⟩
      exact ⟨hNow, (hRests hUntorn).mpr hRest⟩

/-
  From a host in order without a marker, on a clock that does
  not step back: the certificate stays validated and a service
  that runs on another one finds the marker; and every state
  of the run serves every renewal exactly where no renewal is
  stopped while it creates the marker.
-/
theorem renewal_law {o : OpenSsl D C} {sha256 : Bytes → D} {h : Host D C} (hIntact : h.identity.Intact sha256)
    (hValidated : ∃ now ≤ h.clock, o.validates h.identity now h.certificate = true)
    (hOutlived : o.notAfter h.certificate ≤ o.authorityEnds h.identity)
    (hLoaded : ∀ c, h.loaded = some c → c = h.certificate) (hMarker : h.marker = none)
    (events : List (Event C)) (hOnward : Guarded (renewStep o sha256) Onward h events)
    (hIssued : ∀ e ∈ events, Issued o e) :
    (∀ before, before <+: events → Kept o h.identity (finalState (renewStep o sha256) h before)) ∧
    ((∀ before, before <+: events → Lawful o sha256 (finalState (renewStep o sha256) h before)) ↔
      Guarded (renewStep o sha256) (fun h e => ¬ Tears o h e) h events) := by
  have hStart : Kept o h.identity h :=
    ⟨rfl, hValidated, hOutlived, fun c hRuns hOther => absurd (hLoaded c hRuns) hOther⟩
  exact ⟨kept_along hStart events hOnward hIssued,
    lawful_along hIntact hStart (.inl hMarker) events hOnward hIssued⟩

-- A Torn Marker

/-
  Leaves are known by the second they were issued; the
  authority has its ten years.
-/
def dated : OpenSsl ℕ ℤ where
  notBefore c := c
  notAfter c := c + leafDays * day
  authorityBegins _ := 0
  authorityEnds _ := 3650 * day
  signed _ _ := true

/- A receiver that was just installed and started. -/
def installed : Host ℕ ℤ :=
  ⟨0, ⟨⟨pyStr "192.0.2.1", 8449, 0⟩, pyStr "192.0.2.1", 8449, [], [], []⟩, none, 0, some 0⟩

/-
  A timer run on a leaf that lasts; on the 75th day a renewal
  whose restart fails, then one that is cut before it writes;
  a run that restarts the service.
-/
def quarter : List (Event ℤ) := [.renew ⟨false, some true, 10 * day, some (10 * day)⟩ 100,
    .renew ⟨false, some false, 75 * day, some (75 * day)⟩ 100,
    .renew ⟨true, some true, 75 * day + 60, some (75 * day + 60)⟩ 0,
    .renew ⟨false, some true, 76 * day, some (76 * day)⟩ 100]

theorem renewal_law_quarter : Lawful dated List.length
    (finalState (renewStep dated List.length) installed quarter) := by
  have hOnward : Guarded (renewStep dated List.length) Onward installed quarter := by
    refine ⟨?_, ?_, ?_, ?_, trivial⟩
    all_goals
      unfold Onward
      decide +kernel
  have hIssued : ∀ e ∈ quarter, Issued dated e := by
    intro e he
    simp only [quarter, List.mem_cons, List.not_mem_nil, or_false] at he
    rcases he with rfl | rfl | rfl | rfl
    all_goals
      intro data hData
      cases hData
      rfl
  have hIntact : installed.identity.Intact List.length := rfl
  refine (renewal_law hIntact ⟨0, by decide, by decide +kernel⟩ (by decide +kernel) ?_ rfl quarter
    hOnward hIssued).2.mpr ?_ _ List.prefix_rfl
  · intro c hRuns
    cases hRuns
    rfl
  · refine ⟨?_, ?_, ?_, ?_, trivial⟩
    all_goals
      rintro ⟨hNone, hSome, hShort, -⟩
      revert hNone hSome hShort
      decide +kernel

/-
  A renewal that is stopped after it opened the marker leaves
  a host that refuses the next one.
-/
theorem renewal_law_fails : renewPlan dated List.length ⟨true, some true, 6, some 6⟩
        (finalState (renewStep dated List.length) installed [.renew ⟨true, some true, 5, some 5⟩ 1]) =
      .error .restartMarker ∧
    ¬ Lawful dated List.length (finalState (renewStep dated List.length) installed
          [.renew ⟨true, some true, 5, some 5⟩ 1]) := by
  have hIntact : installed.identity.Intact List.length := rfl
  constructor
  · rfl
  · refine unlawful_of_torn hIntact ?_ ⟨rfl, le_refl 1, by decide, .inl rfl, by decide +kernel, 5, rfl,
      by decide +kernel⟩
    intro data hData
    cases hData
    rfl

end SingboxOps.QualityReceiver
