import SingboxOps.RemoteIngest.Plane
import SingboxOps.Lib.ExactRat
import SingboxOps.Lib.Json.Dict
import SingboxOps.Lib.TokenBucket
import SingboxOps.Lib.Trace

/-
  The authenticated rate limit over whole runs of requests.

  Times are taken as exact: `Exact` says that the format rounds
  nothing.
-/

namespace SingboxOps.RemoteIngest

open PyFloat

variable {F : Type} [PyFloat F]

-- Runs

/- An authenticated request and the readings of the clock. -/
structure Request (F : Type) where
  probeId : PyStr
  ticks : Ticks F

/- A limiter that was just made. -/
def RateLimiter.fresh (now : F) : RateLimiter F := ⟨TokenBucket.full 20 240 now, []⟩

/- What the bucket of the probe answers. -/
def RateLimiter.ownAnswer (l : RateLimiter F) (r : Request F) : Bool × ℤ :=
  ((l.bucket r.probeId r.ticks.created).1.check r.ticks.probe).1

def rateStep (l : RateLimiter F) (r : Request F) : (Bool × ℤ) × RateLimiter F :=
  let admitted := l.admit r.probeId r.ticks
  (l.ownAnswer r, admitted.2)

/- How many requests of a probe passed its bucket. -/
def passes (probeId : PyStr) (h : List (Request F × (Bool × ℤ))) : ℕ :=
  (h.filter (fun e => decide (e.1.probeId = probeId) && e.2.1)).length

/- The format rounds no time and no number of tokens. -/
def Exact (F : Type) [PyFloat F] : Prop := ∀ q : ℚ, toRat (round q : F) = q

-- Buckets

/- The bucket as an exact one. -/
def TokenBucket.exact (b : TokenBucket F) : Bucket := ⟨toRat b.tokens, toRat b.updated⟩

theorem TokenBucket.refilled_exact (hExact : Exact F) (b : TokenBucket F)
    (now : F) : toRat (b.refilled now) = b.exact.level b.rate b.burst (toRat now) := by
  unfold TokenBucket.refilled Bucket.level TokenBucket.exact
  simp only [add, sub, hExact _]
  split
  · rename_i hFull
    rw [hExact, min_eq_left hFull]
  · rename_i hRoom
    rw [hExact, min_eq_right (le_of_not_ge hRoom)]

theorem TokenBucket.check_exact (hExact : Exact F) (b : TokenBucket F) (now : F) :
    ((b.check now).1.1, (b.check now).2.exact) = b.exact.take b.rate b.burst (toRat now) := by
  have hUpdated : toRat (if toRat b.updated < toRat now then now else b.updated) =
        max (toRat now) (toRat b.updated) := by
    split
    · rename_i hNew
      rw [max_eq_left hNew.le]
    · rename_i hOld
      rw [max_eq_right (not_lt.mp hOld)]
  unfold TokenBucket.check Bucket.take
  rw [← b.refilled_exact hExact now]
  by_cases hOne : 1 ≤ toRat (b.refilled now)
  · simp only [hOne, if_true, TokenBucket.exact, sub, hExact _, hUpdated]
  · simp only [hOne, if_false, TokenBucket.exact, hUpdated]

theorem TokenBucket.check_shape (b : TokenBucket F)
    (now : F) : (b.check now).2.rate = b.rate ∧ (b.check now).2.burst = b.burst := by
  unfold TokenBucket.check
  dsimp only
  split <;> exact ⟨rfl, rfl⟩

theorem TokenBucket.check_refused (hExact : Exact F) {b : TokenBucket F} {now : F}
    (h : (b.check now).1.1 = false) :
    (1 - (b.check now).2.exact.tokens) / b.rate ≤ ((b.check now).1.2 : ℚ) := by
  unfold TokenBucket.check at h ⊢
  dsimp only at h ⊢
  split at h
  · cases h
  · rename_i hNone
    rw [if_neg hNone]
    simp only [TokenBucket.exact, hExact _]
    set needed := (1 - toRat (b.refilled now)) / b.rate with hNeeded
    have hCeil : needed ≤ ((⌊needed⌋ + if Int.fract needed = 0 then 0 else 1 : ℤ) : ℚ) := by
      have hFloor := Int.floor_add_fract needed
      split
      · rename_i hWhole
        rw [hWhole] at hFloor
        push_cast
        linarith
      · have hFract := Int.fract_lt_one needed
        push_cast
        linarith
    refine hCeil.trans ?_
    exact_mod_cast le_max_right _ _

/- The rates of a probe's bucket, and no debt. -/
structure TokenBucket.Sound (b : TokenBucket F) : Prop where
  rate : b.rate = 2
  burst : b.burst = 120
  tokens : 0 ≤ b.exact.tokens

theorem TokenBucket.sound_full (hExact : Exact F) (now : F) : (TokenBucket.full 2 120 now).Sound where
  rate := rfl
  burst := rfl
  tokens := by
    simp only [TokenBucket.exact, TokenBucket.full, hExact _]
    norm_num

theorem TokenBucket.Sound.check_take {b : TokenBucket F} (hSound : b.Sound) (hExact : Exact F) (now : F) :
    (b.check now).1.1 = (b.exact.take 2 120 (toRat now)).1 ∧
      (b.check now).2.exact = (b.exact.take 2 120 (toRat now)).2 := by
  have hCheck := b.check_exact hExact now
  rw [hSound.rate, hSound.burst] at hCheck
  exact ⟨congrArg Prod.fst hCheck, congrArg Prod.snd hCheck⟩

theorem TokenBucket.Sound.check {b : TokenBucket F} (hSound : b.Sound) (hExact : Exact F)
    (now : F) : (b.check now).2.Sound where
  rate := (b.check_shape now).1.trans hSound.rate
  burst := (b.check_shape now).2.trans hSound.burst
  tokens := by
    rw [(hSound.check_take hExact now).2]
    exact Bucket.tokens_nonneg (by norm_num) (by norm_num) hSound.tokens

-- Steps

theorem getItem_setItem {V : Type} (members : List (PyStr × V)) (key other : PyStr) (value : V) :
    Json.getItem (Json.setItem members key value) other =
      if key = other then some value
      else Json.getItem members other := by
  induction members with
  | nil => rfl
  | cons m rest ih =>
    rw [Json.setItem]
    split
    · rename_i hKey
      rw [Json.getItem, Json.getItem, hKey]
      split <;> rfl
    · rename_i hKey
      rw [Json.getItem, Json.getItem, ih]
      split
      · rename_i hOther
        rw [if_neg]
        intro hEq
        exact hKey (hOther.trans hEq.symm)
      · rfl

theorem getItem_filterOut {V : Type} {p : PyStr → Bool} {key : PyStr} (hKey : p key = false)
    (members : List (PyStr × V)) :
    Json.getItem (members.filter (fun m => p m.1)) key = none := by
  induction members with
  | nil => rfl
  | cons m rest ih =>
    by_cases hEq : m.1 = key
    · rw [List.filter_cons_of_neg (by rw [hEq, hKey]; simp)]
      exact ih
    · by_cases hp : p m.1 = true
      · rw [List.filter_cons, if_pos hp, Json.getItem, if_neg hEq]
        exact ih
      · rw [List.filter_cons, if_neg hp]
        exact ih

theorem getItem_of_not_mem {V : Type} {members : List (PyStr × V)} {key : PyStr}
    (h : key ∉ Json.keys members) : Json.getItem members key = none := by
  induction members with
  | nil => rfl
  | cons m rest ih =>
    rw [Json.keys, List.map_cons, List.mem_cons, not_or] at h
    rw [Json.getItem, if_neg (Ne.symm h.1)]
    exact ih h.2

/- The bucket a probe has. -/
def RateLimiter.has (l : RateLimiter F) (probeId : PyStr) : Option (TokenBucket F) :=
  Json.getItem l.perProbe probeId

/- The bucket that answers a request. -/
def RateLimiter.found (l : RateLimiter F) (r : Request F) : TokenBucket F :=
  (l.has r.probeId).getD (TokenBucket.full 2 120 r.ticks.created)

theorem bucket_found (l : RateLimiter F)
    (r : Request F) : (l.bucket r.probeId r.ticks.created).1 = l.found r := by
  unfold RateLimiter.bucket RateLimiter.found RateLimiter.has
  cases Json.getItem l.perProbe r.probeId <;> rfl

theorem ownAnswer_found (l : RateLimiter F)
    (r : Request F) : l.ownAnswer r = ((l.found r).check r.ticks.probe).1 := by
  unfold RateLimiter.ownAnswer
  rw [bucket_found]

theorem perProbe_step (l : RateLimiter F) (r : Request F) : (rateStep l r).2.perProbe =
      Json.setItem (l.bucket r.probeId r.ticks.created).2.perProbe
        r.probeId ((l.found r).check r.ticks.probe).2 := by
  unfold rateStep RateLimiter.admit
  dsimp only
  rw [bucket_found]
  split <;> rfl

theorem has_step_own (l : RateLimiter F) (r : Request F) :
    (rateStep l r).2.has r.probeId = some ((l.found r).check r.ticks.probe).2 := by
  rw [RateLimiter.has, perProbe_step, getItem_setItem, if_pos rfl]

theorem has_step_other (l : RateLimiter F) {r : Request F} {probeId : PyStr} (hOther : r.probeId ≠ probeId) :
    (rateStep l r).2.has probeId = l.has probeId ∨ (rateStep l r).2.has probeId = none := by
  rw [RateLimiter.has, perProbe_step, getItem_setItem, if_neg hOther]
  unfold RateLimiter.bucket
  split
  · exact .inl rfl
  · dsimp only
    rw [getItem_setItem, if_neg hOther]
    split
    · set evicted := ((l.perProbe.map Prod.fst).insertionSort (· ≤ ·)).take (maxBuckets / 2) with hEvicted
      cases hGone : evicted.contains probeId with
      | true =>
        refine .inr (getItem_filterOut (p := fun k => !evicted.contains k) ?_ l.perProbe)
        rw [hGone]
        rfl
      | false =>
        refine .inl (Json.getItem_filterKeys (p := fun k =>
          !evicted.contains k) ?_ l.perProbe)
        rw [hGone]
        rfl
    · exact .inl rfl

/- Every bucket of a limiter is sound. -/
def RateLimiter.Sound (l : RateLimiter F) : Prop := ∀ probeId b, l.has probeId = some b → b.Sound

theorem RateLimiter.Sound.found {l : RateLimiter F} (hSound : l.Sound) (hExact : Exact F)
    (r : Request F) : (l.found r).Sound := by
  unfold RateLimiter.found
  cases hHas : l.has r.probeId with
  | none => exact TokenBucket.sound_full hExact _
  | some b => exact hSound r.probeId b hHas

theorem RateLimiter.Sound.step {l : RateLimiter F} (hSound : l.Sound) (hExact : Exact F)
    (r : Request F) : (rateStep l r).2.Sound := by
  intro probeId b hHas
  by_cases hOwn : r.probeId = probeId
  · rw [← hOwn, has_step_own] at hHas
    cases hHas
    exact (hSound.found hExact r).check hExact _
  · rcases has_step_other l hOwn with hSame | hGone
    · rw [hSame] at hHas
      exact hSound probeId b hHas
    · rw [hGone] at hHas
      cases hHas

theorem RateLimiter.Sound.run {l : RateLimiter F} (hSound : l.Sound) (hExact : Exact F)
    (requests : List (Request F)) : (finalState rateStep l requests).Sound := by
  induction requests generalizing l with
  | nil => exact hSound
  | cons r rest ih => exact ih (hSound.step hExact r)

theorem RateLimiter.sound_fresh (now : F) : (RateLimiter.fresh now).Sound :=
  fun probeId b hHas => by cases hHas

-- The Bound

/- The requests of a probe read the clock within these times. -/
def Within (probeId : PyStr) (first last : ℚ) (requests : List (Request F)) : Prop :=
  ∀ r ∈ requests, r.probeId = probeId →
    first ≤ toRat r.ticks.created ∧ toRat r.ticks.created ≤ last ∧
      first ≤ toRat r.ticks.probe ∧ toRat r.ticks.probe ≤ last

/-
  Where the bucket of a probe is evicted, it had refilled by
  then, and later the clock does not go back behind that.
-/
def Refilled (probeId : PyStr) : RateLimiter F → List (Request F) → Prop
  | _, [] => True
  | l, r :: rest =>
    (∀ b, l.has probeId = some b → (rateStep l r).2.has probeId = none →
        b.burst ≤ toRat b.tokens + (toRat r.ticks.created - toRat b.updated) * b.rate ∧
          ∀ r' ∈ rest, r'.probeId = probeId → toRat r.ticks.created ≤ toRat r'.ticks.created ∧
              toRat r.ticks.created ≤ toRat r'.ticks.probe) ∧
    Refilled probeId (rateStep l r).2 rest

/- What a probe's bucket, or a new one, can give out. -/
def RateLimiter.worth (l : RateLimiter F) (probeId : PyStr) (first last : ℚ) : ℚ :=
  match l.has probeId with
  | some b => b.exact.reserve 2 last
  | none => 120 + (last - first) * 2

omit [PyFloat F] in
theorem passes_cons (probeId : PyStr) (r : Request F) (answer : Bool × ℤ)
    (h : List (Request F × (Bool × ℤ))) : (passes probeId ((r, answer) :: h) : ℚ) =
      (if r.probeId = probeId then Bucket.count answer.1 else 0) + passes probeId h := by
  unfold passes
  rw [List.filter_cons]
  by_cases hOwn : r.probeId = probeId
  · cases hPassed : answer.1 with
    | true =>
      rw [if_pos (by simp [hOwn]), if_pos hOwn, List.length_cons]
      simp [Bucket.count, add_comm]
    | false =>
      rw [if_neg (by simp), if_pos hOwn]
      simp [Bucket.count]
  · rw [if_neg (by simp [hOwn]), if_neg hOwn, zero_add]

theorem passes_none {probeId : PyStr} {requests : List (Request F)} (h : ∀ r ∈ requests, r.probeId ≠ probeId)
    (l : RateLimiter F) : passes probeId (history rateStep l requests) = 0 := by
  have hNone : ∀ e ∈ history rateStep l requests, e.1.probeId ≠ probeId := by
    intro e he
    have hMem : e.1 ∈ requests := by
      rw [← map_fst_history rateStep l requests]
      exact List.mem_map.mpr ⟨e, he, rfl⟩
    exact h e.1 hMem
  unfold passes
  rw [List.length_eq_zero_iff, List.filter_eq_nil_iff]
  intro e he
  simp [hNone e he]

theorem reserve_nonneg {b : TokenBucket F} (hSound : b.Sound) (last : ℚ) : 0 ≤ b.exact.reserve 2 last := by
  have hIdle := le_max_left 0 (last - b.exact.updated)
  have hTokens := hSound.tokens
  unfold Bucket.reserve
  linarith

theorem passes_worth (hExact : Exact F) {l : RateLimiter F} (hSound : l.Sound)
    {probeId : PyStr} {requests : List (Request F)} {first last : ℚ}
    (hSpan : first ≤ last) (hWithin : Within probeId first last requests)
    (hRefilled : Refilled probeId l requests) :
    (passes probeId (history rateStep l requests) : ℚ) ≤ l.worth probeId first last := by
  induction requests generalizing l first with
  | nil =>
    have hWorth : 0 ≤ l.worth probeId first last := by
      unfold RateLimiter.worth
      split
      · rename_i b hHas
        exact reserve_nonneg (hSound probeId b hHas) last
      · linarith
    exact hWorth
  | cons r rest ih =>
    have hRest : Within probeId first last rest := fun r' hr' => hWithin r' (List.mem_cons_of_mem r hr')
    have hStep := hSound.step hExact r
    rw [history, passes_cons]
    by_cases hOwn : r.probeId = probeId
    · have hBound := ih hStep hSpan hRest hRefilled.2
      obtain ⟨hCreated, -, -, hLast⟩ := hWithin r List.mem_cons_self hOwn
      have hFound := hSound.found hExact r
      have hTake := hFound.check_take hExact r.ticks.probe
      have hReserve := Bucket.take_reserve 2 120 (l.found r).exact hLast
      rw [if_pos hOwn]
      have hAnswer : (rateStep l r).1.1 = ((l.found r).exact.take 2 120 (toRat r.ticks.probe)).1 := by
        rw [← hTake.1]
        exact congrArg Prod.fst (ownAnswer_found l r)
      have hNext : (rateStep l r).2.worth probeId first last =
            ((l.found r).exact.take 2 120 (toRat r.ticks.probe)).2.reserve 2 last := by
        unfold RateLimiter.worth
        rw [← hOwn, has_step_own, ← hTake.2]
      have hStart : (l.found r).exact.reserve 2 last ≤ l.worth probeId first last := by
        unfold RateLimiter.worth RateLimiter.found
        rw [hOwn]
        cases hHas : l.has probeId with
        | some b => exact le_refl _
        | none =>
          simp only [Option.getD_none, TokenBucket.exact, TokenBucket.full, Bucket.reserve, hExact _]
          have hIdle : max 0 (last - toRat r.ticks.created) ≤ last - first :=
            max_le (by linarith) (by linarith)
          linarith
      rw [hAnswer]
      rw [hNext] at hBound
      linarith
    · rw [if_neg hOwn, zero_add]
      rcases has_step_other l hOwn with hSame | hGone
      · have hBound := ih hStep hSpan hRest hRefilled.2
        unfold RateLimiter.worth at hBound ⊢
        rw [hSame] at hBound
        exact hBound
      · cases hHas : l.has probeId with
        | none =>
          have hBound := ih hStep hSpan hRest hRefilled.2
          unfold RateLimiter.worth at hBound ⊢
          rw [hGone] at hBound
          rw [hHas]
          exact hBound
        | some b =>
          have hBucket := hSound probeId b hHas
          obtain ⟨hFull, hLater⟩ := hRefilled.1 b hHas hGone
          have hWorth : l.worth probeId first last = b.exact.reserve 2 last := by
            unfold RateLimiter.worth
            rw [hHas]
          rw [hWorth]
          rcases le_or_gt (toRat r.ticks.created) last with
            hEarly | hPast
          · -- A new bucket is worth no more than the refilled one.
            have hBound := ih hStep hEarly (fun r' hr' hOwn' =>
                  have hTimes := hRest r' hr' hOwn'
                  have hAfter := hLater r' hr' hOwn'
                  ⟨hAfter.1, hTimes.2.1, hAfter.2, hTimes.2.2.2⟩)
                hRefilled.2
            unfold RateLimiter.worth at hBound
            rw [hGone] at hBound
            rw [hBucket.rate, hBucket.burst] at hFull
            have hIdle := le_max_right 0 (last - b.exact.updated)
            unfold Bucket.reserve
            simp only [TokenBucket.exact] at hIdle ⊢
            linarith
          · have hNone : ∀ r' ∈ rest, r'.probeId ≠ probeId := by
              intro r' hr' hOwn'
              have hTimes := hRest r' hr' hOwn'
              have hAfter := hLater r' hr' hOwn'
              linarith [hTimes.2.1, hAfter.1]
            rw [passes_none hNone]
            exact reserve_nonneg hBucket last

/- In a span of time a probe passes its burst and what refills. -/
theorem rate_bound (hExact : Exact F) {l : RateLimiter F} (hSound : l.Sound)
    {probeId : PyStr} {requests : List (Request F)} {first last : ℚ}
    (hSpan : first ≤ last) (hWithin : Within probeId first last requests)
    (hRefilled : Refilled probeId l requests) :
    (passes probeId (history rateStep l requests) : ℚ) ≤ 120 + 2 * (last - first) := by
  induction requests generalizing l with
  | nil =>
    have hEmpty : passes probeId (history rateStep l []) = 0 := rfl
    rw [hEmpty]
    push_cast
    linarith
  | cons r rest ih =>
    have hRest : Within probeId first last rest := fun r' hr' => hWithin r' (List.mem_cons_of_mem r hr')
    have hStep := hSound.step hExact r
    rw [history, passes_cons]
    by_cases hOwn : r.probeId = probeId
    · -- The first request of the probe meets a bucket no more than full.
      have hBound := passes_worth hExact hStep hSpan hRest hRefilled.2
      obtain ⟨-, -, hFirst, hLast⟩ := hWithin r List.mem_cons_self hOwn
      have hTake := (hSound.found hExact r).check_take hExact r.ticks.probe
      have hReserve := Bucket.take_reserve_first 2 120 (l.found r).exact (by norm_num) hFirst hLast
      have hAnswer : (rateStep l r).1.1 = ((l.found r).exact.take 2 120 (toRat r.ticks.probe)).1 := by
        rw [← hTake.1]
        exact congrArg Prod.fst (ownAnswer_found l r)
      have hNext : (rateStep l r).2.worth probeId first last =
            ((l.found r).exact.take 2 120 (toRat r.ticks.probe)).2.reserve 2 last := by
        unfold RateLimiter.worth
        rw [← hOwn, has_step_own, ← hTake.2]
      rw [if_pos hOwn, hAnswer]
      rw [hNext] at hBound
      linarith
    · rw [if_neg hOwn, zero_add]
      exact ih hStep hRest hRefilled.2

-- Evictions

omit [PyFloat F] in
theorem passes_append (probeId : PyStr) (h h' : List (Request F × (Bool × ℤ))) :
    passes probeId (h ++ h') = passes probeId h + passes probeId h' := by
  unfold passes
  rw [List.filter_append, List.length_append]

/- The probes that have a bucket, the older bucket first. -/
def RateLimiter.ids (l : RateLimiter F) : List PyStr := Json.keys l.perProbe

omit [PyFloat F] in
theorem has_of_not_mem {l : RateLimiter F} {probeId : PyStr}
    (h : probeId ∉ l.ids) : l.has probeId = none := by
  unfold RateLimiter.has
  exact getItem_of_not_mem h

theorem ids_step_new {l : RateLimiter F} {r : Request F} (hNew : r.probeId ∉ l.ids)
    (hRoom : l.ids.length < maxBuckets) : (rateStep l r).2.ids = l.ids ++ [r.probeId] := by
  have hLength : ¬ maxBuckets ≤ l.perProbe.length := by
    unfold RateLimiter.ids Json.keys at hRoom
    rw [List.length_map] at hRoom
    omega
  have hNone : Json.getItem l.perProbe r.probeId = none := has_of_not_mem hNew
  unfold RateLimiter.ids
  rw [perProbe_step, Json.keys_setItem]
  unfold RateLimiter.bucket
  rw [hNone]
  dsimp only
  have hAbsent : r.probeId ∉ Json.keys l.perProbe := hNew
  rw [if_neg hLength, Json.keys_setItem, if_neg hAbsent, if_pos (by simp)]

theorem ids_step_old {l : RateLimiter F} {r : Request F} {b : TokenBucket F}
    (hHas : l.has r.probeId = some b) : (rateStep l r).2.ids = l.ids := by
  have hMem : r.probeId ∈ Json.keys l.perProbe := by
    by_contra hNot
    rw [RateLimiter.has, getItem_of_not_mem hNot] at hHas
    cases hHas
  have hSome : Json.getItem l.perProbe r.probeId = some b := hHas
  unfold RateLimiter.ids
  rw [perProbe_step, Json.keys_setItem]
  unfold RateLimiter.bucket
  rw [hSome]
  exact if_pos hMem

theorem ids_fill {l : RateLimiter F} {requests : List (Request F)}
    (hNodup : (l.ids ++ requests.map Request.probeId).Nodup)
    (hRoom : l.ids.length + requests.length ≤ maxBuckets) :
    (finalState rateStep l requests).ids = l.ids ++ requests.map Request.probeId := by
  induction requests generalizing l with
  | nil => exact (List.append_nil _).symm
  | cons r rest ih =>
    have hNew : r.probeId ∉ l.ids := by
      intro hMem
      exact (List.disjoint_of_nodup_append hNodup) hMem List.mem_cons_self
    rw [List.length_cons] at hRoom
    have hStep := ids_step_new hNew (by omega)
    rw [finalState, ih]
    · rw [hStep, List.append_assoc]
      rfl
    · rw [hStep, List.append_assoc]
      exact hNodup
    · rw [hStep, List.length_append, List.length_singleton]
      omega

theorem has_evicted {l : RateLimiter F} {r : Request F} {probeId : PyStr}
    (hNew : r.probeId ∉ l.ids) (hFull : maxBuckets ≤ l.ids.length)
    (hFirst : probeId ∈ (l.ids.insertionSort (· ≤ ·)).take (maxBuckets / 2))
    (hOther : r.probeId ≠ probeId) : (rateStep l r).2.has probeId = none := by
  have hLength : maxBuckets ≤ l.perProbe.length := by
    unfold RateLimiter.ids Json.keys at hFull
    rwa [List.length_map] at hFull
  have hNone : Json.getItem l.perProbe r.probeId = none := has_of_not_mem hNew
  rw [RateLimiter.has, perProbe_step, getItem_setItem, if_neg hOther]
  unfold RateLimiter.bucket
  rw [hNone]
  dsimp only
  rw [getItem_setItem, if_neg hOther, if_pos hLength]
  refine getItem_filterOut (p := fun k =>
    !((((l.perProbe.map Prod.fst).insertionSort (· ≤ ·)).take (maxBuckets / 2)).contains k)) ?_ l.perProbe
  rw [Bool.not_eq_false', List.contains_iff_mem]
  exact hFirst

theorem new_passes (hExact : Exact F) {l : RateLimiter F} {r : Request F}
    (hNone : l.has r.probeId = none) : (rateStep l r).1.1 = true := by
  have hFound : l.found r = TokenBucket.full 2 120 r.ticks.created := by
    unfold RateLimiter.found
    rw [hNone]
    rfl
  have hSound := TokenBucket.sound_full hExact r.ticks.created
  have hAnswer : (rateStep l r).1.1 = ((l.found r).exact.take 2 120 (toRat r.ticks.probe)).1 := by
    rw [hFound, ← (hSound.check_take hExact r.ticks.probe).1, ← hFound]
    exact congrArg Prod.fst (ownAnswer_found l r)
  have hLevel : 1 ≤ (TokenBucket.full 2 120 r.ticks.created).exact.level 2 120 (toRat r.ticks.probe) := by
    have hIdle := le_max_left 0 (toRat r.ticks.probe - toRat r.ticks.created)
    refine le_min (by norm_num) ?_
    simp only [TokenBucket.exact, TokenBucket.full, hExact _]
    linarith
  rw [hAnswer, hFound]
  unfold Bucket.take
  rw [if_pos hLevel]

-- The Hint

theorem has_others {probeId : PyStr} {requests : List (Request F)} (h : ∀ r ∈ requests, r.probeId ≠ probeId)
    (l : RateLimiter F) :
    (finalState rateStep l requests).has probeId = l.has probeId ∨
      (finalState rateStep l requests).has probeId = none := by
  induction requests generalizing l with
  | nil => exact .inl rfl
  | cons r rest ih =>
    have hRest := ih (fun r' hr' => h r' (List.mem_cons_of_mem r hr')) (rateStep l r).2
    rcases hRest with hSame | hGone
    · rcases has_step_other l (h r List.mem_cons_self) with
        hStep | hStep
      · exact .inl (hSame.trans hStep)
      · exact .inr (hSame.trans hStep)
    · exact .inr hGone

/-
  A refused probe that comes back so many seconds after the
  latest reading its bucket has seen is let through.
-/
theorem retry_sufficient (hExact : Exact F) {l : RateLimiter F} (hSound : l.Sound)
    {r r' : Request F} {others : List (Request F)} (hRefused : (rateStep l r).1.1 = false)
    (hOthers : ∀ o ∈ others, o.probeId ≠ r.probeId) (hSame : r'.probeId = r.probeId)
    (hLater : ∀ b, (rateStep l r).2.has r.probeId = some b →
        toRat b.updated + ((rateStep l r).1.2 : ℚ) ≤ toRat r'.ticks.probe) :
    (rateStep (finalState rateStep (rateStep l r).2 others) r').1.1 = true := by
  set after := finalState rateStep (rateStep l r).2 others with hAfter
  have hSoundAfter : after.Sound := (hSound.step hExact r).run hExact others
  have hTake := (hSoundAfter.found hExact r').check_take hExact r'.ticks.probe
  have hAnswer : (rateStep after r').1.1 = ((after.found r').exact.take 2 120 (toRat r'.ticks.probe)).1 := by
    rw [← hTake.1]
    exact congrArg Prod.fst (ownAnswer_found after r')
  have hOwn := has_step_own l r
  rcases has_others hOthers (rateStep l r).2 with hKept | hGone
  · have hFound : after.found r' = ((l.found r).check r.ticks.probe).2 := by
      unfold RateLimiter.found
      rw [hSame, hKept, hOwn]
      rfl
    have hNone : ((l.found r).check r.ticks.probe).1.1 = false := by
      rw [← hRefused]
      exact (congrArg Prod.fst (ownAnswer_found l r)).symm
    have hHint := TokenBucket.check_refused hExact hNone
    rw [(hSound.found hExact r).rate] at hHint
    have hRetry : (rateStep l r).1.2 = ((l.found r).check r.ticks.probe).1.2 :=
      congrArg Prod.snd (ownAnswer_found l r)
    have hTime := hLater _ hOwn
    rw [hRetry] at hTime
    rw [hAnswer, hFound]
    exact Bucket.take_after (by norm_num) (by norm_num) hHint hTime
  · exact new_passes hExact (by rw [hSame]; exact hGone)

/-
  From a limiter that was just made: in a stretch of requests
  whose readings span a time, a probe passes its bucket no more
  often than its burst and what refills in that time, where
  its bucket is evicted only after it had refilled; and the
  hint of a refusal is long enough from the latest reading.
-/
theorem rate_law (hExact : Exact F) (now : F) (before : List (Request F)) :
    let l := finalState rateStep (RateLimiter.fresh now) before
    (∀ probeId requests first last, first ≤ last → Within probeId first last requests →
      Refilled probeId l requests →
        (passes probeId (history rateStep l requests) : ℚ) ≤ 120 + 2 * (last - first)) ∧
    (∀ r r' others, (rateStep l r).1.1 = false → (∀ o ∈ others, o.probeId ≠ r.probeId) →
      r'.probeId = r.probeId →
      (∀ b, (rateStep l r).2.has r.probeId = some b →
        toRat b.updated + ((rateStep l r).1.2 : ℚ) ≤ toRat r'.ticks.probe) →
        (rateStep (finalState rateStep (rateStep l r).2 others) r').1.1 = true) := by
  have hSound := (RateLimiter.sound_fresh now).run hExact before
  exact ⟨fun _ _ _ _ hSpan hWithin hRefilled =>
      rate_bound hExact hSound hSpan hWithin hRefilled,
    fun _ _ _ hRefused hOthers hSame hLater =>
      retry_sufficient hExact hSound hRefused hOthers hSame hLater⟩

-- Where the Bound Is Passed

/- A probe id of four letters; the ids are in their order. -/
def nthId (n : ℕ) : PyStr := [112, 97 + n / 256, 97 + n / 16 % 16, 97 + n % 16]

/- A request whose readings of the clock agree. -/
def requestAt (n : ℕ) (now : ℚ) : Request ExactRat := ⟨nthId n, ⟨⟨now⟩, ⟨now⟩, ⟨now⟩, ⟨now⟩⟩⟩

/- As many requests of a probe as its burst. -/
def drain (now : ℚ) : List (Request ExactRat) := List.replicate 120 (requestAt 0 now)

/- The bucket of a probe with so many tokens. -/
def holding (tokens now : ℚ) : TokenBucket ExactRat := ⟨2, 120, ⟨tokens⟩, ⟨now⟩⟩

theorem check_holding {tokens : ℚ} (now : ℚ) (hOne : 1 ≤ tokens) (hBurst : tokens ≤ 120) :
    (holding tokens now).check ⟨now⟩ = ((true, 0), holding (tokens - 1) now) := by
  have hRefilled : (holding tokens now).refilled ⟨now⟩ = ⟨tokens⟩ := by
    have hTotal : tokens + max 0 (now - now) * 2 = tokens := by
      rw [sub_self, max_self, zero_mul, add_zero]
    unfold TokenBucket.refilled
    change (if (120 : ℚ) ≤ tokens + max 0 (now - now) * 2 then
      (⟨120⟩ : ExactRat) else ⟨tokens + max 0 (now - now) * 2⟩) = _
    rw [hTotal]
    split
    · rename_i hFull
      rw [le_antisymm hBurst hFull]
    · rfl
  have hUpdated : (if toRat (holding tokens now).updated < toRat (⟨now⟩ : ExactRat)
        then (⟨now⟩ : ExactRat) else (holding tokens now).updated) =
      ⟨now⟩ := by
    split <;> rfl
  unfold TokenBucket.check
  dsimp only
  rw [hRefilled, hUpdated, if_pos (show 1 ≤ toRat (⟨tokens⟩ : ExactRat)
    from hOne)]
  rfl

theorem step_holding {l : RateLimiter ExactRat} {tokens now : ℚ}
    (hFound : l.found (requestAt 0 now) = holding tokens now) (hOne : 1 ≤ tokens)
    (hBurst : tokens ≤ 120) :
    (rateStep l (requestAt 0 now)).1 = (true, 0) ∧
      (rateStep l (requestAt 0 now)).2.has (nthId 0) = some (holding (tokens - 1) now) := by
  have hCheck := check_holding now hOne hBurst
  have hHas := has_step_own l (requestAt 0 now)
  have hAnswer := ownAnswer_found l (requestAt 0 now)
  have hTicks : (requestAt 0 now).ticks.probe = ⟨now⟩ := rfl
  rw [hFound, hTicks, hCheck] at hHas hAnswer
  exact ⟨hAnswer, hHas⟩

/- A probe with so many tokens uses them up. -/
theorem used_up {l : RateLimiter ExactRat} {n : ℕ} {now : ℚ}
    (hFound : l.found (requestAt 0 now) = holding (n + 1 : ℕ) now)
    (hBurst : n + 1 ≤ 120) : (finalState rateStep l
        (List.replicate (n + 1) (requestAt 0 now))).has (nthId 0) =
        some (holding 0 now) ∧
      (finalState rateStep l (List.replicate (n + 1) (requestAt 0 now))).ids =
        (rateStep l (requestAt 0 now)).2.ids ∧
      passes (nthId 0) (history rateStep l (List.replicate (n + 1) (requestAt 0 now))) = n + 1 := by
  have hOne : (1 : ℚ) ≤ (n + 1 : ℕ) := by exact_mod_cast Nat.le_add_left 1 n
  obtain ⟨hAnswer, hHas⟩ := step_holding hFound hOne (by exact_mod_cast hBurst)
  have hLess : ((n + 1 : ℕ) : ℚ) - 1 = (n : ℕ) := by
    push_cast
    ring
  rw [hLess] at hHas
  have hPasses : ∀ h, passes (nthId 0) ((requestAt 0 now,
        (rateStep l (requestAt 0 now)).1) :: h) = passes (nthId 0) h + 1 := by
    intro h
    rw [hAnswer]
    unfold passes
    rw [List.filter_cons_of_pos (by simp [requestAt]), List.length_cons]
  rw [List.replicate_succ, history, finalState, hPasses]
  cases n with
  | zero =>
    refine ⟨?_, rfl, rfl⟩
    rw [Nat.cast_zero] at hHas
    exact hHas
  | succ n =>
    have hNext : (rateStep l (requestAt 0 now)).2.found (requestAt 0 now) = holding (n + 1 : ℕ) now := by
      unfold RateLimiter.found
      rw [show (requestAt 0 now).probeId = nthId 0 from rfl, hHas]
      rfl
    obtain ⟨hLast, hIds, hCount⟩ := used_up hNext (by omega)
    refine ⟨hLast, ?_, ?_⟩
    · rw [hIds]
      exact ids_step_old hHas
    · rw [hCount]

theorem drained (now : ℚ) : (finalState rateStep (RateLimiter.fresh ⟨now⟩) (drain now)).has
        (nthId 0) = some (holding 0 now) ∧
      (finalState rateStep (RateLimiter.fresh ⟨now⟩) (drain now)).ids = [nthId 0] ∧
      passes (nthId 0) (history rateStep (RateLimiter.fresh ⟨now⟩) (drain now)) =
        120 := by
  have hFound : (RateLimiter.fresh ⟨now⟩ : RateLimiter ExactRat).found
        (requestAt 0 now) = holding (119 + 1 : ℕ) now := by
    change (⟨2, 120, ⟨120⟩, ⟨now⟩⟩ : TokenBucket ExactRat) = _
    unfold holding
    norm_num
  obtain ⟨hHas, hIds, hPasses⟩ := used_up hFound (by omega)
  refine ⟨hHas, ?_, hPasses⟩
  refine hIds.trans (ids_step_new ?_ ?_)
  · exact List.not_mem_nil
  · exact (by decide : 0 < maxBuckets)

theorem step_drained (drainedAt now : ℚ) :
    let l := finalState rateStep (RateLimiter.fresh ⟨drainedAt⟩) (drain drainedAt)
    (rateStep l (requestAt 0 now)).1 = ((holding 0 drainedAt).check ⟨now⟩).1 ∧
      (rateStep l (requestAt 0 now)).2.has (nthId 0) = some ((holding 0 drainedAt).check ⟨now⟩).2 := by
  intro l
  have hFound : l.found (requestAt 0 now) = holding 0 drainedAt := by
    unfold RateLimiter.found
    rw [show (requestAt 0 now).probeId = nthId 0 from rfl, (drained drainedAt).1]
    rfl
  have hHas := has_step_own l (requestAt 0 now)
  have hAnswer := ownAnswer_found l (requestAt 0 now)
  rw [hFound] at hHas hAnswer
  exact ⟨hAnswer, hHas⟩

theorem rate_law_at_drained : (passes (nthId 0) (history rateStep
      (finalState rateStep (RateLimiter.fresh ⟨0⟩) (drain 0)) [requestAt 0 0]) : ℚ) ≤ 120 + 2 * (0 - 0) ∧
      (rateStep (finalState rateStep (rateStep (finalState rateStep (RateLimiter.fresh ⟨0⟩) (drain 0))
          (requestAt 0 0)).2 []) (requestAt 0 1)).1.1 =
        true := by
  have hLaw := rate_law ExactRat.round_exact ⟨0⟩ (drain 0)
  obtain ⟨hAnswer, hHas⟩ := step_drained 0 0
  refine ⟨hLaw.1 (nthId 0) [requestAt 0 0] 0 0 (le_refl 0) ?_ ?_,
    hLaw.2 (requestAt 0 0) (requestAt 0 1) [] ?_ (fun o ho => absurd ho List.not_mem_nil) rfl ?_⟩
  · intro r hr hOwn
    rw [List.mem_singleton] at hr
    rw [hr]
    exact ⟨le_refl _, le_refl _, le_refl _, le_refl _⟩
  · refine ⟨?_, trivial⟩
    intro b hb hGone
    rw [hHas] at hGone
    cases hGone
  · rw [hAnswer]
    decide +kernel
  · intro b hb
    rw [show (requestAt 0 0).probeId = nthId 0 from rfl, hHas] at hb
    cases hb
    rw [hAnswer]
    decide +kernel

theorem nthId_lt {i j : ℕ} (hLess : i < j) : nthId i < nthId j := by
  unfold nthId
  simp only [List.cons_lt_cons_iff, List.not_lt_nil, and_false, or_false]
  refine .inr ⟨trivial, ?_⟩
  omega

/- One request of each of so many probes after the first. -/
def crowd (n : ℕ) (now : ℚ) : List (Request ExactRat) := (List.range n).map (fun i => requestAt (i + 1) now)

theorem ids_crowd (n : ℕ) (now : ℚ) :
    [nthId 0] ++ (crowd n now).map Request.probeId = (List.range (n + 1)).map nthId := by
  unfold crowd
  rw [List.map_map, List.range_succ_eq_map, List.map_cons, List.map_map]
  rfl

theorem ids_ordered (n : ℕ) : ((List.range n).map nthId).Pairwise (· < ·) := by
  rw [List.pairwise_map]
  exact List.pairwise_lt_range.imp nthId_lt

theorem drained_evicted {n : ℕ} (now : ℚ) (hMany : n + 1 = maxBuckets) : (finalState rateStep
      (finalState rateStep (RateLimiter.fresh ⟨now⟩) (drain now))
      (crowd n now ++ [requestAt (n + 1) now])).has (nthId 0) = none := by
  obtain ⟨-, hIds, -⟩ := drained now
  have hOrdered := ids_ordered (n + 1)
  have hNodup : ((List.range (n + 1)).map nthId).Nodup := hOrdered.imp ne_of_lt
  have hLength : (crowd n now).length = n := by rw [crowd, List.length_map, List.length_range]
  have hFill : (finalState rateStep (finalState rateStep (RateLimiter.fresh ⟨now⟩) (drain now))
        (crowd n now)).ids = (List.range (n + 1)).map nthId := by
    rw [ids_fill, hIds, ids_crowd]
    · rw [hIds, ids_crowd]
      exact hNodup
    · rw [hIds, hLength, ← hMany, List.length_singleton, add_comm]
  rw [finalState_append]
  refine has_evicted ?_ ?_ ?_ ?_
  · rw [hFill]
    intro hMem
    obtain ⟨i, hi, hEq⟩ := List.mem_map.mp hMem
    exact absurd hEq (ne_of_lt (nthId_lt (List.mem_range.mp hi)))
  · rw [hFill, List.length_map, List.length_range, hMany]
  · rw [hFill, List.Pairwise.insertionSort_eq (hOrdered.imp le_of_lt), List.range_succ_eq_map, List.map_cons]
    exact List.mem_cons_self
  · exact ne_of_gt (nthId_lt (Nat.succ_pos n))

theorem passes_crowd {n : ℕ} (now : ℚ) (l : RateLimiter ExactRat) : passes (nthId 0) (history rateStep l
      (crowd n now ++ [requestAt (n + 1) now])) = 0 := by
  refine passes_none ?_ l
  intro r hr
  rcases List.mem_append.mp hr with hCrowd | hNew
  · obtain ⟨i, -, rfl⟩ := List.mem_map.mp hCrowd
    exact ne_of_gt (nthId_lt (Nat.succ_pos i))
  · rw [List.mem_singleton] at hNew
    rw [hNew]
    exact ne_of_gt (nthId_lt (Nat.succ_pos n))

/-
  A drained probe whose bucket was evicted passes once more at
  the same reading; a clock that went back makes a hint too
  short.
-/
theorem rate_law_fails : (¬ ∀ (now : ExactRat) (before requests : List (Request ExactRat))
        (probeId : PyStr) (first last : ℚ),
      first ≤ last → Within probeId first last requests →
        (passes probeId (history rateStep (finalState rateStep (RateLimiter.fresh now) before)
            requests) : ℚ) ≤ 120 + 2 * (last - first)) ∧
    (¬ ∀ (now : ExactRat) (before others : List (Request ExactRat)) (r r' : Request ExactRat),
      let l := finalState rateStep (RateLimiter.fresh now) before
      (rateStep l r).1.1 = false →
      (∀ o ∈ others, o.probeId ≠ r.probeId) →
      r'.probeId = r.probeId →
      toRat r.ticks.probe + ((rateStep l r).1.2 : ℚ) ≤ toRat r'.ticks.probe →
        (rateStep (finalState rateStep (rateStep l r).2 others) r').1.1 = true) := by
  refine ⟨fun hBound => ?_, fun hHint => ?_⟩
  · obtain ⟨n, hMany⟩ : ∃ n, n + 1 = maxBuckets := ⟨511, rfl⟩
    have hRun := hBound ⟨0⟩ [] (drain 0 ++ ((crowd n 0 ++ [requestAt (n + 1) 0]) ++
        [requestAt 0 0])) (nthId 0) 0 0 (le_refl 0) ?_
    · have hGone := drained_evicted 0 hMany
      have hLast := new_passes ExactRat.round_exact (r := requestAt 0 0) hGone
      have hOnce : ∀ l : RateLimiter ExactRat, (rateStep l (requestAt 0 0)).1.1 = true →
              passes (nthId 0) (history rateStep l [requestAt 0 0]) = 1 := by
        intro l hPassed
        unfold passes history
        rw [List.filter_cons_of_pos (by rw [hPassed]; rfl)]
        rfl
      rw [finalState, history_append, passes_append, history_append, passes_append, (drained 0).2.2,
        passes_crowd 0, hOnce _ hLast] at hRun
      norm_num at hRun
    · intro r hr _
      have hNow : ∀ n, r = requestAt n 0 → (0 : ℚ) ≤ toRat r.ticks.created ∧ toRat r.ticks.created ≤ 0 ∧
            (0 : ℚ) ≤ toRat r.ticks.probe ∧ toRat r.ticks.probe ≤ 0 := by
        intro n hEq
        rw [hEq]
        exact ⟨le_refl _, le_refl _, le_refl _, le_refl _⟩
      rcases List.mem_append.mp hr with hDrain | hRest
      · exact hNow 0 (List.eq_of_mem_replicate hDrain)
      · rcases List.mem_append.mp hRest with hCrowd | hOwn
        · rcases List.mem_append.mp hCrowd with hOne | hNew
          · obtain ⟨i, -, hEq⟩ := List.mem_map.mp hOne
            exact hNow (i + 1) hEq.symm
          · exact hNow (n + 1) (List.mem_singleton.mp hNew)
        · exact hNow 0 (List.mem_singleton.mp hOwn)
  · obtain ⟨hAnswer, hHas⟩ := step_drained 10 0
    have hAgain := hHint ⟨10⟩ (drain 10) [] (requestAt 0 0)
      (requestAt 0 1) ?_ (fun o ho => absurd ho List.not_mem_nil) rfl ?_
    · rw [finalState] at hAgain
      have hFound : (rateStep (finalState rateStep (RateLimiter.fresh ⟨10⟩)
            (drain 10)) (requestAt 0 0)).2.found (requestAt 0 1) = ((holding 0 10).check ⟨0⟩).2 := by
        unfold RateLimiter.found
        rw [show (requestAt 0 1).probeId = nthId 0 from rfl, hHas]
        rfl
      have hSecond := ownAnswer_found (rateStep (finalState rateStep (RateLimiter.fresh ⟨10⟩)
          (drain 10)) (requestAt 0 0)).2 (requestAt 0 1)
      rw [hFound] at hSecond
      have hRefused : (((holding 0 10).check ⟨0⟩).2.check ⟨1⟩).1.1 = false := by
        decide +kernel
      have hPassed : (((holding 0 10).check ⟨0⟩).2.check ⟨1⟩).1.1 = true :=
        (congrArg Prod.fst hSecond).symm.trans hAgain
      rw [hRefused] at hPassed
      cases hPassed
    · rw [hAnswer]
      decide +kernel
    · rw [hAnswer]
      decide +kernel

end SingboxOps.RemoteIngest
