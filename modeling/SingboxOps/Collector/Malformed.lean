import SingboxOps.Collector.Harmless

/-
  Every run of the collector over malformed events.
-/

namespace SingboxOps.DynamicCollector

variable {C : Type} [DecidableEq C] [Objects C]

-- Batches

section Batches

variable {typed : Prop} {t : Tracker C} {now : Number}
variable {events : List (Option (Event C))}

theorem safe_applyEvents (h : Sound t)
    (hFit : ∀ e, some e ∈ events → e.Fit) (hTyped : typed → ∀ e, some e ∈ events → e.Typed)
    (hNow : now.Showable) : Safe typed t (applyEvents now events) := by
  induction events generalizing t with
  | nil => exact Safe.pure h ()
  | cons event rest ih =>
    refine Safe.bind (safe_applyEvent h ?_ ?_ hNow) ?_
    · rintro e rfl
      exact hFit e List.mem_cons_self
    · rintro hT e rfl
      exact hTyped hT e List.mem_cons_self
    · intro _ t' h'
      exact ih h' (fun e he => hFit e (List.mem_cons_of_mem _ he))
        (fun hT e he => hTyped hT e (List.mem_cons_of_mem _ he))

theorem safe_applyRows (h : Sound t)
    (hFit : ∀ e, some e ∈ events → e.RowFit) (hTyped : typed → ∀ e, some e ∈ events → e.Typed)
    (hNow : now.Showable) : Safe typed t (applyRows now events) := by
  induction events generalizing t with
  | nil => exact Safe.pure h []
  | cons event rest ih =>
    refine Safe.bind (safe_applyRow h ?_ ?_ hNow) ?_
    · rintro e rfl
      exact hFit e List.mem_cons_self
    · rintro hT e rfl
      exact hTyped hT e List.mem_cons_self
    · intro seen t' h'
      refine Safe.bind (ih h' (fun e he => hFit e (List.mem_cons_of_mem _ he))
        (fun hT e he => hTyped hT e (List.mem_cons_of_mem _ he)))
        ?_
      intro more t'' h''
      exact Safe.pure h'' _

theorem safe_abandonAll (h : Sound t) (cids : List (Value C)) : Safe typed t (abandonAll cids) := by
  induction cids generalizing t with
  | nil => exact Safe.pure h ()
  | cons cid rest ih =>
    refine Safe.get ?_
    cases hActive : t.active.get cid with
    | none => exact ih h
    | some conn =>
      have hConn := h.activeConn hActive
      have hPopped := h.popActive cid
      refine Safe.change_bind ?_
      refine Safe.bind (Safe.slot ⟨hPopped.active, hPopped.closed, hPopped.finalized,
          hPopped.banked, hPopped.devices⟩
        hConn.2.2.user hConn.2.2.inbound) ?_
      intro _ t' h'
      refine Safe.bind (Safe.recordBanked h' hConn.1 (fun _ => hConn.2.1) hConn.2.2.user hConn.2.2.inbound) ?_
      intro _ t'' h''
      exact ih h''

theorem safe_applyBatch {batch : Option (Batch C)} (h : Sound t) (hFit : ∀ b, batch = some b → b.Fit)
    (hTyped : typed → ∀ b, batch = some b → b.Typed)
    (hNow : now.Showable) : Safe typed t (applyBatch batch now) := by
  cases batch with
  | none => exact Safe.change h.skip
  | some b =>
    have hFitB := hFit b rfl
    have hTypedB : typed → b.Typed := fun hT => hTyped hT b rfl
    unfold applyBatch
    dsimp only
    split
    · exact Safe.pure h ()
    · refine Safe.change_bind ?_
      have hBegun : Sound { t with batchCount := t.batchCount + 1 } :=
        ⟨h.active, h.closed, h.finalized, h.banked, h.devices⟩
      cases hReset : b.reset with
      | true =>
        have hRows : ∀ e, some e ∈ b.events → e.RowFit := by
          intro e he
          have hOne := hFitB e he
          rw [hReset] at hOne
          exact hOne
        refine Safe.bind (safe_applyRows hBegun hRows hTypedB hNow) ?_
        intro seen t' h'
        exact Safe.get (safe_abandonAll h' _)
      | false =>
        refine safe_applyEvents hBegun ?_ hTypedB hNow
        intro e he
        have hOne := hFitB e he
        rw [hReset] at hOne
        exact hOne

theorem sound_step (h : Sound t) (c : Call C) (hFit : c.Fit) : Sound (step t c).2 := by
  cases c with
  | applyBatch batch now =>
    have hSafe : Safe False t (applyBatch batch now) := safe_applyBatch h hFit.2 (fun hT => hT.elim) hFit.1
    exact hSafe.post.1
  | snapshot now => exact h.prune now

end Batches

-- Snapshots

theorem forM_ok {α : Type} {f : α → Except PyError Unit} {xs : List α}
    (h : ∀ x ∈ xs, f x = .ok ()) : xs.forM f = .ok () := by
  induction xs with
  | nil => rfl
  | cons x rest ih =>
    change (f x >>= fun _ => rest.forM f) = .ok ()
    rw [h x List.mem_cons_self]
    exact ih (fun y hy => h y (List.mem_cons_of_mem _ hy))

theorem Value.hashable_of_isText {v : Value C} (h : v.isText = true) : v.hashable = true := by
  cases v with
  | text s => rfl
  | _ => exact nomatch h

theorem sorted_texts {xs : List (Value C)} (h : ∀ v ∈ xs, v.isText = true) : sorted xs = .ok () := by
  have hTexts : xs.all Value.isText = true := List.all_eq_true.mpr h
  have hKeys : xs.all Value.hashable = true :=
    List.all_eq_true.mpr fun v hv => Value.hashable_of_isText (h v hv)
  unfold sorted sortable
  rw [hTexts, hKeys]
  simp

theorem pyMax_mem (x : Number) (xs : List Number) : pyMax x xs ∈ x :: xs := by
  induction xs generalizing x with
  | nil => exact List.mem_cons_self
  | cons y rest ih =>
    have hRest := ih (if x.lt y then y else x)
    unfold pyMax at hRest ⊢
    rw [List.foldl_cons]
    rcases List.mem_cons.mp hRest with hHead | hTail
    · rw [hHead]
      split
      · exact List.mem_cons_of_mem _ List.mem_cons_self
      · exact List.mem_cons_self
    · exact List.mem_cons_of_mem _ (List.mem_cons_of_mem _ hTail)

theorem iso_showable {x : Number} (h : x.Showable) : iso x = .ok () := if_pos h

theorem isoOrNone_showable {x : Number} (h : x.Showable) : isoOrNone x = .ok () := by
  unfold isoOrNone
  split
  · exact iso_showable h.seconds
  · rfl

section Snapshots

variable {t : Tracker C}

theorem Sound.shown (h : Sound t) (name : Value C) : ∀ c ∈ (t.active.map Prod.snd).filter
        (fun c => decide (c.user = name)) ++
      (t.closed.map Prod.snd).filter (fun c => decide (c.user = name)), ConnOk c := by
  intro c hc
  rcases List.mem_append.mp hc with hActive | hClosed
  · rcases List.mem_map.mp (List.mem_of_mem_filter hActive) with ⟨e, he, rfl⟩
    exact (h.active e he).2.2
  · rcases List.mem_map.mp (List.mem_of_mem_filter hClosed) with ⟨e, he, rfl⟩
    exact (h.closed e he).2.1

theorem showDevice_sound (h : Sound t) (name : Value C) : showDevice t name = .ok () := by
  have hShown := h.shown name
  have hInbounds : sorted ((((t.active.map Prod.snd).filter (fun c => decide (c.user = name))) ++
        ((t.closed.map Prod.snd).filter (fun c => decide (c.user = name)))).map Conn.inbound ++
        (t.finalized.filter (fun key => decide (key.1 = name))).map Prod.snd) =
        .ok () := by
    apply sorted_texts
    intro v hv
    rcases List.mem_append.mp hv with hConn | hKey
    · rcases List.mem_map.mp hConn with ⟨c, hc, rfl⟩
      exact (hShown c hc).inbound.isText
    · rcases List.mem_map.mp hKey with ⟨key, hk, rfl⟩
      exact (h.finalized key (List.mem_of_mem_filter hk)).2.isText
  have hSources : sorted (((((t.active.map Prod.snd).filter (fun c => decide (c.user = name))) ++
        ((t.closed.map Prod.snd).filter (fun c => decide (c.user = name)))).map
            Conn.source).filter Value.truthy) = .ok () := by
    apply sorted_texts
    intro v hv
    rcases List.mem_filter.mp hv with ⟨hMem, hTruthy⟩
    rcases List.mem_map.mp hMem with ⟨c, hc, rfl⟩
    exact (hShown c hc).source hTruthy
  have hNewest : ((newestFirst ((t.closed.map Prod.snd).filter
        (fun c => decide (c.user = name)))).take 512).forM
          (fun c => iso c.closedAt) = .ok () := by
    apply forM_ok
    intro c hc
    have hMem := List.mem_mergeSort.mp (List.mem_of_mem_take hc)
    rcases List.mem_map.mp (List.mem_of_mem_filter hMem) with ⟨e, he, rfl⟩
    exact iso_showable (h.closed e he).2.2
  unfold showDevice
  dsimp only
  rw [hInbounds, hSources]
  dsimp only [bind, Except.bind]
  split
  · exact hNewest
  · rename_i x xs hSeen
    have hMax : (pyMax x xs).Showable := by
      have hMem := pyMax_mem x xs
      rw [← hSeen] at hMem
      rcases List.mem_map.mp hMem with ⟨c, hc, hEq⟩
      rw [← hEq]
      exact (hShown c hc).lastSeen
    rw [iso_showable hMax]
    exact hNewest

theorem showRow_sound {c : Conn C} (hConn : ConnOk c) : showRow c = .ok () := by
  have hClosed : isoOrNone c.closedAt = .ok () := by
    by_cases hTruthy : c.closedAt.truthy = true
    · exact isoOrNone_showable (hConn.closedAt hTruthy)
    · unfold isoOrNone
      have hZero : c.closedAt.seconds.truthy = false := by
        cases hCase : c.closedAt with
        | finite q =>
          rw [hCase] at hTruthy
          have hq : q = 0 := by simpa [Number.truthy] using hTruthy
          subst hq
          rfl
        | infinite b =>
          rw [hCase] at hTruthy
          exact (hTruthy rfl).elim
        | nan =>
          rw [hCase] at hTruthy
          exact (hTruthy rfl).elim
      rw [hZero]
      rfl
  unfold showRow
  rw [isoOrNone_showable hConn.createdAt]
  exact hClosed

theorem Sound.names (h : Sound t) : ∀ name ∈ t.names, name.Named := by
  intro name hName
  rcases List.mem_append.mp hName with hFirst | hClosed
  · rcases List.mem_append.mp hFirst with hDevice | hActive
    · exact h.devices name hDevice
    · rcases List.mem_map.mp hActive with ⟨e, he, rfl⟩
      exact (h.active e he).2.2.user
  · rcases List.mem_map.mp hClosed with ⟨e, he, rfl⟩
    exact (h.closed e he).2.1.user

theorem snapshot_sound (h : Sound t)
    (now : Number) : ∃ names, snapshot t now = .ok names ∧ ∀ name ∈ names, name.Named := by
  have hPruned := h.prune now
  have hNames := hPruned.names
  have hSorted : sorted (t.prune now).names = .ok () := sorted_texts fun v hv => (hNames v hv).isText
  have hDevices : (t.prune now).names.dedup.forM (showDevice (t.prune now)) = .ok () :=
    forM_ok fun name _ => showDevice_sound hPruned name
  have hActive : ((t.prune now).active.map Prod.snd).forM showRow = .ok () := by
    apply forM_ok
    intro c hc
    rcases List.mem_map.mp hc with ⟨e, he, rfl⟩
    exact showRow_sound (hPruned.active e he).2.2
  have hClosed : ((newestFirst ((t.prune now).closed.map Prod.snd)).take 200).forM showRow = .ok () := by
    apply forM_ok
    intro c hc
    have hMem := List.mem_mergeSort.mp (List.mem_of_mem_take hc)
    rcases List.mem_map.mp hMem with ⟨e, he, rfl⟩
    exact showRow_sound (hPruned.closed e he).2.1
  refine ⟨(t.prune now).names.dedup, ?_, ?_⟩
  · unfold snapshot
    dsimp only
    rw [hSorted, hDevices, hActive, hClosed]
    rfl
  · intro name hName
    exact hNames name (List.mem_dedup.mp hName)

end Snapshots

-- Lacking Events

/-
  An event without what its type goes by: an id, and for a NEW a
  user and an inbound.
-/
def Event.Lacks (e : Event C) : Prop := match e.kind with
  | .new => (value e.id).truthy = false ∨ e.fields.named = false
  | .update => (value e.id).truthy = false
  | .closed => (value e.id).truthy = false
  | .unknown => True

/- A row of a reset without an id or an identity. -/
def Event.RowLacks (e : Event C) : Prop := e.rowId.truthy = false ∨ e.fields.named = false

/- The step does not raise and only counts a skipped event. -/
def Skips {α : Type} (t : Tracker C) (x : Step C α) : Prop := (∃ a, x.answer t = .ok a) ∧ x.final t = t.skip

section Lacking

variable {t : Tracker C} {e : Event C} {now : Number}

theorem skips_skip : Skips t (Op.change Tracker.skip) := ⟨⟨(), rfl⟩, rfl⟩

theorem Skips.ensure_bind {α : Type} {ok : Bool} {x : Unit → Step C α} (hOk : ok = true)
    (h : Skips t (x ())) : Skips t (Op.ensure ok .typeError >>= x) := by
  subst hOk
  exact h

theorem Skips.ofExcept_bind {α β : Type} {y : Except PyError α} {a : α} {x : α → Step C β} (hOk : y = .ok a)
    (h : Skips t (x a)) : Skips t (Op.ofExcept y >>= x) := by
  subst hOk
  exact h

theorem Skips.get {α : Type} {x : Tracker C → Step C α} (h : Skips t (x t)) : Skips t (Op.get >>= x) := h

theorem get_none_of_falsy {V : Type} {d : Dict (Value C) V} {cid : Value C}
    (hKeys : ∀ entry ∈ d, entry.1.truthy = true)
    (hFalsy : cid.truthy = false) : d.get cid = none := by
  cases hGet : d.get cid with
  | none => rfl
  | some v =>
    have hTrue := hKeys _ (Dict.mem_of_get hGet)
    exact nomatch hFalsy.symm.trans hTrue

theorem Sound.get_falsy (h : Sound t) {cid : Value C} (hFalsy : cid.truthy = false) :
    t.active.get cid = none ∧ t.bankedIds.get cid = none ∧ t.closed.get cid = none :=
  ⟨get_none_of_falsy (fun entry he => (h.active entry he).1) hFalsy,
    get_none_of_falsy (fun entry he => (h.banked entry he).1) hFalsy,
    get_none_of_falsy (fun entry he => (h.closed entry he).1) hFalsy⟩

theorem skips_new (hKind : e.kind = .new) (hFit : e.Fit) (hTyped : e.Typed)
    (hLacks : (value e.id).truthy = false ∨ e.fields.named = false) :
    Skips t (applyNew e now) := by
  unfold Event.Fit at hFit
  rw [hKind] at hFit
  rcases hTyped.fields.closedAt with ⟨x, hx⟩
  refine Skips.ofExcept_bind hx ?_
  split
  · rename_i hTruthy
    have hCarried := hFit.2 x hx hTruthy
    rcases hLacks with hId | hNamed
    · exact nomatch hId.symm.trans hCarried.1
    · exact nomatch hNamed.symm.trans hCarried.2
  · split
    · exact skips_skip
    · rename_i hId
      have hIdTrue : (value e.id).truthy = true := by simpa using hId
      have hNamed : e.fields.named = false := by
        rcases hLacks with hFalse | hNamed
        · exact nomatch hFalse.symm.trans hIdTrue
        · exact hNamed
      rw [hNamed]
      exact skips_skip

theorem skips_applyEvent (h : Sound t) (hFit : e.Fit) (hTyped : e.Typed)
    (hLacks : e.Lacks) : Skips t (applyEvent (some e) now) := by
  unfold Event.Lacks at hLacks
  unfold applyEvent
  dsimp only
  cases hKind : e.kind with
  | new =>
    rw [hKind] at hLacks
    exact skips_new hKind hFit hTyped hLacks
  | update =>
    rw [hKind] at hLacks
    refine Skips.ensure_bind hTyped.id (Skips.get ?_)
    rw [(h.get_falsy hLacks).1]
    exact skips_skip
  | closed =>
    rw [hKind] at hLacks
    have hGet := h.get_falsy hLacks
    refine Skips.ensure_bind hTyped.id (Skips.get ?_)
    rw [hGet.1]
    dsimp only
    rw [hGet.2.1]
    dsimp only
    rw [hGet.2.2]
    exact skips_skip
  | unknown => exact skips_skip

theorem skips_applyRow (hLacks : e.RowLacks) : Skips t (applyRow (some e) now) := by
  have hCheck : (!e.rowId.truthy || !e.fields.named) = true := by
    rcases hLacks with hId | hNamed
    · rw [hId]
      rfl
    · rw [hNamed]
      exact Bool.or_true _
  unfold applyRow
  dsimp only
  rw [if_pos hCheck]
  exact ⟨⟨none, rfl⟩, rfl⟩

end Lacking

-- Every Run

/-
  In every run of fit calls: each device has a name, a snapshot
  never raises, a batch whose values are of their types raises
  on no missing member, and an event that lacks what its type
  goes by changes nothing but the counter of skipped events.
-/
theorem malformed_harmless (closedTtl : ℚ) (bankedIdCap : ℕ) {history : List (Call C × Unit)} {t : Tracker C}
    (hTrace : Trace step (fun _ c => c.Fit) (Tracker.start closedTtl bankedIdCap) history t) :
    (∀ name ∈ t.names, name.Named) ∧
      (∀ now, ∃ names, snapshot t now = .ok names ∧ ∀ name ∈ names, name.Named) ∧
      (∀ batch now, (Call.applyBatch batch now).Fit → (∀ b, batch = some b → b.Typed) →
        (applyBatch batch now).answer t = .ok ()) ∧
      (∀ (e : Event C) now, e.Fit → e.Typed → e.Lacks → Skips t (applyEvent (some e) now)) ∧
      ∀ (e : Event C) now, e.RowLacks → Skips t (applyRow (some e) now) := by
  have hSound : Sound t := hTrace.invariant (sound_start closedTtl bankedIdCap)
      (fun s c h hFit => sound_step h c hFit)
  refine ⟨hSound.names, snapshot_sound hSound, ?_, ?_, ?_⟩
  · intro batch now hFit hTyped
    have hSafe : Safe True t (applyBatch batch now) := safe_applyBatch hSound hFit.2 (fun _ => hTyped) hFit.1
    rcases hSafe.post.2 trivial with ⟨⟨⟩, hAnswer⟩
    exact hAnswer
  · intro e now hFit hTyped hLacks
    exact skips_applyEvent hSound hFit hTyped hLacks
  · intro e now hLacks
    exact skips_applyRow hLacks

/- A container by its truth; no text of the runs is a number. -/
instance : Objects Bool where
  truthy b := b
  parseFloat _ := none

def exampleText (s : String) : Option (Value Bool) := some (.text (pyStr s))

def exampleRow (user inbound closedAt : Option (Value Bool)) : Row Bool :=
  ⟨none, user, inbound, closedAt, none, none, none, none, false⟩

def exampleEvent (type : String) (id : Option (Value Bool)) (connection : Option (Row Bool)) : Event Bool :=
  ⟨exampleText type, id, none, none, none, connection⟩

/- No dict, an UPDATE of no id, and a NEW that is fit. -/
def mixedBatch : Batch Bool := ⟨false, [none, some (exampleEvent "UPDATE" none none),
      some (exampleEvent "NEW" (exampleText "c1")
        (some (exampleRow (exampleText "vmix-01") (exampleText "hy2-in") none)))]⟩

theorem fit_mixedBatch : (Call.applyBatch (some mixedBatch) (.finite 1700000000)).Fit := by
  have hNow : Number.showable (.finite 1700000000) = true := by decide
  refine ⟨hNow, ?_⟩
  rintro b ⟨⟩ e he
  change e.Fit
  simp only [mixedBatch, List.mem_cons, List.not_mem_nil,
    Option.some.injEq, reduceCtorEq, false_or, or_false] at he
  have hZero : ∀ x, toSeconds (Value.none : Value Bool) = .ok x → x.truthy = true → x.Showable := by
    rintro x ⟨⟩ hTrue
    exact nomatch hTrue
  rcases he with rfl | rfl
  · exact trivial
  · refine ⟨fun _ _ => ⟨⟨_, rfl, by decide⟩,
      ⟨_, rfl, by decide⟩, hZero, hZero,
      fun hTrue => nomatch hTrue⟩, ?_⟩
    rintro x ⟨⟩ hTrue
    exact nomatch hTrue

theorem malformed_harmless_mixedBatch : ∃ names, snapshot (step (Tracker.start 600 4096)
        (.applyBatch (some mixedBatch) (.finite 1700000000))).2 (.finite 1700000001) = .ok names ∧
        ∀ name ∈ names, name.Named := by
  have hTrace : Trace step (fun _ c => c.Fit) (Tracker.start 600 4096)
        ([] ++ [(Call.applyBatch (some mixedBatch) (.finite 1700000000), ())])
        (step (Tracker.start 600 4096) (.applyBatch (some mixedBatch) (.finite 1700000000))).2 :=
    Trace.snoc _ Trace.start fit_mixedBatch
  exact (malformed_harmless 600 4096 hTrace).2.1 (.finite 1700000001)

/- A connection that is closed and says nothing of itself. -/
def namelessClosed : Batch Bool := ⟨false, [some (exampleEvent "NEW" none (some (exampleRow none none
      (some (.number (.finite 1700000000))))))]⟩

/- An active connection of a device. -/
def openOf (id : String) (user : Option (Value Bool)) : Batch Bool := ⟨false,
    [some (exampleEvent "NEW" (exampleText id) (some (exampleRow user (exampleText "hy2-in") none)))]⟩

def updateOf (id : String) : Event Bool := exampleEvent "UPDATE" (exampleText id) none

def callAt (b : Batch Bool) : Call Bool := .applyBatch (some b) (.finite 1700000000)

def runOf (calls : List (Call Bool)) : Tracker Bool := finalState step (Tracker.start 600 4096) calls

/-
  A NEW with a closing time and nothing else puts a device in
  that has no name, and a second device then breaks every
  snapshot; a user that is a number does the same.  An UPDATE
  has no user and is applied all the same.
-/
theorem malformed_poisons : (Value.none ∈ (runOf [callAt namelessClosed]).devices ∧
      snapshot (runOf [callAt namelessClosed, callAt (openOf "c1" (exampleText "vmix-01"))])
          (.finite 1700000000) = .error .typeError) ∧
      snapshot (runOf [ callAt (openOf "c1" (exampleText "vmix-01")),
        callAt (openOf "c2" (some (.number (.finite 5))))]) (.finite 1700000000) = .error .typeError ∧
      ((applyEvent (some (updateOf "c1")) (.finite 1700000009)).final
        (runOf [callAt (openOf "c1" (exampleText "vmix-01"))])
          ).active.map (fun entry => entry.2.lastSeen) = [.finite 1700000009] := by
  decide +kernel

end SingboxOps.DynamicCollector
