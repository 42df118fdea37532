import SingboxOps.Provision.Operations

/-
  What every operation of the provisioner keeps, at every point
  a crash can find it.

  Records keep their identity and are never removed, a revoked
  record stays revoked, and a probe that left the registry as
  revoked does not come back.
-/

namespace SingboxOps.Provision

-- Sound Ledgers

/-
  A valid ledger apart from its size, in which only records to
  be revoked are verified as revoked.
-/
structure Ledger.Sound (l : Ledger) : Prop where
  count : l.records.length ≤ maxRecords
  binding : l.binding.wellFormed = true
  wellFormed : ∀ r ∈ l.records, r.wellFormed = true
  coherent : ∀ r ∈ l.records, r.coherent = true
  settled : ∀ r ∈ l.records, r.verified = .revoked → r.desired = .revoked
  probes : (l.records.map fun r => r.probeId).Nodup
  enrollments : (l.records.map fun r => r.enrollment).Nodup
  slots : (l.records.map fun r => r.slot).Nodup

theorem Ledger.Sound.valid {l : Ledger} (h : l.Sound) (hSize : l.encodedSize ≤ maxStateBytes) : l.Valid :=
  ⟨hSize, h.count, h.binding, h.wellFormed, h.coherent, h.probes, h.enrollments, h.slots⟩

theorem Ledger.Sound.eq_of_probe {l : Ledger}
    (h : l.Sound) {r q : Row} (hr : r ∈ l.records) (hq : q ∈ l.records)
    (hProbe : r.probeId = q.probeId) : r = q :=
  List.inj_on_of_nodup_map h.probes hr hq hProbe

theorem Ledger.Sound.eq_of_enrollment {l : Ledger}
    (h : l.Sound) {r q : Row} (hr : r ∈ l.records) (hq : q ∈ l.records)
    (hEnrollment : r.enrollment = q.enrollment) : r = q :=
  List.inj_on_of_nodup_map h.enrollments hr hq hEnrollment

/- Change every record. -/
def Ledger.mapRows (l : Ledger) (f : Row → Row) : Ledger := { l with records := l.records.map f }

/- A change that keeps a record's identity and soundness. -/
structure Keeps (f : Row → Row) : Prop where
  identity : ∀ r, (f r).toIdentity = r.toIdentity
  coherent : ∀ r, r.coherent = true → (f r).coherent = true
  settled : ∀ r, (r.verified = .revoked → r.desired = .revoked) →
      (f r).verified = .revoked → (f r).desired = .revoked
  revoked : ∀ r, r.desired = .revoked → (f r).desired = .revoked

theorem map_identity {β : Type} {f : Row → Row}
    (hIdentity : ∀ r, (f r).toIdentity = r.toIdentity) (g : Identity → β)
    (rows : List Row) :
    (rows.map f).map (fun r => g r.toIdentity) = rows.map (fun r => g r.toIdentity) := by
  rw [List.map_map]
  refine List.map_congr_left ?_
  intro r _
  exact congrArg g (hIdentity r)

theorem Ledger.Sound.mapRows {l : Ledger} (h : l.Sound) {f : Row → Row}
    (hf : Keeps f) : (l.mapRows f).Sound where
  count := (List.length_map f).trans_le h.count
  binding := h.binding
  wellFormed := by
    intro r hr
    rcases List.mem_map.mp hr with ⟨q, hq, rfl⟩
    rw [hf.identity q]
    exact h.wellFormed q hq
  coherent := by
    intro r hr
    rcases List.mem_map.mp hr with ⟨q, hq, rfl⟩
    exact hf.coherent q (h.coherent q hq)
  settled := by
    intro r hr
    rcases List.mem_map.mp hr with ⟨q, hq, rfl⟩
    exact hf.settled q (h.settled q hq)
  probes := by
    rw [Ledger.mapRows, map_identity hf.identity Identity.probeId]
    exact h.probes
  enrollments := by
    rw [Ledger.mapRows, map_identity hf.identity Identity.enrollment]
    exact h.enrollments
  slots := by
    rw [Ledger.mapRows, map_identity hf.identity Identity.slot]
    exact h.slots

/- A record that nothing in the ledger resembles is added. -/
theorem Ledger.Sound.append {l : Ledger} (h : l.Sound) {row : Row} (hCount : l.records.length < maxRecords)
    (hFormed : row.wellFormed = true)
    (hPending : row.desired = .active ∧ row.verified = .pending ∧ row.verifiedEpoch = none)
    (hProbe : row.probeId ∉ l.own)
    (hEnrollment : ∀ r ∈ l.records, r.enrollment ≠ row.enrollment)
    (hSlot : ∀ r ∈ l.records, r.slot ≠ row.slot) :
    ({ l with records := l.records ++ [row] } : Ledger).Sound where
  count := by
    rw [List.length_append]
    exact hCount
  binding := h.binding
  wellFormed := by
    intro r hr
    rcases List.mem_append.mp hr with hr | hr
    · exact h.wellFormed r hr
    · rw [List.mem_singleton.mp hr]
      exact hFormed
  coherent := by
    intro r hr
    rcases List.mem_append.mp hr with hr | hr
    · exact h.coherent r hr
    · rw [List.mem_singleton.mp hr, Row.coherent, hPending.1, hPending.2.1, hPending.2.2]
      rfl
  settled := by
    intro r hr
    rcases List.mem_append.mp hr with hr | hr
    · exact h.settled r hr
    · rw [List.mem_singleton.mp hr, hPending.2.1]
      exact Verified.noConfusion
  probes := by
    rw [List.map_append]
    refine List.nodup_append'.mpr ⟨h.probes, List.nodup_singleton _, ?_⟩
    refine List.disjoint_singleton.mpr ?_
    exact hProbe
  enrollments := by
    rw [List.map_append]
    refine List.nodup_append'.mpr ⟨h.enrollments, List.nodup_singleton _, ?_⟩
    refine List.disjoint_singleton.mpr ?_
    intro hMem
    rcases List.mem_map.mp hMem with ⟨r, hr, hSame⟩
    exact hEnrollment r hr hSame
  slots := by
    rw [List.map_append]
    refine List.nodup_append'.mpr ⟨h.slots, List.nodup_singleton _, ?_⟩
    refine List.disjoint_singleton.mpr ?_
    intro hMem
    rcases List.mem_map.mp hMem with ⟨r, hr, hSame⟩
    exact hSlot r hr hSame

-- Progress

/- The records of the durable ledger. -/
def Disk.rows (d : Disk) : List Row := match d.ledger with
  | none => []
  | some l => l.records

/- The entries of the published registry. -/
def Disk.entries (d : Disk) : List RegistryRow := d.registry.getD []

/- The durable ledger is sound and not too large. -/
def Disk.Sound (d : Disk) : Prop := ∀ l, d.ledger = some l → l.Sound ∧ l.encodedSize ≤ maxStateBytes

/- No record is lost, and no revoked one is active again. -/
def Grown (rows rows' : List Row) : Prop := ∀ r ∈ rows, ∃ r' ∈ rows',
    r'.toIdentity = r.toIdentity ∧ (r.desired = .revoked → r'.desired = .revoked)

/- The registry has an entry of the probe. -/
def Disk.Publishes (d : Disk) (probeId : PyStr) : Prop := ∃ e ∈ d.entries, e.probeId = probeId

/- What may have happened from one disk to a later one. -/
structure Progress (d c : Disk) : Prop where
  grown : Grown d.rows c.rows
  registry : ∀ r ∈ d.rows, r.desired = .revoked → ¬ d.Publishes r.probeId → ¬ c.Publishes r.probeId

/- No verified revocation has left its key file behind. -/
def KeysGone (d : Disk) : Prop := ∀ r ∈ d.rows, r.verified = .revoked → d.keys.get r.probeId = none

theorem Grown.refl (rows : List Row) : Grown rows rows := fun r hr => ⟨r, hr, rfl, id⟩

theorem Grown.trans {rows rows' rows'' : List Row} (h : Grown rows rows')
    (h' : Grown rows' rows'') : Grown rows rows'' := by
  intro r hr
  rcases h r hr with ⟨r', hr', hSame, hRevoked⟩
  rcases h' r' hr' with ⟨r'', hr'', hSame', hRevoked'⟩
  exact ⟨r'', hr'', hSame'.trans hSame, fun h => hRevoked' (hRevoked h)⟩

theorem Grown.mapRows {f : Row → Row} (hf : Keeps f)
    (l : Ledger) : Grown l.records (l.mapRows f).records := by
  intro r hr
  exact ⟨f r, List.mem_map_of_mem hr, hf.identity r, hf.revoked r⟩

theorem Grown.append (rows more : List Row) : Grown rows (rows ++ more) :=
  fun r hr => ⟨r, List.mem_append_left _ hr, rfl, id⟩

theorem Progress.refl (d : Disk) : Progress d d := ⟨.refl _, fun _ _ _ h => h⟩

theorem Progress.trans {d c e : Disk} (h : Progress d c) (h' : Progress c e) : Progress d e := by
  refine ⟨h.grown.trans h'.grown, ?_⟩
  intro r hr hRevoked hAbsent
  rcases h.grown r hr with ⟨r', hr', hSame, hStays⟩
  have hProbe : r'.probeId = r.probeId := congrArg Identity.probeId hSame
  have hMiddle := h.registry r hr hRevoked hAbsent
  rw [← hProbe] at hMiddle ⊢
  exact h'.registry r' hr' (hStays hRevoked) hMiddle

/- What a crash before the checkpoint finds. -/
structure Early (d c : Disk) : Prop where
  sound : c.Sound
  progress : Progress d c
  keys : KeysGone d → KeysGone c

theorem Early.refl {d : Disk} (h : d.Sound) : Early d d := ⟨h, .refl d, id⟩

theorem Early.trans {d c e : Disk} (h : Early d c) (h' : Early c e) : Early d e :=
  ⟨h'.sound, h.progress.trans h'.progress, fun hKeys => h'.keys (h.keys hKeys)⟩

theorem Disk.rows_of {d : Disk} {l : Ledger} (h : d.ledger = some l) : d.rows = l.records := by
  rw [Disk.rows, h]

/-
  A larger ledger becomes durable.  The records it adds are not
  verified as revoked.
-/
theorem Early.save {d : Disk} {l : Ledger} (hSound : l.Sound) (hSize : l.encodedSize ≤ maxStateBytes)
    (hGrown : Grown d.rows l.records)
    (hOld : ∀ r ∈ l.records, r.verified = .revoked →
        ∃ q ∈ d.rows, q.probeId = r.probeId ∧ q.verified = .revoked) :
    Early d { d with ledger := some l } where
  sound := by
    intro l' h
    have hSame : l = l' := Option.some.inj h
    exact hSame ▸ ⟨hSound, hSize⟩
  progress := ⟨hGrown, fun _ _ _ h => h⟩
  keys := by
    intro hKeys r hr hVerified
    rcases hOld r hr hVerified with ⟨q, hq, hProbe, hRevoked⟩
    have hGone := hKeys q hq hRevoked
    rw [hProbe] at hGone
    exact hGone

-- Publishing

section Publishing

variable {l : Ledger} {s : Disk}

/- Only key files of live records were written. -/
structure KeysOnly (l : Ledger) (s c : Disk) : Prop where
  ledger : c.ledger = s.ledger
  registry : c.registry = s.registry
  keys : ∀ probeId, (∀ r ∈ l.records, r.desired = .active → r.probeId ≠ probeId) →
      c.keys.get probeId = s.keys.get probeId

/- The registry has of the own probes the live ones only. -/
structure Purged (l : Ledger) (s c : Disk) : Prop where
  own : ∀ e ∈ c.entries, e.probeId ∈ l.own → ∃ r ∈ l.records, r.desired = .active ∧ r.probeId = e.probeId
  others : ∀ e ∈ c.entries, e.probeId ∉ l.own → e ∈ s.entries

/- What publishing may leave. -/
structure Published (l : Ledger) (s c : Disk) : Prop where
  ledger : c.ledger = s.ledger
  keys : ∀ probeId, (∀ r ∈ l.records, r.desired = .active → r.probeId ≠ probeId) →
      c.keys.get probeId = s.keys.get probeId
  registry : c.registry = s.registry ∨ Purged l s c

theorem KeysOnly.refl : KeysOnly l s s := ⟨rfl, rfl, fun _ _ => rfl⟩

theorem KeysOnly.published {c : Disk} (h : KeysOnly l s c) : Published l s c :=
  ⟨h.ledger, h.keys, .inl h.registry⟩

theorem publishKey_spec {c : Disk} {r : Row} (hr : r ∈ l.records) (hActive : r.desired = .active)
    (hKeys : KeysOnly l s c) : Triple (KeysOnly l s) c (publishKey r) (fun _ c' => KeysOnly l s c') := by
  unfold publishKey
  refine Triple.get ?_
  cases c.keys.get r.probeId with
  | some raw =>
    refine Triple.ensure_bind (fun _ => ?_) (fun _ => hKeys)
    unfold Op.ensure
    split
    · exact Triple.pure hKeys
    · exact Triple.fail hKeys
  | none =>
    have hWritten : KeysOnly l s { c with keys := c.keys.set r.probeId r.keyText } := by
      refine ⟨hKeys.ledger, hKeys.registry, ?_⟩
      intro probeId hOther
      dsimp only
      rw [Dict.get_set, if_neg (hOther r hr hActive)]
      exact hKeys.keys probeId hOther
    exact Triple.change hWritten hWritten

theorem publishRow_spec {c : Disk} {r : Row} (hr : r ∈ l.records) (hKeys : KeysOnly l s c)
    (existing : List RegistryRow) : Triple (KeysOnly l s) c (publishRow existing r) (fun res c' =>
        KeysOnly l s c' ∧ ∀ entries, res = .ok entries → ∀ e ∈ entries,
            r.desired = .active ∧ r.probeId = e.probeId) := by
  unfold publishRow
  refine Triple.ensure_bind (fun _ => ?_) (fun _ => ⟨hKeys, fun _ h => nomatch h⟩)
  refine Triple.ensure_bind (fun _ => ?_) (fun _ => ⟨hKeys, fun _ h => nomatch h⟩)
  by_cases hActive : r.desired = .active
  · rw [if_pos hActive]
    refine Triple.bind (publishKey_spec hr hActive hKeys) ?_ ?_
    · intro _ c' hKeys'
      refine Triple.pure ⟨hKeys', ?_⟩
      rintro _ ⟨⟩ e he
      rw [List.mem_singleton.mp he]
      exact ⟨hActive, rfl⟩
    · intro _ c' hKeys'
      exact ⟨hKeys', fun _ h => nomatch h⟩
  · rw [if_neg hActive]
    refine Triple.pure ⟨hKeys, ?_⟩
    rintro _ ⟨⟩ e he
    exact (List.not_mem_nil he).elim

theorem publishRows_spec (existing : List RegistryRow) {rows : List Row} (hRows : rows ⊆ l.records) {c : Disk}
    (hKeys : KeysOnly l s c) : Triple (KeysOnly l s) c (publishRows existing rows) (fun res c' =>
        KeysOnly l s c' ∧ ∀ entries, res = .ok entries → ∀ e ∈ entries,
            ∃ r ∈ l.records, r.desired = .active ∧ r.probeId = e.probeId) := by
  induction rows generalizing c with
  | nil =>
    refine Triple.pure ⟨hKeys, ?_⟩
    rintro _ ⟨⟩ e he
    exact (List.not_mem_nil he).elim
  | cons r rest ih =>
    have hr : r ∈ l.records := hRows List.mem_cons_self
    unfold publishRows
    refine Triple.bind (publishRow_spec hr hKeys existing) ?_ ?_
    · rintro entries c1 ⟨hKeys1, hEntries⟩
      refine Triple.bind (ih (fun q hq => hRows (List.mem_cons_of_mem _ hq)) hKeys1) ?_ ?_
      · rintro more c2 ⟨hKeys2, hMore⟩
        refine Triple.pure ⟨hKeys2, ?_⟩
        rintro _ ⟨⟩ e he
        rcases List.mem_append.mp he with he | he
        · exact ⟨r, hr, hEntries entries rfl e he⟩
        · exact hMore more rfl e he
      · rintro _ c2 ⟨hKeys2, _⟩
        exact ⟨hKeys2, fun _ h => nomatch h⟩
    · rintro _ c1 ⟨hKeys1, _⟩
      exact ⟨hKeys1, fun _ h => nomatch h⟩

theorem publish_spec : Triple (Published l s) s (publish l)
      (fun res c => Published l s c ∧ (res = .ok () → Purged l s c)) := by
  unfold publish
  refine Triple.get ?_
  refine Triple.ofExcept_bind ?_ (fun _ _ => ⟨KeysOnly.refl.published, fun h => nomatch h⟩)
  intro existing hExisting
  have hRows := (publishRows_spec existing (List.Subset.refl l.records)
      (KeysOnly.refl (l := l) (s := s))).mono (fun _ h => h.published) (fun _ _ h => h)
  refine Triple.bind hRows ?_ ?_
  · rintro entries c ⟨hKeys, hEntries⟩
    refine Triple.ensure_bind (fun _ => ?_) (fun _ => ⟨hKeys.published, fun h => nomatch h⟩)
    have hFile : existing = s.entries ∨ existing = [] := by
      unfold readRegistry at hExisting
      cases hRegistry : s.registry with
      | none =>
        rw [hRegistry] at hExisting
        exact .inr (Except.ok.inj hExisting).symm
      | some rows =>
        rw [hRegistry] at hExisting
        dsimp only at hExisting
        split at hExisting
        · exact nomatch hExisting
        · split at hExisting
          · exact nomatch hExisting
          · left
            rw [Disk.entries, hRegistry]
            exact (Except.ok.inj hExisting).symm
    have hPurged : Purged l s
          { c with
            registry :=
              some
                (existing.filter
                    (fun e => decide (e.probeId ∉ l.own)) ++
                  entries) } := by
      constructor
      · intro e he hOwn
        rcases List.mem_append.mp he with he | he
        · have hNot := of_decide_eq_true (List.mem_filter.mp he).2
          exact (hNot hOwn).elim
        · exact hEntries entries rfl e he
      · intro e he hOther
        rcases List.mem_append.mp he with he | he
        · have hMem := (List.mem_filter.mp he).1
          rcases hFile with h | h
          · exact h ▸ hMem
          · rw [h] at hMem
            exact (List.not_mem_nil hMem).elim
        · rcases hEntries entries rfl e he with ⟨r, hr, _, hProbe⟩
          exact (hOther (List.mem_map.mpr ⟨r, hr, hProbe⟩)).elim
    have hPublished : Published l s
          { c with
            registry :=
              some
                (existing.filter
                    (fun e => decide (e.probeId ∉ l.own)) ++
                  entries) } :=
      ⟨hKeys.ledger, hKeys.keys, .inr hPurged⟩
    exact Triple.change hPublished ⟨hPublished, fun _ => hPurged⟩
  · rintro _ c ⟨hKeys, _⟩
    exact ⟨hKeys.published, fun h => nomatch h⟩

theorem Purged.absent {c : Disk} (h : Purged l s c) (hSound : l.Sound) {r : Row} (hr : r ∈ l.records)
    (hRevoked : r.desired = .revoked) : ¬ c.Publishes r.probeId := by
  rintro ⟨e, he, hProbe⟩
  have hOwn : e.probeId ∈ l.own := List.mem_map.mpr ⟨r, hr, hProbe.symm⟩
  rcases h.own e he hOwn with ⟨q, hq, hActive, hSame⟩
  have hEq : q = r := hSound.eq_of_probe hq hr (hSame.trans hProbe)
  rw [hEq, hRevoked] at hActive
  exact Desired.noConfusion hActive

theorem Early.published {c : Disk} (hDisk : s.Sound) (hLedger : s.ledger = some l)
    (h : Published l s c) : Early s c := by
  have hSound := (hDisk l hLedger).1
  have hRows : c.rows = s.rows := by rw [Disk.rows, Disk.rows, h.ledger]
  refine ⟨?_, ⟨?_, ?_⟩, ?_⟩
  · intro l' hSome
    exact hDisk l' (h.ledger ▸ hSome)
  · rw [hRows]
    exact .refl _
  · intro r hr hRevoked hAbsent
    rw [Disk.rows_of hLedger] at hr
    rcases h.registry with hSame | hPurged
    · intro hPublishes
      unfold Disk.Publishes Disk.entries at hPublishes
      rw [hSame] at hPublishes
      exact hAbsent hPublishes
    · exact hPurged.absent hSound hr hRevoked
  · intro hKeys r hr hVerified
    rw [hRows] at hr
    rw [h.keys]
    · exact hKeys r hr hVerified
    · intro q hq hActive hSame
      rw [Disk.rows_of hLedger] at hr
      have hEq : q = r := hSound.eq_of_probe hq hr hSame
      rw [hEq, hSound.settled r hr hVerified] at hActive
      exact Desired.noConfusion hActive

end Publishing

-- Confirming

/-
  What confirming does to the records: those of the given
  probes are verified as they are desired.
-/
structure Confirms (probes : List PyStr) (f : Row → Row) : Prop
    extends Keeps f where
  desired : ∀ r, (f r).desired = r.desired
  verified :
    ∀ r, (r.probeId ∈ probes ∧ (f r).verified = r.desired.verified) ∨ (r.probeId ∉ probes ∧ f r = r)

theorem coherent_confirmed (r : Row) (t : ℕ) : (r.confirmed t).coherent = true := by
  rcases r with ⟨i, desired, verified, epoch⟩
  cases desired with
  | active => rfl
  | revoked => rfl

theorem confirmRows_ok {env : Env} {l l' : Ledger} {k : ℕ} {probes : List PyStr}
    (h : confirmRows env l k probes = .ok l') :
    ∃ f, Confirms probes f ∧ l' = l.mapRows f := by
  induction probes generalizing l k with
  | nil =>
    refine ⟨id, ⟨⟨fun _ => rfl, fun _ h => h, fun _ h => h, fun _ h => h⟩, fun _ => rfl,
      fun _ => .inr ⟨List.not_mem_nil, rfl⟩⟩, ?_⟩
    rw [Ledger.mapRows, List.map_id]
    exact (Except.ok.inj h).symm
  | cons probeId rest ih =>
    rw [confirmRows] at h
    by_cases hProof : env.proof k = true
    · rw [if_pos hProof] at h
      rcases ih h with ⟨g, hg, rfl⟩
      let first := fun (r : Row) =>
        if r.probeId = probeId then r.confirmed (env.now k)
        else r
      have hSame : ∀ r, (first r).toIdentity = r.toIdentity := by
        intro r
        change (if r.probeId = probeId then
          r.confirmed (env.now k) else r).toIdentity = _
        split <;> rfl
      have hDesired : ∀ r, (first r).desired = r.desired := by
        intro r
        change (if r.probeId = probeId then
          r.confirmed (env.now k) else r).desired = _
        split <;> rfl
      have hProbe : ∀ r, (first r).probeId = r.probeId := fun r => congrArg Identity.probeId (hSame r)
      refine ⟨fun r => g (first r), ⟨⟨?_, ?_, ?_, ?_⟩, ?_, ?_⟩, ?_⟩
      · exact fun r => (hg.identity _).trans (hSame r)
      · intro r hr
        refine hg.coherent _ ?_
        change (if r.probeId = probeId then
          r.confirmed (env.now k) else r).coherent = true
        split
        · exact coherent_confirmed r _
        · exact hr
      · intro r hr
        refine hg.settled _ ?_
        change (if r.probeId = probeId then
            r.confirmed (env.now k) else r).verified = _ →
          (if r.probeId = probeId then
            r.confirmed (env.now k) else r).desired = _
        split
        · intro hVerified
          change r.desired.verified = .revoked at hVerified
          change r.desired = .revoked
          cases hr' : r.desired with
          | active =>
            rw [hr'] at hVerified
            exact Verified.noConfusion hVerified
          | revoked => rfl
        · exact hr
      · intro r hr
        refine hg.revoked _ ?_
        rw [hDesired]
        exact hr
      · exact fun r => (hg.desired _).trans (hDesired r)
      · intro r
        rcases hg.verified (first r) with ⟨hMem, hV⟩ | ⟨hNot, hV⟩
        · rw [hProbe] at hMem
          rw [hDesired] at hV
          exact .inl ⟨List.mem_cons_of_mem _ hMem, hV⟩
        · rw [hProbe] at hNot
          rw [hV]
          by_cases hFirst : r.probeId = probeId
          · left
            refine ⟨hFirst ▸ List.mem_cons_self, ?_⟩
            change (if r.probeId = probeId then
              r.confirmed (env.now k) else r).verified = _
            rw [if_pos hFirst]
            rfl
          · right
            refine ⟨List.not_mem_cons_of_ne_of_not_mem hFirst hNot, ?_⟩
            change (if r.probeId = probeId then
              r.confirmed (env.now k) else r) = r
            rw [if_neg hFirst]
      · rw [Ledger.mapRows, Ledger.mapRows]
        change (⟨l.binding, (l.records.map first).map g⟩ : Ledger) = _
        rw [List.map_map]
        rfl
    · rw [if_neg hProof] at h
      exact nomatch h

/-
  An attempt ended with a checkpoint over the disk it left.
  Its ledger goes on from the durable one; what it says is
  revoked is not published; and the key files of what it newly
  verifies as revoked are to be deleted.
-/
structure Ended (c : Disk) (k : Checkpoint) : Prop where
  sound : k.ledger.Sound
  grown : Grown c.rows k.ledger.records
  purged : ∀ r ∈ k.ledger.records, r.desired = .revoked → ¬ c.Publishes r.probeId
  doomed : ∀ r ∈ k.ledger.records, r.verified = .revoked →
      r.probeId ∈ k.doomed ∨ ∃ q ∈ c.rows, q.probeId = r.probeId ∧ q.verified = .revoked

theorem confirm_spec {d c s : Disk} {env : Env} {l : Ledger} {rows : List Row}
    {after : Except ErrorCode Response} (hEarly : Early d c)
    (hLedger : c.ledger = some l) (hRows : rows ⊆ l.records)
    (hPurged : Purged l s c) : Triple (Early d) c (confirm env l rows after) (fun res c' =>
        c' = c ∧ ∀ a, res = .ok a → ∃ k f, a = .checkpoint k ∧ k.after = after ∧
            Confirms (rows.map fun r => r.probeId) f ∧
            k.ledger = l.mapRows f ∧ Ended c k) := by
  unfold confirm
  refine Triple.ofExcept_bind ?_ (fun _ _ => ⟨rfl, fun _ h => nomatch h⟩)
  intro confirmed hConfirmed
  refine Triple.pure ⟨rfl, ?_⟩
  rintro _ ⟨⟩
  have hSound := (hEarly.sound l hLedger).1
  rcases confirmRows_ok hConfirmed with ⟨f, hf, hMap⟩
  refine ⟨_, f, rfl, rfl, hf, hMap, ?_⟩
  constructor
  · dsimp only
    rw [hMap]
    exact hSound.mapRows hf.toKeeps
  · dsimp only
    rw [hMap, Disk.rows_of hLedger]
    exact .mapRows hf.toKeeps l
  · dsimp only
    rw [hMap]
    intro r hr hRevoked
    rcases List.mem_map.mp hr with ⟨q, hq, rfl⟩
    rw [hf.desired] at hRevoked
    rw [hf.identity]
    exact hPurged.absent hSound hq hRevoked
  · dsimp only
    rw [hMap]
    intro r hr hVerified
    rcases List.mem_map.mp hr with ⟨q, hq, rfl⟩
    rw [hf.identity]
    rcases hf.verified q with ⟨hMem, hV⟩ | ⟨_, hSame⟩
    · left
      rw [hV] at hVerified
      rcases List.mem_map.mp hMem with ⟨p, hp, hProbe⟩
      have hEq : p = q := hSound.eq_of_probe (hRows hp) hq hProbe
      refine List.mem_map.mpr ⟨p, List.mem_filter.mpr ⟨hp, ?_⟩, hProbe⟩
      rw [hEq]
      cases hDesired : q.desired with
      | active =>
        rw [hDesired] at hVerified
        exact Verified.noConfusion hVerified
      | revoked => rfl
    · right
      rw [hSame] at hVerified
      rw [Disk.rows_of hLedger]
      exact ⟨q, hq, rfl, hVerified⟩

end SingboxOps.Provision
