import SingboxOps.EvidenceStore.Publish
import SingboxOps.Lib.Except
import SingboxOps.Lib.Trace

/-
  The egress changes that are stored, against the history of
  the accepted probe rows.
-/

namespace SingboxOps.EvidenceHistory

open Classifier EvidenceStore

variable {F : Type} [BoundedFloat F]

-- Accepted Rows

/- The row that an input adds to the probe table. -/
def acceptedRow (store : Store F) : Input F → Option (ProbeRecord F)
  | .probe call =>
    match probeBoundaryValidate call store.probes with
    | .ok (some row) =>
      match (transact (do
          Tx.execute .storage (insertProbe row)
          Tx.commit .storage) call.faults store.probes).1 with
      | .ok _ => some row
      | .error _ => none
    | _ => none
  | _ => none

/- Where the baseline window of an input begins. -/
def horizonOf : Input F → F
  | .probe call => call.horizon
  | _ => PyFloat.round 0

/-
  A store, and every row it has accepted, each with the start
  of the baseline window it was judged by.  Nothing is taken
  from this history by retention or by a restart.
-/
structure Told (F : Type) where
  store : Store F
  accepted : List (F × ProbeRecord F)

def tell (told : Told F) (input : Input F) : Unit × Told F := ((),
    ⟨(step told.store input).2, told.accepted ++ ((acceptedRow told.store input).map
          (fun row => (horizonOf input, row))).toList⟩)

theorem recordProbe_probes (store : Store F) (call : ProbeCall F) :
    (recordProbe call store).probes = store.probes ++ (acceptedRow store (.probe call)).toList := by
  unfold recordProbe acceptedRow
  dsimp only
  cases probeBoundaryValidate call store.probes with
  | error e => exact (List.append_nil _).symm
  | ok found =>
    cases found with
    | none => exact (List.append_nil _).symm
    | some row =>
      have hReturns : Returns store.probes (do
            Tx.execute WriteError.storage (insertProbe row)
            Tx.commit .storage)
          (fun _ probes => probes = store.probes ++ [row]) := by
        apply Returns.bind_execute
        intro _ probes hInsert
        unfold insertProbe at hInsert
        split at hInsert
        · cases hInsert
          exact Returns.commit rfl
        · cases hInsert
      dsimp only
      split
      · rename_i probes hRun
        have hProbes := transact_ok hReturns (congrArg Prod.fst hRun)
        rw [hRun] at hProbes ⊢
        exact hProbes
      · rename_i e probes hRun
        rw [hRun]
        exact (List.append_nil _).symm

theorem tell_probes {told : Told F} (hAll : told.store.probes = told.accepted.map Prod.snd)
    (call : ProbeCall F) :
    (tell told (.probe call)).2.store.probes = (tell told (.probe call)).2.accepted.map Prod.snd := by
  change (recordProbe call told.store).probes = _
  rw [recordProbe_probes, hAll]
  unfold tell
  rw [List.map_append]
  cases acceptedRow told.store (.probe call) <;> rfl

-- True Changes

/- A row with an address that lies in the window. -/
def Known (horizon : F) (row : ProbeRecord F) : Prop :=
  row.egress.status = .ok ∧ row.egressIp.isSome ∧ PyFloat.toRat horizon ≤ PyFloat.toRat row.epoch

instance (horizon : F) (row : ProbeRecord F) :
    Decidable (Known horizon row) := by
  unfold Known
  infer_instance

/- The row of the window that was accepted last. -/
def latestOk (horizon : F) (rows : List (ProbeRecord F)) : Option (ProbeRecord F) :=
  (rows.filter (fun row => decide (Known horizon row))).getLast?

/-
  The stored change is the one from the address accepted last
  in the window.
-/
structure TrueChange (horizon : F) (earlier : List (ProbeRecord F)) (row : ProbeRecord F) : Prop where
  changed :
    row.egressChange = .changed ↔ ∃ b ∈ latestOk horizon earlier, ∃ ip ∈ row.egressIp, b.egressIp ≠ some ip
  unchanged :
    row.egressChange = .unchanged ↔ ∃ b ∈ latestOk horizon earlier, ∃ ip ∈ row.egressIp, b.egressIp = some ip

/-
  Every accepted row holds its true change, and no change is
  stored between successive rows of one address.
-/
structure TrueHistory (accepted : List (F × ProbeRecord F)) : Prop where
  change : ∀ before horizon row after, accepted = before ++ (horizon, row) :: after →
        TrueChange horizon (before.map Prod.snd) row
  successive : ∀ before first between second after,
      accepted = before ++ first :: between ++ second :: after → first.2.egressIp.isSome →
        (∀ other ∈ between, other.2.egressIp = none) →
        first.2.egressIp = second.2.egressIp → second.2.egressChange ≠ .changed

/-
  Before a probe result is judged: addresses are parsed as
  ever, and if it is accepted with an address, then it is not
  older than an accepted row with an address, and none of these
  was deleted from its baseline window.
-/
def Steady (canonical : PyStr → Option PyStr) (told : Told F) : Input F → Prop
  | .probe call =>
    call.canonical = canonical ∧ ∀ row ∈ acceptedRow told.store (.probe call),
        row.egressIp.isSome → (∀ old ∈ told.accepted, old.2.egressIp.isSome →
            PyFloat.toRat old.2.epoch ≤ PyFloat.toRat row.epoch) ∧
          told.store.probes.filter (fun row => decide (Known call.horizon row)) =
            (told.accepted.map Prod.snd).filter (fun row => decide (Known call.horizon row))
  | _ => True

-- The Baseline

/- The row that was accepted last is the newest one. -/
theorem foldl_latest (rows : List (ProbeRecord F)) (best : Option (ProbeRecord F))
    (hSorted : (best.toList ++ rows).Pairwise (fun a b => PyFloat.toRat a.epoch ≤ PyFloat.toRat b.epoch)) :
    rows.foldl (fun best row =>
          match best with
          | none => some row
          | some b =>
            if PyFloat.toRat b.epoch ≤ PyFloat.toRat row.epoch then
              some row
            else some b)
        best =
      (best.toList ++ rows).getLast? := by
  induction rows generalizing best with
  | nil => cases best <;> rfl
  | cons row rows ih =>
    have hRest := hSorted.sublist (List.sublist_append_right best.toList (row :: rows))
    rw [List.foldl_cons]
    cases best with
    | none => exact ih (some row) hRest
    | some b =>
      dsimp only
      rw [if_pos (List.rel_of_pairwise_cons hSorted List.mem_cons_self)]
      exact (ih (some row) hRest).trans List.getLast?_cons_cons.symm

variable {canonical : PyStr → Option PyStr}

/- What is known of the accepted rows of a steady run. -/
structure Held (canonical : PyStr → Option PyStr) (accepted : List (F × ProbeRecord F)) : Prop where
  history : TrueHistory accepted
  sorted :
    (accepted.map Prod.snd).Pairwise (fun a b => a.egressIp.isSome → b.egressIp.isSome →
        PyFloat.toRat a.epoch ≤ PyFloat.toRat b.epoch)
  parsed : ∀ old ∈ accepted, ∀ ip ∈ old.2.egressIp, canonical ip = some ip
  answered : ∀ old ∈ accepted, old.2.egressIp.isSome → old.2.egress.status = .ok

theorem lastPersisted_eq {accepted : List (F × ProbeRecord F)} (hHeld : Held canonical accepted)
    {horizon : F} {probes : List (ProbeRecord F)}
    (hKept : probes.filter (fun row => decide (Known horizon row)) =
        (accepted.map Prod.snd).filter (fun row => decide (Known horizon row))) :
    lastPersistedEgressIp canonical horizon probes = (latestOk horizon (accepted.map Prod.snd)).bind
        ProbeRecord.egressIp := by
  unfold lastPersistedEgressIp latestOk
  dsimp only
  change Option.bind (List.foldl _ none (probes.filter (fun row => decide (Known horizon row)))) _ = _
  rw [hKept]
  refine (congrArg (fun best : Option (ProbeRecord F) =>
    best.bind (fun row => row.egressIp.bind canonical)) (foldl_latest _ none ?_)).trans ?_
  · rw [Option.toList_none, List.nil_append]
    refine List.Pairwise.imp_of_mem ?_ (hHeld.sorted.sublist List.filter_sublist)
    intro a b hA hB hOrder
    exact hOrder (of_decide_eq_true (List.mem_filter.mp hA).2).2.1
      (of_decide_eq_true (List.mem_filter.mp hB).2).2.1
  · rw [Option.toList_none, List.nil_append]
    cases hLast : ((accepted.map Prod.snd).filter (fun row => decide (Known horizon row))).getLast? with
    | none => rfl
    | some b =>
      have hIn := List.mem_of_mem_filter (List.mem_of_getLast? hLast)
      obtain ⟨old, hOld, rfl⟩ := List.mem_map.mp hIn
      rw [Option.bind_some, Option.bind_some]
      cases hIp : old.2.egressIp with
      | none => rfl
      | some ip => exact hHeld.parsed old hOld ip hIp

/- What a row was checked for at the boundary. -/
structure Judged (call : ProbeCall F) (probes : List (ProbeRecord F)) (row : ProbeRecord F) : Prop where
  change :
    row.egressChange = deriveEgressChange call.canonical
      (lastPersistedEgressIp call.canonical call.horizon probes)
      row.egressIp
  parsed : ∀ ip ∈ row.egressIp, call.canonical ip = some ip
  answered : row.egressIp.isSome → row.egress.status = .ok

theorem probeRow_judged {call : ProbeCall F} {probes : List (ProbeRecord F)}
    {result : Members F} {epoch : Stamp F} {row : ProbeRecord F}
    (h : probeRow call probes result epoch = some row) : Judged call probes row := by
  unfold probeRow at h
  split at h
  · cases h
  obtain ⟨cycleId, _, h⟩ := Option.bind_eq_some_iff.mp h
  split at h
  · cases h
  obtain ⟨dns, _, h⟩ := Option.bind_eq_some_iff.mp h
  obtain ⟨https, _, h⟩ := Option.bind_eq_some_iff.mp h
  obtain ⟨udp, _, h⟩ := Option.bind_eq_some_iff.mp h
  obtain ⟨egress, _, h⟩ := Option.bind_eq_some_iff.mp h
  obtain ⟨ip, hIp, h⟩ := Option.bind_eq_some_iff.mp h
  obtain ⟨change, _, h⟩ := Option.bind_eq_some_iff.mp h
  split at h
  · rename_i hChange
    cases h
    refine ⟨hChange, ?_, ?_⟩
    · intro text hText
      unfold egressIpOf at hIp
      split at hIp
      · split at hIp
        · split at hIp
          · rename_i hCanonical
            cases hIp
            cases hText
            exact hCanonical
          · cases hIp
        · cases hIp
          cases hText
        · cases hIp
      · cases hIp
    · intro hSome
      unfold egressIpOf at hIp
      split at hIp
      · split at hIp
        · rename_i hStatus _
          exact hStatus
        · cases hIp
          cases hSome
        · cases hIp
      · cases hIp
  · cases h

theorem acceptedRow_judged {store : Store F} {call : ProbeCall F} {row : ProbeRecord F}
    (h : acceptedRow store (.probe call) = some row) : Judged call store.probes row := by
  have hValid : probeBoundaryValidate call store.probes = .ok (some row) := by
    unfold acceptedRow at h
    dsimp only at h
    split at h
    · rename_i row' hValid
      split at h
      · cases h
        exact hValid
      · cases h
    · cases h
  unfold probeBoundaryValidate at hValid
  split at hValid
  · split at hValid
    · cases hValid
    · split at hValid
      · split at hValid
        · cases hValid
        · obtain ⟨stamp, _, hStamp⟩ := except_bind_ok hValid
          cases stamp with
          | none => cases hStamp
          | some epoch => exact probeRow_judged (Except.ok.inj hStamp)
      · cases hValid
  · cases hValid

-- Runs

theorem trueChange_of_unaddressed {call : ProbeCall F} {probes earlier : List (ProbeRecord F)}
    {row : ProbeRecord F} {horizon : F} (hIp : row.egressIp = none)
    (hJudged : Judged call probes row) : TrueChange horizon earlier row := by
  have hUnknown : row.egressChange = .unknown := by
    rw [hJudged.change, hIp]
    unfold deriveEgressChange
    cases (lastPersistedEgressIp call.canonical call.horizon probes).bind call.canonical <;> rfl
  constructor
  · rw [hUnknown, hIp]
    exact ⟨nofun, fun ⟨_, _, _, h, _⟩ => nomatch h⟩
  · rw [hUnknown, hIp]
    exact ⟨nofun, fun ⟨_, _, _, h, _⟩ => nomatch h⟩

/- The change that is derived is the true one. -/
theorem trueChange_of_judged {accepted : List (F × ProbeRecord F)} (hHeld : Held canonical accepted)
    {call : ProbeCall F} {probes : List (ProbeRecord F)}
    {row : ProbeRecord F} (hCanonical : call.canonical = canonical)
    (hKept : row.egressIp.isSome → probes.filter (fun row => decide (Known call.horizon row)) =
          (accepted.map Prod.snd).filter (fun row => decide (Known call.horizon row)))
    (hJudged : Judged call probes row) :
    TrueChange call.horizon (accepted.map Prod.snd) row := by
  cases hIp : row.egressIp with
  | none => exact trueChange_of_unaddressed hIp hJudged
  | some ip =>
    have hChange := hJudged.change
    have hOwn := hJudged.parsed ip hIp
    rw [hCanonical] at hChange hOwn
    rw [lastPersisted_eq hHeld (hKept (by rw [hIp]; rfl)), hIp]
      at hChange
    cases hLast : latestOk call.horizon (accepted.map Prod.snd) with
    | none =>
      rw [hLast] at hChange
      have hUnknown : row.egressChange = .unknown := hChange
      constructor
      · rw [hUnknown, hLast]
        exact ⟨nofun, fun ⟨_, h, _⟩ => nomatch h⟩
      · rw [hUnknown, hLast]
        exact ⟨nofun, fun ⟨_, h, _⟩ => nomatch h⟩
    | some b =>
      have hMem := List.mem_filter.mp (List.mem_of_getLast? hLast)
      obtain ⟨old, hOld, rfl⟩ := List.mem_map.mp hMem.1
      obtain ⟨text, hText⟩ := Option.isSome_iff_exists.mp (of_decide_eq_true hMem.2).2.1
      have hDerived : row.egressChange =
          if text ≠ ip then .changed else .unchanged := by
        rw [hChange, hLast, Option.bind_some, hText]
        unfold deriveEgressChange
        rw [Option.bind_some, Option.bind_some, hHeld.parsed old hOld text hText, hOwn]
      constructor
      · rw [hDerived, hLast, hIp]
        constructor
        · intro h
          refine ⟨old.2, rfl, ip, rfl, fun hSame => ?_⟩
          rw [hText] at hSame
          rw [if_neg (not_not.mpr (Option.some.inj hSame))] at h
          cases h
        · rintro ⟨_, hB, _, hIs, hOther⟩
          cases hB
          cases hIs
          rw [if_pos (fun h => hOther (by rw [hText, h]))]
      · rw [hDerived, hLast, hIp]
        constructor
        · intro h
          refine ⟨old.2, rfl, ip, rfl, ?_⟩
          by_contra hOther
          rw [if_pos (fun h => hOther (by rw [hText, h]))] at h
          cases h
        · rintro ⟨_, hB, _, hIs, hSame⟩
          cases hB
          cases hIs
          rw [hText] at hSame
          rw [if_neg (not_not.mpr (Option.some.inj hSame))]

omit [BoundedFloat F] in
theorem split_concat {α : Type} {xs before after : List α} {x y : α} (h : xs ++ [x] = before ++ y :: after) :
    (before = xs ∧ y = x ∧ after = []) ∨ ∃ rest, after = rest ++ [x] ∧ xs = before ++ y :: rest := by
  rcases List.eq_nil_or_concat after with rfl | ⟨rest, z, rfl⟩
  · obtain ⟨rfl, hLast⟩ := List.append_inj' h rfl
    cases hLast
    exact Or.inl ⟨rfl, rfl, rfl⟩
  · rw [List.concat_eq_append, ← List.cons_append, ← List.append_assoc] at h
    obtain ⟨rfl, hLast⟩ := List.append_inj' h rfl
    cases hLast
    exact Or.inr ⟨rest, List.concat_eq_append, rfl⟩

/- The last address before a row is the baseline, or too old. -/
theorem latestOk_successive {pre between : List (ProbeRecord F)} {first b : ProbeRecord F} {horizon : F}
    (hSorted : (pre ++ first :: between).Pairwise (fun a b => a.egressIp.isSome → b.egressIp.isSome →
        PyFloat.toRat a.epoch ≤ PyFloat.toRat b.epoch))
    (hStatus : first.egress.status = .ok) (hFirst : first.egressIp.isSome)
    (hBetween : ∀ other ∈ between, other.egressIp = none)
    (hLast : latestOk horizon (pre ++ first :: between) = some b) : b = first := by
  unfold latestOk at hLast
  have hNone : between.filter (fun row => decide (Known horizon row)) = [] := by
    rw [List.filter_eq_nil_iff]
    intro other hIn hKnown
    have hSome := (of_decide_eq_true hKnown).2.1
    rw [hBetween other hIn] at hSome
    cases hSome
  rw [List.filter_append, List.filter_cons, hNone] at hLast
  by_cases hKnown : Known horizon first
  · rw [if_pos (decide_eq_true hKnown), List.getLast?_concat] at hLast
    exact (Option.some.inj hLast).symm
  · rw [if_neg (by rw [decide_eq_true_eq]; exact hKnown),
      List.append_nil] at hLast
    have hMem := List.mem_filter.mp (List.mem_of_getLast? hLast)
    have hB := of_decide_eq_true hMem.2
    have hOrder := (List.pairwise_append.mp hSorted).2.2 b hMem.1
      first List.mem_cons_self hB.2.1 hFirst
    exact absurd ⟨hStatus, hFirst, hB.2.2.trans hOrder⟩ hKnown

theorem held_tell {told : Told F} {input : Input F} (hHeld : Held canonical told.accepted)
    (hSteady : Steady canonical told input) :
    Held canonical (tell told input).2.accepted := by
  unfold tell
  dsimp only
  cases hRow : acceptedRow told.store input with
  | none =>
    rw [Option.map_none, Option.toList_none, List.append_nil]
    exact hHeld
  | some row =>
    cases input with
    | publish p => cases hRow
    | retain => cases hRow
    | fail code => cases hRow
    | reopen => cases hRow
    | probe call =>
      obtain ⟨hCanonical, hAddressed⟩ := hSteady
      have hAddressed := hAddressed row hRow
      have hJudged := acceptedRow_judged hRow
      have hTrue := trueChange_of_judged hHeld hCanonical (fun h => (hAddressed h).2) hJudged
      change Held canonical (told.accepted ++ [(call.horizon, row)])
      refine ⟨⟨?_, ?_⟩, ?_, ?_, ?_⟩
      · intro before horizon later after hSplit
        rcases split_concat hSplit with ⟨rfl, hLast, rfl⟩ | ⟨rest, rfl, hInner⟩
        · cases hLast
          exact hTrue
        · exact hHeld.history.change _ _ _ _ hInner
      · intro before first between second after hSplit hFirst hBetween hSame hChanged
        rcases split_concat hSplit with ⟨hBefore, hLast, rfl⟩ | ⟨rest, rfl, hInner⟩
        · cases hLast
          obtain ⟨b, hB, ip, hIp, hOther⟩ := hTrue.changed.mp hChanged
          have hIn : first ∈ told.accepted := by
            rw [← hBefore]
            simp
          have hNone : ∀ other ∈ between.map Prod.snd, other.egressIp = none := by
            intro other hOther
            obtain ⟨entry, hEntry, rfl⟩ := List.mem_map.mp hOther
            exact hBetween entry hEntry
          have hSorted := hHeld.sorted
          rw [← hBefore, List.map_append, List.map_cons] at hSorted
          rw [← hBefore, List.map_append, List.map_cons] at hB
          have hBase := latestOk_successive hSorted (hHeld.answered first hIn hFirst) hFirst hNone hB
          rw [hBase, hSame] at hOther
          exact hOther hIp
        · exact hHeld.history.successive _ _ _ _ _ hInner hFirst hBetween hSame hChanged
      · rw [List.map_append]
        refine List.pairwise_append.mpr ⟨hHeld.sorted, List.pairwise_singleton _ _, ?_⟩
        intro old hOld new hNew hSome hOwn
        obtain ⟨entry, hEntry, rfl⟩ := List.mem_map.mp hOld
        have hIs : new = row := List.mem_singleton.mp hNew
        rw [hIs] at hOwn ⊢
        exact (hAddressed hOwn).1 entry hEntry hSome
      · intro old hOld ip hIp
        rcases List.mem_append.mp hOld with hOld | hOld
        · exact hHeld.parsed old hOld ip hIp
        · obtain rfl := List.mem_singleton.mp hOld
          rw [← hCanonical]
          exact hJudged.parsed ip hIp
      · intro old hOld hSome
        rcases List.mem_append.mp hOld with hOld | hOld
        · exact hHeld.answered old hOld hSome
        · obtain rfl := List.mem_singleton.mp hOld
          exact hJudged.answered hSome

theorem held_nil : Held canonical ([] : List (F × ProbeRecord F)) := by
  refine ⟨⟨?_, ?_⟩, List.Pairwise.nil, fun old hOld => absurd hOld List.not_mem_nil,
    fun old hOld => absurd hOld List.not_mem_nil⟩
  · intro before horizon row after hSplit
    exact absurd hSplit.symm (List.append_ne_nil_of_right_ne_nil
      _ (List.cons_ne_nil _ _))
  · intro before first between second after hSplit
    exact absurd hSplit.symm (List.append_ne_nil_of_right_ne_nil
      _ (List.cons_ne_nil _ _))

/- A store that was just created has accepted nothing. -/
def Told.fresh (created : F) : Told F := ⟨freshStore created, []⟩

/-
  In every run whose probe results all meet the condition, the
  stored changes are those of the accepted history.
-/
theorem egress_history_true (canonical : PyStr → Option PyStr) (created : F) (inputs : List (Input F))
    (hSteady : ∀ before input after, inputs = before ++ input :: after → Steady canonical
          (finalState tell (Told.fresh created) before) input) :
    TrueHistory (finalState tell (Told.fresh created) inputs).accepted := by
  suffices h : Held canonical (finalState tell (Told.fresh created) inputs).accepted from
    h.history
  induction inputs using List.reverseRecOn with
  | nil => exact held_nil
  | append_singleton inputs input ih =>
    rw [finalState_append]
    refine held_tell (ih ?_) (hSteady inputs input [] rfl)
    rintro before earlier after rfl
    exact hSteady before earlier (after ++ [input]) (by simp)

-- A Clock Step

/- An answer of a slot, with the members of its kind. -/
def answeredSlot (members : List (String × Json (IntGrid (2 ^ 53)))) : Json (IntGrid (2 ^ 53)) :=
  .obj (((("status", .str (pyStr "ok")) :: ("latency_ms", .int 20) ::
    ("error_code", .str (pyStr "NONE")) :: members)).map (fun m => (pyStr m.1, m.2)))

/- A cycle of the clock's second, seen from an address. -/
def cycleAt (now : ℕ) (digit : ℕ) (address change : String) : Input (IntGrid (2 ^ 53)) := .probe
    { result := .obj ([("v", .int 1), ("epoch", .int now),
        ("cycle_id", .str (List.replicate 32 digit)),
        ("dns", answeredSlot []), ("https", answeredSlot []),
        ("udp", answeredSlot []),
        ("egress", answeredSlot
          [("ip", .str (pyStr address))])].map
            (fun m => (pyStr m.1, m.2)))
      change := .str (pyStr change)
      now := PyFloat.round (now : ℚ)
      horizon := PyFloat.round ((now : ℚ) - 604800)
      canonical := some
      unread := fun _ => .null
      faults := [] }

/- What was stored of the addresses. -/
def storedChanges (told : Told (IntGrid (2 ^ 53))) : List (Option PyStr × EgressChange) :=
  told.accepted.map (fun entry => (entry.2.egressIp, entry.2.egressChange))

/- A clock that goes on: one change of address, once stored. -/
theorem egress_history_true_of_change : TrueHistory (finalState tell
        (Told.fresh (PyFloat.round 0 : IntGrid (2 ^ 53)))
        [cycleAt 1000000 48 "8.8.8.8" "unknown", cycleAt 1000060 49 "1.1.1.1" "changed"]).accepted := by
  refine egress_history_true some _ _ ?_
  intro before input after hSplit
  rcases before with _ | ⟨first, _ | ⟨second, before⟩⟩
  · cases hSplit
    refine ⟨rfl, fun row hRow _ => ⟨?_, rfl⟩⟩
    exact fun old hOld => absurd hOld List.not_mem_nil
  · cases hSplit
    have hOrder : ∀ row ∈ acceptedRow (finalState tell (Told.fresh (PyFloat.round 0))
              [cycleAt 1000000 48 "8.8.8.8" "unknown"]).store
            (cycleAt 1000060 49 "1.1.1.1" "changed"),
          ∀ old ∈ (finalState tell (Told.fresh (PyFloat.round 0))
              [cycleAt 1000000 48 "8.8.8.8" "unknown"]).accepted,
            PyFloat.toRat old.2.epoch ≤ PyFloat.toRat row.epoch := by
      decide +kernel
    refine ⟨rfl, fun row hRow _ => ⟨fun old hOld _ => hOrder row hRow old hOld, ?_⟩⟩
    exact congrArg (List.filter _) (tell_probes rfl _)
  · rcases before with _ | ⟨third, before⟩
    · cases hSplit
    · cases hSplit

/-
  The clock goes back by ten seconds with the second cycle: the
  third row repeats its change.
-/
theorem stepped_back_change_repeats : ¬ ∀ (canonical : PyStr → Option PyStr) (created : IntGrid (2 ^ 53))
        (inputs : List (Input (IntGrid (2 ^ 53)))),
        (∀ call, Input.probe call ∈ inputs → call.canonical = canonical) → TrueHistory
            (finalState tell (Told.fresh created) inputs).accepted := by
  intro h
  have hTrue := h some (PyFloat.round 0) [cycleAt 1000000 48 "8.8.8.8" "unknown",
      cycleAt 999990 49 "1.1.1.1" "changed",
      cycleAt 999995 50 "1.1.1.1" "changed"] (by
    intro call hCall
    rcases List.mem_cons.mp hCall with hCall | hCall
    · cases hCall
      rfl
    rcases List.mem_cons.mp hCall with hCall | hCall
    · cases hCall
      rfl
    · cases List.mem_singleton.mp hCall
      rfl)
  have hStored : storedChanges (finalState tell (Told.fresh (PyFloat.round 0))
        [cycleAt 1000000 48 "8.8.8.8" "unknown", cycleAt 999990 49 "1.1.1.1" "changed",
          cycleAt 999995 50 "1.1.1.1" "changed"]) =
      [(some (pyStr "8.8.8.8"), .unknown), (some (pyStr "1.1.1.1"), .changed),
        (some (pyStr "1.1.1.1"), .changed)] := by
    decide +kernel
  unfold storedChanges at hStored
  obtain ⟨first, rest, hAccepted, _, hStored⟩ := List.map_eq_cons_iff.mp hStored
  obtain ⟨second, rest, rfl, hSecond, hStored⟩ := List.map_eq_cons_iff.mp hStored
  obtain ⟨third, rest, rfl, hThird, _⟩ := List.map_eq_cons_iff.mp hStored
  obtain ⟨hSecondIp, _⟩ := Prod.mk.inj hSecond
  obtain ⟨hThirdIp, hChanged⟩ := Prod.mk.inj hThird
  refine hTrue.successive [first] second [] third rest hAccepted
    (by rw [hSecondIp]; rfl) ?_ (hSecondIp.trans hThirdIp.symm)
    hChanged
  exact fun other hOther => absurd hOther List.not_mem_nil

end SingboxOps.EvidenceHistory
