import SingboxOps.EvidenceStore.Publish
import SingboxOps.Lib.Trace

/-
  Which device rows and samples a run of publications writes.
-/

namespace SingboxOps.EvidenceHistory

open Classifier EvidenceStore

variable {F : Type} [BoundedFloat F]

-- One Publication

/- The rows that a publication finds due. -/
def dueRows (p : Publish F) (store : Store F) : List (ProjectedDevice × DeviceReason) :=
  changedRows store.deviceStates p.heartbeatInterval p.journal.now p.snapshot

def dueSample (p : Publish F) (store : Store F) : Bool :=
  sampleDue p.sampleInterval p.journal.now store.lastSampleTs

def newSamples (p : Publish F) (store : Store F) : Option (SampleRecord F) :=
  if dueSample p store then
    some (projectSample p.snapshot p.journal.now p.unread)
  else none

def newDevices (p : Publish F) (store : Store F) : List (DeviceRecord F) :=
  (dueRows p store).map (fun c => deviceRecord p.journal.now p.unread c.1 c.2)

/- The write succeeded, or there was nothing to write. -/
def Settled (p : Publish F) (store : Store F) : Prop := (dueSample p store = false ∧ dueRows p store = []) ∨
    (transact (writeRows (newSamples p store) (newDevices p store)) p.faults store.timeline).1 = .ok ()

/- What a settled publication leaves. -/
structure Written (p : Publish F) (store store' : Store F) : Prop where
  samples : store'.timeline.samples = store.timeline.samples ++ (newSamples p store).toList
  devices : store'.timeline.devices = store.timeline.devices ++ newDevices p store
  last :
    store'.lastSampleTs =
      if dueSample p store then some p.journal.now
      else store.lastSampleTs
  states :
    store'.deviceStates = writtenStates p.journal.now ((dueRows p store).map Prod.fst) store.deviceStates

/- The timeline and what is remembered of it stay. -/
structure Kept (store store' : Store F) : Prop where
  timeline : store'.timeline = store.timeline
  last : store'.lastSampleTs = store.lastSampleTs
  states : store'.deviceStates = store.deviceStates

theorem writeRows_returns (sample : Option (SampleRecord F)) (rows : List (DeviceRecord F))
    (t : Timeline F) : Returns t (writeRows sample rows)
      (fun _ t' => t' = ⟨t.samples ++ sample.toList, t.devices ++ rows⟩) := by
  have hDevices : ∀ t : Timeline F, Returns t (do
            if rows ≠ [] then
              Tx.execute WriteError.storage (insertDevices rows)
            else pure ()
            Tx.commit .storage)
          (fun _ t' => t' = ⟨t.samples, t.devices ++ rows⟩) := by
    intro t
    split
    · apply Returns.bind_execute
      intro _ t' hInsert
      unfold insertDevices at hInsert
      split at hInsert
      · cases hInsert
        exact Returns.commit rfl
      · cases hInsert
    · rename_i hNil
      rw [not_not.mp hNil, List.append_nil]
      exact Returns.commit rfl
  unfold writeRows
  cases sample with
  | none =>
    rw [Option.toList_none, List.append_nil]
    exact hDevices t
  | some row =>
    apply Returns.bind_execute
    intro _ t' hInsert
    unfold insertSample at hInsert
    split at hInsert
    · cases hInsert
      exact hDevices _
    · cases hInsert

theorem publish_cases (p : Publish F) (store : Store F) :
    (Settled p store ∧ Written p store (publish p store)) ∨
      (¬ Settled p store ∧ Kept store (publish p store)) := by
  unfold publish
  dsimp only
  split
  · rename_i hQuiet
    change (!dueSample p store && (dueRows p store).isEmpty) = true
      at hQuiet
    rw [Bool.and_eq_true, Bool.not_eq_true', List.isEmpty_iff] at hQuiet
    refine Or.inl ⟨Or.inl hQuiet, ?_, ?_, ?_, ?_⟩
    · rw [newSamples, hQuiet.1]
      exact (List.append_nil _).symm
    · rw [newDevices, hQuiet.2]
      exact (List.append_nil _).symm
    · rw [hQuiet.1]
      rfl
    · rw [hQuiet.2]
      rfl
  · rename_i hNeeded
    change ¬ (!dueSample p store && (dueRows p store).isEmpty) = true
      at hNeeded
    have hFailed : ∀ e, (transact (writeRows (newSamples p store)
            (newDevices p store)) p.faults store.timeline).1 =
          .error e → ¬ Settled p store := by
      rintro e hRun (⟨hSample, hRows⟩ | hOk)
      · rw [hSample, hRows] at hNeeded
        exact hNeeded rfl
      · rw [hRun] at hOk
        cases hOk
    split
    · rename_i timeline hRun
      have hTimeline := transact_ok (writeRows_returns (newSamples p store)
          (newDevices p store) store.timeline)
        (congrArg Prod.fst hRun)
      rw [show (transact (writeRows (newSamples p store)
        (newDevices p store)) p.faults store.timeline).2 = timeline
          from congrArg Prod.snd hRun] at hTimeline
      exact Or.inl ⟨Or.inr (congrArg Prod.fst hRun), congrArg Timeline.samples hTimeline,
        congrArg Timeline.devices hTimeline, rfl, rfl⟩
    · rename_i hRun
      exact Or.inr ⟨hFailed _ (congrArg Prod.fst hRun),
        rfl, rfl, rfl⟩
    · rename_i hRun
      exact Or.inr ⟨hFailed _ (congrArg Prod.fst hRun), rfl, rfl, rfl⟩

-- What Is Remembered

/- The last of the rows of a device and an inbound. -/
def lastRow (key : PyStr × PyStr) (rows : List (DeviceRecord F)) : Option (DeviceRecord F) :=
  (rows.filter (fun row => decide ((row.device, row.inbound) = key))).getLast?

theorem lastRow_concat (key : PyStr × PyStr) (rows : List (DeviceRecord F)) (row : DeviceRecord F) :
    lastRow key (rows ++ [row]) =
      if (row.device, row.inbound) = key then some row
      else lastRow key rows := by
  unfold lastRow
  rw [List.filter_append]
  by_cases hKey : (row.device, row.inbound) = key
  · simp [hKey]
  · simp [hKey]

/- What is remembered is what was written last. -/
def Noted (rows : List (DeviceRecord F)) (states : DeviceStates F) : Prop := ∀ key,
    (lastRow key rows).map (fun row => (row.activeConnections, row.deviceStatus)) =
      (states key).map (fun state => ((state.active : ℤ), some state.status))

theorem noted_written {now : F} {unread : PyStr → Json F} {due : List (ProjectedDevice × DeviceReason)}
    {rows : List (DeviceRecord F)} {states : DeviceStates F}
    (hNoted : Noted rows states) : Noted (rows ++ due.map (fun c => deviceRecord now unread c.1 c.2))
      (writtenStates now (due.map Prod.fst) states) := by
  induction due generalizing rows states with
  | nil =>
    rw [List.map_nil, List.append_nil]
    exact hNoted
  | cons c due ih =>
    rw [List.map_cons, List.append_cons]
    refine ih (fun key => ?_)
    rw [lastRow_concat]
    change Option.map _ (if (c.1.device, c.1.inbound) = key then _ else _) = _
    dsimp only
    by_cases hKey : (c.1.device, c.1.inbound) = key
    · rw [← hKey, Function.update_self, if_pos rfl]
      rfl
    · rw [Function.update_of_ne (Ne.symm hKey), if_neg hKey]
      exact hNoted key

theorem writtenStates_cases (now : F) (rows : List ProjectedDevice) (states : DeviceStates F)
    (key : PyStr × PyStr) :
    (∃ row ∈ rows, (row.device, row.inbound) = key ∧ writtenStates now rows states key =
          some ⟨row.activeConnections, row.deviceStatus, now⟩) ∨
      ((∀ row ∈ rows, (row.device, row.inbound) ≠ key) ∧ writtenStates now rows states key = states key) := by
  induction rows generalizing states with
  | nil => exact Or.inr ⟨nofun, rfl⟩
  | cons first rows ih =>
    rcases ih (Function.update states (first.device, first.inbound)
        (some ⟨first.activeConnections, first.deviceStatus, now⟩))
      with ⟨row, hRow, hKey, hState⟩ | ⟨hOther, hState⟩
    · exact Or.inl ⟨row, List.mem_cons_of_mem _ hRow, hKey, hState⟩
    · by_cases hKey : (first.device, first.inbound) = key
      · refine Or.inl ⟨first, List.mem_cons_self, hKey, hState.trans ?_⟩
        rw [← hKey, Function.update_self]
      · refine Or.inr ⟨?_, hState.trans ?_⟩
        · intro row hRow
          rcases List.mem_cons.mp hRow with rfl | hRow
          · exact hKey
          · exact hOther row hRow
        · rw [Function.update_of_ne (Ne.symm hKey)]

-- Runs

/- A store, and the device rows its process has written. -/
structure Process (F : Type) where
  store : Store F
  rows : List (DeviceRecord F)

/- The rows that an input adds to the timeline. -/
def added (store : Store F) : Input F → Timeline F
  | .publish p =>
    let timeline := (publish p store).timeline
    ⟨timeline.samples.drop store.timeline.samples.length, timeline.devices.drop store.timeline.devices.length⟩
  | _ => ⟨[], []⟩

def Process.next (s : Process F) (input : Input F) : Unit × Process F := ((), ⟨(step s.store input).2,
    match input with
    | .reopen => []
    | input => s.rows ++ (added s.store input).devices⟩)

/- Some input of the run adds such rows. -/
def Adds (s : Process F) (inputs : List (Input F)) (P : Timeline F → Prop) : Prop :=
  ∃ pre input post, inputs = pre ++ input :: post ∧ P (added (finalState Process.next s pre).store input)

def HasRow (key : PyStr × PyStr) (t : Timeline F) : Prop := ∃ row ∈ t.devices, (row.device, row.inbound) = key

/-
  After a settled publication the last rows are current, after
  a failed one nothing is forgotten, and a settled publication
  one interval after another ends the wait for a sample and for
  the heartbeat of each of its devices.
-/
structure Timely (start : Process F) (inputs : List (Input F)) : Prop where
  current : ∀ before p after, inputs = before ++ .publish p :: after →
      ∀ s, s = finalState Process.next start before → Settled p s.store →
        ∀ row ∈ projectDeviceRows p.snapshot, (lastRow (row.device, row.inbound)
              (s.next (.publish p)).2.rows).map
              (fun r => (r.activeConnections, r.deviceStatus)) =
            some ((row.activeConnections : ℤ), some row.deviceStatus)
  retried : ∀ before p after, inputs = before ++ .publish p :: after →
      ∀ s, s = finalState Process.next start before → ¬ Settled p s.store → Kept s.store (publish p s.store)
  sampled :
    ∀ before p between q after, inputs = before ++ .publish p :: between ++ .publish q :: after →
      ∀ s, s = finalState Process.next start before → Settled q (finalState Process.next s
          (.publish p :: between)).store →
        elapsed q.sampleInterval q.journal.now p.journal.now →
          Adds s (.publish p :: between ++ [.publish q]) (fun t => t.samples ≠ [])
  beaten : ∀ before p between q after, inputs = before ++ .publish p :: between ++ .publish q :: after →
      ∀ s, s = finalState Process.next start before → Settled q (finalState Process.next s
          (.publish p :: between)).store →
        elapsed q.heartbeatInterval q.journal.now p.journal.now →
        ∀ row ∈ projectDeviceRows q.snapshot, Adds s (.publish p :: between ++ [.publish q])
            (HasRow (row.device, row.inbound))

/-
  The clock of a publication is not behind what was written,
  and its snapshot lists no device and inbound twice with
  different values.
-/
structure OnTime (store : Store F) (p : Publish F) : Prop where
  sample : ∀ since ∈ store.lastSampleTs, PyFloat.toRat since ≤ PyFloat.toRat p.journal.now
  rows : ∀ key, ∀ state ∈ store.deviceStates key, PyFloat.toRat state.writtenAt ≤ PyFloat.toRat p.journal.now
  single : ∀ a ∈ projectDeviceRows p.snapshot, ∀ b ∈ projectDeviceRows p.snapshot,
        (a.device, a.inbound) = (b.device, b.inbound) → a = b

theorem recordProbe_timers (call : ProbeCall F) (store : Store F) :
    (recordProbe call store).lastSampleTs = store.lastSampleTs ∧
      (recordProbe call store).deviceStates = store.deviceStates := by
  unfold recordProbe
  split
  · exact ⟨rfl, rfl⟩
  · exact ⟨rfl, rfl⟩
  · split <;> exact ⟨rfl, rfl⟩

theorem Written.added_eq {p : Publish F} {store : Store F} (h : Written p store (publish p store)) :
    added store (.publish p) = ⟨(newSamples p store).toList, newDevices p store⟩ := by
  unfold added
  dsimp only
  rw [h.samples, h.devices, List.drop_left, List.drop_left]

theorem Kept.added_eq {p : Publish F} {store : Store F}
    (h : Kept store (publish p store)) : added store (.publish p) = ⟨[], []⟩ := by
  unfold added
  dsimp only
  rw [h.timeline, List.drop_length, List.drop_length]

theorem next_noted {s : Process F} (hNoted : Noted s.rows s.store.deviceStates)
    (input : Input F) : Noted (s.next input).2.rows (s.next input).2.store.deviceStates := by
  cases input with
  | publish p =>
    change Noted (s.rows ++ (added s.store (.publish p)).devices) (publish p s.store).deviceStates
    rcases publish_cases p s.store with ⟨_, h⟩ | ⟨_, h⟩
    · rw [h.added_eq, h.states]
      exact noted_written hNoted
    · rw [h.added_eq, h.states, List.append_nil]
      exact hNoted
  | probe call =>
    change Noted (s.rows ++ []) (recordProbe call s.store).deviceStates
    rw [List.append_nil, (recordProbe_timers call s.store).2]
    exact hNoted
  | retain =>
    change Noted (s.rows ++ []) s.store.deviceStates
    rw [List.append_nil]
    exact hNoted
  | fail code =>
    change Noted (s.rows ++ []) s.store.deviceStates
    rw [List.append_nil]
    exact hNoted
  | reopen => exact fun key => rfl

theorem run_noted (inputs : List (Input F)) {s : Process F} (hNoted : Noted s.rows s.store.deviceStates) :
    Noted (finalState Process.next s inputs).rows (finalState Process.next s inputs).store.deviceStates := by
  induction inputs generalizing s with
  | nil => exact hNoted
  | cons input rest ih => exact ih (next_noted hNoted input)

theorem mem_dueRows {p : Publish F} {store : Store F} {c : ProjectedDevice × DeviceReason} :
    c ∈ dueRows p store ↔ c.1 ∈ projectDeviceRows p.snapshot ∧
        reasonOf store.deviceStates p.heartbeatInterval p.journal.now c.1 = some c.2 := by
  unfold dueRows changedRows
  rw [List.mem_filterMap]
  constructor
  · rintro ⟨row, hRow, hMapped⟩
    obtain ⟨reason, hReason, rfl⟩ := Option.map_eq_some_iff.mp hMapped
    exact ⟨hRow, hReason⟩
  · rintro ⟨hRow, hReason⟩
    exact ⟨c.1, hRow, by rw [hReason]; rfl⟩

theorem current_of_settled {s : Process F} {p : Publish F} (hNoted : Noted s.rows s.store.deviceStates)
    (hOnTime : OnTime s.store p) (hSettled : Settled p s.store) {row : ProjectedDevice}
    (hRow : row ∈ projectDeviceRows p.snapshot) : (lastRow (row.device, row.inbound)
        (s.next (.publish p)).2.rows).map
        (fun r => (r.activeConnections, r.deviceStatus)) =
      some ((row.activeConnections : ℤ), some row.deviceStatus) := by
  refine (next_noted hNoted (.publish p) _).trans ?_
  change ((publish p s.store).deviceStates _).map _ = _
  rcases publish_cases p s.store with ⟨_, h⟩ | ⟨h, _⟩
  · rw [h.states]
    rcases writtenStates_cases p.journal.now ((dueRows p s.store).map Prod.fst) s.store.deviceStates
        (row.device, row.inbound) with
      ⟨other, hIn, hKey, hState⟩ | ⟨hOther, hState⟩
    · obtain ⟨c, hDue, rfl⟩ := List.mem_map.mp hIn
      rw [hState, hOnTime.single c.1 (mem_dueRows.mp hDue).1 row hRow hKey]
      rfl
    · rw [hState]
      cases hReason : reasonOf s.store.deviceStates p.heartbeatInterval p.journal.now row with
      | some reason =>
        exact absurd rfl (hOther row (List.mem_map.mpr ⟨(row, reason), mem_dueRows.mpr ⟨hRow, hReason⟩, rfl⟩))
      | none =>
        unfold reasonOf at hReason
        split at hReason
        · cases hReason
        · rename_i state hState
          split_ifs at hReason with hChange
          rw [hState]
          rw [not_or, not_not, not_not] at hChange
          rw [Option.map_some, hChange.1, hChange.2]
  · exact absurd hSettled h

-- Timers

/- A timer that nothing is added to stands, or is forgotten. -/
theorem silent_run {α : Type} {timer : Store F → Option α} {P : Timeline F → Prop}
    (hStep : ∀ store input, ¬ P (added store input) →
        timer (step store input).2 = timer store ∨ timer (step store input).2 = none)
    (inputs : List (Input F)) (s : Process F)
    (hSilent : ¬ Adds s inputs P) :
    timer (finalState Process.next s inputs).store = timer s.store ∨
      timer (finalState Process.next s inputs).store = none := by
  induction inputs generalizing s with
  | nil => exact Or.inl rfl
  | cons input rest ih =>
    have hFirst : ¬ P (added s.store input) := fun h => hSilent ⟨[], input, rest, rfl, h⟩
    have hRest : ¬ Adds (s.next input).2 rest P := by
      rintro ⟨pre, later, post, rfl, h⟩
      exact hSilent ⟨input :: pre, later, post, rfl, h⟩
    rcases ih _ hRest with h | h
    · rcases hStep s.store input hFirst with hOne | hOne
      · exact Or.inl (h.trans hOne)
      · exact Or.inr (h.trans hOne)
    · exact Or.inr h

/- What is due at the end of a run is added in it. -/
theorem adds_of_due {α : Type} (timer : Store F → Option α) {P : Timeline F → Prop}
    (hStep : ∀ store input, ¬ P (added store input) →
        timer (step store input).2 = timer store ∨ timer (step store input).2 = none)
    {s : Process F} {inputs : List (Input F)} {q : Publish F}
    (hDue : ∀ store, timer store = timer s.store ∨ timer store = none →
        Settled q store → P (added store (.publish q)))
    (hSettled : Settled q (finalState Process.next s inputs).store) :
    Adds s (inputs ++ [.publish q]) P := by
  by_contra hSilent
  have hBefore : ¬ Adds s inputs P := by
    rintro ⟨pre, input, post, rfl, h⟩
    exact hSilent ⟨pre, input, post ++ [.publish q], by rw [List.append_assoc, List.cons_append], h⟩
  exact hSilent ⟨inputs, .publish q, [], rfl, hDue _ (silent_run hStep inputs s hBefore) hSettled⟩

theorem sample_step (store : Store F) (input : Input F) (hNone : ¬ (added store input).samples ≠ []) :
    (step store input).2.lastSampleTs = store.lastSampleTs ∨ (step store input).2.lastSampleTs = none := by
  cases input with
  | publish p =>
    change (publish p store).lastSampleTs = _ ∨ _
    rcases publish_cases p store with ⟨_, h⟩ | ⟨_, h⟩
    · rw [h.added_eq] at hNone
      cases hDue : dueSample p store with
      | true =>
        rw [newSamples, hDue] at hNone
        exact absurd (List.cons_ne_nil _ _) hNone
      | false =>
        rw [h.last, hDue]
        exact Or.inl rfl
    · exact Or.inl h.last
  | probe call => exact Or.inl (recordProbe_timers call store).1
  | retain => exact Or.inl rfl
  | fail code => exact Or.inl rfl
  | reopen => exact Or.inr rfl

theorem row_step (key : PyStr × PyStr) (store : Store F) (input : Input F)
    (hNone : ¬ HasRow key (added store input)) :
    (step store input).2.deviceStates key = store.deviceStates key ∨
      (step store input).2.deviceStates key = none := by
  cases input with
  | publish p =>
    change (publish p store).deviceStates key = _ ∨ _
    rcases publish_cases p store with ⟨_, h⟩ | ⟨_, h⟩
    · rw [h.states]
      rcases writtenStates_cases p.journal.now ((dueRows p store).map Prod.fst) store.deviceStates key
        with ⟨row, hIn, hKey, _⟩ | ⟨_, hState⟩
      · obtain ⟨c, hDue, rfl⟩ := List.mem_map.mp hIn
        rw [h.added_eq] at hNone
        exact absurd ⟨_, List.mem_map_of_mem hDue, hKey⟩ hNone
      · exact Or.inl hState
    · exact Or.inl (congrFun h.states key)
  | probe call => exact Or.inl (congrFun (recordProbe_timers call store).2 key)
  | retain => exact Or.inl rfl
  | fail code => exact Or.inl rfl
  | reopen => exact Or.inr rfl

theorem elapsed_mono {interval now since earlier : F} (hElapsed : elapsed interval now since)
    (hLe : PyFloat.toRat earlier ≤ PyFloat.toRat since) : elapsed interval now earlier :=
  le_trans hElapsed (PyFloat.round_mono (sub_le_sub_left hLe _))

/- A store that was just created, and no row written yet. -/
def Process.fresh (created : F) : Process F := ⟨freshStore created, []⟩

/-
  In every run whose publications are all on time, the timeline
  loses no settled change and is not silenced.
-/
theorem timeline_timely (created : F) (inputs : List (Input F)) (hOnTime :
      ∀ before p after, inputs = before ++ .publish p :: after → OnTime
          (finalState Process.next (Process.fresh created) before).store p) :
    Timely (Process.fresh created) inputs := by
  have hWait : ∀ before p between q after, inputs = before ++ .publish p :: between ++ .publish q :: after →
          OnTime (finalState Process.next (Process.fresh created) before).store p := by
    intro before p between q after hSplit
    refine hOnTime before p (between ++ .publish q :: after) ?_
    rw [hSplit, List.append_assoc, List.cons_append]
  constructor
  · rintro before p after hSplit s rfl hSettled row hRow
    exact current_of_settled (run_noted before (fun key => rfl)) (hOnTime before p after hSplit) hSettled hRow
  · rintro before p after hSplit s rfl hFailed
    exact ((publish_cases p _).resolve_left (fun h => hFailed h.1)).2
  · rintro before p between q after hSplit s rfl hSettled hElapsed
    have hSince := (hWait before p between q after hSplit).sample
    refine adds_of_due Store.lastSampleTs sample_step ?_ hSettled
    intro store hTimer hStored
    have hDue : dueSample q store = true := by
      unfold dueSample sampleDue
      cases hLast : store.lastSampleTs with
      | none => rfl
      | some since =>
        rw [hLast] at hTimer
        rcases hTimer with hTimer | hTimer
        · exact decide_eq_true (elapsed_mono hElapsed (hSince since hTimer.symm))
        · cases hTimer
    rcases publish_cases q store with ⟨_, h⟩ | ⟨h, _⟩
    · rw [h.added_eq, newSamples, hDue]
      exact List.cons_ne_nil _ _
    · exact absurd hStored h
  · rintro before p between q after hSplit s rfl hSettled hElapsed row hRow
    have hSince := (hWait before p between q after hSplit).rows
    refine adds_of_due (fun store => store.deviceStates (row.device, row.inbound))
      (row_step (row.device, row.inbound)) ?_ hSettled
    intro store hTimer hStored
    have hDue : ∃ reason, (row, reason) ∈ dueRows q store := by
      cases hReason : reasonOf store.deviceStates q.heartbeatInterval q.journal.now row with
      | some reason => exact ⟨reason, mem_dueRows.mpr ⟨hRow, hReason⟩⟩
      | none =>
        unfold reasonOf at hReason
        split at hReason
        · cases hReason
        · rename_i state hState
          rw [hState] at hTimer
          rcases hTimer with hTimer | hTimer
          · rw [if_pos (elapsed_mono hElapsed (hSince _ state hTimer.symm))] at hReason
            split_ifs at hReason
          · cases hTimer
    obtain ⟨reason, hDue⟩ := hDue
    rcases publish_cases q store with ⟨_, h⟩ | ⟨h, _⟩
    · rw [h.added_eq]
      exact ⟨_, List.mem_map_of_mem hDue, rfl⟩
    · exact absurd hStored h

-- A Clock Step

theorem publish_remembers (p : Publish F) (store : Store F) : (∀ since ∈ (publish p store).lastSampleTs,
        since = p.journal.now ∨ since ∈ store.lastSampleTs) ∧
      ∀ key, ∀ state ∈ (publish p store).deviceStates key,
        state.writtenAt = p.journal.now ∨ state ∈ store.deviceStates key := by
  rcases publish_cases p store with ⟨_, h⟩ | ⟨_, h⟩
  · rw [h.last, h.states]
    constructor
    · intro since hSince
      split_ifs at hSince
      · cases hSince
        exact Or.inl rfl
      · exact Or.inr hSince
    · intro key state hState
      rcases writtenStates_cases p.journal.now ((dueRows p store).map Prod.fst) store.deviceStates key with
        ⟨row, _, _, hNow⟩ | ⟨_, hSame⟩
      · rw [hNow] at hState
        cases hState
        exact Or.inl rfl
      · rw [hSame] at hState
        exact Or.inr hState
  · rw [h.last, h.states]
    exact ⟨fun _ => Or.inr, fun _ _ => Or.inr⟩

/- A publication of one device, without a journal exchange. -/
def publishAt (now : ℕ) : Publish (IntGrid (2 ^ 53)) where
  journal := ⟨⟨1000, 2 ^ 60⟩, true, PyFloat.round 10, ⟨none, fun _ => .regular 0 none⟩,
      PyFloat.round (now : ℚ), []⟩
  snapshot := ⟨[⟨pyStr "phone", pyStr "ACTIVE", [⟨pyStr "vless-in", 2⟩]⟩], false, 2⟩
  sampleInterval := PyFloat.round 5
  heartbeatInterval := PyFloat.round 60
  unread := fun _ => .null
  faults := []

theorem publishAt_single (now : ℕ) : ∀ a ∈ projectDeviceRows (publishAt now).snapshot,
      ∀ b ∈ projectDeviceRows (publishAt now).snapshot,
        (a.device, a.inbound) = (b.device, b.inbound) → a = b := by
  intro a hA b hB _
  rw [List.mem_singleton.mp hA, List.mem_singleton.mp hB]

/- Two publications on time. -/
theorem timeline_timely_of_steady_clock : Timely (Process.fresh (PyFloat.round 0 : IntGrid (2 ^ 53)))
      [.publish (publishAt 1000), .publish (publishAt 1010)] := by
  refine timeline_timely _ _ ?_
  intro before p after hSplit
  rcases before with _ | ⟨first, _ | ⟨second, before⟩⟩
  · cases hSplit
    refine ⟨fun since hSince => ?_, fun key state hState => ?_, publishAt_single 1000⟩
    · exact absurd (show since ∈ none from hSince) (Option.not_mem_none since)
    · exact absurd (show state ∈ none from hState) (Option.not_mem_none state)
  · cases hSplit
    have hFound := publish_remembers (publishAt 1000) (freshStore (PyFloat.round 0))
    have hLater : PyFloat.toRat (publishAt 1000).journal.now ≤
        PyFloat.toRat (publishAt 1010).journal.now := by
      decide +kernel
    refine ⟨fun since hSince => ?_, fun key state hState => ?_, publishAt_single 1010⟩
    · rcases hFound.1 since hSince with rfl | hOld
      · exact hLater
      · cases hOld
    · rcases hFound.2 key state hState with hNow | hOld
      · rw [hNow]
        exact hLater
      · cases hOld
  · rcases before with _ | ⟨third, before⟩
    · cases hSplit
    · cases hSplit

/-
  The clock goes back by 500 seconds: two publications one
  sample interval apart write nothing.
-/
theorem stepped_back_silent : ¬ ∀ (created : IntGrid (2 ^ 53)) (inputs : List (Input (IntGrid (2 ^ 53)))),
        (∀ p, Input.publish p ∈ inputs → ∀ a ∈ projectDeviceRows p.snapshot,
            ∀ b ∈ projectDeviceRows p.snapshot, (a.device, a.inbound) = (b.device, b.inbound) → a = b) →
          Timely (Process.fresh created) inputs := by
  intro h
  have hTimely := h (PyFloat.round 0)
    [.publish (publishAt 1000), .publish (publishAt 500), .publish (publishAt 505)] (by
    intro p hIn
    rcases List.mem_cons.mp hIn with hIn | hIn
    · cases hIn
      exact publishAt_single 1000
    rcases List.mem_cons.mp hIn with hIn | hIn
    · cases hIn
      exact publishAt_single 500
    · cases List.mem_singleton.mp hIn
      exact publishAt_single 505)
  obtain ⟨pre, input, post, hSplit, hAdded⟩ :=
    hTimely.sampled [.publish (publishAt 1000)] (publishAt 500) [] (publishAt 505) [] rfl _ rfl
      (Or.inl ⟨by decide +kernel,
        List.isEmpty_iff.mp (by decide +kernel)⟩)
      (by decide +kernel)
  rcases pre with _ | ⟨first, _ | ⟨second, pre⟩⟩
  · cases hSplit
    exact hAdded (List.isEmpty_iff.mp (by decide +kernel))
  · cases hSplit
    exact hAdded (List.isEmpty_iff.mp (by decide +kernel))
  · rcases pre with _ | ⟨third, pre⟩
    · cases hSplit
    · cases hSplit

end SingboxOps.EvidenceHistory
