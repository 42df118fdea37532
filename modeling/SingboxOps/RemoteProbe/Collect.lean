import SingboxOps.Lib.ExactRat
import SingboxOps.RemoteProbe.Evidence

/-
  Collecting a sample: a cycle of an agent with everything it
  reads, exactly when there is a sample, and exactly when it
  can be encoded.

  The clocks, the workers and what they answer are inputs; a
  worker may finish early, late or not start.
-/

namespace SingboxOps.RemoteProbe.Collect

open PyFloat

variable {F : Type} [PyFloat F] {A : Type}

-- The Agent

/- `bytes.hex()` -/
def hexChar (n : ℕ) : ℕ := if n < 10 then 48 + n else 87 + n

def hexOfBytes (bytes : List (Fin 256)) : PyStr :=
  bytes.flatMap (fun b => [hexChar (b.val / 16), hexChar (b.val % 16)])

theorem hexOfBytes_length (bytes : List (Fin 256)) : (hexOfBytes bytes).length = 2 * bytes.length := by
  induction bytes with
  | nil => rfl
  | cons b rest ih =>
    rw [hexOfBytes, List.flatMap_cons, List.length_append]
    change 2 + (hexOfBytes rest).length = _
    rw [ih, List.length_cons]
    omega

theorem hexOfBytes_run {bytes : List (Fin 256)}
    (h : bytes.length = 16) : runGrammar (hexOfBytes bytes) = true := by
  have hChar : ∀ n < 16, ((48 ≤ hexChar n && hexChar n ≤ 57) ||
        (97 ≤ hexChar n && hexChar n ≤ 102)) = true := by
    decide
  unfold runGrammar
  rw [Bool.and_eq_true, List.all_eq_true, hexOfBytes_length, h]
  refine ⟨?_, rfl⟩
  intro c hc
  obtain ⟨b, -, hIn⟩ := List.mem_flatMap.mp hc
  simp only [List.mem_cons, List.not_mem_nil, or_false] at hIn
  rcases hIn with rfl | rfl
  · exact hChar _ (by omega)
  · exact hChar _ (by omega)

/- The id of a run: sixteen random bytes. -/
structure RunId where
  text : PyStr
  grammar : runGrammar text = true

def RunId.ofBytes (random : Fin 16 → Fin 256) : RunId where
  text := hexOfBytes (List.ofFn random)
  grammar := hexOfBytes_run List.length_ofFn

/- What the constructor of the configuration lets in. -/
structure ProbeConfig (F : Type) where
  probeId : PyStr
  realityNode : PyStr
  hy2Node : PyStr
  watchedGroup : Option PyStr
  cycleDeadline : F
  delayCeiling : ℤ
  expectedStatus : ExpectedStatus
  strictIp : Bool
  grammar : probeIdGrammar probeId = true
  distinct : realityNode ≠ hy2Node

/- `_node_roles` -/
def ProbeConfig.node (config : ProbeConfig F) : Role → PyStr
  | .reality => config.realityNode
  | .hy2 => config.hy2Node

/- The fields of a running agent that a cycle reads or sets. -/
structure ProbeAgent (F : Type) where
  config : ProbeConfig F
  run : RunId
  seq : ℕ
  lastSampleEpoch : Option F
  clockRollbacks : ℕ
  baseline : Option PyStr
  pendingBaseline : Option PyStr
  lastActive : List (Role × Outcome)

/- `_start_run` -/
def ProbeAgent.startRun (random : Fin 16 → Fin 256) (g : ProbeAgent F) : ProbeAgent F :=
  { g with run := RunId.ofBytes random, seq := 0 }

/- `_sample_epoch` -/
def ProbeAgent.sampleEpoch (now : F) (random : Fin 16 → Fin 256) (g : ProbeAgent F) : ProbeAgent F :=
  let back := match g.lastSampleEpoch with
    | none => false
    | some last => decide (toRat now ≤ toRat last)
  let moved :=
    if back then
      { g.startRun random with clockRollbacks := g.clockRollbacks + 1 }
    else g
  { moved with lastSampleEpoch := some now }

/- `next_seq` -/
def ProbeAgent.nextSeq (g : ProbeAgent F) : ProbeAgent F := { g with seq := g.seq + 1 }

-- A Cycle

/- The reading that guards a worker, and what comes of it. -/
structure Asked (F V : Type) where
  reading : F
  work : Started V

structure CycleInput (F : Type) where
  now : F
  start : F
  random : Fin 16 → Fin 256
  version : Asked F Transport
  proxies : Asked F Transport
  delays : Role → Asked F Transport
  dns : Asked F (ProbeRun F Bool)
  https : Asked F (ProbeRun F ℤ)
  tcp : Asked F (ProbeRun F Unit)
  egress : Asked F (ProbeRun F (ℤ × Bytes))

inductive SourceToken where
  | activeDelay
  | direct
  | egress
  | mihomoApi
  | passiveCache
deriving DecidableEq

def SourceToken.text : SourceToken → String
  | .activeDelay => "active_delay"
  | .direct => "direct"
  | .egress => "egress"
  | .mihomoApi => "mihomo_api"
  | .passiveCache => "passive_cache"

/- `SOURCE_TOKENS`, which are sorted. -/
def SourceToken.all : List SourceToken := [.activeDelay, .direct, .egress, .mihomoApi, .passiveCache]

/- `sorted(set(unavailable))` -/
def sortedTokens (tokens : List SourceToken) : List SourceToken :=
  SourceToken.all.filter (fun t => tokens.contains t)

/- `remaining() <= 0` -/
def Expired (deadline reading : F) : Prop := toRat (sub deadline (toRat reading)) ≤ 0

instance (deadline reading : F) : Decidable (Expired deadline reading) := by
  unfold Expired
  infer_instance

/- `read` -/
def readController (room : ℕ) (deadline : F)
    (asked : Asked F Transport) : Except CycleError (Outcome × Option (Json F)) :=
  if Expired deadline asked.reading then .ok (.unavailable, none)
  else
    match asked.work with
    | .unstarted => .error .runtime
    | .late => .ok (.timeout, none)
    | .finished answer => getJson room answer

/- A payload that is `None`. -/
def isNone : Option (Json F) → Bool
  | none => true
  | some .null => true
  | _ => false

/- The active test of one role. -/
def activeOf (room : ℕ) (deadline : F) (config : ProbeConfig F)
    (delays : Role → Asked F Transport) (payload : Option (Json F))
    (role : Role) : Except CycleError (Entry × List SourceToken) :=
  if isNone payload then .ok (activeEntry role .unavailable none, [])
  else if !nodePresent payload (config.node role) then
    .ok (activeEntry role .invalid none, [])
  else if Expired deadline (delays role).reading then
    .ok (activeEntry role .unavailable none, [.activeDelay])
  else
    match (delays role).work with
    | .unstarted => .error .runtime
    | .late => .ok (activeEntry role .timeout none, [])
    | .finished answer => do
        let delay ← delayAnswer F room config.delayCeiling answer
        return (activeEntry role delay.1 delay.2, [])

/- The loop over the roles. -/
def activeEntries (room : ℕ) (deadline : F) (config : ProbeConfig F) (delays : Role → Asked F Transport)
    (payload : Option (Json F)) :
    List Role → Except CycleError (List Entry × List SourceToken)
  | [] => .ok ([], [])
  | role :: rest => do
      let first ← activeOf room deadline config delays payload role
      let more ← activeEntries room deadline config delays payload rest
      return (first.1 :: more.1, first.2 ++ more.2)

/- The cached entries of the roles whose node is selected. -/
def passiveEntries (config : ProbeConfig F) (selected : Option PyStr) (cached : Option ℤ) : List Entry :=
  (Role.all.filter (fun role =>
    decide (selected = some (config.node role)))).map (fun role =>
      match cached.filter (fun n => decide (0 < n)) with
      | some delay => passiveEntry role .ok (some delay)
      | none => passiveEntry role .unavailable none)

/- `slot` -/
def slotOf {V R : Type} (failed : Failure → R) (deadline : F) (asked : Asked F V)
    (probe : V → R) : R × List SourceToken :=
  if Expired deadline asked.reading then (failed .timeout, [.direct])
  else
    match asked.work with
    | .unstarted => (failed .unavailable, [])
    | .late => (failed .timeout, [])
    | .finished value => (probe value, [])

/- The dict of a sample. -/
def sampleOf (probeId run seq epoch dns https tcp egress api active flags : Json F) : Json F :=
  .obj [(pyStr "v", .int bodyVersion), (pyStr "probe_id", probeId), (pyStr "run", run), (pyStr "seq", seq),
      (pyStr "sample_epoch", epoch),
      (pyStr "dns", dns),
      (pyStr "https", https),
      (pyStr "vps_tcp", tcp),
      (pyStr "egress", egress),
      (pyStr "mihomo_api", api),
      (pyStr "active", active),
      (pyStr "flags", flags)]

def apiJson (ok : Bool) : Json F := .obj [(pyStr "status", token (if ok then "ok" else "unavailable"))]

def flagsJson (tokens : List SourceToken) : Json F := .obj
    [(pyStr "truncated", .bool false), (pyStr "source_unavailable",
        .arr ((sortedTokens tokens).map (fun t => token t.text)))]

def isOk : EgressResult → Bool
  | .ok _ _ _ => true
  | .failed _ => false

def deadlineOf (input : CycleInput F) (g : ProbeAgent F) : F := add input.start (toRat g.config.cycleDeadline)

/- `collect_sample` -/
def collectSample (ip : IpLibrary A) (room : ℕ) (input : CycleInput F)
    (g : ProbeAgent F) : Except CycleError (Json F × ProbeAgent F) := do
  let deadline := deadlineOf input g
  let version ← readController room deadline input.version
  let proxies ← readController room deadline input.proxies
  let apiOk := decide (version.1 = .ok) && decide (proxies.1 = .ok)
  let payload := if apiOk then proxies.2 else none
  let active ← activeEntries room deadline g.config input.delays payload Role.all
  let selected ← selectedNode g.config.watchedGroup payload
  let passive := passiveEntries g.config selected.1 selected.2
  let merged := mergeEvidence active.1 passive
  let dns := slotOf Slot.failed deadline input.dns probeDns
  let https := slotOf Slot.failed deadline input.https (probeHttps g.config.expectedStatus)
  let tcp := slotOf Slot.failed deadline input.tcp probeTcp
  let egress := slotOf EgressResult.failed deadline input.egress
    (probeEgressSlot ip g.config.strictIp g.baseline)
  let unavailable := active.2 ++ (if selected.1 = none ∧ g.config.watchedGroup ≠ none then
        [.passiveCache] else []) ++
      dns.2 ++ https.2 ++ tcp.2 ++ egress.2 ++
      (if isOk egress.1 = false ∧ g.baseline = none then
        [.egress] else [])
  let next := (g.sampleEpoch input.now input.random).nextSeq
  return (sampleOf (.str g.config.probeId) (.str next.run.text) (.int next.seq) (.float (.finite input.now))
      (.obj dns.1.members) (.obj https.1.members) (.obj tcp.1.members)
      (.obj egress.1.members) (apiJson apiOk)
      (.arr (merged.entries.map Entry.json)) (flagsJson unavailable),
    { next with
      pendingBaseline := if isOk egress.1 then egress.1.ip else next.pendingBaseline
      lastActive :=
        (merged.entries.filter (fun e => e.source = .activeDelay)).map
          (fun e => (e.role, e.outcome)) })

-- The Evidence of a Cycle

/- An outcome with a positive delay exactly where it is `ok`. -/
def Delayed (o : Outcome × Option ℤ) : Prop :=
  (o.1 = .ok → ∃ n, o.2 = some n ∧ 0 < n) ∧ (o.1 ≠ .ok → o.2 = none)

omit [PyFloat F] in
theorem delayed_delayOf (ceiling : ℤ) (delay : Option (Json F)) : Delayed (delayOf ceiling delay) := by
  unfold delayOf
  split
  · rename_i n
    split_ifs with hOut hZero
    · exact ⟨fun h => (by cases h), fun _ => rfl⟩
    · exact ⟨fun h => (by cases h), fun _ => rfl⟩
    · refine ⟨fun _ => ⟨n, rfl, ?_⟩, fun h => absurd rfl h⟩
      have hLow := (not_or.mp hOut).1
      omega
  · exact ⟨fun h => (by cases h), fun _ => rfl⟩

theorem delayed_status (status : ℤ) : Delayed (delayStatus status, none) := by
  refine ⟨fun h => ?_, fun _ => rfl⟩
  change delayStatus status = .ok at h
  unfold delayStatus at h
  split_ifs at h

theorem delayed_answer {room : ℕ} {ceiling : ℤ} {answer : Transport} {o : Outcome × Option ℤ}
    (h : delayAnswer F room ceiling answer = .ok o) : Delayed o := by
  have hFailed : ∀ outcome : Outcome, outcome ≠ .ok → Delayed (outcome, none) :=
    fun outcome hNot => ⟨fun hOk => absurd hOk hNot, fun _ => rfl⟩
  cases answer with
  | unreachable =>
    rw [← Except.ok.inj h]
    exact hFailed _ (by decide)
  | raised => cases h
  | answered status body =>
    change classifyDelay F room ceiling status body = .ok o at h
    unfold classifyDelay at h
    split at h
    · split at h
      · rw [← Except.ok.inj h]
        exact delayed_delayOf ceiling _
      · rw [← Except.ok.inj h]
        exact hFailed _ (by decide)
      · cases h
      · rw [← Except.ok.inj h]
        exact hFailed _ (by decide)
    · rw [← Except.ok.inj h]
      exact delayed_status status

theorem sound_activeEntry {role : Role} {o : Outcome × Option ℤ}
    (h : Delayed o) : (activeEntry role o.1 o.2).Sound :=
  ⟨h.1, h.2, fun _ => rfl, rfl⟩

theorem activeOf_sound {room : ℕ} {deadline : F} {config : ProbeConfig F}
    {delays : Role → Asked F Transport} {payload : Option (Json F)}
    {role : Role} {r : Entry × List SourceToken}
    (h : activeOf room deadline config delays payload role = .ok r) :
    r.1.Sound ∧ r.1.pair = (role, .activeDelay) := by
  have hFailed : ∀ outcome : Outcome, outcome ≠ .ok → (activeEntry role outcome none).Sound :=
    fun outcome hNot => ⟨fun hOk => absurd hOk hNot, fun _ => rfl, fun _ => rfl, rfl⟩
  unfold activeOf at h
  split at h
  · rw [← Except.ok.inj h]
    exact ⟨hFailed _ (by decide), rfl⟩
  · split at h
    · rw [← Except.ok.inj h]
      exact ⟨hFailed _ (by decide), rfl⟩
    · split at h
      · rw [← Except.ok.inj h]
        exact ⟨hFailed _ (by decide), rfl⟩
      · split at h
        · cases h
        · rw [← Except.ok.inj h]
          exact ⟨hFailed _ (by decide), rfl⟩
        · obtain ⟨delay, hDelay, hRest⟩ := except_bind_ok h
          rw [← Except.ok.inj hRest]
          exact ⟨sound_activeEntry (delayed_answer hDelay), rfl⟩

/- The active entries are sound, one for each role in turn. -/
theorem activeEntries_sound {room : ℕ} {deadline : F} {config : ProbeConfig F}
    {delays : Role → Asked F Transport} {payload : Option (Json F)}
    {roles : List Role} {r : List Entry × List SourceToken}
    (h : activeEntries room deadline config delays payload roles = .ok r) :
    (∀ e ∈ r.1, e.Sound) ∧ r.1.map Entry.pair = roles.map (fun role => (role, .activeDelay)) := by
  induction roles generalizing r with
  | nil =>
    rw [← Except.ok.inj h]
    exact ⟨fun e he => (by cases he), rfl⟩
  | cons role rest ih =>
    rw [activeEntries] at h
    obtain ⟨first, hFirst, h⟩ := except_bind_ok h
    obtain ⟨more, hMore, h⟩ := except_bind_ok h
    obtain ⟨hSound, hPair⟩ := activeOf_sound hFirst
    obtain ⟨hRest, hPairs⟩ := ih hMore
    rw [← Except.ok.inj h]
    refine ⟨?_, ?_⟩
    · intro e he
      rcases List.mem_cons.mp he with rfl | he
      · exact hSound
      · exact hRest e he
    · rw [List.map_cons, List.map_cons, hPair, hPairs]

omit [PyFloat F] in
theorem passiveEntries_sound (config : ProbeConfig F) (selected : Option PyStr)
    (cached : Option ℤ) : ∀ e ∈ passiveEntries config selected cached, e.Sound := by
  intro e he
  obtain ⟨role, -, rfl⟩ := List.mem_map.mp he
  split
  · rename_i delay hDelay
    have hPositive := (Option.filter_eq_some_iff.mp hDelay).2
    exact ⟨fun _ => ⟨delay, rfl, of_decide_eq_true hPositive⟩,
      fun h => absurd rfl h, fun h => (by cases h), rfl⟩
  · exact ⟨fun h => (by cases h), fun _ => rfl, fun h => (by cases h), rfl⟩

omit [PyFloat F] in
theorem passiveEntries_pairs (config : ProbeConfig F) (selected : Option PyStr)
    (cached : Option ℤ) : ((passiveEntries config selected cached).map Entry.pair).Sublist
      (Role.all.map (fun role => (role, Source.passiveCache))) := by
  have hPair : (passiveEntries config selected cached).map Entry.pair = (Role.all.filter (fun role =>
          decide (selected = some (config.node role)))).map (fun role => (role, Source.passiveCache)) := by
    unfold passiveEntries
    rw [List.map_map]
    refine List.map_congr_left ?_
    intro role _
    simp only [Function.comp_apply]
    split <;> rfl
  rw [hPair]
  exact List.filter_sublist.map _

theorem merged_pairs (active passive : List Entry) : (mergeEvidence active passive).entries.map Entry.pair =
      active.map Entry.pair ++ passive.map Entry.pair := by
  simp only [mergeEvidence, List.map_append, List.map_map]
  rfl

theorem merged_sound {active passive : List Entry} (hActive : ∀ e ∈ active, e.Sound)
    (hPassive : ∀ e ∈ passive, e.Sound ∧ e.source = .passiveCache) :
    ∀ e ∈ (mergeEvidence active passive).entries, e.Sound := by
  intro e he
  rcases List.mem_append.mp he with hOwn | hCached
  · obtain ⟨d, hd, rfl⟩ := List.mem_map.mp hOwn
    obtain ⟨hMeasured, hUnmeasured, -, hId⟩ := hActive d hd
    exact ⟨hMeasured, hUnmeasured, fun _ => rfl, hId⟩
  · obtain ⟨d, hd, rfl⟩ := List.mem_map.mp hCached
    obtain ⟨⟨hMeasured, hUnmeasured, -, hId⟩, hSource⟩ := hPassive d hd
    refine ⟨hMeasured, hUnmeasured, fun hOwn => ?_, hId⟩
    change d.source = .activeDelay at hOwn
    rw [hSource] at hOwn
    cases hOwn

/- The entries of a cycle always pass. -/
theorem entries_of_cycle {room : ℕ} {deadline : F} {config : ProbeConfig F}
    {delays : Role → Asked F Transport} {payload : Option (Json F)}
    {active : List Entry × List SourceToken}
    (hActive : activeEntries room deadline config delays payload Role.all = .ok active)
    (selected : Option PyStr)
    (cached : Option ℤ) : activeViolations (.arr ((mergeEvidence active.1
        (passiveEntries config selected cached)).entries.map (fun e => (e.json : Json F)))) = .ok [] := by
  obtain ⟨hSound, hPairs⟩ := activeEntries_sound hActive
  have hSublist := passiveEntries_pairs config selected cached
  have hAll : (Role.all.map (fun role => (role, Source.activeDelay)) ++
        Role.all.map (fun role => (role, Source.passiveCache))).Nodup := by
    decide
  have hMerged := merged_pairs active.1 (passiveEntries config selected cached)
  rw [hPairs] at hMerged
  have hWithin := List.Sublist.append_left hSublist (Role.all.map (fun role => (role, Source.activeDelay)))
  rw [← hMerged] at hWithin
  refine active_valid ?_ ?_ (hWithin.nodup hAll)
  · have hLength := hWithin.length_le
    rw [List.length_map] at hLength
    exact hLength
  · refine merged_sound hSound ?_
    intro e he
    refine ⟨passiveEntries_sound config selected cached e he, ?_⟩
    have hMem := hSublist.subset (List.mem_map_of_mem he)
    obtain ⟨role, -, hPair⟩ := List.mem_map.mp hMem
    exact (congrArg Prod.snd hPair).symm

omit [PyFloat F] in
theorem flags_of_cycle (tokens : List SourceToken) :
    flagsViolations (flagsJson tokens : Json F) = .ok [] := by
  have hForm : flagsViolations (flagsJson tokens : Json F) =
        .ok (problem (!isBool (.bool false : Json F)) "flags: truncated" ++
          problem (maxSourceTokens < ((sortedTokens tokens).map (fun t => (token t.text : Json F))).length ||
            ((sortedTokens tokens).map (fun t => (token t.text : Json F))).any
                (fun t => !isOneOf t sourceTokens))
            "flags: source_unavailable") :=
    rfl
  have hFew : (sortedTokens tokens).length ≤ maxSourceTokens := List.length_filter_le _ _
  have hKnown : ∀ t : SourceToken, isOneOf (token t.text : Json F) sourceTokens = true := by
    intro t
    cases t <;> rfl
  rw [hForm, Except.ok.injEq, List.append_eq_nil_iff, problem_eq_nil,
    problem_eq_nil, Bool.or_eq_false_iff, List.length_map,
    decide_eq_false_iff_not, not_lt, List.any_eq_false]
  refine ⟨rfl, hFew, ?_⟩
  intro t ht
  obtain ⟨s, -, rfl⟩ := List.mem_map.mp ht
  simp [hKnown s]

-- What Can Be Encoded

theorem sampleOf_valid (probeId run seq epoch dns https tcp egress api active flags : Json F) :
    validateSample (sampleOf probeId run seq epoch dns https tcp egress api active flags) = .ok [] ↔
      SampleFields.Valid ⟨.int bodyVersion, probeId, run, seq, epoch, dns, https, tcp,
          egress, api, active, flags⟩ :=
  validateSample_iff ⟨rfl, rfl, rfl, rfl, rfl, rfl, rfl, rfl, rfl, rfl, rfl, rfl, rfl⟩

/- A worker that was asked in time came back with an answer. -/
def Answered {X : Type} (deadline : F) (asked : Asked F (ProbeRun F X)) (run : ProbeRun F X) (x : X) : Prop :=
  ¬ Expired deadline asked.reading ∧ asked.work = .finished run ∧ run.result = .finished (.ok x)

/- A plain slot passes unless its answer has no latency. -/
theorem slot_of_cycle {X : Type} (name : String) (raised : Raised → Failure)
    (refused : X → Option Failure) (deadline : F)
    (asked : Asked F (ProbeRun F X)) : slotViolations name (.obj ((slotOf Slot.failed deadline asked
            (probe raised refused)).1.members : List (PyStr × Json F))) =
        .ok [] ↔
      ∀ run x, Answered deadline asked run x → refused x = none →
        Measured run.start run.stop := by
  have hFailed : ∀ code, slotViolations name
        (.obj ((Slot.failed code).members : List (PyStr × Json F))) = .ok [] :=
    fun code => (slot_valid name _).mpr (fun _ h => (by cases h))
  unfold slotOf
  split
  · rename_i hExpired
    exact iff_of_true (hFailed _) (fun run x hAnswered => absurd hExpired hAnswered.1)
  · rename_i hTime
    split
    · rename_i hWork
      refine iff_of_true (hFailed _) ?_
      rintro run x ⟨-, hFinished, -⟩
      rw [hWork] at hFinished
      cases hFinished
    · rename_i hWork
      refine iff_of_true (hFailed _) ?_
      rintro run x ⟨-, hFinished, -⟩
      rw [hWork] at hFinished
      cases hFinished
    · rename_i value hWork
      rw [probe_valid]
      constructor
      · rintro h run x ⟨-, hFinished, hResult⟩ hRefused
        rw [hWork] at hFinished
        cases hFinished
        exact h x hResult hRefused
      · intro h x hResult hRefused
        exact h value x ⟨hTime, hWork, hResult⟩ hRefused

/- The egress slot passes unless its address has no latency or fits not. -/
theorem egress_of_cycle (ip : IpLibrary A) (strictIp : Bool) (previous : Option PyStr) (deadline : F)
    (asked : Asked F (ProbeRun F (ℤ × Bytes))) : egressViolations
          (.obj ((slotOf EgressResult.failed deadline asked
            (probeEgressSlot ip strictIp previous)).1.members : List (PyStr × Json F))) = .ok [] ↔
      ∀ run body candidate, Answered deadline asked run (200, body) →
        egressTaken ip strictIp body = some candidate →
        Measured run.start run.stop ∧ ∀ a, canonicalGlobalIp ip candidate = some a → AddressFits a := by
  have hFailed : ∀ code, egressViolations
        (.obj ((EgressResult.failed code).members : List (PyStr × Json F))) = .ok [] := by
    intro code
    refine (egress_valid _).mpr ⟨?_, fun a h => (by cases h)⟩
    exact (slot_valid _ _).mpr (fun _ h => (by cases h))
  unfold slotOf
  split
  · rename_i hExpired
    exact iff_of_true (hFailed _) (fun run body candidate hAnswered => absurd hExpired hAnswered.1)
  · rename_i hTime
    split
    · rename_i hWork
      refine iff_of_true (hFailed _) ?_
      rintro run body candidate ⟨-, hFinished, -⟩
      rw [hWork] at hFinished
      cases hFinished
    · rename_i hWork
      refine iff_of_true (hFailed _) ?_
      rintro run body candidate ⟨-, hFinished, -⟩
      rw [hWork] at hFinished
      cases hFinished
    · rename_i value hWork
      rw [probeEgressSlot_valid]
      constructor
      · rintro h run body candidate ⟨-, hFinished, hResult⟩ hTaken
        rw [hWork] at hFinished
        cases hFinished
        exact h body candidate hResult hTaken
      · intro h body candidate hResult hTaken
        exact h value body candidate ⟨hTime, hWork, hResult⟩ hTaken

/-
  What the readings and the answers of a cycle must be for its
  sample to be encoded: every answer that is evidence took a
  plausible time, the egress address fits, the wall clock is
  past its origin and the run has a number left.
-/
structure Encodable (ip : IpLibrary A) (input : CycleInput F) (g : ProbeAgent F) : Prop where
  epoch : 0 ≤ toRat input.now
  seq : ((g.sampleEpoch input.now input.random).seq : ℤ) < seqMax
  dns : ∀ run, Answered (deadlineOf input g) input.dns run true → Measured run.start run.stop
  https : ∀ run, Answered (deadlineOf input g) input.https run g.config.expectedStatus.code →
    Measured run.start run.stop
  tcp : ∀ run, Answered (deadlineOf input g) input.tcp run () → Measured run.start run.stop
  egress : ∀ run body candidate, Answered (deadlineOf input g) input.egress run (200, body) →
    egressTaken ip g.config.strictIp body = some candidate →
    Measured run.start run.stop ∧ ∀ a, canonicalGlobalIp ip candidate = some a → AddressFits a

omit [PyFloat F] in
theorem validSeq_next (g : ProbeAgent F) :
    validSeq (.int g.nextSeq.seq : Json F) = true ↔ (g.seq : ℤ) < seqMax := by
  change decide (seqMin ≤ ((g.seq + 1 : ℕ) : ℤ) ∧ ((g.seq + 1 : ℕ) : ℤ) ≤ seqMax) = true ↔ _
  rw [decide_eq_true_eq]
  unfold seqMin
  omega

theorem validateSample_collect (ip : IpLibrary A)
    (room : ℕ) (input : CycleInput F) (g next : ProbeAgent F) (sample : Json F)
    (hSample : collectSample ip room input g = .ok (sample, next)) :
    validateSample sample = .ok [] ↔ Encodable ip input g := by
  unfold collectSample at hSample
  simp only at hSample
  obtain ⟨version, -, hSample⟩ := except_bind_ok hSample
  obtain ⟨proxies, -, hSample⟩ := except_bind_ok hSample
  obtain ⟨active, hActive, hSample⟩ := except_bind_ok hSample
  obtain ⟨selected, -, hSample⟩ := except_bind_ok hSample
  have hDict := (Prod.mk.inj (Except.ok.inj hSample)).1
  rw [← hDict, sampleOf_valid]
  constructor
  · intro hValid
    obtain ⟨-, -, -, hSeq, hEpoch, hDns, hHttps, hTcp, hEgress, -⟩ := hValid
    refine ⟨?_, (validSeq_next _).mp hSeq, ?_, ?_, ?_, ?_⟩
    · exact of_decide_eq_true (Except.ok.inj hEpoch)
    · intro run hAnswered
      exact (slot_of_cycle _ _ _ _ _).mp hDns run true hAnswered rfl
    · intro run hAnswered
      exact (slot_of_cycle _ _ _ _ _).mp hHttps run _ hAnswered (if_neg (not_not.mpr rfl))
    · intro run hAnswered
      exact (slot_of_cycle _ _ _ _ _).mp hTcp run () hAnswered rfl
    · exact (egress_of_cycle _ _ _ _ _).mp hEgress
  · rintro ⟨hEpoch, hSeq, hDns, hHttps, hTcp, hEgress⟩
    refine ⟨⟨rfl, rfl⟩, g.config.grammar, ?_, (validSeq_next _).mpr hSeq,
      ?_, ?_, ?_, ?_, ?_, ?_, ?_, flags_of_cycle _⟩
    · exact RunId.grammar _
    · change Except.ok (decide (0 ≤ toRat input.now)) = .ok true
      rw [decide_eq_true hEpoch]
    · refine (slot_of_cycle _ _ _ _ _).mpr ?_
      intro run found hAnswered hFound
      cases found with
      | true => exact hDns run hAnswered
      | false => cases hFound
    · refine (slot_of_cycle _ _ _ _ _).mpr ?_
      intro run status hAnswered hStatus
      have hSame : status = g.config.expectedStatus.code := by
        by_contra hOther
        rw [if_pos hOther] at hStatus
        cases hStatus
      exact hHttps run (hSame ▸ hAnswered)
    · refine (slot_of_cycle _ _ _ _ _).mpr ?_
      intro run _ hAnswered _
      exact hTcp run hAnswered
    · exact (egress_of_cycle _ _ _ _ _).mpr hEgress
    · change mihomoViolations (apiJson _ : Json F) = .ok []
      cases decide (version.1 = Outcome.ok) &&
        decide (proxies.1 = Outcome.ok) <;> rfl
    · exact entries_of_cycle hActive selected.1 selected.2

-- What Returns a Sample

/- The answer is no other exception and nests not too deep. -/
def Answers (F : Type) [PyFloat F] (room : ℕ) (answer : Transport) : Prop := answer ≠ .raised ∧
  ∀ body, answer = .answered 200 body → (loadsBytes room body : Except PyError (Json F)) ≠ .error .recursion

/- A worker that starts, and answers so or is late. -/
def Comes (F : Type) [PyFloat F] (room : ℕ) (work : Started Transport) : Prop :=
  work ≠ .unstarted ∧ ∀ answer, work = .finished answer → Answers F room answer

theorem bind_pure_ok_iff {ε α β : Type} {x : Except ε α} {f : α → β} :
    (∃ b, (x >>= fun a => pure (f a)) = .ok b) ↔ ∃ a, x = .ok a := by
  constructor
  · rintro ⟨b, h⟩
    obtain ⟨a, ha, -⟩ := except_bind_ok h
    exact ⟨a, ha⟩
  · rintro ⟨a, ha⟩
    exact ⟨_, except_bind_ok_iff.mpr ⟨a, ha, rfl⟩⟩

theorem getJson_ok_iff {room : ℕ} {answer : Transport} :
    (∃ r, (getJson room answer : Except CycleError (Outcome × Option (Json F))) = .ok r) ↔
      Answers F room answer := by
  unfold Answers getJson
  cases answer with
  | unreachable => simp
  | raised => simp
  | answered status body =>
    by_cases hStatus : status = 200
    · subst hStatus
      cases hLoads : (loadsBytes room body : Except PyError (Json F)) with
      | ok payload => simp [hLoads]
      | error e => cases e <;> simp [hLoads]
    · simp [hStatus]

theorem delayAnswer_ok_iff {room : ℕ} {ceiling : ℤ} {answer : Transport} :
    (∃ r, delayAnswer F room ceiling answer = .ok r) ↔ Answers F room answer := by
  unfold Answers delayAnswer
  cases answer with
  | unreachable => simp
  | raised => simp
  | answered status body =>
    unfold classifyDelay
    by_cases hStatus : status = 200
    · subst hStatus
      cases hLoads : (loadsBytes room body : Except PyError (Json F)) with
      | ok payload => cases payload <;> simp [hLoads]
      | error e => cases e <;> simp [hLoads]
    · simp [hStatus]

theorem readController_ok_iff {room : ℕ} {deadline : F} {asked : Asked F Transport} :
    (∃ r, (readController room deadline asked : Except CycleError (Outcome × Option (Json F))) = .ok r) ↔
      Expired deadline asked.reading ∨ Comes F room asked.work := by
  unfold readController Comes
  by_cases hExpired : Expired deadline asked.reading
  · simp [hExpired]
  · cases asked.work with
    | unstarted => simp [hExpired]
    | late => simp [hExpired]
    | finished answer =>
      have hAnswer := @getJson_ok_iff F _ room answer
      simp only [hExpired, if_false, false_or, ne_eq, reduceCtorEq, not_false_eq_true, true_and,
        Started.finished.injEq, forall_eq']
      exact hAnswer

theorem activeOf_ok_iff {room : ℕ} {deadline : F} {config : ProbeConfig F}
    {delays : Role → Asked F Transport} {payload : Option (Json F)} {role : Role} :
    (∃ r, activeOf room deadline config delays payload role = .ok r) ↔
      (isNone payload = false → nodePresent payload (config.node role) = true →
        Expired deadline (delays role).reading ∨ Comes F room (delays role).work) := by
  unfold activeOf Comes
  cases isNone payload with
  | true => simp
  | false =>
    cases nodePresent payload (config.node role) with
    | false => simp
    | true =>
      by_cases hExpired : Expired deadline (delays role).reading
      · simp [hExpired]
      · cases (delays role).work with
        | unstarted => simp [hExpired]
        | late => simp [hExpired]
        | finished answer =>
          have hAnswer := @delayAnswer_ok_iff F _ room config.delayCeiling answer
          simp only [hExpired, Bool.false_eq_true, Bool.not_true, if_false, false_or, forall_const,
            Started.finished.injEq, forall_eq', ne_eq, reduceCtorEq, not_false_eq_true, true_and]
          rw [← hAnswer]
          exact bind_pure_ok_iff

theorem activeEntries_ok_iff {room : ℕ} {deadline : F} {config : ProbeConfig F}
    {delays : Role → Asked F Transport} {payload : Option (Json F)} {roles : List Role} :
    (∃ r, activeEntries room deadline config delays payload roles = .ok r) ↔
      ∀ role ∈ roles, ∃ r, activeOf room deadline config delays payload role = .ok r := by
  induction roles with
  | nil => simp [activeEntries]
  | cons role rest ih =>
    rw [List.forall_mem_cons, ← ih, activeEntries]
    constructor
    · rintro ⟨r, h⟩
      obtain ⟨first, hFirst, h⟩ := except_bind_ok h
      obtain ⟨more, hMore, -⟩ := except_bind_ok h
      exact ⟨⟨first, hFirst⟩, more, hMore⟩
    · rintro ⟨⟨first, hFirst⟩, more, hMore⟩
      exact ⟨_, except_bind_ok_iff.mpr ⟨first, hFirst, except_bind_ok_iff.mpr ⟨more, hMore, rfl⟩⟩⟩

/- The delay in the last item of a history. -/
def lastDelay (history : Option (Json F)) : Option (Json F) := match history with
  | some (.arr items) =>
    match items.getLast? with
    | some (.obj members) => Json.getItem members (pyStr "delay")
    | _ => none
  | _ => none

/- The cached delay of the node that a group has selected. -/
def cachedDelay (group : PyStr) (payload : Option (Json F)) : Option (Json F) :=
  let proxies := memberOf payload (pyStr "proxies")
  match memberOf (memberOf proxies group) (pyStr "now") with
  | some (.str now) =>
    if (stripText now).isEmpty then none
    else lastDelay (memberOf (memberOf proxies (stripText now)) (pyStr "history"))
  | _ => none

def isInfinite : Option (Json F) → Bool
  | some (.float (.infinite _)) => true
  | _ => false

theorem pyIntOf_ok_iff {value : Option (Json F)} :
    (∃ n, pyIntOf value = .ok n) ↔ isInfinite value = false := by
  unfold pyIntOf isInfinite
  split <;> simp_all

theorem parseSelectedDelay_ok_iff {history : Option (Json F)} :
    (∃ n, parseSelectedDelay history = .ok n) ↔ isInfinite (lastDelay history) = false := by
  cases history with
  | none => exact iff_of_true ⟨_, rfl⟩ rfl
  | some value =>
    cases value with
    | arr items =>
      simp only [parseSelectedDelay, lastDelay]
      cases items.getLast? with
      | none => exact iff_of_true ⟨_, rfl⟩ rfl
      | some last =>
        cases last with
        | obj members =>
          simp only
          rw [← pyIntOf_ok_iff]
          exact bind_pure_ok_iff
        | _ => exact iff_of_true ⟨_, rfl⟩ rfl
    | _ => exact iff_of_true ⟨_, rfl⟩ rfl

theorem selectedNode_ok_iff {watchedGroup : Option PyStr} {payload : Option (Json F)} :
    (∃ r, selectedNode watchedGroup payload = .ok r) ↔
      ∀ group, watchedGroup = some group → isInfinite (cachedDelay group payload) = false := by
  cases watchedGroup with
  | none => exact iff_of_true ⟨_, rfl⟩ (fun _ h => (Option.some_ne_none _ h.symm).elim)
  | some group =>
    simp only [Option.some.injEq, forall_eq', selectedNode, cachedDelay]
    cases memberOf (memberOf (memberOf payload (pyStr "proxies")) group) (pyStr "now") with
    | none => exact iff_of_true ⟨_, rfl⟩ rfl
    | some value =>
      cases value with
      | str now =>
        simp only
        by_cases hEmpty : (stripText now).isEmpty = true
        · rw [if_pos hEmpty, if_pos hEmpty]
          exact iff_of_true ⟨_, rfl⟩ rfl
        · rw [if_neg hEmpty, if_neg hEmpty]
          cases memberOf (memberOf payload (pyStr "proxies")) (stripText now) with
          | none => exact iff_of_true ⟨_, rfl⟩ rfl
          | some node =>
            cases node with
            | obj members =>
              simp only
              rw [← parseSelectedDelay_ok_iff]
              exact bind_pure_ok_iff
            | _ => exact iff_of_true ⟨_, rfl⟩ rfl
      | _ => exact iff_of_true ⟨_, rfl⟩ rfl

/- The payload of `/proxies`, where both reads are `ok`. -/
def payloadOf (room : ℕ) (input : CycleInput F) (g : ProbeAgent F) : Option (Json F) :=
  let read := readController room (deadlineOf input g)
  match read input.version, read input.proxies with
  | .ok version, .ok proxies =>
    if decide (version.1 = .ok) && decide (proxies.1 = .ok) then proxies.2 else none
  | _, _ => none

/-
  What the workers and the controller must do for a cycle to
  have a sample: each worker that is to read from the
  controller starts, its answer nests no deeper than there is
  room, and no infinity is cached as a delay.
-/
structure Returns (room : ℕ) (input : CycleInput F) (g : ProbeAgent F) : Prop where
  version : Expired (deadlineOf input g) input.version.reading ∨ Comes F room input.version.work
  proxies : Expired (deadlineOf input g) input.proxies.reading ∨ Comes F room input.proxies.work
  delays : ∀ role, isNone (payloadOf room input g) = false →
    nodePresent (payloadOf room input g) (g.config.node role) = true →
    Expired (deadlineOf input g) (input.delays role).reading ∨ Comes F room (input.delays role).work
  cached : ∀ group, g.config.watchedGroup = some group →
    isInfinite (cachedDelay group (payloadOf room input g)) = false

theorem collectSample_ok_iff (ip : IpLibrary A) (room : ℕ) (input : CycleInput F) (g : ProbeAgent F) :
    (∃ r, collectSample ip room input g = .ok r) ↔ Returns room input g := by
  constructor
  · rintro ⟨r, h⟩
    unfold collectSample at h
    simp only at h
    obtain ⟨version, hVersion, h⟩ := except_bind_ok h
    obtain ⟨proxies, hProxies, h⟩ := except_bind_ok h
    have hPayload : payloadOf room input g =
        if decide (version.1 = .ok) && decide (proxies.1 = .ok) then proxies.2 else none := by
      unfold payloadOf
      simp only [hVersion, hProxies]
    rw [← hPayload] at h
    obtain ⟨active, hActive, h⟩ := except_bind_ok h
    obtain ⟨selected, hSelected, -⟩ := except_bind_ok h
    refine ⟨readController_ok_iff.mp ⟨_, hVersion⟩, readController_ok_iff.mp ⟨_, hProxies⟩, ?_,
      selectedNode_ok_iff.mp ⟨_, hSelected⟩⟩
    intro role
    refine activeOf_ok_iff.mp (activeEntries_ok_iff.mp ⟨_, hActive⟩ role ?_)
    cases role <;> decide
  · rintro ⟨hVersion, hProxies, hDelays, hCached⟩
    obtain ⟨version, hVersion⟩ := readController_ok_iff.mpr hVersion
    obtain ⟨proxies, hProxies⟩ := readController_ok_iff.mpr hProxies
    have hEach : ∀ role ∈ Role.all, _ := fun role _ => activeOf_ok_iff.mpr (hDelays role)
    obtain ⟨active, hActive⟩ := activeEntries_ok_iff.mpr hEach
    obtain ⟨selected, hSelected⟩ := selectedNode_ok_iff.mpr hCached
    have hPayload : payloadOf room input g =
        if decide (version.1 = .ok) && decide (proxies.1 = .ok) then proxies.2 else none := by
      unfold payloadOf
      simp only [hVersion, hProxies]
    rw [hPayload] at hActive hSelected
    unfold collectSample
    refine ⟨_, except_bind_ok_iff.mpr ⟨version, hVersion, except_bind_ok_iff.mpr ⟨proxies, hProxies,
      except_bind_ok_iff.mpr ⟨active, hActive, except_bind_ok_iff.mpr ⟨selected, hSelected, rfl⟩⟩⟩⟩⟩

/-
  A cycle has a sample, and one that passes, exactly where it
  returns one and it is encodable.
-/
theorem encodable_law (ip : IpLibrary A) (room : ℕ) (input : CycleInput F) (g : ProbeAgent F) :
    (∃ sample next, collectSample ip room input g = .ok (sample, next) ∧ validateSample sample = .ok []) ↔
      Returns room input g ∧ Encodable ip input g := by
  rw [← collectSample_ok_iff ip]
  constructor
  · rintro ⟨sample, next, hSample, hValid⟩
    exact ⟨⟨_, hSample⟩, (validateSample_collect ip room input g next sample hSample).mp hValid⟩
  · rintro ⟨⟨⟨sample, next⟩, hSample⟩, hEncodable⟩
    exact ⟨sample, next, hSample, (validateSample_collect ip room input g next sample hSample).mpr hEncodable⟩

/- A library that knows no address. -/
def noAddresses : IpLibrary Unit where
  ipAddress _ := none
  isGlobal _ := false
  isMulticast _ := false
  text _ := []

def plainConfig : ProbeConfig ExactRat where
  probeId := pyStr "office"
  realityNode := pyStr "vps-reality"
  hy2Node := pyStr "vps-hy2"
  watchedGroup := none
  cycleDeadline := ⟨20⟩
  delayCeiling := 5000
  expectedStatus := .s200
  strictIp := false
  grammar := by decide
  distinct := by decide

def freshAgent : ProbeAgent ExactRat where
  config := plainConfig
  run := RunId.ofBytes (fun _ => 7)
  seq := 0
  lastSampleEpoch := none
  clockRollbacks := 0
  baseline := none
  pendingBaseline := none
  lastActive := []

/- A controller that is late, and a connect that ends at a time. -/
def connectedAt (stop : ℚ) : CycleInput ExactRat where
  now := ⟨1700000000⟩
  start := ⟨0⟩
  random _ := 9
  version := ⟨⟨0⟩, .late⟩
  proxies := ⟨⟨2⟩, .late⟩
  delays _ := ⟨⟨4⟩, .late⟩
  dns := ⟨⟨4⟩, .finished ⟨⟨4⟩, ⟨5⟩, .finished (.ok true)⟩⟩
  https := ⟨⟨5⟩, .finished ⟨⟨5⟩, ⟨6⟩, .finished (.ok 200)⟩⟩
  tcp := ⟨⟨6⟩, .finished ⟨⟨6⟩, ⟨stop⟩, .finished (.ok ())⟩⟩
  egress := ⟨⟨stop⟩, .late⟩

def problemsAt (stop : ℚ) : Option (Option (List String)) :=
  (collectSample noAddresses 100 (connectedAt stop) freshAgent).toOption.map
    (fun r => (validateSample r.1).toOption)

/- A clock that steps while a worker connects costs the sample. -/
theorem encodable_law_fails : ¬ ∀ (input : CycleInput ExactRat) (g : ProbeAgent ExactRat),
      ∃ sample next, collectSample noAddresses 100 input g = .ok (sample, next) ∧
        validateSample sample = .ok [] := by
  intro hAlways
  have hProblems : problemsAt 131 = some (some ["vps_tcp: ok-invariant"]) := by
    decide +kernel
  obtain ⟨sample, next, hCollect, hPasses⟩ := hAlways (connectedAt 131) freshAgent
  unfold problemsAt at hProblems
  rw [hCollect] at hProblems
  simp only [Except.toOption, Option.map_some, hPasses, Option.some.injEq] at hProblems
  cases hProblems

end SingboxOps.RemoteProbe.Collect
